import Pc110.FloppyLoader
import Pc110.GuestDisk
import Pc110.Library.RealModeBios
import Pc110.Library.RealModeData

/-! The boot sector of the Easy-Setup floppy as code: `boot/setupboot-floppy.asm` in the bytes
that `nasm` makes of it, which `disks/easysetup-floppy.img` starts with, cut into listings. -/
namespace Pc110.Floppy

open LsbBits (Byte)
open ByteMemory (Memory Within)
open RealMode (State Instr Agree Fetches Glides Bios Turn straight load16 bytes16 low_address low_pc)

/-! ## The boot sector -/

def program : List Byte := [
  0xFA, 0x31, 0xC0, 0x8E, 0xD8, 0x8E, 0xC0, 0x8E, 0xD0, 0xBC, 0x00, 0x7C, 0xFB,
  0xBE, 0xB8, 0x7C, 0xBF, 0x00, 0x06, 0xB9, 0x2A, 0x00, 0xFC, 0xF3, 0xA4,
  0x31, 0xC0, 0x8E, 0xC0, 0x26, 0xC7, 0x06, 0x64, 0x00, 0x00, 0x06,
  0x26, 0xC7, 0x06, 0x66, 0x00, 0x00, 0x00, 0x1E, 0x07,
  0xC7, 0x06, 0xF0, 0x7C, 0x00, 0x50, 0xC7, 0x06, 0xF2, 0x7C, 0x01, 0x00, 0xB9, 0xC6, 0x01,
  -- .rd
  0x51, 0xA1, 0xF2, 0x7C, 0x31, 0xD2, 0xBB, 0x24, 0x00, 0xF7, 0xF3,
  0xA2, 0xED, 0x7C, 0x89, 0xD0, 0x31, 0xD2, 0xBB, 0x12, 0x00, 0xF7, 0xF3,
  0xA2, 0xEE, 0x7C, 0x42, 0x88, 0x16, 0xEF, 0x7C, 0xA1, 0xF0, 0x7C, 0x8E, 0xC0, 0x31, 0xDB,
  0xB4, 0x02, 0xB0, 0x01, 0x8A, 0x2E, 0xED, 0x7C, 0x8A, 0x0E, 0xEF, 0x7C, 0x8A, 0x36, 0xEE, 0x7C, 0x30, 0xD2,
  0xCD, 0x13, 0x72, 0x2F, 0xA1, 0xF0, 0x7C, 0x83, 0xC0, 0x20, 0xA3, 0xF0, 0x7C, 0xFF, 0x06, 0xF2, 0x7C,
  0x59, 0xE2, 0xB4, 0xB8, 0x12, 0x00, 0xCD, 0x10,
  0xFA, 0xB8, 0x00, 0x90, 0x8E, 0xD0, 0xBC, 0xFE, 0xFF, 0x31, 0xC0, 0x8E, 0xD8, 0x8E, 0xC0,
  0x6A, 0x00, 0x68, 0x00, 0x06, 0xFB, 0xEA, 0x00, 0x00, 0x00, 0x50,
  -- .err
  0xBE, 0xE2, 0x7C, 0xAC, 0x08, 0xC0, 0x74, 0x06, 0xB4, 0x0E, 0xCD, 0x10, 0xEB, 0xF5, 0xF4, 0xEB, 0xFD,
  -- exit_stub
  0xFA, 0x31, 0xC0, 0x8E, 0xD8, 0x8E, 0xC0, 0x8E, 0xD0, 0xBC, 0x00, 0x7C, 0xFB,
  0xB4, 0x02, 0xB0, 0x01, 0xB5, 0x00, 0xB1, 0x01, 0xB6, 0x00, 0xB2, 0x80, 0xBB, 0x00, 0x7C,
  0xCD, 0x13, 0x72, 0x07, 0xB2, 0x80, 0xEA, 0x00, 0x7C, 0x00, 0x00, 0xF4, 0xEB, 0xFD]

def errmsg : List Byte := [0x46, 0x4C, 0x4F, 0x50, 0x50, 0x59, 0x20, 0x45, 0x52, 0x52, 0x00]

/-- The code, the message, the variables and the signature. -/
def bootSector : List Byte := program ++ errmsg ++ List.replicate 273 0 ++ [0x55, 0xAA]

def exitStub : List Byte := (program.drop 0xB8).take 42

theorem exitStub_length : exitStub.length = 42 := by decide

/-! ## Listings -/

section Listings

abbrev Stands (j : Nat) (bytes : List Byte) (i : Instr) : Prop := RealMode.Stands (program ++ errmsg) j bytes i

abbrev InProgram (j : Nat) (code : List (List Byte × Instr)) : Prop := RealMode.Listed (program ++ errmsg) j code

structure Rest : Prop where
  start : Stands 0x00 [0xFA] .cli
  stackSet : Stands 0x0C [0xFB] .sti
  copy : Stands 0x17 [0xF3, 0xA4] (.repMovs .ds false)
  pushDs : Stands 0x2B [0x1E] (.pushSeg .ds)
  popEs : Stands 0x2C [0x07] (.popSeg .es)
  rd : Stands 0x3C [0x51] (.push .cx)
  divCylinder : Stands 0x45 [0xF7, 0xF3] (.div (.reg .bx))
  divTrack : Stands 0x51 [0xF7, 0xF3] (.div (.reg .bx))
  int13 : Stands 0x74 [0xCD, 0x13] (.int 0x13)
  carry : Stands 0x76 [0x72, 0x2F] (.jumpIf .carry 0x2F)
  popCx : Stands 0x85 [0x59] (.pop .cx)
  again : Stands 0x86 [0xE2, 0xB4] (.loop 0xFFB4)
  mode : Stands 0x88 [0xB8, 0x12, 0x00] (.movImm (.reg .ax) 0x0012)
  int10 : Stands 0x8B [0xCD, 0x10] (.int 0x10)
  enter : Stands 0x8D [0xFA] .cli
  returnCs : Stands 0x9C [0x6A, 0x00] (.pushImm 0x0000)
  returnIp : Stands 0x9E [0x68, 0x00, 0x06] (.pushImm 0x0600)
  entering : Stands 0xA1 [0xFB] .sti
  jump : Stands 0xA2 [0xEA, 0x00, 0x00, 0x00, 0x50] (.jumpFar 0x5000 0x0000)
  err : Stands 0xA7 [0xBE, 0xE2, 0x7C] (.movImm (.reg .si) 0x7CE2)
  pr : Stands 0xAA [0xAC] (.lods .ds)
  test : Stands 0xAB [0x08, 0xC0] (.aluByte .or (.reg ⟨.ax, false⟩) (.reg ⟨.ax, false⟩))
  last : Stands 0xAD [0x74, 0x06] (.jumpIf .zero 0x06)
  teletype : Stands 0xAF [0xB4, 0x0E] (.movByteImm ⟨.ax, true⟩ 0x0E)
  shown : Stands 0xB1 [0xCD, 0x10] (.int 0x10)
  next : Stands 0xB3 [0xEB, 0xF5] (.jump 0xFFF5)
  h : Stands 0xB5 [0xF4] .hlt
  wait : Stands 0xB6 [0xEB, 0xFD] (.jump 0xFFFD)

set_option maxRecDepth 4096 in
theorem rest : Rest := by constructor <;> decide

set_option maxRecDepth 4096 in
theorem text_length : (program ++ errmsg).length = 237 := rfl

end Listings

/-! ## What the listings leave -/

section Effects
variable {s : State}

end Effects

end Pc110.Floppy
