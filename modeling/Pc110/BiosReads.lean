import Pc110.GuestDisk
import Pc110.Library.RealModeBios
import Pc110.Library.RealModeData

/-! Sectors that a program reads one at a time through INT 13h, on a BIOS of its own. -/
namespace Pc110

open LsbBits (Byte)
open ByteMemory (Within)
open RealMode (State Bios Back)

/-- The sector a read starts at, on a drive with `heads` heads and `spt` sectors a track. -/
def Int13.Request.lbaOf (heads spt : Nat) (r : Int13.Request) : Nat :=
  (r.cylinder * heads + r.head) * spt + (r.sector - 1)

/-- A read of sector `n` of drive `d`. -/
structure AsksForSector (d : Byte) (heads spt : Nat) (s : State) (n : Nat) : Prop where
  function : s.half ⟨.ax, true⟩ = 0x02
  drive : s.half ⟨.dx, false⟩ = d
  count : (diskRequest s).count = 1
  head : (diskRequest s).head < heads
  sector : 1 ≤ (diskRequest s).sector
  track : (diskRequest s).sector ≤ spt
  lba : (diskRequest s).lbaOf heads spt = n

def readBuffer (s : State) : Nat := s.address .es (s.regs .bx)

/-- Reads of drive `d` come back with the sector in the buffer or, where reads may fail, with the
carry flag. -/
structure ReadsSectors (P : Nat → Prop) (d : Byte) (heads spt : Nat) (disk : List Byte) (depth : Nat) (fails : Prop)
    (bios : Bios) : Prop extends bios.Spares P depth where
  reads : ∀ s n, AsksForSector d heads spt s n → n < disk.length / 512 → ∃ t, bios.serves 0x13 s t
  read : ∀ s n t, AsksForSector d heads spt s n → n < disk.length / 512 → bios.serves 0x13 s t →
    Back P depth (Within (readBuffer s) 512) s t ∧
      (t.flags &&& RealMode.carryFlag = 0 ∧ ByteMemory.read t.mem (readBuffer s) 512 = Int13.sectorAt disk n ∨
        fails ∧ t.flags &&& RealMode.carryFlag ≠ 0)

theorem AsksForSector.congr {d : Byte} {heads spt n : Nat} {s t : State} (asks : AsksForSector d heads spt s n)
    (same : t.regs = s.regs) : AsksForSector d heads spt t n := by
  have half := RealMode.half_congr same
  have request : diskRequest t = diskRequest s := by simp only [diskRequest, half]
  obtain ⟨function, drive, count, head, sector, track, lba⟩ := asks
  rw [← request] at count head sector track lba
  exact ⟨(half _).trans function, (half _).trans drive, count, head, sector, track, lba⟩

end Pc110
