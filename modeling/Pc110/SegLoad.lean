import Pc110.LooseCall

/-! Loading a segment register in loose PM, against the resolver. Within the table both are the
same; beyond it the load takes its segment from a synthesised descriptor, which carries the
selector's RPL as a DPL and keeps bits of the base in its flags. -/
namespace Pc110.SegHelper

open Faulting (bind_ok bind_error)

/-- The stock `helper_load_seg` on a null selector, and behind the reads of a descriptor. -/
structure StockLoad where
  loadNull : Seg → Word → Helper Unit
  loadDescriptor : Seg → Word → (Word × Word) → Helper Unit
  deriving Inhabited

/-- `cpu_x86_load_seg_cache` with a selector's base, limit and flags. -/
def installSeg (seg : Seg) (selector : Word) (r : Resolved) : Helper Unit :=
  modify fun s => { s with env := loadSegCache s.env seg ⟨selector, r.base, r.limit, r.flags⟩ }

def helperLoadSeg (q : StockLoad) (seg : Seg) (selector : Word) : Helper Unit := do
  let selector := selector &&& 0xFFFF
  if selector &&& 0xFFFC = 0 then q.loadNull seg selector
  else
    let s ← get
    if (table s.env selector).limit < index selector + 7 then
      match pc110SynthDesc s selector (seg = .cs) with
      | some (e1, e2) => installSeg seg selector ⟨getSegBase e1 e2, getSegLimit e1 e2, e2⟩
      | none => raiseExceptionErrRa (.gpf (selector &&& 0xFFFC)) .getpc
    else
      let d ← descriptorAt s.env selector .getpc
      if pc110LoosePm s then
        let r ← pc110ResolveSeg selector (seg = .cs)
        installSeg seg selector r
      else q.loadDescriptor seg selector d

/-- The load installs what the resolver returns, or faults as it does, at the beginning of the
instruction. -/
def LoadsAsResolved (q : StockLoad) (seg : Seg) (selector : Word) (s : Sys) : Prop :=
  helperLoadSeg q seg selector s =
    restoring .getpc (pc110ResolveSeg (selector &&& 0xFFFF) (seg = .cs) >>= installSeg seg (selector &&& 0xFFFF)) s

/-- Beyond its table, or an empty slot in it. -/
def NoDescriptor (selector : Word) (s : Sys) : Prop :=
  InLimit selector s → ∃ d, descriptorAt s.env selector .zero s = .ok d s ∧ accessByte d.2 = 0

/-- P, DPL, S and the type, and AVL, L, D/B and G. -/
def kindMask : Word := 0x00F0FF00

/-- The load installs the synthesised segment: its base, limit, type and DPL. -/
def LoadsSynthesised (q : StockLoad) (seg : Seg) (selector : Word) (s : Sys) : Prop :=
  ∃ s', helperLoadSeg q seg selector s = .ok () s' ∧
    (s'.env.segs seg).base = pc110LooseBase (selector &&& 0xFFFF) ∧ (s'.env.segs seg).limit = 0xFFFF ∧
    (s'.env.segs seg).flags &&& kindMask = looseFlags (seg = .cs) &&& kindMask

section Synth

/-- The flags of a synthesised descriptor besides the pieces of its base. -/
def synthFlags (selector : Word) (isCode : Bool) : Word := ((selector &&& 3) <<< 13) ||| looseFlags isCode

def synthWords (selector : Word) (isCode : Bool) : Word × Word :=
  let base := pc110LooseBase selector
  (((base &&& 0xFFFF) <<< 16) ||| 0xFFFF,
    ((base >>> 16) &&& 0xFF) ||| (base &&& 0xFF000000) ||| synthFlags selector isCode)

variable (selector : Word) (isCode : Bool)

theorem pc110SynthDesc_on {s : Sys} (loose : pc110LoosePm s = true) :
    pc110SynthDesc s selector isCode = some (synthWords selector isCode) := by
  have order (u v x y z : Word) : u ||| v ||| x ||| y ||| z = y ||| (u ||| v ||| x ||| z) := by
    ext i h
    simp only [BitVec.getElem_or]
    cases u[i] <;> cases v[i] <;> cases x[i] <;> cases y[i] <;> rfl
  rw [pc110SynthDesc, if_neg (not_not.mpr loose), synthWords, synthFlags, looseFlags, ← order]
  simp only [BitVec.or_assoc]
  rfl

/-- The fallback has DPL 0, and neither a limit nor pieces of a base. -/
theorem looseFlags_bit {i : Nat} (h : i < 32) (outside : i < 8 ∨ i = 13 ∨ i = 14 ∨ 16 ≤ i) :
    (looseFlags isCode)[i] = false := by
  have all : ∀ code : Bool, ∀ j < 32, (j < 8 ∨ j = 13 ∨ j = 14 ∨ 16 ≤ j) → (looseFlags code).getLsbD j = false := by
    decide
  rw [← BitVec.getLsbD_eq_getElem]
  exact all isCode i h outside

theorem rpl_bit {i : Nat} (h : i < 32) (notLow : i ≠ 13) (notHigh : i ≠ 14) :
    (((selector &&& 3) <<< 13 : Word))[i] = false := by
  by_cases below : i < 13
  · simp [below]
  · have three : (3 : Word).getLsbD (i - 13) = false := by
      have all : ∀ j < 32, 2 ≤ j → (3 : Word).getLsbD j = false := by decide
      exact all _ (by omega) (by omega)
    rw [← BitVec.getLsbD_eq_getElem, BitVec.getLsbD_shiftLeft, BitVec.getLsbD_and, three, Bool.and_false,
      Bool.and_false]

theorem synthFlags_bit {i : Nat} (h : i < 32) (outer : i < 8 ∨ 16 ≤ i) : (synthFlags selector isCode)[i] = false := by
  rw [synthFlags, BitVec.getElem_or, looseFlags_bit isCode h (by omega), rpl_bit selector h (by omega) (by omega),
    Bool.or_false]

theorem synthWords_base : getSegBase (synthWords selector isCode).1 (synthWords selector isCode).2 =
    pc110LooseBase selector := by
  apply getSegBase_pieces _ _ _ _ (by decide)
  apply BitVec.eq_of_getElem_eq
  intro i h
  by_cases outer : i < 8 ∨ 16 ≤ i
  · simp [synthFlags_bit selector isCode h outer]
  · interval_cases i <;> first | omega | simp

/-- Between the pieces of the base a synthesised descriptor has nothing of a limit. -/
theorem synthWords_bit {i : Nat} (h : i < 32) (between : 16 ≤ i ∧ i < 24) :
    (synthWords selector isCode).2[i] = false := by
  have flags := synthFlags_bit selector isCode h (by omega)
  rw [synthWords, BitVec.getElem_or, flags, Bool.or_false]
  interval_cases i <;> first | omega | simp

theorem synthWords_limit : getSegLimit (synthWords selector isCode).1 (synthWords selector isCode).2 = 0xFFFF := by
  have bytes : (synthWords selector isCode).2 &&& descG = 0 :=
    (Masks.masked_bit_iff _ 23 (by decide)).mpr (synthWords_bit selector isCode (by decide) (by decide))
  have high : (synthWords selector isCode).2 &&& 0x000F0000 = 0 := by
    have bits : ∀ i (h : i < 32), (0x000F0000 : Word)[i] = true →
        (synthWords selector isCode).2[i] = (0 : Word)[i] := by
      intro i h set
      have within : ∀ j < 32, (0x000F0000 : Word).getLsbD j = true → 16 ≤ j ∧ j < 24 := by decide
      rw [synthWords_bit selector isCode h (within i h (by rwa [BitVec.getLsbD_eq_getElem]))]
      exact (BitVec.getElem_zero h).symm
    exact (Masks.masked_eq_iff.mpr bits).trans BitVec.zero_and
  have low : (synthWords selector isCode).1 &&& 0xFFFF = 0xFFFF := by
    ext i h
    rw [synthWords, BitVec.getElem_and, BitVec.getElem_or]
    cases (0xFFFF : Word)[i]
    · rw [Bool.and_false]
    · rw [Bool.or_true, Bool.true_and]
  rw [getSegLimit, if_neg (not_not.mpr bytes), low, high]
  rfl

theorem pc110LooseBase_bit {i : Nat} (high : 20 ≤ i) : (pc110LooseBase selector).getLsbD i = false := by
  by_cases h : i < 32
  · have word : (0xFFFF : Word).getLsbD (i - 4) = false := by
      have all : ∀ j < 32, 16 ≤ j → (0xFFFF : Word).getLsbD j = false := by decide
      exact all _ (by omega) (by omega)
    have top : (0x000F0000 : Word).getLsbD i = false := by
      have all : ∀ j < 32, 20 ≤ j → (0x000F0000 : Word).getLsbD j = false := by decide
      exact all i h high
    simp only [pc110LooseBase]
    split_ifs
    · exact top
    · exact BitVec.getLsbD_zero
    · rw [BitVec.getLsbD_shiftLeft, BitVec.getLsbD_and, word, Bool.and_false, Bool.and_false]
  · exact BitVec.getLsbD_of_ge _ i (by omega)

/-- The pieces of a synthesised base are the part above 64K. -/
theorem synthWords_snd :
    (synthWords selector isCode).2 = (pc110LooseBase selector >>> 16) ||| synthFlags selector isCode := by
  refine congrArg (· ||| synthFlags selector isCode) ?_
  have high := @pc110LooseBase_bit selector
  apply BitVec.eq_of_getLsbD_eq
  intro i h
  rw [BitVec.getLsbD_or, BitVec.getLsbD_and, BitVec.getLsbD_and, BitVec.getLsbD_ushiftRight]
  by_cases low : i < 4
  · have ones : (0xFF : Word).getLsbD i = true ∧ (0xFF000000 : Word).getLsbD i = false := by
      have all : ∀ j < 4, (0xFF : Word).getLsbD j = true ∧ (0xFF000000 : Word).getLsbD j = false := by decide
      exact all i low
    rw [ones.1, ones.2, Bool.and_true, Bool.and_false, Bool.or_false]
  · rw [high (i := 16 + i) (by omega), Bool.false_and, Bool.false_or]
    by_cases top : 20 ≤ i
    · rw [high top, Bool.false_and]
    · have zeros : (0xFF000000 : Word).getLsbD i = false := by
        have all : ∀ j < 24, (0xFF000000 : Word).getLsbD j = false := by decide
        exact all i (by omega)
      rw [zeros, Bool.and_false]

/-- Each flag of a synthesised descriptor: the base above 64K, the RPL, or the fallback's. -/
theorem synthWords_snd_bit {i : Nat} (h : i < 32) : (synthWords selector isCode).2[i] =
    ((pc110LooseBase selector).getLsbD (16 + i) || ((selector &&& 3) <<< 13 : Word)[i] ||
      (looseFlags isCode)[i]) := by
  rw [synthWords_snd, synthFlags, BitVec.getElem_or, BitVec.getElem_or, BitVec.getElem_ushiftRight, Bool.or_assoc]

theorem rpl_zero_iff : selector &&& 3 = 0 ↔ ∀ i < 2, selector.getLsbD i = false := by
  have three : ∀ i < 32, (3 : Word).getLsbD i = decide (i < 2) := by decide
  constructor
  · intro zero i low
    have bit := congrArg (BitVec.getLsbD · i) zero
    simp only [BitVec.getLsbD_and, three i (by omega), low, decide_true, Bool.and_true] at bit
    exact bit.trans BitVec.getLsbD_zero
  · intro bits
    apply BitVec.eq_of_getLsbD_eq
    intro i h
    rw [BitVec.getLsbD_and, three i h]
    by_cases low : i < 2
    · rw [bits i low, Bool.false_and]
      exact BitVec.getLsbD_zero.symm
    · rw [decide_eq_false low, Bool.and_false]
      exact BitVec.getLsbD_zero.symm

theorem looseBase_lt_iff :
    pc110LooseBase selector < 0x10000 ↔ ∀ i < 8, (pc110LooseBase selector).getLsbD (16 + i) = false := by
  rw [BitVec.lt_def]
  change _ < 2 ^ 16 ↔ _
  constructor
  · intro small i _
    exact Nat.testBit_lt_two_pow (Nat.lt_of_lt_of_le small (Nat.pow_le_pow_right (by decide) (by omega)))
  · intro bits
    have zero : pc110LooseBase selector >>> 16 = 0 := by
      apply BitVec.eq_of_getLsbD_eq
      intro i h
      rw [BitVec.getLsbD_ushiftRight]
      by_cases low : i < 8
      · exact (bits i low).trans BitVec.getLsbD_zero.symm
      · exact (pc110LooseBase_bit selector (by omega)).trans BitVec.getLsbD_zero.symm
    have quotient := congrArg BitVec.toNat zero
    rw [BitVec.toNat_ushiftRight, Nat.shiftRight_eq_div_pow] at quotient
    change _ = 0 at quotient
    omega

/-- The RPL stands where the DPL does. -/
theorem dpl_bits (same : ∀ i (h : i < 32), kindMask[i] = true →
    (synthWords selector isCode).2[i] = (looseFlags isCode)[i]) : selector &&& 3 = 0 := by
  have low := same 13 (by decide) (by decide)
  have high := same 14 (by decide) (by decide)
  rw [synthWords_snd_bit, pc110LooseBase_bit selector (by omega),
    looseFlags_bit isCode (by decide) (by omega)] at low high
  apply (rpl_zero_iff selector).mpr
  intro i below
  interval_cases i
  · simpa using low
  · simpa using high

/-- The flags of a synthesised descriptor are the resolver's as far as base and RPL leave them. -/
theorem synthWords_flags : (synthWords selector isCode).2 = looseFlags isCode ↔
    selector &&& 3 = 0 ∧ pc110LooseBase selector < 0x10000 := by
  rw [looseBase_lt_iff]
  constructor
  · intro same
    refine ⟨dpl_bits selector isCode fun i h _ => by rw [same], fun i low => ?_⟩
    have bit := synthWords_snd_bit selector isCode (show i < 32 by omega)
    rw [same, looseFlags_bit isCode (by omega) (.inl low), rpl_bit selector (by omega) (by omega) (by omega)] at bit
    simpa using bit.symm
  · rintro ⟨rpl, small⟩
    ext i h
    rw [synthWords_snd_bit, rpl]
    by_cases low : i < 8
    · rw [small i low]
      simp
    · rw [pc110LooseBase_bit selector (by omega)]
      simp

/-- Of what the processor goes by they differ in the DPL. -/
theorem synthWords_kind : (synthWords selector isCode).2 &&& kindMask = looseFlags isCode &&& kindMask ↔
    selector &&& 3 = 0 := by
  rw [Masks.masked_eq_iff]
  constructor
  · exact dpl_bits selector isCode
  · intro rpl i h set
    have above : ∀ j < 32, kindMask.getLsbD j = true → 8 ≤ j := by decide
    have high := above i h (by rwa [BitVec.getLsbD_eq_getElem])
    rw [synthWords_snd_bit, rpl, pc110LooseBase_bit selector (by omega)]
    simp

end Synth

section Load
variable {q : StockLoad} {seg : Seg} {selector : Word} {s : Sys}

def loaded (s : Sys) (seg : Seg) (selector : Word) (r : Resolved) : Sys :=
  { s with env := loadSegCache s.env seg ⟨selector, r.base, r.limit, r.flags⟩ }

theorem loaded_cache (s : Sys) (seg : Seg) (selector : Word) (r : Resolved) :
    (loaded s seg selector r).env.segs seg = ⟨selector, r.base, r.limit, r.flags⟩ := by
  simp [loaded, loadSegCache]

/-- Beyond its table a selector gets the synthesised descriptor. -/
theorem helperLoadSeg_out (loose : pc110LoosePm s = true) (notNull : (selector &&& 0xFFFF) &&& 0xFFFC ≠ 0)
    (out : ¬ InLimit (selector &&& 0xFFFF) s) : helperLoadSeg q seg selector s = .ok ()
      (loaded s seg (selector &&& 0xFFFF) ⟨pc110LooseBase (selector &&& 0xFFFF), 0xFFFF,
        (synthWords (selector &&& 0xFFFF) (seg = .cs)).2⟩) := by
  have beyond : (table s.env (selector &&& 0xFFFF)).limit < index (selector &&& 0xFFFF) + 7 := BitVec.not_le.mp out
  simp only [helperLoadSeg]
  rw [if_neg notNull, Faulting.get_bind, if_pos beyond, pc110SynthDesc_on _ _ loose]
  simp only [synthWords_base, synthWords_limit]
  rfl

/-- Within it the load is the resolver's, faults included. -/
theorem helperLoadSeg_in (loose : pc110LoosePm s = true) (notNull : (selector &&& 0xFFFF) &&& 0xFFFC ≠ 0)
    (inside : InLimit (selector &&& 0xFFFF) s) : LoadsAsResolved q seg selector s := by
  have within : ¬ (table s.env (selector &&& 0xFFFF)).limit < index (selector &&& 0xFFFF) + 7 :=
    BitVec.not_lt.mpr inside
  unfold LoadsAsResolved
  simp only [helperLoadSeg]
  rw [if_neg notNull, Faulting.get_bind, if_neg within]
  rcases reads_descriptor s.env (selector &&& 0xFFFF) .zero s with ⟨d, read⟩ | ⟨p, fault⟩
  · have first : descriptorAt s.env (selector &&& 0xFFFF) .getpc s = .ok d s := by
      rw [descriptorAt_restoring, restoring_ok read]
    rw [bind_ok first, if_pos loose]
    have again := bind_ok (f := installSeg seg (selector &&& 0xFFFF)) (resolve_in (seg = .cs) notNull inside read)
    exact again.trans (restoring_ok again).symm
  · have first : descriptorAt s.env (selector &&& 0xFFFF) .getpc s = .error (.page p) s.unwound := by
      rw [descriptorAt_restoring, restoring_error fault]
      rfl
    rw [bind_error first, restoring_error (bind_error (resolve_fault _ notNull inside fault))]
    rfl

theorem resolved_out (out : ¬ InLimit (selector &&& 0xFFFF) s) :
    (pc110ResolveSeg (selector &&& 0xFFFF) (seg = .cs) >>= installSeg seg (selector &&& 0xFFFF)) s =
      .ok () (loaded s seg (selector &&& 0xFFFF) (looseSegment (selector &&& 0xFFFF) (seg = .cs))) := by
  rw [bind_ok (resolve_out _ fun both => out both.2)]
  rfl

theorem loadsAsResolved_out (loose : pc110LoosePm s = true) (notNull : (selector &&& 0xFFFF) &&& 0xFFFC ≠ 0)
    (out : ¬ InLimit (selector &&& 0xFFFF) s) : LoadsAsResolved q seg selector s ↔
      (selector &&& 0xFFFF) &&& 3 = 0 ∧ pc110LooseBase (selector &&& 0xFFFF) < 0x10000 := by
  rw [LoadsAsResolved, helperLoadSeg_out loose notNull out, restoring_ok (resolved_out out), ← synthWords_flags _ (seg = .cs)]
  constructor
  · intro same
    injection same with _ states
    have caches := congrArg (fun s => (Env.segs (Sys.env s) seg).flags) states
    simp only [loaded_cache] at caches
    exact caches
  · intro flags
    rw [flags]
    rfl

theorem loadsSynthesised_out (loose : pc110LoosePm s = true) (notNull : (selector &&& 0xFFFF) &&& 0xFFFC ≠ 0)
    (out : ¬ InLimit (selector &&& 0xFFFF) s) : LoadsSynthesised q seg selector s ↔
      (selector &&& 0xFFFF) &&& 3 = 0 := by
  rw [LoadsSynthesised, helperLoadSeg_out loose notNull out, ← synthWords_kind _ (seg = .cs)]
  constructor
  · rintro ⟨s', ran, -, -, flags⟩
    cases ran
    rwa [loaded_cache] at flags
  · intro flags
    refine ⟨_, rfl, ?_⟩
    rw [loaded_cache]
    exact ⟨rfl, rfl, flags⟩

theorem loadsSynthesised_in (loose : pc110LoosePm s = true) (notNull : (selector &&& 0xFFFF) &&& 0xFFFC ≠ 0)
    (inside : InLimit (selector &&& 0xFFFF) s) (none : NoDescriptor (selector &&& 0xFFFF) s) :
    LoadsSynthesised q seg selector s := by
  obtain ⟨d, read, empty⟩ := none inside
  have resolves := resolve_in (seg = .cs) notNull inside read
  rw [if_neg (not_not.mpr empty)] at resolves
  have load : LoadsAsResolved q seg selector s := helperLoadSeg_in loose notNull inside
  rw [LoadsAsResolved,
    restoring_ok (bind_ok (f := installSeg seg (selector &&& 0xFFFF)) resolves)] at load
  refine ⟨_, load, ?_⟩
  change ((loaded s seg _ _).env.segs seg).base = _ ∧ ((loaded s seg _ _).env.segs seg).limit = _ ∧
    ((loaded s seg _ _).env.segs seg).flags &&& _ = _
  rw [loaded_cache]
  exact ⟨rfl, rfl, rfl⟩

end Load

/-- A load installs what the resolver returns exactly within the table, or where neither RPL nor
base show in the synthesised flags; the synthesised segment is the same but for its DPL. -/
theorem loadsAsResolved_iff (q : StockLoad) (s : Sys) (loose : pc110LoosePm s = true) (seg : Seg)
    (selector : Word) (notNull : (selector &&& 0xFFFF) &&& 0xFFFC ≠ 0) :
    (LoadsAsResolved q seg selector s ↔ InLimit (selector &&& 0xFFFF) s ∨
      ((selector &&& 0xFFFF) &&& 3 = 0 ∧ pc110LooseBase (selector &&& 0xFFFF) < 0x10000)) ∧
    (NoDescriptor (selector &&& 0xFFFF) s → (LoadsSynthesised q seg selector s ↔
      InLimit (selector &&& 0xFFFF) s ∨ (selector &&& 0xFFFF) &&& 3 = 0)) := by
  by_cases inside : InLimit (selector &&& 0xFFFF) s
  · refine ⟨iff_of_true (helperLoadSeg_in loose notNull inside) (.inl inside), fun none => ?_⟩
    exact iff_of_true (loadsSynthesised_in loose notNull inside none) (.inl inside)
  · simp only [inside, false_or]
    exact ⟨loadsAsResolved_out loose notNull inside, fun _ => loadsSynthesised_out loose notNull inside⟩

/-- A data segment at 70h beyond the table. -/
theorem loadsAsResolved_unrealDriver : LoadsAsResolved default .ds 0x70 (unrealDriver 0x2F) :=
  (loadsAsResolved_iff default (unrealDriver 0x2F) rfl .ds 0x70 (by decide)).1.mpr (.inr (by decide))

/-- Selector 73h in SS takes the CPL to 3; in an empty slot of the table it would stay 0. -/
theorem not_loadsAsResolved_unrealDriver : (¬ ∀ (q : StockLoad) (s : Sys), pc110LoosePm s = true →
    ∀ (seg : Seg) (selector : Word), (selector &&& 0xFFFF) &&& 0xFFFC ≠ 0 → LoadsAsResolved q seg selector s) ∧
    (∃ s', helperLoadSeg default .ss 0x73 (unrealDriver 0x2F) = .ok () s' ∧ s'.env.cpl = 3) ∧
    ∃ s', helperLoadSeg default .ss 0x73 (unrealDriver 0xFF) = .ok () s' ∧ s'.env.cpl = 0 := by
  refine ⟨fun every => ?_, ⟨_, rfl, rfl⟩, ⟨_, rfl, rfl⟩⟩
  have uniform := (loadsAsResolved_out rfl (by decide) (by unfold InLimit; decide)).mp
    (every default (unrealDriver 0x2F) rfl .ss 0x73 (by decide))
  exact absurd uniform.1 (by decide)

end Pc110.SegHelper
