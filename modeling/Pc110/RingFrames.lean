import Pc110.MemoryPattern
import Pc110.PostRun

/-! The rings of recent PCs under a step of the machine. Each enabled call records its PC once,
before any branch; no branch touches the rings after that, and nothing between the calls does. -/
namespace Pc110

open Cascade (guarded Keeps guarded_keeps)

structure Rings where
  lin : Nat → Word
  linPos : Word
  dos : Nat → Word
  dosPos : Word

def Diag.rings (d : Diag) : Rings := ⟨d.linRing, d.linRingPos, d.dosRing, d.dosRingPos⟩

/-- A call's PC entered into the rings. -/
def Rings.record (r : Rings) (pc : Word) : Rings where
  lin := Function.update r.lin (r.linPos &&& 255).toNat pc
  linPos := r.linPos + 1
  dos := if pc < 0xA0000 then Function.update r.dos (r.dosPos &&& 15).toNat pc else r.dos
  dosPos := if pc < 0xA0000 then r.dosPos + 1 else r.dosPos

/-- What only the first two stages touch. -/
def Machine.tracked (m : Machine) : Option Bool × Rings := (m.statics.enabled, m.diag.rings)

section Stages
variable {q : Stock} {site : Site} {pc : Word} {m : Machine} {off : BitVec 16}

@[simp] theorem report_rings (d : Diag) (r : Report) : (d.report r).rings = d.rings := rfl

@[simp] theorem count_rings (d : Diag) (s : Shown) : (d.count s).rings = d.rings := rfl

@[simp] theorem reportUpTo_rings (d : Diag) (s : Shown) (limit : Nat) (r : Report) :
    (d.reportUpTo s limit r).rings = d.rings := by
  unfold Diag.reportUpTo
  split <;> rfl

theorem trackPc_rings (pc : Word) (m : Machine) : (trackPc pc m).rings = m.diag.rings.record pc := by
  unfold trackPc Rings.record
  by_cases low : pc < 0xA0000
  · simp only [if_pos low]
    split
    · exact reportUpTo_rings _ _ _ _
    · rfl
  · simp only [if_neg low]
    rfl

/-- Diagnostics that print and count leave the rings alone. -/
theorem note_keeps {f : Machine → Diag} (quiet : ∀ m, (f m).rings = m.diag.rings) :
    Keeps Machine.tracked (note f) :=
  fun m => Prod.ext rfl (quiet m)

theorem reportOnly_keeps {f : Machine → Diag} (quiet : ∀ m, (f m).rings = m.diag.rings) :
    Keeps Machine.tracked (reportOnly f) :=
  fun m => Prod.ext rfl (quiet m)

theorem leave_keeps {taken : Bool} {f : Machine → Machine} (keeps : ∀ m, (f m).tracked = m.tracked) :
    Keeps Machine.tracked (leave taken f) :=
  keeps

theorem afterHits_keeps (c : Counter) (limit : Nat) {complete : Machine → Machine}
    (keeps : ∀ m, (complete m).tracked = m.tracked) : Keeps Machine.tracked (afterHits c limit complete) := by
  intro m
  unfold afterHits
  split
  · rfl
  · exact keeps _

theorem esLog_rings (m : Machine) : (esLog m).rings = m.diag.rings := reportUpTo_rings _ _ _ _

theorem traceRing_rings (pc : Word) (m : Machine) : (traceRing pc m).rings = m.diag.rings := by
  unfold traceRing
  dsimp only
  split <;> rfl

theorem outsideBios_rings (pc : Word) (m : Machine) : (outsideBios pc m).rings = m.diag.rings := by
  unfold outsideBios
  dsimp only
  split_ifs <;> rfl

theorem kbDisp_rings (off : BitVec 16) (m : Machine) : (kbDisp off m).rings = m.diag.rings := by
  unfold kbDisp
  dsimp only
  split <;> rfl

theorem shutdownSet_rings (prevOff : BitVec 16) (m : Machine) : (shutdownSet prevOff m).rings = m.diag.rings := by
  unfold shutdownSet
  split
  · exact reportUpTo_rings _ _ _ _
  · rfl

theorem portReset_tracked (q : Stock) (m : Machine) : (portReset q m).tracked = m.tracked := by
  unfold portReset
  dsimp only
  split <;> rfl

theorem resetHistory_rings (m : Machine) : (resetHistory m).rings = m.diag.rings := reportUpTo_rings _ _ _ _

theorem warmReset_tracked (q : Stock) (prevOff : BitVec 16) (m : Machine) :
    (warmReset q prevOff m).tracked = m.tracked := by
  have logged (m : Machine) (cur72 : List LsbBits.Byte) :
      (if m.has .pc110RstLog then logReset prevOff cur72 m else m).tracked = m.tracked := by
    split <;> rfl
  have dumped (m : Machine) :
      (if m.statics.booted ∧ m.has .pc110RstLog then { m with diag := resetHistory m } else m).tracked = m.tracked := by
    split
    · exact Prod.ext rfl (resetHistory_rings m)
    · rfl
  refine (dumped _).trans ((logged _ _).trans ?_)
  split <;> rfl

/-- The stages between the first two and the handlers of the F-segment. -/
theorem entry_keeps (q : Stock) (site : Site) : ∀ stage ∈ (entryStages q site).drop 2, Keeps Machine.tracked stage := by
  intro stage member
  simp only [entryStages, List.drop_succ_cons, List.drop_zero, List.mem_cons, List.not_mem_nil, or_false] at member
  rcases member with rfl | rfl | rfl | rfl | rfl
  · exact guarded_keeps (note_keeps esLog_rings)
  · exact guarded_keeps (leave_keeps fun _ => rfl)
  · exact guarded_keeps (note_keeps (traceRing_rings _))
  · exact guarded_keeps (leave_keeps (portReset_tracked q))
  · exact guarded_keeps (reportOnly_keeps (outsideBios_rings _))

theorem freshPost_keeps : Keeps Machine.tracked freshPost := by
  intro m
  unfold freshPost
  split <;> rfl

theorem teletype_keeps (q : Stock) : Keeps Machine.tracked (teletype q) := by
  intro m
  unfold teletype countTick
  split
  · rfl
  · dsimp only
    split <;> rfl

theorem forceResume_tracked (m : Machine) : (forceResume m).tracked = m.tracked := by
  unfold forceResume
  split
  · exact Prod.ext rfl (reportUpTo_rings _ _ _ _)
  · rfl

theorem int13_tracked (m : Machine) : (Int13.int13 m).tracked = m.tracked := by
  have served : (Int13.serve m).machine.tracked = m.tracked := by
    unfold Int13.serve
    dsimp only
    split_ifs <;> rfl
  exact served

theorem rom_keeps (q : Stock) (site : Site) : ∀ stage ∈ romStages q site, Keeps Machine.tracked stage := by
  intro stage member
  simp only [romStages, List.mem_cons, List.not_mem_nil, or_false] at member
  rcases member with rfl | rfl | rfl | rfl | rfl | rfl | rfl | rfl | rfl | rfl | rfl | rfl | rfl
  · exact guarded_keeps freshPost_keeps
  · exact guarded_keeps (teletype_keeps q)
  · exact guarded_keeps (leave_keeps fun _ => rfl)
  · exact note_keeps fun _ => rfl
  · exact guarded_keeps (note_keeps (kbDisp_rings _))
  · exact guarded_keeps (leave_keeps (warmReset_tracked q _))
  · exact guarded_keeps (reportOnly_keeps fun _ => reportUpTo_rings _ _ _ _)
  · exact guarded_keeps (reportOnly_keeps fun _ => reportUpTo_rings _ _ _ _)
  · exact guarded_keeps (reportOnly_keeps (shutdownSet_rings _))
  · exact guarded_keeps (reportOnly_keeps fun _ => reportUpTo_rings _ _ _ _)
  · exact guarded_keeps (reportOnly_keeps fun _ => reportUpTo_rings _ _ _ _)
  · exact guarded_keeps (leave_keeps forceResume_tracked)
  · exact guarded_keeps (leave_keeps int13_tracked)

theorem reportSetup_tracked (r : Report) (m : Machine) : (reportSetup r m).tracked = m.tracked := by
  unfold reportSetup
  split <;> rfl

theorem enterEasySetup_tracked (forced : Bool) (m : Machine) : (enterEasySetup forced m).tracked = m.tracked := by
  unfold enterEasySetup
  split
  · unfold enterImage
    dsimp only
    rw [reportSetup_tracked]
    split <;> rfl
  · exact reportSetup_tracked _ m

theorem uiBootDecision_keeps : Keeps Machine.tracked uiBootDecision := by
  intro m
  unfold uiBootDecision
  dsimp only
  split
  · exact enterEasySetup_tracked _ _
  · rfl

theorem setupDecision_keeps : Keeps Machine.tracked setupDecision := by
  intro m
  unfold setupDecision
  split
  · rfl
  · exact enterEasySetup_tracked _ _

theorem diskBoot_keeps : Keeps Machine.tracked diskBoot := by
  intro m
  unfold diskBoot
  split
  · rfl
  · split
    · rfl
    · split
      · rfl
      · dsimp only
        split <;> rfl

theorem boot_keeps (site : Site) : ∀ stage ∈ bootStages site, Keeps Machine.tracked stage := by
  intro stage member
  simp only [bootStages, List.mem_cons, List.not_mem_nil, or_false] at member
  rcases member with rfl | rfl | rfl | rfl
  · exact guarded_keeps uiBootDecision_keeps
  · exact guarded_keeps (note_keeps fun _ => rfl)
  · exact guarded_keeps setupDecision_keeps
  · exact guarded_keeps diskBoot_keeps

theorem completeDelay_tracked (m : Machine) : (completeDelay m).tracked = m.tracked := by
  unfold completeDelay
  dsimp only
  split <;> rfl

theorem completeMempat_tracked (q : Stock) (m : Machine) (off : BitVec 16) :
    (completeMempat q m off).tracked = m.tracked := by
  obtain ⟨_, _, _, _, _, _, _, rest⟩ := (completeMempat_leaves q m off).rest
  rw [rest]
  rfl

theorem completers_keep (q : Stock) (off : BitVec 16) :
    ∀ stage ∈ completerStages q off, Keeps Machine.tracked stage := by
  intro stage member
  simp only [completerStages, List.mem_cons, List.not_mem_nil, or_false] at member
  rcases member with rfl | rfl | rfl | rfl | rfl | rfl | rfl | rfl | rfl | rfl | rfl | rfl | rfl | rfl | rfl | rfl
  · exact guarded_keeps (leave_keeps fun _ => rfl)
  · exact guarded_keeps (leave_keeps fun _ => rfl)
  · exact guarded_keeps (afterHits_keeps _ _ fun _ => rfl)
  · exact guarded_keeps (afterHits_keeps _ _ fun _ => rfl)
  · exact guarded_keeps (afterHits_keeps _ _ fun _ => rfl)
  · exact guarded_keeps (afterHits_keeps _ _ fun _ => rfl)
  · exact guarded_keeps (afterHits_keeps _ _ fun _ => rfl)
  · exact guarded_keeps (leave_keeps fun _ => rfl)
  · exact guarded_keeps (leave_keeps fun _ => rfl)
  · exact guarded_keeps (leave_keeps fun _ => rfl)
  · exact guarded_keeps (leave_keeps fun _ => rfl)
  · exact guarded_keeps (leave_keeps fun m => Prod.ext rfl (reportUpTo_rings m.diag _ _ _))
  · exact guarded_keeps (afterHits_keeps _ _ fun _ => rfl)
  · exact guarded_keeps (afterHits_keeps _ _ fun _ => rfl)
  · exact guarded_keeps (afterHits_keeps _ _ completeDelay_tracked)
  · exact guarded_keeps (afterHits_keeps _ _ fun m => completeMempat_tracked q m off)

/-- Everything behind the first two stages. -/
theorem later_keep (q : Stock) (site : Site) : ∀ stage ∈ laterStages q site, Keeps Machine.tracked stage := by
  intro stage member
  rcases List.mem_append.mp member with before | completer
  · rcases List.mem_append.mp before with before | boot
    · rcases List.mem_append.mp before with entry | rom
      · exact entry_keeps q site stage entry
      · exact rom_keeps q site stage rom
    · exact boot_keeps site stage boot
  · exact completers_keep q site.off stage completer

end Stages

section Calls
variable {q : Stock} {m : Machine}

/-- A call records its PC if the intercept is enabled, which no call changes. -/
theorem postIntercept_tracked (q : Stock) (pc : Word) (m : Machine) : (postIntercept q pc m).2.tracked =
    (some m.enabled, if m.enabled then m.diag.rings.record pc else m.diag.rings) := by
  rw [postIntercept_front]
  split
  case isTrue on =>
    rw [Cascade.run_keeps _ (later_keep q _), on]
    exact Prod.ext rfl (trackPc_rings pc _)
  case isFalse off =>
    rw [Bool.eq_false_iff.mpr off]
    rfl

theorem call_tracked (m : Machine) : (m.step q .call).enabled = m.enabled ∧
    (m.step q .call).diag.rings = if m.enabled then m.diag.rings.record m.pc else m.diag.rings := by
  have tracked := postIntercept_tracked q m.pc m
  refine ⟨?_, congrArg Prod.snd tracked⟩
  have on : (m.step q .call).statics.enabled = some m.enabled := congrArg Prod.fst tracked
  rw [Machine.enabled, on, Option.getD_some]

theorem other_tracked {e : Event} (notCall : e ≠ .call) :
    (m.step q e).enabled = m.enabled ∧ (m.step q e).diag = m.diag := by
  cases e with
  | call => exact absurd rfl notCall
  | kbcReset =>
    simp only [Machine.step]
    split <;> exact ⟨rfl, rfl⟩
  | key | guest | host | systemReset => exact ⟨rfl, rfl⟩

end Calls

end Pc110
