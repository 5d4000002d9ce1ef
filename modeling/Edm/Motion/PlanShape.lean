import Edm.Motion.PlanLength

/-!
# The shapes of a plan

`profile` takes one of five ways (`ProfileCase`): a length within which the exit speed is not reached
is covered by one stretched ramp; a longer one by the two ramps to and from the cruise speed with the
cruise between them; where these do not fit, by one ramp again if both change the speed the same way, by
two ramps over a reduced speed if they do not, and by the two as they are if the accelerations say
neither.
-/

set_option linter.unusedSectionVars false

namespace Edm

namespace Moveruntime

variable {K : Type} [Field K] [LinearOrder K]

section Parts

/-- `Nacc` of a plan. -/
def planNacc (p : MoveRuntimePlanSpeedInput K) : ℤ := clampNacc p.nacc

/-- The acceleration from the entry to the exit speed. -/
def directAcc (p : MoveRuntimePlanSpeedInput K) : K := accFromTo p p.entryV (exitSpeed p)

/-- `ai`: the acceleration from the entry to the cruise speed. -/
def entryAcc (p : MoveRuntimePlanSpeedInput K) : K := accFromTo p p.entryV p.cruiseV

/-- `ao`: the acceleration from the cruise to the exit speed. -/
def exitAcc (p : MoveRuntimePlanSpeedInput K) : K :=
  if |exitSpeed p - p.cruiseV| < speedEps then 0
  else if exitSpeed p < p.cruiseV then p.dec0 else p.acc0

/-- One of the accelerations to and from the cruise speed counts as zero, the other does not. -/
def OneCountsAsZero (p : MoveRuntimePlanSpeedInput K) : Prop :=
  |entryAcc p| < speedEps ∧ |exitAcc p| > speedEps ∨ |exitAcc p| < speedEps ∧ |entryAcc p| > speedEps

/-- Both accelerations count as one: they have the same sign, or only one does not count as zero. -/
def OneSided (p : MoveRuntimePlanSpeedInput K) : Prop :=
  OneCountsAsZero p ∨ entryAcc p < 0 ∧ exitAcc p < 0 ∨ entryAcc p > 0 ∧ exitAcc p > 0

def Opposite (p : MoveRuntimePlanSpeedInput K) : Prop :=
  entryAcc p > 0 ∧ exitAcc p < 0 ∨ entryAcc p < 0 ∧ exitAcc p > 0

variable [FloorRing K] [RealFns K]

/-- `si2o`: the length of the ramp from the entry to the exit speed. -/
def directLength (T : K) (p : MoveRuntimePlanSpeedInput K) : K :=
  if |directAcc p| > 0 then
    (rampByAcc T (planNacc p) p.entryV (exitSpeed p) (directAcc p)
      (directAcc p / jerk2acc (planNacc p) T)).s
  else 0

def entryRamp (T : K) (p : MoveRuntimePlanSpeedInput K) : Ramp K :=
  if |entryAcc p| > 0 then
    rampByAcc T (planNacc p) p.entryV p.cruiseV (entryAcc p) (entryAcc p / jerk2acc (planNacc p) T)
  else Ramp.none (entryAcc p / jerk2acc (planNacc p) T)

def exitRamp (T : K) (p : MoveRuntimePlanSpeedInput K) : Ramp K :=
  if |exitAcc p| > 0 then
    rampByAcc T (planNacc p) p.cruiseV (exitSpeed p) (exitAcc p) (exitAcc p / planNacc p / T)
  else Ramp.none (exitAcc p / planNacc p / T)

/-- `N4`, the cycles of cruising between the two ramps; negative where they do not fit. -/
def cruiseN (T : K) (p : MoveRuntimePlanSpeedInput K) (s : K) : ℤ :=
  ⌊(s - (entryRamp T p).s - (exitRamp T p).s) / p.cruiseV / T⌋

/-- The length in which the reduced speed is to be reached. -/
def reducedLength (T : K) (p : MoveRuntimePlanSpeedInput K) (s : K) : K :=
  if directAcc p * entryAcc p > 0 then 1 / 2 * (s + directLength T p)
  else if directAcc p * entryAcc p < 0 then 1 / 2 * (s - directLength T p)
  else 1 / 2 * s

/-- The ramp to the reduced speed, and that speed. -/
def reducedRamp (T : K) (p : MoveRuntimePlanSpeedInput K) (s : K) : Ramp K × K :=
  rampReduced T (planNacc p) p.entryV (entryAcc p) (reducedLength T p s)

end Parts

section Cases

variable [FloorRing K] [RealFns K]

/-- The ways `profile` takes for the length `s`. -/
inductive ProfileCase (T : K) (p : MoveRuntimePlanSpeedInput K) (s : K) : Profile K → Prop where
  | short (hs : s ≤ directLength T p) :
      ProfileCase T p s ⟨rampByLen T (planNacc p) p.entryV (exitSpeed p) s, 0, 0, Ramp.none 0⟩
  | full (hs : directLength T p < s) (h4 : 0 ≤ p.cruiseV * cruiseN T p s * T) :
      ProfileCase T p s
        ⟨entryRamp T p, cruiseN T p s, p.cruiseV * cruiseN T p s * T, exitRamp T p⟩
  | same (hs : directLength T p < s) (h4 : p.cruiseV * cruiseN T p s * T < 0) :
      ProfileCase T p s ⟨rampByLen T (planNacc p) p.entryV (exitSpeed p) s, 0, 0, Ramp.none 0⟩
  | reduced (hs : directLength T p < s) (h4 : p.cruiseV * cruiseN T p s * T < 0)
      (hacc : entryAcc p > 0 ∧ exitAcc p < 0 ∨ entryAcc p < 0 ∧ exitAcc p > 0) :
      ProfileCase T p s ⟨(reducedRamp T p s).1, 0, 0,
        rampByLen T (planNacc p) (reducedRamp T p s).2 (exitSpeed p) (s - (reducedRamp T p s).1.s)⟩
  | unplanned (hs : directLength T p < s) (h4 : p.cruiseV * cruiseN T p s * T < 0)
      (hacc : entryAcc p = 0 ∨ exitAcc p = 0) :
      ProfileCase T p s ⟨entryRamp T p, 0, 0, exitRamp T p⟩

variable [IsStrictOrderedRing K]

/-- The block `s4 < 0`: the ramps that do not fit, planned again. An acceleration that counts as zero is
replaced by the other one. -/
theorem profileShort_forms {T s : K} {p : MoveRuntimePlanSpeedInput K} :
    let f := profileShort T (planNacc p) p.entryV (exitSpeed p) s (directLength T p) (directAcc p)
      (entryAcc p) (exitAcc p) (entryRamp T p) (exitRamp T p)
    (OneSided p ∧ f = ⟨rampByLen T (planNacc p) p.entryV (exitSpeed p) s, 0, 0, Ramp.none 0⟩) ∨
      (¬OneSided p ∧ Opposite p ∧ f = ⟨(reducedRamp T p s).1, 0, 0, rampByLen T (planNacc p)
        (reducedRamp T p s).2 (exitSpeed p) (s - (reducedRamp T p s).1.s)⟩) ∨
      (¬OneSided p ∧ ¬Opposite p ∧ f = ⟨entryRamp T p, 0, 0, exitRamp T p⟩) := by
  unfold profileShort
  extract_lets takeAo takeAi ai' ao' s123 f
  have heps : (0 : K) ≤ speedEps := by
    unfold speedEps
    positivity
  by_cases hone : OneCountsAsZero p
  · -- both are the one that does not count as zero
    have heq : ai' = ao' ∧ ai' ≠ 0 := by
      simp only [ai', ao']
      split
      · rename_i htake
        exact ⟨rfl, abs_pos.mp (heps.trans_lt htake.2)⟩
      · rename_i hnot
        have htake : takeAi := hone.resolve_left hnot
        rw [if_pos htake]
        exact ⟨rfl, abs_pos.mp (heps.trans_lt htake.2)⟩
    have hsame : (ai' < 0 ∧ ao' < 0) ∨ (ai' > 0 ∧ ao' > 0) := by
      rw [← heq.1]
      exact (lt_or_gt_of_ne heq.2).imp (fun h => ⟨h, h⟩) fun h => ⟨h, h⟩
    exact .inl ⟨.inl hone, if_pos hsame⟩
  · obtain ⟨hno, hni⟩ := not_or.mp hone
    have hai : ai' = entryAcc p := if_neg hno
    have hao : ao' = exitAcc p := (if_neg hno).trans (if_neg hni)
    have hs123 : s123 = reducedLength T p s := by
      simp only [s123, hai]
      rfl
    simp only [f]
    rw [hs123, hai, hao]
    by_cases hsame : (entryAcc p < 0 ∧ exitAcc p < 0) ∨ (entryAcc p > 0 ∧ exitAcc p > 0)
    · exact .inl ⟨.inr hsame, if_pos hsame⟩
    · have hsided : ¬OneSided p := fun h => h.elim hone hsame
      rw [if_neg hsame]
      by_cases hopp : Opposite p
      · exact .inr (.inl ⟨hsided, hopp, if_pos hopp⟩)
      · exact .inr (.inr ⟨hsided, hopp, if_neg hopp⟩)

/-- Two accelerations that are neither of one sign nor of two: one is zero. -/
theorem eq_zero_of_not_opposite {p : MoveRuntimePlanSpeedInput K} (hsided : ¬OneSided p)
    (hopp : ¬Opposite p) : entryAcc p = 0 ∨ exitAcc p = 0 := by
  by_contra hzero
  obtain ⟨h1, h2⟩ := not_or.mp hzero
  rcases lt_or_gt_of_ne h1 with h1 | h1 <;> rcases lt_or_gt_of_ne h2 with h2 | h2
  · exact hsided (.inr (.inl ⟨h1, h2⟩))
  · exact hopp (.inr ⟨h1, h2⟩)
  · exact hopp (.inl ⟨h1, h2⟩)
  · exact hsided (.inr (.inr ⟨h1, h2⟩))

theorem profileShort_cases {T s : K} {p : MoveRuntimePlanSpeedInput K} (hs : directLength T p < s)
    (h4 : p.cruiseV * cruiseN T p s * T < 0) :
    ProfileCase T p s (profileShort T (planNacc p) p.entryV (exitSpeed p) s (directLength T p)
      (directAcc p) (entryAcc p) (exitAcc p) (entryRamp T p) (exitRamp T p)) := by
  rcases profileShort_forms (T := T) (s := s) (p := p) with ⟨-, hf⟩ | ⟨-, hopp, hf⟩ | ⟨h1, h2, hf⟩
  · exact hf ▸ .same hs h4
  · exact hf ▸ .reduced hs h4 hopp
  · exact hf ▸ .unplanned hs h4 (eq_zero_of_not_opposite h1 h2)

theorem profile_eq (T : K) (p : MoveRuntimePlanSpeedInput K) (s : K) :
    profile T p s =
      if s ≤ directLength T p then
        ⟨rampByLen T (planNacc p) p.entryV (exitSpeed p) s, 0, 0, Ramp.none 0⟩
      else if p.cruiseV * cruiseN T p s * T < 0 then
        profileShort T (planNacc p) p.entryV (exitSpeed p) s (directLength T p) (directAcc p)
          (entryAcc p) (exitAcc p) (entryRamp T p) (exitRamp T p)
      else ⟨entryRamp T p, cruiseN T p s, p.cruiseV * cruiseN T p s * T, exitRamp T p⟩ := rfl

theorem profile_cases (T : K) (p : MoveRuntimePlanSpeedInput K) (s : K) :
    ProfileCase T p s (profile T p s) := by
  rw [profile_eq]
  split
  · rename_i hs
    exact .short hs
  · rename_i hs
    split
    · rename_i h4
      exact profileShort_cases (not_le.mp hs) h4
    · rename_i h4
      exact .full (not_le.mp hs) (not_lt.mp h4)

variable {T s : K} {p : MoveRuntimePlanSpeedInput K}

/-- A cruise that is not backwards has cycles. -/
theorem cruiseN_nonneg (hT : 0 < T) (hv : 0 < p.cruiseV) (h4 : 0 ≤ p.cruiseV * cruiseN T p s * T) :
    0 ≤ cruiseN T p s := by
  by_contra hneg
  have hneg : (cruiseN T p s : K) < 0 := by exact_mod_cast not_le.mp hneg
  exact absurd h4 (not_le.mpr (mul_neg_of_neg_of_pos (mul_neg_of_pos_of_neg hv hneg) hT))

/-- No phase of a plan has a negative number of cycles. -/
theorem profile_nonNeg (hT : 0 < T) (hv : 0 < p.cruiseV) :
    NonNeg (profile T p s).entry ∧ NonNeg (profile T p s).exit ∧ 0 ≤ (profile T p s).n4 := by
  have hn : 1 ≤ planNacc p := one_le_clampNacc _
  have hramp (v w a j : K) :
      NonNeg (if |a| > 0 then rampByAcc T (planNacc p) v w a j else Ramp.none j) := by
    split
    · exact (rampByAcc_proper hn).nonNeg
    · exact none_nonNeg
  have hcase := profile_cases T p s
  generalize profile T p s = f at hcase ⊢
  cases hcase with
  | short | same => exact ⟨(rampByLen_proper hn).nonNeg, none_nonNeg, le_rfl⟩
  | reduced => exact ⟨(rampReduced_proper hT hn).nonNeg, (rampByLen_proper hn).nonNeg, le_rfl⟩
  | full _ h4 => exact ⟨hramp _ _ _ _, hramp _ _ _ _, cruiseN_nonneg hT hv h4⟩
  | unplanned => exact ⟨hramp _ _ _ _, hramp _ _ _ _, le_rfl⟩

end Cases

end Moveruntime

end Edm
