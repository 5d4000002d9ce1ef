import Edm.Motion.Breakout

/-!
# The slow-down before the breakthrough

While the breakthrough is looked for and bit 0 of `ctrl_flags` is set, the count of the filter slows the
servo down: from half the threshold on in proportion to the distance from the threshold, to 0.35 at
least. The distance is taken in `uint32_t`. Behind the threshold it wraps, and the feed is at full
speed again (`slowsDown_iff`).
-/

set_option linter.unusedSectionVars false

namespace Edm

variable {K : Type} [Field K] [LinearOrder K]

namespace DrillAutoTask

/-- The distance to the threshold, in `uint32_t`. -/
def distance (threshold : ℕ) (cnt : ℤ) : ℤ := (threshold - cnt) % 2 ^ 32

/-- The divisor of the ratio. -/
def upperHalf (threshold : ℕ) : ℤ := threshold - threshold / 2

/-- The count, as `uint32_t`, is above half the threshold: the ratio is computed. -/
def RatioUsed (threshold : ℕ) (cnt : ℤ) : Prop := cnt % 2 ^ 32 > (threshold : ℤ) / 2

instance (threshold : ℕ) (cnt : ℤ) : Decidable (RatioUsed threshold cnt) :=
  inferInstanceAs (Decidable (_ > _))

variable (K) in
/-- The factor of the servo step. -/
def appliedRatio (threshold : ℕ) (cnt : ℤ) : K :=
  if RatioUsed threshold cnt then
    cutRatio |(distance threshold cnt : K) / (upperHalf threshold : K)| 1
  else 1

section Cycle

variable [FloorRing K] [RealFns K] [Settings] {t : DrillAutoTask K} {sh : MotionShared K}
  {inp : CycleInput K}

/-- The servo step of a cycle that looks for the breakthrough. -/
theorem drillingBreakthrough_pos (hstate : t.runtime.detectState ≠ 1 ∧ t.runtime.detectState ≠ 2)
    (hflag : flagSet sh.drillParams.ctrlFlags 0 = true) {cnt : ℤ}
    (hcnt : inp.lastKnCnt = (cnt % 2 ^ 32).toNat) (servoDis : K) :
    currentPos (t.drillingBreakthrough sh inp servoDis).2.1 = currentPos sh -
      servoDis * appliedRatio K sh.drillParams.knValidRateOkCntThreshold cnt := by
  have hcast : (inp.lastKnCnt : ℤ) = cnt % 2 ^ 32 := by omega
  have hdist : ((sh.drillParams.knValidRateOkCntThreshold : ℤ) - cnt % 2 ^ 32) % 2 ^ 32 =
      distance sh.drillParams.knValidRateOkCntThreshold cnt := by
    unfold distance
    omega
  have hratio : (if flagSet sh.drillParams.ctrlFlags 0 ∧
        cnt % 2 ^ 32 > (sh.drillParams.knValidRateOkCntThreshold : ℤ) / 2 then
      servoDis * cutRatio |(distance sh.drillParams.knValidRateOkCntThreshold cnt : K) /
        ((sh.drillParams.knValidRateOkCntThreshold -
          sh.drillParams.knValidRateOkCntThreshold / 2 : ℤ) : K)| 1
      else servoDis) =
      servoDis * appliedRatio K sh.drillParams.knValidRateOkCntThreshold cnt := by
    unfold appliedRatio
    split
    · rename_i hused
      rw [if_pos (show RatioUsed _ cnt from hused.2)]
      rfl
    · rename_i hused
      rw [if_neg (show ¬RatioUsed _ cnt from fun h => hused ⟨hflag, h⟩), mul_one]
  unfold drillingBreakthrough
  rw [if_neg hstate.1, if_neg hstate.2]
  dsimp only
  rw [hcast, hdist, hratio]
  split <;> exact currentPos_setCurrentPos _ _

end Cycle

variable [IsStrictOrderedRing K] {threshold : ℕ} {cnt : ℤ}

theorem cutRatio_one (x : K) : cutRatio x 1 = max (35 / 100) (min x 1) := by
  unfold cutRatio
  split
  · rename_i h
    rw [min_eq_right h.le, max_eq_right (by norm_num)]
  · rename_i h
    rw [min_eq_left (not_lt.mp h)]
    split
    · rename_i hlow
      rw [max_eq_left hlow.le]
    · rename_i hlow
      rw [max_eq_right (not_lt.mp hlow)]

/-- The ratio as a function of the distance: a distance of the upper half or more is full speed. -/
theorem appliedRatio_eq (hpos : 1 ≤ threshold) (hthreshold : threshold < 2 ^ 32) :
    appliedRatio K threshold cnt =
      max (35 / 100) (min ((distance threshold cnt : K) / (upperHalf threshold : K)) 1) := by
  have hhalf : (0 : K) < (upperHalf threshold : K) := by
    have : 0 < upperHalf threshold := by
      unfold upperHalf
      omega
    exact_mod_cast this
  have hdist : (0 : K) ≤ (distance threshold cnt : K) := by
    have : 0 ≤ distance threshold cnt := by
      unfold distance
      omega
    exact_mod_cast this
  unfold appliedRatio
  split
  · rw [abs_of_nonneg (div_nonneg hdist hhalf.le), cutRatio_one]
  · rename_i hunused
    have hfar : (upperHalf threshold : K) ≤ (distance threshold cnt : K) := by
      have : upperHalf threshold ≤ distance threshold cnt := by
        unfold RatioUsed at hunused
        unfold upperHalf distance
        omega
      exact_mod_cast this
    rw [min_eq_right ((one_le_div hhalf).mpr hfar), max_eq_right (by norm_num)]

/-- What the slow-down is to do at a count: the ratio is defined and between 0.35 and 1, no lower count
has a smaller one, and at the threshold and behind it is 0.35. -/
structure SlowsDown (K : Type) [Field K] [LinearOrder K] (threshold : ℕ) (cnt : ℤ) : Prop where
  defined : RatioUsed threshold cnt → upperHalf threshold ≠ 0
  range : 35 / 100 ≤ appliedRatio K threshold cnt ∧ appliedRatio K threshold cnt ≤ 1
  slower : ∀ cnt', -2 ^ 31 ≤ cnt' → cnt' ≤ cnt →
    appliedRatio K threshold cnt ≤ appliedRatio K threshold cnt'
  minimum : threshold ≤ cnt → appliedRatio K threshold cnt = 35 / 100

/-- The count is not behind the threshold. A threshold of `2 ^ 31` or more is met by negative counts too:
there the count is not above these, or near enough to the threshold for the smallest ratio. -/
def NotBehind (threshold : ℕ) (cnt : ℤ) : Prop :=
  1 ≤ threshold ∧ if threshold < 2 ^ 31 then cnt ≤ threshold
    else cnt ≤ threshold - 2 ^ 32 ∨ 100 * (threshold - cnt) ≤ 35 * (threshold - threshold / 2)

theorem appliedRatio_le_of_distance (hpos : 1 ≤ threshold) (hthreshold : threshold < 2 ^ 32)
    {cnt' : ℤ} (hdist : distance threshold cnt ≤ distance threshold cnt') :
    appliedRatio K threshold cnt ≤ appliedRatio K threshold cnt' := by
  have hhalf : (0 : K) ≤ (upperHalf threshold : K) := by
    have : 0 ≤ upperHalf threshold := by
      unfold upperHalf
      omega
    exact_mod_cast this
  rw [appliedRatio_eq hpos hthreshold, appliedRatio_eq hpos hthreshold]
  gcongr

/-- The ratio is at its minimum up to a distance of 0.35 of the upper half. -/
theorem appliedRatio_eq_min_iff (hpos : 1 ≤ threshold) (hthreshold : threshold < 2 ^ 32) :
    appliedRatio K threshold cnt = 35 / 100 ↔
      100 * distance threshold cnt ≤ 35 * upperHalf threshold := by
  have hhalf : (0 : K) < (upperHalf threshold : K) := by
    have : 0 < upperHalf threshold := by
      unfold upperHalf
      omega
    exact_mod_cast this
  rw [appliedRatio_eq hpos hthreshold, max_eq_left_iff, min_le_iff,
    or_iff_left (by norm_num), div_le_iff₀ hhalf]
  constructor
  · intro h
    have : (100 * distance threshold cnt : K) ≤ 35 * upperHalf threshold := by linarith
    exact_mod_cast this
  · intro h
    have : (100 * distance threshold cnt : K) ≤ 35 * upperHalf threshold := by exact_mod_cast h
    linarith

theorem appliedRatio_range (hpos : 1 ≤ threshold) (hthreshold : threshold < 2 ^ 32) :
    35 / 100 ≤ appliedRatio K threshold cnt ∧ appliedRatio K threshold cnt ≤ 1 := by
  rw [appliedRatio_eq hpos hthreshold]
  exact ⟨le_max_left _ _, max_le (by norm_num) (min_le_right _ _)⟩

theorem slowsDown_iff_notBehind (hthreshold : threshold < 2 ^ 32) (hcnt : cnt < 2 ^ 31)
    (hmin : -2 ^ 31 ≤ cnt) : SlowsDown K threshold cnt ↔ NotBehind threshold cnt := by
  rcases Nat.eq_zero_or_pos threshold with rfl | hpos
  · -- nothing to divide by, unless the count is zero: then it is at the threshold
    refine iff_of_false (fun h => ?_) fun h => absurd h.1 (by decide)
    by_cases hused : RatioUsed 0 cnt
    · exact h.defined hused rfl
    · have hzero : cnt = 0 := by
        unfold RatioUsed at hused
        omega
      subst hzero
      have hfull : appliedRatio K 0 0 = 1 := if_neg hused
      have hlow := h.minimum le_rfl
      rw [hfull] at hlow
      norm_num at hlow
  · have hmin_iff : appliedRatio K threshold cnt = 35 / 100 ↔
        100 * distance threshold cnt ≤ 35 * upperHalf threshold :=
      appliedRatio_eq_min_iff hpos hthreshold
    have hdefined : RatioUsed threshold cnt → upperHalf threshold ≠ 0 := by
      intro _
      unfold upperHalf
      omega
    have hrange : 35 / 100 ≤ appliedRatio K threshold cnt ∧ appliedRatio K threshold cnt ≤ 1 :=
      appliedRatio_range hpos hthreshold
    unfold NotBehind
    split
    · rename_i hsmall
      constructor
      · intro h
        refine ⟨hpos, not_lt.mp fun hbehind => ?_⟩
        have hdist := hmin_iff.mp (h.minimum hbehind.le)
        unfold distance upperHalf at hdist
        omega
      · rintro ⟨-, hle⟩
        refine ⟨hdefined, hrange, fun cnt' hmin' hle' => ?_, fun hge => ?_⟩
        · apply appliedRatio_le_of_distance hpos hthreshold
          unfold distance
          omega
        · rw [hmin_iff]
          unfold distance upperHalf
          omega
    · rename_i hlarge
      -- the negative count that wraps onto the threshold has the smallest ratio
      have honto : appliedRatio K threshold (threshold - 2 ^ 32) = 35 / 100 := by
        rw [appliedRatio_eq_min_iff hpos hthreshold]
        unfold distance upperHalf
        omega
      constructor
      · intro h
        refine ⟨hpos, or_iff_not_imp_left.mpr fun habove => ?_⟩
        have hlow := h.slower _ (by omega) (le_of_not_ge habove)
        rw [honto] at hlow
        have hnear := hmin_iff.mp (le_antisymm hlow hrange.1)
        have hdist : distance threshold cnt = threshold - cnt :=
          Int.emod_eq_of_lt (by omega) (by omega)
        rwa [hdist] at hnear
      · rintro ⟨-, hlow | hnear⟩
        · refine ⟨hdefined, hrange, fun cnt' hmin' hle' => ?_, fun hge => by omega⟩
          apply appliedRatio_le_of_distance hpos hthreshold
          unfold distance
          omega
        · have hdist : distance threshold cnt = threshold - cnt :=
            Int.emod_eq_of_lt (by omega) (by omega)
          have heq : appliedRatio K threshold cnt = 35 / 100 := by
            rw [hmin_iff, hdist]
            exact hnear
          refine ⟨hdefined, hrange, fun cnt' hmin' hle' => ?_, fun _ => heq⟩
          rw [heq]
          exact (appliedRatio_range hpos hthreshold).1

section Claim

variable [FloorRing K] [RealFns K] [Settings]

/-- A cycle that looks for the breakthrough with the slow-down on, at a count of type `int`. -/
theorem slowsDown_iff {t : DrillAutoTask K} {sh : MotionShared K} {inp : CycleInput K} {cnt : ℤ}
    (hstate : t.runtime.detectState ≠ 1 ∧ t.runtime.detectState ≠ 2)
    (hflag : flagSet sh.drillParams.ctrlFlags 0 = true)
    (hthreshold : sh.drillParams.knValidRateOkCntThreshold < 2 ^ 32)
    (hint : -2 ^ 31 ≤ cnt ∧ cnt < 2 ^ 31) (hcnt : inp.lastKnCnt = (cnt % 2 ^ 32).toNat) :
    (∀ servoDis, currentPos (t.drillingBreakthrough sh inp servoDis).2.1 = currentPos sh -
        servoDis * appliedRatio K sh.drillParams.knValidRateOkCntThreshold cnt) ∧
      (SlowsDown K sh.drillParams.knValidRateOkCntThreshold cnt ↔
        NotBehind sh.drillParams.knValidRateOkCntThreshold cnt) :=
  ⟨drillingBreakthrough_pos hstate hflag hcnt,
    slowsDown_iff_notBehind hthreshold hint.2 hint.1⟩

end Claim

end DrillAutoTask

namespace DrillAutoTask

open Sample

attribute [local instance] Sample.drillSettings

/-- The threshold is 320, the slow-down is on. -/
def slowingShared : MotionShared ℚ :=
  { drillShared with drillParams := { drillShared.drillParams with ctrlFlags := 1 } }

/-- A task that looks for the breakthrough. -/
def lookingTask : DrillAutoTask ℚ :=
  (newOn { Runtime.cleared with startBreakthroughDetect := true } (hole false) slowingShared).1

theorem slowsDown_at_threshold :
    (∀ servoDis, currentPos (lookingTask.drillingBreakthrough slowingShared ⟨false, 0, 320, 0, 0⟩
        servoDis).2.1 = currentPos slowingShared - servoDis * appliedRatio ℚ 320 320) ∧
      SlowsDown ℚ 320 320 := by
  have h := @slowsDown_iff ℚ _ _ _ _ _ _ lookingTask slowingShared ⟨false, 0, 320, 0, 0⟩ 320
    (by decide) (by decide) (by decide) (by decide) (by decide)
  exact ⟨h.1, h.2.mpr (by unfold NotBehind; decide)⟩

/-- One count behind the threshold the feed is at full speed. -/
theorem not_slowsDown_behind :
    appliedRatio ℚ 320 320 = 35 / 100 ∧ appliedRatio ℚ 320 321 = 1 ∧ ¬SlowsDown ℚ 320 321 ∧
      currentPos (lookingTask.drillingBreakthrough slowingShared ⟨false, 0, 321, 0, 0⟩ 10).2.1 =
        currentPos slowingShared - 10 := by
  have hlow : appliedRatio ℚ 320 320 = 35 / 100 := by decide +kernel
  have hfull : appliedRatio ℚ 320 321 = 1 := by decide +kernel
  refine ⟨hlow, hfull, fun h => ?_, by decide +kernel⟩
  have hmin := h.minimum (by decide)
  rw [hfull] at hmin
  norm_num at hmin

end DrillAutoTask

end Edm
