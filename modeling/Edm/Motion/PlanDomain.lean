import Edm.Motion.Commands
import Edm.Motion.Numbers
import Edm.Motion.PlanShape

/-!
# Where the planner's arithmetic is defined

The planner divides by speeds, accelerations and numbers of cycles, and takes roots and an arc cosine.
`PlanDefined` follows it and asks that no denominator is zero and no argument outside its domain. That
fails in two cases only: where the whole length is cruised in one cycle, and where a reduced speed is to be
reached by slowing down over more length than that takes. With a plan of no cycles, the case of less
than one cycle of cruising, these are the plans that are not played out (`playsOut_iff`).
-/

set_option linter.unusedSectionVars false

namespace Edm

namespace Moveruntime

variable {K : Type} [Field K] [LinearOrder K]

section Defined

/-- `j1 = (vo - vi) / d1 / (d1 + d2)`. -/
def RampOfDefined (T : K) (n m : ℤ) : Prop :=
  jerk2acc n T ≠ 0 ∧ jerk2acc n T + jerk2acc m T ≠ 0

variable [FloorRing K] [RealFns K]

def RampByAccDefined (T : K) (nacc : ℤ) (v0 v1 a j : K) : Prop :=
  let d0 := jerk2acc nacc T
  let n2 := ⌊(v1 - v0 - a * d0) / a / T⌋
  let n1 := ⌊sqrt ((v1 - v0) / j) / T⌋
  a ≠ 0 ∧ T ≠ 0 ∧
    if n2 < 1 then j ≠ 0 ∧ 0 ≤ (v1 - v0) / j ∧ RampOfDefined T (if n1 < 2 then 2 else n1) 0
    else RampOfDefined T nacc n2

def RampByLenDefined (T : K) (nacc : ℤ) (v0 v1 s : K) : Prop :=
  let d0 := jerk2acc nacc T
  let n2 := ⌊(s - (v0 + v1) * d0 - (v1 - v0) * T) / (v1 + v0) / (1 / 2) / T⌋
  let n1 := ⌊(s - (v1 - v0) * T) / (v1 + v0) / T⌋
  v1 + v0 ≠ 0 ∧ T ≠ 0 ∧
    if n2 < 1 then RampOfDefined T (if n1 < 2 then 2 else n1) 0 else RampOfDefined T nacc n2

/-- The radicand of `d2` in the block of the reduced speed. -/
def reducedRadicand (T : K) (nacc : ℤ) (vi ai s123 : K) : K :=
  let d0 := jerk2acc nacc T
  let xa := 1 / 2 * ai
  let xb := vi + 3 / 2 * ai * d0 + ai * T
  let xc := d0 * (2 * vi + ai * d0 + ai * T) - s123
  xb * xb - 4 * xa * xc

/-- `d2` in the block of the reduced speed. -/
def reducedD2 (T : K) (nacc : ℤ) (vi ai s123 : K) : K :=
  let d0 := jerk2acc nacc T
  let xa := 1 / 2 * ai
  let xb := vi + 3 / 2 * ai * d0 + ai * T
  (-xb + sqrt (reducedRadicand T nacc vi ai s123)) / (2 * xa)

/-- The argument of the arc cosine there. -/
def reducedCosine (T : K) (nacc : ℤ) (vi ai s123 : K) : K :=
  let j1 := ai / jerk2acc nacc T
  let xp := 2 * vi / j1
  let xq := -1 * s123 / j1
  let r0 := sqrt (xp / (-3))
  let r := r0 * xp / (-3)
  (-(1 / 2) * xq / r)

/-- `d1` in the block of the reduced speed. -/
def reducedD1 (T : K) (nacc : ℤ) (vi ai s123 : K) : K :=
  let j1 := ai / jerk2acc nacc T
  let xp := 2 * vi / j1
  let xq := -1 * s123 / j1
  if j1 > 0 then
    let xt := sqrt (xq * xq / 4 + xp * xp * xp / 27)
    cbrt (-(1 / 2) * xq + xt) + cbrt (-(1 / 2) * xq - xt)
  else
    2 * sqrt (xp / (-3)) *
      cos ((acos (reducedCosine T nacc vi ai s123) + 31415926 / 10000000 * 4) / 3)

/-- The reduced speed. -/
def reducedSpeed (T : K) (nacc : ℤ) (vi ai s123 : K) : K :=
  if reducedD2 T nacc vi ai s123 < 0 then
    vi + ai / jerk2acc nacc T * reducedD1 T nacc vi ai s123 * reducedD1 T nacc vi ai s123
  else vi + ai * (jerk2acc nacc T + reducedD2 T nacc vi ai s123)

theorem rampReduced_eq (T : K) (nacc : ℤ) (vi ai s123 : K) :
    rampReduced T nacc vi ai s123 =
      if reducedD2 T nacc vi ai s123 < 0 then
        (rampOf T vi (vi + ai / jerk2acc nacc T * reducedD1 T nacc vi ai s123 *
            reducedD1 T nacc vi ai s123)
          (if ⌊reducedD1 T nacc vi ai s123 / T⌋ < 2 then 2
            else ⌊reducedD1 T nacc vi ai s123 / T⌋) 0,
          vi + ai / jerk2acc nacc T * reducedD1 T nacc vi ai s123 * reducedD1 T nacc vi ai s123)
      else
        (rampOf T vi (vi + ai * (jerk2acc nacc T + reducedD2 T nacc vi ai s123)) nacc
          ⌊reducedD2 T nacc vi ai s123 / T⌋,
          vi + ai * (jerk2acc nacc T + reducedD2 T nacc vi ai s123)) := rfl

theorem rampReduced_speed (T : K) (nacc : ℤ) (vi ai s123 : K) :
    (rampReduced T nacc vi ai s123).2 = reducedSpeed T nacc vi ai s123 := by
  rw [rampReduced_eq, reducedSpeed]
  split <;> rfl

/-- The block of the reduced speed. -/
def RampReducedDefined (T : K) (nacc : ℤ) (vi ai s123 : K) : Prop :=
  let j1 := ai / jerk2acc nacc T
  let xp := 2 * vi / j1
  let xq := -1 * s123 / j1
  let n1 := ⌊reducedD1 T nacc vi ai s123 / T⌋
  T ≠ 0 ∧ jerk2acc nacc T ≠ 0 ∧ 0 ≤ reducedRadicand T nacc vi ai s123 ∧ 2 * (1 / 2 * ai) ≠ 0 ∧
    if reducedD2 T nacc vi ai s123 < 0 then
      j1 ≠ 0 ∧
        (if j1 > 0 then 0 ≤ xq * xq / 4 + xp * xp * xp / 27
          else 0 ≤ xp / (-3) ∧ sqrt (xp / (-3)) * xp / (-3) ≠ 0 ∧
            -1 ≤ reducedCosine T nacc vi ai s123 ∧ reducedCosine T nacc vi ai s123 ≤ 1) ∧
        RampOfDefined T (if n1 < 2 then 2 else n1) 0
    else RampOfDefined T nacc ⌊reducedD2 T nacc vi ai s123 / T⌋

/-- The block `s4 < 0`. -/
def ProfileShortDefined (T : K) (nacc : ℤ) (vi vo s si2o acc ai ao : K) : Prop :=
  let takeAo := |ai| < speedEps ∧ |ao| > speedEps
  let takeAi := |ao| < speedEps ∧ |ai| > speedEps
  let ai' := if takeAo then ao else ai
  let ao' := if takeAo then ao else if takeAi then ai else ao
  if (ai' < 0 ∧ ao' < 0) ∨ (ai' > 0 ∧ ao' > 0) then RampByLenDefined T nacc vi vo s
  else if (ai' > 0 ∧ ao' < 0) ∨ (ai' < 0 ∧ ao' > 0) then
    let s123 :=
      if acc * ai' > 0 then 1 / 2 * (s + si2o)
      else if acc * ai' < 0 then 1 / 2 * (s - si2o)
      else 1 / 2 * s
    RampReducedDefined T nacc vi ai' s123 ∧
      RampByLenDefined T nacc (rampReduced T nacc vi ai' s123).2 vo
        (s - (rampReduced T nacc vi ai' s123).1.s)
  else True

/-- The phases of a plan. -/
def ProfileDefined (T : K) (p : MoveRuntimePlanSpeedInput K) (s : K) : Prop :=
  let nacc := planNacc p
  let d0 := jerk2acc nacc T
  let vc := p.cruiseV
  let vi := p.entryV
  let vo := exitSpeed p
  d0 ≠ 0 ∧ T ≠ 0 ∧ (nacc : K) ≠ 0 ∧
    (|directAcc p| > 0 → RampByAccDefined T nacc vi vo (directAcc p) (directAcc p / d0)) ∧
    if s ≤ directLength T p then RampByLenDefined T nacc vi vo s
    else
      (|entryAcc p| > 0 → RampByAccDefined T nacc vi vc (entryAcc p) (entryAcc p / d0)) ∧
        (|exitAcc p| > 0 → RampByAccDefined T nacc vc vo (exitAcc p) (exitAcc p / nacc / T)) ∧
        vc ≠ 0 ∧
        if vc * cruiseN T p s * T < 0 then
          ProfileShortDefined T nacc vi vo s (directLength T p) (directAcc p) (entryAcc p)
            (exitAcc p)
        else True

/-- The rest `s0` is divided by numbers of cycles. -/
def OfProfileDefined (f : Profile K) : Prop :=
  let N1 := f.entry.jerkN
  let N2 := f.entry.accN
  let N5 := f.exit.jerkN
  let N6 := f.exit.accN
  if N1 > 0 ∧ N5 > 0 then
    f.n4 + N1 + N2 + N1 + f.n4 + N5 + N6 + N5 - 2 ≠ 0 ∧ N1 + N2 + N1 - 1 ≠ 0 ∧ N5 + N6 + N5 - 1 ≠ 0
  else if N1 > 0 then N1 + N2 + N1 + f.n4 - 1 ≠ 0
  else if N5 > 0 then f.n4 + N5 + N6 + N5 - 1 ≠ 0
  else f.n4 - 1 ≠ 0

variable [Settings]

/-- Planning divides by no zero and leaves no domain. -/
def PlanDefined (p : MoveRuntimePlanSpeedInput K) (s : K) : Prop :=
  ProfileDefined cycleT p s ∧ OfProfileDefined (profile cycleT p s)

end Defined

section Ramps

variable [IsStrictOrderedRing K]

theorem speedEps_pos : (0 : K) < speedEps := by
  unfold speedEps
  positivity

variable {T v0 v1 a j s : K} {nacc n m : ℤ} {p : MoveRuntimePlanSpeedInput K}

/-- What the acceleration between two speeds says about them. -/
theorem accFromTo_cases (ha : 0 < p.acc0) (hd : p.dec0 < 0) (v w : K) :
    (accFromTo p v w = 0 ∧ |v - w| < speedEps) ∨
      (0 < accFromTo p v w ∧ v < w ∧ ¬|v - w| < speedEps) ∨
      (accFromTo p v w < 0 ∧ w < v ∧ ¬|v - w| < speedEps) := by
  unfold accFromTo
  split
  · rename_i heps
    exact .inl ⟨rfl, heps⟩
  · rename_i heps
    split
    · rename_i hlt
      exact .inr (.inl ⟨ha, hlt, heps⟩)
    · rename_i hge
      refine .inr (.inr ⟨hd, lt_of_le_of_ne (not_lt.mp hge) ?_, heps⟩)
      rintro rfl
      exact heps (by simp [speedEps_pos])

theorem exitAcc_eq : exitAcc p = accFromTo p p.cruiseV (exitSpeed p) := by
  unfold exitAcc accFromTo
  rw [abs_sub_comm]
  split
  · rfl
  · rename_i heps
    have hne : p.cruiseV ≠ exitSpeed p := by
      intro heq
      exact heps (by simp [heq, speedEps_pos])
    rcases lt_or_gt_of_ne hne with hlt | hgt
    · rw [if_neg hlt.not_gt, if_pos hlt]
    · rw [if_pos hgt, if_neg hgt.not_gt]

theorem jerk2acc_pos (hT : 0 < T) (hn : 1 ≤ n) : 0 < jerk2acc n T := by
  have : (0 : K) < n := by exact_mod_cast (by omega : 0 < n)
  exact mul_pos this hT

theorem rampOfDefined (hT : 0 < T) (hn : 1 ≤ n) (hm : 0 ≤ m) : RampOfDefined T n m := by
  have h1 := jerk2acc_pos hT hn
  have h2 : 0 ≤ jerk2acc m T := mul_nonneg (by exact_mod_cast hm) hT.le
  exact ⟨h1.ne', by linarith⟩

/-- At least two jerk cycles. -/
theorem rampOfDefined_atLeastTwo (hT : 0 < T) : RampOfDefined T (if n < 2 then 2 else n) 0 := by
  refine rampOfDefined hT ?_ le_rfl
  split <;> omega

variable [FloorRing K] [RealFns K]

theorem rampByAccDefined (hT : 0 < T) (hn : 1 ≤ nacc)
    (h : 0 < a ∧ 0 < j ∧ v0 < v1 ∨ a < 0 ∧ j < 0 ∧ v1 < v0) :
    RampByAccDefined T nacc v0 v1 a j := by
  unfold RampByAccDefined
  extract_lets d0 n2 n1
  have ha : a ≠ 0 := by rcases h with ⟨h, -⟩ | ⟨h, -⟩ <;> linarith
  have hj : j ≠ 0 := by rcases h with ⟨-, h, -⟩ | ⟨-, h, -⟩ <;> linarith
  have hroot : 0 ≤ (v1 - v0) / j := by
    rcases h with ⟨-, hj, hv⟩ | ⟨-, hj, hv⟩
    · exact div_nonneg (by linarith) hj.le
    · exact div_nonneg_of_nonpos (by linarith) hj.le
  refine ⟨ha, hT.ne', ?_⟩
  split
  · exact ⟨hj, hroot, rampOfDefined_atLeastTwo hT⟩
  · exact rampOfDefined hT hn (by omega)

theorem rampByLenDefined (hT : 0 < T) (hn : 1 ≤ nacc) (hv : v1 + v0 ≠ 0) :
    RampByLenDefined T nacc v0 v1 s := by
  unfold RampByLenDefined
  extract_lets d0 n2 n1
  refine ⟨hv, hT.ne', ?_⟩
  split
  · exact rampOfDefined_atLeastTwo hT
  · exact rampOfDefined hT hn (by omega)

/-- What slowing down to a reduced speed needs: the roots of its equation exist. -/
def RootsExist (T : K) (nacc : ℤ) (vi ai s123 : K) : Prop :=
  0 ≤ reducedRadicand T nacc vi ai s123 ∧
    (reducedD2 T nacc vi ai s123 < 0 → -1 ≤ reducedCosine T nacc vi ai s123)

/-- Speeding up to a reduced speed is always possible. -/
theorem rampReducedDefined_of_pos {vi ai s123 : K} (hT : 0 < T) (hn : 1 ≤ nacc) (hvi : 0 ≤ vi)
    (hai : 0 < ai) (hs : 0 < s123) : RampReducedDefined T nacc vi ai s123 := by
  have hd0 : 0 < jerk2acc nacc T := jerk2acc_pos hT hn
  have hj : 0 < ai / jerk2acc nacc T := div_pos hai hd0
  refine ⟨hT.ne', hd0.ne', ?_, by linarith, ?_⟩
  · -- the radicand is a square and terms that are not negative
    have heq : reducedRadicand T nacc vi ai s123 =
        (vi - 1 / 2 * ai * jerk2acc nacc T) ^ 2 + 2 * ai * vi * T +
          ai ^ 2 * jerk2acc nacc T * T + ai ^ 2 * T ^ 2 + 2 * ai * s123 := by
      unfold reducedRadicand
      ring
    rw [heq]
    positivity
  · split
    · refine ⟨hj.ne', ?_, rampOfDefined_atLeastTwo hT⟩
      have hxp : 0 ≤ 2 * vi / (ai / jerk2acc nacc T) := div_nonneg (by linarith) hj.le
      have hxq := mul_self_nonneg (-1 * s123 / (ai / jerk2acc nacc T))
      positivity
    · rename_i hd2
      exact rampOfDefined hT hn (Int.floor_nonneg.mpr (div_nonneg (not_lt.mp hd2) hT.le))

/-- A reduced speed that is reached by speeding up is not below the entry speed. -/
theorem reducedSpeed_nonneg_of_pos {vi ai s123 : K} (hT : 0 < T) (hn : 1 ≤ nacc) (hvi : 0 ≤ vi)
    (hai : 0 < ai) : 0 ≤ reducedSpeed T nacc vi ai s123 := by
  have hd0 : 0 < jerk2acc nacc T := jerk2acc_pos hT hn
  unfold reducedSpeed
  split
  · have hj : 0 < ai / jerk2acc nacc T := div_pos hai hd0
    have hsq := mul_self_nonneg (reducedD1 T nacc vi ai s123)
    have hprod := mul_nonneg hj.le hsq
    rw [← mul_assoc] at hprod
    linarith
  · rename_i hd2
    have hd2 := not_lt.mp hd2
    have := mul_nonneg hai.le (by linarith : 0 ≤ jerk2acc nacc T + reducedD2 T nacc vi ai s123)
    linarith

variable [LawfulSqrt K]

/-- Slowing down to a reduced speed is possible where the roots exist. -/
theorem rampReducedDefined_iff_of_neg {vi ai s123 : K} (hT : 0 < T) (hn : 1 ≤ nacc) (hvi : 0 < vi)
    (hai : ai < 0) (hs : 0 < s123) :
    RampReducedDefined T nacc vi ai s123 ↔ RootsExist T nacc vi ai s123 := by
  have hd0 : 0 < jerk2acc nacc T := jerk2acc_pos hT hn
  have hj : ai / jerk2acc nacc T < 0 := div_neg_of_neg_of_pos hai hd0
  have hxp : 0 < 2 * vi / (ai / jerk2acc nacc T) / (-3) :=
    div_pos_of_neg_of_neg (div_neg_of_pos_of_neg (by linarith) hj) (by norm_num)
  have hr0 : 0 < sqrt (2 * vi / (ai / jerk2acc nacc T) / (-3)) := LawfulSqrt.sqrt_pos hxp
  have hr : 0 < sqrt (2 * vi / (ai / jerk2acc nacc T) / (-3)) *
      (2 * vi / (ai / jerk2acc nacc T)) / (-3) := by
    rw [mul_div_assoc]
    exact mul_pos hr0 hxp
  have hcos : reducedCosine T nacc vi ai s123 ≤ 1 := by
    have hq : 0 < -1 * s123 / (ai / jerk2acc nacc T) :=
      div_pos_of_neg_of_neg (by linarith) hj
    have hle : reducedCosine T nacc vi ai s123 ≤ 0 :=
      div_nonpos_of_nonpos_of_nonneg (by linarith) hr.le
    linarith
  constructor
  · rintro ⟨-, -, hrad, -, hbranch⟩
    refine ⟨hrad, fun hd2 => ?_⟩
    rw [if_pos hd2, if_neg hj.not_gt] at hbranch
    exact hbranch.2.1.2.2.1
  · rintro ⟨hrad, hroots⟩
    refine ⟨hT.ne', hd0.ne', hrad, by linarith, ?_⟩
    split
    · rename_i hd2
      refine ⟨hj.ne, ?_, rampOfDefined_atLeastTwo hT⟩
      rw [if_neg hj.not_gt]
      exact ⟨hxp.le, hr.ne', hroots hd2, hcos⟩
    · rename_i hd2
      exact rampOfDefined hT hn (Int.floor_nonneg.mpr (div_nonneg (not_lt.mp hd2) hT.le))

end Ramps

section Profiles

variable [FloorRing K] [RealFns K] [IsStrictOrderedRing K]
  {T s : K} {p : MoveRuntimePlanSpeedInput K}

theorem exitSpeed_pos : 0 < exitSpeed p := by
  unfold exitSpeed
  split
  · norm_num
  · rename_i h
    exact not_le.mp h

theorem rampOf_s_pos {v0 v1 : K} {n m : ℤ} (hT : 0 < T) (h0 : 0 ≤ v0) (h1 : 0 < v1) (hn : 1 ≤ n)
    (hm : 0 ≤ m) : 0 < (rampOf T v0 v1 n m).s := by
  have hd1 : T ≤ jerk2acc n T := le_mul_of_one_le_left hT.le (by exact_mod_cast hn)
  have hd2 : 0 ≤ jerk2acc m T := mul_nonneg (by exact_mod_cast hm) hT.le
  show 0 < (v0 + v1) * (jerk2acc n T + 1 / 2 * jerk2acc m T) + (v1 - v0) * T
  have hlow : (v0 + v1) * T ≤ (v0 + v1) * (jerk2acc n T + 1 / 2 * jerk2acc m T) :=
    mul_le_mul_of_nonneg_left (by linarith) (by linarith)
  have hpos : 0 < v1 * T := mul_pos h1 hT
  linarith

theorem directLength_nonneg (hT : 0 < T) (hvi : 0 ≤ p.entryV) : 0 ≤ directLength T p := by
  unfold directLength
  split
  · unfold rampByAcc
    extract_lets d0 n2
    split
    · exact (rampOf_s_pos hT hvi exitSpeed_pos (by split <;> omega) le_rfl).le
    · exact (rampOf_s_pos hT hvi exitSpeed_pos (one_le_clampNacc _) (by omega)).le
  · exact le_rfl

theorem reducedLength_pos (hT : 0 < T) (hvi : 0 ≤ p.entryV) (hs : directLength T p < s) :
    0 < reducedLength T p s := by
  have h0 := directLength_nonneg hT hvi
  unfold reducedLength
  split
  · linarith
  · split <;> linarith

/-- The plan slows down to a reduced speed, to speed up again. -/
def SlowsDown (T : K) (p : MoveRuntimePlanSpeedInput K) (s : K) : Prop :=
  directLength T p < s ∧ p.cruiseV * cruiseN T p s * T < 0 ∧ ¬OneCountsAsZero p ∧
    entryAcc p < 0 ∧ 0 < exitAcc p

/-- The roots the reduced speed of a plan needs. -/
def ReducedRootsExist (T : K) (p : MoveRuntimePlanSpeedInput K) (s : K) : Prop :=
  RootsExist T (planNacc p) p.entryV (entryAcc p) (reducedLength T p s)

theorem profileShortDefined_iff (hT : 0 < T) (hvi : 0 ≤ p.entryV) :
    ProfileShortDefined T (planNacc p) p.entryV (exitSpeed p) s (directLength T p) (directAcc p)
        (entryAcc p) (exitAcc p) ↔
      (¬OneCountsAsZero p → entryAcc p > 0 ∧ exitAcc p < 0 ∨ entryAcc p < 0 ∧ exitAcc p > 0 →
        RampReducedDefined T (planNacc p) p.entryV (entryAcc p) (reducedLength T p s) ∧
          RampByLenDefined T (planNacc p) (reducedRamp T p s).2 (exitSpeed p)
            (s - (reducedRamp T p s).1.s)) := by
  have hlen : RampByLenDefined T (planNacc p) p.entryV (exitSpeed p) s :=
    rampByLenDefined hT (one_le_clampNacc _) (by have := exitSpeed_pos (p := p); linarith)
  have heps : (0 : K) ≤ speedEps := speedEps_pos.le
  unfold ProfileShortDefined
  extract_lets takeAo takeAi ai' ao' s123
  by_cases hone : OneCountsAsZero p
  · -- both are the one that does not count as zero
    have heq : ai' = ao' ∧ ai' ≠ 0 := by
      simp only [ai', ao']
      split
      · rename_i htake
        exact ⟨rfl, abs_pos.mp (heps.trans_lt htake.2)⟩
      · rename_i hnot
        have htake : takeAi := hone.resolve_left hnot
        rw [if_pos htake]
        exact ⟨rfl, abs_pos.mp (heps.trans_lt htake.2)⟩
    have hsame : (ai' < 0 ∧ ao' < 0) ∨ (ai' > 0 ∧ ao' > 0) := by
      rw [← heq.1]
      exact (lt_or_gt_of_ne heq.2).imp (fun h => ⟨h, h⟩) fun h => ⟨h, h⟩
    rw [if_pos hsame]
    exact ⟨fun _ hnot => absurd hone hnot, fun _ => hlen⟩
  · obtain ⟨hno, hni⟩ := not_or.mp hone
    have hai : ai' = entryAcc p := if_neg hno
    have hao : ao' = exitAcc p := (if_neg hno).trans (if_neg hni)
    have hs123 : s123 = reducedLength T p s := by
      simp only [s123, hai]
      rfl
    rw [hs123, hai, hao]
    split
    · rename_i hsame
      refine ⟨fun _ _ hopp => ?_, fun _ => hlen⟩
      rcases hsame with ⟨h1, h2⟩ | ⟨h1, h2⟩ <;> rcases hopp with ⟨h3, h4⟩ | ⟨h3, h4⟩
      · exact absurd h3 (lt_asymm h1)
      · exact absurd h4 (lt_asymm h2)
      · exact absurd h4 (lt_asymm h2)
      · exact absurd h3 (lt_asymm h1)
    · split
      · rename_i hopp
        exact ⟨fun h _ _ => h, fun h => h hone hopp⟩
      · rename_i hopp
        exact ⟨fun _ _ h => absurd h hopp, fun _ => trivial⟩

variable [LawfulSqrt K]

theorem entryRamp_defined (hT : 0 < T) (ha : 0 < p.acc0) (hd : p.dec0 < 0) (v w : K)
    (hne : |accFromTo p v w| > 0) :
    RampByAccDefined T (planNacc p) v w (accFromTo p v w)
      (accFromTo p v w / jerk2acc (planNacc p) T) := by
  have hn : 1 ≤ planNacc p := one_le_clampNacc _
  have hd0 : 0 < jerk2acc (planNacc p) T := jerk2acc_pos hT hn
  rcases accFromTo_cases ha hd v w with ⟨h0, -⟩ | ⟨h0, hv, -⟩ | ⟨h0, hv, -⟩
  · exact absurd h0 (abs_pos.mp hne)
  · exact rampByAccDefined hT hn (.inl ⟨h0, div_pos h0 hd0, hv⟩)
  · exact rampByAccDefined hT hn (.inr ⟨h0, div_neg_of_neg_of_pos h0 hd0, hv⟩)

/-- The phases of a plan are defined exactly if a reduced speed it slows down to has its roots. -/
theorem profileDefined_iff (hT : 0 < T) (ha : 0 < p.acc0) (hd : p.dec0 < 0) (hv : 0 < p.cruiseV)
    (hvi : 0 ≤ p.entryV)
    (hpos : ∀ s123, 0 < p.entryV → entryAcc p < 0 →
      0 < reducedSpeed T (planNacc p) p.entryV (entryAcc p) s123) :
    ProfileDefined T p s ↔ (SlowsDown T p s → ReducedRootsExist T p s) := by
  have hn : 1 ≤ planNacc p := one_le_clampNacc _
  have hn0 : (planNacc p : K) ≠ 0 := by exact_mod_cast (by omega : planNacc p ≠ 0)
  have hvo : 0 < exitSpeed p := exitSpeed_pos
  have hd0 : 0 < jerk2acc (planNacc p) T := jerk2acc_pos hT hn
  have hdirect := entryRamp_defined (T := T) hT ha hd p.entryV (exitSpeed p)
  have hentry := entryRamp_defined (T := T) hT ha hd p.entryV p.cruiseV
  have hexit (hne : |exitAcc p| > 0) : RampByAccDefined T (planNacc p) p.cruiseV (exitSpeed p)
      (exitAcc p) (exitAcc p / planNacc p / T) := by
    rw [exitAcc_eq] at hne ⊢
    rw [div_div]
    exact entryRamp_defined hT ha hd _ _ hne
  have hdef : ProfileDefined T p s ↔ (directLength T p < s → p.cruiseV * cruiseN T p s * T < 0 →
      ProfileShortDefined T (planNacc p) p.entryV (exitSpeed p) s (directLength T p) (directAcc p)
        (entryAcc p) (exitAcc p)) := by
    unfold ProfileDefined
    constructor
    · rintro ⟨-, -, -, -, h⟩ hs h4
      rw [if_neg (not_le.mpr hs)] at h
      have hshort := h.2.2.2
      rwa [if_pos h4] at hshort
    · intro h
      refine ⟨hd0.ne', hT.ne', hn0, hdirect, ?_⟩
      split
      · exact rampByLenDefined hT hn (by linarith)
      · rename_i hs
        refine ⟨hentry, hexit, hv.ne', ?_⟩
        split
        · rename_i h4
          exact h (not_le.mp hs) h4
        · trivial
  rw [hdef, profileShortDefined_iff hT hvi]
  have hslow (h : entryAcc p < 0) : 0 < p.entryV := by
    rcases accFromTo_cases ha hd p.entryV p.cruiseV with ⟨h0, -⟩ | ⟨h0, -⟩ | ⟨-, hlt, -⟩
    · exact absurd h0 h.ne
    · exact absurd h0 (lt_asymm h)
    · exact hv.trans hlt
  constructor
  · rintro h ⟨hs, h4, hone, hai, hao⟩
    exact (rampReducedDefined_iff_of_neg hT hn (hslow hai) hai (reducedLength_pos hT hvi hs)).mp
      (h hs h4 hone (.inr ⟨hai, hao⟩)).1
  · intro h hs h4 hone hopp
    have hlen := reducedLength_pos hT hvi hs
    have hspeed : (reducedRamp T p s).2 =
        reducedSpeed T (planNacc p) p.entryV (entryAcc p) (reducedLength T p s) :=
      rampReduced_speed _ _ _ _ _
    rcases hopp with ⟨hai, hao⟩ | ⟨hai, hao⟩
    · have hnonneg : 0 ≤ reducedSpeed T (planNacc p) p.entryV (entryAcc p) (reducedLength T p s) :=
        reducedSpeed_nonneg_of_pos hT hn hvi hai
      exact ⟨rampReducedDefined_of_pos hT hn hvi hai hlen,
        rampByLenDefined hT hn (by rw [hspeed]; linarith)⟩
    · have hspos := hpos (reducedLength T p s) (hslow hai) hai
      refine ⟨(rampReducedDefined_iff_of_neg hT hn (hslow hai) hai hlen).mpr ?_,
        rampByLenDefined hT hn (by rw [hspeed]; linarith)⟩
      exact h ⟨hs, h4, hone, hai, hao⟩

/-! ### Numbers of cycles -/

/-- The whole length is cruised. -/
def CruisesOnly (T : K) (p : MoveRuntimePlanSpeedInput K) (s : K) : Prop :=
  directLength T p < s ∧ |p.entryV - p.cruiseV| < speedEps ∧
    |exitSpeed p - p.cruiseV| < speedEps

/-- The whole length is cruised, in less than two cycles. -/
def CruisesUnderTwo (T : K) (p : MoveRuntimePlanSpeedInput K) (s : K) : Prop :=
  CruisesOnly T p s ∧ s < 2 * (p.cruiseV * T)

/-- No cycles at all. -/
def Bare (r : Ramp K) : Prop := r.jerkN = 0 ∧ r.accN = 0

theorem entryRamp_cases (hd : p.dec0 ≠ 0) (ha : p.acc0 ≠ 0) :
    (Proper (entryRamp T p) ∧ ¬|p.entryV - p.cruiseV| < speedEps) ∨
      (Bare (entryRamp T p) ∧ (entryRamp T p).s = 0 ∧ |p.entryV - p.cruiseV| < speedEps) := by
  have hcases : entryAcc p ≠ 0 ∧ Proper (entryRamp T p) ∨
      entryAcc p = 0 ∧ entryRamp T p = Ramp.none _ := ramp_cases (one_le_clampNacc _) _ _
  rcases hcases with ⟨hne, hp⟩ | ⟨h0, hr⟩
  · refine .inl ⟨hp, fun heps => hne ?_⟩
    exact if_pos heps
  · refine .inr ?_
    rw [hr]
    exact ⟨⟨rfl, rfl⟩, rfl, accFromTo_eq_zero ha hd h0⟩

theorem exitRamp_cases (hd : p.dec0 ≠ 0) (ha : p.acc0 ≠ 0) :
    (Proper (exitRamp T p) ∧ ¬|exitSpeed p - p.cruiseV| < speedEps) ∨
      (Bare (exitRamp T p) ∧ (exitRamp T p).s = 0 ∧ |exitSpeed p - p.cruiseV| < speedEps) := by
  have hcases : exitAcc p ≠ 0 ∧ Proper (exitRamp T p) ∨
      exitAcc p = 0 ∧ exitRamp T p = Ramp.none _ := ramp_cases (one_le_clampNacc _) _ _
  rcases hcases with ⟨hne, hp⟩ | ⟨h0, hr⟩
  · refine .inl ⟨hp, fun heps => hne ?_⟩
    exact if_pos heps
  · refine .inr ?_
    rw [hr, abs_sub_comm]
    rw [exitAcc_eq] at h0
    exact ⟨⟨rfl, rfl⟩, rfl, accFromTo_eq_zero ha hd h0⟩

/-- With a ramp there is at least one cycle, and the numbers of cycles divided by are not zero. -/
theorem cycles_of_ramp {f : Profile K} (he : Proper f.entry ∨ Bare f.entry)
    (hx : Proper f.exit ∨ Bare f.exit) (hn : 0 ≤ f.n4) (h : Proper f.entry ∨ Proper f.exit) :
    OfProfileDefined f ∧ 1 ≤ cycles f := by
  unfold Proper Bare at *
  unfold OfProfileDefined cycles
  extract_lets N1 N2 N5 N6
  have h1 : N1 = f.entry.jerkN := rfl
  have h2 : N2 = f.entry.accN := rfl
  have h5 : N5 = f.exit.jerkN := rfl
  have h6 : N6 = f.exit.accN := rfl
  refine ⟨?_, by omega⟩
  split
  · exact ⟨by omega, by omega, by omega⟩
  · split
    · omega
    · split <;> omega

/-- Unless the whole length is cruised a plan has a ramp. -/
theorem cycles_of_not_cruisesOnly (hT : 0 < T) (hv : 0 < p.cruiseV) (ha : 0 < p.acc0)
    (hd : p.dec0 < 0) (h : ¬CruisesOnly T p s) :
    OfProfileDefined (profile T p s) ∧ 1 ≤ cycles (profile T p s) := by
  have hn : 1 ≤ planNacc p := one_le_clampNacc _
  have hentry := entryRamp_cases (T := T) hd.ne ha.ne'
  have hexit := exitRamp_cases (T := T) hd.ne ha.ne'
  have he := hentry.imp And.left And.left
  have hx := hexit.imp And.left And.left
  have hbare : Bare (Ramp.none 0 : Ramp K) := ⟨rfl, rfl⟩
  have hcase := profile_cases T p s
  generalize profile T p s = f at hcase ⊢
  cases hcase with
  | short | same =>
    exact cycles_of_ramp (.inl (rampByLen_proper hn)) (.inr hbare) le_rfl (.inl (rampByLen_proper hn))
  | reduced =>
    have hred : Proper (reducedRamp T p s).1 := rampReduced_proper hT hn
    exact cycles_of_ramp (.inl hred) (.inl (rampByLen_proper hn)) le_rfl (.inl hred)
  | full hlt h4 =>
    refine cycles_of_ramp he hx (cruiseN_nonneg hT hv h4) ?_
    rcases hentry with ⟨hp, -⟩ | ⟨-, -, hi⟩
    · exact .inl hp
    · rcases hexit with ⟨hp, -⟩ | ⟨-, -, ho⟩
      · exact .inr hp
      · exact absurd ⟨hlt, hi, ho⟩ h
  | unplanned hlt h4 =>
    refine cycles_of_ramp he hx le_rfl ?_
    rcases hentry with ⟨hp, -⟩ | ⟨-, -, hi⟩
    · exact .inl hp
    · rcases hexit with ⟨hp, -⟩ | ⟨-, -, ho⟩
      · exact .inr hp
      · exact absurd ⟨hlt, hi, ho⟩ h

/-- A length that is cruised as a whole. -/
theorem cycles_of_cruisesOnly (hT : 0 < T) (hv : 0 < p.cruiseV) (ha : 0 < p.acc0)
    (hd : p.dec0 < 0) (hs : 0 < s) (h : CruisesOnly T p s) :
    (OfProfileDefined (profile T p s) ↔ ⌊s / p.cruiseV / T⌋ ≠ 1) ∧
      cycles (profile T p s) = ⌊s / p.cruiseV / T⌋ := by
  obtain ⟨hlt, hi, ho⟩ := h
  obtain ⟨hentry, hes, -⟩ := (entryRamp_cases (T := T) hd.ne ha.ne').resolve_left fun h => h.2 hi
  obtain ⟨hexit, hxs, -⟩ := (exitRamp_cases (T := T) hd.ne ha.ne').resolve_left fun h => h.2 ho
  have hn4 : cruiseN T p s = ⌊s / p.cruiseV / T⌋ := by
    rw [cruiseN, hes, hxs, sub_zero, sub_zero]
  have h4 : 0 ≤ p.cruiseV * cruiseN T p s * T := by
    have hfloor : 0 ≤ ⌊s / p.cruiseV / T⌋ := Int.floor_nonneg.mpr (by positivity)
    rw [hn4]
    have : (0 : K) ≤ ⌊s / p.cruiseV / T⌋ := by exact_mod_cast hfloor
    positivity
  have hprofile : profile T p s =
      ⟨entryRamp T p, cruiseN T p s, p.cruiseV * cruiseN T p s * T, exitRamp T p⟩ := by
    rw [profile_eq, if_neg (not_le.mpr hlt), if_neg (not_lt.mpr h4)]
  rw [hprofile, ← hn4]
  unfold OfProfileDefined cycles
  simp only [hentry.1, hentry.2, hexit.1, hexit.2]
  constructor
  · simp [sub_eq_zero]
  · ring

end Profiles

/-! ### Playing a plan out -/

section Play

/-- The planner after `n` calls of `run_once`. -/
def played (m : Moveruntime K) (n : ℕ) : Moveruntime K := (fun m => m.runOnce.1)^[n] m

/-- The sum of what they returned. -/
def returned (m : Moveruntime K) (n : ℕ) : K := ∑ k ∈ Finset.range n, (m.played k).runOnce.2

variable {m : Moveruntime K} {n : ℕ}

theorem played_succ : m.played (n + 1) = (m.played n).runOnce.1 := Function.iterate_succ_apply' _ _ _

/-- What was returned is the way gone. -/
theorem returned_eq : m.currentLength + m.returned n = (m.played n).currentLength := by
  induction n with
  | zero => simp [returned, played]
  | succ n ih =>
    rw [played_succ, runOnce_currentLength, ← ih, returned, Finset.sum_range_succ, ← add_assoc]
    rfl

theorem Impl.stepP_T (r : Impl K) : r.stepP.T = r.T := by
  unfold Impl.stepP
  split_ifs <;> rfl

theorem runOnce_T : m.runOnce.1.impl.T = m.impl.T := by
  unfold runOnce
  split_ifs
  · rfl
  · exact m.impl.stepP_T
  · rfl

theorem played_T : (m.played n).impl.T = m.impl.T := by
  induction n with
  | zero => rfl
  | succ n ih => rw [played_succ, runOnce_T, ih]

/-- The cycles of a plan. -/
theorem played_cycles (hp : m.OnPlan) (hr : m.state = .running) (h0 : m.impl.currentN = 0)
    (hn : (n : ℤ) ≤ m.impl.totalN) :
    (m.played n).OnPlan ∧ (m.played n).state = .running ∧ (m.played n).impl.currentN = n ∧
      (m.played n).impl.totalN = m.impl.totalN ∧ (m.played n).impl.length = m.impl.length := by
  induction n with
  | zero => exact ⟨hp, hr, by simpa [played] using h0, rfl, rfl⟩
  | succ n ih =>
    obtain ⟨hp', hr', hc, ht, hl⟩ := ih (by omega)
    have hlt : (m.played n).impl.currentN < (m.played n).impl.totalN := by omega
    have hnext : (m.played (n + 1)) = (m.played n).runOnce.1 := played_succ
    rw [hnext]
    refine ⟨hp'.runOnce, ?_, ?_, ?_, ?_⟩
    all_goals simp only [runOnce, hr', reduceCtorEq, if_false, hlt, if_true]
    · simp [hc]
    · simpa using ht
    · simpa using hl

/-- A plan with cycles is over after them and has covered its length. -/
theorem OnPlan.playsOut (hp : m.OnPlan) (hr : m.state = .running) (h0 : m.impl.currentN = 0) :
    ∃ n, (m.played n).state = .notRunning ∧ m.currentLength + m.returned n = m.impl.length := by
  have hone := hp.one_le_totalN
  obtain ⟨n, hn⟩ := Int.eq_ofNat_of_zero_le (by omega : 0 ≤ m.impl.totalN)
  obtain ⟨hp', hr', hc, ht, hl⟩ := played_cycles (n := n) hp hr h0 hn.ge
  have hge : ¬(m.played n).impl.currentN < (m.played n).impl.totalN := by omega
  refine ⟨n + 1, ?_, ?_⟩
  · rw [played_succ]
    simp only [Moveruntime.runOnce, hr', reduceCtorEq, if_false, hge]
  · rw [returned_eq, played_succ]
    simp only [Moveruntime.runOnce, hr', reduceCtorEq, if_false, hge, add_zero]
    rw [hp'.covered (not_lt.mp hge), hl]

/-- A plan without cycles never returns anything. -/
theorem returned_of_noCycles (h : m.impl.totalN ≤ m.impl.currentN) : m.returned n = 0 := by
  have hstep (m : Moveruntime K) (h : m.impl.totalN ≤ m.impl.currentN) :
      m.runOnce.1.impl.totalN ≤ m.runOnce.1.impl.currentN ∧ m.runOnce.2 = 0 := by
    simp only [runOnce, not_lt.mpr h, if_false]
    split
    · exact ⟨h, rfl⟩
    · exact ⟨h, rfl⟩
  have hplayed (n : ℕ) : (m.played n).impl.totalN ≤ (m.played n).impl.currentN := by
    induction n with
    | zero => exact h
    | succ n ih =>
      rw [played_succ]
      exact (hstep _ ih).1
  exact Finset.sum_eq_zero fun k _ => (hstep _ (hplayed k)).2

variable [FloorRing K] [RealFns K] [Settings]

variable [IsStrictOrderedRing K] {p : MoveRuntimePlanSpeedInput K} {s : K}

/-- A plan is played out exactly if it is defined and has cycles. -/
theorem exists_playsOut_iff (hs : 0 < s) (hc : 0 ≤ cycles (profile cycleT p s)) :
    (∃ m, plan p s = some m ∧ (∀ n, (m.played n).impl.T ≠ 0) ∧
      ∃ n, (m.played n).state = .notRunning ∧ m.returned n = s) ↔
      1 ≤ cycles (profile cycleT p s) := by
  have hT : (cycleT : K) ≠ 0 := cycleT_pos.ne'
  constructor
  · rintro ⟨m, hm, -, n, -, hn⟩
    rw [plan_of_pos hs] at hm
    obtain rfl := Option.some.inj hm
    by_contra hnone
    rw [returned_of_noCycles] at hn
    · exact hs.ne hn
    · show cycles (profile cycleT p s) ≤ 0
      omega
  · intro hone
    have hon : OnPlan (⟨s, 0, .running, .ofProfile cycleT p.entryV s (profile cycleT p s)⟩ :
        Moveruntime K) := by
      refine ⟨hone, fun _ => (add_zero 0).symm, fun hle => ?_⟩
      have hle : cycles (profile cycleT p s) ≤ 0 := hle
      omega
    obtain ⟨n, hover, hsum⟩ := hon.playsOut rfl rfl
    refine ⟨_, plan_of_pos hs, fun n => by rw [played_T]; exact hT, n, hover, ?_⟩
    rwa [zero_add] at hsum

/-- What a plan for a length owes: planning and every call of `run_once` divide by no zero and leave no
domain, and after finitely many calls the planner is not running and has returned the length. -/
def PlaysOut (p : MoveRuntimePlanSpeedInput K) (s : K) : Prop :=
  PlanDefined p s ∧ ∃ m, plan p s = some m ∧ (∀ n, (m.played n).impl.T ≠ 0) ∧
    ∃ n, (m.played n).state = .notRunning ∧ m.returned n = s

end Play

/-! ### On the real numbers -/

section Real

variable {T vi ai s123 : ℝ} {nacc : ℤ}

/-- The angle of the arc cosine stays near three quarters of a turn. -/
theorem abs_cos_le (c : ℝ) :
    |Real.cos ((Real.arccos c + 31415926 / 10000000 * 4) / 3)| ≤ 3 / 5 := by
  have hlow := Real.arccos_nonneg c
  have hhigh := Real.arccos_le_pi c
  have hpi := Real.pi_gt_d2
  have hpi' := Real.pi_lt_d2
  generalize Real.arccos c = θ at hlow hhigh
  rw [← Real.sin_add_pi_div_two, ← Real.sin_sub_two_pi]
  refine (Real.abs_sin_le_abs).trans (abs_le.mpr ⟨?_, ?_⟩) <;> linarith

/-- A reduced speed is positive, also one that is reached by slowing down. -/
theorem reducedSpeed_pos_of_neg (hT : 0 < T) (hn : 1 ≤ nacc) (hvi : 0 < vi) (hai : ai < 0) :
    0 < reducedSpeed T nacc vi ai s123 := by
  have hd0 : 0 < jerk2acc nacc T := jerk2acc_pos hT hn
  have hj : ai / jerk2acc nacc T < 0 := div_neg_of_neg_of_pos hai hd0
  unfold reducedSpeed
  split
  · -- the speed lost is eight thirds of the entry speed times the square of a small cosine
    have hd1 : reducedD1 T nacc vi ai s123 =
        2 * √(2 * vi / (ai / jerk2acc nacc T) / (-3)) *
          Real.cos ((Real.arccos (reducedCosine T nacc vi ai s123) +
            31415926 / 10000000 * 4) / 3) := if_neg hj.not_gt
    have hcos := abs_cos_le (reducedCosine T nacc vi ai s123)
    generalize Real.cos _ = c at hd1 hcos
    have hsq : c ^ 2 ≤ 9 / 25 := by
      rw [← sq_abs]
      nlinarith [abs_nonneg c]
    have hroot : 0 ≤ 2 * vi / (ai / jerk2acc nacc T) / (-3) :=
      div_nonneg_of_nonpos (div_nonpos_of_nonneg_of_nonpos (by linarith) hj.le) (by norm_num)
    have hlost : ai / jerk2acc nacc T * reducedD1 T nacc vi ai s123 *
        reducedD1 T nacc vi ai s123 = -(8 / 3) * vi * c ^ 2 := by
      calc ai / jerk2acc nacc T * reducedD1 T nacc vi ai s123 * reducedD1 T nacc vi ai s123
          = ai / jerk2acc nacc T * 4 * c ^ 2 *
              (√(2 * vi / (ai / jerk2acc nacc T) / (-3)) *
                √(2 * vi / (ai / jerk2acc nacc T) / (-3))) := by rw [hd1]; ring
        _ = ai / jerk2acc nacc T * 4 * c ^ 2 * (2 * vi / (ai / jerk2acc nacc T) / (-3)) := by
            rw [Real.mul_self_sqrt hroot]
        _ = -(8 / 3) * vi * c ^ 2 := by
            have hdiv : ai / jerk2acc nacc T ≠ 0 := hj.ne
            generalize ai / jerk2acc nacc T = j at hdiv
            field_simp
            ring
    rw [hlost]
    nlinarith
  · have hroot : 0 ≤ √(reducedRadicand T nacc vi ai s123) := Real.sqrt_nonneg _
    have hgone : ai * reducedD2 T nacc vi ai s123 =
        √(reducedRadicand T nacc vi ai s123) -
          (vi + 3 / 2 * ai * jerk2acc nacc T + ai * T) := by
      show ai * ((-(vi + 3 / 2 * ai * jerk2acc nacc T + ai * T) +
        √(reducedRadicand T nacc vi ai s123)) / (2 * (1 / 2 * ai))) = _
      rw [show 2 * (1 / 2 * ai) = ai by ring, mul_div_cancel₀ _ hai.ne]
      ring
    have hpos : 0 < -ai * (1 / 2 * jerk2acc nacc T + T) :=
      mul_pos (by linarith) (by linarith)
    rw [mul_add, hgone]
    linarith

variable [Settings] {p : MoveRuntimePlanSpeedInput ℝ} {s : ℝ}

end Real

/-! ### Cruising all the way -/

section Steady

/-- A move that starts, cruises and ends with the same speed, a unit of length each cycle. -/
def steady : MoveRuntimePlanSpeedInput ℝ := ⟨500000, -500000, 1000, 1000, 1000, 30⟩

attribute [local instance] Sample.settings

theorem cycleT_eq : (cycleT : ℝ) = 1 / 1000 := by norm_num [cycleT, Settings.motionCycleUs]

theorem steady_cruisesOnly {s : ℝ} (hs : 0 < s) : CruisesOnly cycleT steady s := by
  have hexit : exitSpeed steady = 1000 := by norm_num [exitSpeed, steady]
  have hacc : directAcc steady = 0 := by
    rw [directAcc, accFromTo, hexit, if_pos]
    simp [steady, speedEps_pos]
  refine ⟨?_, ?_, ?_⟩
  · rw [directLength, if_neg (by simp [hacc])]
    exact hs
  · simp [steady, speedEps_pos]
  · rw [hexit]
    simp [steady, speedEps_pos]

end Steady

end Moveruntime

end Edm
