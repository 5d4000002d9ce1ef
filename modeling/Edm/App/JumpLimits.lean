import Edm.App.SoftLimits
import Edm.Motion.Retract

/-!
# Jumps and soft limits

A `G01` node is given the length its jumps may go back behind the start:
`GetMaxLengthOnCurrentDir` finds the greatest that keeps to the limits ahead
(`getMaxLengthOnCurrentDir_isGreatest`). The command carries the start it was found for, but the
motion thread starts from where it stands. Where the two agree, and the jumps fit, no jump leaves
the limits (`jumps_in_limits`); where the runner has read an old position, one can
(`stale_start_jumps_past_limit`).
-/

set_option linter.unusedSectionVars false

namespace Edm

namespace TaskHelper

open GCodeRunner

section MaxLength

variable {sl : CoordSoftLimit ℝ} {dir p : Axis ℝ} {i : Fin 6} {t scale : ℝ} {is : List (Fin 6)}

/-- An axis that moves along `dir` has come to the limit ahead. -/
def Reached (sl : CoordSoftLimit ℝ) (dir p : Axis ℝ) (i : Fin 6) : Prop :=
  0 < dir i ∧ sl.pos i ≤ p i ∨ dir i < 0 ∧ p i ≤ sl.neg i

/-- As far as `t` along `dir` every axis that moves respects the limit ahead. -/
def RespectsAhead (sl : CoordSoftLimit ℝ) (dir p : Axis ℝ) (t : ℝ) : Prop :=
  ∀ s, 0 ≤ s → s ≤ t → ∀ i,
    (0 < dir i → p i + s * dir i ≤ sl.pos i) ∧ (dir i < 0 → sl.neg i ≤ p i + s * dir i)

theorem reached_iff : Reached sl dir p i ↔ dir i ≠ 0 ∧ leftScale sl dir p i ≤ 0 := by
  unfold Reached leftScale
  rcases lt_trichotomy (dir i) 0 with hneg | hzero | hpos
  · simp only [hneg, hneg.ne, not_lt_of_gt hneg, if_false, false_and, false_or, true_and,
      ne_eq, not_false_eq_true, div_nonpos_iff, hneg.le, not_le.mpr hneg, and_false, and_true,
      or_false, sub_nonneg]
  · simp [hzero]
  · simp only [hpos, hpos.ne', not_lt_of_gt hpos, if_true, true_and, false_and, or_false,
      ne_eq, not_false_eq_true, div_nonpos_iff, hpos.le, not_le.mpr hpos, and_false, and_true,
      false_or, sub_nonpos]

/-- An axis that moves respects its limit as far as the limit is. -/
theorem respects_axis_iff {s : ℝ} (hne : dir i ≠ 0) :
    (0 < dir i → p i + s * dir i ≤ sl.pos i) ∧ (dir i < 0 → sl.neg i ≤ p i + s * dir i) ↔
      s ≤ leftScale sl dir p i := by
  unfold leftScale
  rcases lt_or_gt_of_ne hne with hneg | hpos
  · rw [if_neg (not_lt_of_gt hneg), le_div_iff_of_neg hneg, sub_le_iff_le_add']
    simp only [hneg, not_lt_of_gt hneg, false_implies, true_implies, true_and]
  · rw [if_pos hpos, le_div_iff₀ hpos, le_sub_iff_add_le']
    simp only [hpos, not_lt_of_gt hpos, false_implies, true_implies, and_true]

theorem respectsAhead_iff (ht : 0 ≤ t) :
    RespectsAhead sl dir p t ↔ ∀ i, dir i ≠ 0 → t ≤ leftScale sl dir p i := by
  refine ⟨fun h i hne => (respects_axis_iff hne).mp (h t ht le_rfl i), fun h s _ hs i => ?_⟩
  by_cases hzero : dir i = 0
  · simp [hzero]
  · exact (respects_axis_iff hzero).mpr (hs.trans (h i hzero))

/-- One turn of the loop. -/
theorem maxScale_cons : maxScale sl dir p (i :: is) scale =
    if dir i = 0 then maxScale sl dir p is scale
    else if leftScale sl dir p i ≤ 0 then none
    else maxScale sl dir p is
      (if scale = 0 ∨ leftScale sl dir p i < scale then leftScale sl dir p i else scale) := by
  unfold leftScale
  rcases lt_trichotomy (dir i) 0 with hneg | hzero | hpos
  · have hiff : (sl.neg i - p i) / dir i ≤ 0 ↔ sl.neg i - p i ≥ 0 := by
      rw [div_nonpos_iff]
      simp [hneg.le, not_le.mpr hneg]
    simp only [maxScale, gt_iff_lt, hneg, hneg.ne, not_lt_of_gt hneg, if_false, if_true, hiff]
  · simp [maxScale, hzero]
  · have hiff : (sl.pos i - p i) / dir i ≤ 0 ↔ sl.pos i - p i ≤ 0 := by
      rw [div_nonpos_iff]
      simp [hpos.le, not_le.mpr hpos]
    simp only [maxScale, gt_iff_lt, hpos, hpos.ne', if_false, if_true, hiff]

/-- What the loop chooses from: the limits ahead and the scale so far, if there is one. -/
def Candidate (sl : CoordSoftLimit ℝ) (dir p : Axis ℝ) (is : List (Fin 6)) (scale x : ℝ) : Prop :=
  x = scale ∧ 0 < scale ∨ ∃ i ∈ is, dir i ≠ 0 ∧ x = leftScale sl dir p i

theorem maxScale_isLeast (hscale : 0 ≤ scale)
    (hleft : ∀ i ∈ is, dir i ≠ 0 → 0 < leftScale sl dir p i)
    (hany : 0 < scale ∨ ∃ i ∈ is, dir i ≠ 0) :
    ∃ r, maxScale sl dir p is scale = some r ∧ IsLeast {x | Candidate sl dir p is scale x} r := by
  induction is generalizing scale with
  | nil =>
    have hpos : 0 < scale := hany.resolve_right (by simp)
    refine ⟨scale, rfl, .inl ⟨rfl, hpos⟩, ?_⟩
    rintro x (⟨rfl, -⟩ | ⟨i, hi, -⟩)
    · exact le_rfl
    · exact absurd hi (by simp)
  | cons i is ih =>
    have hleft' := fun j hj => hleft j (List.mem_cons_of_mem i hj)
    rw [maxScale_cons]
    split
    · rename_i hzero
      obtain ⟨r, hr, hleast⟩ := ih hscale hleft' (by simpa [hzero] using hany)
      refine ⟨r, hr, ?_⟩
      have hset : {x | Candidate sl dir p (i :: is) scale x} =
          {x | Candidate sl dir p is scale x} := by
        ext x
        simp [Candidate, hzero]
      exact hset ▸ hleast
    · rename_i hne
      have hpos := hleft i List.mem_cons_self hne
      rw [if_neg (not_le.mpr hpos)]
      split
      · rename_i hless
        obtain ⟨r, hr, hmem, hle⟩ := ih hpos.le hleft' (.inl hpos)
        have hri : r ≤ leftScale sl dir p i := hle (.inl ⟨rfl, hpos⟩)
        refine ⟨r, hr, ?_, ?_⟩
        · rcases hmem with ⟨heq, -⟩ | ⟨j, hj, hnej, heq⟩
          · exact .inr ⟨i, List.mem_cons_self, hne, heq⟩
          · exact .inr ⟨j, List.mem_cons_of_mem i hj, hnej, heq⟩
        · rintro x (⟨rfl, hx⟩ | ⟨j, hj, hnej, rfl⟩)
          · rcases hless with hzero | hlt
            · exact absurd hzero hx.ne'
            · exact hri.trans hlt.le
          · rcases List.mem_cons.mp hj with rfl | hj
            · exact hri
            · exact hle (.inr ⟨j, hj, hnej, rfl⟩)
      · rename_i hmore
        obtain ⟨hnz, hge⟩ := not_or.mp hmore
        have hspos : 0 < scale := lt_of_le_of_ne hscale (Ne.symm hnz)
        obtain ⟨r, hr, hmem, hle⟩ := ih hscale hleft' (.inl hspos)
        refine ⟨r, hr, ?_, ?_⟩
        · rcases hmem with hs | ⟨j, hj, hnej, heq⟩
          · exact .inl hs
          · exact .inr ⟨j, List.mem_cons_of_mem i hj, hnej, heq⟩
        · rintro x (hs | ⟨j, hj, hnej, rfl⟩)
          · exact hle (.inl hs)
          · rcases List.mem_cons.mp hj with rfl | hj
            · exact (hle (.inl ⟨rfl, hspos⟩)).trans (not_lt.mp hge)
            · exact hle (.inr ⟨j, hj, hnej, rfl⟩)

theorem maxScale_none (h : ∃ i ∈ is, Reached sl dir p i) : maxScale sl dir p is scale = none := by
  induction is generalizing scale with
  | nil => simp at h
  | cons i is ih =>
    rw [maxScale_cons]
    obtain ⟨j, hj, hreached⟩ := h
    split
    · rename_i hzero
      rcases List.mem_cons.mp hj with rfl | hj
      · exact absurd hzero (reached_iff.mp hreached).1
      · exact ih ⟨j, hj, hreached⟩
    · split
      · rfl
      · rename_i hnot
        rcases List.mem_cons.mp hj with rfl | hj
        · exact absurd (reached_iff.mp hreached).2 hnot
        · exact ih ⟨j, hj, hreached⟩

/-- A unit vector moves some axis. -/
theorem exists_ne_zero_of_unit (hunit : MotionUtils.axisLength dir = 1) : ∃ i, dir i ≠ 0 := by
  by_contra hall
  have hzero (i : Fin 6) : dir i = 0 := not_not.mp (not_exists.mp hall i)
  have hlen : MotionUtils.axisLength dir = 0 := by
    rw [MotionUtils.axisLength, foldl_mul_self]
    simp only [hzero, mul_zero, Finset.sum_const_zero]
    exact Real.sqrt_zero
  exact one_ne_zero (hunit.symm.trans hlen)

theorem getMaxLengthOnCurrentDir_of_reached (h : ∃ i, Reached sl dir p i) :
    getMaxLengthOnCurrentDir sl dir p = 0 := by
  obtain ⟨i, hi⟩ := h
  rw [getMaxLengthOnCurrentDir, maxScale_none ⟨i, List.mem_finRange i, hi⟩]

/-- From a point that respects the limits ahead it is as far as they are respected. -/
theorem getMaxLengthOnCurrentDir_isGreatest (hunit : MotionUtils.axisLength dir = 1)
    (hp : RespectsAhead sl dir p 0) :
    IsGreatest {t | 0 ≤ t ∧ RespectsAhead sl dir p t} (getMaxLengthOnCurrentDir sl dir p) := by
  by_cases hreached : ∃ i, Reached sl dir p i
  · rw [getMaxLengthOnCurrentDir_of_reached hreached]
    refine ⟨⟨le_rfl, hp⟩, fun t ⟨ht, hresp⟩ => ?_⟩
    obtain ⟨i, hi⟩ := hreached
    obtain ⟨hne, hle⟩ := reached_iff.mp hi
    exact ((respectsAhead_iff ht).mp hresp i hne).trans hle
  · have hleft (i : Fin 6) (hne : dir i ≠ 0) : 0 < leftScale sl dir p i :=
      not_le.mp fun hle => hreached ⟨i, reached_iff.mpr ⟨hne, hle⟩⟩
    obtain ⟨i₀, hi₀⟩ := exists_ne_zero_of_unit hunit
    have hleft' : ∀ i ∈ List.finRange 6, dir i ≠ 0 → 0 < leftScale sl dir p i := fun i _ => hleft i
    obtain ⟨r, hr, hmem, hle⟩ :=
      maxScale_isLeast le_rfl hleft' (.inr ⟨i₀, List.mem_finRange i₀, hi₀⟩)
    obtain ⟨j, -, hj, rfl⟩ := hmem.resolve_left fun h => h.2.false
    rw [getMaxLengthOnCurrentDir, hr]
    simp only [hunit, mul_one]
    refine ⟨⟨(hleft j hj).le, (respectsAhead_iff (hleft j hj).le).mpr fun i hne => ?_⟩, ?_⟩
    · exact hle (.inr ⟨i, List.mem_finRange i, hne, rfl⟩)
    · rintro t ⟨ht, hresp⟩
      exact (respectsAhead_iff ht).mp hresp j hj

end MaxLength

end TaskHelper

/-! ### Jumps -/

namespace GCodeRunner

open MotionUtils TaskHelper

section Line

variable {cm : CoordinateManager ℝ} {a b : Axis ℝ} {x : ℝ}

theorem axisUnitVector_motorToMachine :
    axisUnitVector (cm.motorToMachine a) (cm.motorToMachine b) = axisUnitVector a b := by
  have hvector : axisVector (cm.motorToMachine a) (cm.motorToMachine b) = axisVector a b :=
    funext fun i => sub_sub_sub_cancel_right (b i) (a i) (cm.globalOffset i)
  rw [axisUnitVector, hvector, axisUnitVector]

theorem axisUnitVector_swap (i : Fin 6) : axisUnitVector b a i = -axisUnitVector a b i := by
  have hlen : axisLength (axisVector b a) = axisLength (axisVector a b) := by
    rw [axisLength, axisLength, foldl_mul_self, foldl_mul_self]
    exact congrArg sqrt (Finset.sum_congr rfl fun j _ => by simp only [axisVector]; ring)
  simp only [axisUnitVector, scaleAxis, hlen, axisVector]
  ring

/-- The limits of an axis hold at a position. -/
def InLimits (cm : CoordinateManager ℝ) (motor : Axis ℝ) (i : Fin 6) : Prop :=
  cm.softLimits.neg i ≤ cm.motorToMachine motor i ∧ cm.motorToMachine motor i ≤ cm.softLimits.pos i

/-- Between the target and the height left above the start the axes that move are in their
limits. -/
theorem inLimits_of_line (hin : ∀ i, a i ≠ b i → InLimits cm a i)
    (hwithin : cm.softLimits.Within (cm.motorToMachine a) (cm.motorToMachine b))
    (hlow : -getMaxLengthOnCurrentDir cm.softLimits
      (axisUnitVector (cm.motorToMachine b) (cm.motorToMachine a)) (cm.motorToMachine a) ≤ x)
    (hhigh : x ≤ axisLengthBetween a b) {i : Fin 6} (hi : a i ≠ b i) :
    InLimits cm (fun j => a j + axisUnitVector a b j * x) i := by
  have hplace : cm.motorToMachine (fun j => a j + axisUnitVector a b j * x) i =
      cm.motorToMachine a i + axisUnitVector a b i * x := by
    simp only [CoordinateManager.motorToMachine]
    ring
  have hne : a ≠ b := fun h => hi (congrFun h i)
  obtain ⟨hneg, hpos⟩ := hin i hi
  rw [InLimits, hplace]
  rcases le_or_gt 0 x with hx | hx
  · -- between the start and the target
    have hend : cm.motorToMachine a i + axisUnitVector a b i * axisLengthBetween a b =
        cm.motorToMachine b i := by
      have h := start_add_unitVector_mul (axisLengthBetween_pos hne).ne' i
      simp only [CoordinateManager.motorToMachine]
      linarith
    obtain ⟨hup, hdown⟩ := hwithin i
    rcases lt_or_gt_of_ne hi with hlt | hgt
    · have hu := axisUnitVector_pos.mpr hlt
      have hb := hup (sub_lt_sub_right hlt _)
      have h0 := mul_nonneg hu.le hx
      have h1 := mul_le_mul_of_nonneg_left hhigh hu.le
      constructor <;> linarith
    · have hu := axisUnitVector_neg.mpr hgt
      have hb := hdown (sub_lt_sub_right hgt _)
      have h0 := mul_nonpos_of_nonpos_of_nonneg hu.le hx
      have h1 := mul_le_mul_of_nonpos_left hhigh hu.le
      constructor <;> linarith
  · -- behind the start
    have hdir (j : Fin 6) : axisUnitVector (cm.motorToMachine b) (cm.motorToMachine a) j =
        -axisUnitVector a b j := by
      rw [axisUnitVector_motorToMachine, axisUnitVector_swap]
    have hunit : axisLength (axisUnitVector (cm.motorToMachine b) (cm.motorToMachine a)) = 1 := by
      rw [axisUnitVector_motorToMachine]
      exact axisLength_unitVector hne.symm
    have hstart : RespectsAhead cm.softLimits
        (axisUnitVector (cm.motorToMachine b) (cm.motorToMachine a)) (cm.motorToMachine a) 0 := by
      refine (respectsAhead_iff le_rfl).mpr fun j hj => (respects_axis_iff hj).mp ?_
      have hmoves : a j ≠ b j := by
        rw [hdir, neg_ne_zero] at hj
        exact axisUnitVector_ne_zero.mp hj
      simp only [zero_mul, add_zero]
      exact ⟨fun _ => (hin j hmoves).2, fun _ => (hin j hmoves).1⟩
    obtain ⟨hup, hdown⟩ := (getMaxLengthOnCurrentDir_isGreatest hunit hstart).1.2 (-x)
      (neg_nonneg.mpr hx.le) (neg_le.mp hlow) i
    rw [hdir, neg_mul_neg, mul_comm] at hup hdown
    rcases lt_or_gt_of_ne hi with hlt | hgt
    · have hu := axisUnitVector_pos.mpr hlt
      have h0 := mul_nonpos_of_nonneg_of_nonpos hu.le hx.le
      exact ⟨hdown (neg_neg_of_pos hu), by linarith⟩
    · have hu := axisUnitVector_neg.mpr hgt
      have h0 := mul_nonneg_of_nonpos_of_nonpos hu.le hx.le
      exact ⟨by linarith, hup (neg_pos.mpr hu)⟩

end Line

/-- Along a unit vector the length is the greatest that keeps to the limits ahead, and none where an
axis has come to one. A jump of a task that starts where its node was prepared, with the limits kept
there, keeps every axis that the line moves in its limits. -/
theorem jumps_in_limits [Settings] :
    (∀ (sl : CoordSoftLimit ℝ) (dir p : Axis ℝ), axisLength dir = 1 →
      (RespectsAhead sl dir p 0 →
        IsGreatest {t | 0 ≤ t ∧ RespectsAhead sl dir p t} (getMaxLengthOnCurrentDir sl dir p)) ∧
      ((∃ i, Reached sl dir p i) → getMaxLengthOnCurrentDir sl dir p = 0)) ∧
    ∀ (cm : CoordinateManager ℝ) (motorStartPos target : Axis ℝ) (coordIndex : ℤ)
      (coordMode : GCodeCoordinateMode) (cmdValues : CmdValues ℝ) (height : ℝ)
      (timeoutMs : Option ℕ) (err : String) (sh : MotionShared ℝ) (nowMs hrNowNs : ℤ)
      (cmds : List (G01System.Command ℝ)),
      prepareG01 cm motorStartPos coordIndex coordMode cmdValues =
        .send (.autoStartG01ServoMove target height) timeoutMs err →
      (∀ i, motorStartPos i ≠ target i → InLimits cm motorStartPos i) →
      sh.globalCmdAxis = motorStartPos →
      Machine.AllSteps G01System.step G01System.JumpsFit
        (G01System.new (.new sh.globalCmdAxis target) height sh nowMs hrNowNs) cmds →
      let s := Machine.run G01System.step
        (G01System.new (.new sh.globalCmdAxis target) height sh nowMs hrNowNs) cmds
      s.task.InJump → ∀ i, motorStartPos i ≠ target i → InLimits cm s.shared.globalCmdAxis i := by
  refine ⟨fun sl dir p hunit => ⟨getMaxLengthOnCurrentDir_isGreatest hunit,
    getMaxLengthOnCurrentDir_of_reached⟩, ?_⟩
  intro cm motorStartPos target coordIndex coordMode cmdValues height timeoutMs err sh nowMs hrNowNs
    cmds hprepare hin hread hfits s hjump i hi
  subst hread
  obtain ⟨endPos, maxLength, hcmd, hwithin, hmax⟩ := of_prepareG01 hprepare
  simp only [MotionCommand.autoStartG01ServoMove.injEq] at hcmd
  obtain ⟨rfl, rfl⟩ := hcmd
  obtain ⟨x, hhigh, hplace, hlow⟩ :=
    (G01System.run_onTrack target height sh nowMs hrNowNs hfits).place
  rw [if_pos hjump] at hlow
  have hclear : (0 : ℝ) < UnitConverter.um2blu 100 := by
    norm_num [UnitConverter.um2blu, UnitConverter.um2blu_]
  have hx := inLimits_of_line (x := x) hin hwithin (by rw [← hmax]; linarith) hhigh hi
  have hg : s.shared.globalCmdAxis = fun j =>
      sh.globalCmdAxis j + axisUnitVector sh.globalCmdAxis target j * x := funext hplace
  rw [hg]
  exact hx

section Sample

open G01System

attribute [local instance] Sample.settings

/-- Machine and drives agree, and the first axis may go down to `-n`. -/
noncomputable def lineManager (n : ℝ) : CoordinateManager ℝ :=
  ⟨0, fun _ => some 0, ⟨fun _ => 10000, fun _ => -n⟩⟩

/-- The position `c` on the first axis. -/
noncomputable def lineStart (c : ℝ) : Axis ℝ := fun i => if i = 0 then c else 0

/-- The increment from there to a millimetre. -/
noncomputable def lineValues (c : ℝ) : CmdValues ℝ :=
  fun i => if i = 0 then some ((1000 - c) / 1000) else none

variable {c n : ℝ}

theorem lineStart_to (c d : ℝ) :
    (fun i => lineStart c i + Sample.firstAxis i * d) = lineStart (c + d) := by
  funext i
  simp only [lineStart, Sample.firstAxis]
  split <;> simp

theorem axisUnitVector_line {d : ℝ} (h : c < d) :
    axisUnitVector (lineStart c) (lineStart d) = Sample.firstAxis := by
  have hd : 0 < d - c := sub_pos.mpr h
  have ht := axisUnitVector_along (p := lineStart c) (d := d - c) Sample.firstAxis_length
  rw [lineStart_to, add_sub_cancel, abs_of_pos hd, mul_one_div_cancel hd.ne'] at ht
  rw [ht]
  funext i
  simp [scaleAxis]

theorem lineManager_motorToMachine (p : Axis ℝ) : (lineManager n).motorToMachine p = p := by
  funext i
  simp [CoordinateManager.motorToMachine, lineManager]

theorem lineManager_machineToMotor (p : Axis ℝ) : (lineManager n).machineToMotor p = p := by
  funext i
  simp [CoordinateManager.machineToMotor, lineManager]

/-- From `c` back to the limit. -/
theorem lineManager_maxLength (hn : -n < c) (hc : c < 1000) :
    getMaxLengthOnCurrentDir (lineManager n).softLimits
      (axisUnitVector (lineStart 1000) (lineStart c)) (lineStart c) = c + n := by
  have hback (i : Fin 6) :
      axisUnitVector (lineStart 1000) (lineStart c) i = -Sample.firstAxis i := by
    rw [axisUnitVector_swap, axisUnitVector_line hc]
  have hne : lineStart 1000 ≠ lineStart c := fun h => hc.ne' (congrFun h 0)
  have hscale : leftScale (lineManager n).softLimits
      (axisUnitVector (lineStart 1000) (lineStart c)) (lineStart c) 0 = c + n := by
    have h0 : axisUnitVector (lineStart 1000) (lineStart c) 0 = -1 := hback 0
    rw [leftScale, h0, if_neg (by norm_num)]
    show (-n - c) / -1 = c + n
    ring
  have hresp {t : ℝ} (ht : 0 ≤ t) : RespectsAhead (lineManager n).softLimits
      (axisUnitVector (lineStart 1000) (lineStart c)) (lineStart c) t ↔ t ≤ c + n := by
    rw [respectsAhead_iff ht]
    refine ⟨fun h => hscale ▸ h 0 (by simp [hback, Sample.firstAxis]), fun h i hi => ?_⟩
    have hi0 : i = 0 := by
      by_contra hi0
      exact hi (by simp [hback, Sample.firstAxis, hi0])
    rw [hi0, hscale]
    exact h
  have hroom : 0 ≤ c + n := by linarith
  refine (getMaxLengthOnCurrentDir_isGreatest (axisLength_unitVector hne)
    ((hresp le_rfl).mpr hroom)).unique ⟨⟨hroom, (hresp hroom).mpr le_rfl⟩, ?_⟩
  rintro t ⟨ht, h⟩
  exact (hresp ht).mp h

theorem prepareG01_line (hn : -n < c) (hc : c < 1000) :
    prepareG01 (lineManager n) (lineStart c) 0 .incrementMode (lineValues c) =
      .send (.autoStartG01ServoMove hardTarget (c + n)) (some 1000) (startFailed "g01") := by
  have htarget : machTargetPos "g01" (lineManager n) 0 .incrementMode (lineValues c)
      (lineStart c) = .ok (lineStart 1000) := by
    rw [machTargetPos, if_pos rfl]
    congr 1
    funext i
    by_cases h0 : i = 0
    · simp only [lineValues, lineStart, h0, if_true, UnitConverter.mm2blu, UnitConverter.mm2blu_,
        UnitConverter.um2blu_]
      ring
    · simp only [lineValues, lineStart, h0, if_false]
  have hne : lineStart c ≠ lineStart 1000 := fun h => hc.ne (congrFun h 0)
  have hcheck : checkPosandnegSoftLimit (lineManager n).softLimits (lineStart 1000)
      (axisUnitVector (lineStart c) (lineStart 1000)) = true := by
    refine checkPosandnegSoftLimit_iff_within.mpr fun i => ⟨fun _ => ?_, fun h => ?_⟩
    · show (if i = 0 then (1000 : ℝ) else 0) ≤ 10000
      split <;> norm_num
    · simp only [lineStart] at h
      split at h
      · exact absurd h (not_lt.mpr hc.le)
      · exact absurd h (lt_irrefl _)
  rw [prepareG01, if_neg (by simp [CoordinateManager.existCoordinateIndex, lineManager])]
  simp only [lineManager_motorToMachine, htarget, if_neg hne, hcheck, Bool.not_true,
    Bool.false_eq_true, if_false, lineManager_maxLength hn hc, lineManager_machineToMotor]
  rfl

/-- A node that is prepared where its task starts, a thousand above the limit. -/
theorem gentle_jump_in_limits :
    let s := Machine.run step (new (.new 0 hardTarget) 1000 gentleShared 0 0) [.runOnce hardInput]
    s.task.InJump → InLimits (lineManager 1000) s.shared.globalCmdAxis 0 := by
  intro s hjump
  have hzero : lineStart 0 = 0 := funext fun _ => ite_self 0
  have hprepare := prepareG01_line (c := 0) (n := 1000) (by norm_num) (by norm_num)
  rw [hzero, zero_add] at hprepare
  have hin (i : Fin 6) : InLimits (lineManager 1000) 0 i := by
    rw [InLimits, lineManager_motorToMachine]
    constructor <;> norm_num [lineManager]
  exact jumps_in_limits.2 (lineManager 1000) 0 hardTarget 0 .incrementMode (lineValues 0) 1000 _ _
    gentleShared 0 0 [.runOnce hardInput] hprepare (fun i _ => hin i) rfl
    ⟨fun _ => gentleJump_fits, trivial⟩ hjump 0 (by norm_num [hardTarget])

/-- A node is prepared for a start a hundred further on than where its task starts, ten above the
limit: the clearance is gone, and the jump goes past the limit. -/
theorem stale_start_jumps_past_limit :
    prepareG01 (lineManager 10) (lineStart (90 + Moveruntime.hardLength)) 0 .incrementMode
        (lineValues (90 + Moveruntime.hardLength)) =
      .send (.autoStartG01ServoMove hardTarget hardHeight) (some 1000) (startFailed "g01") ∧
    (∀ i, InLimits (lineManager 10) (lineStart (90 + Moveruntime.hardLength)) i) ∧
    (∀ i, InLimits (lineManager 10) hardShared.globalCmdAxis i) ∧
    hardShared.globalCmdAxis 0 ≠ hardTarget 0 ∧
    let s := Machine.run step hardStart (.runOnce hardInput :: .replicate 5 (.runOnce hardInput))
    s.task.InJump ∧ ¬InLimits (lineManager 10) s.shared.globalCmdAxis 0 := by
  have hlow : (10 : ℝ) < Moveruntime.hardLength := by norm_num [Moveruntime.hardLength]
  have hhigh : Moveruntime.hardLength < 11 := by norm_num [Moveruntime.hardLength]
  refine ⟨?_, fun i => ?_, fun i => ?_, by norm_num [hardShared, hardTarget, MotionShared.new], ?_⟩
  · have hprepare := prepareG01_line (c := 90 + Moveruntime.hardLength) (n := 10)
      (by linarith) (by linarith)
    have hheight : 90 + Moveruntime.hardLength + 10 = hardHeight := by
      rw [hardHeight]
      ring
    rwa [hheight] at hprepare
  · rw [InLimits, lineManager_motorToMachine, lineStart]
    split <;> constructor <;> simp only [lineManager] <;> linarith
  · rw [InLimits, lineManager_motorToMachine]
    constructor <;> norm_num [lineManager, hardShared, MotionShared.new]
  · obtain ⟨hsub, hpos⟩ := hardStart_run
    refine ⟨.inl hsub, fun h => ?_⟩
    have hunit : hardUnit 0 = 1 := by
      have hzero : lineStart 0 = 0 := funext fun _ => ite_self 0
      have hdir := axisUnitVector_line (c := 0) (d := 1000) (by norm_num)
      rw [hzero] at hdir
      exact congrFun hdir 0
    have hneg := h.1
    rw [lineManager_motorToMachine, hpos 0, hunit, one_mul] at hneg
    have hten : -(10 : ℝ) ≤ -Moveruntime.hardSchedule.gone 5 := hneg
    have hgone := Moveruntime.hardSchedule_gone
    linarith

end Sample

end GCodeRunner

end Edm
