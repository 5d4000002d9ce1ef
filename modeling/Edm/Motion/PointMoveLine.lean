import Edm.Motion.Jump
import Edm.Motion.Overshoot

/-!
# Point moves on their line

A point move whose length fits its plan goes along its line from one end to the other and never past
it (`PointMoveHandler.Runs`): a cycle either goes on or finds the move over, and then it is at its
end. Where the plan is known the cycles are known too: the planner plays back its schedule
(`Moveruntime.Follows`).
-/

set_option linter.unusedSectionVars false

namespace Edm

namespace MotionUtils

section Along

variable {a b p : Axis ℝ} {c d : ℝ}

theorem axisLength_scaleAxis (v : Axis ℝ) (c : ℝ) :
    axisLength (scaleAxis v c) = |c| * axisLength v := by
  simp only [axisLength, scaleAxis, foldl_mul_self]
  have hsum : ∑ i, v i * c * (v i * c) = c ^ 2 * ∑ i, v i * v i := by
    rw [Finset.mul_sum]
    exact Finset.sum_congr rfl fun i _ => by ring
  show Real.sqrt _ = |c| * Real.sqrt _
  rw [hsum, Real.sqrt_mul (sq_nonneg c), Real.sqrt_sq_eq_abs]

theorem axisLength_unitVector (h : a ≠ b) : axisLength (axisUnitVector a b) = 1 := by
  have hlen : 0 < axisLength (axisVector a b) := axisLengthBetween_pos h
  rw [axisUnitVector, axisLength_scaleAxis, abs_of_pos (one_div_pos.mpr hlen),
    one_div_mul_cancel hlen.ne']

/-- From a point on a line `d` further along it. -/
theorem axisVector_along (u : Axis ℝ) : axisVector p (fun i => p i + u i * d) = scaleAxis u d := by
  funext i
  simp [axisVector, scaleAxis]

theorem axisLengthBetween_along {u : Axis ℝ} (hu : axisLength u = 1) :
    axisLengthBetween p (fun i => p i + u i * d) = |d| := by
  rw [axisLengthBetween, axisVector_along, axisLength_scaleAxis, hu, mul_one]

/-- Along a line the unit vector is that of the line, or its opposite. -/
theorem axisUnitVector_along {u : Axis ℝ} (hu : axisLength u = 1) :
    axisUnitVector p (fun i => p i + u i * d) = scaleAxis u (d * (1 / |d|)) := by
  funext i
  simp only [axisUnitVector, axisVector_along, axisLength_scaleAxis, hu, mul_one, scaleAxis]
  ring

end Along

end MotionUtils

namespace MoveruntimeWrapper

theorem stop_targetLength {w : MoveruntimeWrapper ℝ} [Settings] (imm : Bool) :
    (w.stop imm).1.targetLength = w.targetLength := by
  unfold stop
  split
  · rfl
  · cases w.state with
    | running =>
      simp only [slowDown]
      repeat' split
      all_goals rfl
    | _ => rfl

end MoveruntimeWrapper

namespace PointMoveHandler

open MotionUtils MoveruntimeWrapper

variable {m : PointMoveHandler ℝ} {a b : Axis ℝ}

/-- A point move from `a` to `b` that is between its ends, whatever its state. -/
structure KeepsLine (m : PointMoveHandler ℝ) (a b : Axis ℝ) : Prop where
  startPos : m.startPos = a
  unitVector : m.unitVector = axisUnitVector a b
  targetLength : m.mrtWrapper.targetLength = axisLengthBetween a b
  tracks : m.Tracks
  ahead : m.mrtWrapper.Ahead
  nonneg : 0 ≤ m.mrtWrapper.currLength

theorem KeepsLine.between (h : m.KeepsLine a b) :
    ∃ c, 0 ≤ c ∧ c ≤ axisLengthBetween a b ∧ ∀ i, m.currPos i = a i + axisUnitVector a b i * c := by
  refine ⟨m.mrtWrapper.currLength, h.nonneg, h.targetLength ▸ h.ahead.le, fun i => ?_⟩
  rw [h.tracks i, h.startPos, h.unitVector]

/-- A cycle goes forward, and not past the end. -/
theorem KeepsLine.runOnce (h : m.KeepsLine a b) : m.runOnce.KeepsLine a b := by
  obtain ⟨hahead, hinc⟩ := h.ahead.runOnce
  have hw : m.runOnce.mrtWrapper = m.mrtWrapper.runOnce.1 := runOnce_mrtWrapper
  refine ⟨?_, ?_, ?_, h.tracks.runOnce, hw ▸ hahead, ?_⟩
  · rw [runOnce_startPos, h.startPos]
  · rw [runOnce_unitVector, h.unitVector]
  · rw [hw, runOnce_targetLength, h.targetLength]
  · rw [hw, runOnce_currLength]
    exact add_nonneg h.nonneg hinc

/-- A point move from `a` to `b` under way, on its line and not past its end. -/
structure Runs (m : PointMoveHandler ℝ) (a b : Axis ℝ) : Prop extends m.KeepsLine a b where
  running : m.state = .running
  targetPos : m.targetPos = b
  ne : a ≠ b
  aimed : m.mrtWrapper.Aimed

/-- A cycle goes on, or finds the move over at its end. -/
theorem Runs.runOnce (h : m.Runs a b) :
    (m.runOnce.isOver = false ∧ m.runOnce.Runs a b) ∨
      (m.runOnce.isOver = true ∧ m.runOnce.currPos = b) := by
  have haimed := h.aimed.runOnce
  have hw : m.runOnce.mrtWrapper = m.mrtWrapper.runOnce.1 := runOnce_mrtWrapper
  cases hover : m.runOnce.isOver with
  | false =>
    refine .inl ⟨rfl, h.toKeepsLine.runOnce, ?_, ?_, h.ne, hw ▸ haimed⟩
    · rcases m.runOnce_state with hst | ⟨-, hst⟩ | ⟨hst, -⟩ | ⟨hst, -⟩
      · exact hst.trans h.running
      · exact absurd (hover.symm.trans (isOver_iff.mpr (.inl hst))) (by simp)
      · exact absurd (h.running.symm.trans hst) (by simp)
      · exact absurd (h.running.symm.trans hst) (by simp)
    · rw [runOnce_targetPos, h.targetPos]
  | true =>
    refine .inr ⟨rfl, funext fun i => ?_⟩
    have hwover : m.mrtWrapper.runOnce.1.isOver := by
      rw [← hw]
      exact hover
    have hzero := runOnce_of_isOver hwover
    have hstopped : m.mrtWrapper.runOnce.1.state = .stopped := by
      rcases isOver_iff.mp hover with hst | hst
      · rw [← hw]
        exact hst
      · rcases m.runOnce_state with hst' | ⟨-, hst'⟩ | ⟨-, hst'⟩ | ⟨-, hst'⟩
        · exact absurd (h.running.symm.trans (hst'.symm.trans hst)) (by simp)
        all_goals exact absurd (hst'.symm.trans hst) (by simp)
    have hlen : m.mrtWrapper.currLength = axisLengthBetween a b := by
      have harrived := haimed.arrived hstopped
      rw [runOnce_currLength, hzero, add_zero, runOnce_targetLength, h.targetLength] at harrived
      exact harrived
    rw [runOnce_currPos_of_over hover, h.tracks i, h.startPos, h.unitVector, hlen]
    exact start_add_unitVector_mul (axisLengthBetween_pos h.ne).ne' i

variable [Settings]

/-- A stop that plans a length that fits keeps the move between its ends. -/
theorem KeepsLine.stop (h : m.KeepsLine a b) {imm : Bool}
    (hf : m.mrtWrapper.PlansFit (.stop imm)) : (m.stop imm).1.KeepsLine a b := by
  have hcurr : (m.mrtWrapper.stop imm).1.currLength = m.mrtWrapper.currLength :=
    stop_currLength imm
  refine ⟨h.startPos, h.unitVector, ?_, fun i => ?_, h.ahead.stop hf, ?_⟩
  · exact (stop_targetLength imm).trans h.targetLength
  · show m.currPos i = m.startPos i + m.unitVector i * (m.mrtWrapper.stop imm).1.currLength
    rw [hcurr]
    exact h.tracks i
  · exact hcurr ▸ h.nonneg

theorem KeepsLine.stop_true (h : m.KeepsLine a b) : (m.stop true).1.KeepsLine a b :=
  h.stop fun himm => absurd himm (by simp)

/-- A move that was started with a length that fits. -/
theorem start_keepsLine {sp : MoveRuntimePlanSpeedInput ℝ} (hsp : sp.Accepted)
    (hf : Moveruntime.Fits Moveruntime.cycleT sp (axisLengthBetween a b))
    (h : (m.start sp a b).2 = true) : (m.start sp a b).1.KeepsLine a b := by
  obtain ⟨htracks, hzero, hlength⟩ := start_tracks h
  have hw : (m.mrtWrapper.start sp (axisLengthBetween a b)).2 = true := h
  exact ⟨rfl, rfl, hlength, htracks,
    start_ahead hsp.acc0_pos hsp.dec0_neg hsp.cruiseV_pos hsp.entryV.ge hw hf, hzero.ge⟩

theorem start_runs {sp : MoveRuntimePlanSpeedInput ℝ} (hsp : sp.Accepted)
    (hf : Moveruntime.Fits Moveruntime.cycleT sp (axisLengthBetween a b))
    (h : (m.start sp a b).2 = true) : (m.start sp a b).1.Runs a b := by
  have hw : (m.mrtWrapper.start sp (axisLengthBetween a b)).2 = true := h
  rcases m.start_cases sp a b with ⟨-, hst, hpos⟩ | ⟨hret, -, -⟩
  · exact ⟨start_keepsLine hsp hf h, hst, rfl, ne_of_axisLengthBetween_pos hpos,
      start_aimed hsp hw⟩
  · exact absurd (hret.symm.trans h) (by simp)

end PointMoveHandler

/-! ### Playing back a schedule -/

namespace Moveruntime

section Follow

variable {K : Type} [Field K] [LinearOrder K] [IsStrictOrderedRing K] {m : Moveruntime K}
  {S : Schedule K} {c : ℕ}

/-- A running planner plays back a schedule. -/
structure Follows (m : Moveruntime K) (S : Schedule K) (c : ℕ) : Prop where
  running : m.state = .running
  at_ : m.impl.AtCycle S c
  gone : m.currentLength = S.gone c

/-- Before the last cycle a call goes on by one. -/
theorem Follows.runOnce (h : m.Follows S c) (hc : c + 1 < S.total) :
    m.runOnce.1.Follows S (c + 1) ∧ m.runOnce.2 = S.gone (c + 1) - S.gone c := by
  have hlt : c < S.total := by omega
  have hrun : m.runOnce = ({ m with
      impl := m.impl.cycle, currentLength := m.currentLength + m.impl.cycle.intermediate },
      m.impl.cycle.intermediate) := by
    unfold Moveruntime.runOnce
    rw [if_neg (by simp [h.running]), if_pos]
    rw [h.at_.currentN, h.at_.totalN]
    exact_mod_cast hlt
  have hinc : m.impl.cycle.intermediate = S.gone (c + 1) - S.gone c := by
    rw [h.at_.cycle_intermediate hlt, if_neg (by omega), Schedule.gone_succ hc]
    ring
  rw [hrun]
  refine ⟨⟨h.running, h.at_.cycle hlt, ?_⟩, hinc⟩
  show m.currentLength + m.impl.cycle.intermediate = _
  rw [hinc, h.gone]
  ring

end Follow

end Moveruntime

namespace MoveruntimeWrapper

/-- A move whose planner plays back a schedule, from the length zero on. -/
structure Follows (w : MoveruntimeWrapper ℝ) (S : Moveruntime.Schedule ℝ) (c : ℕ) : Prop where
  state : w.state = .running
  planner : w.mrt.Follows S c
  currLength : w.currLength = S.gone c

variable {w : MoveruntimeWrapper ℝ} {S : Moveruntime.Schedule ℝ} {c : ℕ}

theorem Follows.runOnce (h : w.Follows S c) (hc : c + 1 < S.total) :
    w.runOnce.1.Follows S (c + 1) := by
  obtain ⟨hnext, hinc⟩ := h.planner.runOnce hc
  have hrun : w.runOnce = w.advance .stopped := by
    unfold MoveruntimeWrapper.runOnce
    rw [h.state]
  have hnot : w.mrt.runOnce.1.isOver = false := by
    simp [Moveruntime.isOver, Moveruntime.isRunning, hnext.running]
  rw [hrun]
  refine ⟨?_, hnext, ?_⟩
  · show (if w.mrt.runOnce.1.isOver then State.stopped else w.state) = .running
    rw [hnot, if_neg (by simp), h.state]
  · show w.currLength + w.mrt.runOnce.2 = S.gone (c + 1)
    rw [hinc, h.currLength]
    ring

end MoveruntimeWrapper

/-! ### A gentle plan -/

namespace Moveruntime

section Gentle

attribute [local instance] Sample.settings

/-- An acceleration so small that a way of fifteen ends before its speed is reached. -/
noncomputable def gentle : MoveRuntimePlanSpeedInput ℝ := ⟨1 / 10, -1 / 10, 2, 0, 0, 1⟩

theorem gentle_directLength : directLength cycleT gentle = 20003 / 1000 := by
  have hacc : directAcc gentle = 1 / 10 := by
    norm_num [directAcc, accFromTo, gentle, exitSpeed, speedEps]
  have hramp (j : ℝ) : rampByAcc cycleT 1 0 2 (1 / 10 : ℝ) j = rampOf cycleT 0 2 1 19999 := by
    have hfloor : ⌊((2 : ℝ) - 0 - 1 / 10 * jerk2acc 1 cycleT) / (1 / 10) / cycleT⌋ = 19999 := by
      rw [Int.floor_eq_iff]
      norm_num [jerk2acc, cycleT_eq]
    unfold rampByAcc
    simp only [hfloor]
    norm_num
  have hexit : exitSpeed gentle = 2 := if_pos le_rfl
  rw [directLength, hacc, hexit, if_pos (by norm_num)]
  show (rampByAcc cycleT 1 0 2 _ _).s = _
  rw [hramp]
  norm_num [rampOf, targetLengthIod, jerk2acc, cycleT_eq]

/-- Such a way is one ramp. -/
theorem gentle_fits {s : ℝ} (hlow : 1 ≤ s) (hhigh : s ≤ 20) : Fits cycleT gentle s := by
  have hone : ¬directLength cycleT gentle < s := by
    rw [gentle_directLength, not_lt]
    linarith
  refine ⟨fun _ hshort => ?_, fun h => absurd h.1.1 hone, fun h => hone h.1.1,
    fun h => absurd h.1 hone⟩
  have hlen := hshort.2
  norm_num [gentle, exitSpeed, cycleT_eq] at hlen
  linarith

end Gentle

end Moveruntime

namespace Sample

open MotionUtils

/-- The direction of the first drive. -/
noncomputable def firstAxis : Axis ℝ := fun i => if i = 0 then 1 else 0

theorem firstAxis_length : axisLength firstAxis = 1 := by
  rw [axisLength, foldl_mul_self]
  simp only [firstAxis, mul_ite, mul_one, mul_zero, Finset.sum_ite_eq', Finset.mem_univ, if_true]
  exact Real.sqrt_one

end Sample

end Edm
