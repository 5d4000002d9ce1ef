import Edm.Motion.PointMoveLine

/-!
# Manual moves

A manual move runs in the manual mode, or in a pause of a task; it can be stopped at any cycle. In
both modes the commanded axis follows the point move, so a move whose plans have lengths that fit
keeps to the way between its ends (`OnWay.manualStep`).
-/

set_option linter.unusedSectionVars false

namespace Edm

namespace PauseMoveController

/-- A manual move is under way, or none. -/
def Manual (c : PauseMoveController ℝ) : Prop :=
  c.state = .allowManualPointMove ∨ c.state = .manualPointMoving

end PauseMoveController

namespace MotionStateMachine

open MotionUtils

section Steps

variable {K : Type} [Field K] [LinearOrder K] [FloorRing K] [RealFns K] [Settings]

/-- What happens to a manual move. -/
inductive ManualCall (K : Type) where
  | runOnce (inp : CycleInput K)
  | stop (immediate : Bool)

def manualStep (m : MotionStateMachine K) : ManualCall K → MotionStateMachine K
  | .runOnce inp => m.runOnce inp
  | .stop immediate => (m.stopManualPointmove immediate).1

/-- The point move of the mode. -/
def manualHandler (m : MotionStateMachine K) : PointMoveHandler K :=
  if m.mainMode = .auto then m.autoTaskRunner.pausemoveController.pmHandler else m.pmHandler

/-- A stop plans a length that fits. -/
def StopFits (m : MotionStateMachine K) : ManualCall K → Prop
  | .runOnce _ => True
  | .stop immediate => m.manualHandler.mrtWrapper.PlansFit (.stop immediate)

end Steps

variable [Settings] {m : MotionStateMachine ℝ} {a b : Axis ℝ}

/-- A position between `a` and `b`. -/
def Between (a b g : Axis ℝ) : Prop :=
  ∃ x, 0 ≤ x ∧ x ≤ axisLengthBetween a b ∧ ∀ i, g i = a i + axisUnitVector a b i * x

/-- A manual move from `a` to `b`, under way or over. -/
structure OnWay (m : MotionStateMachine ℝ) (a b : Axis ℝ) : Prop where
  line : m.manualHandler.KeepsLine a b
  place : Between a b m.shared.globalCmdAxis
  paused : m.mainMode = .auto →
    m.autoTaskRunner.state = .paused ∧ m.autoTaskRunner.dominState = .autoTaskRunning ∧
      m.autoTaskRunner.pausemoveController.Manual

theorem manualHandler_auto (hm : m.mainMode = .auto) :
    m.manualHandler = m.autoTaskRunner.pausemoveController.pmHandler := if_pos hm

theorem manualHandler_manual (hm : m.mainMode ≠ .auto) : m.manualHandler = m.pmHandler := if_neg hm

theorem onWay_manual (hm : m.mainMode ≠ .auto) (hline : m.pmHandler.KeepsLine a b)
    (hplace : Between a b m.shared.globalCmdAxis) : m.OnWay a b :=
  ⟨manualHandler_manual hm ▸ hline, hplace, fun ha => absurd ha hm⟩

theorem onWay_auto (hm : m.mainMode = .auto) (hst : m.autoTaskRunner.state = .paused)
    (hdom : m.autoTaskRunner.dominState = .autoTaskRunning)
    (hman : m.autoTaskRunner.pausemoveController.Manual)
    (hline : m.autoTaskRunner.pausemoveController.pmHandler.KeepsLine a b)
    (hplace : Between a b m.shared.globalCmdAxis) : m.OnWay a b :=
  ⟨manualHandler_auto hm ▸ hline, hplace, fun _ => ⟨hst, hdom, hman⟩⟩

theorem OnWay.stopManualPointmove (h : m.OnWay a b) {imm : Bool}
    (hf : m.manualHandler.mrtWrapper.PlansFit (.stop imm)) :
    (m.stopManualPointmove imm).1.OnWay a b := by
  have hline := h.line.stop hf
  cases hm : m.mainMode with
  | idle =>
    have heq : m.stopManualPointmove imm = (m, false) := by
      rw [MotionStateMachine.stopManualPointmove, hm]
    rw [heq]
    exact h
  | manual =>
    have hne : m.mainMode ≠ .auto := by simp [hm]
    have heq : m.stopManualPointmove imm =
        ({ m with pmHandler := (m.pmHandler.stop imm).1 }, (m.pmHandler.stop imm).2) := by
      rw [MotionStateMachine.stopManualPointmove, hm]
    rw [heq]
    rw [manualHandler_manual hne] at hline
    exact onWay_manual hne hline h.place
  | auto =>
    obtain ⟨hst, hdom, hman⟩ := h.paused hm
    rw [manualHandler_auto hm] at hline
    have heq : m.stopManualPointmove imm =
        ({ m with autoTaskRunner := { m.autoTaskRunner with
            pausemoveController :=
              (m.autoTaskRunner.pausemoveController.stopManualPointmove imm).1 } },
          (m.autoTaskRunner.pausemoveController.stopManualPointmove imm).2) := by
      rw [MotionStateMachine.stopManualPointmove, hm]
      simp only [AutoTaskRunner.stopManualPointmove, hst, hdom, ne_eq, not_true_eq_false, or_self,
        if_false]
    rw [heq]
    refine onWay_auto hm hst hdom ?_ ?_ h.place
    · show (PauseMoveController.stopManualPointmove _ imm).1.Manual
      unfold PauseMoveController.stopManualPointmove
      split <;> exact hman
    · show (PauseMoveController.stopManualPointmove _ imm).1.pmHandler.KeepsLine a b
      unfold PauseMoveController.stopManualPointmove
      split
      · exact manualHandler_auto hm ▸ h.line
      · exact hline

/-- What a cycle of the manual mode does with the move. -/
theorem OnWay.mainmodeManual (h : m.OnWay a b) (hm : m.mainMode = .manual) (inp : CycleInput ℝ) :
    (m.mainmodeManual inp).OnWay a b := by
  have hne : m.mainMode ≠ .auto := by simp [hm]
  have hline : m.pmHandler.KeepsLine a b := manualHandler_manual hne ▸ h.line
  unfold MotionStateMachine.mainmodeManual
  split
  · exact onWay_manual (by simp) hline h.place
  · simp only
    split
    · exact onWay_manual (by simp) hline.stop_true h.place
    · exact onWay_manual hne hline.runOnce hline.runOnce.between

end MotionStateMachine

namespace PauseMoveController

open MotionUtils MotionStateMachine

variable [Settings] {c : PauseMoveController ℝ} {sh : MotionShared ℝ} {a b : Axis ℝ}

/-- A cycle of a manual move in a pause. -/
theorem manualPointmoving_spec (hline : c.pmHandler.KeepsLine a b)
    (hplace : Between a b sh.globalCmdAxis) (inp : CycleInput ℝ) (hman : c.Manual) :
    (c.manualPointmoving sh inp).1.pmHandler.KeepsLine a b ∧
      Between a b (c.manualPointmoving sh inp).2.globalCmdAxis ∧
      (c.manualPointmoving sh inp).1.Manual := by
  unfold PauseMoveController.manualPointmoving
  split
  · simp only
    split
    · exact ⟨hline, hplace, .inl rfl⟩
    · exact ⟨hline, hplace, .inl rfl⟩
  · have hnext : (if (sh.runDetectOnce inp).2 then (c.pmHandler.stop true).1
        else c.pmHandler).runOnce.KeepsLine a b := by
      split
      · exact hline.stop_true.runOnce
      · exact hline.runOnce
    exact ⟨hnext, hnext.between, hman⟩

theorem runOnce_manual (hline : c.pmHandler.KeepsLine a b)
    (hplace : Between a b sh.globalCmdAxis) (inp : CycleInput ℝ) (hman : c.Manual) :
    (c.runOnce sh inp).1.pmHandler.KeepsLine a b ∧
      Between a b (c.runOnce sh inp).2.globalCmdAxis ∧ (c.runOnce sh inp).1.Manual := by
  rcases hman with hs | hs
  · have heq : c.runOnce sh inp = (c, sh) := by rw [PauseMoveController.runOnce, hs]
    rw [heq]
    exact ⟨hline, hplace, .inl hs⟩
  · have heq : c.runOnce sh inp = c.manualPointmoving sh inp := by
      rw [PauseMoveController.runOnce, hs]
    rw [heq]
    exact manualPointmoving_spec hline hplace inp (.inr hs)

end PauseMoveController

namespace MotionStateMachine

open MotionUtils

variable [Settings] {m : MotionStateMachine ℝ} {a b : Axis ℝ}

theorem OnWay.mainmodeAuto (h : m.OnWay a b) (hm : m.mainMode = .auto) (inp : CycleInput ℝ) :
    (m.mainmodeAuto inp).OnWay a b := by
  obtain ⟨hst, hdom, hman⟩ := h.paused hm
  have hline : m.autoTaskRunner.pausemoveController.pmHandler.KeepsLine a b :=
    manualHandler_auto hm ▸ h.line
  cases htask : m.autoTaskRunner.currTask with
  | none =>
    have heq : m.autoTaskRunner.runOnce m.shared inp = (m.autoTaskRunner, m.shared) := by
      rw [AutoTaskRunner.runOnce, htask]
    have hmode : m.mainmodeAuto inp = m := by
      rw [MotionStateMachine.mainmodeAuto, heq]
      simp [hst]
    rw [hmode]
    exact h
  | some task =>
    obtain ⟨hline', hplace', hman'⟩ :=
      PauseMoveController.runOnce_manual hline h.place inp hman
    have heq : m.autoTaskRunner.runOnce m.shared inp =
        m.autoTaskRunner.paused m.shared inp := by
      rw [AutoTaskRunner.runOnce, htask]
      simp only [hdom, hst]
    have hmode : m.mainmodeAuto inp =
        { m with
          autoTaskRunner := (m.autoTaskRunner.paused m.shared inp).1
          shared := (m.autoTaskRunner.paused m.shared inp).2 } := by
      rw [MotionStateMachine.mainmodeAuto, heq]
      simp [AutoTaskRunner.paused, hst]
    rw [hmode]
    exact onWay_auto hm hst hdom hman' hline' hplace'

/-- A call leaves the move on its way. -/
theorem OnWay.manualStep (h : m.OnWay a b) {c : ManualCall ℝ} (hc : m.StopFits c) :
    (m.manualStep c).OnWay a b := by
  cases c with
  | stop imm => exact h.stopManualPointmove hc
  | runOnce inp =>
    show (m.runOnce inp).OnWay a b
    unfold MotionStateMachine.runOnce
    split
    · exact h
    · cases hm : m.mainMode with
      | idle =>
        have hne : m.mainMode ≠ .auto := by simp [hm]
        exact onWay_manual (by simp) (manualHandler_manual hne ▸ h.line) h.place
      | manual => exact h.mainmodeManual hm inp
      | auto => exact h.mainmodeAuto hm inp

/-- In idle a move is accepted if it can be started. -/
theorem startManualPointmove_idle {sp : MoveRuntimePlanSpeedInput ℝ} {target : Axis ℝ}
    (hm : m.mainMode = .idle) : (m.startManualPointmove sp target).2 =
      (m.pmHandler.start sp m.shared.globalCmdAxis target).2 := by
  simp only [MotionStateMachine.startManualPointmove, hm]
  split
  · rename_i hret
    exact hret.symm
  · rename_i hret
    exact (Bool.eq_false_iff.mpr hret).symm

/-- A move that is accepted is on its way from where the machine stands. -/
theorem startManualPointmove_onWay {sp : MoveRuntimePlanSpeedInput ℝ} {target : Axis ℝ}
    (hsp : sp.Accepted)
    (hf : Moveruntime.Fits Moveruntime.cycleT sp
      (axisLengthBetween m.shared.globalCmdAxis target))
    (h : (m.startManualPointmove sp target).2 = true) :
    (m.startManualPointmove sp target).1.OnWay m.shared.globalCmdAxis target := by
  have hstart (pm : PointMoveHandler ℝ)
      (hret : (pm.start sp m.shared.globalCmdAxis target).2 = true) :
      (pm.start sp m.shared.globalCmdAxis target).1.KeepsLine m.shared.globalCmdAxis target :=
    PointMoveHandler.start_keepsLine hsp hf hret
  have hplace : Between m.shared.globalCmdAxis target m.shared.globalCmdAxis :=
    ⟨0, le_rfl, axisLengthBetween_nonneg, fun i => by ring⟩
  cases hm : m.mainMode with
  | idle =>
    simp only [MotionStateMachine.startManualPointmove, hm] at h ⊢
    split at h
    · rename_i hret
      rw [if_pos hret]
      exact onWay_manual (by simp) (hstart m.pmHandler hret) hplace
    · simp at h
  | manual => simp [MotionStateMachine.startManualPointmove, hm] at h
  | auto =>
    simp only [MotionStateMachine.startManualPointmove, hm,
      AutoTaskRunner.startManualPointmove] at h ⊢
    split at h
    · simp at h
    · rename_i hrun
      obtain ⟨hst, hdom⟩ := not_or.mp hrun
      rw [if_neg hrun]
      simp only [PauseMoveController.startManualPointmove] at h ⊢
      split at h
      · simp at h
      · rename_i hallow
        rw [if_neg hallow]
        split at h
        · simp at h
        · rename_i hret
          rw [if_neg hret]
          split at h
          · simp at h
          · rename_i hover
            rw [if_neg hover]
            exact onWay_auto rfl (not_not.mp hst) (not_not.mp hdom) (.inr rfl)
              (hstart _ (by simpa using hret)) hplace

end MotionStateMachine

end Edm
