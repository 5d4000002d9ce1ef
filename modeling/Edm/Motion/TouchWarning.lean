import Edm.Motion.Continuity
import Edm.Motion.ServoTargets

/-!
# A touch holds the axes

A manual move and a rapid move look for a touch in every cycle, before they move. The warning a
touch sets is taken back by its acknowledgement only, not by a reset. While it stands such moves may
still be commanded, paused, resumed and stopped, and the axes do not move (`touch_holds`): each move
is stopped in its first cycle, so a manual move in a pause leaves nothing for a recovery to go back.
A recovery itself, a line and a drilling do not look at the warning.
-/

set_option linter.unusedSectionVars false

namespace Edm

section

variable {K : Type} [Field K] [LinearOrder K] [FloorRing K] [RealFns K] [Settings]

/-- The warning stands, and the axes are commanded to `g`. -/
structure MotionShared.Warned (sh : MotionShared K) (g : Axis K) : Prop where
  warning : sh.touch.warning = true
  cmdAxis : sh.globalCmdAxis = g

variable {sh : MotionShared K} {g : Axis K} {inp : CycleInput K}

theorem MotionShared.Warned.runDetectOnce (h : sh.Warned g) :
    sh.runDetectOnce inp = (sh, true) := by
  simp only [MotionShared.runDetectOnce, TouchDetectHandler.runDetectOnce, h.warning, if_true]

/-- A move that is stopped at once does not go on. -/
theorem PointMoveHandler.stopped_runOnce (m : PointMoveHandler K) :
    (m.stop true).1.runOnce.currPos = m.currPos :=
  (PointMoveHandler.runOnce_of_over (PointMoveHandler.isOver_iff.mpr (.inl rfl))).1

/-- The shared data with the warning, and the axes commanded to `g`. -/
def MotionShared.warn (sh : MotionShared K) (g : Axis K) : MotionShared K :=
  { sh with touch := { sh.touch with warning := true }, globalCmdAxis := g }

theorem MotionShared.warn_warned (sh : MotionShared K) (g : Axis K) : (sh.warn g).Warned g :=
  ⟨rfl, rfl⟩

/-- A detection that is on and finds a touch leaves what it leaves with the warning. -/
theorem MotionShared.runDetectOnce_touched (he : sh.touch.detectEnabled = true)
    (ht : inp.touchDetected = true) :
    sh.runDetectOnce inp = (sh.warn sh.globalCmdAxis, true) := by
  rcases htouch : sh.touch with ⟨enabled, warning⟩
  rw [htouch] at he
  obtain rfl : enabled = true := he
  cases warning with
  | true =>
    simp only [MotionShared.runDetectOnce, TouchDetectHandler.runDetectOnce, htouch, if_true,
      MotionShared.warn]
  | false =>
    simp only [MotionShared.runDetectOnce, TouchDetectHandler.runDetectOnce, htouch, ht,
      Bool.not_true, Bool.false_eq_true, if_false, if_true, MotionShared.warn]

namespace AutoTask

/-- A rapid move that is at `g`, a delay or the fake pause. -/
def HeldAt (g : Axis K) : AutoTask K → Prop
  | g00 t => t.pmHandler.currPos = g
  | g04 _ | m00Fake _ => True
  | g01 _ | g01Group _ | drill _ => False

variable {t : AutoTask K}

/-- A command leaves such a task where it is. -/
theorem HeldAt.command (h : t.HeldAt g) (sh : MotionShared K) (imm : Bool) :
    ((t.pause sh).1.HeldAt g ∧ (t.pause sh).2.1 = sh) ∧
      ((t.resume sh).1.HeldAt g ∧ (t.resume sh).2.1 = sh) ∧
      ((t.stop sh imm).1.HeldAt g ∧ (t.stop sh imm).2.1 = sh) := by
  cases t with
  | g00 | g04 | m00Fake => exact ⟨⟨h, rfl⟩, ⟨h, rfl⟩, h, rfl⟩
  | g01 | g01Group | drill => exact h.elim

/-- A cycle with the warning does not move it. -/
theorem HeldAt.runOnce (h : t.HeldAt g) (hw : sh.Warned g) :
    (t.runOnce sh inp).1.HeldAt g ∧ (t.runOnce sh inp).2.Warned g := by
  cases t with
  | g00 t =>
    have hw' : (sh.setDetectEnable t.enableTouchDetect).Warned g := ⟨hw.warning, hw.cmdAxis⟩
    have hpos : (t.pmHandler.stop true).1.runOnce.currPos = g :=
      t.pmHandler.stopped_runOnce.trans h
    simp only [AutoTask.runOnce, G00AutoTask.runOnce, hw'.runDetectOnce, if_true]
    refine ⟨hpos, ?_⟩
    split
    · exact ⟨hw.warning, hpos⟩
    · exact ⟨hw.warning, hpos⟩
  | g04 | m00Fake => exact ⟨trivial, hw⟩
  | g01 | g01Group | drill => exact h.elim

/-- A rapid move that finds a touch ends its cycle as it would with the warning. -/
theorem runOnce_touched {t : G00AutoTask K} (sh : MotionShared K)
    (he : t.enableTouchDetect = true) (ht : inp.touchDetected = true) :
    (g00 t).runOnce sh inp = (g00 t).runOnce (sh.warn t.pmHandler.currPos) inp := by
  have hw : ((sh.warn t.pmHandler.currPos).setDetectEnable t.enableTouchDetect).Warned
      t.pmHandler.currPos := ⟨rfl, rfl⟩
  have hdetect : (sh.setDetectEnable t.enableTouchDetect).runDetectOnce inp =
      ((sh.setDetectEnable t.enableTouchDetect).warn sh.globalCmdAxis, true) :=
    MotionShared.runDetectOnce_touched he ht
  simp only [AutoTask.runOnce, G00AutoTask.runOnce, hdetect, hw.runDetectOnce, if_true]
  rfl

end AutoTask

namespace PauseMoveController

/-- On its way back over the recorded moves, or stopping on it. -/
def goesBack (c : PauseMoveController K) : Bool :=
  c.state = .recovering ∨ c.state = .recoveringPausing ∨ c.state = .recoveringPaused ∨
    c.state = .outSideStopping

/-- No move left to go back, and a manual move is where it started. -/
structure HeldAt (c : PauseMoveController K) (g : Axis K) : Prop where
  recorder : c.axisRecorder = []
  rests : c.goesBack = false
  moving : c.state = .manualPointMoving → c.pmHandler.startPos = g ∧ c.pmHandler.currPos = g

variable {c : PauseMoveController K}

theorem init_heldAt (c : PauseMoveController K) : c.init.HeldAt g :=
  ⟨rfl, rfl, fun h => by cases h⟩

theorem HeldAt.runOnce (h : c.HeldAt g) (hw : sh.Warned g) (inp : CycleInput K) :
    (c.runOnce sh inp).1.HeldAt g ∧ (c.runOnce sh inp).2.Warned g := by
  have hrests := h.rests
  unfold PauseMoveController.runOnce
  cases hs : c.state with
  | manualPointMoving =>
    obtain ⟨hstart, hcurr⟩ := h.moving hs
    unfold manualPointmoving
    by_cases hover : c.pmHandler.isOver = true
    · -- it did not leave its start, so it is not recorded
      rw [if_pos hover, if_pos (hstart.trans hcurr.symm)]
      exact ⟨⟨h.recorder, rfl, fun h => by cases h⟩, hw.warning, hw.cmdAxis⟩
    · have hpos : (c.pmHandler.stop true).1.runOnce.currPos = g :=
        c.pmHandler.stopped_runOnce.trans hcurr
      rw [if_neg hover]
      simp only [hw.runDetectOnce, if_true]
      refine ⟨⟨h.recorder, hrests, fun _ => ⟨?_, hpos⟩⟩, hw.warning, hpos⟩
      exact PointMoveHandler.runOnce_startPos.trans hstart
  | recovering | recoveringPausing | recoveringPaused | outSideStopping =>
    simp [goesBack, hs] at hrests
  | _ => exact ⟨h, hw⟩

theorem HeldAt.startManualPointmove (h : c.HeldAt g) (hw : sh.Warned g)
    (sp : MoveRuntimePlanSpeedInput K) (target : Axis K) :
    (c.startManualPointmove sh sp g target).1.HeldAt g ∧
      (c.startManualPointmove sh sp g target).2.1.Warned g := by
  simp only [PauseMoveController.startManualPointmove]
  split
  · exact ⟨h, hw⟩
  · have hheld (st : PauseMoveController.State) (hst : st ≠ .recovering ∧ st ≠ .recoveringPausing ∧
        st ≠ .recoveringPaused ∧ st ≠ .outSideStopping) :
        ({ c with pmHandler := (c.pmHandler.start sp g target).1, state := st } :
          PauseMoveController K).HeldAt g :=
      ⟨h.recorder, by simp [goesBack, hst], fun _ => ⟨rfl, rfl⟩⟩
    rename_i hs
    have hs : c.state = .allowManualPointMove := not_not.mp hs
    split
    · exact ⟨hs ▸ hheld c.state (by simp [hs]), hw⟩
    · split
      · exact ⟨hheld c.state (by simp [hs]), hw⟩
      · exact ⟨hheld .manualPointMoving (by simp), hw.warning, hw.cmdAxis⟩

theorem HeldAt.stopManualPointmove (h : c.HeldAt g) (imm : Bool) :
    (c.stopManualPointmove imm).1.HeldAt g := by
  simp only [PauseMoveController.stopManualPointmove]
  split
  · exact h
  · exact ⟨h.recorder, h.rests, h.moving⟩

/-- There is nothing to recover. -/
theorem HeldAt.activateRecover (h : c.HeldAt g) :
    c.activateRecover.1.HeldAt g ∧
      (c.activateRecover.2 = true → c.activateRecover.1.state = .recorverOver) := by
  have hrests := h.rests
  simp only [PauseMoveController.activateRecover]
  split
  · exact ⟨h, fun hret => by cases hret⟩
  · split
    · rename_i hs
      refine ⟨h, fun _ => hs.resolve_left fun hs => ?_⟩
      simp [goesBack, hs] at hrests
    · split
      · rename_i hs
        simp [goesBack, hs] at hrests
      · split
        · exact ⟨⟨h.recorder, rfl, fun h => by cases h⟩, fun _ => rfl⟩
        · rename_i hcons
          rw [h.recorder] at hcons
          cases hcons

/-- A recovery that found nothing to recover is over, or stopped from outside. -/
theorem HeldAt.recovery (h : c.HeldAt g)
    (hs : c.state = .recorverOver ∨ c.state = .outSideOrErrorStopped) (imm : Bool) :
    c.pauseRecover.1 = c ∧ c.resumeRecover.1 = c ∧
      ((c.stop imm).1.HeldAt g ∧ (c.stop imm).1.state = .outSideOrErrorStopped) := by
  have hheld : ({ c with state := .outSideOrErrorStopped } : PauseMoveController K).HeldAt g :=
    ⟨h.recorder, rfl, fun h => by cases h⟩
  refine ⟨?_, ?_, ?_⟩
  · unfold PauseMoveController.pauseRecover
    rcases hs with hs | hs <;> simp [hs]
  · unfold PauseMoveController.resumeRecover
    rcases hs with hs | hs <;> simp [hs]
  · unfold PauseMoveController.stop
    rcases hs with hs | hs
    · rw [hs]
      exact ⟨hheld, rfl⟩
    · rw [hs]
      exact ⟨hheld, rfl⟩

/-- Its cycles do nothing. -/
theorem runOnce_recovery (hs : c.state = .recorverOver ∨ c.state = .outSideOrErrorStopped) :
    c.runOnce sh inp = (c, sh) := by
  unfold PauseMoveController.runOnce
  rcases hs with hs | hs
  · rw [hs]
  · rw [hs]

end PauseMoveController

namespace AutoTaskRunner

/-- The task and, where it stands back, the pause-move controller are held at `g`; a recovery found
nothing to recover. -/
structure HeldAt (r : AutoTaskRunner K) (g : Axis K) : Prop where
  task : ∀ t, r.currTask = some t → t.HeldAt g
  back : r.StandsBack → r.pausemoveController.HeldAt g
  recovery : r.dominState = .pauseMoveRecoverRunning →
    r.pausemoveController.state = .recorverOver ∨
      r.pausemoveController.state = .outSideOrErrorStopped

variable {r : AutoTaskRunner K}

/-- The task has the axes. -/
theorem HeldAt.ofAhead {task : AutoTask K} (ht : task.HeldAt g) (st : MotionAutoState)
    (hst : st ≠ .paused) (c : PauseMoveController K) :
    (⟨some task, st, .autoTaskRunning, c⟩ : AutoTaskRunner K).HeldAt g :=
  ⟨fun _ h => Option.some.inj h ▸ ht, fun h => absurd h (not_standsBack rfl hst),
    fun h => by cases h⟩

theorem HeldAt.pause (h : r.HeldAt g) (hw : sh.Warned g) :
    (r.pause sh).1.HeldAt g ∧ (r.pause sh).2.1.Warned g := by
  have hcase := r.pause_cases sh
  generalize r.pause sh = res at hcase
  cases hcase with
  | unchanged => exact ⟨h, hw⟩
  | unhandled => exact ⟨h, hw.warning, hw.cmdAxis⟩
  | recovery hd hs =>
    have hback := h.back (.inr hd)
    have hrec := h.recovery hd
    rw [(hback.recovery hrec false).1]
    exact ⟨⟨h.task, fun _ => hback, fun _ => hrec⟩, hw⟩
  | @task task ht hd hs =>
    obtain ⟨hheld, hsh⟩ := ((h.task task ht).command sh false).1
    rw [hd, hsh]
    refine ⟨.ofAhead hheld _ ?_ _, hw⟩
    rcases hs with hs | hs <;> rw [hs] <;> split <;> simp

theorem HeldAt.resume (h : r.HeldAt g) (hw : sh.Warned g) :
    (r.resume sh).1.HeldAt g ∧ (r.resume sh).2.1.Warned g := by
  have hcase := r.resume_cases sh
  generalize r.resume sh = res at hcase
  cases hcase with
  | unchanged => exact ⟨h, hw⟩
  | unhandled => exact ⟨h, hw.warning, hw.cmdAxis⟩
  | recovery hd hs hr =>
    have hback := h.back (.inr hd)
    have hrec := h.recovery hd
    rw [(hback.recovery hrec false).2.1]
    exact ⟨⟨h.task, fun _ => hback, fun _ => hrec⟩, hw.warning, hw.cmdAxis⟩
  | recoveryRefused hd hs hr =>
    have hback := h.back (.inr hd)
    have hrec := h.recovery hd
    rw [(hback.recovery hrec false).2.1]
    exact ⟨⟨h.task, fun _ => hback, fun _ => hrec⟩, hw⟩
  | activate hd hs hr =>
    have hback := h.back (standsBack_of_paused hd hs)
    exact ⟨⟨h.task, fun _ => hback.activateRecover.1, fun _ => .inl (hback.activateRecover.2 hr)⟩,
      hw.warning, hw.cmdAxis⟩
  | activateRefused hd hs hr =>
    have hback := h.back (standsBack_of_paused hd hs)
    exact ⟨⟨h.task, fun _ => hback.activateRecover.1, fun hd' => by simp [hd] at hd'⟩, hw⟩

theorem HeldAt.stop (h : r.HeldAt g) (hw : sh.Warned g) (imm : Bool) :
    (r.stop sh imm).1.HeldAt g ∧ (r.stop sh imm).2.1.Warned g := by
  have hcase := r.stop_cases sh imm
  generalize r.stop sh imm = res at hcase
  cases hcase with
  | unchanged => exact ⟨h, hw⟩
  | unhandled => exact ⟨h, hw.warning, hw.cmdAxis⟩
  | recovery hd hs =>
    obtain ⟨-, -, hheld, hstopped⟩ := (h.back (.inr hd)).recovery (h.recovery hd) imm
    exact ⟨⟨h.task, fun _ => hheld, fun _ => .inr hstopped⟩, hw⟩
  | @task task ht hd hs =>
    obtain ⟨hheld, hsh⟩ := ((h.task task ht).command sh imm).2.2
    rw [hd, hsh]
    refine ⟨.ofAhead hheld _ ?_ _, hw⟩
    rcases hs with hs | hs | hs <;> rw [hs] <;> split <;> simp
  | paused hd hs =>
    exact ⟨⟨h.task, fun hb => absurd hb (not_standsBack hd (by simp)), h.recovery⟩, hw⟩

theorem HeldAt.startManualPointmove (h : r.HeldAt g) (hw : sh.Warned g)
    (sp : MoveRuntimePlanSpeedInput K) (target : Axis K) :
    (r.startManualPointmove sh sp g target).1.HeldAt g ∧
      (r.startManualPointmove sh sp g target).2.1.Warned g := by
  simp only [AutoTaskRunner.startManualPointmove]
  split
  · exact ⟨h, hw⟩
  · rename_i hc
    push Not at hc
    obtain ⟨hheld, hw'⟩ :=
      (h.back (standsBack_of_paused hc.2 hc.1)).startManualPointmove hw sp target
    exact ⟨⟨h.task, fun _ => hheld, fun hd => by simp [hc.2] at hd⟩, hw'⟩

theorem HeldAt.stopManualPointmove (h : r.HeldAt g) (imm : Bool) :
    (r.stopManualPointmove imm).1.HeldAt g := by
  simp only [AutoTaskRunner.stopManualPointmove]
  split
  · exact h
  · rename_i hc
    push Not at hc
    exact ⟨h.task, fun _ => (h.back (standsBack_of_paused hc.2 hc.1)).stopManualPointmove imm,
      fun hd => by simp [hc.2] at hd⟩

/-- A cycle moves nothing, whichever of the two has the axes. -/
theorem HeldAt.runOnce (h : r.HeldAt g) (hw : sh.Warned g) (inp : CycleInput K) :
    (r.runOnce sh inp).1.HeldAt g ∧ (r.runOnce sh inp).2.Warned g := by
  have htask {task : AutoTask K} (ht : r.currTask = some task) :
      (task.runOnce sh inp).1.HeldAt g ∧ (task.runOnce sh inp).2.Warned g :=
    (h.task task ht).runOnce hw
  have hctl (hd : r.dominState = .pauseMoveRecoverRunning) :
      r.pausemoveController.runOnce sh inp = (r.pausemoveController, sh) :=
    PauseMoveController.runOnce_recovery (h.recovery hd)
  have hcase := r.runOnce_cases sh inp
  generalize r.runOnce sh inp = res at hcase
  cases hcase with
  | unchanged => exact ⟨h, hw⟩
  | unhandled => exact ⟨h, hw.warning, hw.cmdAxis⟩
  | taskRuns st ht hd hs hst =>
    rw [hd]
    exact ⟨.ofAhead (htask ht).1 st hst.1 _, (htask ht).2⟩
  | taskResumed st ht hd hs hst =>
    rw [hd]
    exact ⟨.ofAhead (htask ht).1 st hst.1 _, (htask ht).2.warning, (htask ht).2.cmdAxis⟩
  | taskPaused ht hd hs hp =>
    exact ⟨⟨fun _ h => Option.some.inj h ▸ (htask ht).1, fun _ => r.pausemoveController.init_heldAt,
      fun hd' => by simp [hd] at hd'⟩, (htask ht).2.warning, (htask ht).2.cmdAxis⟩
  | taskStopped ht hd hs hp =>
    rw [hd]
    exact ⟨.ofAhead (htask ht).1 _ (by simp) _, (htask ht).2.warning, (htask ht).2.cmdAxis⟩
  | paused hd hs =>
    obtain ⟨hheld, hw'⟩ := (h.back (standsBack_of_paused hd hs)).runOnce hw inp
    exact ⟨⟨h.task, fun _ => hheld, fun hd' => by simp [hd] at hd'⟩, hw'⟩
  | recovers hd hs =>
    rw [hctl hd]
    exact ⟨⟨h.task, h.back, h.recovery⟩, hw⟩
  | @recovered task ht hd hs hp hr =>
    rw [hctl hd]
    obtain ⟨hheld, hsh⟩ := ((h.task task ht).command sh false).2.1
    rw [hsh]
    exact ⟨.ofAhead hheld _ (by simp) _, hw⟩
  | @resumeRefused task ht hd hs hp hr =>
    rw [hctl hd]
    obtain ⟨hheld, hsh⟩ := ((h.task task ht).command sh false).2.1
    rw [hsh]
    exact ⟨⟨fun _ h => Option.some.inj h ▸ hheld, h.back, h.recovery⟩, hw⟩
  | recoveryPaused hd hs hp =>
    rw [hctl hd]
    exact ⟨⟨h.task, fun _ => h.back (.inr hd), h.recovery⟩, hw.warning, hw.cmdAxis⟩
  | recoveryBroken hd hs hp =>
    rw [hctl hd]
    exact ⟨⟨h.task, fun _ => h.back (.inr hd), h.recovery⟩, hw.warning, hw.cmdAxis⟩
  | recoveryStopped hd hs hp =>
    rw [hctl hd]
    exact ⟨⟨h.task, fun hb => absurd hb (not_standsBack rfl (by simp)), fun hd' => by cases hd'⟩,
      hw.warning, hw.cmdAxis⟩

/-- A cycle of the task depends on the shared data through the task only. -/
theorem runOnce_congr {task : AutoTask K} {sh' : MotionShared K} (ht : r.currTask = some task)
    (hd : r.dominState = .autoTaskRunning) (hs : r.state ≠ .paused ∧ r.state ≠ .stopped)
    (heq : task.runOnce sh inp = task.runOnce sh' inp) : r.runOnce sh inp = r.runOnce sh' inp := by
  unfold AutoTaskRunner.runOnce
  simp only [ht, hd]
  cases hstate : r.state with
  | normalMoving => simp only [normalMoving, heq]
  | pausing => simp only [AutoTaskRunner.pausing, heq]
  | resuming => simp only [resuming, heq]
  | stopping => simp only [AutoTaskRunner.stopping, heq]
  | paused => exact absurd hstate hs.1
  | stopped => exact absurd hstate hs.2

end AutoTaskRunner

/-- The command takes the warning back, or starts what does not look at it. -/
def MotionCommand.disregardsTouch : MotionCommand K → Bool
  | .settingClearWarning => true
  | .autoStartG01ServoMove .. | .autoG01Group _ | .autoStartDrillMove _ => true
  | _ => false

namespace MotionStateMachine

/-- The warning stands, and a task, if one is under way, is held where the axes are. -/
structure HeldAt (m : MotionStateMachine K) (g : Axis K) : Prop where
  warned : m.shared.Warned g
  runner : m.mainMode = .auto → m.autoTaskRunner.HeldAt g

variable {m : MotionStateMachine K}

theorem HeldAt.reset (h : m.shared.Warned g) (enable : Bool) :
    (m.reset.setEnable enable).HeldAt g :=
  ⟨h, fun hm => by cases hm⟩

/-- A change of the shared data that leaves the warning and the axes. -/
theorem HeldAt.shared (h : m.HeldAt g) (hw : sh.Warned g) : { m with shared := sh }.HeldAt g :=
  ⟨hw, h.runner⟩

/-- A task that is started where the axes are. -/
theorem HeldAt.start (h : m.HeldAt g) (ts : TaskStart K)
    (hts : (ts.build m.shared).1.HeldAt g ∧ (ts.build m.shared).2 = m.shared) :
    (m.start ts).1.HeldAt g := by
  rw [start_eq]
  split
  · exact h
  · unfold startAuto
    rw [hts.2]
    split
    · exact h
    · exact ⟨⟨h.warned.warning, h.warned.cmdAxis⟩, fun _ => .ofAhead hts.1 _ (by simp) _⟩

theorem HeldAt.auto (h : m.HeldAt g) (imm : Bool) :
    m.pauseAuto.1.HeldAt g ∧ m.resumeAuto.1.HeldAt g ∧ (m.stopAuto imm).1.HeldAt g := by
  unfold pauseAuto resumeAuto stopAuto
  by_cases hm : m.mainMode = .auto
  · have hr := h.runner hm
    simp only [hm, ne_eq, not_true_eq_false, if_false]
    exact ⟨⟨(hr.pause h.warned).2, fun _ => (hr.pause h.warned).1⟩,
      ⟨(hr.resume h.warned).2, fun _ => (hr.resume h.warned).1⟩,
      (hr.stop h.warned imm).2, fun _ => (hr.stop h.warned imm).1⟩
  · simp only [ne_eq, hm, not_false_eq_true, if_true]
    exact ⟨h, h, h⟩

theorem HeldAt.startManualPointmove (h : m.HeldAt g) (sp : MoveRuntimePlanSpeedInput K)
    (target : Axis K) : (m.startManualPointmove sp target).1.HeldAt g := by
  have hw := h.warned
  unfold MotionStateMachine.startManualPointmove
  split
  · dsimp only
    split
    · exact ⟨⟨hw.warning, hw.cmdAxis⟩, fun hm => by cases hm⟩
    · exact ⟨hw, h.runner⟩
  · exact h
  · rename_i hm
    rw [hw.cmdAxis]
    obtain ⟨hr, hw'⟩ := (h.runner hm).startManualPointmove hw sp target
    exact ⟨hw', fun _ => hr⟩

theorem HeldAt.stopManualPointmove (h : m.HeldAt g) (imm : Bool) :
    (m.stopManualPointmove imm).1.HeldAt g := by
  unfold MotionStateMachine.stopManualPointmove
  split
  · exact h
  · exact ⟨h.warned, h.runner⟩
  · rename_i hm
    exact ⟨h.warned, fun _ => (h.runner hm).stopManualPointmove imm⟩

/-- A cycle ends a manual move and moves nothing. -/
theorem HeldAt.runOnce (h : m.HeldAt g) (inp : CycleInput K) : (m.runOnce inp).HeldAt g := by
  have hw := h.warned
  unfold MotionStateMachine.runOnce
  split
  · exact h
  · cases hm : m.mainMode with
    | idle => exact ⟨⟨hw.warning, hw.cmdAxis⟩, fun hm => by cases hm⟩
    | manual =>
      simp only [mainmodeManual, hw.runDetectOnce, if_true]
      split
      · exact ⟨⟨hw.warning, hw.cmdAxis⟩, fun hm => by cases hm⟩
      · exact ⟨⟨hw.warning, hw.cmdAxis⟩, fun hm => by cases hm⟩
    | auto =>
      obtain ⟨hr, hw'⟩ := (h.runner hm).runOnce hw inp
      exact ⟨hw', fun _ => hr⟩

end MotionStateMachine

namespace MotionThread

/-- The work of the cycle finds the drives enabled, and sets the commanded axis to where they are.
-/
def setsAxis (t : MotionThread K) (inp : ThreadInput K) : Bool :=
  t.threadState = .running && inp.ecat.allEnabled &&
    (t.ecatState = .ecatConnectedNotAllEnabled || t.ecatState = .ecatConnectedEnabling)

/-- A step that does not take the warning back, start what disregards it or find the drives enabled.
-/
def heeds (t : MotionThread K) : Action K → Bool
  | .work inp => !t.setsAxis inp
  | .command _ _ c => !c.disregardsTouch
  | .report _ => true

/-- The cycle finds a touch: in a manual move that looks for one, or in a rapid move that does. -/
def Touches (t : MotionThread K) (inp : ThreadInput K) : Prop :=
  t.threadState = .running ∧ t.ecatState = .ecatReady ∧ inp.ecat.connected = true ∧
    t.motionStateMachine.enabled = true ∧ inp.cycle.touchDetected = true ∧
    (t.motionStateMachine.mainMode = .manual ∧ t.motionStateMachine.pmHandler.isOver = false ∧
        t.motionStateMachine.shared.touch.detectEnabled = true ∨
      t.motionStateMachine.mainMode = .auto ∧
        t.motionStateMachine.autoTaskRunner.dominState = .autoTaskRunning ∧
        t.motionStateMachine.autoTaskRunner.state ≠ .paused ∧
        t.motionStateMachine.autoTaskRunner.state ≠ .stopped ∧
        ∃ task, t.motionStateMachine.autoTaskRunner.currTask = some (.g00 task) ∧
          task.enableTouchDetect = true)

variable {t : MotionThread K}

theorem handleCommand_heldAt (h : t.motionStateMachine.HeldAt g) (nowMs hrNowNs : ℤ)
    (c : MotionCommand K) (hc : c.disregardsTouch = false) :
    (t.handleCommand nowMs hrNowNs c).1.motionStateMachine.HeldAt g := by
  have hw := h.warned
  cases c with
  | manualStartPointMove endPos sp touch =>
    have hstart := h.startManualPointmove sp endPos
    simp only [handleCommand]
    split
    · exact h
    · dsimp only
      split
      · exact hstart.shared ⟨hstart.warned.warning, hstart.warned.cmdAxis⟩
      · exact hstart
  | manualStopPointMove imm =>
    simp only [handleCommand]
    split
    · exact h
    · exact h.stopManualPointmove imm
  | autoStartG00FastMove endPos sp touch =>
    simp only [handleCommand]
    split
    · exact h
    · exact h.start (.g00 sp endPos touch) ⟨hw.cmdAxis, rfl⟩
  | autoG04Delay delayS =>
    simp only [handleCommand]
    split
    · exact h
    · exact h.start (.g04 delayS) ⟨trivial, rfl⟩
  | autoM00FakePauseTask =>
    simp only [handleCommand]
    split
    · exact h
    · exact h.start .m00Fake ⟨trivial, rfl⟩
  | autoStop imm => exact (h.auto imm).2.2
  | autoPause => exact (h.auto false).1
  | autoResume => exact (h.auto false).2.1
  | manualEmergencyStopAllMove => exact .reset hw true
  | settingTestVOffset i type value =>
    simp only [handleCommand]
    split
    · exact h
    · cases type <;> exact h
  | setSpindleState | setSpindleParam | setDrillParams =>
    simp only [handleCommand, onlyDrill]
    split
    · exact h.shared ⟨hw.warning, hw.cmdAxis⟩
    · exact h
  | settingTriggerEcatConnect | settingClearStatData | settingMotionSettings => exact h
  | settingSetJumpParam | settingSetG01SpeedRatio => exact h.shared ⟨hw.warning, hw.cmdAxis⟩
  | settingClearWarning | autoStartG01ServoMove | autoG01Group | autoStartDrillMove => cases hc

theorem threadCycleWork_heldAt (h : t.motionStateMachine.HeldAt g) {inp : ThreadInput K}
    (hset : t.setsAxis inp = false) : (t.threadCycleWork inp).motionStateMachine.HeldAt g := by
  have hreset : t.motionStateMachine.reset.HeldAt g := ⟨h.warned, fun hm => by cases hm⟩
  have hrunning (hs : t.threadState = .running) :
      (t.threadstateRunning inp).motionStateMachine.HeldAt g := by
    unfold setsAxis at hset
    unfold threadstateRunning
    cases he : t.ecatState <;> dsimp only
    case ecatConnectedNotAllEnabled =>
      rw [if_neg (by simpa [hs, he] using hset)]
      split <;> exact h
    case ecatConnectedEnabling =>
      have hall : inp.ecat.allEnabled = false := by simpa [hs, he] using hset
      simp only [hall, Bool.false_eq_true, if_false]
      split
      · exact hreset
      · exact h
    case ecatReady =>
      split
      · exact hreset
      · exact h.runOnce inp.cycle
    case ecatDisconnected | ecatConnectedWaitingForOP =>
      repeat' split
      all_goals exact h
    all_goals exact h
  unfold threadCycleWork
  cases hs : t.threadState <;> dsimp only
  case running => split <;> exact hrunning hs
  case stopping =>
    unfold threadstateStopping
    repeat' split
    all_goals exact h
  all_goals exact h

/-- A step that heeds the warning moves nothing and leaves it. -/
theorem step_heldAt (h : t.motionStateMachine.HeldAt g) {a : Action K} (ha : t.heeds a = true) :
    (t.step a).motionStateMachine.HeldAt g := by
  cases a with
  | work inp => exact threadCycleWork_heldAt h (by simpa [heeds] using ha)
  | command nowMs hrNowNs c =>
    exact handleCommand_heldAt h nowMs hrNowNs c (by simpa [heeds] using ha)
  | report inp => exact h.shared ⟨h.warned.warning, h.warned.cmdAxis⟩

/-- Where the move that finds the touch is. -/
def touchedAt (t : MotionThread K) : Axis K :=
  match t.motionStateMachine.mainMode, t.motionStateMachine.autoTaskRunner.currTask with
  | .auto, some (.g00 task) => task.pmHandler.currPos
  | _, _ => t.cmdAxis

/-- The touch stops the move where it is. -/
theorem Touches.heldAt {inp : ThreadInput K} (h : t.Touches inp) :
    (t.threadCycleWork inp).motionStateMachine.HeldAt t.touchedAt := by
  obtain ⟨hs, he, hconn, henabled, htouch, hmove⟩ := h
  have hwork : (t.threadCycleWork inp).motionStateMachine =
      t.motionStateMachine.runOnce inp.cycle := by
    simp only [threadCycleWork, threadstateRunning, hs, he, hconn, Bool.not_true,
      Bool.false_eq_true, if_false]
    split <;> rfl
  rw [hwork]
  rcases hmove with ⟨hm, hover, hdetect⟩ | ⟨hm, hd, hp, hst, task, htask, htd⟩
  · have hg : t.touchedAt = t.cmdAxis := by simp only [touchedAt, hm]
    have heq : t.motionStateMachine.shared.runDetectOnce inp.cycle = _ :=
      MotionShared.runDetectOnce_touched hdetect htouch
    simp only [MotionStateMachine.runOnce, henabled, Bool.not_true, Bool.false_eq_true, if_false,
      hm, MotionStateMachine.mainmodeManual, hover, heq, if_true, hg]
    exact ⟨⟨rfl, rfl⟩, fun hm => by cases hm⟩
  · have hg : t.touchedAt = task.pmHandler.currPos := by simp only [touchedAt, hm, htask]
    have heq := AutoTaskRunner.runOnce_congr htask hd ⟨hp, hst⟩
      (AutoTask.runOnce_touched t.motionStateMachine.shared htd htouch)
    have hheld : t.motionStateMachine.autoTaskRunner.HeldAt task.pmHandler.currPos := by
      refine ⟨fun t' ht' => ?_, fun hb => absurd hb (AutoTaskRunner.not_standsBack hd hp),
        fun hd' => ?_⟩
      · obtain rfl := Option.some.inj (htask.symm.trans ht')
        exact rfl
      · simp [hd] at hd'
    obtain ⟨hr, hw⟩ := hheld.runOnce (MotionShared.warn_warned t.motionStateMachine.shared _)
      inp.cycle
    simp only [MotionStateMachine.runOnce, henabled, Bool.not_true, Bool.false_eq_true, if_false,
      hm, MotionStateMachine.mainmodeAuto, heq, hg]
    exact ⟨hw, fun _ => hr⟩

/-- From a cycle that finds a touch on, in a manual or in a rapid move, the commanded axis stays
where that move is, and the warning stands: through every order of cycles and commands (further
moves, pauses, resumptions, stops, emergency stops, resets of the state machine) that does not take
the warning back, start a task that disregards it, or find the drives enabled anew. -/
theorem touch_holds {inp : ThreadInput K} (h : t.Touches inp) (actions : List (Action K))
    (hall : Machine.AllSteps step (fun t a => t.heeds a = true) (t.step (.work inp)) actions) :
    let now := Machine.run step (t.step (.work inp)) actions
    now.cmdAxis = t.touchedAt ∧ now.motionStateMachine.shared.touch.warning = true := by
  have hnow : (Machine.run step (t.step (.work inp)) actions).motionStateMachine.HeldAt
      t.touchedAt :=
    hall.invariant (I := fun t' : MotionThread K => t'.motionStateMachine.HeldAt t.touchedAt)
      (fun _ _ hs ha => step_heldAt hs ha) h.heldAt
  exact ⟨hnow.warned.cmdAxis, hnow.warned.warning⟩

end MotionThread

end

namespace MotionThread

attribute [local instance] Sample.drillSettings

/-- A manual move with the detection on, a few cycles on its way. -/
def movingByHand : MotionThread ℚ :=
  Machine.run step (enabledAt 0)
    (.command 0 0 (.manualStartPointMove (Sample.xAxis 10) Sample.speedParam true) ::
      .replicate 4 (.work goodInput))

def touchInput : ThreadInput ℚ :=
  { goodInput with cycle := { goodInput.cycle with touchDetected := true } }

/-- What an operator may try without acknowledging the touch. -/
def triedAfterTouch : List (Action ℚ) :=
  [.command 0 0 (.manualStartPointMove (Sample.xAxis 20) Sample.speedParam false), .work goodInput,
    .command 0 0 (.autoStartG00FastMove (Sample.xAxis 0) Sample.speedParam false), .work goodInput,
    .command 0 0 .autoPause, .work goodInput, .work goodInput, .command 0 0 .autoResume,
    .work goodInput, .command 0 0 .manualEmergencyStopAllMove, .work goodInput]

theorem movingByHand_touches : movingByHand.Touches touchInput := by
  refine ⟨?_, ?_, ?_, ?_, ?_, .inl ⟨?_, ?_, ?_⟩⟩
  all_goals decide +kernel

theorem touch_holds_by_hand :
    let now := Machine.run step (movingByHand.step (.work touchInput)) triedAfterTouch
    now.cmdAxis = movingByHand.touchedAt ∧ now.motionStateMachine.shared.touch.warning = true :=
  touch_holds movingByHand_touches triedAfterTouch (by decide +kernel)

end MotionThread

end Edm
