import Edm.Motion.Consistency
import Edm.Motion.TaskRequests

/-!
# Accepted requests take effect

A runner that shows `pausing`, `stopping` or `resuming`, or that retraces the manual moves of a
pause, is on its way somewhere. Every such way ends, as long as the servo does not ask for ever
smaller steps and the moves of the run were given a deceleration (`requests_take_effect`). What the
runner's own state says of its task and of the pause-move controller is `Orderly`; every operation
keeps it.
-/

set_option linter.unusedSectionVars false

namespace Edm

open Machine (LeadsTo Reaches)

section

variable {K : Type} [Field K] [LinearOrder K] [FloorRing K] [RealFns K] [Settings]
  [IsStrictOrderedRing K] [LawfulSqrt K]

/-! ### Moves in a pause -/

namespace PauseMoveController

/-- The states with a point move that can be paused or recorded. -/
def State.Moves (s : State) : Prop :=
  s = .manualPointMoving ∨ s = .recovering ∨ s = .recoveringPausing ∨ s = .recoveringPaused

/-- Every move the controller has or will retrace can be slowed down; one it retraces nobody paused,
and one it ends is slowing down or over. -/
structure Steady (c : PauseMoveController K) : Prop where
  record : ∀ seg ∈ c.axisRecorder, seg.data.dec0 < 0
  brakes : c.state.Moves → c.pmHandler.speedParam.dec0 < 0
  recovering : c.state = .recovering → c.pmHandler.Unhalted
  ending : c.state = .outSideStopping → c.pmHandler.state = .stopping ∨ c.pmHandler.isOver

variable {c : PauseMoveController K} {sh : MotionShared K} {inp : CycleInput K} {imm : Bool}

/-- Without a move that matters only the record counts. -/
theorem Steady.ofRest {c' : PauseMoveController K} (h : c.Steady)
    (hrec : ∀ seg ∈ c'.axisRecorder, seg ∈ c.axisRecorder) (hm : ¬c'.state.Moves)
    (hs : c'.state ≠ .outSideStopping) : c'.Steady where
  record seg hseg := h.record seg (hrec seg hseg)
  brakes hm' := absurd hm' hm
  recovering hr := absurd (.inr (.inl hr)) hm
  ending hs' := absurd hs' hs

/-- A move goes on in a state other than those that retrace or end it. -/
theorem Steady.ofMove {c' : PauseMoveController K} (h : c.Steady)
    (hrec : c'.axisRecorder = c.axisRecorder) (hsp : c'.pmHandler.speedParam.dec0 < 0)
    (hr : c'.state = .recovering → c'.pmHandler.Unhalted) (hs : c'.state ≠ .outSideStopping) :
    c'.Steady where
  record := hrec ▸ h.record
  brakes _ := hsp
  recovering := hr
  ending hs' := absurd hs' hs

theorem new_steady : (new (K := K)).Steady where
  record _ h := by simp [new] at h
  brakes h := by simp [new, State.Moves] at h
  recovering h := by simp [new] at h
  ending h := by simp [new] at h

theorem Steady.init (h : c.Steady) : c.init.Steady :=
  h.ofRest (fun _ h => by simp [PauseMoveController.init] at h)
    (by simp [PauseMoveController.init, State.Moves]) (by simp [PauseMoveController.init])

theorem Steady.runOnce (h : c.Steady) : (c.runOnce sh inp).1.Steady := by
  unfold PauseMoveController.runOnce
  cases hs : c.state with
  | manualPointMoving =>
    have hsp := h.brakes (.inl hs)
    simp only [manualPointmoving]
    split
    · split
      · exact h.ofRest (fun _ h => h) (by simp [State.Moves]) (by simp)
      · refine ⟨?_, by simp [State.Moves], by simp, by simp⟩
        simp only [List.mem_cons, forall_eq_or_imp]
        exact ⟨hsp, h.record⟩
    · refine h.ofMove rfl ?_ (by simp [hs]) (by simp [hs])
      rw [PointMoveHandler.runOnce_speedParam]
      split
      · rwa [PointMoveHandler.stop_speedParam]
      · exact hsp
  | recovering =>
    have hsp := h.brakes (.inr (.inl hs))
    have hu := h.recovering hs
    simp only [PauseMoveController.recovering]
    split
    · split
      · exact h.ofRest (fun _ h => h) (by simp [State.Moves]) (by simp)
      · rename_i seg rest hrec
        refine ⟨fun s hs => h.record s (by simp [hrec, hs]), fun _ => ?_, fun _ => hu.start _ _ _,
          by simp [hs]⟩
        exact c.pmHandler.start_brakes (h.record seg (by simp [hrec])) hsp _ _
    · refine h.ofMove rfl (by rwa [PointMoveHandler.runOnce_speedParam])
        (fun _ => hu.runOnce_unhalted) (by simp [hs])
  | recoveringPausing =>
    have hsp := h.brakes (.inr (.inr (.inl hs)))
    simp only [recoveringPausing]
    split
    · exact h.ofMove rfl hsp (by simp) (by simp)
    · refine h.ofMove rfl ?_ (by simp [hs]) (by simp [hs])
      rwa [PointMoveHandler.runOnce_speedParam]
  | outSideStopping =>
    simp only [outsideStopping]
    split
    · exact h.ofRest (fun _ h => h) (by simp [State.Moves]) (by simp)
    · refine ⟨h.record, by simp [hs, State.Moves], by simp [hs], fun _ => ?_⟩
      rcases h.ending hs with he | ho
      · rcases c.pmHandler.runOnce_state with h' | ⟨hr, _⟩ | ⟨hr, _⟩ | ⟨_, h'⟩
        · exact .inl (h'.trans he)
        · simp [hr] at he
        · simp [hr] at he
        · exact .inr (PointMoveHandler.isOver_iff.mpr (.inl h'))
      · exact .inr (PointMoveHandler.runOnce_of_over ho).2.2
  | _ => exact h

/-- A recovery that does not accept a pause goes on: its move can always be slowed down. -/
theorem Steady.pauseRecover (h : c.Steady) : c.pauseRecover.1.Steady := by
  unfold PauseMoveController.pauseRecover
  split
  · exact h
  · split
    · exact h
    · rename_i hs
      have hs : c.state = .recovering := not_not.mp hs
      have hsp := h.brakes (.inr (.inl hs))
      have hsp' : c.pmHandler.pause.1.speedParam.dec0 < 0 := by
        rwa [PointMoveHandler.pause_speedParam]
      simp only
      split
      · rename_i hr
        refine h.ofMove rfl hsp' (fun _ => ?_) (by simp [hs])
        exact (h.recovering hs).pause hsp (by simpa using hr)
      · exact h.ofMove rfl hsp' (by simp) (by simp)

theorem Steady.resumeRecover (h : c.Steady) : c.resumeRecover.1.Steady := by
  unfold PauseMoveController.resumeRecover
  split
  · exact h
  · split
    · exact h
    · rename_i hs
      have hs : c.state = .recoveringPaused := not_not.mp hs
      have hsp : c.pmHandler.resume.1.speedParam.dec0 < 0 := by
        rw [PointMoveHandler.resume_speedParam]
        exact h.brakes (.inr (.inr (.inr hs)))
      simp only
      split
      · exact h.ofMove rfl hsp (by simp [hs]) (by simp [hs])
      · rename_i hr
        exact h.ofMove rfl hsp (fun _ => PointMoveHandler.resume_unhalted (by simpa using hr))
          (by simp)

theorem Steady.stop (h : c.Steady) : (c.stop imm).1.Steady := by
  have hstop : (c.pmHandler.stop imm).1.state = .stopping ∨ (c.pmHandler.stop imm).1.isOver := by
    rw [PointMoveHandler.isOver_iff]
    rcases c.pmHandler.mrtWrapper.stop_state imm with hs | hs | ⟨_, hs⟩
    · exact .inl hs
    · exact .inr (.inl hs)
    · exact .inr (.inr hs)
  have hend : ({ c with
      pmHandler := (c.pmHandler.stop imm).1, state := .outSideStopping }).Steady :=
    ⟨h.record, by simp [State.Moves], by simp, fun _ => hstop⟩
  have hrest : ({ c with state := .outSideOrErrorStopped }).Steady :=
    h.ofRest (fun _ h => h) (by simp [State.Moves]) (by simp)
  unfold PauseMoveController.stop
  cases c.state <;> first | exact h | exact hend | exact hrest

theorem Steady.activateRecover (h : c.Steady) : c.activateRecover.1.Steady := by
  unfold PauseMoveController.activateRecover
  split
  · exact h
  split
  · exact h
  split
  · exact h.resumeRecover
  split
  · exact h.ofRest (fun _ h => h) (by simp [State.Moves]) (by simp)
  · rename_i seg rest hrec
    have hrest : ∀ s ∈ rest, s ∈ c.axisRecorder := fun s hs => by simp [hrec, hs]
    simp only
    split
    · exact h.ofRest hrest (by simp [State.Moves]) (by simp)
    · rename_i hr
      have hr : (c.pmHandler.start seg.data seg.stop seg.start).2 = true := by simpa using hr
      refine ⟨fun s hs => h.record s (hrest s hs), fun _ => ?_, fun _ => ?_, by simp⟩
      · show (c.pmHandler.start seg.data seg.stop seg.start).1.speedParam.dec0 < 0
        rw [PointMoveHandler.start_speedParam hr]
        exact h.record seg (by simp [hrec])
      · exact .inl (PointMoveHandler.start_running hr)

variable {sp : MoveRuntimePlanSpeedInput K} {startPos targetPos : Axis K}

theorem Steady.startManualPointmove (h : c.Steady) (hsp : sp.dec0 < 0) :
    (c.startManualPointmove sh sp startPos targetPos).1.Steady := by
  unfold PauseMoveController.startManualPointmove
  split
  · exact h
  · rename_i hs
    have hs : c.state = .allowManualPointMove := not_not.mp hs
    have hidle (pm : PointMoveHandler K) : ({ c with pmHandler := pm }).Steady :=
      h.ofRest (fun _ h => h) (by simp [hs, State.Moves]) (by simp [hs])
    simp only
    split
    · exact hidle _
    · rename_i hr
      split
      · exact hidle _
      · refine h.ofMove rfl ?_ (by simp) (by simp)
        show (c.pmHandler.start sp startPos targetPos).1.speedParam.dec0 < 0
        rwa [PointMoveHandler.start_speedParam (by simpa using hr)]

theorem Steady.stopManualPointmove (h : c.Steady) : (c.stopManualPointmove imm).1.Steady := by
  unfold PauseMoveController.stopManualPointmove
  split
  · exact h
  · rename_i hs
    have hs : c.state = .manualPointMoving := not_not.mp hs
    refine h.ofMove rfl ?_ (by simp [hs]) (by simp [hs])
    show (c.pmHandler.stop imm).1.speedParam.dec0 < 0
    rw [PointMoveHandler.stop_speedParam]
    exact h.brakes (.inl hs)

/-- What is left of a recovery: the segments, and within one the cycles. -/
def recoveryLeft (c : PauseMoveController K) : ℕ ×ₗ ℕ :=
  toLex (c.axisRecorder.length, c.pmHandler.cyclesLeft)

/-- A cycle of the way back ends it or leaves less of it. -/
theorem Steady.recovering_lt (h : c.Steady) (hs : c.state = .recovering) (sh : MotionShared K)
    (inp : CycleInput K) :
    (c.runOnce sh inp).1.isRecoverOver ∨ (c.runOnce sh inp).1.recoveryLeft < c.recoveryLeft := by
  simp only [PauseMoveController.runOnce, hs, PauseMoveController.recovering]
  split
  · split
    · exact .inl rfl
    · rename_i seg rest hrec
      refine .inr (Prod.Lex.toLex_lt_toLex.mpr (.inl ?_))
      simp [hrec]
  · rename_i ho
    have hrunning : c.pmHandler.state = .running := (h.recovering hs).resolve_right ho
    exact .inr (Prod.Lex.toLex_lt_toLex.mpr
      (.inr ⟨rfl, (PointMoveHandler.runOnce_cyclesLeft (.inl hrunning)).2⟩))

/-- A cycle of a recovery that is being paused. -/
theorem pausing_lt (hs : c.state = .recoveringPausing)
    (hm : c.pmHandler.state = .pausing ∨ c.pmHandler.state = .paused) (sh : MotionShared K)
    (inp : CycleInput K) :
    (c.runOnce sh inp).1.isRecoverPaused ∨
      (c.runOnce sh inp).1.pmHandler.cyclesLeft < c.pmHandler.cyclesLeft := by
  simp only [PauseMoveController.runOnce, hs, recoveringPausing]
  split
  · exact .inl rfl
  · rename_i hp
    have hm : c.pmHandler.state = .pausing :=
      hm.resolve_right fun h => hp (PointMoveHandler.isPaused_iff.mpr h)
    exact .inr (PointMoveHandler.runOnce_cyclesLeft (.inr (.inl hm))).2

/-- A cycle of a move that is being stopped. -/
theorem Steady.stopping_lt (h : c.Steady) (hs : c.InRecovery .stopping) (sh : MotionShared K)
    (inp : CycleInput K) :
    (c.runOnce sh inp).1.isStopped ∨
      (c.runOnce sh inp).1.pmHandler.cyclesLeft < c.pmHandler.cyclesLeft := by
  rcases hs with hs | hs
  · simp only [PauseMoveController.runOnce, hs, outsideStopping]
    split
    · exact .inl rfl
    · rename_i hp
      have hm : c.pmHandler.state = .stopping := (h.ending hs).resolve_right fun ho =>
        hp (PointMoveHandler.isStopped_iff.mpr (PointMoveHandler.isOver_iff.mp ho))
      exact .inr (PointMoveHandler.runOnce_cyclesLeft (.inr (.inr hm))).2
  · exact .inl (by simp [PauseMoveController.runOnce, PauseMoveController.isStopped, hs])

end PauseMoveController
/-! ### The runner -/

namespace AutoTaskRunner

/-- The runner's state tells what its task is doing. -/
structure Orderly (r : AutoTaskRunner K) : Prop where
  endable : ∀ t, r.currTask = some t → t.Endable
  fits : r.dominState = .autoTaskRunning → r.state ≠ .stopped →
    ∃ t, r.currTask = some t ∧ t.Fits r.state
  steady : r.pausemoveController.Steady

variable {r : AutoTaskRunner K} {sh : MotionShared K} {inp : CycleInput K} {imm : Bool}

theorem new_orderly : (new (K := K)).Orderly where
  endable _ h := by simp [new] at h
  fits _ h := absurd rfl h
  steady := PauseMoveController.new_steady

/-- Only the pause-move controller changes, and the runner is in a recovery. -/
theorem Orderly.ofRecovery {r' : AutoTaskRunner K} (h : r.Orderly) (ht : r'.currTask = r.currTask)
    (hd : r'.dominState = .pauseMoveRecoverRunning) (hp : r'.pausemoveController.Steady) :
    r'.Orderly where
  endable := ht ▸ h.endable
  fits h := by simp [hd] at h
  steady := hp

/-- The runner is in the hands of the given task. -/
theorem Orderly.ofTask {r' : AutoTaskRunner K} {t : AutoTask K} (ht : r'.currTask = some t)
    (he : t.Endable) (hf : t.Fits r'.state) (hp : r'.pausemoveController.Steady) : r'.Orderly where
  endable _ h := Option.some.inj (ht.symm.trans h) ▸ he
  fits _ _ := ⟨t, ht, hf⟩
  steady := hp

/-- Only the pause-move controller changes, and the runner is on the task's side. -/
theorem Orderly.ofPause {r' : AutoTaskRunner K} (h : r.Orderly) (ht : r'.currTask = r.currTask)
    (hd : r.dominState = .autoTaskRunning) (hs : r'.state = r.state)
    (hp : r'.pausemoveController.Steady) : r'.Orderly where
  endable := ht ▸ h.endable
  fits _ hn := ht ▸ hs ▸ h.fits hd (hs ▸ hn)
  steady := hp

theorem Orderly.restartTask (h : r.Orderly) {task : AutoTask K} (ht : task.Endable) :
    (r.restartTask task).1.Orderly :=
  .ofTask rfl ht trivial h.steady

theorem Orderly.pause (h : r.Orderly) : (r.pause sh).1.Orderly := by
  rcases hc : r.pause sh with ⟨r', sh', ret⟩
  have hcase := hc ▸ r.pause_cases sh
  cases hcase with
  | unchanged => exact h
  | unhandled => exact h
  | recovery hd _ => exact h.ofRecovery rfl hd h.steady.pauseRecover
  | @task task ht hd hs =>
    have he := h.endable _ ht
    refine .ofTask rfl he.pause ?_ h.steady
    cases hr : (task.pause sh).2.2 with
    | true => exact AutoTask.pause_halting hr
    | false =>
      show (task.pause sh).1.Fits r.state
      rcases hs with hs | hs
      · rw [hs]
        trivial
      · obtain ⟨t, ht', hf⟩ := h.fits hd (by simp [hs])
        obtain rfl : task = t := Option.some.inj (ht.symm.trans ht')
        rw [hs] at hf ⊢
        exact AutoTask.pause_going he hf hr

theorem Orderly.resume (h : r.Orderly) : (r.resume sh).1.Orderly := by
  rcases hc : r.resume sh with ⟨r', sh', ret⟩
  have hcase := hc ▸ r.resume_cases sh
  cases hcase with
  | unchanged => exact h
  | unhandled => exact h
  | recovery hd hs hr => exact h.ofRecovery rfl hd h.steady.resumeRecover
  | recoveryRefused hd hs hr => exact h.ofRecovery rfl hd h.steady.resumeRecover
  | activate hd hs hr => exact h.ofRecovery rfl rfl h.steady.activateRecover
  | activateRefused hd hs hr => exact h.ofPause rfl hd rfl h.steady.activateRecover

theorem Orderly.stop (h : r.Orderly) : (r.stop sh imm).1.Orderly := by
  rcases hc : r.stop sh imm with ⟨r', sh', ret⟩
  have hcase := hc ▸ r.stop_cases sh imm
  cases hcase with
  | unchanged => exact h
  | unhandled => exact h
  | recovery hd _ => exact h.ofRecovery rfl hd h.steady.stop
  | @task task ht hd hs =>
    have he := h.endable _ ht
    refine .ofTask rfl he.stop ?_ h.steady
    cases hr : (task.stop sh imm).2.2 with
    | true => exact AutoTask.stop_ending task sh imm
    | false =>
      show (task.stop sh imm).1.Fits r.state
      obtain ⟨t, ht', hf⟩ := h.fits hd (by rcases hs with hs | hs | hs <;> simp [hs])
      obtain rfl : task = t := Option.some.inj (ht.symm.trans ht')
      rwa [AutoTask.stop_refused he hr]
  | paused hd hs => exact ⟨h.endable, fun _ hn => absurd rfl hn, h.steady⟩

theorem Orderly.startManualPointmove (h : r.Orderly) {sp : MoveRuntimePlanSpeedInput K}
    (hsp : sp.dec0 < 0) (startPos targetPos : Axis K) :
    (r.startManualPointmove sh sp startPos targetPos).1.Orderly := by
  simp only [AutoTaskRunner.startManualPointmove]
  split
  · exact h
  · rename_i hc
    push Not at hc
    exact h.ofPause rfl hc.2 rfl (h.steady.startManualPointmove hsp)

theorem Orderly.stopManualPointmove (h : r.Orderly) : (r.stopManualPointmove imm).1.Orderly := by
  simp only [AutoTaskRunner.stopManualPointmove]
  split
  · exact h
  · rename_i hc
    push Not at hc
    exact h.ofPause rfl hc.2 rfl h.steady.stopManualPointmove

/-- A cycle of a runner that pauses its task: it goes on to pause, or has got somewhere. -/
theorem pausing_cases (sh : MotionShared K) (inp : CycleInput K) {t : AutoTask K}
    (h : t.Halting) (ht : r.currTask = some t)
    (hd : r.dominState = .autoTaskRunning) (hs : r.state = .pausing) :
    (r.runOnce sh inp).1.currTask = some (t.runOnce sh inp).1 ∧
      (r.runOnce sh inp).1.dominState = .autoTaskRunning ∧
      ((t.runOnce sh inp).1.isPaused = true ∧ (r.runOnce sh inp).1.state = .paused ∨
        (t.runOnce sh inp).1.Ending ∧ (r.runOnce sh inp).1.state = .stopping ∨
        (t.runOnce sh inp).1.Halting ∧ ¬(t.runOnce sh inp).1.isPaused ∧
          ¬(t.runOnce sh inp).1.isStopped ∧
          r.runOnce sh inp =
            ({ r with currTask := some (t.runOnce sh inp).1 }, (t.runOnce sh inp).2)) := by
  have hrun : r.runOnce sh inp = r.pausing sh inp t := by
    simp only [AutoTaskRunner.runOnce, ht, hd, hs]
  have hnext : _ ∨ (t.runOnce sh inp).1.Ending := h.runOnce
  rw [hrun]
  simp only [AutoTaskRunner.pausing]
  split
  · rename_i hp
    exact ⟨rfl, hd, .inl ⟨hp, rfl⟩⟩
  · rename_i hp
    split
    · rename_i he
      exact ⟨rfl, hd, .inr (.inl ⟨by simpa [AutoTask.Ending] using he, rfl⟩)⟩
    · rename_i he
      have he : ¬(t.runOnce sh inp).1.Ending := by simpa [AutoTask.Ending] using he
      have hh := hnext.resolve_right he
      split
      · rename_i hn
        exact absurd hh (AutoTask.going_of_isNormalRunning hn).1
      · exact ⟨rfl, hd, .inr (.inr ⟨hh, hp, fun hs => he (.inr hs), rfl⟩)⟩

/-- A cycle of a runner that stops its task. -/
theorem stopping_cases (sh : MotionShared K) (inp : CycleInput K) {t : AutoTask K}
    (ht : r.currTask = some t)
    (hd : r.dominState = .autoTaskRunning) (hs : r.state = .stopping) :
    (r.runOnce sh inp).1.currTask = some (t.runOnce sh inp).1 ∧
      ((t.runOnce sh inp).1.isStopped = true ∧ (r.runOnce sh inp).1.state = .stopped ∨
        ¬(t.runOnce sh inp).1.isStopped ∧
          r.runOnce sh inp =
            ({ r with currTask := some (t.runOnce sh inp).1 }, (t.runOnce sh inp).2)) := by
  have hrun : r.runOnce sh inp = r.stopping sh inp t := by
    simp only [AutoTaskRunner.runOnce, ht, hd, hs]
  rw [hrun]
  simp only [AutoTaskRunner.stopping]
  split
  · rename_i he
    exact ⟨rfl, .inl ⟨he, rfl⟩⟩
  · rename_i he
    exact ⟨rfl, .inr ⟨he, rfl⟩⟩

/-- A cycle of a runner that resumes its task. -/
theorem resuming_cases (sh : MotionShared K) (inp : CycleInput K) {t : AutoTask K}
    (h : t.Going) (ht : r.currTask = some t)
    (hd : r.dominState = .autoTaskRunning) (hs : r.state = .resuming) :
    (r.runOnce sh inp).1.currTask = some (t.runOnce sh inp).1 ∧
      (r.runOnce sh inp).1.dominState = .autoTaskRunning ∧
      ((r.runOnce sh inp).1.state = .normalMoving ∨
        (t.runOnce sh inp).1.Ending ∧ (r.runOnce sh inp).1.state = .stopping) := by
  have hrun : r.runOnce sh inp = r.resuming sh inp t := by
    simp only [AutoTaskRunner.runOnce, ht, hd, hs]
  have hnext : _ ∨ (t.runOnce sh inp).1.Ending := h.runOnce
  rw [hrun]
  simp only [AutoTaskRunner.resuming]
  split
  · exact ⟨rfl, hd, .inl rfl⟩
  · rename_i hn
    have he := hnext.resolve_left hn
    rw [if_pos (by simpa [AutoTask.Ending] using he)]
    exact ⟨rfl, hd, .inr ⟨he, rfl⟩⟩

/-- A cycle of a runner whose task runs. -/
theorem normalMoving_cases (sh : MotionShared K) (inp : CycleInput K) {t : AutoTask K}
    (ht : r.currTask = some t)
    (hd : r.dominState = .autoTaskRunning) (hs : r.state = .normalMoving) :
    (r.runOnce sh inp).1.currTask = some (t.runOnce sh inp).1 ∧
      (t.runOnce sh inp).1.Fits (r.runOnce sh inp).1.state := by
  have hrun : r.runOnce sh inp = r.normalMoving sh inp t := by
    simp only [AutoTaskRunner.runOnce, ht, hd, hs]
  rw [hrun]
  simp only [AutoTaskRunner.normalMoving]
  split
  · rename_i hh
    exact ⟨rfl, by simpa [AutoTask.Fits, AutoTask.Halting] using hh⟩
  · split
    · rename_i he
      exact ⟨rfl, by simpa [AutoTask.Fits, AutoTask.Ending] using he⟩
    · refine ⟨rfl, ?_⟩
      simp only [hs]
      trivial

/-- A cycle in which the task runs. -/
theorem Orderly.task_cycle (h : r.Orderly) (sh : MotionShared K) (inp : CycleInput K)
    {t : AutoTask K} (ht : r.currTask = some t)
    (hd : r.dominState = .autoTaskRunning) (hs : r.state ≠ .paused ∧ r.state ≠ .stopped)
    (hp : (r.runOnce sh inp).1.pausemoveController.Steady) : (r.runOnce sh inp).1.Orderly := by
  have he : (t.runOnce sh inp).1.Endable := (h.endable t ht).runOnce
  obtain ⟨t', ht', hf⟩ := h.fits hd hs.2
  obtain rfl : t = t' := Option.some.inj (ht.symm.trans ht')
  cases hst : r.state with
  | paused => exact absurd hst hs.1
  | stopped => exact absurd hst hs.2
  | normalMoving =>
    obtain ⟨h1, h2⟩ := normalMoving_cases sh inp ht hd hst
    exact .ofTask h1 he h2 hp
  | pausing =>
    rw [hst] at hf
    obtain ⟨h1, -, ⟨-, h2⟩ | ⟨h3, h2⟩ | ⟨h3, -, -, h2⟩⟩ := pausing_cases sh inp hf ht hd hst
    · exact .ofTask h1 he (by rw [h2]; trivial) hp
    · exact .ofTask h1 he (by rw [h2]; exact h3) hp
    · exact .ofTask h1 he (by rw [h2, hst]; exact h3) hp
  | resuming =>
    rw [hst] at hf
    obtain ⟨h1, -, h2 | ⟨h3, h2⟩⟩ := resuming_cases sh inp hf ht hd hst
    · exact .ofTask h1 he (by rw [h2]; trivial) hp
    · exact .ofTask h1 he (by rw [h2]; exact h3) hp
  | stopping =>
    rw [hst] at hf
    obtain ⟨h1, ⟨-, h2⟩ | ⟨-, h2⟩⟩ := stopping_cases sh inp ht hd hst
    · exact .ofTask h1 he (by rw [h2]; trivial) hp
    · exact .ofTask h1 he (by rw [h2, hst]; exact AutoTask.Ending.runOnce hf) hp

/-- Every cycle keeps the order. -/
theorem Orderly.runOnce (hc : r.Consistent sh) (h : r.Orderly) : (r.runOnce sh inp).1.Orderly := by
  rcases heq : r.runOnce sh inp with ⟨r', sh'⟩
  have hcase := heq ▸ r.runOnce_cases sh inp
  have ofCycle {t : AutoTask K} (ht : r.currTask = some t)
      (hd : r.dominState = .autoTaskRunning) (hs : r.state ≠ .paused ∧ r.state ≠ .stopped)
      (hp : r'.pausemoveController.Steady) : r'.Orderly := by
    have hcycle := h.task_cycle sh inp ht hd hs
    rw [heq] at hcycle
    exact hcycle hp
  cases hcase with
  | unchanged => exact h
  | unhandled => exact h
  | taskRuns st ht hd hs hst => exact ofCycle ht hd hs h.steady
  | taskResumed st ht hd hs hst => exact ofCycle ht hd (by simp [hs]) h.steady
  | taskPaused ht hd hs hp => exact ofCycle ht hd (by simp [hs]) h.steady.init
  | taskStopped ht hd hs hp => exact ofCycle ht hd (by simp [hs]) h.steady
  | paused hd hs => exact h.ofPause rfl hd rfl h.steady.runOnce
  | recovers hd _ => exact h.ofRecovery rfl hd h.steady.runOnce
  | recovered ht hd hs hp hr =>
    obtain ⟨_, t, ht', hpt⟩ := hc.recovery hd
    obtain rfl : _ = t := Option.some.inj (ht.symm.trans ht')
    exact .ofTask rfl (h.endable _ ht).resume (AutoTask.resume_going hpt) h.steady.runOnce
  | resumeRefused ht hd hs hp hr =>
    exact ⟨fun _ h' => Option.some.inj h' ▸ (h.endable _ ht).resume, fun h' => by simp [hd] at h',
      h.steady.runOnce⟩
  | recoveryPaused hd => exact h.ofRecovery rfl hd h.steady.runOnce
  | recoveryBroken hd => exact h.ofRecovery rfl hd h.steady.runOnce
  | recoveryStopped => exact ⟨h.endable, fun _ hn => absurd rfl hn, h.steady.runOnce⟩

/-- What an accepted pause has the runner show. -/
theorem pause_accepted (h : (r.pause sh).2.2 = true) :
    (r.pause sh).1.state = .pausing ∨ (r.pause sh).1.state = .paused := by
  rcases r with ⟨_ | task, state, dominState, pmc⟩
  · simp [AutoTaskRunner.pause] at h
  · cases dominState <;> cases state <;> simp_all [AutoTaskRunner.pause]

theorem stop_accepted (h : (r.stop sh imm).2.2 = true) :
    (r.stop sh imm).1.state = .stopping ∨ (r.stop sh imm).1.state = .stopped := by
  rcases r with ⟨_ | task, state, dominState, pmc⟩
  · simp [AutoTaskRunner.stop] at h
  · cases dominState <;> cases state <;> simp_all [AutoTaskRunner.stop]

theorem resume_accepted (h : (r.resume sh).2.2 = true) :
    (r.resume sh).1.dominState = .pauseMoveRecoverRunning ∧
        (r.resume sh).1.state = .normalMoving ∨
      (r.resume sh).1.dominState = .autoTaskRunning ∧ (r.resume sh).1.state = .resuming := by
  rcases r with ⟨_ | task, state, dominState, pmc⟩
  · simp [AutoTaskRunner.resume] at h
  · cases dominState <;> cases state <;> simp only [AutoTaskRunner.resume] at h ⊢ <;>
      first | simp_all | (split at h <;> simp_all)

/-- A cycle of a recovery: the task takes over, or the controller goes on. -/
theorem recovering_cases (hc : r.Consistent sh) (inp : CycleInput K)
    (hd : r.dominState = .pauseMoveRecoverRunning) (hs : r.state = .normalMoving) :
    ((r.runOnce sh inp).1.dominState = .autoTaskRunning ∧
        (r.runOnce sh inp).1.state = .resuming) ∨
      ¬(r.pausemoveController.runOnce sh inp).1.isRecoverOver ∧
        r.runOnce sh inp =
          ({ r with pausemoveController := (r.pausemoveController.runOnce sh inp).1 },
            (r.pausemoveController.runOnce sh inp).2) := by
  obtain ⟨hr, t, ht, hp⟩ := hc.recovery hd
  rw [hs] at hr
  have hstop : ¬(r.pausemoveController.runOnce sh inp).1.isStopped := by
    rcases hr.runOnce_normalMoving sh inp with h' | h' <;>
      simp [PauseMoveController.isStopped, h']
  have hrun : r.runOnce sh inp = r.dominatedStatePmrecoveringRunOnce sh inp t := by
    simp only [AutoTaskRunner.runOnce, ht, hd]
  rw [hrun]
  simp only [dominatedStatePmrecoveringRunOnce, hs]
  rw [if_neg hstop]
  split
  · rw [if_pos (AutoTask.resume_of_isPaused _ _ hp)]
    exact .inl ⟨rfl, rfl⟩
  · rename_i ho
    exact .inr ⟨ho, rfl⟩

/-- A cycle of a recovery that is being paused or stopped. -/
theorem halting_recovery_cases (hc : r.Consistent sh) (inp : CycleInput K)
    (hd : r.dominState = .pauseMoveRecoverRunning) :
    (r.state = .pausing →
      (r.runOnce sh inp).1.state = .paused ∨
        ¬(r.pausemoveController.runOnce sh inp).1.isRecoverPaused ∧
          (r.runOnce sh inp).1 =
            { r with pausemoveController := (r.pausemoveController.runOnce sh inp).1 }) ∧
    (r.state = .stopping →
      (r.runOnce sh inp).1.state = .stopped ∨
        ¬(r.pausemoveController.runOnce sh inp).1.isStopped ∧
          (r.runOnce sh inp).1 =
            { r with pausemoveController := (r.pausemoveController.runOnce sh inp).1 }) := by
  obtain ⟨-, t, ht, -⟩ := hc.recovery hd
  have hrun : r.runOnce sh inp = r.dominatedStatePmrecoveringRunOnce sh inp t := by
    simp only [AutoTaskRunner.runOnce, ht, hd]
  rw [hrun]
  refine ⟨fun hs => ?_, fun hs => ?_⟩
  all_goals
    simp only [dominatedStatePmrecoveringRunOnce, hs]
    split
    · exact .inl rfl
    · rename_i hp
      exact .inr ⟨hp, rfl⟩

end AutoTaskRunner

/-! ### Runs -/

namespace RunnerSystem

/-- The command gives no move without a deceleration. -/
def Command.Brakes : Command K → Prop
  | .start ts => ts.Brakes
  | .startManualPointmove sp _ => sp.dec0 < 0
  | _ => True

/-- A cycle of the thread. -/
def cycle (s : RunnerSystem K) (inp : CycleInput K) : RunnerSystem K := s.step (.cycle inp)

structure Orderly (s : RunnerSystem K) : Prop where
  consistent : s.runner.Consistent s.shared
  orderly : s.runner.Orderly

variable {s : RunnerSystem K} {c : Command K} {inp : CycleInput K} {δ : K}

theorem start_orderly (h : s.Orderly) {ts : TaskStart K} (hb : ts.Brakes) :
    (s.start ts).runner.Orderly := by
  simp only [start]
  split
  · exact h.orderly
  · rename_i ho
    exact h.orderly.restartTask (AutoTask.build_endable hb (Bool.eq_false_of_not_eq_true ho))

/-- Every operation keeps the order. -/
theorem step_orderly (h : s.Orderly) (hb : c.Brakes) : (s.step c).Orderly := by
  refine ⟨step_consistent h.consistent c, ?_⟩
  cases c with
  | start ts => exact start_orderly h hb
  | pause => exact h.orderly.pause
  | resume => exact h.orderly.resume
  | stop imm => exact h.orderly.stop
  | startManualPointmove sp target => exact h.orderly.startManualPointmove hb _ _
  | stopManualPointmove imm => exact h.orderly.stopManualPointmove
  | setting c => exact h.orderly
  | cycle inp => exact h.orderly.runOnce h.consistent

theorem run_orderly (sh : MotionShared K) {cmds : List (Command K)}
    (hb : Machine.AllSteps step (fun _ c => c.Brakes) (new sh) cmds) :
    (Machine.run step (new sh) cmds).Orderly :=
  Machine.AllSteps.invariant (I := Orderly) (fun _ _ h hb => step_orderly h hb)
    ⟨AutoTaskRunner.new_consistent rfl, AutoTaskRunner.new_orderly⟩ hb

/-- The runner shows `st` of the given task. -/
structure InTask (st : MotionAutoState) (s : RunnerSystem K)
    (x : AutoTask K × MotionShared K) : Prop where
  orderly : s.Orderly
  domin : s.runner.dominState = .autoTaskRunning
  state : s.runner.state = st
  task : s.runner.currTask = some x.1
  shared : s.shared = x.2

/-- The runner is in a recovery and shows `st`. -/
structure InRecovery (st : MotionAutoState) (s : RunnerSystem K) : Prop where
  orderly : s.Orderly
  domin : s.runner.dominState = .pauseMoveRecoverRunning
  state : s.runner.state = st

theorem Orderly.cycle (h : s.Orderly) (inp : CycleInput K) : (s.cycle inp).Orderly :=
  step_orderly h (c := .cycle inp) trivial

/-- A cycle in which only the pause-move controller goes on. -/
theorem InRecovery.goes_on {st : MotionAutoState} (h : InRecovery st s)
    (hrun : (s.runner.runOnce s.shared inp).1 =
      { s.runner with
        pausemoveController := (s.runner.pausemoveController.runOnce s.shared inp).1 }) :
    InRecovery st (s.cycle inp) ∧
      (s.cycle inp).runner.pausemoveController =
        (s.runner.pausemoveController.runOnce s.shared inp).1 := by
  have hcycle : (s.cycle inp).runner = (s.runner.runOnce s.shared inp).1 := rfl
  rw [hrun] at hcycle
  refine ⟨⟨h.orderly.cycle inp, ?_, ?_⟩, by rw [hcycle]⟩
  · rw [hcycle]
    exact h.domin
  · rw [hcycle]
    exact h.state

/-- Where the runner shows `st` of a task, that task fits. -/
theorem Orderly.inTask (h : s.Orderly) (hd : s.runner.dominState = .autoTaskRunning)
    (hs : s.runner.state ≠ .stopped) :
    ∃ t, InTask s.runner.state s (t, s.shared) ∧ t.Endable ∧ t.Fits s.runner.state := by
  obtain ⟨t, ht, hf⟩ := h.orderly.fits hd hs
  exact ⟨t, ⟨h, hd, rfl, ht, rfl⟩, h.orderly.endable t ht, hf⟩

/-- A task that is being stopped is stopped in the end. -/
theorem stopping_ends (hδ : 0 < δ) :
    LeadsTo cycle (CycleInput.Paced δ)
      (fun s : RunnerSystem K =>
        s.Orderly ∧ s.runner.dominState = .autoTaskRunning ∧ s.runner.state = .stopping)
      (fun s => s.runner.state = .stopped) := by
  rintro s ⟨ho, hd, hs⟩
  obtain ⟨t, hw, he, hf⟩ := ho.inTask hd (by simp [hs])
  rw [hs] at hw hf
  have hcarry : LeadsTo cycle (CycleInput.Paced δ)
      (fun s => ∃ x, InTask .stopping s x ∧ x.1.Endable ∧ x.1.Ending)
      (fun s => s.runner.state = .stopped ∨ ∃ x, InTask .stopping s x ∧ x.1.isStopped) := by
    refine (AutoTask.ending_ends hδ).carry fun s x inp hw _ => ?_
    obtain ⟨ht, ⟨-, hs⟩ | ⟨-, hrun⟩⟩ :=
      AutoTaskRunner.stopping_cases s.shared inp hw.task hw.domin hw.state
    · exact .inl hs
    · rw [hw.shared] at hrun
      refine .inr ⟨hw.orderly.cycle inp, ?_, ?_, ?_, ?_⟩
      all_goals simp [cycle, step, hw.shared, hrun, hw.domin, hw.state, AutoTask.step]
  refine (hcarry s ⟨(t, s.shared), hw, he, hf⟩).trans ?_
  rintro s (h | ⟨x, hw, hx⟩)
  · exact .now h
  · refine .next fun inp _ => .now ?_
    obtain ⟨ht, ⟨-, hs⟩ | ⟨hn, -⟩⟩ :=
      AutoTaskRunner.stopping_cases s.shared inp hw.task hw.domin hw.state
    · exact hs
    · exact absurd (AutoTask.isStopped_runOnce hx) hn

/-- The runner is paused, or found its task stopping by itself. -/
def DonePausing (s : RunnerSystem K) : Prop :=
  s.runner.state = .paused ∨
    s.Orderly ∧ s.runner.dominState = .autoTaskRunning ∧ s.runner.state = .stopping

/-- A task that is being paused is paused in the end, unless it stops by itself. -/
theorem pausing_ends (hδ : 0 < δ) :
    LeadsTo cycle (CycleInput.Paced δ)
      (fun s : RunnerSystem K =>
        s.Orderly ∧ s.runner.dominState = .autoTaskRunning ∧ s.runner.state = .pausing)
      (fun s => s.runner.state = .paused ∨ s.runner.state = .stopped) := by
  rintro s ⟨ho, hd, hs⟩
  obtain ⟨t, hw, he, hf⟩ := ho.inTask hd (by simp [hs])
  rw [hs] at hw hf
  have hcarry : LeadsTo cycle (CycleInput.Paced δ)
      (fun s => ∃ x, (InTask .pausing s x ∧ x.1.Halting) ∧ x.1.Endable ∧ x.1.Halting)
      (fun s => s.DonePausing ∨
        ∃ x, (InTask .pausing s x ∧ x.1.Halting) ∧ (x.1.isPaused ∨ x.1.isStopped)) := by
    refine (AutoTask.halting_ends hδ).carry fun s x inp ⟨hw, hh⟩ _ => ?_
    obtain ⟨ht, hd, ⟨-, hs⟩ | ⟨-, hs⟩ | ⟨hh', -, -, hrun⟩⟩ :=
      AutoTaskRunner.pausing_cases s.shared inp hh hw.task hw.domin hw.state
    · exact .inl (.inl hs)
    · exact .inl (.inr ⟨hw.orderly.cycle inp, hd, hs⟩)
    · rw [hw.shared] at hrun hh'
      refine .inr ⟨⟨hw.orderly.cycle inp, ?_, ?_, ?_, ?_⟩, hh'⟩
      all_goals simp [cycle, step, hw.shared, hrun, hw.domin, hw.state, AutoTask.step]
  refine ((hcarry s ⟨(t, s.shared), ⟨hw, hf⟩, he, hf⟩).trans
    (Q := DonePausing) ?_).trans ?_
  · rintro s (h | ⟨x, ⟨hw, hh⟩, hx⟩)
    · exact .now h
    · refine .next fun inp _ => .now ?_
      obtain ⟨-, hd, ⟨-, hs⟩ | ⟨-, hs⟩ | ⟨-, hp, hn, -⟩⟩ :=
        AutoTaskRunner.pausing_cases s.shared inp hh hw.task hw.domin hw.state
      · exact .inl hs
      · exact .inr ⟨hw.orderly.cycle inp, hd, hs⟩
      · rcases hx with hx | hx
        · exact ((AutoTask.isPaused_runOnce hx).elim hp hn).elim
        · exact absurd (AutoTask.isStopped_runOnce hx) hn
  · rintro s (h | h)
    · exact .now (.inl h)
    · exact (stopping_ends hδ s h).mono fun s hs => .inr hs

/-- A task that is being resumed runs after a cycle, unless it is at its end. -/
theorem resuming_ends (hδ : 0 < δ) :
    LeadsTo cycle (CycleInput.Paced δ)
      (fun s : RunnerSystem K =>
        s.Orderly ∧ s.runner.dominState = .autoTaskRunning ∧ s.runner.state = .resuming)
      (fun s => s.runner.dominState = .autoTaskRunning ∧ s.runner.state = .normalMoving ∨
        s.runner.state = .stopped) := by
  rintro s ⟨ho, hd, hs⟩
  obtain ⟨t, hw, he, hf⟩ := ho.inTask hd (by simp [hs])
  rw [hs] at hw hf
  refine .next fun inp _ => ?_
  obtain ⟨-, hd, h | ⟨-, h⟩⟩ :=
    AutoTaskRunner.resuming_cases s.shared inp hf hw.task hw.domin hw.state
  · exact .now (.inl ⟨hd, h⟩)
  · exact (stopping_ends hδ _ ⟨ho.cycle inp, hd, h⟩).mono fun s hs => .inr hs

/-- The way back after a pause ends, and the task takes over. -/
theorem recovering_ends :
    LeadsTo cycle (CycleInput.Paced δ) (InRecovery (K := K) .normalMoving)
      (fun s =>
        s.Orderly ∧ s.runner.dominState = .autoTaskRunning ∧ s.runner.state = .resuming) := by
  refine LeadsTo.of_measure
    (μ := fun s => s.runner.pausemoveController.recoveryLeft) fun s inp h _ => ?_
  have ho := h.orderly
  rcases AutoTaskRunner.recovering_cases ho.consistent inp h.domin h.state with hq | ⟨hn, hrun⟩
  · exact .inl ⟨ho.cycle inp, hq⟩
  · have hr := (ho.consistent.recovery h.domin).1
    rw [h.state] at hr
    have hs : s.runner.pausemoveController.state = .recovering := by
      refine (hr.imp_right fun hs => ?_).elim And.left False.elim
      exact hn (by simp [PauseMoveController.runOnce, hs, PauseMoveController.isRecoverOver])
    have hlt := (ho.orderly.steady.recovering_lt hs s.shared inp).resolve_left hn
    obtain ⟨hnext, hpm⟩ := h.goes_on (congrArg Prod.fst hrun)
    exact .inr ⟨hnext, hpm ▸ hlt⟩

/-- A recovery that is being paused is paused in the end. -/
theorem pausing_recovery_ends :
    LeadsTo cycle (CycleInput.Paced δ) (InRecovery (K := K) .pausing)
      (fun s => s.runner.state = .paused) := by
  refine LeadsTo.of_measure
    (μ := fun s => s.runner.pausemoveController.pmHandler.cyclesLeft) fun s inp h _ => ?_
  have ho := h.orderly
  rcases (AutoTaskRunner.halting_recovery_cases ho.consistent inp h.domin).1 h.state with
    hq | ⟨hn, hrun⟩
  · exact .inl hq
  · have hr := (ho.consistent.recovery h.domin).1
    rw [h.state] at hr
    have hlt := (PauseMoveController.pausing_lt hr.1 hr.2 s.shared inp).resolve_left hn
    obtain ⟨hnext, hpm⟩ := h.goes_on hrun
    exact .inr ⟨hnext, hpm ▸ hlt⟩

/-- A recovery that is being stopped is stopped in the end. -/
theorem stopping_recovery_ends :
    LeadsTo cycle (CycleInput.Paced δ) (InRecovery (K := K) .stopping)
      (fun s => s.runner.state = .stopped) := by
  refine LeadsTo.of_measure
    (μ := fun s => s.runner.pausemoveController.pmHandler.cyclesLeft) fun s inp h _ => ?_
  have ho := h.orderly
  rcases (AutoTaskRunner.halting_recovery_cases ho.consistent inp h.domin).2 h.state with
    hq | ⟨hn, hrun⟩
  · exact .inl hq
  · have hr := (ho.consistent.recovery h.domin).1
    rw [h.state] at hr
    have hlt := (ho.orderly.steady.stopping_lt hr s.shared inp).resolve_left hn
    obtain ⟨hnext, hpm⟩ := h.goes_on hrun
    exact .inr ⟨hnext, hpm ▸ hlt⟩

/-- From `pausing`, whether the task or a recovery is being paused. -/
theorem gets_paused (h : s.Orderly) (hδ : 0 < δ) (hs : s.runner.state = .pausing) :
    Reaches cycle (CycleInput.Paced δ) s
      fun s => s.runner.state = .paused ∨ s.runner.state = .stopped := by
  cases hd : s.runner.dominState with
  | autoTaskRunning => exact pausing_ends hδ s ⟨h, hd, hs⟩
  | pauseMoveRecoverRunning => exact (pausing_recovery_ends s ⟨h, hd, hs⟩).mono fun _ => .inl

/-- From `stopping`, whether the task or a recovery is being stopped. -/
theorem gets_stopped (h : s.Orderly) (hδ : 0 < δ) (hs : s.runner.state = .stopping) :
    Reaches cycle (CycleInput.Paced δ) s fun s => s.runner.state = .stopped := by
  cases hd : s.runner.dominState with
  | autoTaskRunning => exact stopping_ends hδ s ⟨h, hd, hs⟩
  | pauseMoveRecoverRunning => exact stopping_recovery_ends s ⟨h, hd, hs⟩

theorem pause_takes_effect (h : s.Orderly) (hδ : 0 < δ)
    (ha : (s.runner.pause s.shared).2.2 = true) :
    Reaches cycle (CycleInput.Paced δ) (s.step .pause)
      fun s => s.runner.state = .paused ∨ s.runner.state = .stopped := by
  have h' : (s.step .pause).Orderly := step_orderly h trivial
  rcases AutoTaskRunner.pause_accepted ha with hs | hs
  · exact gets_paused h' hδ hs
  · exact .now (.inl hs)

theorem stop_takes_effect {imm : Bool} (h : s.Orderly) (hδ : 0 < δ)
    (ha : (s.runner.stop s.shared imm).2.2 = true) :
    Reaches cycle (CycleInput.Paced δ) (s.step (.stop imm)) fun s => s.runner.state = .stopped := by
  have h' : (s.step (.stop imm)).Orderly := step_orderly h trivial
  rcases AutoTaskRunner.stop_accepted ha with hs | hs
  · exact gets_stopped h' hδ hs
  · exact .now hs

/-- The manual moves are retraced before the task is resumed. -/
theorem resume_takes_effect (h : s.Orderly) (hδ : 0 < δ)
    (ha : (s.runner.resume s.shared).2.2 = true) :
    Reaches cycle (CycleInput.Paced δ) (s.step .resume) fun s =>
      s.runner.dominState = .autoTaskRunning ∧ s.runner.state = .normalMoving ∨
        s.runner.state = .stopped := by
  have h' : (s.step .resume).Orderly := step_orderly h trivial
  rcases AutoTaskRunner.resume_accepted ha with ⟨hd, hs⟩ | ⟨hd, hs⟩
  · exact (recovering_ends _ ⟨h', hd, hs⟩).trans (resuming_ends hδ)
  · exact resuming_ends hδ _ ⟨h', hd, hs⟩

/-- In every state of a run whose moves were given a deceleration: if a pause is accepted, the
runner gets paused, or its task stops by itself; if a stop is accepted, the runner gets stopped; if
a resume is accepted, the manual moves are retraced and the task runs on, or is at its end. The
servo must not ask for ever smaller steps. -/
theorem requests_take_effect (sh : MotionShared K) {cmds : List (Command K)}
    (hb : Machine.AllSteps step (fun _ c => c.Brakes) (new sh) cmds) (hδ : 0 < δ) :
    let s := Machine.run step (new sh) cmds
    ((s.runner.pause s.shared).2.2 = true →
      Reaches cycle (CycleInput.Paced δ) (s.step .pause)
        fun s => s.runner.state = .paused ∨ s.runner.state = .stopped) ∧
    (∀ imm, (s.runner.stop s.shared imm).2.2 = true →
      Reaches cycle (CycleInput.Paced δ) (s.step (.stop imm)) fun s => s.runner.state = .stopped) ∧
    ((s.runner.resume s.shared).2.2 = true →
      Reaches cycle (CycleInput.Paced δ) (s.step .resume) fun s =>
        s.runner.dominState = .autoTaskRunning ∧ s.runner.state = .normalMoving ∨
          s.runner.state = .stopped) := by
  intro s
  have ho : s.Orderly := run_orderly sh hb
  refine ⟨fun h => ?_, fun imm h => ?_, fun h => ?_⟩
  · exact pause_takes_effect ho hδ h
  · exact stop_takes_effect ho hδ h
  · exact resume_takes_effect ho hδ h

end RunnerSystem

end

namespace RunnerSystem

attribute [local instance] Sample.settings

/-- A pause of the program, and a move by hand of 4 in it. -/
def movedByHand : List (Command ℚ) :=
  [.start .m00Fake] ++ .replicate 2 (.cycle (Sample.input 0)) ++
    [.startManualPointmove Sample.speedParam (Sample.xAxis 4)] ++
    .replicate 9 (.cycle (Sample.input 0))

/-- Resumed there, the move is retraced, and the task goes on to its end. -/
theorem movedByHand_goes_on :
    Reaches cycle (CycleInput.Paced 1) ((Machine.run step (new .new) movedByHand).step .resume)
      fun s => s.runner.dominState = .autoTaskRunning ∧ s.runner.state = .normalMoving ∨
        s.runner.state = .stopped := by
  have hb : Machine.AllSteps step (fun _ c => c.Brakes) (new .new) movedByHand := by
    simp [movedByHand, Machine.AllSteps, Command.Brakes, TaskStart.Brakes, Sample.speedParam,
      List.replicate]
  exact (requests_take_effect .new hb one_pos).2.2 (by decide +kernel)

end RunnerSystem

end Edm
