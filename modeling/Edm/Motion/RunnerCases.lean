import Edm.Motion.AutoTaskRunner

/-!
# What the runner's operations can do

Each operation of `AutoTaskRunner` is a nest of cases on the dominating state and the runner's own
state. One inductive predicate for each operation lists its outcomes with the states they come from;
the results about runs go through these lists and do not open the operations again.
-/

set_option linter.unusedSectionVars false

namespace Edm

namespace AutoTaskRunner

variable {K : Type} [Field K] [LinearOrder K] [FloorRing K] [RealFns K] [Settings]

/-- Outcomes of `pause`. -/
inductive PauseCase (r : AutoTaskRunner K) (sh : MotionShared K) :
    AutoTaskRunner K × MotionShared K × Bool → Prop where
  | unchanged (ret : Bool) : PauseCase r sh (r, sh, ret)
  | unhandled (hd : r.dominState = .pauseMoveRecoverRunning)
      (hs : r.state = .resuming ∨ r.state = .stopped) : PauseCase r sh (r, sh.setFault, false)
  | recovery (hd : r.dominState = .pauseMoveRecoverRunning) (hs : r.state = .normalMoving) :
      PauseCase r sh
        ({ r with
            pausemoveController := r.pausemoveController.pauseRecover.1
            state := if r.pausemoveController.pauseRecover.2 then .pausing else .normalMoving },
          sh, r.pausemoveController.pauseRecover.2)
  | task {task : AutoTask K} (ht : r.currTask = some task) (hd : r.dominState = .autoTaskRunning)
      (hs : r.state = .normalMoving ∨ r.state = .resuming) :
      PauseCase r sh
        ({ r with
            currTask := some (task.pause sh).1
            state := if (task.pause sh).2.2 then .pausing else r.state },
          (task.pause sh).2.1, (task.pause sh).2.2)

/-- Outcomes of `resume`. -/
inductive ResumeCase (r : AutoTaskRunner K) (sh : MotionShared K) :
    AutoTaskRunner K × MotionShared K × Bool → Prop where
  | unchanged (ret : Bool) : ResumeCase r sh (r, sh, ret)
  | unhandled (hd : r.dominState = .pauseMoveRecoverRunning)
      (hs : r.state = .resuming ∨ r.state = .stopped) : ResumeCase r sh (r, sh.setFault, false)
  | recovery (hd : r.dominState = .pauseMoveRecoverRunning) (hs : r.state = .paused)
      (hr : r.pausemoveController.resumeRecover.2 = true) :
      ResumeCase r sh
        ({ r with
            pausemoveController := r.pausemoveController.resumeRecover.1
            state := .normalMoving }, sh.setSignal .autoResumed, true)
  | recoveryRefused (hd : r.dominState = .pauseMoveRecoverRunning) (hs : r.state = .paused)
      (hr : r.pausemoveController.resumeRecover.2 = false) :
      ResumeCase r sh
        ({ r with pausemoveController := r.pausemoveController.resumeRecover.1 }, sh, false)
  | activate (hd : r.dominState = .autoTaskRunning) (hs : r.state = .paused)
      (hr : r.pausemoveController.activateRecover.2 = true) :
      ResumeCase r sh
        ({ r with
            pausemoveController := r.pausemoveController.activateRecover.1
            dominState := .pauseMoveRecoverRunning
            state := .normalMoving }, sh.setSignal .autoResumed, true)
  | activateRefused (hd : r.dominState = .autoTaskRunning) (hs : r.state = .paused)
      (hr : r.pausemoveController.activateRecover.2 = false) :
      ResumeCase r sh
        ({ r with pausemoveController := r.pausemoveController.activateRecover.1 }, sh, false)

/-- Outcomes of `stop`. -/
inductive StopCase (r : AutoTaskRunner K) (sh : MotionShared K) (imm : Bool) :
    AutoTaskRunner K × MotionShared K × Bool → Prop where
  | unchanged (ret : Bool) : StopCase r sh imm (r, sh, ret)
  | unhandled (hd : r.dominState = .pauseMoveRecoverRunning)
      (hs : r.state = .resuming ∨ r.state = .stopped) :
      StopCase r sh imm (r, sh.setFault, false)
  | recovery (hd : r.dominState = .pauseMoveRecoverRunning)
      (hs : r.state = .normalMoving ∨ r.state = .pausing ∨ r.state = .paused) :
      StopCase r sh imm
        ({ r with
            pausemoveController := (r.pausemoveController.stop imm).1
            state := if (r.pausemoveController.stop imm).2 then .stopping else r.state },
          sh, (r.pausemoveController.stop imm).2)
  | task {task : AutoTask K} (ht : r.currTask = some task) (hd : r.dominState = .autoTaskRunning)
      (hs : r.state = .normalMoving ∨ r.state = .resuming ∨ r.state = .pausing) :
      StopCase r sh imm
        ({ r with
            currTask := some (task.stop sh imm).1
            state := if (task.stop sh imm).2.2 then .stopping else r.state },
          (task.stop sh imm).2.1, (task.stop sh imm).2.2)
  | paused (hd : r.dominState = .autoTaskRunning) (hs : r.state = .paused) :
      StopCase r sh imm ({ r with state := .stopped }, sh, true)

/-- Outcomes of a cycle. -/
inductive CycleCase (r : AutoTaskRunner K) (sh : MotionShared K) (inp : CycleInput K) :
    AutoTaskRunner K × MotionShared K → Prop where
  | unchanged : CycleCase r sh inp (r, sh)
  | unhandled (hd : r.dominState = .pauseMoveRecoverRunning)
      (hs : r.state = .resuming ∨ r.state = .stopped) : CycleCase r sh inp (r, sh.setFault)
  /-- The task ran, and goes on in a state that is neither paused nor stopped. -/
  | taskRuns {task : AutoTask K} (st : MotionAutoState) (ht : r.currTask = some task)
      (hd : r.dominState = .autoTaskRunning) (hs : r.state ≠ .paused ∧ r.state ≠ .stopped)
      (hst : st ≠ .paused ∧ st ≠ .stopped) :
      CycleCase r sh inp
        ({ r with currTask := some (task.runOnce sh inp).1, state := st }, (task.runOnce sh inp).2)
  | taskResumed {task : AutoTask K} (st : MotionAutoState) (ht : r.currTask = some task)
      (hd : r.dominState = .autoTaskRunning) (hs : r.state = .resuming)
      (hst : st ≠ .paused ∧ st ≠ .stopped) :
      CycleCase r sh inp
        ({ r with currTask := some (task.runOnce sh inp).1, state := st },
          (task.runOnce sh inp).2.setSignal .autoResumed)
  | taskPaused {task : AutoTask K} (ht : r.currTask = some task)
      (hd : r.dominState = .autoTaskRunning) (hs : r.state = .pausing)
      (hp : (task.runOnce sh inp).1.isPaused) :
      CycleCase r sh inp
        ({ r with
            currTask := some (task.runOnce sh inp).1
            state := .paused
            pausemoveController := r.pausemoveController.init },
          (task.runOnce sh inp).2.setSignal .autoPaused)
  | taskStopped {task : AutoTask K} (ht : r.currTask = some task)
      (hd : r.dominState = .autoTaskRunning) (hs : r.state = .stopping)
      (hp : (task.runOnce sh inp).1.isStopped) :
      CycleCase r sh inp
        ({ r with currTask := some (task.runOnce sh inp).1, state := .stopped },
          (task.runOnce sh inp).2.setSignal .autoStopped)
  /-- A cycle of the manual moves. -/
  | paused (hd : r.dominState = .autoTaskRunning) (hs : r.state = .paused) :
      CycleCase r sh inp
        ({ r with pausemoveController := (r.pausemoveController.runOnce sh inp).1 },
          (r.pausemoveController.runOnce sh inp).2)
  /-- A cycle of a recovery that goes on. -/
  | recovers (hd : r.dominState = .pauseMoveRecoverRunning)
      (hs : r.state = .normalMoving ∧ ¬(r.pausemoveController.runOnce sh inp).1.isRecoverOver ∨
        r.state = .pausing ∧ ¬(r.pausemoveController.runOnce sh inp).1.isRecoverPaused ∨
        r.state = .stopping) :
      CycleCase r sh inp
        ({ r with pausemoveController := (r.pausemoveController.runOnce sh inp).1 },
          (r.pausemoveController.runOnce sh inp).2)
  /-- The recovery is over and the task takes over. -/
  | recovered {task : AutoTask K} (ht : r.currTask = some task)
      (hd : r.dominState = .pauseMoveRecoverRunning) (hs : r.state = .normalMoving)
      (hp : (r.pausemoveController.runOnce sh inp).1.isRecoverOver)
      (hr : (task.resume (r.pausemoveController.runOnce sh inp).2).2.2 = true) :
      CycleCase r sh inp
        ({ r with
            pausemoveController := (r.pausemoveController.runOnce sh inp).1
            currTask := some (task.resume (r.pausemoveController.runOnce sh inp).2).1
            dominState := .autoTaskRunning
            state := .resuming },
          (task.resume (r.pausemoveController.runOnce sh inp).2).2.1)
  | resumeRefused {task : AutoTask K} (ht : r.currTask = some task)
      (hd : r.dominState = .pauseMoveRecoverRunning) (hs : r.state = .normalMoving)
      (hp : (r.pausemoveController.runOnce sh inp).1.isRecoverOver)
      (hr : (task.resume (r.pausemoveController.runOnce sh inp).2).2.2 = false) :
      CycleCase r sh inp
        ({ r with
            pausemoveController := (r.pausemoveController.runOnce sh inp).1
            currTask := some (task.resume (r.pausemoveController.runOnce sh inp).2).1 },
          (task.resume (r.pausemoveController.runOnce sh inp).2).2.1)
  | recoveryPaused (hd : r.dominState = .pauseMoveRecoverRunning) (hs : r.state = .pausing)
      (hp : (r.pausemoveController.runOnce sh inp).1.isRecoverPaused) :
      CycleCase r sh inp
        ({ r with
            pausemoveController := (r.pausemoveController.runOnce sh inp).1
            state := .paused }, (r.pausemoveController.runOnce sh inp).2.setSignal .autoPaused)
  /-- The recovery broke off by itself; the dominating state is left as it was. -/
  | recoveryBroken (hd : r.dominState = .pauseMoveRecoverRunning) (hs : r.state = .normalMoving)
      (hp : (r.pausemoveController.runOnce sh inp).1.isStopped) :
      CycleCase r sh inp
        ({ r with
            pausemoveController := (r.pausemoveController.runOnce sh inp).1
            state := .stopped }, (r.pausemoveController.runOnce sh inp).2.setSignal .autoStopped)
  | recoveryStopped (hd : r.dominState = .pauseMoveRecoverRunning) (hs : r.state = .stopping)
      (hp : (r.pausemoveController.runOnce sh inp).1.isStopped) :
      CycleCase r sh inp
        ({ r with
            pausemoveController := (r.pausemoveController.runOnce sh inp).1
            state := .stopped
            dominState := .autoTaskRunning },
          (r.pausemoveController.runOnce sh inp).2.setSignal .autoStopped)

variable (r : AutoTaskRunner K) (sh : MotionShared K) (inp : CycleInput K) (imm : Bool)

theorem pause_cases : PauseCase r sh (r.pause sh) := by
  rcases r with ⟨currTask, state, dominState, pmc⟩
  rcases currTask with _ | task
  · exact .unchanged _
  cases dominState with
  | pauseMoveRecoverRunning =>
    cases state with
    | normalMoving => exact .recovery rfl rfl
    | resuming => exact .unhandled rfl (.inl rfl)
    | stopped => exact .unhandled rfl (.inr rfl)
    | _ => exact .unchanged _
  | autoTaskRunning =>
    cases state with
    | normalMoving => exact .task rfl rfl (.inl rfl)
    | resuming => exact .task rfl rfl (.inr rfl)
    | _ => exact .unchanged _

theorem resume_cases : ResumeCase r sh (r.resume sh) := by
  rcases r with ⟨currTask, state, dominState, pmc⟩
  rcases currTask with _ | task
  · exact .unchanged _
  cases dominState with
  | pauseMoveRecoverRunning =>
    cases state with
    | paused =>
      simp only [resume]
      split
      · rename_i hr
        exact .recovery rfl rfl hr
      · rename_i hr
        exact .recoveryRefused rfl rfl (Bool.eq_false_of_not_eq_true hr)
    | resuming => exact .unhandled rfl (.inl rfl)
    | stopped => exact .unhandled rfl (.inr rfl)
    | _ => exact .unchanged _
  | autoTaskRunning =>
    cases state with
    | paused =>
      simp only [resume]
      split
      · rename_i hr
        exact .activate rfl rfl hr
      · rename_i hr
        exact .activateRefused rfl rfl (Bool.eq_false_of_not_eq_true hr)
    | _ => exact .unchanged _

theorem stop_cases : StopCase r sh imm (r.stop sh imm) := by
  rcases r with ⟨currTask, state, dominState, pmc⟩
  rcases currTask with _ | task
  · exact .unchanged _
  cases dominState with
  | pauseMoveRecoverRunning =>
    cases state with
    | normalMoving => exact .recovery rfl (.inl rfl)
    | pausing => exact .recovery rfl (.inr (.inl rfl))
    | paused => exact .recovery rfl (.inr (.inr rfl))
    | resuming => exact .unhandled rfl (.inl rfl)
    | stopped => exact .unhandled rfl (.inr rfl)
    | stopping => exact .unchanged _
  | autoTaskRunning =>
    cases state with
    | normalMoving => exact .task rfl rfl (.inl rfl)
    | resuming => exact .task rfl rfl (.inr (.inl rfl))
    | pausing => exact .task rfl rfl (.inr (.inr rfl))
    | paused => exact .paused rfl rfl
    | _ => exact .unchanged _

/-- A cycle of the task, in the four states in which it runs. -/
theorem task_cycle_cases {r : AutoTaskRunner K} {task : AutoTask K} (ht : r.currTask = some task)
    (hd : r.dominState = .autoTaskRunning) :
    (r.state = .normalMoving → CycleCase r sh inp (r.normalMoving sh inp task)) ∧
    (r.state = .pausing → CycleCase r sh inp (r.pausing sh inp task)) ∧
    (r.state = .resuming → CycleCase r sh inp (r.resuming sh inp task)) ∧
    (r.state = .stopping → CycleCase r sh inp (r.stopping sh inp task)) := by
  refine ⟨fun hs => ?_, fun hs => ?_, fun hs => ?_, fun hs => ?_⟩
  · simp only [normalMoving]
    split
    · exact .taskRuns .pausing ht hd (by simp [hs]) (by simp)
    · split
      · exact .taskRuns .stopping ht hd (by simp [hs]) (by simp)
      · exact .taskRuns r.state ht hd (by simp [hs]) (by simp [hs])
  · simp only [pausing]
    split
    · rename_i hp
      exact .taskPaused ht hd hs hp
    · split
      · exact .taskRuns .stopping ht hd (by simp [hs]) (by simp)
      · split
        · exact .taskRuns .resuming ht hd (by simp [hs]) (by simp)
        · exact .taskRuns r.state ht hd (by simp [hs]) (by simp [hs])
  · simp only [resuming]
    split
    · exact .taskResumed .normalMoving ht hd hs (by simp)
    · split
      · exact .taskResumed .stopping ht hd hs (by simp)
      · split
        · exact .taskRuns .pausing ht hd (by simp [hs]) (by simp)
        · exact .taskRuns r.state ht hd (by simp [hs]) (by simp [hs])
  · simp only [stopping]
    split
    · rename_i hp
      exact .taskStopped ht hd hs hp
    · exact .taskRuns r.state ht hd (by simp [hs]) (by simp [hs])

theorem recovery_cycle_cases {r : AutoTaskRunner K} {task : AutoTask K}
    (ht : r.currTask = some task) (hd : r.dominState = .pauseMoveRecoverRunning) :
    CycleCase r sh inp (r.dominatedStatePmrecoveringRunOnce sh inp task) := by
  unfold dominatedStatePmrecoveringRunOnce
  split
  · rename_i hs
    simp only
    split
    · rename_i hp
      exact .recoveryBroken hd hs hp
    · split
      · rename_i hp
        split
        · rename_i hr
          exact .recovered ht hd hs hp hr
        · rename_i hr
          exact .resumeRefused ht hd hs hp (Bool.eq_false_of_not_eq_true hr)
      · rename_i hp
        exact .recovers hd (.inl ⟨hs, hp⟩)
  · rename_i hs
    simp only
    split
    · rename_i hp
      exact .recoveryPaused hd hs hp
    · rename_i hp
      exact .recovers hd (.inr (.inl ⟨hs, hp⟩))
  · exact .unchanged
  · rename_i hs
    simp only
    split
    · rename_i hp
      exact .recoveryStopped hd hs hp
    · exact .recovers hd (.inr (.inr hs))
  · rename_i hs
    exact .unhandled hd (.inl hs)
  · rename_i hs
    exact .unhandled hd (.inr hs)

theorem runOnce_cases : CycleCase r sh inp (r.runOnce sh inp) := by
  unfold runOnce
  split
  · exact .unchanged
  · rename_i task ht
    split
    · rename_i hd
      exact recovery_cycle_cases sh inp ht hd
    · rename_i hd
      have h := task_cycle_cases sh inp ht hd
      split
      · rename_i hs
        exact h.1 hs
      · rename_i hs
        exact h.2.1 hs
      · rename_i hs
        exact .paused hd hs
      · rename_i hs
        exact h.2.2.1 hs
      · rename_i hs
        exact h.2.2.2 hs
      · exact .unchanged

end AutoTaskRunner

end Edm
