import Edm.Motion.TaskLaws
import Edm.Motion.RunnerCases

/-!
# The nested states of the task runner stay consistent

The runner's own state, its dominating state, the state of the task and that of the pause-move
controller must fit together. `Consistent` says which combinations are reached. Every operation keeps
it (`step_consistent`), so in every run no unhandled case is reached, a recovery shows only the four
states meant for it, and the task behind a pause is always one that can be resumed.
-/

set_option linter.unusedSectionVars false

namespace Edm

open MoveruntimeWrapper (State)

variable {K : Type} [Field K] [LinearOrder K]

namespace PauseMoveController

/-- What the controller is doing while the runner shows `state` during a recovery. -/
def InRecovery (c : PauseMoveController K) : MotionAutoState → Prop
  | .normalMoving =>
    (c.state = .recovering ∧ c.pmHandler.state ≠ .notStarted) ∨ c.state = .recorverOver
  | .pausing =>
    c.state = .recoveringPausing ∧ (c.pmHandler.state = .pausing ∨ c.pmHandler.state = .paused)
  | .paused => c.state = .recoveringPaused ∧ c.pmHandler.state = .paused
  | .stopping => c.state = .outSideStopping ∨ c.state = .outSideOrErrorStopped
  | .resuming => False
  | .stopped => False

/-- What the controller is doing while the task is paused and no recovery runs. -/
def InPause (c : PauseMoveController K) : Prop :=
  c.state = .allowManualPointMove ∨ c.state = .manualPointMoving ∨
    c.state = .outSideOrErrorStopped

/-- No point move of the controller ran into an unhandled case. -/
def NoFault (c : PauseMoveController K) : Prop := c.pmHandler.mrtWrapper.fault = false

variable {c : PauseMoveController K}

theorem init_inPause : c.init.InPause := .inl rfl

theorem NoFault.init (h : c.NoFault) : c.init.NoFault := h

variable [FloorRing K] [RealFns K] [Settings] {sh : MotionShared K} {inp : CycleInput K}
  {imm : Bool}

theorem NoFault.runOnce (h : c.NoFault) : (c.runOnce sh inp).1.NoFault := by
  have run {m : PointMoveHandler K} (h : m.mrtWrapper.fault = false) :
      m.runOnce.mrtWrapper.fault = false := by
    rw [m.runOnce_mrtWrapper, MoveruntimeWrapper.runOnce_fault, h]
  unfold PauseMoveController.runOnce
  cases c.state with
  | manualPointMoving =>
    simp only [manualPointmoving]
    split
    · split <;> exact h
    · split <;> exact run h
  | recovering =>
    simp only [recovering]
    split
    · split
      · exact h
      · exact MoveruntimeWrapper.start_fault.trans h
    · exact run h
  | recoveringPausing =>
    simp only [recoveringPausing]
    split
    · exact h
    · exact run h
  | outSideStopping =>
    simp only [outsideStopping]
    split
    · exact h
    · exact run h
  | _ => exact h

theorem InPause.runOnce (h : c.InPause) : (c.runOnce sh inp).1.InPause := by
  rcases h with h | h | h
  · simp [PauseMoveController.runOnce, h, InPause]
  · simp only [PauseMoveController.runOnce, h, manualPointmoving]
    split
    · split <;> exact .inl rfl
    · exact .inr (.inl rfl)
  · simp [PauseMoveController.runOnce, h, InPause]

/-- A cycle of the recovery proper: it goes on or is over. -/
theorem InRecovery.runOnce_normalMoving (h : c.InRecovery .normalMoving) (sh : MotionShared K)
    (inp : CycleInput K) :
    (c.runOnce sh inp).1.InRecovery .normalMoving := by
  rcases h with ⟨h, hs⟩ | h
  · simp only [PauseMoveController.runOnce, h, recovering]
    split
    · split
      · exact .inr rfl
      · rename_i seg rest _
        refine .inl ⟨rfl, ?_⟩
        rcases c.pmHandler.start_cases seg.data seg.stop seg.start with ⟨_, h', _⟩ | ⟨_, h', _⟩
        · simp only [h', ne_eq, reduceCtorEq, not_false_eq_true]
        · rw [h']; exact hs
    · refine .inl ⟨rfl, ?_⟩
      rcases c.pmHandler.runOnce_state with h' | ⟨_, h'⟩ | ⟨_, h'⟩ | ⟨_, h'⟩
      · rw [h']; exact hs
      all_goals simp [h']
  · exact .inr (by simp [PauseMoveController.runOnce, h])

/-- A cycle of a recovery that is being paused: the wait for the point move goes on or ends. -/
theorem InRecovery.runOnce_pausing (h : c.InRecovery .pausing) (sh : MotionShared K)
    (inp : CycleInput K) :
    (c.runOnce sh inp).1.InRecovery .pausing ∨ (c.runOnce sh inp).1.InRecovery .paused := by
  obtain ⟨h, hs⟩ := h
  simp only [PauseMoveController.runOnce, h, recoveringPausing]
  split
  · rename_i hp
    exact .inr ⟨rfl, PointMoveHandler.isPaused_iff.mp hp⟩
  · refine .inl ⟨rfl, ?_⟩
    rcases c.pmHandler.runOnce_state with h' | ⟨hr, _⟩ | ⟨_, h'⟩ | ⟨hr, _⟩
    · rw [h']; exact hs
    · simp [hr] at hs
    · exact .inr h'
    · simp [hr] at hs

theorem InRecovery.runOnce_stopping (h : c.InRecovery .stopping) :
    (c.runOnce sh inp).1.InRecovery .stopping := by
  rcases h with h | h
  · simp only [PauseMoveController.runOnce, h, outsideStopping]
    split
    · exact .inr rfl
    · exact .inl rfl
  · exact .inr (by simp [PauseMoveController.runOnce, h])

theorem pauseRecover_inRecovery (h : c.InRecovery .normalMoving) :
    (c.pauseRecover.2 = true ∧ c.pauseRecover.1.InRecovery .pausing) ∨
    (c.pauseRecover.2 = false ∧ c.pauseRecover.1.InRecovery .normalMoving) := by
  rcases h with ⟨h, hs⟩ | h
  · simp only [pauseRecover, h, reduceCtorEq, or_self, if_false, ne_eq, not_true_eq_false]
    rcases c.pmHandler.pause_state with ⟨_, h' | ⟨h', hr⟩⟩ | ⟨_, h', hr⟩
    · split
      · exact .inr ⟨rfl, .inl ⟨rfl, by simp [h']⟩⟩
      · exact .inl ⟨rfl, rfl, .inr h'⟩
    · simp only [hr, Bool.not_true, Bool.false_eq_true, if_false]
      exact .inl ⟨trivial, rfl, .inl h'⟩
    · split
      · exact .inr ⟨rfl, .inl ⟨rfl, by rw [h']; exact hs⟩⟩
      · rename_i hp
        refine .inl ⟨rfl, rfl, ?_⟩
        simpa only [h'] using hr.mp (by simpa using hp)
  · refine .inr ?_
    simp [pauseRecover, h, InRecovery]

theorem NoFault.pauseRecover (hc : c.InRecovery .normalMoving) (h : c.NoFault) :
    c.pauseRecover.1.NoFault := by
  rcases hc with ⟨hc, hs⟩ | hc
  · simp only [PauseMoveController.pauseRecover, hc, reduceCtorEq, or_self, if_false, ne_eq,
      not_true_eq_false]
    have := (c.pmHandler.mrtWrapper.pause_fault hs).trans h
    split <;> exact this
  · simpa [PauseMoveController.pauseRecover, hc, NoFault] using h

theorem resumeRecover_inRecovery (h : c.InRecovery .paused) :
    c.resumeRecover.2 = true ∧ c.resumeRecover.1.InRecovery .normalMoving := by
  obtain ⟨h, hs⟩ := h
  obtain ⟨hr, hs'⟩ := c.pmHandler.resume_state hs
  simp only [resumeRecover, h, hr, reduceCtorEq, or_self, if_false, ne_eq, not_true_eq_false,
    Bool.not_true, Bool.false_eq_true, true_and]
  refine .inl ⟨rfl, ?_⟩
  rcases hs' with h' | h' <;> simp [h']

theorem NoFault.resumeRecover (h : c.NoFault) : c.resumeRecover.1.NoFault := by
  have : c.pmHandler.resume.1.mrtWrapper.fault = false := MoveruntimeWrapper.resume_fault.trans h
  simp only [PauseMoveController.resumeRecover]
  repeat' split
  all_goals first | exact h | exact this

theorem stop_inRecovery {st : MotionAutoState} (imm : Bool) (h : c.InRecovery st) :
    (c.stop imm).2 = true ∧ (c.stop imm).1.InRecovery .stopping := by
  cases st with
  | normalMoving => rcases h with ⟨h, _⟩ | h <;> simp [PauseMoveController.stop, h, InRecovery]
  | pausing => obtain ⟨h, _⟩ := h; simp [PauseMoveController.stop, h, InRecovery]
  | paused => obtain ⟨h, _⟩ := h; simp [PauseMoveController.stop, h, InRecovery]
  | stopping => rcases h with h | h <;> simp [PauseMoveController.stop, h, InRecovery]
  | resuming => exact h.elim
  | stopped => exact h.elim

theorem NoFault.stop (h : c.NoFault) : (c.stop imm).1.NoFault := by
  have : (c.pmHandler.stop imm).1.mrtWrapper.fault = false := MoveruntimeWrapper.stop_fault.trans h
  unfold PauseMoveController.stop
  cases c.state <;> first | exact h | exact this

/-- From a pause a recovery starts or, when its first move cannot be planned, does not. -/
theorem activateRecover_inRecovery (h : c.InPause) :
    (c.activateRecover.2 = true ∧ c.activateRecover.1.InRecovery .normalMoving) ∨
    (c.activateRecover.2 = false ∧ c.activateRecover.1.InPause) := by
  by_cases hm : c.state = .manualPointMoving
  · exact .inr (by simp [activateRecover, hm, InPause])
  have hr : ¬(c.state = .recovering ∨ c.state = .recorverOver) := by
    rcases h with h | h | h <;> simp [h]
  have hp : c.state ≠ .recoveringPaused := by rcases h with h | h | h <;> simp [h]
  simp only [activateRecover, if_neg hm, if_neg hr, if_neg hp]
  split
  · exact .inl ⟨rfl, .inr rfl⟩
  · rename_i seg rest _
    rcases c.pmHandler.start_cases seg.data seg.stop seg.start with ⟨h1, h2, _⟩ | ⟨h1, _, _⟩
    · simp only [h1, Bool.not_true, Bool.false_eq_true, if_false]
      exact .inl ⟨trivial, .inl ⟨rfl, by simp [h2]⟩⟩
    · simp only [h1, Bool.not_false, if_true]
      exact .inr ⟨trivial, .inr (.inr rfl)⟩

theorem NoFault.activateRecover (h : c.NoFault) : c.activateRecover.1.NoFault := by
  unfold PauseMoveController.activateRecover
  split
  · exact h
  · split
    · exact h
    · split
      · exact h.resumeRecover
      · split
        · exact h
        · simp only
          split <;> exact MoveruntimeWrapper.start_fault.trans h

variable {sp : MoveRuntimePlanSpeedInput K} {startPos targetPos : Axis K}

theorem InPause.startManualPointmove (h : c.InPause) :
    (c.startManualPointmove sh sp startPos targetPos).1.InPause := by
  simp only [PauseMoveController.startManualPointmove]
  repeat' split
  all_goals first | exact h | exact .inr (.inl rfl)

theorem NoFault.startManualPointmove (h : c.NoFault) :
    (c.startManualPointmove sh sp startPos targetPos).1.NoFault := by
  have : (c.pmHandler.start sp startPos targetPos).1.mrtWrapper.fault = false :=
    MoveruntimeWrapper.start_fault.trans h
  simp only [PauseMoveController.startManualPointmove]
  repeat' split
  all_goals first | exact h | exact this

theorem startManualPointmove_fault :
    (c.startManualPointmove sh sp startPos targetPos).2.1.fault = sh.fault := by
  simp only [PauseMoveController.startManualPointmove]
  repeat' split
  all_goals rfl

theorem InPause.stopManualPointmove (h : c.InPause) : (c.stopManualPointmove imm).1.InPause := by
  simp only [PauseMoveController.stopManualPointmove]
  split <;> exact h

theorem NoFault.stopManualPointmove (h : c.NoFault) : (c.stopManualPointmove imm).1.NoFault := by
  simp only [PauseMoveController.stopManualPointmove]
  split
  · exact h
  · exact MoveruntimeWrapper.stop_fault.trans h

theorem runOnce_fault : (c.runOnce sh inp).2.fault = sh.fault := by
  unfold PauseMoveController.runOnce
  cases c.state with
  | manualPointMoving =>
    simp only [manualPointmoving]
    repeat' split
    all_goals rfl
  | recovering =>
    simp only [recovering]
    repeat' split
    all_goals rfl
  | recoveringPausing =>
    simp only [recoveringPausing]
    split <;> rfl
  | outSideStopping =>
    simp only [outsideStopping]
    split <;> rfl
  | _ => rfl

end PauseMoveController

namespace AutoTaskRunner

/-- The combinations of states that are reached. -/
structure Consistent (r : AutoTaskRunner K) (sh : MotionShared K) : Prop where
  fault : sh.fault = false
  noFault : r.pausemoveController.NoFault
  sound : ∀ t, r.currTask = some t → t.Sound
  recovery : r.dominState = .pauseMoveRecoverRunning →
    r.pausemoveController.InRecovery r.state ∧ ∃ t, r.currTask = some t ∧ t.isPaused
  paused : r.dominState = .autoTaskRunning → r.state = .paused →
    r.pausemoveController.InPause ∧ ∃ t, r.currTask = some t ∧ t.isPaused

variable {r : AutoTaskRunner K} {sh : MotionShared K}

/-- A runner in the hands of its task, and not paused, needs nothing of its other states. -/
theorem Consistent.ofTask (hf : sh.fault = false) (hn : r.pausemoveController.NoFault)
    (hs : ∀ t, r.currTask = some t → t.Sound) (hd : r.dominState = .autoTaskRunning)
    (hp : r.state ≠ .paused) : r.Consistent sh where
  fault := hf
  noFault := hn
  sound := hs
  recovery h := by simp [hd] at h
  paused _ h := absurd h hp

theorem new_consistent (hf : sh.fault = false) : (new (K := K)).Consistent sh :=
  .ofTask hf rfl (fun _ h => by simp [new] at h) rfl (by simp [new])

/-- Changes of the shared data outside the runner do not matter. -/
theorem Consistent.shared {sh' : MotionShared K} (h : r.Consistent sh)
    (hf : sh'.fault = sh.fault) : r.Consistent sh' :=
  { h with fault := hf.trans h.fault }

variable [FloorRing K] [RealFns K] [Settings] {inp : CycleInput K} {imm : Bool}

theorem Consistent.restartTask (h : r.Consistent sh) {task : AutoTask K} (ht : task.Sound) :
    (r.restartTask task).1.Consistent sh :=
  .ofTask h.fault h.noFault (fun _ h' => Option.some.inj h' ▸ ht) rfl
    (by simp [AutoTaskRunner.restartTask])

/-- A runner in a recovery, with a task it can hand back to. -/
theorem Consistent.ofRecovery (hf : sh.fault = false) (hn : r.pausemoveController.NoFault)
    (hs : ∀ t, r.currTask = some t → t.Sound) (hd : r.dominState = .pauseMoveRecoverRunning)
    (hr : r.pausemoveController.InRecovery r.state)
    (hp : ∃ t, r.currTask = some t ∧ t.isPaused) : r.Consistent sh where
  fault := hf
  noFault := hn
  sound := hs
  recovery _ := ⟨hr, hp⟩
  paused h := by simp [hd] at h

theorem Consistent.ofPause (hf : sh.fault = false) (hn : r.pausemoveController.NoFault)
    (hs : ∀ t, r.currTask = some t → t.Sound) (hd : r.dominState = .autoTaskRunning)
    (hr : r.pausemoveController.InPause)
    (hp : ∃ t, r.currTask = some t ∧ t.isPaused) : r.Consistent sh where
  fault := hf
  noFault := hn
  sound := hs
  recovery h := by simp [hd] at h
  paused _ _ := ⟨hr, hp⟩

/-- The two states no recovery shows are not reached in one. -/
theorem Consistent.handled (h : r.Consistent sh) (hd : r.dominState = .pauseMoveRecoverRunning)
    (hs : r.state = .resuming ∨ r.state = .stopped) : False := by
  have hr := (h.recovery hd).1
  rcases hs with hs | hs <;> rw [hs] at hr <;> exact hr

theorem Consistent.pause (h : r.Consistent sh) :
    (r.pause sh).1.Consistent (r.pause sh).2.1 := by
  rcases hc : r.pause sh with ⟨r', sh', ret⟩
  have hcase := hc ▸ r.pause_cases sh
  cases hcase with
  | unchanged => exact h
  | unhandled hd hs => exact (h.handled hd hs).elim
  | recovery hd hs =>
    obtain ⟨hr, hp⟩ := h.recovery hd
    rw [hs] at hr
    refine .ofRecovery h.fault (h.noFault.pauseRecover hr) h.sound hd ?_ hp
    rcases r.pausemoveController.pauseRecover_inRecovery hr with ⟨h1, h2⟩ | ⟨h1, h2⟩
    · simpa [h1] using h2
    · simpa [h1] using h2
  | task ht hd hs =>
    refine .ofTask ((AutoTask.pause_quiet _ sh).fault.trans h.fault) h.noFault
      (fun _ h' => Option.some.inj h' ▸ (h.sound _ ht).pause) hd ?_
    rcases hs with hs | hs <;> simp only [hs] <;> split <;> simp

theorem Consistent.resume (h : r.Consistent sh) :
    (r.resume sh).1.Consistent (r.resume sh).2.1 := by
  rcases hc : r.resume sh with ⟨r', sh', ret⟩
  have hcase := hc ▸ r.resume_cases sh
  cases hcase with
  | unchanged => exact h
  | unhandled hd hs => exact (h.handled hd hs).elim
  | recovery hd hs =>
    obtain ⟨hr, hp⟩ := h.recovery hd
    rw [hs] at hr
    exact .ofRecovery h.fault h.noFault.resumeRecover h.sound hd
      (r.pausemoveController.resumeRecover_inRecovery hr).2 hp
  | recoveryRefused hd hs hr' =>
    obtain ⟨hr, hp⟩ := h.recovery hd
    rw [hs] at hr
    rw [(r.pausemoveController.resumeRecover_inRecovery hr).1] at hr'
    exact absurd hr' (by simp)
  | activate hd hs hr' =>
    obtain ⟨hr, hp⟩ := h.paused hd hs
    rcases r.pausemoveController.activateRecover_inRecovery hr with ⟨_, h2⟩ | ⟨h1, _⟩
    · exact .ofRecovery h.fault h.noFault.activateRecover h.sound rfl h2 hp
    · exact absurd (h1.symm.trans hr') (by simp)
  | activateRefused hd hs hr' =>
    obtain ⟨hr, hp⟩ := h.paused hd hs
    rcases r.pausemoveController.activateRecover_inRecovery hr with ⟨h1, _⟩ | ⟨_, h2⟩
    · exact absurd (h1.symm.trans hr') (by simp)
    · exact .ofPause h.fault h.noFault.activateRecover h.sound hd h2 hp

theorem Consistent.stop (h : r.Consistent sh) (imm : Bool) :
    (r.stop sh imm).1.Consistent (r.stop sh imm).2.1 := by
  rcases hc : r.stop sh imm with ⟨r', sh', ret⟩
  have hcase := hc ▸ r.stop_cases sh imm
  cases hcase with
  | unchanged => exact h
  | unhandled hd hs => exact (h.handled hd hs).elim
  | recovery hd hs =>
    obtain ⟨hr, hp⟩ := h.recovery hd
    obtain ⟨h1, h2⟩ := r.pausemoveController.stop_inRecovery imm hr
    exact .ofRecovery h.fault h.noFault.stop h.sound hd (by simpa [h1] using h2) hp
  | task ht hd hs =>
    refine .ofTask ((AutoTask.stop_quiet _ sh imm).fault.trans h.fault) h.noFault
      (fun _ h' => Option.some.inj h' ▸ (h.sound _ ht).stop) hd ?_
    rcases hs with hs | hs | hs <;> simp only [hs] <;> split <;> simp
  | paused hd hs => exact .ofTask h.fault h.noFault h.sound hd (by simp)

theorem Consistent.startManualPointmove (h : r.Consistent sh) (sp : MoveRuntimePlanSpeedInput K)
    (startPos targetPos : Axis K) :
    (r.startManualPointmove sh sp startPos targetPos).1.Consistent
      (r.startManualPointmove sh sp startPos targetPos).2.1 := by
  simp only [AutoTaskRunner.startManualPointmove]
  split
  · exact h
  · rename_i hc
    push Not at hc
    obtain ⟨hr, hp⟩ := h.paused hc.2 hc.1
    exact .ofPause (PauseMoveController.startManualPointmove_fault.trans h.fault)
      h.noFault.startManualPointmove h.sound hc.2 hr.startManualPointmove hp

theorem Consistent.stopManualPointmove (h : r.Consistent sh) (imm : Bool) :
    (r.stopManualPointmove imm).1.Consistent sh := by
  simp only [AutoTaskRunner.stopManualPointmove]
  split
  · exact h
  · rename_i hc
    push Not at hc
    obtain ⟨hr, hp⟩ := h.paused hc.2 hc.1
    exact .ofPause h.fault h.noFault.stopManualPointmove h.sound hc.2 hr.stopManualPointmove hp

/-- A cycle of the task keeps it sound, and tasks reach no unhandled case. -/
theorem Consistent.taskCycle (h : r.Consistent sh) (inp : CycleInput K) {task : AutoTask K}
    (ht : r.currTask = some task) :
    (task.runOnce sh inp).2.fault = false ∧
    ∀ t, some (task.runOnce sh inp).1 = some t → t.Sound :=
  ⟨(task.runOnce_quiet sh inp).fault.trans h.fault,
    fun _ h' => Option.some.inj h' ▸ (h.sound task ht).runOnce⟩

theorem Consistent.runOnce (h : r.Consistent sh) (inp : CycleInput K) :
    (r.runOnce sh inp).1.Consistent (r.runOnce sh inp).2 := by
  rcases hc : r.runOnce sh inp with ⟨r', sh'⟩
  have hcase := hc ▸ r.runOnce_cases sh inp
  have hf : (r.pausemoveController.runOnce sh inp).2.fault = false :=
    PauseMoveController.runOnce_fault.trans h.fault
  cases hcase with
  | unchanged => exact h
  | unhandled hd hs => exact (h.handled hd hs).elim
  | taskRuns st ht hd hs hst =>
    obtain ⟨h1, h2⟩ := h.taskCycle inp ht
    exact .ofTask h1 h.noFault h2 hd hst.1
  | taskResumed st ht hd hs hst =>
    obtain ⟨h1, h2⟩ := h.taskCycle inp ht
    exact .ofTask h1 h.noFault h2 hd hst.1
  | taskPaused ht hd hs hp =>
    obtain ⟨h1, h2⟩ := h.taskCycle inp ht
    exact .ofPause h1 h.noFault.init h2 hd PauseMoveController.init_inPause ⟨_, rfl, hp⟩
  | taskStopped ht hd hs hp =>
    obtain ⟨h1, h2⟩ := h.taskCycle inp ht
    exact .ofTask h1 h.noFault h2 hd (by simp)
  | paused hd hs =>
    obtain ⟨hr, hp⟩ := h.paused hd hs
    exact .ofPause hf h.noFault.runOnce h.sound hd hr.runOnce hp
  | recovers hd hs =>
    obtain ⟨hr, hp⟩ := h.recovery hd
    refine .ofRecovery hf h.noFault.runOnce h.sound hd ?_ hp
    rcases hs with ⟨hs, _⟩ | ⟨hs, hn⟩ | hs <;> simp only [hs] at hr ⊢
    · exact hr.runOnce_normalMoving sh inp
    · rcases hr.runOnce_pausing sh inp with h' | h'
      · exact h'
      · exact absurd (by simp [PauseMoveController.isRecoverPaused, h'.1]) hn
    · exact hr.runOnce_stopping
  | recovered ht hd hs hp hr' =>
    refine .ofTask ((AutoTask.resume_quiet _ _).fault.trans hf) h.noFault.runOnce
      (fun _ h' => Option.some.inj h' ▸ (h.sound _ ht).resume) rfl (by simp)
  | resumeRefused ht hd hs hp hr' =>
    obtain ⟨_, t, ht', hpt⟩ := h.recovery hd
    obtain rfl : _ = t := Option.some.inj (ht.symm.trans ht')
    exact Bool.noConfusion ((AutoTask.resume_of_isPaused _ _ hpt).symm.trans hr')
  | recoveryPaused hd hs hp =>
    obtain ⟨hr, hpt⟩ := h.recovery hd
    rw [hs] at hr
    refine .ofRecovery hf h.noFault.runOnce h.sound hd ?_ hpt
    rcases hr.runOnce_pausing sh inp with h' | h'
    · simp [PauseMoveController.isRecoverPaused, h'.1] at hp
    · exact h'
  | recoveryBroken hd hs hp =>
    obtain ⟨hr, hpt⟩ := h.recovery hd
    rw [hs] at hr
    rcases hr.runOnce_normalMoving sh inp with h' | h'
    · simp [PauseMoveController.isStopped, h'.1] at hp
    · simp [PauseMoveController.isStopped, h'] at hp
  | recoveryStopped hd hs hp =>
    exact .ofTask hf h.noFault.runOnce h.sound rfl (by simp)

end AutoTaskRunner

namespace RunnerSystem

variable [FloorRing K] [RealFns K] [Settings]

theorem start_consistent {s : RunnerSystem K} (h : s.runner.Consistent s.shared)
    (ts : TaskStart K) : (s.start ts).runner.Consistent (s.start ts).shared := by
  have hf : (ts.build s.shared).2.fault = s.shared.fault := (AutoTask.build_quiet ts).fault
  simp only [start]
  split
  · exact h.shared hf
  · rename_i ho
    exact (h.restartTask (AutoTask.build_sound (Bool.eq_false_of_not_eq_true ho))).shared hf

/-- Every operation keeps the states consistent. -/
theorem step_consistent {s : RunnerSystem K} (h : s.runner.Consistent s.shared) (c : Command K) :
    (s.step c).runner.Consistent (s.step c).shared := by
  cases c with
  | start ts => exact start_consistent h ts
  | pause => exact h.pause
  | resume => exact h.resume
  | stop imm => exact h.stop imm
  | startManualPointmove sp target => exact h.startManualPointmove sp _ target
  | stopManualPointmove imm => exact h.stopManualPointmove imm
  | setting c => cases c <;> exact h.shared rfl
  | cycle inp => exact h.runOnce inp

theorem run_consistent (sh : MotionShared K) (cmds : List (Command K)) :
    (Machine.run step (new sh) cmds).runner.Consistent (Machine.run step (new sh) cmds).shared :=
  Machine.run_invariant (I := fun s : RunnerSystem K => s.runner.Consistent s.shared)
    (fun _ c hs => step_consistent hs c) (AutoTaskRunner.new_consistent rfl) cmds

/-- In every state a runner reaches: no unhandled case has been met; a recovery shows one of its
four states, and while it is being paused its point move is slowing down or has come to rest; the
task behind a pause can be resumed; and the cycle that finds a recovery over hands control back. -/
theorem runner_states_consistent (sh : MotionShared K) (cmds : List (Command K)) :
    let s := Machine.run step (new sh) cmds
    let pmc := s.runner.pausemoveController
    (s.shared.fault = false ∧ pmc.pmHandler.mrtWrapper.fault = false ∧
      ∀ t, s.runner.currTask = some (.g00 t) → t.pmHandler.mrtWrapper.fault = false) ∧
    (s.runner.dominState = .pauseMoveRecoverRunning →
      s.runner.state = .normalMoving ∨ s.runner.state = .pausing ∨ s.runner.state = .paused ∨
        s.runner.state = .stopping) ∧
    (s.runner.dominState = .pauseMoveRecoverRunning → s.runner.state = .pausing →
      (pmc.state = .recoveringPausing ∨ pmc.state = .recoveringPaused) ∧
        (pmc.pmHandler.state = .pausing ∨ pmc.pmHandler.state = .paused)) ∧
    (s.runner.dominState = .autoTaskRunning → s.runner.state = .paused →
      ∃ t, s.runner.currTask = some t ∧ t.isPaused) ∧
    (∀ inp, s.runner.dominState = .pauseMoveRecoverRunning → s.runner.state = .normalMoving →
      (pmc.runOnce s.shared inp).1.isRecoverOver →
      (s.step (.cycle inp)).runner.dominState = .autoTaskRunning ∧
        (s.step (.cycle inp)).runner.state = .resuming) := by
  intro s pmc
  have h : s.runner.Consistent s.shared := run_consistent sh cmds
  refine ⟨⟨h.fault, h.noFault, fun t ht => (h.sound _ ht).2⟩, fun hd => ?_, fun hd hs => ?_,
    fun hd hs => (h.paused hd hs).2, fun inp hd hs hp => ?_⟩
  · have hr := (h.recovery hd).1
    cases hs : s.runner.state with
    | resuming => rw [hs] at hr; exact hr.elim
    | stopped => rw [hs] at hr; exact hr.elim
    | _ => simp
  · have hr := (h.recovery hd).1
    rw [hs] at hr
    exact ⟨.inl hr.1, hr.2⟩
  · obtain ⟨_, t, ht, hpt⟩ := h.recovery hd
    have hr := AutoTask.resume_of_isPaused t (pmc.runOnce s.shared inp).2 hpt
    have hn : (pmc.runOnce s.shared inp).1.isStopped = false := by
      simp only [PauseMoveController.isRecoverOver, decide_eq_true_eq] at hp
      simp [PauseMoveController.isStopped, hp]
    simp only [step, AutoTaskRunner.runOnce, ht, hd,
      AutoTaskRunner.dominatedStatePmrecoveringRunOnce, hs]
    simp only [pmc] at hr hp hn
    simp [hn, hp, hr]

end RunnerSystem

end Edm
