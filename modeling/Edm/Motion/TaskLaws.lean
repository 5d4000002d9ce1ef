import Edm.Motion.Commands

/-!
# What every task obeys

The runner knows its task through the operations of `AutoTask` only. The laws the results about the
runner use are proved here, once for each kind of task: no operation of a task raises a signal, runs
into an unhandled case or sets a jump parameter (`Quiet`), `resume` succeeds on a paused task, and resuming does not
move the axes.
-/

set_option linter.unusedSectionVars false

namespace Edm

variable {K : Type}

/-- From `sh` to `sh'` no signal was raised, no unhandled case reached and no jump parameter set. -/
structure Quiet (sh sh' : MotionShared K) : Prop where
  signalBuffer : sh'.signalBuffer = sh.signalBuffer
  fault : sh'.fault = sh.fault
  jumpParam : sh'.jumpParam = sh.jumpParam

theorem Quiet.refl (sh : MotionShared K) : Quiet sh sh := ⟨rfl, rfl, rfl⟩

theorem Quiet.trans {a b c : MotionShared K} (h : Quiet a b) (h' : Quiet b c) : Quiet a c :=
  ⟨h'.1.trans h.1, h'.2.trans h.2, h'.3.trans h.3⟩

theorem MotionShared.runDetectOnce_quiet (sh : MotionShared K) (inp : CycleInput K) :
    Quiet sh (sh.runDetectOnce inp).1 := ⟨rfl, rfl, rfl⟩

variable [Field K] [LinearOrder K] [FloorRing K] [RealFns K] [Settings]

namespace G01AutoTask

variable (t : G01AutoTask K) (sh : MotionShared K) (inp : CycleInput K)

theorem multiSend_quiet (on : Bool) : Quiet sh (t.multiSend sh inp on).2 := by
  unfold multiSend
  split <;> exact ⟨rfl, rfl, rfl⟩

theorem servoSubstateJumpuping_quiet : Quiet sh (t.servoSubstateJumpuping sh inp).2 := by
  have h := multiSend_quiet { t with jumpPmHandler := t.jumpPmHandler.runOnce }
    (sh.setGlobalCmdAxis t.jumpPmHandler.runOnce.currPos) inp false
  simp only [servoSubstateJumpuping]
  split <;> exact ⟨h.1, h.2, h.3⟩

theorem servoSubstateJumpdowning_quiet : Quiet sh (t.servoSubstateJumpdowning sh inp).2 := by
  have h := multiSend_quiet { t with jumpPmHandler := t.jumpPmHandler.runOnce }
    (sh.setGlobalCmdAxis t.jumpPmHandler.runOnce.currPos) inp true
  simp only [servoSubstateJumpdowning]
  split <;> exact ⟨h.1, h.2, h.3⟩

theorem servoSubstateJumpdowningbuffer_quiet :
    Quiet sh (t.servoSubstateJumpdowningbuffer sh inp).2 := by
  simp only [servoSubstateJumpdowningbuffer]
  split
  · split <;> exact ⟨rfl, rfl, rfl⟩
  · exact ⟨rfl, rfl, rfl⟩

theorem servoingCheckAndPlanJump_quiet : Quiet sh (t.servoingCheckAndPlanJump sh inp).2.1 := by
  simp only [servoingCheckAndPlanJump]
  repeat' split
  all_goals exact ⟨rfl, rfl, rfl⟩

theorem servoSubstateServoing_quiet : Quiet sh (t.servoSubstateServoing sh inp).2 := by
  have h := servoingCheckAndPlanJump_quiet t sh inp
  simp only [servoSubstateServoing]
  split
  · exact h
  · split <;> exact ⟨h.1, h.2, h.3⟩

theorem statePausingOrStopping_quiet {target : State} (ht : target = .paused ∨ target = .stopped) :
    Quiet sh (t.statePausingOrStopping sh inp target).2 := by
  unfold statePausingOrStopping
  cases t.pauseOrStopSubState with
  | waitingForJumpEnd =>
    cases t.servoSubState with
    | servoing => exact ⟨rfl, rfl, rfl⟩
    | jumpUping => exact t.servoSubstateJumpuping_quiet sh inp
    | jumpDowning => exact t.servoSubstateJumpdowning_quiet sh inp
    | jumpDowningBuffer => exact t.servoSubstateJumpdowningbuffer_quiet sh inp
  | backingToBegin =>
    rcases ht with rfl | rfl
    · simp only [backToBeginWhenPause]
      simp only [reduceCtorEq, false_and, if_false, Bool.not_false, and_self, if_true]
      split <;> exact ⟨rfl, rfl, rfl⟩
    · simp only [backToBeginWhenStop, Bool.not_false, and_self, if_true]
      exact ⟨rfl, rfl, rfl⟩

theorem runOnce_quiet : Quiet sh (t.runOnce sh inp).2 := by
  unfold runOnce
  cases t.state with
  | normalRunning =>
    simp only [stateNormalRunning]
    cases t.servoSubState with
    | servoing => exact t.servoSubstateServoing_quiet sh inp
    | jumpUping => exact t.servoSubstateJumpuping_quiet sh inp
    | jumpDowning => exact t.servoSubstateJumpdowning_quiet sh inp
    | jumpDowningBuffer => exact t.servoSubstateJumpdowningbuffer_quiet sh inp
  | pausing => exact t.statePausingOrStopping_quiet sh inp (.inl rfl)
  | paused => exact .refl sh
  | resuming =>
    simp only [stateResuming, backToBeginWhenPause]
    exact ⟨rfl, rfl, rfl⟩
  | stopping => exact t.statePausingOrStopping_quiet sh inp (.inr rfl)
  | stopped => exact .refl sh

end G01AutoTask

theorem G01GroupAutoTask.runOnce_quiet (t : G01GroupAutoTask K) (sh : MotionShared K) :
    Quiet sh (t.runOnce sh).2 := by
  unfold runOnce
  cases t.state with
  | normalMoving =>
    simp only [stateNormalRunning]
    split
    · exact .refl sh
    · split
      · exact .refl sh
      · split <;> exact ⟨rfl, rfl, rfl⟩
  | _ => exact .refl sh

theorem G00AutoTask.runOnce_quiet (t : G00AutoTask K) (sh : MotionShared K) (inp : CycleInput K) :
    Quiet sh (t.runOnce sh inp).2 := by
  simp only [runOnce]
  repeat' split
  all_goals exact ⟨rfl, rfl, rfl⟩

theorem G00AutoTask.runOnce_sound (t : G00AutoTask K) (sh : MotionShared K) (inp : CycleInput K)
    (h : t.pmHandler.state ≠ .notStarted) (hf : t.pmHandler.mrtWrapper.fault = false) :
    (t.runOnce sh inp).1.pmHandler.state ≠ .notStarted ∧
      (t.runOnce sh inp).1.pmHandler.mrtWrapper.fault = false := by
  have run {m : PointMoveHandler K} (h : m.state ≠ .notStarted)
      (hf : m.mrtWrapper.fault = false) :
      m.runOnce.state ≠ .notStarted ∧ m.runOnce.mrtWrapper.fault = false := by
    refine ⟨?_, by rw [m.runOnce_mrtWrapper, MoveruntimeWrapper.runOnce_fault, hf]⟩
    rcases m.runOnce_state with h' | ⟨_, h'⟩ | ⟨_, h'⟩ | ⟨_, h'⟩
    · rw [h']; exact h
    all_goals simp [h']
  simp only [runOnce]
  split
  · exact run (m := (t.pmHandler.stop true).1) (by simp [PointMoveHandler.state, PointMoveHandler.stop]) hf
  · exact run h hf

namespace DrillAutoTask

variable (t : DrillAutoTask K) (sh : MotionShared K) (inp : CycleInput K)

theorem drillingBreakthrough_quiet (servoDis : K) :
    Quiet sh (t.drillingBreakthrough sh inp servoDis).2.1 := by
  simp only [drillingBreakthrough]
  repeat' split
  all_goals exact ⟨rfl, rfl, rfl⟩

theorem drillingServo_quiet : Quiet sh (t.drillingServo sh inp).2.1 := by
  have h := t.drillingBreakthrough_quiet sh inp (UnitConverter.mmMin2bluP inp.servoCalcedSpeedMmMin)
  simp only [drillingServo]
  split
  · exact ⟨rfl, rfl, rfl⟩
  · split <;> split
    all_goals first | exact h | exact ⟨rfl, rfl, rfl⟩

theorem drillingLimit_quiet (through : Bool) : Quiet sh (t.drillingLimit sh through).2 := by
  simp only [drillingLimit]
  repeat' split
  all_goals exact ⟨rfl, rfl, rfl⟩

theorem drilling_quiet : Quiet sh (t.drilling sh inp).2 :=
  (t.drillingServo_quiet sh inp).trans (drillingLimit_quiet _ _ _)

theorem runOnce_quiet : Quiet sh (t.runOnce sh inp).2 := by
  unfold runOnce
  split
  · exact .refl sh
  · cases t.drillState with
    | touching =>
      simp only [touching]
      split <;> exact ⟨rfl, rfl, rfl⟩
    | touchedBacking =>
      simp only [touchedBacking]
      split <;> exact ⟨rfl, rfl, rfl⟩
    | drilling => exact t.drilling_quiet sh inp
    | returnBacking =>
      simp only [returnBacking]
      split <;> exact ⟨rfl, rfl, rfl⟩
    | _ => exact ⟨rfl, rfl, rfl⟩

end DrillAutoTask

namespace AutoTask

variable (t : AutoTask K) (sh : MotionShared K) (inp : CycleInput K) (imm : Bool)

theorem pause_quiet : Quiet sh (t.pause sh).2.1 := by
  cases t with
  | drill t =>
    simp only [pause, DrillAutoTask.pause]
    split <;> exact ⟨rfl, rfl, rfl⟩
  | _ => exact .refl sh

theorem resume_quiet : Quiet sh (t.resume sh).2.1 := by
  cases t with
  | drill t =>
    simp only [resume, DrillAutoTask.resume]
    split
    · exact .refl sh
    · split <;> exact ⟨rfl, rfl, rfl⟩
  | _ => exact .refl sh

theorem stop_quiet : Quiet sh (t.stop sh imm).2.1 := by
  cases t with
  | drill t => exact ⟨rfl, rfl, rfl⟩
  | _ => exact .refl sh

theorem runOnce_quiet : Quiet sh (t.runOnce sh inp).2 := by
  cases t with
  | g00 t => exact t.runOnce_quiet sh inp
  | g01 t => exact t.runOnce_quiet sh inp
  | g04 t => exact .refl sh
  | m00Fake t => exact .refl sh
  | g01Group t => exact t.runOnce_quiet sh
  | drill t => exact t.runOnce_quiet sh inp

/-- A paused task accepts `resume`. -/
theorem resume_of_isPaused (h : t.isPaused) : (t.resume sh).2.2 = true := by
  cases t with
  | g00 t =>
    simp only [isPaused, G00AutoTask.isPaused, PointMoveHandler.isPaused_iff] at h
    exact (t.pmHandler.mrtWrapper.resume_of_paused h).1
  | g01 t =>
    have h : t.state = .paused := by simpa [isPaused, G01AutoTask.isPaused] using h
    simp [resume, G01AutoTask.resume, h]
  | g04 t =>
    have h : t.state = .paused := by simpa [isPaused, G04AutoTask.isPaused] using h
    simp [resume, G04AutoTask.resume, h]
  | m00Fake t =>
    have h : t.state = .paused := by simpa [isPaused, M00FakeAutoTask.isPaused] using h
    simp [resume, M00FakeAutoTask.resume, h]
  | g01Group t =>
    have h : t.state = .paused := by simpa [isPaused, G01GroupAutoTask.isPaused] using h
    simp [resume, G01GroupAutoTask.resume, h]
  | drill t =>
    have h : t.pauseFlag = true := by simpa [isPaused, DrillAutoTask.isPaused] using h
    simp only [resume, DrillAutoTask.resume, h, Bool.not_true, Bool.false_eq_true, if_false]
    cases t.drillState <;> rfl

/-- Resuming a task does not move the axes. -/
theorem resume_globalCmdAxis : (t.resume sh).2.1.globalCmdAxis = sh.globalCmdAxis := by
  cases t with
  | drill t =>
    simp only [resume, DrillAutoTask.resume]
    split
    · rfl
    · split <;> rfl
  | _ => rfl

/-- The point move of a task was started, and no operation on it reached an unhandled case. The
other tasks carry no point move that can be paused. -/
def Sound : AutoTask K → Prop
  | g00 t => t.pmHandler.state ≠ .notStarted ∧ t.pmHandler.mrtWrapper.fault = false
  | _ => True

variable {t sh inp imm}

theorem Sound.pause (h : t.Sound) : (t.pause sh).1.Sound := by
  cases t with
  | g00 t =>
    refine ⟨?_, (t.pmHandler.mrtWrapper.pause_fault h.1).trans h.2⟩
    show t.pmHandler.mrtWrapper.pause.1.state ≠ .notStarted
    rcases t.pmHandler.mrtWrapper.pause_state with ⟨_, h' | ⟨h', _⟩⟩ | ⟨_, h', _⟩
    · simp [h']
    · simp [h']
    · rw [h']; exact h.1
  | _ => trivial

theorem Sound.resume (h : t.Sound) : (t.resume sh).1.Sound := by
  cases t with
  | g00 t =>
    refine ⟨?_, (MoveruntimeWrapper.resume_fault).trans h.2⟩
    show t.pmHandler.mrtWrapper.resume.1.state ≠ .notStarted
    by_cases hp : t.pmHandler.mrtWrapper.state = .paused
    · rcases (t.pmHandler.mrtWrapper.resume_of_paused hp).2 with h' | h' <;> simp [h']
    · rw [t.pmHandler.mrtWrapper.resume_of_not_paused hp]; exact h.1
  | _ => trivial

theorem Sound.stop (h : t.Sound) : (t.stop sh imm).1.Sound := by
  cases t with
  | g00 t =>
    refine ⟨?_, (MoveruntimeWrapper.stop_fault).trans h.2⟩
    show (t.pmHandler.mrtWrapper.stop imm).1.state ≠ .notStarted
    rcases t.pmHandler.mrtWrapper.stop_state imm with h' | h' | ⟨h', _⟩
    · simp [h']
    · simp [h']
    · exact absurd h' h.1
  | _ => trivial

theorem Sound.runOnce (h : t.Sound) : (t.runOnce sh inp).1.Sound := by
  cases t with
  | g00 t => exact t.runOnce_sound sh inp h.1 h.2
  | _ => trivial

/-- A task fresh from its constructor is sound unless it is over. -/
theorem build_sound {ts : TaskStart K} (h : (ts.build sh).1.isOver = false) :
    (ts.build sh).1.Sound := by
  cases ts with
  | g00 sp target touch =>
    refine ⟨fun hs => ?_, MoveruntimeWrapper.start_fault⟩
    simp only [TaskStart.build, isOver, isStopped, G00AutoTask.isStopped] at h
    rw [PointMoveHandler.isStopped_iff.mpr (.inr hs)] at h
    exact absurd h (by simp)
  | _ => trivial

theorem build_quiet (ts : TaskStart K) : Quiet sh (ts.build sh).2 := by
  cases ts with
  | g01Group items =>
    simp only [TaskStart.build, G01GroupAutoTask.new]
    split <;> exact .refl sh
  | _ => exact ⟨rfl, rfl, rfl⟩

end AutoTask

end Edm
