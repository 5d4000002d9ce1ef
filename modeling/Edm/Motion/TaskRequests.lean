import Edm.Motion.DrillOutputs
import Edm.Motion.TaskProgress

/-!
# What a request does to a task

A task that accepts a pause is at a halt or on its way to one (`Halting`), one that was told to stop
is stopping or stopped (`Ending`), one that was resumed goes on (`Going`). Here this is shown of
every kind of task, with what the cycles after it make of it. A pause may be refused; a rapid move
with a deceleration never refuses one while it runs, so that a refusal leaves a task that goes on
(`pause_going`).
-/

set_option linter.unusedSectionVars false

namespace Edm

open MoveruntimeWrapper (State)

variable {K : Type} [Field K] [LinearOrder K] [FloorRing K] [RealFns K] [Settings]
  [IsStrictOrderedRing K] [LawfulSqrt K]

/-! ### Point moves -/

namespace PointMoveHandler

variable {m : PointMoveHandler K} {imm : Bool} {sp : MoveRuntimePlanSpeedInput K}
  {startPos targetPos : Axis K}

@[simp] theorem runOnce_speedParam : m.runOnce.speedParam = m.speedParam := by
  rw [speedParam, runOnce_mrtWrapper, MoveruntimeWrapper.runOnce_recordSpeedParam, speedParam]

@[simp] theorem pause_speedParam : m.pause.1.speedParam = m.speedParam :=
  MoveruntimeWrapper.pause_recordSpeedParam

@[simp] theorem resume_speedParam : m.resume.1.speedParam = m.speedParam :=
  MoveruntimeWrapper.resume_recordSpeedParam

@[simp] theorem stop_speedParam : (m.stop imm).1.speedParam = m.speedParam :=
  MoveruntimeWrapper.stop_recordSpeedParam

theorem start_running (h : (m.start sp startPos targetPos).2 = true) :
    (m.start sp startPos targetPos).1.state = .running := by
  rcases m.start_cases sp startPos targetPos with ⟨_, hs, _⟩ | ⟨hr, _⟩
  · exact hs
  · exact absurd (h.symm.trans hr) (by simp)

/-- A start that succeeds takes over the given parameters, one that fails keeps the old ones. -/
theorem start_speedParam_cases (m : PointMoveHandler K) (sp : MoveRuntimePlanSpeedInput K)
    (startPos targetPos : Axis K) :
    ((m.start sp startPos targetPos).2 = true ∧
        (m.start sp startPos targetPos).1.speedParam = sp) ∨
      ((m.start sp startPos targetPos).2 = false ∧
        (m.start sp startPos targetPos).1.speedParam = m.speedParam) := by
  simp only [start, speedParam, MoveruntimeWrapper.start]
  split
  · exact .inr ⟨rfl, rfl⟩
  · exact .inl ⟨rfl, rfl⟩

theorem start_speedParam (h : (m.start sp startPos targetPos).2 = true) :
    (m.start sp startPos targetPos).1.speedParam = sp := by
  rcases m.start_speedParam_cases sp startPos targetPos with ⟨_, hsp⟩ | ⟨hr, _⟩
  · exact hsp
  · exact absurd (h.symm.trans hr) (by simp)

theorem start_brakes (m : PointMoveHandler K) (hsp : sp.dec0 < 0) (hm : m.speedParam.dec0 < 0)
    (startPos targetPos : Axis K) : (m.start sp startPos targetPos).1.speedParam.dec0 < 0 := by
  rcases m.start_speedParam_cases sp startPos targetPos with ⟨_, h⟩ | ⟨_, h⟩
  · rwa [h]
  · rwa [h]

/-- A pause that is refused lets the move go on. -/
theorem Unhalted.pause (h : m.Unhalted) (hm : m.speedParam.dec0 < 0) (hr : m.pause.2 = false) :
    m.pause.1.Unhalted := by
  rcases h with hs | ho
  · have hacc := MoveruntimeWrapper.slowDown_accepted (w := m.mrtWrapper) hm .pausing .paused
    have hs : m.mrtWrapper.state = .running := hs
    simp [PointMoveHandler.pause, MoveruntimeWrapper.pause, hs, hacc] at hr
  · rcases m.pause_state with ⟨hs, _⟩ | ⟨_, hs, _⟩
    · simp [hs] at ho
    · rw [isOver_iff] at ho
      exact .inr (isOver_iff.mpr (ho.imp hs.trans hs.trans))

theorem resume_unhalted (h : m.resume.2 = true) : m.resume.1.Unhalted := by
  by_cases hs : m.state = .paused
  · exact (m.resume_state hs).2.imp_right fun hs => isOver_iff.mpr (.inl hs)
  · have hr : m.mrtWrapper.resume = (m.mrtWrapper, false) :=
      MoveruntimeWrapper.resume_of_not_paused hs
    simp [resume, hr] at h

end PointMoveHandler

/-! ### Tasks -/

namespace G01AutoTask

variable (t : G01AutoTask K) (sh : MotionShared K) (inp : CycleInput K)

/-- A cycle on the way to a halt keeps the state until it is reached. -/
theorem statePausingOrStopping_state (target : State) :
    (t.statePausingOrStopping sh inp target).1.state = t.state ∨
      (t.statePausingOrStopping sh inp target).1.state = target := by
  unfold statePausingOrStopping
  split
  · refine .inl ?_
    split
    · dsimp only
      split <;> rfl
    · exact (t.servoSubstateJumpuping_servoStep sh inp).2
    · exact (t.servoSubstateJumpdowning_servoStep sh inp).2
    · exact (t.servoSubstateJumpdowningbuffer_servoStep sh inp).2
  · dsimp only
    split
    · rename_i hp
      exact .inr hp.1.symm
    · split
      · split
        · exact .inl rfl
        · rename_i hp _
          exact .inr hp.1.symm
      · exact .inr rfl

/-- A task that runs goes on, or arrives at the end of its line. -/
theorem stateNormalRunning_going (hs : t.state = .normalRunning) :
    (t.stateNormalRunning sh inp).1.state = .normalRunning ∨
      (t.stateNormalRunning sh inp).1.state = .stopping := by
  by_cases h : t.servoSubState = .servoing
  · simp only [stateNormalRunning, h, (t.servoSubstateServoing_servoStep sh inp).2]
    split
    · exact .inr rfl
    · exact .inl hs
  · exact .inl ((t.stateNormalRunning_state sh inp h).1.trans hs)

end G01AutoTask

theorem G01GroupAutoTask.stateNormalRunning_going (t : G01GroupAutoTask K) (sh : MotionShared K)
    (hs : t.state = .normalMoving) :
    (t.stateNormalRunning sh).1.state = .normalMoving ∨
      (t.stateNormalRunning sh).1.state = .stopped := by
  unfold stateNormalRunning
  split
  · exact .inl hs
  · split
    · exact .inl hs
    · dsimp only
      split
      · exact .inr rfl
      · exact .inl hs

theorem DrillAutoTask.runOnce_pauseFlag (t : DrillAutoTask K) (sh : MotionShared K)
    (inp : CycleInput K) (hp : t.pauseFlag = false) : (t.runOnce sh inp).1.pauseFlag = false := by
  rcases hc : t.runOnce sh inp with ⟨t', sh'⟩
  have hcase := hc ▸ t.runOnce_cases sh inp
  cases hcase with
  | rests _ => exact hp
  | prepares _ hp' _ => exact hp'
  | works _ hp' _ _ _ => exact hp'
  | ends _ hp' _ _ => exact hp'

namespace AutoTask

/-- Neither at a halt nor on the way to one. -/
def Going (t : AutoTask K) : Prop := ¬t.Halting ∧ ¬t.isStopping

/-- What a runner that shows `state` knows of its task. -/
def Fits (t : AutoTask K) : MotionAutoState → Prop
  | .pausing => t.Halting
  | .stopping => t.Ending
  | .resuming => t.Going
  | _ => True

variable {t : AutoTask K} {sh : MotionShared K} {inp : CycleInput K} {imm : Bool}

theorem halting_g04 {t : G04AutoTask} : (g04 t : AutoTask K).Halting ↔ t.state = .paused := by
  simp [Halting, isPausing, isPaused, G04AutoTask.isPaused]

theorem halting_m00Fake {t : M00FakeAutoTask} :
    (m00Fake t : AutoTask K).Halting ↔ t.state = .paused := by
  simp [Halting, isPausing, isPaused, M00FakeAutoTask.isPaused]

theorem halting_drill {t : DrillAutoTask K} : (drill t).Halting ↔ t.pauseFlag := by
  simp [Halting, isPausing, isPaused, DrillAutoTask.isPaused]

theorem going_g00 {t : G00AutoTask K} :
    (g00 t).Going ↔ t.pmHandler.state = .running ∨ t.pmHandler.isOver := by
  simp only [Going, halting_g00, isStopping, G00AutoTask.isStopping, PointMoveHandler.isStopping,
    MoveruntimeWrapper.isStopping, PointMoveHandler.isOver_iff, PointMoveHandler.state]
  cases t.pmHandler.mrtWrapper.state <;> simp

theorem going_g01 {t : G01AutoTask K} :
    (g01 t).Going ↔ t.state = .normalRunning ∨ t.state = .resuming ∨ t.state = .stopped := by
  simp only [Going, halting_g01, isStopping, G01AutoTask.isStopping]
  cases t.state <;> simp

theorem going_g01Group {t : G01GroupAutoTask K} :
    (g01Group t).Going ↔ t.state = .normalMoving ∨ t.state = .resuming ∨ t.state = .stopped := by
  simp only [Going, halting_g01Group, isStopping, G01GroupAutoTask.isStopping]
  cases t.state <;> simp

theorem going_of_isNormalRunning (h : t.isNormalRunning) : t.Going := by
  cases t with
  | g00 t =>
    exact going_g00.mpr (.inl (by
      simpa [isNormalRunning, G00AutoTask.isNormalRunning, PointMoveHandler.isNormalRunning,
        MoveruntimeWrapper.isNormalRunning, PointMoveHandler.state] using h))
  | g01 t =>
    exact going_g01.mpr (.inl (by
      simpa [isNormalRunning, G01AutoTask.isNormalRunning] using h))
  | g04 t =>
    have h : t.state = .normalDelaying := by
      simpa [isNormalRunning, G04AutoTask.isNormalRunning] using h
    simp [Going, halting_g04, isStopping, h]
  | m00Fake t => simp [isNormalRunning] at h
  | g01Group t =>
    exact going_g01Group.mpr (.inl (by
      simpa [isNormalRunning, G01GroupAutoTask.isNormalRunning] using h))
  | drill t =>
    simp only [isNormalRunning, DrillAutoTask.isNormalRunning, Bool.and_eq_true,
      Bool.not_eq_true'] at h
    simp [Going, halting_drill, isStopping, h.1]

/-- A pause that is accepted halts the task. -/
theorem pause_halting (h : (t.pause sh).2.2 = true) : (t.pause sh).1.Halting := by
  cases t with
  | g00 t =>
    refine halting_g00.mpr ?_
    rcases t.pmHandler.pause_state with ⟨_, hs | ⟨hs, _⟩⟩ | ⟨_, hs, hr⟩
    · exact .inr hs
    · exact .inl hs
    · exact (hr.mp h).imp hs.trans hs.trans
  | g01 t =>
    refine halting_g01.mpr ?_
    simp only [pause, G01AutoTask.pause] at h ⊢
    cases hs : t.state <;> simp_all
  | g04 t =>
    refine halting_g04.mpr ?_
    simp only [pause, G04AutoTask.pause] at h ⊢
    cases hs : t.state <;> simp_all
  | m00Fake t =>
    refine halting_m00Fake.mpr ?_
    simp only [pause, M00FakeAutoTask.pause] at h ⊢
    cases hs : t.state <;> simp_all
  | g01Group t =>
    refine halting_g01Group.mpr ?_
    simp only [pause, G01GroupAutoTask.pause] at h ⊢
    cases hs : t.state <;> simp_all
  | drill t =>
    refine (halting_drill (t := (t.pause sh).1)).mpr ?_
    by_cases hi : t.drillState = .idle
    · simp [pause, DrillAutoTask.pause, hi] at h
    · simp [DrillAutoTask.pause, hi]

/-- A stop, accepted or not, leaves the task stopping or stopped. -/
theorem stop_ending (t : AutoTask K) (sh : MotionShared K) (imm : Bool) :
    (t.stop sh imm).1.Ending := by
  cases t with
  | g00 t =>
    refine ending_g00.mpr ?_
    rw [PointMoveHandler.isOver_iff]
    rcases t.pmHandler.mrtWrapper.stop_state imm with hs | hs | ⟨_, hs⟩
    · exact .inl hs
    · exact .inr (.inl hs)
    · exact .inr (.inr hs)
  | g01 t =>
    refine ending_g01.mpr ?_
    show (t.stop imm).1.state = _ ∨ (t.stop imm).1.state = _
    cases hs : t.state <;> simp [G01AutoTask.stop, hs]
  | g04 t => simp [Ending, isStopped, stop, G04AutoTask.stop, G04AutoTask.isStopped]
  | m00Fake t => simp [Ending, isStopped, stop, M00FakeAutoTask.stop, M00FakeAutoTask.isStopped]
  | g01Group t =>
    refine ending_g01Group.mpr ?_
    show (t.stop imm).1.state = _ ∨ (t.stop imm).1.state = _
    cases hs : t.state <;> simp [G01GroupAutoTask.stop, hs]
  | drill t =>
    simp [Ending, isStopped, stop, DrillAutoTask.stop, DrillAutoTask.isStopped,
      DrillAutoTask.clearAllStatus]

/-- A paused task that is resumed goes on. -/
theorem resume_going (h : t.isPaused) : (t.resume sh).1.Going := by
  cases t with
  | g00 t =>
    refine going_g00.mpr ?_
    have hs : t.pmHandler.state = .paused := by simpa [isPaused, G00AutoTask.isPaused] using h
    exact (t.pmHandler.resume_state hs).2.imp_right fun hs =>
      PointMoveHandler.isOver_iff.mpr (.inl hs)
  | g01 t =>
    refine (going_g01 (t := t.resume.1)).mpr ?_
    have hs : t.state = .paused := by simpa [isPaused, G01AutoTask.isPaused] using h
    simp [G01AutoTask.resume, hs]
  | g04 t =>
    have hs : t.state = .paused := by simpa [isPaused, G04AutoTask.isPaused] using h
    simp [resume, G04AutoTask.resume, hs, Going, halting_g04, isStopping]
  | m00Fake t =>
    have hs : t.state = .paused := by simpa [isPaused, M00FakeAutoTask.isPaused] using h
    simp [resume, M00FakeAutoTask.resume, hs, Going, halting_m00Fake, isStopping]
  | g01Group t =>
    refine (going_g01Group (t := t.resume.1)).mpr ?_
    have hs : t.state = .paused := by simpa [isPaused, G01GroupAutoTask.isPaused] using h
    simp [G01GroupAutoTask.resume, hs]
  | drill t =>
    have hs : t.pauseFlag = true := by simpa [isPaused, DrillAutoTask.isPaused] using h
    simp only [resume, DrillAutoTask.resume, hs, Bool.not_true, Bool.false_eq_true, if_false]
    cases t.drillState <;> simp [Going, halting_drill, isStopping]

/-- The way to a halt goes on, or the task is found to stop by itself. -/
theorem Halting.runOnce (h : t.Halting) :
    (t.runOnce sh inp).1.Halting ∨ (t.runOnce sh inp).1.Ending := by
  cases t with
  | g00 t =>
    have hrun : (runOnce (g00 t) sh inp).1 = g00 (t.runOnce sh inp).1 := rfl
    rw [hrun, halting_g00, ending_g00, PointMoveHandler.isOver_iff]
    rcases t.runOnce_cases sh inp with hs | hs
    · exact .inr (.inr (.inl hs))
    · rw [hs]
      have h := halting_g00.mp h
      rcases t.pmHandler.runOnce_state with hs | ⟨hr, _⟩ | ⟨_, hs⟩ | ⟨hr, _⟩
      · exact .inl (by rwa [hs])
      · simp [hr] at h
      · exact .inl (.inr hs)
      · simp [hr] at h
  | g01 t =>
    refine .inl (halting_g01.mpr ?_)
    show (t.runOnce sh inp).1.state = _ ∨ _
    rcases halting_g01.mp h with hs | hs
    · simp only [G01AutoTask.runOnce, hs]
      simpa only [hs] using t.statePausingOrStopping_state sh inp .paused
    · simp [G01AutoTask.runOnce, hs]
  | g04 t =>
    refine .inl (halting_g04.mpr ?_)
    simp [G04AutoTask.runOnce, halting_g04.mp h]
  | m00Fake t => exact .inl h
  | g01Group t =>
    refine .inl ((halting_g01Group (t := (t.runOnce sh).1)).mpr ?_)
    rcases halting_g01Group.mp h with hs | hs <;>
      simp [G01GroupAutoTask.runOnce, hs]
  | drill t =>
    refine .inl ?_
    simpa [AutoTask.runOnce, DrillAutoTask.runOnce, halting_drill.mp h] using h

/-- A task that is stopping goes on to stop. -/
theorem Ending.runOnce (h : t.Ending) : (t.runOnce sh inp).1.Ending := by
  cases t with
  | g00 t =>
    have hrun : (AutoTask.runOnce (g00 t) sh inp).1 = g00 (t.runOnce sh inp).1 := rfl
    rw [hrun, ending_g00]
    rcases t.runOnce_cases sh inp with hs | hs
    · exact .inr (PointMoveHandler.isOver_iff.mpr (.inl hs))
    · rw [hs]
      rcases ending_g00.mp h with hs | ho
      · rcases t.pmHandler.runOnce_state with h' | ⟨hr, _⟩ | ⟨hr, _⟩ | ⟨_, h'⟩
        · exact .inl (h'.trans hs)
        · simp [hr] at hs
        · simp [hr] at hs
        · exact .inr (PointMoveHandler.isOver_iff.mpr (.inl h'))
      · exact .inr (PointMoveHandler.runOnce_of_over ho).2.2
  | g01 t =>
    refine ending_g01.mpr ?_
    show (t.runOnce sh inp).1.state = _ ∨ _
    rcases ending_g01.mp h with hs | hs
    · simp only [G01AutoTask.runOnce, hs]
      simpa only [hs] using t.statePausingOrStopping_state sh inp .stopped
    · simp [G01AutoTask.runOnce, hs]
  | g04 t =>
    have hs : t.state = .stopped := by
      simpa [Ending, isStopping, isStopped, G04AutoTask.isStopped] using h
    simp [AutoTask.runOnce, G04AutoTask.runOnce, hs, Ending, isStopped, G04AutoTask.isStopped]
  | m00Fake t => exact h
  | g01Group t =>
    refine (ending_g01Group (t := (t.runOnce sh).1)).mpr ?_
    rcases ending_g01Group.mp h with hs | hs <;>
      simp [G01GroupAutoTask.runOnce, hs]
  | drill t =>
    have hs : t.drillState = .idle := by
      simpa [Ending, isStopping, isStopped, DrillAutoTask.isStopped] using h
    have hrun : t.runOnce sh inp = (t, sh) := by
      unfold DrillAutoTask.runOnce
      rw [hs]
      simp
    simpa only [AutoTask.runOnce, hrun] using h

theorem isPaused_runOnce (h : t.isPaused) :
    (t.runOnce sh inp).1.isPaused ∨ (t.runOnce sh inp).1.isStopped := by
  cases t with
  | g00 t =>
    have hs : t.pmHandler.state = .paused := by simpa [isPaused, G00AutoTask.isPaused] using h
    show (t.runOnce sh inp).1.pmHandler.isPaused ∨ (t.runOnce sh inp).1.pmHandler.isStopped
    rcases t.runOnce_cases sh inp with h' | h'
    · exact .inr (PointMoveHandler.isStopped_iff.mpr (.inl h'))
    · refine .inl (PointMoveHandler.isPaused_iff.mpr ?_)
      rw [h']
      rcases t.pmHandler.runOnce_state with h' | ⟨hr, _⟩ | ⟨hr, _⟩ | ⟨hr, _⟩
      · exact h'.trans hs
      all_goals simp [hr] at hs
  | g01 t =>
    have hs : t.state = .paused := by simpa [isPaused, G01AutoTask.isPaused] using h
    exact .inl (by simp [AutoTask.runOnce, G01AutoTask.runOnce, isPaused, G01AutoTask.isPaused, hs])
  | g04 t =>
    have hs : t.state = .paused := by simpa [isPaused, G04AutoTask.isPaused] using h
    exact .inl (by simp [AutoTask.runOnce, G04AutoTask.runOnce, isPaused, G04AutoTask.isPaused, hs])
  | m00Fake t => exact .inl h
  | g01Group t =>
    have hs : t.state = .paused := by simpa [isPaused, G01GroupAutoTask.isPaused] using h
    exact .inl (by
      simp [AutoTask.runOnce, G01GroupAutoTask.runOnce, isPaused, G01GroupAutoTask.isPaused, hs])
  | drill t =>
    have hs : t.pauseFlag = true := h
    exact .inl (by simpa [AutoTask.runOnce, DrillAutoTask.runOnce, hs] using h)

/-- A stopped task is at an end; a cycle leaves it there. -/
theorem isStopped_runOnce (h : t.isStopped) : (t.runOnce sh inp).1.isStopped := by
  cases t with
  | g00 t =>
    show (t.runOnce sh inp).1.pmHandler.isStopped
    refine PointMoveHandler.isStopped_iff.mpr ?_
    rcases t.runOnce_cases sh inp with h' | h'
    · exact .inl h'
    · rw [h']
      exact PointMoveHandler.isOver_iff.mp (PointMoveHandler.runOnce_of_over
        (PointMoveHandler.isOver_iff.mpr (PointMoveHandler.isStopped_iff.mp h))).2.2
  | g01 t =>
    have hs : t.state = .stopped := by simpa [isStopped, G01AutoTask.isStopped] using h
    simp [AutoTask.runOnce, G01AutoTask.runOnce, isStopped, G01AutoTask.isStopped, hs]
  | g04 t =>
    have hs : t.state = .stopped := by simpa [isStopped, G04AutoTask.isStopped] using h
    simp [AutoTask.runOnce, G04AutoTask.runOnce, isStopped, G04AutoTask.isStopped, hs]
  | m00Fake t => exact h
  | g01Group t =>
    have hs : t.state = .stopped := by simpa [isStopped, G01GroupAutoTask.isStopped] using h
    simp [AutoTask.runOnce, G01GroupAutoTask.runOnce, isStopped, G01GroupAutoTask.isStopped, hs]
  | drill t =>
    have hs : t.drillState = .idle := by simpa [isStopped, DrillAutoTask.isStopped] using h
    have hrun : t.runOnce sh inp = (t, sh) := by
      unfold DrillAutoTask.runOnce
      rw [hs]
      simp
    simpa only [AutoTask.runOnce, hrun] using h

/-- A cycle after a task was resumed finds it running, or at its end. -/
theorem Going.runOnce (h : t.Going) :
    (t.runOnce sh inp).1.isNormalRunning ∨ (t.runOnce sh inp).1.Ending := by
  cases t with
  | g00 t =>
    have hrun : (AutoTask.runOnce (g00 t) sh inp).1 = g00 (t.runOnce sh inp).1 := rfl
    rw [hrun, ending_g00]
    rcases t.runOnce_cases sh inp with hs | hs
    · exact .inr (.inr (PointMoveHandler.isOver_iff.mpr (.inl hs)))
    · have h : t.pmHandler.Unhalted := going_g00.mp h
      rcases h.runOnce with ho | ⟨hr, _⟩
      · exact .inr (.inr (hs ▸ ho))
      · refine .inl ?_
        simpa [isNormalRunning, G00AutoTask.isNormalRunning, PointMoveHandler.isNormalRunning,
          MoveruntimeWrapper.isNormalRunning, PointMoveHandler.state, hs] using hr
  | g01 t =>
    have hrun : (AutoTask.runOnce (g01 t) sh inp).1 = g01 (t.runOnce sh inp).1 := rfl
    rw [hrun, ending_g01]
    rcases going_g01.mp h with hs | hs | hs
    · have h := t.stateNormalRunning_going sh inp hs
      simp only [G01AutoTask.runOnce, hs]
      exact h.imp (fun h => by simp [isNormalRunning, G01AutoTask.isNormalRunning, h]) .inl
    · exact .inl (by
        simp [G01AutoTask.runOnce, hs, G01AutoTask.stateResuming, isNormalRunning,
          G01AutoTask.isNormalRunning])
    · exact .inr (.inr (by simp [G01AutoTask.runOnce, hs]))
  | g04 t =>
    simp only [Going, halting_g04, isStopping] at h
    cases hs : t.state <;>
      simp_all [AutoTask.runOnce, G04AutoTask.runOnce, isNormalRunning, Ending, isStopped,
        G04AutoTask.isNormalRunning, G04AutoTask.isStopped, isStopping]
    omega
  | m00Fake t =>
    simp only [Going, halting_m00Fake, isStopping] at h
    cases hs : t.state <;>
      simp_all [AutoTask.runOnce, Ending, isStopped, M00FakeAutoTask.isStopped]
  | g01Group t =>
    have hrun : (AutoTask.runOnce (g01Group t) sh inp).1 = g01Group (t.runOnce sh).1 := rfl
    rw [hrun, ending_g01Group]
    rcases going_g01Group.mp h with hs | hs | hs
    · have h := t.stateNormalRunning_going sh hs
      simp only [G01GroupAutoTask.runOnce, hs]
      exact h.imp (fun h => by simp [isNormalRunning, G01GroupAutoTask.isNormalRunning, h]) .inr
    · exact .inl (by
        simp [G01GroupAutoTask.runOnce, hs, isNormalRunning, G01GroupAutoTask.isNormalRunning])
    · exact .inr (.inr (by simp [G01GroupAutoTask.runOnce, hs]))
  | drill t =>
    simp only [Going, halting_drill, isStopping, Bool.not_eq_true] at h
    have hp : (t.runOnce sh inp).1.pauseFlag = false := t.runOnce_pauseFlag sh inp h.1
    by_cases hs : (t.runOnce sh inp).1.drillState = .idle
    · exact .inr (.inr (by simp [AutoTask.runOnce, isStopped, DrillAutoTask.isStopped, hs]))
    · exact .inl (by
        simp [AutoTask.runOnce, isNormalRunning, DrillAutoTask.isNormalRunning, hs, hp])

/-- A pause that is refused lets the task go on: a rapid move can always be slowed down. -/
theorem pause_going (he : t.Endable) (hg : t.Going)
    (h : (t.pause sh).2.2 = false) : (t.pause sh).1.Going := by
  cases t with
  | g00 t =>
    refine going_g00.mpr ?_
    have hg : t.pmHandler.Unhalted := going_g00.mp hg
    exact hg.pause he h
  | g01 t =>
    refine going_g01.mpr ?_
    have hg := going_g01.mp hg
    simp only [pause, G01AutoTask.pause] at h ⊢
    cases hs : t.state <;> simp_all
  | g04 t =>
    simp only [pause, G04AutoTask.pause, Going, halting_g04, isStopping] at h hg ⊢
    cases hs : t.state <;> simp_all
  | m00Fake t =>
    simp only [pause, M00FakeAutoTask.pause, Going, halting_m00Fake, isStopping] at h hg ⊢
    cases hs : t.state <;> simp_all
  | g01Group t =>
    refine going_g01Group.mpr ?_
    have hg := going_g01Group.mp hg
    simp only [pause, G01GroupAutoTask.pause] at h ⊢
    cases hs : t.state <;> simp_all
  | drill t =>
    simp only [pause, DrillAutoTask.pause] at h ⊢
    split at h
    · rename_i hi
      rwa [if_pos hi]
    · simp at h

/-- A stop that is refused leaves the task as it is. -/
theorem stop_refused (he : t.Endable)
    (h : (t.stop sh imm).2.2 = false) : (t.stop sh imm).1 = t := by
  cases t with
  | g00 t =>
    have hacc := MoveruntimeWrapper.slowDown_accepted (w := t.pmHandler.mrtWrapper) he
      .stopping .stopped
    simp only [stop, G00AutoTask.stop, PointMoveHandler.stop, MoveruntimeWrapper.stop] at h ⊢
    cases imm
    · cases hs : t.pmHandler.mrtWrapper.state <;> simp_all
    · simp at h
  | g01 t =>
    simp only [stop, G01AutoTask.stop] at h ⊢
    cases hs : t.state <;> simp_all
  | g04 t => simp [stop, G04AutoTask.stop] at h
  | m00Fake t => simp [stop, M00FakeAutoTask.stop] at h
  | g01Group t =>
    simp only [stop, G01GroupAutoTask.stop] at h ⊢
    cases hs : t.state <;> simp_all
  | drill t => simp [stop, DrillAutoTask.stop] at h

theorem Endable.pause (h : t.Endable) : (t.pause sh).1.Endable := by
  cases t with
  | g00 t =>
    show t.pmHandler.mrtWrapper.pause.1.recordSpeedParam.dec0 < 0
    rw [MoveruntimeWrapper.pause_recordSpeedParam]
    exact h
  | g01 t =>
    show t.pause.1.Ranged
    have h : t.Ranged := h
    unfold G01AutoTask.pause
    cases t.state <;> first | exact h | exact h.withJump rfl rfl h.jump
  | _ => trivial

theorem Endable.resume (h : t.Endable) : (t.resume sh).1.Endable := by
  cases t with
  | g00 t =>
    show t.pmHandler.mrtWrapper.resume.1.recordSpeedParam.dec0 < 0
    rw [MoveruntimeWrapper.resume_recordSpeedParam]
    exact h
  | g01 t =>
    show t.resume.1.Ranged
    have h : t.Ranged := h
    unfold G01AutoTask.resume
    cases t.state <;> first | exact h | exact h.withJump rfl rfl h.jump
  | _ => trivial

theorem Endable.stop (h : t.Endable) : (t.stop sh imm).1.Endable := by
  cases t with
  | g00 t =>
    show (t.pmHandler.mrtWrapper.stop imm).1.recordSpeedParam.dec0 < 0
    rw [MoveruntimeWrapper.stop_recordSpeedParam]
    exact h
  | g01 t =>
    show (t.stop imm).1.Ranged
    have h : t.Ranged := h
    unfold G01AutoTask.stop
    cases t.state <;> first | exact h | exact h.withJump rfl rfl h.jump
  | _ => trivial

theorem Endable.runOnce (h : t.Endable) : (t.runOnce sh inp).1.Endable := by
  cases t with
  | g00 t =>
    show (t.runOnce sh inp).1.pmHandler.speedParam.dec0 < 0
    have h : t.pmHandler.speedParam.dec0 < 0 := h
    simp only [G00AutoTask.runOnce, PointMoveHandler.runOnce_speedParam]
    split
    · rwa [PointMoveHandler.stop_speedParam]
    · exact h
  | g01 t => exact G01AutoTask.Ranged.runOnce h sh inp
  | _ => trivial

end AutoTask

/-- The moves of the run are given a deceleration: rapid moves, and moves by hand. -/
def TaskStart.Brakes : TaskStart K → Prop
  | .g00 sp _ _ => sp.dec0 < 0
  | _ => True

theorem AutoTask.build_endable {ts : TaskStart K} (hb : ts.Brakes) {sh : MotionShared K}
    (ho : (ts.build sh).1.isOver = false) : (ts.build sh).1.Endable := by
  cases ts with
  | g00 sp target touch =>
    show (PointMoveHandler.new.start sp sh.globalCmdAxis target).1.speedParam.dec0 < 0
    rcases PointMoveHandler.new.start_cases sp sh.globalCmdAxis target with ⟨hr, _⟩ | ⟨_, hs, _⟩
    · rwa [PointMoveHandler.start_speedParam hr]
    · have hover : (TaskStart.build (.g00 sp target touch) sh).1.isOver = true :=
        PointMoveHandler.isStopped_iff.mpr (.inr hs)
      exact absurd (ho.symm.trans hover) (by simp)
  | g01 target height nowMs hrNowNs =>
    exact
      { line := TrajectoryLinearSegement.new_onLine _ _
        before := (TrajectoryLinearSegement.new_onLine _ _).total_nonneg
        jump := PointMoveHandler.new_unhalted }
  | _ => trivial

end Edm
