import Edm.Lib.Run
import Edm.Motion.Commands

/-!
# The discharge power of a task at rest

`G01AutoTask` must have switched the discharge power off before it is found paused or stopped. It
does so on entering `backingToBegin`, the last part of the way to a halt. A task that reaches the end
of its line goes to a halt too, but does not begin that way anew: after an earlier pause the
sub-state is still `backingToBegin`, and the power stays on. That is the only way it can stay on
(`off_at_rest`).
-/

set_option linter.unusedSectionVars false

namespace Edm

section

variable {K : Type} [Field K] [LinearOrder K] [FloorRing K] [RealFns K] [Settings]

namespace G01AutoTask

/-- A cycle of a servo sub-state of `t` neither switches the power nor touches the way to a halt. -/
structure ServoStep (t : G01AutoTask K) (sh : MotionShared K)
    (res : G01AutoTask K × MotionShared K) : Prop where
  machOn : res.2.callbacks.machOn = sh.callbacks.machOn
  subState : res.1.pauseOrStopSubState = t.pauseOrStopSubState

/-- In the sub-state `servoing`: this cycle plans no jump and arrives at the end of the line. -/
def reachesEnd (t : G01AutoTask K) (sh : MotionShared K) (inp : CycleInput K) : Bool :=
  let (t', sh', planned) := t.servoingCheckAndPlanJump sh inp
  !planned && (t'.servoingDoServothings sh' inp).2.2

variable (t : G01AutoTask K) (sh : MotionShared K) (inp : CycleInput K)

theorem checkAndValidateJumpHeight_subState :
    t.checkAndValidateJumpHeight.1.pauseOrStopSubState = t.pauseOrStopSubState ∧
      t.checkAndValidateJumpHeight.1.state = t.state := by
  simp only [checkAndValidateJumpHeight]
  repeat' split
  all_goals exact ⟨rfl, rfl⟩

theorem planJumpUp_subState :
    t.planJumpUp.1.pauseOrStopSubState = t.pauseOrStopSubState ∧
      t.planJumpUp.1.state = t.state := by
  have h := checkAndValidateJumpHeight_subState
    { t with servoingLengthBeforeJump := t.lineTraj.currLength }
  simp only [planJumpUp]
  split <;> exact h

theorem servoingCheckAndPlanJump_servoStep :
    ServoStep t sh
        ((t.servoingCheckAndPlanJump sh inp).1, (t.servoingCheckAndPlanJump sh inp).2.1) ∧
      (t.servoingCheckAndPlanJump sh inp).1.state = t.state := by
  have h := planJumpUp_subState
    { t with jumpingParam := sh.jumpParam, lastJumpEndTimeMs := inp.nowMs }
  simp only [servoingCheckAndPlanJump]
  repeat' split
  all_goals first | exact ⟨⟨rfl, rfl⟩, rfl⟩ | exact ⟨⟨rfl, h.1⟩, h.2⟩

theorem servoingDoServothings_servoStep :
    ServoStep t sh ((t.servoingDoServothings sh inp).1, (t.servoingDoServothings sh inp).2.1) ∧
      (t.servoingDoServothings sh inp).1.state = t.state := by
  simp only [servoingDoServothings]
  split <;> exact ⟨⟨rfl, rfl⟩, rfl⟩

/-- Servoing goes on to stopping in the cycle that arrives at the end, and only there. -/
theorem servoSubstateServoing_servoStep :
    ServoStep t sh (t.servoSubstateServoing sh inp) ∧
      (t.servoSubstateServoing sh inp).1.state =
        if t.reachesEnd sh inp then .stopping else t.state := by
  obtain ⟨h, hs⟩ := t.servoingCheckAndPlanJump_servoStep sh inp
  obtain ⟨h', hs'⟩ := (t.servoingCheckAndPlanJump sh inp).1.servoingDoServothings_servoStep
    (t.servoingCheckAndPlanJump sh inp).2.1 inp
  simp only [servoSubstateServoing, reachesEnd]
  split
  · rename_i hp
    exact ⟨h, by simpa [hp] using hs⟩
  · rename_i hp
    split
    · rename_i he
      exact ⟨⟨h'.machOn.trans h.machOn, h'.subState.trans h.subState⟩, by simp [hp, he]⟩
    · rename_i he
      refine ⟨⟨h'.machOn.trans h.machOn, h'.subState.trans h.subState⟩, ?_⟩
      simpa [he] using hs'.trans hs

theorem multiSend_servoStep (on : Bool) :
    ServoStep t sh (t.multiSend sh inp on) ∧ (t.multiSend sh inp on).1.state = t.state := by
  unfold multiSend
  split <;> exact ⟨⟨rfl, rfl⟩, rfl⟩

theorem servoSubstateJumpuping_servoStep :
    ServoStep t sh (t.servoSubstateJumpuping sh inp) ∧
      (t.servoSubstateJumpuping sh inp).1.state = t.state := by
  obtain ⟨h, hs⟩ := multiSend_servoStep { t with jumpPmHandler := t.jumpPmHandler.runOnce }
    (sh.setGlobalCmdAxis t.jumpPmHandler.runOnce.currPos) inp false
  simp only [servoSubstateJumpuping]
  split
  · exact ⟨⟨h.machOn, h.subState⟩, hs⟩
  · exact ⟨⟨h.machOn, h.subState⟩, hs⟩

theorem servoSubstateJumpdowning_servoStep :
    ServoStep t sh (t.servoSubstateJumpdowning sh inp) ∧
      (t.servoSubstateJumpdowning sh inp).1.state = t.state := by
  obtain ⟨h, hs⟩ := multiSend_servoStep { t with jumpPmHandler := t.jumpPmHandler.runOnce }
    (sh.setGlobalCmdAxis t.jumpPmHandler.runOnce.currPos) inp true
  simp only [servoSubstateJumpdowning]
  split
  · exact ⟨⟨h.machOn, h.subState⟩, hs⟩
  · exact ⟨⟨h.machOn, h.subState⟩, hs⟩

theorem servoSubstateJumpdowningbuffer_servoStep :
    ServoStep t sh (t.servoSubstateJumpdowningbuffer sh inp) ∧
      (t.servoSubstateJumpdowningbuffer sh inp).1.state = t.state := by
  simp only [servoSubstateJumpdowningbuffer]
  repeat' split
  all_goals exact ⟨⟨rfl, rfl⟩, rfl⟩

/-- The states in which the power has been switched off. -/
def MustBeOff : Prop :=
  match t.state with
  | .normalRunning => False
  | .pausing | .stopping => t.pauseOrStopSubState = .backingToBegin
  | .paused | .resuming | .stopped => True

/-- The power is off where it must be. -/
def OffWhereDue : Prop := t.MustBeOff → sh.callbacks.machOn = some false

variable {t sh}

theorem offWhereDue_of_running (hs : t.state = .normalRunning) : t.OffWhereDue sh := by
  intro h
  simp only [MustBeOff, hs] at h

theorem offWhereDue_of_waiting
    (hs : t.state = .normalRunning ∨ t.state = .pausing ∨ t.state = .stopping)
    (hw : t.pauseOrStopSubState = .waitingForJumpEnd) : t.OffWhereDue sh := by
  intro h
  rcases hs with hs | hs | hs <;> simp [MustBeOff, hs, hw] at h

theorem offWhereDue_of_off (h : sh.callbacks.machOn = some false) : t.OffWhereDue sh :=
  fun _ => h

theorem OffWhereDue.pause (h : t.OffWhereDue sh) : t.pause.1.OffWhereDue sh := by
  unfold G01AutoTask.pause
  cases hs : t.state with
  | normalRunning => exact offWhereDue_of_waiting (.inr (.inl rfl)) rfl
  | _ => exact h

theorem OffWhereDue.resume (h : t.OffWhereDue sh) : t.resume.1.OffWhereDue sh := by
  unfold G01AutoTask.resume
  cases hs : t.state with
  | paused => exact offWhereDue_of_off (h (by simp [MustBeOff, hs]))
  | _ => exact h

/-- A pause under way goes on as a stop from the point it has reached. -/
theorem OffWhereDue.stop (h : t.OffWhereDue sh) (immediate : Bool) :
    (t.stop immediate).1.OffWhereDue sh := by
  unfold G01AutoTask.stop
  cases hs : t.state with
  | normalRunning => exact offWhereDue_of_waiting (.inr (.inr rfl)) rfl
  | pausing =>
    intro hm
    exact h (by simpa only [MustBeOff, hs] using hm)
  | paused => exact offWhereDue_of_off (h (by simp [MustBeOff, hs]))
  | resuming => exact offWhereDue_of_off (h (by simp [MustBeOff, hs]))
  | _ => exact h

/-- On the way to a halt the power is off once `backingToBegin` is entered. -/
theorem OffWhereDue.statePausingOrStopping (h : t.OffWhereDue sh)
    (hs : t.state = .pausing ∨ t.state = .stopping) (target : State) :
    (t.statePausingOrStopping sh inp target).1.OffWhereDue
      (t.statePausingOrStopping sh inp target).2 := by
  unfold G01AutoTask.statePausingOrStopping
  cases hw : t.pauseOrStopSubState with
  | waitingForJumpEnd =>
    -- a jump under way keeps the state and the sub-state, so nothing is due yet
    have wait {res : G01AutoTask K × MotionShared K} (hr : ServoStep t sh res)
        (hst : res.1.state = t.state) : res.1.OffWhereDue res.2 :=
      offWhereDue_of_waiting (by rw [hst]; exact .inr hs) (hr.subState.trans hw)
    cases t.servoSubState with
    | servoing => exact offWhereDue_of_off rfl
    | jumpUping =>
      have hj := t.servoSubstateJumpuping_servoStep sh inp
      exact wait hj.1 hj.2
    | jumpDowning =>
      have hj := t.servoSubstateJumpdowning_servoStep sh inp
      exact wait hj.1 hj.2
    | jumpDowningBuffer =>
      have hj := t.servoSubstateJumpdowningbuffer_servoStep sh inp
      exact wait hj.1 hj.2
  | backingToBegin =>
    have hoff : sh.callbacks.machOn = some false := by
      apply h
      rcases hs with hs | hs <;> simp only [MustBeOff, hs, hw]
    simp only
    split
    · exact offWhereDue_of_off hoff
    · split
      · split <;> exact offWhereDue_of_off hoff
      · exact offWhereDue_of_off hoff

/-- A running task: nothing is due unless it arrives at the end with `backingToBegin` left over. -/
theorem OffWhereDue.stateNormalRunning (hs : t.state = .normalRunning)
    (he : t.servoSubState = .servoing → t.reachesEnd sh inp →
      t.pauseOrStopSubState ≠ .backingToBegin) :
    (t.stateNormalRunning sh inp).1.OffWhereDue (t.stateNormalRunning sh inp).2 := by
  simp only [G01AutoTask.stateNormalRunning]
  cases hsub : t.servoSubState with
  | servoing =>
    obtain ⟨hr, hst⟩ := t.servoSubstateServoing_servoStep sh inp
    by_cases hend : t.reachesEnd sh inp
    · rw [if_pos hend] at hst
      refine offWhereDue_of_waiting (.inr (.inr hst)) ?_
      rw [hr.subState]
      cases hw : t.pauseOrStopSubState with
      | waitingForJumpEnd => rfl
      | backingToBegin => exact absurd hw (he hsub hend)
    · rw [if_neg hend, hs] at hst
      exact offWhereDue_of_running hst
  | jumpUping =>
    exact offWhereDue_of_running ((t.servoSubstateJumpuping_servoStep sh inp).2.trans hs)
  | jumpDowning =>
    exact offWhereDue_of_running ((t.servoSubstateJumpdowning_servoStep sh inp).2.trans hs)
  | jumpDowningBuffer =>
    exact offWhereDue_of_running ((t.servoSubstateJumpdowningbuffer_servoStep sh inp).2.trans hs)

theorem OffWhereDue.runOnce (h : t.OffWhereDue sh)
    (he : t.state = .normalRunning → t.servoSubState = .servoing → t.reachesEnd sh inp →
      t.pauseOrStopSubState ≠ .backingToBegin) :
    (t.runOnce sh inp).1.OffWhereDue (t.runOnce sh inp).2 := by
  unfold G01AutoTask.runOnce
  cases hs : t.state with
  | normalRunning => exact .stateNormalRunning inp hs (he hs)
  | pausing => exact h.statePausingOrStopping inp (.inl hs) .paused
  | paused => exact h
  | resuming =>
    simp only [stateResuming]
    exact offWhereDue_of_running rfl
  | stopping => exact h.statePausingOrStopping inp (.inr hs) .stopped
  | stopped => exact h

end G01AutoTask

/-- A discharge task with the data it shares. -/
structure G01System (K : Type) where
  task : G01AutoTask K
  shared : MotionShared K

namespace G01System

inductive Command (K : Type) where
  | pause
  | resume
  | stop (immediate : Bool)
  | setting (c : SettingCommand K)
  | runOnce (inp : CycleInput K)

/-- A task just constructed, with shared data in any state. -/
def new (lineTraj : TrajectoryLinearSegement K) (maxJumpHeightFromBegin : K) (sh : MotionShared K)
    (nowMs hrNowNs : ℤ) : G01System K :=
  let (t, sh) := G01AutoTask.new lineTraj maxJumpHeightFromBegin sh nowMs hrNowNs
  ⟨t, sh⟩

def step (s : G01System K) : Command K → G01System K
  | .pause => { s with task := s.task.pause.1 }
  | .resume => { s with task := s.task.resume.1 }
  | .stop immediate => { s with task := (s.task.stop immediate).1 }
  | .setting c => { s with shared := c.apply s.shared }
  | .runOnce inp => let (t, sh) := s.task.runOnce s.shared inp; ⟨t, sh⟩

/-- A task found paused or stopped last switched the power off. -/
def OffAtRest (s : G01System K) : Prop :=
  s.task.isPaused ∨ s.task.isStopped → s.shared.callbacks.machOn = some false

/-- The step is not the arrival at the end of the line of a task that was paused before. -/
def NotEndAfterPause (s : G01System K) : Command K → Prop
  | .runOnce inp =>
    s.task.state = .normalRunning → s.task.servoSubState = .servoing →
      s.task.reachesEnd s.shared inp → s.task.pauseOrStopSubState ≠ .backingToBegin
  | _ => True

instance (s : G01System K) (c : Command K) : Decidable (s.NotEndAfterPause c) := by
  cases c <;> unfold NotEndAfterPause <;> infer_instance

theorem step_offWhereDue {s : G01System K} {c : Command K} (h : s.task.OffWhereDue s.shared)
    (hc : s.NotEndAfterPause c) : (s.step c).task.OffWhereDue (s.step c).shared := by
  cases c with
  | pause => exact h.pause
  | resume => exact h.resume
  | stop immediate => exact h.stop immediate
  | setting c => cases c <;> exact h
  | runOnce inp => exact h.runOnce inp hc

/-- In every run without an arrival at the end after a pause, the power is off whenever the task is
paused or stopped. -/
theorem off_at_rest (lineTraj : TrajectoryLinearSegement K) (height : K) (sh : MotionShared K)
    (nowMs hrNowNs : ℤ) (cmds : List (Command K))
    (hc : Machine.AllSteps step NotEndAfterPause (new lineTraj height sh nowMs hrNowNs) cmds) :
    (Machine.run step (new lineTraj height sh nowMs hrNowNs) cmds).OffAtRest := by
  have h := Machine.AllSteps.invariant
    (I := fun s : G01System K => s.task.OffWhereDue s.shared)
    (fun _ _ => step_offWhereDue) (G01AutoTask.offWhereDue_of_running rfl) hc
  intro hrest
  apply h
  rcases hrest with hrest | hrest
  · simp only [G01AutoTask.isPaused, decide_eq_true_eq] at hrest
    simp [G01AutoTask.MustBeOff, hrest]
  · simp only [G01AutoTask.isStopped, decide_eq_true_eq] at hrest
    simp [G01AutoTask.MustBeOff, hrest]

end G01System

end

namespace G01System

attribute [local instance] Sample.settings

/-- A task on a line of length 1 that is paused and has gone back to the start. -/
def pausedAtStart : List (Command ℚ) :=
  [.pause, .runOnce (Sample.input 0), .runOnce (Sample.input 0)]

/-- The line from zero to 1 on the first drive. -/
def unitLine : G01System ℚ := new (.new 0 (Sample.xAxis 1)) 0 .new 0 0

theorem pausedAtStart_off :
    let s := Machine.run step unitLine pausedAtStart
    s.task.isPaused ∧ s.shared.callbacks.machOn = some false :=
  ⟨by decide +kernel, off_at_rest _ _ _ _ _ pausedAtStart (by decide +kernel)
    (.inl (by decide +kernel))⟩

/-- Paused, resumed and driven forward by 1, the task arrives at the end and stops with the power
on. -/
theorem end_after_pause_leaves_power_on :
    ¬(Machine.run step unitLine
      (pausedAtStart ++
        [.resume, .runOnce (Sample.input 0), .runOnce (Sample.input 60),
          .runOnce (Sample.input 0)])).OffAtRest := by
  intro h
  exact absurd (h (by decide +kernel)) (by decide +kernel)

end G01System

end Edm
