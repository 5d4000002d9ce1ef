import Edm.Motion.ThreadCases

/-!
# What the motion side shows

The application knows the motion side by two values, the main mode and the state of the task runner,
which a cycle of the thread publishes at its end. Which of them can follow which, as long as no command
changes them, is what the runner of a program relies on.
-/

set_option linter.unusedSectionVars false

namespace Edm

variable {K : Type} [Field K] [LinearOrder K]

namespace MotionStateMachine

/-- A task was started and has not come to its end. -/
def TaskRuns (m : MotionStateMachine K) : Prop :=
  m.mainMode = .auto ∧ m.autoTaskRunner.state ≠ .stopped

instance (m : MotionStateMachine K) : Decidable m.TaskRuns := inferInstanceAs (Decidable (_ ∧ ¬_))

theorem Rests.taskRuns {m m' : MotionStateMachine K} (h : Rests m m') : m'.TaskRuns ↔ m.TaskRuns := by
  unfold TaskRuns
  rw [h.mainMode, h.autoTaskRunner]

end MotionStateMachine

variable [FloorRing K] [RealFns K] [Settings]

namespace AutoTaskRunner

variable {r : AutoTaskRunner K} {sh : MotionShared K}

/-- A runner that has stopped stays so. -/
theorem stopped_runOnce (sh : MotionShared K) (h : r.state = .stopped) (inp : CycleInput K) :
    (r.runOnce sh inp).1.state = .stopped := by
  have hcase := r.runOnce_cases sh inp
  generalize r.runOnce sh inp = res at hcase
  cases hcase with
  | unchanged | unhandled => exact h
  | taskRuns _ _ _ hs => exact absurd h hs.2
  | recovers _ hs => simp [h] at hs
  | taskResumed _ _ _ hs | taskPaused _ _ hs | taskStopped _ _ hs | paused _ hs | recovered _ _ hs
  | resumeRefused _ _ hs | recoveryPaused _ hs | recoveryBroken _ hs | recoveryStopped _ hs =>
    simp [h] at hs

theorem stopped_pause (h : r.state = .stopped) : (r.pause sh).1.state = .stopped := by
  have hcase := r.pause_cases sh
  generalize r.pause sh = res at hcase
  cases hcase with
  | unchanged | unhandled => exact h
  | recovery _ hs | task _ _ hs => simp [h] at hs

theorem stopped_resume (h : r.state = .stopped) : (r.resume sh).1.state = .stopped := by
  have hcase := r.resume_cases sh
  generalize r.resume sh = res at hcase
  cases hcase with
  | unchanged | unhandled => exact h
  | recovery _ hs | recoveryRefused _ hs | activate _ hs | activateRefused _ hs => simp [h] at hs

theorem stopped_stop (h : r.state = .stopped) (imm : Bool) : (r.stop sh imm).1.state = .stopped := by
  have hcase := r.stop_cases sh imm
  generalize r.stop sh imm = res at hcase
  cases hcase with
  | unchanged | unhandled => exact h
  | recovery _ hs | task _ _ hs | paused _ hs => simp [h] at hs

end AutoTaskRunner

namespace MotionThread

open MotionStateMachine (TaskRuns)

variable {t : MotionThread K}

/-- Without a start no task runs that did not run before. -/
theorem not_taskRuns_work (h : ¬t.motionStateMachine.TaskRuns) (inp : ThreadInput K) :
    ¬(t.threadCycleWork inp).motionStateMachine.TaskRuns := by
  have hcase := t.threadCycleWork_cases inp
  generalize (t.threadCycleWork inp).motionStateMachine = m at hcase
  cases hcase with
  | rests hr => rwa [hr.taskRuns]
  | resets _ hm => simp [TaskRuns, hm]
  | cycle =>
    have hcase := t.motionStateMachine.runOnce_cases inp.cycle
    generalize t.motionStateMachine.runOnce inp.cycle = m at hcase
    cases hcase with
    | rests hr => rwa [hr.taskRuns]
    | manualOver _ hm => simp [TaskRuns, hm]
    | auto hm =>
      have hs : t.motionStateMachine.autoTaskRunner.state = .stopped := by
        by_contra hs
        exact h ⟨hm, hs⟩
      have hs' := AutoTaskRunner.stopped_runOnce t.motionStateMachine.shared hs inp.cycle
      rintro ⟨-, hn⟩
      exact hn hs'

theorem not_taskRuns_command (h : ¬t.motionStateMachine.TaskRuns) (nowMs hrNowNs : ℤ)
    {c : MotionCommand K} (hc : c.isStart = false) :
    ¬(t.handleCommand nowMs hrNowNs c).1.motionStateMachine.TaskRuns := by
  have hstopped (hm : t.motionStateMachine.mainMode = .auto) :
      t.motionStateMachine.autoTaskRunner.state = .stopped := by
    by_contra hs
    exact h ⟨hm, hs⟩
  have hcase := t.handleCommand_cases nowMs hrNowNs c
  generalize t.handleCommand nowMs hrNowNs c = res at hcase
  generalize res.1.motionStateMachine = m at hcase
  generalize res.2 = ret at hcase
  cases hcase with
  | rests _ hr => rwa [hr.taskRuns]
  | estop _ hm => simp [TaskRuns, hm]
  | manual _ _ hm => simp [TaskRuns, hm]
  | manualInPause _ _ hm hs => simp [hstopped hm] at hs
  | start ts hts => simp [MotionCommand.isStart_of_taskStart hts] at hc
  | pause _ hm =>
    rintro ⟨-, hn⟩
    rw [MotionStateMachine.pauseAuto, if_neg (by simpa using hm)] at hn
    exact hn (AutoTaskRunner.stopped_pause (hstopped hm))
  | resume _ hm =>
    rintro ⟨-, hn⟩
    rw [MotionStateMachine.resumeAuto, if_neg (by simpa using hm)] at hn
    exact hn (AutoTaskRunner.stopped_resume (hstopped hm))
  | stop imm _ hm =>
    rintro ⟨-, hn⟩
    rw [MotionStateMachine.stopAuto, if_neg (by simpa using hm)] at hn
    exact hn (AutoTaskRunner.stopped_stop (hstopped hm) imm)

theorem not_taskRuns_cycle (h : ¬t.motionStateMachine.TaskRuns) (inp : ThreadInput K)
    {cmd : Option (MotionCommand K)} (hc : ∀ c ∈ cmd, c.isStart = false) :
    ¬(t.threadCycle inp cmd).1.motionStateMachine.TaskRuns := by
  cases cmd with
  | none => exact not_taskRuns_work h inp
  | some c => exact not_taskRuns_command (not_taskRuns_work h inp) _ _ (hc c rfl)

/-- The emergency stop ends whatever runs. -/
theorem not_taskRuns_estop (inp : ThreadInput K) :
    ¬(t.threadCycle inp (some .manualEmergencyStopAllMove)).1.motionStateMachine.TaskRuns := by
  rintro ⟨h, -⟩
  cases h

/-- The info is up to date. -/
structure UpToDate (t : MotionThread K) : Prop where
  mainMode : t.infoCache.mainMode = t.motionStateMachine.mainMode
  autoState : t.infoCache.autoState = t.motionStateMachine.autoTaskRunner.state

theorem upToDate_cycle (inp : ThreadInput K) (cmd : Option (MotionCommand K)) :
    (t.threadCycle inp cmd).1.UpToDate := ⟨rfl, rfl⟩

theorem upToDate_new : (new : MotionThread K).UpToDate := ⟨rfl, rfl⟩

end MotionThread

end Edm
