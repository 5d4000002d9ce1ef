import Edm.Motion.Discharge
import Edm.Motion.DrillOutputs
import Edm.Motion.MotionThread
import Edm.Motion.RunnerCases

/-!
# The discharge power outside the automatic mode

The discharge power is switched by the task at hand. Every task switches it off on its own way to a
pause or an end, with the one exception of `Discharge.lean`; the runner passes a pause or an end on only once
the task has got there. A reset of the state machine drops the task where it stands, power and all.
`off_outside_auto` says that nothing else leaves the power on outside the automatic mode.
-/

set_option linter.unusedSectionVars false

namespace Edm

section

variable {K : Type} [Field K] [LinearOrder K] [FloorRing K] [RealFns K] [Settings]

/-- The power was last switched off, or never switched. -/
def MotionShared.PowerOff (sh : MotionShared K) : Prop := sh.callbacks.machOn ≠ some true

theorem MotionShared.PowerOff.congr {sh sh' : MotionShared K} (h : sh.PowerOff)
    (hm : sh'.callbacks.machOn = sh.callbacks.machOn) : sh'.PowerOff := by
  unfold PowerOff
  rw [hm]
  exact h

instance (sh : MotionShared K) : Decidable sh.PowerOff :=
  inferInstanceAs (Decidable (sh.callbacks.machOn ≠ some true))

theorem powerOff_of_off {sh : MotionShared K} (h : sh.callbacks.machOn = some false) :
    sh.PowerOff := by simp [MotionShared.PowerOff, h]

/-- The cycle takes the task to the end of its line, after an earlier pause. -/
def G01AutoTask.endsAfterPause (t : G01AutoTask K) (sh : MotionShared K) (inp : CycleInput K) :
    Bool :=
  t.state = .normalRunning && t.servoSubState = .servoing && t.reachesEnd sh inp &&
    t.pauseOrStopSubState = .backingToBegin

namespace AutoTask

/-- When a task owes the power to be off. -/
def PowerLaw (t : AutoTask K) (sh : MotionShared K) : Prop :=
  match t with
  | g01 t => t.OffWhereDue sh
  | drill t => t.drillState = .idle ∨ t.pauseFlag = true → sh.PowerOff
  | _ => sh.PowerOff

/-- The cycle is one in which a discharge task ends after an earlier pause. -/
def endsAfterPause (t : AutoTask K) (sh : MotionShared K) (inp : CycleInput K) : Bool :=
  match t with
  | g01 t => t.endsAfterPause sh inp
  | _ => false

variable {t : AutoTask K} {sh : MotionShared K} {inp : CycleInput K}

theorem PowerLaw.congr {sh' : MotionShared K} (h : t.PowerLaw sh)
    (hm : sh'.callbacks.machOn = sh.callbacks.machOn) : t.PowerLaw sh' := by
  cases t with
  | g01 t => exact fun hd => hm.trans (h hd)
  | drill t => exact fun hd => (h hd).congr hm
  | _ => exact MotionShared.PowerOff.congr h hm

theorem PowerLaw.off_of_paused (h : t.PowerLaw sh) (hp : t.isPaused) : sh.PowerOff := by
  cases t with
  | g01 t =>
    have hs : t.state = .paused := by simpa [isPaused, G01AutoTask.isPaused] using hp
    exact powerOff_of_off (h (by simp [G01AutoTask.MustBeOff, hs]))
  | drill t => exact h (.inr hp)
  | _ => exact h

theorem PowerLaw.off_of_stopped (h : t.PowerLaw sh) (hp : t.isStopped) : sh.PowerOff := by
  cases t with
  | g01 t =>
    have hs : t.state = .stopped := by simpa [isStopped, G01AutoTask.isStopped] using hp
    exact powerOff_of_off (h (by simp [G01AutoTask.MustBeOff, hs]))
  | drill t => exact h (.inl (by simpa [isStopped, DrillAutoTask.isStopped] using hp))
  | _ => exact h

theorem PowerLaw.pause (h : t.PowerLaw sh) : (t.pause sh).1.PowerLaw (t.pause sh).2.1 := by
  cases t with
  | g01 t => exact G01AutoTask.OffWhereDue.pause h
  | drill t =>
    simp only [AutoTask.pause, DrillAutoTask.pause]
    split
    · exact h
    · rw [DrillAutoTask.allPumpAndSpindleOn_machOn]
      exact fun _ => powerOff_of_off rfl
  | _ => exact h

theorem PowerLaw.stop (h : t.PowerLaw sh) (imm : Bool) :
    (t.stop sh imm).1.PowerLaw (t.stop sh imm).2.1 := by
  cases t with
  | g01 t => exact G01AutoTask.OffWhereDue.stop h imm
  | drill t => exact fun _ => powerOff_of_off rfl
  | _ => exact h

/-- A drill that is resumed runs, or is idle and switches nothing. -/
theorem PowerLaw.resume (h : t.PowerLaw sh) : (t.resume sh).1.PowerLaw (t.resume sh).2.1 := by
  cases t with
  | g01 t => exact G01AutoTask.OffWhereDue.resume h
  | drill t =>
    simp only [AutoTask.resume, DrillAutoTask.resume]
    split
    · exact h
    · split <;> rename_i hs
      · exact fun _ => h (.inl hs)
      all_goals
        rintro (hi | hf)
        · exact absurd (hs.symm.trans hi) (by simp)
        · simp at hf
  | _ => exact h

/-- A task that refuses to resume switches nothing. -/
theorem resume_machOn (h : (t.resume sh).2.2 = false) :
    (t.resume sh).2.1.callbacks.machOn = sh.callbacks.machOn := by
  cases t with
  | drill t =>
    simp only [AutoTask.resume, DrillAutoTask.resume] at h ⊢
    split at h
    · rename_i hp
      rw [if_pos hp]
    · split at h <;> simp at h
  | _ => rfl

theorem PowerLaw.runOnce (h : t.PowerLaw sh) (he : t.endsAfterPause sh inp = false) :
    (t.runOnce sh inp).1.PowerLaw (t.runOnce sh inp).2 := by
  cases t with
  | g01 t =>
    refine G01AutoTask.OffWhereDue.runOnce inp h fun hn hs hr hb => ?_
    simp [AutoTask.endsAfterPause, G01AutoTask.endsAfterPause, hn, hs, hr, hb] at he
  | drill t =>
    have hcase := t.runOnce_cases sh inp
    simp only [AutoTask.runOnce]
    generalize t.runOnce sh inp = res at hcase
    cases hcase with
    | rests hr => exact h
    | @prepares t' power hp hp' hs =>
      rintro (hi | hf)
      · rw [hi] at hs
        generalize t.drillState = a at hs
        nomatch hs
      · simp [hp'] at hf
    | @works t' sh' hp hp' hi hs ho =>
      rintro (hi' | hf)
      · rw [hi'] at hs
        generalize t.drillState = a at hs hi
        cases hs
        exact absurd rfl hi
      · simp [hp'] at hf
    | ends hp hp' hs ho => exact fun _ => powerOff_of_off ho.machOn
  | g00 t =>
    refine MotionShared.PowerOff.congr h ?_
    simp only [AutoTask.runOnce, G00AutoTask.runOnce]
    repeat' split
    all_goals rfl
  | g01Group t =>
    refine MotionShared.PowerOff.congr h ?_
    simp only [AutoTask.runOnce, G01GroupAutoTask.runOnce, G01GroupAutoTask.stateNormalRunning]
    repeat' split
    all_goals rfl
  | _ => exact h

end AutoTask

/-- A fresh task of a machine whose power is off owes nothing yet. -/
theorem AutoTask.build_powerLaw {sh : MotionShared K} (h : sh.PowerOff) (ts : TaskStart K) :
    (ts.build sh).1.PowerLaw (ts.build sh).2 ∧
      ((ts.build sh).1.isOver = true → (ts.build sh).2.PowerOff) := by
  cases ts with
  | g01 target height nowMs hrNowNs =>
    refine ⟨G01AutoTask.offWhereDue_of_running rfl, fun ho => ?_⟩
    simp [TaskStart.build, G01AutoTask.new, isOver, isStopped, G01AutoTask.isStopped] at ho
  | g01Group items =>
    simp only [TaskStart.build, G01GroupAutoTask.new]
    split <;> exact ⟨h, fun _ => h⟩
  | drill p => exact ⟨fun _ => h, fun _ => h⟩
  | _ => exact ⟨h, fun _ => h⟩

theorem PauseMoveController.runOnce_machOn (c : PauseMoveController K) (sh : MotionShared K)
    (inp : CycleInput K) : (c.runOnce sh inp).2.callbacks = sh.callbacks := by
  unfold PauseMoveController.runOnce
  cases c.state with
  | manualPointMoving =>
    simp only [manualPointmoving]
    split
    · split <;> rfl
    · rfl
  | recovering =>
    simp only [recovering]
    split
    · split <;> rfl
    · rfl
  | recoveringPausing => simp only [recoveringPausing]; split <;> rfl
  | outSideStopping => simp only [outsideStopping]; split <;> rfl
  | _ => rfl

namespace AutoTaskRunner

/-- The task owes what it owes, and nothing discharges while another stands in for it. -/
structure PowerLaw (r : AutoTaskRunner K) (sh : MotionShared K) : Prop where
  task : ∀ task, r.currTask = some task → task.PowerLaw sh
  rest : r.state = .paused ∨ r.state = .stopped ∨ r.dominState = .pauseMoveRecoverRunning →
    sh.PowerOff

/-- This cycle of the runner is one of its task, and the task ends in it after an earlier pause. -/
def endsAfterPause (r : AutoTaskRunner K) (sh : MotionShared K) (inp : CycleInput K) : Bool :=
  match r.currTask with
  | some task =>
    r.dominState = .autoTaskRunning && r.state ≠ .paused && r.state ≠ .stopped &&
      task.endsAfterPause sh inp
  | none => false

variable {r : AutoTaskRunner K} {sh : MotionShared K} {inp : CycleInput K} {imm : Bool}

theorem PowerLaw.congr {sh' : MotionShared K} (h : r.PowerLaw sh)
    (hm : sh'.callbacks.machOn = sh.callbacks.machOn) : r.PowerLaw sh' :=
  ⟨fun task ht => (h.task task ht).congr hm, fun hr => (h.rest hr).congr hm⟩

/-- The task alone answers for the power while it runs. -/
theorem powerLaw_of_running {task : AutoTask K} (ht : r.currTask = some task)
    (hl : task.PowerLaw sh) (hs : r.state ≠ .paused ∧ r.state ≠ .stopped)
    (hd : r.dominState = .autoTaskRunning) : r.PowerLaw sh where
  task task' ht' := by
    obtain rfl : task' = task := by simpa [ht] using ht'.symm
    exact hl
  rest h := by
    rcases h with h | h | h
    · exact absurd h hs.1
    · exact absurd h hs.2
    · simp [hd] at h

/-- At rest the power is off whatever the state. -/
theorem powerLaw_of_rest {task : AutoTask K} (ht : r.currTask = some task)
    (hl : task.PowerLaw sh) (hoff : sh.PowerOff) : r.PowerLaw sh where
  task task' ht' := by
    obtain rfl : task' = task := by simpa [ht] using ht'.symm
    exact hl
  rest _ := hoff

theorem PowerLaw.pause (h : r.PowerLaw sh) : (r.pause sh).1.PowerLaw (r.pause sh).2.1 := by
  have hcase := r.pause_cases sh
  generalize r.pause sh = res at hcase
  cases hcase with
  | unchanged => exact h
  | unhandled => exact h.congr rfl
  | recovery hd hs => exact ⟨h.task, fun _ => h.rest (.inr (.inr hd))⟩
  | task ht hd hs =>
    refine powerLaw_of_running rfl (h.task _ ht).pause ?_ hd
    rcases hs with hs | hs <;> (simp only [hs]; split <;> simp)

theorem PowerLaw.resume (h : r.PowerLaw sh) : (r.resume sh).1.PowerLaw (r.resume sh).2.1 := by
  have hcase := r.resume_cases sh
  generalize r.resume sh = res at hcase
  cases hcase with
  | unchanged => exact h
  | unhandled => exact h.congr rfl
  | recovery hd hs hr => exact ⟨fun _ ht => (h.task _ ht).congr rfl, fun _ => h.rest (.inl hs)⟩
  | recoveryRefused hd hs hr => exact ⟨h.task, fun _ => h.rest (.inl hs)⟩
  | activate hd hs hr => exact ⟨fun _ ht => (h.task _ ht).congr rfl, fun _ => h.rest (.inl hs)⟩
  | activateRefused hd hs hr => exact ⟨h.task, fun _ => h.rest (.inl hs)⟩

theorem PowerLaw.stop (h : r.PowerLaw sh) (imm : Bool) :
    (r.stop sh imm).1.PowerLaw (r.stop sh imm).2.1 := by
  have hcase := r.stop_cases sh imm
  generalize r.stop sh imm = res at hcase
  cases hcase with
  | unchanged => exact h
  | unhandled => exact h.congr rfl
  | recovery hd hs => exact ⟨h.task, fun _ => h.rest (.inr (.inr hd))⟩
  | task ht hd hs =>
    refine powerLaw_of_running rfl ((h.task _ ht).stop imm) ?_ hd
    rcases hs with hs | hs | hs <;> (simp only [hs]; split <;> simp)
  | paused hd hs => exact ⟨h.task, fun _ => h.rest (.inl hs)⟩

theorem PowerLaw.runOnce (h : r.PowerLaw sh) (he : r.endsAfterPause sh inp = false) :
    (r.runOnce sh inp).1.PowerLaw (r.runOnce sh inp).2 := by
  have hpmc := r.pausemoveController.runOnce_machOn sh inp
  -- a cycle of the task itself
  have hrun {task : AutoTask K} (ht : r.currTask = some task)
      (hd : r.dominState = .autoTaskRunning) (hs : r.state ≠ .paused ∧ r.state ≠ .stopped) :
      (task.runOnce sh inp).1.PowerLaw (task.runOnce sh inp).2 := by
    refine (h.task task ht).runOnce ?_
    simpa [endsAfterPause, ht, hd, hs.1, hs.2] using he
  -- a cycle of the controller, on whose side the power is off
  have hoff (hr : r.state = .paused ∨ r.dominState = .pauseMoveRecoverRunning) :
      (r.pausemoveController.runOnce sh inp).2.PowerOff := by
    refine (h.rest ?_).congr (by rw [hpmc])
    rcases hr with hr | hr
    · exact .inl hr
    · exact .inr (.inr hr)
  have hkeep : ∀ task, r.currTask = some task →
      task.PowerLaw (r.pausemoveController.runOnce sh inp).2 :=
    fun task ht => (h.task task ht).congr (by rw [hpmc])
  have hcase := r.runOnce_cases sh inp
  generalize r.runOnce sh inp = res at hcase
  cases hcase with
  | unchanged => exact h
  | unhandled => exact h.congr rfl
  | taskRuns st ht hd hs hst => exact powerLaw_of_running rfl (hrun ht hd hs) hst hd
  | taskResumed st ht hd hs hst =>
    exact powerLaw_of_running rfl ((hrun ht hd (by simp [hs])).congr rfl) hst hd
  | taskPaused ht hd hs hp =>
    have hl := hrun ht hd (by simp [hs])
    exact powerLaw_of_rest rfl (hl.congr rfl) ((hl.off_of_paused hp).congr rfl)
  | taskStopped ht hd hs hp =>
    have hl := hrun ht hd (by simp [hs])
    exact powerLaw_of_rest rfl (hl.congr rfl) ((hl.off_of_stopped hp).congr rfl)
  | paused hd hs => exact ⟨hkeep, fun _ => hoff (.inl hs)⟩
  | recovers hd hs => exact ⟨hkeep, fun _ => hoff (.inr hd)⟩
  | recovered ht hd hs hp hr =>
    exact powerLaw_of_running rfl (hkeep _ ht).resume (by simp) rfl
  | resumeRefused ht hd hs hp hr =>
    exact powerLaw_of_rest rfl (hkeep _ ht).resume
      ((hoff (.inr hd)).congr (AutoTask.resume_machOn hr))
  | recoveryPaused hd hs hp =>
    exact ⟨fun _ ht => (hkeep _ ht).congr rfl, fun _ => (hoff (.inr hd)).congr rfl⟩
  | recoveryBroken hd hs hp =>
    exact ⟨fun _ ht => (hkeep _ ht).congr rfl, fun _ => (hoff (.inr hd)).congr rfl⟩
  | recoveryStopped hd hs hp =>
    exact ⟨fun _ ht => (hkeep _ ht).congr rfl, fun _ => (hoff (.inr hd)).congr rfl⟩

theorem PowerLaw.startManualPointmove (h : r.PowerLaw sh) (sp : MoveRuntimePlanSpeedInput K)
    (startPos targetPos : Axis K) :
    (r.startManualPointmove sh sp startPos targetPos).1.PowerLaw
      (r.startManualPointmove sh sp startPos targetPos).2.1 := by
  simp only [AutoTaskRunner.startManualPointmove, PauseMoveController.startManualPointmove]
  repeat' split
  all_goals exact ⟨fun _ ht => (h.task _ ht).congr rfl, fun hr => (h.rest hr).congr rfl⟩

theorem PowerLaw.stopManualPointmove (h : r.PowerLaw sh) (imm : Bool) :
    (r.stopManualPointmove imm).1.PowerLaw sh := by
  simp only [AutoTaskRunner.stopManualPointmove]
  split <;> exact ⟨h.task, h.rest⟩

end AutoTaskRunner

namespace MotionStateMachine

/-- Outside the automatic mode the power is off. -/
structure PowerLaw (m : MotionStateMachine K) : Prop where
  outside : m.mainMode ≠ .auto → m.shared.PowerOff
  runner : m.mainMode = .auto → m.autoTaskRunner.PowerLaw m.shared

variable {m : MotionStateMachine K}

theorem powerLaw_of_off (hm : m.mainMode ≠ .auto) (h : m.shared.PowerOff) : m.PowerLaw :=
  ⟨fun _ => h, fun ha => absurd ha hm⟩

theorem powerLaw_of_auto (hm : m.mainMode = .auto) (h : m.autoTaskRunner.PowerLaw m.shared) :
    m.PowerLaw :=
  ⟨fun hn => absurd hm hn, fun _ => h⟩

/-- Changes of the shared data that do not switch the power do not matter. -/
theorem PowerLaw.shared (h : m.PowerLaw) {sh : MotionShared K}
    (hm : sh.callbacks.machOn = m.shared.callbacks.machOn) :
    PowerLaw { m with shared := sh } :=
  ⟨fun hn => (h.outside hn).congr hm, fun ha => (h.runner ha).congr hm⟩

/-- The cycle of the machine is one of its task that ends it after an earlier pause. -/
def endsAfterPause (m : MotionStateMachine K) (inp : CycleInput K) : Bool :=
  m.enabled && m.mainMode = .auto && m.autoTaskRunner.endsAfterPause m.shared inp

theorem PowerLaw.start (h : m.PowerLaw) (ts : TaskStart K) : (m.start ts).1.PowerLaw := by
  rw [start_eq]
  split
  · exact h
  · rename_i hc
    have hidle : m.mainMode = .idle := by
      by_contra hne
      exact hc (.inr hne)
    have hb := AutoTask.build_powerLaw (h.outside (by simp [hidle])) ts
    unfold MotionStateMachine.startAuto
    split
    · rename_i ho
      exact powerLaw_of_off (by simp [hidle]) (hb.2 ho)
    · exact powerLaw_of_auto rfl
        (AutoTaskRunner.powerLaw_of_running rfl (hb.1.congr rfl)
          (by simp [AutoTaskRunner.restartTask]) rfl)

theorem PowerLaw.runOnce (h : m.PowerLaw) {inp : CycleInput K}
    (he : m.endsAfterPause inp = false) : (m.runOnce inp).PowerLaw := by
  unfold MotionStateMachine.runOnce
  split
  · exact h
  rename_i hen
  have hen : m.enabled = true := by simpa using hen
  split <;> rename_i hm
  · exact h.shared rfl
  · have hoff := h.outside (by simp [hm])
    simp only [mainmodeManual]
    split
    · exact powerLaw_of_off (by simp) (hoff.congr rfl)
    · split
      · exact powerLaw_of_off (by simp) (hoff.congr rfl)
      · exact powerLaw_of_off (by simp [hm]) (hoff.congr rfl)
  · have hr := (h.runner hm).runOnce (by simpa [endsAfterPause, hen, hm] using he)
    simp only [mainmodeAuto]
    split
    · rename_i hs
      exact powerLaw_of_off (by simp) (hr.rest (.inr (.inl hs)))
    · exact powerLaw_of_auto hm hr

theorem PowerLaw.reset (h : m.shared.PowerOff) : m.reset.PowerLaw :=
  powerLaw_of_off (by simp [MotionStateMachine.reset]) h

theorem PowerLaw.pauseAuto (h : m.PowerLaw) : m.pauseAuto.1.PowerLaw := by
  unfold MotionStateMachine.pauseAuto
  split
  · exact h
  · rename_i hm
    exact powerLaw_of_auto (not_not.mp hm) (h.runner (not_not.mp hm)).pause

theorem PowerLaw.resumeAuto (h : m.PowerLaw) : m.resumeAuto.1.PowerLaw := by
  unfold MotionStateMachine.resumeAuto
  split
  · exact h
  · rename_i hm
    exact powerLaw_of_auto (not_not.mp hm) (h.runner (not_not.mp hm)).resume

theorem PowerLaw.stopAuto (h : m.PowerLaw) (imm : Bool) : (m.stopAuto imm).1.PowerLaw := by
  unfold MotionStateMachine.stopAuto
  split
  · exact h
  · rename_i hm
    exact powerLaw_of_auto (not_not.mp hm) ((h.runner (not_not.mp hm)).stop imm)

theorem PowerLaw.startManualPointmove (h : m.PowerLaw) (sp : MoveRuntimePlanSpeedInput K)
    (targetPos : Axis K) : (m.startManualPointmove sp targetPos).1.PowerLaw := by
  unfold MotionStateMachine.startManualPointmove
  split <;> rename_i hm
  · have hoff := h.outside (by simp [hm])
    simp only
    split
    · exact powerLaw_of_off (by simp) (hoff.congr rfl)
    · exact powerLaw_of_off (by simp [hm]) hoff
  · exact h
  · exact powerLaw_of_auto hm ((h.runner hm).startManualPointmove sp _ targetPos)

theorem PowerLaw.stopManualPointmove (h : m.PowerLaw) (imm : Bool) :
    (m.stopManualPointmove imm).1.PowerLaw := by
  unfold MotionStateMachine.stopManualPointmove
  split <;> rename_i hm
  · exact h
  · exact powerLaw_of_off (by simp [hm]) (h.outside (by simp [hm]))
  · exact powerLaw_of_auto hm ((h.runner hm).stopManualPointmove imm)

end MotionStateMachine

namespace MotionThread

/-- The parts of a cycle that change something, in any order. -/
inductive Action (K : Type) where
  | work (inp : ThreadInput K)
  | command (nowMs hrNowNs : ℤ) (c : MotionCommand K)
  | report (inp : ThreadInput K)

def step (t : MotionThread K) : Action K → MotionThread K
  | .work inp => t.threadCycleWork inp
  | .command nowMs hrNowNs c => (t.handleCommand nowMs hrNowNs c).1
  | .report inp => (t.copyInfoCache inp).handleSignal

/-- A cycle is such a run. -/
theorem threadCycle_eq (t : MotionThread K) (inp : ThreadInput K)
    (cmd : Option (MotionCommand K)) :
    (t.threadCycle inp cmd).1 =
      Machine.run step t
        (.work inp :: (cmd.map (.command inp.cycle.nowMs inp.cycle.hrNowNs)).toList ++
          [.report inp]) := by
  cases cmd <;> rfl

/-- The state machine is reset in this cycle: the drives got ready, or were lost. -/
def resets (t : MotionThread K) (inp : ThreadInput K) : Bool :=
  t.threadState = .running &&
    match t.ecatState with
    | .ecatConnectedNotAllEnabled => inp.ecat.allEnabled
    | .ecatConnectedEnabling => inp.ecat.allEnabled || !inp.ecat.connected
    | .ecatReady => !inp.ecat.connected
    | _ => false

/-- No reset falls on a task that discharges, and no discharge task ends after an earlier pause. -/
def SwitchesOff (t : MotionThread K) : Action K → Prop
  | .work inp =>
    (t.resets inp = true → t.motionStateMachine.shared.PowerOff) ∧
      (t.threadState = .running → t.ecatState = .ecatReady → inp.ecat.connected = true →
        t.motionStateMachine.endsAfterPause inp.cycle = false)
  | .command _ _ .manualEmergencyStopAllMove => t.motionStateMachine.shared.PowerOff
  | _ => True

instance (t : MotionThread K) : (a : Action K) → Decidable (t.SwitchesOff a)
  | .work _ => inferInstanceAs (Decidable (_ ∧ _))
  | .command _ _ c => by
    cases c <;> first | exact isTrue trivial | exact inferInstanceAs (Decidable (¬(_ = some true)))
  | .report _ => isTrue trivial

/-- Outside the automatic mode the last value given to `cb_mach_on` is false. -/
def OffOutsideAuto (t : MotionThread K) : Prop :=
  t.motionStateMachine.mainMode ≠ .auto → t.motionStateMachine.shared.PowerOff

variable {t : MotionThread K}

open MotionStateMachine (PowerLaw)

theorem switchToReady_powerLaw (h : t.motionStateMachine.shared.PowerOff) (actAxis : Axis K) :
    (t.ecatStateSwitchToReady actAxis).motionStateMachine.PowerLaw :=
  MotionStateMachine.powerLaw_of_off
    (by simp [ecatStateSwitchToReady, MotionStateMachine.setEnable, MotionStateMachine.reset]) h

theorem threadstateRunning_powerLaw (h : t.motionStateMachine.PowerLaw) {inp : ThreadInput K}
    (hs : t.threadState = .running) (hc : t.SwitchesOff (.work inp)) :
    (t.threadstateRunning inp).motionStateMachine.PowerLaw := by
  obtain ⟨hreset, hend⟩ := hc
  simp only [resets, hs, decide_true, Bool.true_and] at hreset
  unfold threadstateRunning
  split <;> rename_i he <;> simp only [he] at hreset
  · exact h
  · split <;> exact h
  · exact h
  · repeat' split
    all_goals exact h
  · split
    · rename_i ha
      exact switchToReady_powerLaw (hreset ha) _
    · split <;> exact h
  · -- the connection is looked at after the drives were found ready
    have hready (ha : inp.ecat.allEnabled = true) :=
      switchToReady_powerLaw (t := { t with ecatClearFaultReenableFlag := false })
        (hreset (by simp [ha])) inp.ecat.actAxis
    by_cases ha : inp.ecat.allEnabled <;> by_cases hd : inp.ecat.connected <;>
      simp only [ha, hd, Bool.not_true, Bool.not_false, Bool.false_eq_true, if_true, if_false]
    · exact hready ha
    · exact .reset ((hready ha).outside (by
        simp [ecatStateSwitchToReady, MotionStateMachine.setEnable, MotionStateMachine.reset]))
    · exact h
    · exact .reset (hreset (by simp [hd]))
  · simp only
    split
    · rename_i hd
      exact .reset (hreset hd)
    · rename_i hd
      exact h.runOnce (hend hs he (by simpa using hd))

theorem threadCycleWork_powerLaw (h : t.motionStateMachine.PowerLaw) {inp : ThreadInput K}
    (hc : t.SwitchesOff (.work inp)) : (t.threadCycleWork inp).motionStateMachine.PowerLaw := by
  unfold threadCycleWork
  split
  · exact h
  · rename_i hs
    have hr := threadstateRunning_powerLaw h hs hc
    simp only
    split <;> exact hr
  · unfold threadstateStopping
    repeat' split
    all_goals exact h
  · exact h

theorem handleCommand_powerLaw (h : t.motionStateMachine.PowerLaw) {nowMs hrNowNs : ℤ}
    {c : MotionCommand K} (hc : t.SwitchesOff (.command nowMs hrNowNs c)) :
    (t.handleCommand nowMs hrNowNs c).1.motionStateMachine.PowerLaw := by
  cases c with
  | manualStartPointMove endPos sp touch =>
    have hm := h.startManualPointmove sp endPos
    simp only [handleCommand]
    split
    · exact h
    · split
      · exact hm.shared rfl
      · exact hm
  | manualEmergencyStopAllMove => exact MotionStateMachine.powerLaw_of_off (by
      simp [handleCommand, onMachine, MotionStateMachine.setEnable, MotionStateMachine.reset]) hc
  | autoStartG00FastMove endPos sp touch =>
    simp only [handleCommand]
    split
    · exact h
    · exact h.start (.g00 sp endPos touch)
  | autoStartG01ServoMove endPos height =>
    simp only [handleCommand]
    split
    · exact h
    · exact h.start (.g01 endPos height nowMs hrNowNs)
  | autoG04Delay delayS =>
    simp only [handleCommand]
    split
    · exact h
    · exact h.start (.g04 delayS)
  | autoM00FakePauseTask =>
    simp only [handleCommand]
    split
    · exact h
    · exact h.start .m00Fake
  | autoG01Group items => exact h.start (.g01Group items)
  | autoStartDrillMove p =>
    simp only [handleCommand, onlyDrill]
    split
    · exact h.start (.drill p)
    · exact h
  | manualStopPointMove imm =>
    simp only [handleCommand]
    split
    · exact h
    · exact h.stopManualPointmove imm
  | autoPause => exact h.pauseAuto
  | autoResume => exact h.resumeAuto
  | autoStop imm => exact h.stopAuto imm
  | setSpindleState on =>
    simp only [handleCommand, onlyDrill]
    split
    · exact h.shared rfl
    · exact h
  | setDrillParams dp =>
    simp only [handleCommand, onlyDrill]
    split
    · exact h.shared rfl
    · exact h
  | settingTestVOffset i type value =>
    simp only [handleCommand]
    split
    · exact h
    · cases type <;> exact h
  | setSpindleParam => simp only [handleCommand, onlyDrill]; split <;> exact h
  | settingTriggerEcatConnect | settingClearStatData | settingMotionSettings => exact h
  | settingClearWarning | settingSetJumpParam | settingSetG01SpeedRatio => exact h.shared rfl

theorem step_powerLaw (t : MotionThread K) (a : Action K) (h : t.motionStateMachine.PowerLaw)
    (hc : t.SwitchesOff a) : (t.step a).motionStateMachine.PowerLaw := by
  cases a with
  | work inp => exact threadCycleWork_powerLaw h hc
  | command nowMs hrNowNs c => exact handleCommand_powerLaw h hc
  | report inp => exact h.shared rfl

/-- In every run in which no reset falls on a discharging task and no discharge task ends after an
earlier pause, the power is off in every state outside the automatic mode. -/
theorem off_outside_auto (actions : List (Action K))
    (hc : Machine.AllSteps step SwitchesOff new actions) :
    (Machine.run step new actions : MotionThread K).OffOutsideAuto :=
  (Machine.AllSteps.invariant (I := fun t : MotionThread K => t.motionStateMachine.PowerLaw)
    step_powerLaw (MotionStateMachine.powerLaw_of_off
      (by simp [new, MotionStateMachine.new, MotionStateMachine.reset])
      (by simp [new, MotionStateMachine.new, MotionStateMachine.reset, MotionShared.new,
        MotionShared.PowerOff])) hc).outside

end MotionThread

end

namespace MotionThread

attribute [local instance] Sample.settings

/-- A cycle in which the drives report nothing amiss. -/
def goodInput : ThreadInput ℚ :=
  ⟨⟨true, true, false, true, true, false, false, 0⟩, Sample.input 0, false⟩

/-- The thread is brought up and starts a discharge task. -/
def dischargeStarted : List (Action ℚ) :=
  [.work goodInput, .work goodInput, .command 0 0 .settingTriggerEcatConnect, .work goodInput,
    .work goodInput, .work goodInput, .work goodInput,
    .command 0 0 (.autoStartG01ServoMove (Sample.xAxis 1) 0)]

/-- The task is stopped and comes to its end. -/
def dischargeStopped : List (Action ℚ) :=
  dischargeStarted ++
    [.command 0 0 (.autoStop false), .work goodInput, .work goodInput, .work goodInput]

theorem dischargeStopped_off :
    let t := Machine.run step new dischargeStopped
    t.motionStateMachine.mainMode = .idle ∧ t.motionStateMachine.shared.PowerOff :=
  ⟨by decide +kernel, off_outside_auto dischargeStopped (by decide +kernel) (by decide +kernel)⟩

/-- An emergency stop drops the discharge task with the power on. -/
theorem emergency_stop_leaves_power_on :
    ¬(Machine.run step new
      (dischargeStarted ++ [.command 0 0 .manualEmergencyStopAllMove])).OffOutsideAuto := by
  intro h
  exact absurd (h (by decide +kernel)) (by decide +kernel)

end MotionThread

end Edm
