import Edm.Motion.PowerOff

/-!
# What a cycle of the thread can do to the state machine

`WorkCase` lists what becomes of the main mode and the task runner in the first part of a cycle,
`CommandCase` what a command does to them. The results about what the motion side shows the application
go through these lists.
-/

set_option linter.unusedSectionVars false

namespace Edm

variable {K : Type} [Field K] [LinearOrder K] [FloorRing K] [RealFns K] [Settings]

/-- The task a command starts. -/
def MotionCommand.taskStart (nowMs hrNowNs : ℤ) : MotionCommand K → Option (TaskStart K)
  | .autoStartG00FastMove endPos sp touch => some (.g00 sp endPos touch)
  | .autoStartG01ServoMove endPos height => some (.g01 endPos height nowMs hrNowNs)
  | .autoG04Delay delayS => some (.g04 delayS)
  | .autoM00FakePauseTask => some .m00Fake
  | .autoG01Group items => some (.g01Group items)
  | .autoStartDrillMove p => some (.drill p)
  | _ => none

/-- The commands that start a task. -/
def MotionCommand.isStart : MotionCommand K → Bool
  | .autoStartG00FastMove .. | .autoStartG01ServoMove .. | .autoG04Delay _ | .autoM00FakePauseTask
  | .autoG01Group _ | .autoStartDrillMove _ => true
  | _ => false

theorem MotionCommand.isStart_of_taskStart {nowMs hrNowNs : ℤ} {c : MotionCommand K}
    {ts : TaskStart K} (h : c.taskStart nowMs hrNowNs = some ts) : c.isStart := by
  cases c with
  | autoStartG00FastMove | autoStartG01ServoMove | autoG04Delay | autoM00FakePauseTask | autoG01Group
  | autoStartDrillMove => rfl
  | _ => cases h

namespace MotionStateMachine

/-- The main mode and the task runner are as they were. -/
structure Rests (m m' : MotionStateMachine K) : Prop where
  mainMode : m'.mainMode = m.mainMode
  autoTaskRunner : m'.autoTaskRunner = m.autoTaskRunner

theorem Rests.refl (m : MotionStateMachine K) : Rests m m := ⟨rfl, rfl⟩

/-- Outcomes of a cycle. -/
inductive CycleCase (m : MotionStateMachine K) (inp : CycleInput K) : MotionStateMachine K → Prop where
  | rests {m' : MotionStateMachine K} (h : Rests m m') : CycleCase m inp m'
  | manualOver {m' : MotionStateMachine K} (h : m.mainMode = .manual) (h' : m'.mainMode = .idle) :
      CycleCase m inp m'
  | auto (h : m.mainMode = .auto) : CycleCase m inp (m.mainmodeAuto inp)

theorem runOnce_cases (m : MotionStateMachine K) (inp : CycleInput K) :
    CycleCase m inp (m.runOnce inp) := by
  unfold runOnce
  split
  · exact .rests (.refl m)
  · split <;> rename_i hm
    · exact .rests ⟨rfl, rfl⟩
    · unfold mainmodeManual
      split
      · exact .manualOver hm rfl
      · dsimp only
        split
        · exact .manualOver hm rfl
        · exact .rests ⟨rfl, rfl⟩
    · exact .auto hm

end MotionStateMachine

namespace MotionThread

/-- Outcomes of the work of a cycle, without its command. -/
inductive WorkCase (t : MotionThread K) (inp : ThreadInput K) : MotionStateMachine K → Prop where
  | rests {m : MotionStateMachine K} (h : t.motionStateMachine.Rests m) : WorkCase t inp m
  | resets {m : MotionStateMachine K} (hr : t.resets inp) (h : m.mainMode = .idle) : WorkCase t inp m
  | cycle : WorkCase t inp (t.motionStateMachine.runOnce inp.cycle)

/-- Outcomes of a command. -/
inductive CommandCase (t : MotionThread K) (nowMs hrNowNs : ℤ) (c : MotionCommand K) :
    MotionStateMachine K → Bool → Prop where
  | rests {m : MotionStateMachine K} (ret : Bool) (h : t.motionStateMachine.Rests m) :
      CommandCase t nowMs hrNowNs c m ret
  | estop {m : MotionStateMachine K} (hc : c = .manualEmergencyStopAllMove) (h : m.mainMode = .idle) :
      CommandCase t nowMs hrNowNs c m true
  | manual {m : MotionStateMachine K} (ret : Bool) (h : t.motionStateMachine.mainMode = .idle)
      (h' : m.mainMode = .manual) : CommandCase t nowMs hrNowNs c m ret
  /-- A manual move in a pause. -/
  | manualInPause {m : MotionStateMachine K} (ret : Bool) (pmc : PauseMoveController K)
      (h : t.motionStateMachine.mainMode = .auto)
      (hs : t.motionStateMachine.autoTaskRunner.state = .paused)
      (hd : t.motionStateMachine.autoTaskRunner.dominState = .autoTaskRunning)
      (h' : m.mainMode = .auto)
      (hr : m.autoTaskRunner =
        { t.motionStateMachine.autoTaskRunner with pausemoveController := pmc }) :
      CommandCase t nowMs hrNowNs c m ret
  | start (ts : TaskStart K) (hts : c.taskStart nowMs hrNowNs = some ts)
      (h : t.motionStateMachine.mainMode = .idle)
      (ho : (ts.build t.motionStateMachine.shared).1.isOver = false) {m : MotionStateMachine K}
      (h' : m.mainMode = .auto)
      (hr : m.autoTaskRunner = (t.motionStateMachine.autoTaskRunner.restartTask
        (ts.build t.motionStateMachine.shared).1).1) :
      CommandCase t nowMs hrNowNs c m true
  | pause (hc : c = .autoPause) (h : t.motionStateMachine.mainMode = .auto) :
      CommandCase t nowMs hrNowNs c t.motionStateMachine.pauseAuto.1 t.motionStateMachine.pauseAuto.2
  | resume (hc : c = .autoResume) (h : t.motionStateMachine.mainMode = .auto) :
      CommandCase t nowMs hrNowNs c t.motionStateMachine.resumeAuto.1
        t.motionStateMachine.resumeAuto.2
  | stop (imm : Bool) (hc : c = .autoStop imm) (h : t.motionStateMachine.mainMode = .auto) :
      CommandCase t nowMs hrNowNs c (t.motionStateMachine.stopAuto imm).1
        (t.motionStateMachine.stopAuto imm).2

variable (t : MotionThread K) (inp : ThreadInput K)

theorem threadstateRunning_cases (hs : t.threadState = .running) :
    WorkCase t inp (t.threadstateRunning inp).motionStateMachine := by
  have hreset (h : t.ecatState = .ecatConnectedNotAllEnabled ∧ inp.ecat.allEnabled ∨
      t.ecatState = .ecatConnectedEnabling ∧ (inp.ecat.allEnabled ∨ inp.ecat.connected = false) ∨
      t.ecatState = .ecatReady ∧ inp.ecat.connected = false) : t.resets inp := by
    rcases h with ⟨h, h'⟩ | ⟨h, h' | h'⟩ | ⟨h, h'⟩ <;> simp [resets, hs, h, h']
  unfold threadstateRunning
  split <;> rename_i he
  · exact .rests (.refl _)
  · split <;> exact .rests (.refl _)
  · exact .rests (.refl _)
  · repeat' split
    all_goals exact .rests (.refl _)
  · split
    · rename_i ha
      exact .resets (hreset (.inl ⟨he, ha⟩)) rfl
    · split <;> exact .rests (.refl _)
  · by_cases ha : inp.ecat.allEnabled <;> by_cases hd : inp.ecat.connected <;>
      simp only [ha, hd, Bool.not_true, Bool.not_false, Bool.false_eq_true, if_true, if_false]
    · exact .resets (hreset (.inr (.inl ⟨he, .inl ha⟩))) rfl
    · exact .resets (hreset (.inr (.inl ⟨he, .inl ha⟩))) rfl
    · exact .rests (.refl _)
    · exact .resets (hreset (.inr (.inl ⟨he, .inr (by simpa using hd)⟩))) rfl
  · dsimp only
    split
    · rename_i hd
      exact .resets (hreset (.inr (.inr ⟨he, by simpa using hd⟩))) rfl
    · exact .cycle

theorem threadCycleWork_cases : WorkCase t inp (t.threadCycleWork inp).motionStateMachine := by
  unfold threadCycleWork
  split <;> rename_i hs
  · exact .rests (.refl _)
  · have h := threadstateRunning_cases t inp hs
    dsimp only
    split <;> exact h
  · unfold threadstateStopping
    repeat' split
    all_goals exact .rests (.refl _)
  · exact .rests (.refl _)

theorem start_case (ts : TaskStart K) {nowMs hrNowNs : ℤ} {c : MotionCommand K}
    (hts : c.taskStart nowMs hrNowNs = some ts) :
    CommandCase t nowMs hrNowNs c (t.motionStateMachine.start ts).1 (t.motionStateMachine.start ts).2 := by
  rw [MotionStateMachine.start_eq]
  split
  · exact .rests _ (.refl _)
  · rename_i h
    unfold MotionStateMachine.startAuto
    split
    · exact .rests _ ⟨rfl, rfl⟩
    · rename_i ho
      refine .start ts hts ?_ (by simpa using ho) rfl rfl
      by_contra hm
      exact h (.inr hm)

theorem startManualPointmove_case (nowMs hrNowNs : ℤ) (c : MotionCommand K)
    (sp : MoveRuntimePlanSpeedInput K) (target : Axis K) (touch : Bool) :
    CommandCase t nowMs hrNowNs c
      (if (t.motionStateMachine.startManualPointmove sp target).2 then
        { (t.motionStateMachine.startManualPointmove sp target).1 with
          shared := (t.motionStateMachine.startManualPointmove sp target).1.shared.setDetectEnable touch }
      else (t.motionStateMachine.startManualPointmove sp target).1)
      (t.motionStateMachine.startManualPointmove sp target).2 := by
  unfold MotionStateMachine.startManualPointmove
  split <;> rename_i hm
  · dsimp only
    split
    · exact .manual true hm rfl
    · exact .rests _ ⟨rfl, rfl⟩
  · exact .rests _ (.refl _)
  · unfold AutoTaskRunner.startManualPointmove
    dsimp only
    split
    · exact .rests _ ⟨rfl, rfl⟩
    · rename_i h
      obtain ⟨hs, hd⟩ := not_or.mp h
      split
      · exact .manualInPause _ _ hm (not_not.mp hs) (not_not.mp hd) hm rfl
      · exact .manualInPause _ _ hm (not_not.mp hs) (not_not.mp hd) hm rfl

theorem stopManualPointmove_case (nowMs hrNowNs : ℤ) (c : MotionCommand K) (imm : Bool) :
    CommandCase t nowMs hrNowNs c (t.motionStateMachine.stopManualPointmove imm).1
      (t.motionStateMachine.stopManualPointmove imm).2 := by
  unfold MotionStateMachine.stopManualPointmove
  split <;> rename_i hm
  · exact .rests _ (.refl _)
  · exact .rests _ ⟨rfl, rfl⟩
  · unfold AutoTaskRunner.stopManualPointmove
    dsimp only
    split
    · exact .rests _ ⟨rfl, rfl⟩
    · rename_i h
      obtain ⟨hs, hd⟩ := not_or.mp h
      exact .manualInPause _ _ hm (not_not.mp hs) (not_not.mp hd) hm rfl

theorem handleCommand_cases (nowMs hrNowNs : ℤ) (c : MotionCommand K) :
    CommandCase t nowMs hrNowNs c (t.handleCommand nowMs hrNowNs c).1.motionStateMachine
      (t.handleCommand nowMs hrNowNs c).2 := by
  cases c with
  | manualStartPointMove endPos sp touch =>
    simp only [handleCommand]
    split
    · exact .rests _ (.refl _)
    · exact startManualPointmove_case t nowMs hrNowNs _ sp endPos touch
  | manualStopPointMove imm =>
    simp only [handleCommand]
    split
    · exact .rests _ (.refl _)
    · exact stopManualPointmove_case t nowMs hrNowNs _ imm
  | manualEmergencyStopAllMove => exact .estop rfl rfl
  | autoStartG00FastMove endPos sp touch =>
    simp only [handleCommand]
    split
    · exact .rests _ (.refl _)
    · exact start_case t (.g00 sp endPos touch) rfl
  | autoStartG01ServoMove endPos height =>
    simp only [handleCommand]
    split
    · exact .rests _ (.refl _)
    · exact start_case t (.g01 endPos height nowMs hrNowNs) rfl
  | autoG04Delay delayS =>
    simp only [handleCommand]
    split
    · exact .rests _ (.refl _)
    · exact start_case t (.g04 delayS) rfl
  | autoM00FakePauseTask =>
    simp only [handleCommand]
    split
    · exact .rests _ (.refl _)
    · exact start_case t .m00Fake rfl
  | autoG01Group items => exact start_case t (.g01Group items) rfl
  | autoStartDrillMove p =>
    simp only [handleCommand, onlyDrill]
    split
    · exact start_case t (.drill p) rfl
    · exact .rests _ (.refl _)
  | autoPause =>
    by_cases hm : t.motionStateMachine.mainMode = .auto
    · exact .pause rfl hm
    · simp only [handleCommand, onMachine, MotionStateMachine.pauseAuto, if_pos hm]
      exact .rests _ (.refl _)
  | autoResume =>
    by_cases hm : t.motionStateMachine.mainMode = .auto
    · exact .resume rfl hm
    · simp only [handleCommand, onMachine, MotionStateMachine.resumeAuto, if_pos hm]
      exact .rests _ (.refl _)
  | autoStop imm =>
    by_cases hm : t.motionStateMachine.mainMode = .auto
    · exact .stop imm rfl hm
    · simp only [handleCommand, onMachine, MotionStateMachine.stopAuto, if_pos hm]
      exact .rests _ (.refl _)
  | settingTestVOffset i type value =>
    simp only [handleCommand]
    split
    · exact .rests _ (.refl _)
    · cases type <;> exact .rests _ (.refl _)
  | setSpindleState | setSpindleParam | setDrillParams =>
    simp only [handleCommand, onlyDrill]
    split <;> exact .rests _ ⟨rfl, rfl⟩
  | settingTriggerEcatConnect | settingClearStatData | settingMotionSettings | settingClearWarning
  | settingSetJumpParam | settingSetG01SpeedRatio => exact .rests _ ⟨rfl, rfl⟩

end MotionThread

end Edm
