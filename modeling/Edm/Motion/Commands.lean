import Edm.Lib.Run
import Edm.Motion.StateMachine

/-!
# Commands and runs

The two machines the results are about. `MotionStateMachine.step` performs one command of the
motion thread on the whole state machine. `RunnerSystem.step` performs one operation on a task
runner alone, in any state, as a client of `AutoTaskRunner` may. Refused commands are steps too.
-/

namespace Edm

variable {K : Type}

/-- A task to start, with the parameters of its `start_auto_…`. -/
inductive TaskStart (K : Type) where
  | g00 (speedParam : MoveRuntimePlanSpeedInput K) (targetPos : Axis K) (enableTouchDetect : Bool)
  | g01 (targetPos : Axis K) (maxJumpHeightFromBegin : K) (nowMs hrNowNs : ℤ)
  | g04 (delayS : K)
  | g01Group (items : List (G01GroupItem K))
  | m00Fake
  | drill (startParams : DrillStartParams K)

/-- Commands that only change shared data. -/
inductive SettingCommand (K : Type) where
  | clearWarning
  | setDetectEnable (enable : Bool)
  | setJumpParam (jumpParam : JumpParam K)
  | setG01SpeedRatio (ratio : K)
  | setDrillParams (drillParams : DrillParams K)
  | resetSignals

def SettingCommand.apply (c : SettingCommand K) (sh : MotionShared K) : MotionShared K :=
  match c with
  | .clearWarning => { sh with touch := sh.touch.clearWarning }
  | .setDetectEnable enable => sh.setDetectEnable enable
  | .setJumpParam jp => { sh with jumpParam := jp }
  | .setG01SpeedRatio ratio => { sh with g01SpeedRatio := ratio }
  | .setDrillParams dp => { sh with drillParams := dp }
  | .resetSignals => { sh with signalBuffer := sh.signalBuffer.resetAll }

variable [Field K] [LinearOrder K] [FloorRing K] [RealFns K] [Settings]

/-- The task constructed, and what its constructor does to the shared data. -/
def TaskStart.build (ts : TaskStart K) (sh : MotionShared K) : AutoTask K × MotionShared K :=
  match ts with
  | .g00 sp target touch => (.g00 (.new target sp touch sh), sh)
  | .g01 target height nowMs hrNowNs =>
    let (t, sh) :=
      G01AutoTask.new (.new sh.globalCmdAxis target) height sh nowMs hrNowNs
    (.g01 t, sh)
  | .g04 delay => (.g04 (.new delay), sh)
  | .g01Group items => let (t, sh) := G01GroupAutoTask.new items sh; (.g01Group t, sh)
  | .m00Fake => (.m00Fake .new, sh)
  | .drill p => let (t, sh) := DrillAutoTask.new p sh; (.drill t, sh)

/-- The drill task exists in the drilling build only. -/
def TaskStart.compiled : TaskStart K → Bool
  | .drill _ => Settings.powerZhongguDrill
  | _ => true

namespace MotionStateMachine

inductive Command (K : Type) where
  | start (ts : TaskStart K)
  | pauseAuto
  | resumeAuto
  | stopAuto (immediate : Bool)
  | startManualPointmove (speedParam : MoveRuntimePlanSpeedInput K) (targetPos : Axis K)
  | stopManualPointmove (immediate : Bool)
  | setting (c : SettingCommand K)
  | cycle (inp : CycleInput K)

def start (m : MotionStateMachine K) : TaskStart K → MotionStateMachine K × Bool
  | .g00 sp target touch => m.startAutoG00 sp target touch
  | .g01 target height nowMs hrNowNs => m.startAutoG01 target height nowMs hrNowNs
  | .g04 delay => m.startAutoG04 delay
  | .g01Group items => m.startAutoG01Group items
  | .m00Fake => m.startAutoM00fake
  | .drill p => m.startAutoDrill p

def step (m : MotionStateMachine K) : Command K → MotionStateMachine K
  | .start ts => (m.start ts).1
  | .pauseAuto => m.pauseAuto.1
  | .resumeAuto => m.resumeAuto.1
  | .stopAuto immediate => (m.stopAuto immediate).1
  | .startManualPointmove sp target => (m.startManualPointmove sp target).1
  | .stopManualPointmove immediate => (m.stopManualPointmove immediate).1
  | .setting c => { m with shared := c.apply m.shared }
  | .cycle inp => m.runOnce inp

theorem start_eq (m : MotionStateMachine K) (ts : TaskStart K) :
    m.start ts =
      if !ts.compiled ∨ m.mainMode ≠ .idle then (m, false)
      else m.startAuto (ts.build m.shared).1 (ts.build m.shared).2 := by
  cases ts <;> simp only [start, TaskStart.compiled, Bool.not_true, Bool.false_eq_true, false_or] <;>
    rfl

end MotionStateMachine

/-- A task runner with the shared data. `pausedAt` is not in the source: it is the commanded axis
when the task was last found paused. -/
structure RunnerSystem (K : Type) where
  runner : AutoTaskRunner K
  shared : MotionShared K
  pausedAt : Axis K

namespace RunnerSystem

inductive Command (K : Type) where
  | start (ts : TaskStart K)
  | pause
  | resume
  | stop (immediate : Bool)
  | startManualPointmove (speedParam : MoveRuntimePlanSpeedInput K) (targetPos : Axis K)
  | stopManualPointmove (immediate : Bool)
  | setting (c : SettingCommand K)
  | cycle (inp : CycleInput K)

/-- A runner just constructed, with shared data in any state. -/
def new (sh : MotionShared K) : RunnerSystem K :=
  ⟨.new, { sh with fault := false }, sh.globalCmdAxis⟩

/-- `restart_task`, as `MotionStateMachine` calls it: only with a task that is not over. -/
def start (s : RunnerSystem K) (ts : TaskStart K) : RunnerSystem K :=
  let (task, sh) := ts.build s.shared
  if task.isOver then { s with shared := sh }
  else { s with runner := (s.runner.restartTask task).1, shared := sh.setSignal .autoStarted }

/-- The runner between two steps: in a pause of its task, on the task's side. -/
def pausedInTask (r : AutoTaskRunner K) : Bool :=
  r.state = .paused ∧ r.dominState = .autoTaskRunning

/-- Manual moves start from the commanded axis, as `MotionStateMachine` starts them. -/
def step (s : RunnerSystem K) : Command K → RunnerSystem K
  | .start ts => s.start ts
  | .pause => let (r, sh, _) := s.runner.pause s.shared; { s with runner := r, shared := sh }
  | .resume => let (r, sh, _) := s.runner.resume s.shared; { s with runner := r, shared := sh }
  | .stop immediate =>
    let (r, sh, _) := s.runner.stop s.shared immediate
    { s with runner := r, shared := sh }
  | .startManualPointmove sp target =>
    let (r, sh, _) := s.runner.startManualPointmove s.shared sp s.shared.globalCmdAxis target
    { s with runner := r, shared := sh }
  | .stopManualPointmove immediate =>
    { s with runner := (s.runner.stopManualPointmove immediate).1 }
  | .setting c => { s with shared := c.apply s.shared }
  | .cycle inp =>
    let (r, sh) := s.runner.runOnce s.shared inp
    { runner := r
      shared := sh
      pausedAt :=
        if pausedInTask r && !pausedInTask s.runner then sh.globalCmdAxis else s.pausedAt }

end RunnerSystem

/-! ### Data of concrete runs -/

namespace Sample

/-- The default build: a cycle of a millisecond, no drilling machine. -/
@[reducible] def settings : Settings := ⟨1000, by decide, false⟩

/-- One jerk cycle on each side of an acceleration, so that a short move takes few cycles. -/
def speedParam : MoveRuntimePlanSpeedInput ℚ := ⟨1000000, -1000000, 1000, 0, 0, 1⟩

/-- The position `x` on the first drive, zero on the others. -/
def xAxis (x : ℚ) : Axis ℚ := fun i => if i = 0 then x else 0

/-- A cycle without touch, at time zero, the servo board asking for `speed`. -/
def input (speed : ℚ) : CycleInput ℚ := ⟨false, speed, 0, 0, 0⟩

end Sample

end Edm
