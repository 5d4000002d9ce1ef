import Edm.App.GCodeRunner

/-!
# The application and the motion thread

`TaskSystem.step` is one event: a poll of the runner, a request of the user, another command of the
application, a cycle of the motion thread, or the return of the innermost wait. An event of the event
loop may come at any time, also while waits are under way. Events that cannot happen in a state do
nothing there.
-/

namespace Edm

/-- The commands the rest of the application sends: settings, none of which moves the axes. -/
def MotionCommand.isSetting {K : Type} : MotionCommand K → Bool
  | .settingSetJumpParam _ | .settingTriggerEcatConnect | .settingClearWarning
  | .settingClearStatData | .settingMotionSettings | .settingTestVOffset ..
  | .settingSetG01SpeedRatio _ | .setSpindleState _ | .setSpindleParam | .setDrillParams _ => true
  | _ => false

/-- The wait for a command that was answered. -/
def Wait.answered (id : ℕ) (answer : Option Bool) (w : Wait) : Wait :=
  if w.cmd = id then { w with answer := answer } else w

inductive TaskAction (K : Type) where
  /-- `update_timer_`. -/
  | timerTick
  | singleShot
  /-- `InfoDispatcher` hands the next signal on. -/
  | dispatch
  | start (program : Program K)
  | pause
  | resume
  | stop
  | estop
  | startPointmove (endPos : Axis K) (speedParam : MoveRuntimePlanSpeedInput K)
      (touchDetectEnable : Bool)
  | stopPointmove
  | setting (cmd : MotionCommand K)
  | settingWaited (cmd : MotionCommand K) (timeoutMs : Option ℕ)
  /-- The settings and the data base are edited. -/
  | changeSettings (settings : TaskSettings K) (eleparams : ℕ → Option EleParam)
  /-- The coordinate systems are edited, or another one is chosen. -/
  | changeCoords (coords : CoordinateManager K) (currCoordIndex : ℕ)
  /-- A cycle of the motion thread; whether it gets the lock of the command queue. -/
  | motionCycle (inp : ThreadInput K) (fetch : Bool)
  | waitReturns
  | waitTimesOut

namespace TaskSystem

variable {K : Type} [Field K]

/-- The application just started. -/
def new [LinearOrder K] (coords : CoordinateManager K) (currCoordIndex : ℕ)
    (settings : TaskSettings K) (eleparams : ℕ → Option EleParam) : TaskSystem K where
  runner := ⟨.stopped, [], 0, "", false, false⟩
  coords := coords
  currCoordIndex := currCoordIndex
  settings := settings
  eleparams := eleparams
  motion := .new
  cmdQueue := []
  nextCmd := 0
  waits := []
  singleShots := 0
  history := []

variable [LinearOrder K] [FloorRing K] [RealFns K] [Settings]

/-- `InfoDispatcher` and the connections of `_init_help_connections`. -/
def dispatch (s : TaskSystem K) : TaskSystem K :=
  match s.motion.motionSignalQueue with
  | [] => s
  | signal :: rest =>
    let s := { s with motion := { s.motion with motionSignalQueue := rest } }
    match signal.type with
    | .autoPaused | .autoResumed | .autoStopped => s.runOnce
    | _ => s

/-- `operation_start_pointmove`. -/
def operationStartPointmove (s : TaskSystem K) (cmd : MotionCommand K) : TaskSystem K :=
  if s.isOver || s.runner.state = .paused then s.waitFor cmd (some 200) .other else s

def motionCycle (s : TaskSystem K) (inp : ThreadInput K) (fetch : Bool) : TaskSystem K :=
  match s.cmdQueue with
  | (id, cmd) :: rest =>
    if fetch then
      let (t, answer) := s.motion.threadCycle inp (some cmd)
      { s with motion := t, cmdQueue := rest, waits := s.waits.map (Wait.answered id answer) }
    else { s with motion := (s.motion.threadCycle inp none).1 }
  | [] => { s with motion := (s.motion.threadCycle inp none).1 }

/-- The innermost wait is over, with the answer `accepted`. -/
def leaveWait (s : TaskSystem K) (w : Wait) (rest : List Wait) (accepted : Bool) : TaskSystem K :=
  { s with waits := rest }.resumeKont accepted w.kont

def step (s : TaskSystem K) : TaskAction K → TaskSystem K
  | .timerTick => if s.runner.updateTimerActive then s.runOnce else s
  | .singleShot =>
    if s.singleShots = 0 then s else { s with singleShots := s.singleShots - 1 }.runOnce
  | .dispatch => s.dispatch
  | .start program => s.start program
  | .pause => (s.pause .user).1
  | .resume => s.resume
  | .stop => s.stop
  | .estop => s.estop
  | .startPointmove endPos sp touch => s.operationStartPointmove (.manualStartPointMove endPos sp touch)
  | .stopPointmove => s.waitFor (.manualStopPointMove false) (some 200) .other
  | .setting cmd => if cmd.isSetting then s.pushCommand cmd else s
  | .settingWaited cmd timeoutMs =>
    if cmd.isSetting then s.waitFor cmd timeoutMs .other else s
  | .changeSettings settings eleparams => { s with settings := settings, eleparams := eleparams }
  | .changeCoords coords currCoordIndex =>
    { s with coords := coords, currCoordIndex := currCoordIndex }
  | .motionCycle inp fetch => s.motionCycle inp fetch
  | .waitReturns =>
    match s.waits with
    | w :: rest =>
      match w.answer with
      | some accepted => s.leaveWait w rest accepted
      | none => s
    | [] => s
  | .waitTimesOut =>
    match s.waits with
    | w :: rest =>
      if w.timeoutMs.isSome && w.answer.isNone then s.leaveWait w rest false else s
    | [] => s

end TaskSystem

end Edm
