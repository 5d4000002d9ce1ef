import Edm.App.Prepare

/-!
# The runner of a program

`GCodeRunner` lives in the event loop of the application. It polls the motion thread on a timer
and on signals (`runOnce`), and serves the requests of the user. A command to the motion thread is
waited for in a nested event loop (`WaitforCmdTobeAccepted`): until it is answered, polls, requests and
other waits may run inside the wait. The waits under way are a stack, innermost first; what the
caller does after its wait is a `Kont`.

The timers of the nodes, which only measure, and the intervals of the poll timer are left out.
`localInfoCache` is the argument `info` of a poll: it is loaded at its start, and nothing reads it
after a wait. `history` has no counterpart in the source. An index past the end of the program,
undefined in the source, does nothing.
-/

namespace Edm

inductive GCodeRunner.State where
  | readyToStart | currentNodeIniting | running | waitingForPaused | paused | waitingForResumed
  | waitingForStopped | stopped
  deriving DecidableEq, Repr

structure GCodeRunner (K : Type) where
  state : GCodeRunner.State
  gcodeList : List (GCodeTask K)
  currGcodeNum : ℕ
  lastErrorStr : String
  delayPauseFlag : Bool
  /-- `update_timer_` is started. -/
  updateTimerActive : Bool

/-- A program that is started is not empty: `start` looks at its last node. -/
structure Program (K : Type) where
  tasks : List (GCodeTask K)
  ne : tasks ≠ []

/-- Who called `_abort`. -/
inductive AbortCaller where
  | runOnce | start | estop
  deriving DecidableEq, Repr

inductive PauseCaller where
  | runOnce | user
  deriving DecidableEq, Repr

/-- What is left to do after a wait. -/
inductive Kont where
  /-- The start of a node; the message of a refusal, and whether it is a drill node. -/
  | startAnswered (err : String) (drill : Bool)
  | eleparamSet (index : ℤ)
  | warningCleared
  | aborted (err : String) (caller : AbortCaller)
  | pauseAnswered (caller : PauseCaller)
  | resumeAnswered
  /-- `stop`, called while waiting for a pause or not. -/
  | stopAnswered (waitingForPaused : Bool)
  | stopEstopAnswered
  | estopAnswered
  /-- A wait outside the runner. -/
  | other
  deriving DecidableEq, Repr

structure Wait where
  cmd : ℕ
  /-- `none` waits for ever. -/
  timeoutMs : Option ℕ
  kont : Kont
  answer : Option Bool
  deriving DecidableEq, Repr

/-- The signals the runner emits, and what it does: `start` called on a runner that is over, `start`
and `stop` returned, a node initialised or run, a command to start a task sent, an abort because the
motion side is in a state that does not fit. -/
inductive RunnerEvent where
  | autoStarted
  | autoPaused
  | autoResumed
  | autoStopped (errOccured : Bool)
  | autogcodeSwitchedToLine (lineNum : ℤ)
  | switchCoordindex (coordIndex : ℕ)
  | coordOffsetChanged
  | recordData (start : Bool)
  | startCalled
  | startReturned (ret : Bool)
  | stopReturned (ret : Bool)
  | initNode (num : ℕ)
  | runNode (num : ℕ)
  | startCommand (num : ℕ)
  | stateMismatch
  deriving DecidableEq, Repr

/-- `EleParam_dkd_t`, as far as the motion side is told of it. -/
structure EleParam where
  up : ℕ
  dn : ℕ
  jumpJs : ℕ
  deriving DecidableEq, Repr

namespace PowerManager

variable {K : Type} [Field K]

/-- `_get_speed_blu_s_from_js`. -/
def getSpeedBluSFromJs (js : ℕ) : K :=
  let digits12 : ℕ := if js % 100 = 0 then 1 else js % 100
  UnitConverter.mmMin2bluS ((digits12 : K) * 100)

/-- `_get_jump_acc_from_js`. -/
def getJumpAccFromJs (js : ℕ) : K :=
  let digits345 : ℕ := if js / 100 % 1000 = 0 then 1 else js / 100 % 1000
  (digits345 : K) * UnitConverter.um2blu ((10000 : ℕ) : K)

/-- The jump parameters of `set_current_eleparam`. -/
def jumpParam [LinearOrder K] [FloorRing K] [Settings] (st : TaskSettings K) (e : EleParam) :
    JumpParam K where
  upBlu := UnitConverter.mm2blu (e.up : K)
  dnMs := e.dn * 100
  bufferBlu := (st.jumpBufferUm : K)
  speedParam :=
    { acc0 := getJumpAccFromJs e.jumpJs
      dec0 := -getJumpAccFromJs e.jumpJs
      entryV := 0
      exitV := 0
      nacc := ⌊UnitConverter.ms2p (st.jumpNaccMs : K)⌋.toNat
      cruiseV := getSpeedBluSFromJs e.jumpJs }

end PowerManager

/-- The runner with what it works on: the coordinate systems, the settings and the data base of
electrical parameters, the queue of commands and the motion thread, the waits of the event loop. -/
structure TaskSystem (K : Type) where
  runner : GCodeRunner K
  coords : CoordinateManager K
  currCoordIndex : ℕ
  settings : TaskSettings K
  eleparams : ℕ → Option EleParam
  motion : MotionThread K
  /-- The commands not yet fetched, with their numbers. -/
  cmdQueue : List (ℕ × MotionCommand K)
  nextCmd : ℕ
  waits : List Wait
  /-- `QTimer::singleShot` polls not yet delivered. -/
  singleShots : ℕ
  history : List RunnerEvent

namespace TaskSystem

variable {K : Type}

def emit (s : TaskSystem K) (e : RunnerEvent) : TaskSystem K :=
  { s with history := e :: s.history }

def isOver (s : TaskSystem K) : Bool := s.runner.state = .stopped

def currGcode (s : TaskSystem K) : Option (GCodeTask K) :=
  s.runner.gcodeList[s.runner.currGcodeNum]?

def setDelayPauseFlag (s : TaskSystem K) (flag : Bool) : TaskSystem K :=
  { s with runner := { s.runner with delayPauseFlag := flag } }

def switchToState (s : TaskSystem K) (newState : GCodeRunner.State) : TaskSystem K :=
  { s with runner := { s.runner with state := newState } }

def resetState (s : TaskSystem K) : TaskSystem K :=
  { s with
    runner :=
      { s.runner with state := .stopped, updateTimerActive := false, delayPauseFlag := false } }

def pushCommand (s : TaskSystem K) (cmd : MotionCommand K) : TaskSystem K :=
  { s with cmdQueue := s.cmdQueue ++ [(s.nextCmd, cmd)], nextCmd := s.nextCmd + 1 }

/-- A command is sent and waited for. -/
def waitFor (s : TaskSystem K) (cmd : MotionCommand K) (timeoutMs : Option ℕ) (kont : Kont) :
    TaskSystem K :=
  { s.pushCommand cmd with waits := ⟨s.nextCmd, timeoutMs, kont, none⟩ :: s.waits }

/-- A function of the runner up to its end or its first wait; whether it is through. -/
abbrev Flow (K : Type) := TaskSystem K × Bool

/-! ### Ends -/

/-- `_abort` up to its wait. -/
def abort (s : TaskSystem K) (err : String) (caller : AbortCaller) : TaskSystem K :=
  s.waitFor .manualEmergencyStopAllMove none (.aborted err caller)

/-- `_abort` after its wait, whatever the answer. -/
def aborted (s : TaskSystem K) (err : String) : TaskSystem K :=
  let s := s.resetState
  { s with runner := { s.runner with lastErrorStr := err } }.emit (.autoStopped true)

/-- `_end`. -/
def end_ (s : TaskSystem K) : TaskSystem K :=
  let s := (s.switchToState .stopped).resetState
  { s with runner := { s.runner with lastErrorStr := "" } }.emit (.autoStopped false)

def drillRecordData (s : TaskSystem K) (start : Bool) : TaskSystem K :=
  if s.settings.drillAutoRecordData then s.emit (.recordData start) else s

/-- The recording is stopped at the end of a drill node. -/
def stopRecording [Settings] (s : TaskSystem K) (g : GCodeTask K) : TaskSystem K :=
  match g.node with
  | .drillMotion .. => if Settings.powerZhongguDrill then s.drillRecordData false else s
  | _ => s

/-- `_check_to_next_gcode`. -/
def checkToNextGcode [Settings] (s : TaskSystem K) (g : GCodeTask K) : Flow K :=
  let s := s.stopRecording g
  let num := s.runner.currGcodeNum + 1
  let s := { s with runner := { s.runner with currGcodeNum := num } }
  if num ≥ s.runner.gcodeList.length then
    (s.abort "_check_to_next_gcode: gcode overflow" .runOnce, false)
  else
    let s := s.switchToState .currentNodeIniting
    ({ s with singleShots := s.singleShots + 1 }, true)

/-- `_check_to_next_gcode` of whatever node is current. -/
def nextGcode [Settings] (s : TaskSystem K) : Flow K :=
  match s.currGcode with
  | none => (s, true)
  | some g => s.checkToNextGcode g

/-! ### Requests -/

/-- `pause`; no result yet where it waits. -/
def pause (s : TaskSystem K) (caller : PauseCaller) : TaskSystem K × Option Bool :=
  if s.isOver then (s, some false)
  else
    match s.currGcode with
    | none => (s, some false)
    | some g =>
      match s.runner.state with
      | .waitingForResumed | .running =>
        if !g.isMotionTask then ((s.switchToState .paused).emit .autoPaused, some true)
        else (s.waitFor .autoPause none (.pauseAnswered caller), none)
      | .waitingForPaused | .paused => (s, some true)
      | .currentNodeIniting => (s.setDelayPauseFlag true, some false)
      | .waitingForStopped | .stopped | .readyToStart => (s, some false)

/-- The end of `_run_once`. -/
def runOnceTail (s : TaskSystem K) : TaskSystem K :=
  if s.runner.delayPauseFlag then
    match s.pause .runOnce with
    | (s, some true) => s.setDelayPauseFlag false
    | (s, _) => s
  else s

/-- `_run_once` goes on once a function it called is through. -/
def thenTail (f : Flow K) : TaskSystem K := if f.2 then f.1.runOnceTail else f.1

def pauseAnswered (s : TaskSystem K) (caller : PauseCaller) (accepted : Bool) : TaskSystem K :=
  if !accepted then s.setDelayPauseFlag true
  else
    let s := s.switchToState .waitingForPaused
    match caller with
    | .runOnce => s.setDelayPauseFlag false
    | .user => s

def resume (s : TaskSystem K) : TaskSystem K :=
  if s.isOver then s
  else
    match s.currGcode with
    | none => s
    | some g =>
      match s.runner.state with
      | .paused =>
        if !g.isMotionTask then (s.switchToState .running).emit .autoResumed
        else s.waitFor .autoResume none .resumeAnswered
      | _ => s

def resumeAnswered (s : TaskSystem K) (accepted : Bool) : TaskSystem K :=
  if accepted then s.switchToState .waitingForResumed else s

def stop (s : TaskSystem K) : TaskSystem K :=
  if s.isOver then s.emit (.stopReturned false)
  else
    match s.currGcode with
    | none => s
    | some g =>
      match s.runner.state with
      | .waitingForResumed | .paused | .running =>
        if !g.isMotionTask then s.end_.emit (.stopReturned true)
        else s.waitFor (.autoStop false) none (.stopAnswered false)
      | .currentNodeIniting => s.end_.emit (.stopReturned true)
      | .waitingForStopped | .stopped => s.emit (.stopReturned true)
      | .waitingForPaused => s.waitFor (.autoStop false) none (.stopAnswered true)
      | .readyToStart => s.emit (.stopReturned false)

/-- A task that cannot be stopped may be over already: the motion is stopped at once. -/
def stopAnswered (s : TaskSystem K) (waitingForPaused accepted : Bool) : TaskSystem K :=
  if accepted then (s.switchToState .waitingForStopped).emit (.stopReturned true)
  else if waitingForPaused then s.emit (.stopReturned false)
  else s.waitFor .manualEmergencyStopAllMove none .stopEstopAnswered

def estop (s : TaskSystem K) : TaskSystem K :=
  s.waitFor .manualEmergencyStopAllMove none .estopAnswered

def estopAnswered (s : TaskSystem K) (accepted : Bool) : TaskSystem K :=
  if !accepted then s
  else if s.isOver then s.resetState
  else s.abort "ESTOP" .estop

/-- `_check_gcode_list_at_first`: the message of the first thing that is wrong. -/
def checkGcodeListAtFirst (s : TaskSystem K) : Option String :=
  (s.runner.gcodeList.findSome? fun g =>
    match g.node with
    | .eleparamSet index =>
      if (s.eleparams (uint32 index)).isSome then none
      else some ("check err: eleparam not exist: " ++ toString index)
    | .coordinateIndex index =>
      if s.coords.existCoordinateIndex (uint32 index) then none
      else some ("check err: coord index not exist: " ++ toString index)
    | _ => none).or
  (match s.runner.gcodeList.getLast? with
    | some ⟨_, _, _, .programEnd⟩ => none
    | _ => some "check err: last gcode is not m02")

def start (s : TaskSystem K) (program : Program K) : TaskSystem K :=
  if !s.isOver then s.emit (.startReturned false)
  else
    let s := s.emit .startCalled
    let s := { s with runner := { s.runner with gcodeList := program.tasks, currGcodeNum := 0 } }
    match s.checkGcodeListAtFirst with
    | some err => s.abort err .start
    | none =>
      let s := { s with runner := { s.runner with updateTimerActive := true } }
      (s.switchToState .readyToStart).emit (.startReturned true)

/-! ### Polls -/

section Poll

variable [Field K] [LinearOrder K] [FloorRing K] [RealFns K] [Settings]

/-- `_state_current_node_initing`. -/
def stateCurrentNodeIniting (s : TaskSystem K) (info : MotionInfo K) : Flow K :=
  match s.currGcode with
  | none => (s, true)
  | some g =>
    let num := s.runner.currGcodeNum
    let s := (s.emit (.initNode num)).emit (.autogcodeSwitchedToLine g.lineNumber)
    if !g.isMotionTask then (s.switchToState .running, true)
    else
      match GCodeRunner.prepare s.settings s.coords info.currCmdAxisBlu g.node with
      | .abort err => (s.abort err .runOnce, false)
      | .next => s.checkToNextGcode g
      | .unknown => (s, true)
      | .send cmd timeoutMs err =>
        ((s.emit (.startCommand num)).waitFor cmd timeoutMs
          (.startAnswered err g.isDrill), false)

def startAnswered (s : TaskSystem K) (err : String) (drill accepted : Bool) : Flow K :=
  if !accepted then (s.abort err .runOnce, false)
  else
    let s := if drill then s.drillRecordData true else s
    (s.switchToState .running, true)

/-- `_state_running_non_motion`. -/
def stateRunningNonMotion (s : TaskSystem K) (info : MotionInfo K) (g : GCodeTask K) : Flow K :=
  match g.node with
  | .programEnd => (s.end_, true)
  | .coordinateIndex index =>
    if !s.coords.existCoordinateIndex (uint32 index) then
      (s.abort ("abort: coord index not exist: " ++ toString index) .runOnce, false)
    else
      { s.emit (.switchCoordindex (uint32 index)) with currCoordIndex := uint32 index }
        |>.checkToNextGcode g
  | .eleparamSet index =>
    match s.eleparams (uint32 index) with
    | none => (s.abort ("abort: ele param not exist: " ++ toString index) .runOnce, false)
    | some e =>
      (s.waitFor (.settingSetJumpParam (PowerManager.jumpParam s.settings e)) none
        (.eleparamSet index), false)
  | .coordSetZero setZeroAxisList =>
    match s.coords.coordinatesMap s.currCoordIndex with
    | none => (s.abort "abort: CoordSetZeroCommand: original offset get failed" .runOnce, false)
    | some offset =>
      let newOffset : Axis K := fun i =>
        if setZeroAxisList i then info.currCmdAxisBlu i else offset i
      match s.coords.setCoordOffset s.currCoordIndex newOffset with
      | none => (s.abort "abort: CoordSetZeroCommand: set zero failed" .runOnce, false)
      | some cm => { s.emit .coordOffsetChanged with coords := cm } |>.checkToNextGcode g
  | .coordinateMode | .feedSpeedSet => s.checkToNextGcode g
  | _ => (s, true)

/-- The current commanded task is over: the touch warning is looked at before the next node. -/
def stateRunningIdle (s : TaskSystem K) (info : MotionInfo K) (g : GCodeTask K) : Flow K :=
  match g.node with
  | .g00Motion _ isTouchMotion _ _ _ _ =>
    if !info.touchWarning then s.checkToNextGcode g
    else if isTouchMotion then (s.waitFor .settingClearWarning (some 200) .warningCleared, false)
    else (s.abort "***Touch Warning !!" .runOnce, false)
  | _ => s.checkToNextGcode g

/-- While a group runs, the line its segment comes from is shown. -/
def showSubLine (s : TaskSystem K) (info : MotionInfo K) (g : GCodeTask K) : TaskSystem K :=
  match g.node with
  | .g01GroupMotion .. => s.emit (.autogcodeSwitchedToLine info.subLineNumber)
  | _ => s

/-- `_state_running`. -/
def stateRunning (s : TaskSystem K) (info : MotionInfo K) : Flow K :=
  match s.currGcode with
  | none => (s, true)
  | some g =>
    let s := s.emit (.runNode s.runner.currGcodeNum)
    if !g.isMotionTask then s.stateRunningNonMotion info g
    else
      let s := s.showSubLine info g
      match info.mainMode with
      | .auto =>
        if info.autoState = .paused then
          (((s.switchToState .paused).setDelayPauseFlag false).emit .autoPaused, true)
        else (s, true)
      | .idle => s.stateRunningIdle info g
      | .manual => (s.abort "_state_running err: detected MM=Manual" .runOnce, false)

/-- The abort of a waiting state that finds the motion side elsewhere. -/
def mismatch (s : TaskSystem K) (err : String) : Flow K :=
  ((s.emit .stateMismatch).abort err .runOnce, false)

/-- `GetAutoStateStr`. -/
def autoStateStr : MotionAutoState → String
  | .normalMoving => "NormalMoving"
  | .pausing => "Pausing"
  | .paused => "Paused"
  | .resuming => "Resuming"
  | .stopping => "Stopping"
  | .stopped => "Stopped"

def stateWaitingForPaused (s : TaskSystem K) (info : MotionInfo K) : Flow K :=
  match info.mainMode with
  | .auto =>
    match info.autoState with
    | .paused => (((s.switchToState .paused).setDelayPauseFlag false).emit .autoPaused, true)
    | .pausing => (s, true)
    | st => s.mismatch ("_state_waiting_for_paused err: detected MM=" ++ autoStateStr st)
  | .idle => s.mismatch "_state_waiting_for_paused err: detected MM=Idle"
  | .manual => s.mismatch "_state_waiting_for_paused err: detected MM=Manual"

/-- A task that is over already is dealt with in the running state. -/
def stateWaitingForResumed (s : TaskSystem K) (info : MotionInfo K) : Flow K :=
  match info.mainMode with
  | .auto =>
    match info.autoState with
    | .normalMoving | .stopping | .stopped =>
      ((s.switchToState .running).emit .autoResumed, true)
    | .paused | .resuming => (s, true)
    | st => s.mismatch ("_state_waiting_for_resumed err: detected MM=" ++ autoStateStr st)
  | .idle => ((s.switchToState .running).emit .autoResumed, true)
  | .manual => s.mismatch "_state_waiting_for_resumed err: detected MM=Manual"

/-- The end of a program that was stopped on the current node. -/
def endStopped (s : TaskSystem K) : TaskSystem K :=
  match s.currGcode with
  | none => s.end_
  | some g => (s.stopRecording g).end_

def stateWaitingForStopped (s : TaskSystem K) (info : MotionInfo K) : Flow K :=
  match info.mainMode with
  | .auto =>
    match info.autoState with
    | .stopping => (s, true)
    | .stopped => (s.endStopped, true)
    | st => s.mismatch ("_state_waiting_for_stopped err: detected MM=" ++ autoStateStr st)
  | .idle => (s.endStopped, true)
  | .manual => s.mismatch "_state_waiting_for_stopped err: detected MM=Manual"

/-- The switch of `_run_once`. -/
def poll (s : TaskSystem K) : Flow K :=
  let info := s.motion.infoCache
  match s.runner.state with
  | .readyToStart => ((s.switchToState .currentNodeIniting).emit .autoStarted, true)
  | .currentNodeIniting => s.stateCurrentNodeIniting info
  | .running => s.stateRunning info
  | .waitingForPaused => s.stateWaitingForPaused info
  | .paused => (s, true)
  | .waitingForResumed => s.stateWaitingForResumed info
  | .waitingForStopped => s.stateWaitingForStopped info
  | .stopped => (s, true)

/-- `_run_once`. -/
def runOnce (s : TaskSystem K) : TaskSystem K := thenTail s.poll

/-- What follows the wait for a command that was accepted or not. -/
def resumeKont (s : TaskSystem K) (accepted : Bool) : Kont → TaskSystem K
  | .startAnswered err drill => thenTail (s.startAnswered err drill accepted)
  | .eleparamSet index =>
    thenTail
      (if accepted then s.nextGcode
        else (s.abort ("abort: ele param set failed: " ++ toString index) .runOnce, false))
  | .warningCleared =>
    thenTail (if accepted then s.nextGcode else (s.abort "Clear Warning Failed" .runOnce, false))
  | .aborted err .runOnce => (s.aborted err).runOnceTail
  | .aborted err .start => (s.aborted err).emit (.startReturned false)
  | .aborted err .estop => s.aborted err
  | .pauseAnswered caller => s.pauseAnswered caller accepted
  | .resumeAnswered => s.resumeAnswered accepted
  | .stopAnswered waitingForPaused => s.stopAnswered waitingForPaused accepted
  | .stopEstopAnswered => s.end_.emit (.stopReturned true)
  | .estopAnswered => s.estopAnswered accepted
  | .other => s

end Poll

end TaskSystem

end Edm
