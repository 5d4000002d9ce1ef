import Edm.Lib.Run
import Edm.Motion.Commands

/-!
# The motion thread

`MotionThreadController` runs the state machine, one cycle after another. A cycle looks after the
connection to the drives and, once they are ready, runs the state machine (`threadCycleWork`); it
fetches at most one command and performs it (`handleCommand`); it copies what the other threads may
see (`copyInfoCache`) and passes the signals of the cycle on (`handleSignal`).

What the EtherCAT master and its drives report is an input of the cycle; the counters after which the
source gives up waiting for them are inputs too. A build that runs without drives
(`EDM_OFFLINE_RUN_NO_ECAT`) is one in which every report is good. Latency statistics are left out.
-/

namespace Edm

inductive EcatState where
  | init | ecatDisconnected | ecatConnecting | ecatConnectedWaitingForOP
  | ecatConnectedNotAllEnabled | ecatConnectedEnabling | ecatReady
  deriving DecidableEq, Repr

inductive ThreadState where
  | init | running | stopping | canExit
  deriving DecidableEq, Repr

/-- `MotionInfo`, as far as the task level reads it. -/
structure MotionInfo (K : Type) where
  currCmdAxisBlu : Axis K
  subLineNumber : ℤ
  mainMode : MotionMainMode
  autoState : MotionAutoState
  ecatConnected : Bool
  ecatAllEnabled : Bool
  touchDetectEnabled : Bool
  touchDetected : Bool
  touchWarning : Bool

structure MotionSignal (K : Type) where
  type : MotionSignalType
  info : MotionInfo K

inductive VOffsetSetCmdType where
  | setValue | incValue | forcedZero
  deriving DecidableEq, Repr

/-- The classes derived from `MotionCommandBase`. What the motion side does not read is left out:
the start points of moves, the motion settings, the parameters of the spindle. -/
inductive MotionCommand (K : Type) where
  | manualStartPointMove (endPos : Axis K) (speedParam : MoveRuntimePlanSpeedInput K)
      (touchDetectEnable : Bool)
  | manualStopPointMove (immediate : Bool)
  | manualEmergencyStopAllMove
  | autoStartG00FastMove (endPos : Axis K) (speedParam : MoveRuntimePlanSpeedInput K)
      (touchDetectEnable : Bool)
  | autoStartG01ServoMove (endPos : Axis K) (maxJumpHeightFromBegin : K)
  | autoPause
  | autoResume
  | autoStop (immediate : Bool)
  | autoM00FakePauseTask
  | autoG04Delay (delayS : K)
  | autoG01Group (items : List (G01GroupItem K))
  | autoStartDrillMove (startParams : DrillStartParams K)
  | settingSetJumpParam (jumpParam : JumpParam K)
  | settingTriggerEcatConnect
  | settingClearWarning
  | settingClearStatData
  | settingMotionSettings
  | settingTestVOffset (setAxisIndex : ℕ) (setCmdType : VOffsetSetCmdType) (setValue : K)
  | settingSetG01SpeedRatio (speedRatio : K)
  | setSpindleState (spindleStart : Bool)
  | setSpindleParam
  | setDrillParams (drillParams : DrillParams K)

/-- What the EtherCAT master reports in a cycle. -/
structure EcatInput (K : Type) where
  /-- `connect_ecat(1)`. -/
  connectOk : Bool
  opReached : Bool
  opWaitTimeout : Bool
  /-- `is_ecat_connected()`. -/
  connected : Bool
  /-- `servo_all_operation_enabled()`. -/
  allEnabled : Bool
  /-- `servo_all_disabled()`. -/
  allDisabled : Bool
  stoppingTimeout : Bool
  actAxis : Axis K

/-- What a cycle of the thread reads: the drives, the inputs of the state machine, the flag that asks
the thread to stop. -/
structure ThreadInput (K : Type) where
  ecat : EcatInput K
  cycle : CycleInput K
  threadStopFlag : Bool

structure MotionThread (K : Type) where
  threadState : ThreadState
  ecatState : EcatState
  ecatConnectFlag : Bool
  ecatClearFaultReenableFlag : Bool
  threadExit : Bool
  motionStateMachine : MotionStateMachine K
  globalVOffsets : Axis K
  globalVOffsetsForcedZero : Fin 6 → Bool
  infoCache : MotionInfo K
  /-- `motion_signal_queue_`, the next signal to be consumed first. -/
  motionSignalQueue : List (MotionSignal K)

namespace MotionThread

variable {K : Type} [Field K] [LinearOrder K]

/-- The info of a state machine and a connection. -/
def info (m : MotionStateMachine K) (ecatState : EcatState) (connected touched : Bool) :
    MotionInfo K where
  currCmdAxisBlu := m.shared.globalCmdAxis
  subLineNumber := m.shared.subLineNum
  mainMode := m.mainMode
  autoState := m.autoState
  ecatConnected := connected
  ecatAllEnabled := ecatState = .ecatReady
  touchDetectEnabled := m.shared.touch.detectEnabled
  touchDetected := touched
  touchWarning := m.shared.touch.warning

/-- The thread when it is created; the info cache holds its defaults. -/
def new : MotionThread K where
  threadState := .init
  ecatState := .init
  ecatConnectFlag := false
  ecatClearFaultReenableFlag := false
  threadExit := false
  motionStateMachine := .new
  globalVOffsets := 0
  globalVOffsetsForcedZero := fun _ => false
  infoCache := info .new .init false false
  motionSignalQueue := []

/-- `_ecat_state_switch_to_ready`: the commanded axis is set to where the drives are. -/
def ecatStateSwitchToReady (t : MotionThread K) (actAxis : Axis K) : MotionThread K :=
  let m := t.motionStateMachine.reset
  let m := { m with shared := m.shared.setGlobalCmdAxis actAxis }
  { t with ecatState := .ecatReady, motionStateMachine := m.setEnable true }

/-- `_threadstate_stopping`. -/
def threadstateStopping (t : MotionThread K) (inp : ThreadInput K) : MotionThread K :=
  if inp.ecat.stoppingTimeout then { t with threadState := .canExit }
  else if !inp.ecat.connected then { t with threadState := .canExit }
  else if inp.ecat.allDisabled then { t with threadState := .canExit }
  else t

section Cycle

variable [FloorRing K] [RealFns K] [Settings]

/-- `_threadstate_running`. -/
def threadstateRunning (t : MotionThread K) (inp : ThreadInput K) : MotionThread K :=
  match t.ecatState with
  | .init => { t with ecatState := .ecatDisconnected }
  | .ecatDisconnected =>
    if t.ecatConnectFlag then { t with ecatState := .ecatConnecting, ecatConnectFlag := false }
    else t
  | .ecatConnecting =>
    { t with
      ecatConnectFlag := false
      ecatState := if inp.ecat.connectOk then .ecatConnectedWaitingForOP else .ecatDisconnected }
  | .ecatConnectedWaitingForOP =>
    if inp.ecat.opWaitTimeout then { t with ecatState := .ecatDisconnected }
    else if inp.ecat.opReached then { t with ecatState := .ecatConnectedNotAllEnabled }
    else t
  | .ecatConnectedNotAllEnabled =>
    if inp.ecat.allEnabled then
      { t.ecatStateSwitchToReady inp.ecat.actAxis with ecatClearFaultReenableFlag := false }
    else if t.ecatClearFaultReenableFlag then
      { t with ecatState := .ecatConnectedEnabling, ecatClearFaultReenableFlag := false }
    else t
  | .ecatConnectedEnabling =>
    let t := { t with ecatClearFaultReenableFlag := false }
    let t := if inp.ecat.allEnabled then t.ecatStateSwitchToReady inp.ecat.actAxis else t
    if !inp.ecat.connected then
      { t with
        ecatState := .ecatDisconnected
        ecatConnectFlag := false
        motionStateMachine := t.motionStateMachine.reset }
    else t
  | .ecatReady =>
    let t := { t with ecatClearFaultReenableFlag := false }
    if !inp.ecat.connected then
      { t with
        ecatState := .ecatDisconnected
        motionStateMachine := t.motionStateMachine.reset }
    else { t with motionStateMachine := t.motionStateMachine.runOnce inp.cycle }

/-- `_thread_cycle_work` up to the handling of commands. -/
def threadCycleWork (t : MotionThread K) (inp : ThreadInput K) : MotionThread K :=
  match t.threadState with
  | .init => { t with threadState := .running }
  | .running =>
    let t := t.threadstateRunning inp
    if inp.threadStopFlag then { t with threadState := .stopping } else t
  | .stopping => t.threadstateStopping inp
  | .canExit => { t with threadExit := true }

/-- The guard most commands that move the axes begin with. -/
def isReady (t : MotionThread K) : Bool :=
  !(t.ecatState ≠ .ecatReady || t.threadState ≠ .running)

/-- The state machine after a command of its own, and whether it took it. -/
def onMachine (t : MotionThread K) (res : MotionStateMachine K × Bool) : MotionThread K × Bool :=
  ({ t with motionStateMachine := res.1 }, res.2)

def onShared (t : MotionThread K) (f : MotionShared K → MotionShared K) : MotionThread K × Bool :=
  ({ t with motionStateMachine :=
      { t.motionStateMachine with shared := f t.motionStateMachine.shared } }, true)

/-- A command the build does not have: unsupported, and ignored. -/
def onlyDrill (t : MotionThread K) (res : MotionThread K × Bool) : MotionThread K × Bool :=
  if Settings.powerZhongguDrill then res else (t, false)

/-- `MotionCommandSetting_TestVOffset`; an index out of range is accepted and changes nothing. -/
def testVOffset (t : MotionThread K) (i : ℕ) (type : VOffsetSetCmdType) (value : K) :
    MotionThread K :=
  match type with
  | .setValue =>
    { t with globalVOffsets := fun j => if j.val = i then value else t.globalVOffsets j }
  | .incValue =>
    { t with globalVOffsets := fun j =>
        if j.val = i then t.globalVOffsets j + value else t.globalVOffsets j }
  | .forcedZero =>
    { t with globalVOffsetsForcedZero := fun j =>
        if j.val = i then value > 1 / 2 else t.globalVOffsetsForcedZero j }

/-- The command switch of `_fetch_command_and_handle_and_copy_info_cache`. -/
def handleCommand (t : MotionThread K) (nowMs hrNowNs : ℤ) :
    MotionCommand K → MotionThread K × Bool
  | .manualStartPointMove endPos sp touchDetectEnable =>
    if !t.isReady then (t, false)
    else
      let (m, ret) := t.motionStateMachine.startManualPointmove sp endPos
      let m := if ret then { m with shared := m.shared.setDetectEnable touchDetectEnable } else m
      ({ t with motionStateMachine := m }, ret)
  | .manualStopPointMove immediate =>
    if !t.isReady then (t, false)
    else t.onMachine (t.motionStateMachine.stopManualPointmove immediate)
  | .autoStartG00FastMove endPos sp touchDetectEnable =>
    if !t.isReady then (t, false)
    else t.onMachine (t.motionStateMachine.startAutoG00 sp endPos touchDetectEnable)
  | .autoStartG01ServoMove endPos maxJumpHeightFromBegin =>
    if !t.isReady then (t, false)
    else
      t.onMachine
        (t.motionStateMachine.startAutoG01 endPos maxJumpHeightFromBegin nowMs hrNowNs)
  | .autoG04Delay delayS =>
    if !t.isReady then (t, false) else t.onMachine (t.motionStateMachine.startAutoG04 delayS)
  | .autoM00FakePauseTask =>
    if !t.isReady then (t, false) else t.onMachine t.motionStateMachine.startAutoM00fake
  | .autoStop immediate => t.onMachine (t.motionStateMachine.stopAuto immediate)
  | .autoPause => t.onMachine t.motionStateMachine.pauseAuto
  | .autoResume => t.onMachine t.motionStateMachine.resumeAuto
  | .manualEmergencyStopAllMove =>
    t.onMachine (t.motionStateMachine.reset.setEnable true, true)
  | .settingTriggerEcatConnect =>
    ({ t with ecatConnectFlag := true, ecatClearFaultReenableFlag := true }, true)
  | .settingClearWarning => t.onShared (SettingCommand.apply .clearWarning)
  | .settingClearStatData => (t, true)
  | .settingSetJumpParam jp => t.onShared (SettingCommand.apply (.setJumpParam jp))
  | .settingMotionSettings => (t, true)
  | .setSpindleState spindleStart =>
    t.onlyDrill (t.onShared fun sh =>
      { sh with callbacks := { sh.callbacks with spindleOn := some spindleStart } })
  | .setSpindleParam => t.onlyDrill (t, true)
  | .autoStartDrillMove p => t.onlyDrill (t.onMachine (t.motionStateMachine.startAutoDrill p))
  | .setDrillParams dp => t.onlyDrill (t.onShared (SettingCommand.apply (.setDrillParams dp)))
  | .autoG01Group items => t.onMachine (t.motionStateMachine.startAutoG01Group items)
  | .settingTestVOffset i type value =>
    if !t.isReady then (t, false) else (t.testVOffset i type value, true)
  | .settingSetG01SpeedRatio ratio => t.onShared (SettingCommand.apply (.setG01SpeedRatio ratio))

end Cycle

/-- `_copy_info_cache`. -/
def copyInfoCache (t : MotionThread K) (inp : ThreadInput K) : MotionThread K :=
  { t with
    infoCache :=
      info t.motionStateMachine t.ecatState inp.ecat.connected inp.cycle.touchDetected }

/-- The types of signals, in the order of their numbers. -/
def signalTypes : List MotionSignalType :=
  [.manualPointMoveStarted, .manualPointMoveStopped, .autoStarted, .autoPaused, .autoResumed,
    .autoStopped, .autoNotify]

/-- The capacity of the signal queue. -/
def signalQueueCapacity : ℕ := 1024

/-- `push` of the signal queue: a signal that finds it full is lost. -/
def pushSignal (q : List (MotionSignal K)) (s : MotionSignal K) : List (MotionSignal K) :=
  if q.length < signalQueueCapacity then q ++ [s] else q

/-- The signals of the buffer, one of each type that was set. -/
def pendingSignals (b : SignalBuffer) (i : MotionInfo K) : List (MotionSignal K) :=
  if b.hasSignal then (signalTypes.filter b.signalsArr).map (⟨·, i⟩) else []

/-- `_handle_signal`. -/
def handleSignal (t : MotionThread K) : MotionThread K :=
  let m := t.motionStateMachine
  { t with
    motionSignalQueue :=
      (pendingSignals m.shared.signalBuffer t.infoCache).foldl pushSignal t.motionSignalQueue
    motionStateMachine :=
      { m with shared := { m.shared with signalBuffer := m.shared.signalBuffer.resetAll } } }

variable [FloorRing K] [RealFns K] [Settings]

/-- A cycle with the command it fetched, and what becomes of that command. -/
def threadCycle (t : MotionThread K) (inp : ThreadInput K) (cmd : Option (MotionCommand K)) :
    MotionThread K × Option Bool :=
  let t := t.threadCycleWork inp
  let (t, answer) :=
    match cmd with
    | none => (t, none)
    | some cmd =>
      let (t, ret) := t.handleCommand inp.cycle.nowMs inp.cycle.hrNowNs cmd
      (t, some ret)
  ((t.copyInfoCache inp).handleSignal, answer)

end MotionThread

end Edm
