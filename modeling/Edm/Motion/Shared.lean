import Edm.Motion.PointMove

/-!
# What the motion code shares

`MotionSharedData` (the commanded axis and a few settings), the touch detection, the signal buffer
and the callbacks are objects every controller holds a pointer to. Here they are one record,
`MotionShared`, which each operation takes and returns.

Two fields have no counterpart in the source. `SignalBuffer.raised` remembers every signal raised,
newest first. `fault` is set where a `switch` runs into a `default` no named case shares, or an
`assert(false)`.
-/

namespace Edm

inductive MotionMainMode where
  | idle | manual | auto
  deriving DecidableEq, Repr

inductive MotionAutoState where
  | normalMoving | pausing | paused | resuming | stopping | stopped
  deriving DecidableEq, Repr

inductive MotionSignalType where
  | manualPointMoveStarted | manualPointMoveStopped
  | autoStarted | autoPaused | autoResumed | autoStopped
  | autoNotify
  deriving DecidableEq, Repr

structure SignalBuffer where
  hasSignal : Bool := false
  signalsArr : MotionSignalType → Bool := fun _ => false
  raised : List MotionSignalType := []

namespace SignalBuffer

/-- `reset_all` clears the array and not the flag. -/
def resetAll (b : SignalBuffer) : SignalBuffer := { b with signalsArr := fun _ => false }

def setSignal (b : SignalBuffer) (signal : MotionSignalType) : SignalBuffer where
  hasSignal := true
  signalsArr := fun s => if s = signal then true else b.signalsArr s
  raised := signal :: b.raised

end SignalBuffer

structure TouchDetectHandler where
  detectEnabled : Bool := false
  warning : Bool := false
  deriving DecidableEq, Repr

namespace TouchDetectHandler

def reset (_ : TouchDetectHandler) : TouchDetectHandler := ⟨false, false⟩
def clearWarning (t : TouchDetectHandler) : TouchDetectHandler := { t with warning := false }
def setDetectEnable (t : TouchDetectHandler) (enable : Bool) : TouchDetectHandler :=
  { t with detectEnabled := enable }

/-- One detection; `true` when the warning is set, by this call or by an earlier one. -/
def runDetectOnce (t : TouchDetectHandler) (physicalTouchDetect : Bool) :
    TouchDetectHandler × Bool :=
  if t.warning then (t, true)
  else if !t.detectEnabled then (t, false)
  else if physicalTouchDetect then ({ t with warning := true }, true)
  else (t, false)

end TouchDetectHandler

structure JumpParam (K : Type) where
  upBlu : K
  dnMs : ℕ
  bufferBlu : K
  speedParam : MoveRuntimePlanSpeedInput K

/-- `DrillBreakOutParams` and `DrillParams`, as far as the drill task reads them. -/
structure DrillParams (K : Type) where
  touchReturnUm : K
  touchSpeedUmMs : K
  autoSwitchOpump : Bool
  autoSwitchIpump : Bool
  knValidRateOkCntThreshold : ℕ
  maxMoveUmAfterBreakoutStartDetected : K
  breakoutStartDetectLengthPercent : K
  speedRateAfterBreakoutStartDetected : K
  waitTimeMsAfterBreakoutEndJudged : ℕ
  ctrlFlags : ℕ

/-- The value last passed to each callback of `MotionCallbacks`, and to the spindle controller. -/
structure CallbackLog where
  voltageGate : Option Bool := none
  machOn : Option Bool := none
  opumpOn : Option Bool := none
  ipumpOn : Option Bool := none
  spindleOn : Option Bool := none
  bzTriggered : ℕ := 0
  deriving DecidableEq, Repr

structure MotionShared (K : Type) where
  globalCmdAxis : Axis K
  subLineNum : ℤ
  jumpParam : JumpParam K
  g01SpeedRatio : K
  drillParams : DrillParams K
  currentDrillTotalBlu : K
  currentDrillRemainingBlu : K
  breakoutDetected : Bool
  touch : TouchDetectHandler
  signalBuffer : SignalBuffer
  callbacks : CallbackLog
  fault : Bool

/-- What a cycle reads from outside the motion code: the message of the servo board, the count of
the breakout filter and the two clocks. -/
structure CycleInput (K : Type) where
  touchDetected : Bool
  servoCalcedSpeedMmMin : K
  lastKnCnt : ℕ
  /-- `system_clock`, milliseconds. -/
  nowMs : ℤ
  /-- `high_resolution_clock`, nanoseconds. -/
  hrNowNs : ℤ

namespace MotionShared

variable {K : Type}

/-- The shared data when the process starts. -/
def new [Field K] : MotionShared K where
  globalCmdAxis := 0
  subLineNum := -1
  jumpParam := ⟨0, 1000, 30, .default⟩
  g01SpeedRatio := 1
  drillParams := ⟨500, 2, false, false, 320, 200, 1 / 4, 4 / 5, 1000, 0⟩
  currentDrillTotalBlu := 0
  currentDrillRemainingBlu := 0
  breakoutDetected := false
  touch := {}
  signalBuffer := {}
  callbacks := {}
  fault := false

def setGlobalCmdAxis (sh : MotionShared K) (axis : Axis K) : MotionShared K :=
  { sh with globalCmdAxis := axis }

def setSignal (sh : MotionShared K) (signal : MotionSignalType) : MotionShared K :=
  { sh with signalBuffer := sh.signalBuffer.setSignal signal }

def setDetectEnable (sh : MotionShared K) (enable : Bool) : MotionShared K :=
  { sh with touch := sh.touch.setDetectEnable enable }

/-- `run_detect_once` of the shared handler. -/
def runDetectOnce (sh : MotionShared K) (inp : CycleInput K) : MotionShared K × Bool :=
  let (t, hit) := sh.touch.runDetectOnce inp.touchDetected
  ({ sh with touch := t }, hit)

def cbEnableVoltageGate (sh : MotionShared K) (on : Bool) : MotionShared K :=
  { sh with callbacks := { sh.callbacks with voltageGate := some on } }

def cbMachOn (sh : MotionShared K) (on : Bool) : MotionShared K :=
  { sh with callbacks := { sh.callbacks with machOn := some on } }

def setSubLineNum (sh : MotionShared K) (n : ℤ) : MotionShared K := { sh with subLineNum := n }

/-- A `default` or `assert(false)` was reached. -/
def setFault (sh : MotionShared K) : MotionShared K := { sh with fault := true }

end MotionShared

end Edm
