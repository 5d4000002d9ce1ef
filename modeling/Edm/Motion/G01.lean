import Edm.Motion.Trajectory

/-!
# The discharge machining task

`G01AutoTask` follows a straight line forwards and backwards as the servo speed says, lifts the
electrode from time to time (a jump: up, down, and a buffer driven by the servo again) and switches
the discharge power off before it is paused or stopped. Its main state, the servo sub-state and the
pause-or-stop sub-state are three separate fields.

Each step takes the shared data and the inputs of the cycle and returns the task and the shared
data. The clocks are read once per cycle.
-/

namespace Edm

inductive G01AutoTask.State where
  | normalRunning | pausing | paused | resuming | stopping | stopped
  deriving DecidableEq, Repr

inductive G01AutoTask.ServoSubState where
  | servoing | jumpUping | jumpDowning | jumpDowningBuffer
  deriving DecidableEq, Repr

inductive G01AutoTask.PauseOrStopSubState where
  | waitingForJumpEnd | backingToBegin
  deriving DecidableEq, Repr

inductive G01AutoTask.ResumeSubState where
  | recoveringToLastMachingPos
  deriving DecidableEq, Repr

structure G01AutoTask (K : Type) where
  state : G01AutoTask.State
  servoSubState : G01AutoTask.ServoSubState
  pauseOrStopSubState : G01AutoTask.PauseOrStopSubState
  resumeSubState : G01AutoTask.ResumeSubState
  jumpingParam : JumpParam K
  lastJumpEndTimeMs : ℤ
  servoingLengthBeforeJump : K
  jumpUpTargetPos : Axis K
  lineTraj : TrajectoryLinearSegement K
  maxJumpHeightFromBegin : K
  jumpPmHandler : PointMoveHandler K
  lastSendEnableVotalgeGateTimeNs : ℤ
  scServoGo : SlidingCounter 8000
  pauseReturnBackTargetDistanceBlu : K
  pauseReturnBackCurrentGoneBlu : K
  pauseReturnBackSpeedMmPerMin : K

namespace G01AutoTask

variable {K : Type} [Field K] [LinearOrder K]

/-- `back_to_begin_when_pause_`; nothing in the source sets it. -/
def backToBeginWhenPause : Bool := false

/-- `back_to_begin_when_stop_`; nothing in the source sets it. -/
def backToBeginWhenStop : Bool := false

/-- `MULTI_SEND_INTERVAL`, milliseconds. -/
def multiSendInterval : ℤ := 200

/-- The share of forward cycles from which no jump is made. -/
def scServoGoValidRateThreshold1 : K := 93 / 100

section Construct

variable [RealFns K] [Settings]

def new (lineTraj : TrajectoryLinearSegement K) (maxJumpHeightFromBegin : K)
    (sh : MotionShared K) (nowMs hrNowNs : ℤ) : G01AutoTask K × MotionShared K :=
  ({ state := .normalRunning
     servoSubState := .servoing
     pauseOrStopSubState := .waitingForJumpEnd
     resumeSubState := .recoveringToLastMachingPos
     jumpingParam := sh.jumpParam
     lastJumpEndTimeMs := nowMs
     servoingLengthBeforeJump := 0
     jumpUpTargetPos := 0
     lineTraj := lineTraj
     maxJumpHeightFromBegin := maxJumpHeightFromBegin
     jumpPmHandler := .new
     lastSendEnableVotalgeGateTimeNs := hrNowNs
     scServoGo := SlidingCounter.new.clear.resize (2000 * 1000 / Settings.motionCycleUs)
     pauseReturnBackTargetDistanceBlu := UnitConverter.mm2blu (1 / 10)
     pauseReturnBackCurrentGoneBlu := 0
     pauseReturnBackSpeedMmPerMin := 60 },
    (sh.cbEnableVoltageGate true).cbMachOn true)

end Construct

section Commands

def pause (t : G01AutoTask K) : G01AutoTask K × Bool :=
  match t.state with
  | .stopping => (t, false)
  | .stopped => (t, false)
  | .resuming => (t, false)
  | .pausing => (t, true)
  | .paused => (t, true)
  | .normalRunning =>
    ({ t with state := .pausing, pauseOrStopSubState := .waitingForJumpEnd }, true)

def resume (t : G01AutoTask K) : G01AutoTask K × Bool :=
  match t.state with
  | .stopping => (t, false)
  | .stopped => (t, false)
  | .pausing => (t, false)
  | .normalRunning => (t, false)
  | .resuming => (t, true)
  | .paused =>
    ({ t with state := .resuming, resumeSubState := .recoveringToLastMachingPos }, true)

/-- A pause that is under way goes on as a stop, in the sub-state it is in. -/
def stop (t : G01AutoTask K) (_immediate : Bool) : G01AutoTask K × Bool :=
  match t.state with
  | .pausing => ({ t with state := .stopping }, true)
  | .paused => ({ t with state := .stopped }, true)
  | .stopping => (t, true)
  | .stopped => (t, true)
  | .resuming => ({ t with state := .stopped }, true)
  | .normalRunning =>
    ({ t with state := .stopping, pauseOrStopSubState := .waitingForJumpEnd }, true)

def isNormalRunning (t : G01AutoTask K) : Bool := t.state = .normalRunning
def isPausing (t : G01AutoTask K) : Bool := t.state = .pausing
def isPaused (t : G01AutoTask K) : Bool := t.state = .paused
def isResuming (t : G01AutoTask K) : Bool := t.state = .resuming
def isStopping (t : G01AutoTask K) : Bool := t.state = .stopping
def isStopped (t : G01AutoTask K) : Bool := t.state = .stopped
def isOver (t : G01AutoTask K) : Bool := t.isStopped

end Commands

section Cycle

variable [FloorRing K] [RealFns K] [Settings]

/-- `_get_servo_cmd_from_shared`. -/
def servoCmd (inp : CycleInput K) : K := UnitConverter.mmMin2bluP inp.servoCalcedSpeedMmMin

/-- More than `MULTI_SEND_INTERVAL` since the voltage gate was last sent. -/
def multiSendDue (t : G01AutoTask K) (inp : CycleInput K) : Bool :=
  (inp.hrNowNs - t.lastSendEnableVotalgeGateTimeNs).tdiv 1000000 > multiSendInterval

/-- The voltage gate is sent again every so often while the electrode is lifted. -/
def multiSend (t : G01AutoTask K) (sh : MotionShared K) (inp : CycleInput K) (on : Bool) :
    G01AutoTask K × MotionShared K :=
  if t.multiSendDue inp then
    ({ t with lastSendEnableVotalgeGateTimeNs := inp.hrNowNs }, sh.cbEnableVoltageGate on)
  else (t, sh)

/-- `_check_and_validate_jump_height`. -/
def checkAndValidateJumpHeight (t : G01AutoTask K) : G01AutoTask K × Bool :=
  let limit := t.lineTraj.currLength + t.maxJumpHeightFromBegin - UnitConverter.um2blu 100
  let jp := t.jumpingParam
  let jp := if jp.upBlu > limit then { jp with upBlu := limit } else jp
  if jp.upBlu < UnitConverter.um2blu 10 then ({ t with jumpingParam := jp }, false)
  else
    let jp :=
      if jp.bufferBlu > t.lineTraj.currLength then
        { jp with bufferBlu := t.lineTraj.currLength }
      else jp
    if jp.bufferBlu > jp.upBlu - UnitConverter.um2blu 10 then ({ t with jumpingParam := jp }, false)
    else ({ t with jumpingParam := jp }, true)

/-- `_plan_jump_up`. -/
def planJumpUp (t : G01AutoTask K) : G01AutoTask K × Bool :=
  let t := { t with servoingLengthBeforeJump := t.lineTraj.currLength }
  let (t, ok) := t.checkAndValidateJumpHeight
  if !ok then (t, false)
  else
    let upStartPos := t.lineTraj.currPos
    let target : Axis K := fun i =>
      upStartPos i - t.lineTraj.unitVector i * t.jumpingParam.upBlu
    let (pm, ret) := t.jumpPmHandler.start t.jumpingParam.speedParam upStartPos target
    ({ t with jumpUpTargetPos := target, jumpPmHandler := pm }, ret)

/-- `_servoing_check_and_plan_jump`. -/
def servoingCheckAndPlanJump (t : G01AutoTask K) (sh : MotionShared K) (inp : CycleInput K) :
    G01AutoTask K × MotionShared K × Bool :=
  if Settings.powerZhongguDrill then (t, sh, false)
  else
    let t := { t with jumpingParam := sh.jumpParam }
    if inp.nowMs - t.lastJumpEndTimeMs ≤ t.jumpingParam.dnMs then (t, sh, false)
    else
      let t := { t with lastJumpEndTimeMs := inp.nowMs }
      if t.jumpingParam.upBlu < UnitConverter.um2blu 10 then (t, sh, false)
      else if t.scServoGo.validRate ≥ (scServoGoValidRateThreshold1 : K) then (t, sh, false)
      else
        let (t, ok) := t.planJumpUp
        if !ok then (t, sh, false)
        else
          ({ t with servoSubState := .jumpUping, lastSendEnableVotalgeGateTimeNs := inp.hrNowNs },
            sh.cbEnableVoltageGate false, true)

/-- `_servoing_do_servothings`; `true` when the end of the line is reached. -/
def servoingDoServothings (t : G01AutoTask K) (sh : MotionShared K) (inp : CycleInput K) :
    G01AutoTask K × MotionShared K × Bool :=
  let cmd := servoCmd inp
  let t := { t with scServoGo := t.scServoGo.pushBack (decide (cmd > 0)) }
  let t := if cmd ≠ 0 then { t with lineTraj := t.lineTraj.runOnce cmd } else t
  (t, sh.setGlobalCmdAxis t.lineTraj.currPos, decide (cmd > 0) && t.lineTraj.atEnd)

/-- `_servo_substate_servoing`. At the end of the line the task goes on to stopping. -/
def servoSubstateServoing (t : G01AutoTask K) (sh : MotionShared K) (inp : CycleInput K) :
    G01AutoTask K × MotionShared K :=
  let (t, sh, planned) := t.servoingCheckAndPlanJump sh inp
  if planned then (t, sh)
  else
    let (t, sh, servoCanEnd) := t.servoingDoServothings sh inp
    if servoCanEnd then ({ t with state := .stopping }, sh) else (t, sh)

/-- `_servo_substate_jumpuping`. -/
def servoSubstateJumpuping (t : G01AutoTask K) (sh : MotionShared K) (inp : CycleInput K) :
    G01AutoTask K × MotionShared K :=
  let pm := t.jumpPmHandler.runOnce
  let t := { t with jumpPmHandler := pm }
  let sh := sh.setGlobalCmdAxis pm.currPos
  let (t, sh) := t.multiSend sh inp false
  if pm.isOver then
    let downLength := t.jumpingParam.upBlu - t.jumpingParam.bufferBlu
    let downTargetPos : Axis K := fun i =>
      t.jumpUpTargetPos i + t.lineTraj.unitVector i * downLength
    ({ t with
        jumpPmHandler := (pm.start t.jumpingParam.speedParam t.jumpUpTargetPos downTargetPos).1
        servoSubState := .jumpDowning
        lastSendEnableVotalgeGateTimeNs := inp.hrNowNs },
      sh.cbEnableVoltageGate true)
  else (t, sh)

/-- `_servo_substate_jumpdowning`. -/
def servoSubstateJumpdowning (t : G01AutoTask K) (sh : MotionShared K) (inp : CycleInput K) :
    G01AutoTask K × MotionShared K :=
  let pm := t.jumpPmHandler.runOnce
  let t := { t with jumpPmHandler := pm }
  let sh := sh.setGlobalCmdAxis pm.currPos
  let (t, sh) := t.multiSend sh inp true
  if pm.isOver then
    ({ t with
        lineTraj :=
          t.lineTraj.setCurrLength (t.servoingLengthBeforeJump - t.jumpingParam.bufferBlu)
        servoSubState := .jumpDowningBuffer }, sh)
  else (t, sh)

/-- `_servo_substate_jumpdowningbuffer`: over with the last step of the buffer, or interrupted by
a servo command that does not go forward. -/
def servoSubstateJumpdowningbuffer (t : G01AutoTask K) (sh : MotionShared K)
    (inp : CycleInput K) : G01AutoTask K × MotionShared K :=
  let cmd := servoCmd inp
  let remaining := t.servoingLengthBeforeJump - t.lineTraj.currLength
  if cmd > 0 then
    let bufferOver := cmd ≥ remaining ∨ remaining ≤ 0
    let cmd := if bufferOver then remaining else cmd
    let t := { t with lineTraj := t.lineTraj.runOnce cmd }
    let sh := sh.setGlobalCmdAxis t.lineTraj.currPos
    if bufferOver then ({ t with lastJumpEndTimeMs := inp.nowMs, servoSubState := .servoing }, sh)
    else (t, sh)
  else ({ t with lastJumpEndTimeMs := inp.nowMs, servoSubState := .servoing }, sh)

/-- `_state_normal_running`. -/
def stateNormalRunning (t : G01AutoTask K) (sh : MotionShared K) (inp : CycleInput K) :
    G01AutoTask K × MotionShared K :=
  match t.servoSubState with
  | .servoing => t.servoSubstateServoing sh inp
  | .jumpUping => t.servoSubstateJumpuping sh inp
  | .jumpDowning => t.servoSubstateJumpdowning sh inp
  | .jumpDowningBuffer => t.servoSubstateJumpdowningbuffer sh inp

/-- `_state_resuming`. -/
def stateResuming (t : G01AutoTask K) (sh : MotionShared K) (inp : CycleInput K) :
    G01AutoTask K × MotionShared K :=
  match t.resumeSubState with
  | .recoveringToLastMachingPos =>
    ({ t with
        lastJumpEndTimeMs := inp.nowMs
        lastSendEnableVotalgeGateTimeNs := inp.hrNowNs
        state := .normalRunning },
      ((if backToBeginWhenPause then sh.setFault else sh).cbEnableVoltageGate true).cbMachOn true)

/-- How far the retreat goes back in a cycle, and whether this is its last step. -/
def pauseReturnBackStep (t : G01AutoTask K) : K × Bool :=
  let speed := UnitConverter.mmMin2bluP t.pauseReturnBackSpeedMmPerMin
  let dec := if speed < 1 / 100 then 1 / 100 else speed
  if t.pauseReturnBackCurrentGoneBlu + dec > t.pauseReturnBackTargetDistanceBlu then
    (t.pauseReturnBackTargetDistanceBlu - t.pauseReturnBackCurrentGoneBlu, true)
  else (dec, false)

/-- The retreat before a pause (`EDM_G01_ENABLE_PAUSE_RETURN_BACK_A_LITTLE`): a step back along
the line, and whether it was the last one. -/
def pauseReturnBack (t : G01AutoTask K) (sh : MotionShared K) :
    G01AutoTask K × MotionShared K × Bool :=
  let (dec, last) := t.pauseReturnBackStep
  let line := t.lineTraj.runOnce (-dec)
  ({ t with
      pauseReturnBackCurrentGoneBlu :=
        if last then t.pauseReturnBackTargetDistanceBlu else t.pauseReturnBackCurrentGoneBlu + dec
      lineTraj := line },
    sh.setGlobalCmdAxis line.currPos, last || line.atStart)

/-- `_state_pausing_or_stopping`. The power is switched off on the way from waiting for the end of
a jump to backing, and nowhere else. -/
def statePausingOrStopping (t : G01AutoTask K) (sh : MotionShared K) (inp : CycleInput K)
    (targetState : State) : G01AutoTask K × MotionShared K :=
  match t.pauseOrStopSubState with
  | .waitingForJumpEnd =>
    match t.servoSubState with
    | .servoing =>
      let t := if targetState = .paused then { t with pauseReturnBackCurrentGoneBlu := 0 } else t
      ({ t with pauseOrStopSubState := .backingToBegin }, sh.cbMachOn false)
    | .jumpUping => t.servoSubstateJumpuping sh inp
    | .jumpDowning => t.servoSubstateJumpdowning sh inp
    | .jumpDowningBuffer => t.servoSubstateJumpdowningbuffer sh inp
  | .backingToBegin =>
    if targetState = .stopped ∧ !backToBeginWhenStop then ({ t with state := .stopped }, sh)
    else if targetState = .paused ∧ !backToBeginWhenPause then
      let (t, sh, returnEnded) := t.pauseReturnBack sh
      if !returnEnded then (t, sh) else ({ t with state := .paused }, sh)
    else ({ t with state := targetState }, sh.setFault)

def runOnce (t : G01AutoTask K) (sh : MotionShared K) (inp : CycleInput K) :
    G01AutoTask K × MotionShared K :=
  match t.state with
  | .normalRunning => t.stateNormalRunning sh inp
  | .pausing => t.statePausingOrStopping sh inp .paused
  | .paused => (t, sh)
  | .resuming => t.stateResuming sh inp
  | .stopping => t.statePausingOrStopping sh inp .stopped
  | .stopped => (t, sh)

end Cycle

end G01AutoTask

end Edm
