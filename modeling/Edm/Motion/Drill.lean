import Edm.Motion.Shared

/-!
# The drilling task

`DrillAutoTask` is compiled for the drilling machine only (`EDM_POWER_ZHONGGU_DRILL`). It works on
the S axis (`EDM_DRILL_S_AXIS_IDX`) of the shared commanded axis directly: touch the workpiece,
retreat, drill by the servo speed with or without the detection of the breakthrough, return. The count
of the breakout filter is an input of the cycle. What the source leaves uninitialised in `runtime_`
is zero.
-/

namespace Edm

inductive DrillAutoTask.DrillState where
  | idle
  | prepareTouch | prepareTouchDelaying | touching | touchedBacking
  | prepareDrill | prepareDrillDelaying | drilling
  | prepareBack | prepareBackDelaying | returnBacking
  deriving DecidableEq, Repr

/-- `DrillStartParams`; the spindle speed is handled with the command. -/
structure DrillStartParams (K : Type) where
  depthUm : K
  holdtimeMs : ℤ
  touch : Bool
  breakout : Bool
  back : Bool

/-- `_Runtime_t`, without `touch_start_pos` and `delay_end_time_ms`, which nothing reads. -/
structure DrillAutoTask.Runtime (K : Type) where
  touchedPos : K
  machStartPos : K
  machTargetPos : K
  machOverBackReturnPos : K
  startBreakthroughDetect : Bool
  detectState : ℕ
  startDetectPos : K
  breakoutStartDetectedPos : K
  minPosAfterBreakoutStartDetected : K
  /-- A `uint32_t`. -/
  breakoutEndJudgedTimeMs : ℤ

structure DrillAutoTask (K : Type) where
  drillState : DrillAutoTask.DrillState
  pauseFlag : Bool
  startParams : DrillStartParams K
  timerStartTimeNs : ℤ
  delayTimeMs : ℤ
  runtime : DrillAutoTask.Runtime K

namespace DrillAutoTask

variable {K : Type} [Field K] [LinearOrder K]

def Runtime.cleared : Runtime K := ⟨0, 0, 0, 0, false, 0, 0, 0, 0, 0⟩

/-- `CURRENT_POS`. -/
def currentPos (sh : MotionShared K) : K := sh.globalCmdAxis 5

def setCurrentPos (sh : MotionShared K) (x : K) : MotionShared K :=
  sh.setGlobalCmdAxis (fun i => if i = 5 then x else sh.globalCmdAxis i)

def machOn (sh : MotionShared K) (on : Bool) : MotionShared K := sh.cbMachOn on

def allPumpAndSpindleOn (sh : MotionShared K) (on : Bool) : MotionShared K :=
  let cb := sh.callbacks
  let cb := if sh.drillParams.autoSwitchOpump then { cb with opumpOn := some on } else cb
  let cb := if sh.drillParams.autoSwitchIpump then { cb with ipumpOn := some on } else cb
  { sh with callbacks := { cb with spindleOn := some on } }

def triggerBzOnce (sh : MotionShared K) : MotionShared K :=
  { sh with callbacks := { sh.callbacks with bzTriggered := sh.callbacks.bzTriggered + 1 } }

/-- `_clear_all_status`. -/
def clearAllStatus (t : DrillAutoTask K) : DrillAutoTask K :=
  { t with drillState := .idle, runtime := .cleared, pauseFlag := false }

def startTimer (t : DrillAutoTask K) (inp : CycleInput K) (delayMs : ℤ) : DrillAutoTask K :=
  { t with delayTimeMs := delayMs, timerStartTimeNs := inp.hrNowNs }

def isTimerTimeout (t : DrillAutoTask K) (inp : CycleInput K) : Bool :=
  (inp.hrNowNs - t.timerStartTimeNs).tdiv 1000000 ≥ t.delayTimeMs

/-- `GetCurrentTimeMs`, from the high resolution clock. -/
def currentTimeMs (inp : CycleInput K) : ℤ := inp.hrNowNs.tdiv 1000000

def isNormalRunning (t : DrillAutoTask K) : Bool := !t.pauseFlag && t.drillState ≠ .idle
def isPaused (t : DrillAutoTask K) : Bool := t.pauseFlag
def isStopped (t : DrillAutoTask K) : Bool := t.drillState = .idle
def isOver (t : DrillAutoTask K) : Bool := t.isStopped

def new (p : DrillStartParams K) (sh : MotionShared K) : DrillAutoTask K × MotionShared K :=
  let t : DrillAutoTask K := ⟨.idle, false, p, 0, 1000, .cleared⟩
  let t :=
    if p.touch then { t with drillState := .prepareTouch }
    else
      let start := currentPos sh
      { t with
        drillState := .prepareDrill
        runtime := { t.runtime with
          machStartPos := start
          machTargetPos := start - UnitConverter.um2blu p.depthUm
          machOverBackReturnPos := start } }
  (t, { sh with
    currentDrillTotalBlu := UnitConverter.um2blu p.depthUm
    breakoutDetected := false })

def pause (t : DrillAutoTask K) (sh : MotionShared K) : DrillAutoTask K × MotionShared K × Bool :=
  if t.drillState = .idle then (t, sh, false)
  else ({ t with pauseFlag := true }, allPumpAndSpindleOn (machOn sh false) false, true)

/-- Pumps, spindle and power as the state needs them. -/
def resume (t : DrillAutoTask K) (sh : MotionShared K) :
    DrillAutoTask K × MotionShared K × Bool :=
  if !t.pauseFlag then (t, sh, false)
  else
    let t := { t with pauseFlag := false }
    match t.drillState with
    | .idle => (t, sh, true)
    | .prepareTouch | .prepareTouchDelaying | .touching | .touchedBacking =>
      (t, machOn (allPumpAndSpindleOn sh true) false, true)
    | .prepareDrill | .prepareDrillDelaying | .drilling =>
      (t, machOn (allPumpAndSpindleOn sh true) true, true)
    | .prepareBack | .prepareBackDelaying | .returnBacking =>
      (t, machOn (allPumpAndSpindleOn sh true) false, true)

def stop (t : DrillAutoTask K) (sh : MotionShared K) (_immediate : Bool) :
    DrillAutoTask K × MotionShared K × Bool :=
  (t.clearAllStatus, machOn (allPumpAndSpindleOn sh false) false, true)

section Cycle

/-- The three `prepare` states: pumps and spindle on, power as given, then a delay of a second. -/
def prepare (t : DrillAutoTask K) (sh : MotionShared K) (inp : CycleInput K) (power : Bool)
    (next : DrillState) : DrillAutoTask K × MotionShared K :=
  ({ t.startTimer inp 1000 with drillState := next }, machOn (allPumpAndSpindleOn sh true) power)

/-- The three delays. -/
def delaying (t : DrillAutoTask K) (sh : MotionShared K) (inp : CycleInput K) (next : DrillState) :
    DrillAutoTask K × MotionShared K :=
  (if t.isTimerTimeout inp then { t with drillState := next } else t, sh)

variable [Settings]

/-- `_drillstate_touching`. -/
def touching (t : DrillAutoTask K) (sh : MotionShared K) (inp : CycleInput K) :
    DrillAutoTask K × MotionShared K :=
  let advance (sh : MotionShared K) : MotionShared K :=
    setCurrentPos sh (currentPos sh - UnitConverter.umMs2bluP sh.drillParams.touchSpeedUmMs)
  if inp.touchDetected then
    let pos := currentPos sh
    let depth := UnitConverter.um2blu t.startParams.depthUm
    let r := { t.runtime with touchedPos := pos, machStartPos := pos, machTargetPos := pos - depth }
    let r :=
      if t.startParams.breakout then
        { r with
          startDetectPos := pos - sh.drillParams.breakoutStartDetectLengthPercent * depth
          detectState := 0
          startBreakthroughDetect := false }
      else r
    ({ t with runtime := r, drillState := .touchedBacking }, advance (triggerBzOnce sh))
  else (t, advance sh)

/-- `_drillstate_touched_backing`. -/
def touchedBacking (t : DrillAutoTask K) (sh : MotionShared K) :
    DrillAutoTask K × MotionShared K :=
  let target := t.runtime.touchedPos + UnitConverter.um2blu sh.drillParams.touchReturnUm
  let pos := currentPos sh + 1
  if pos ≥ target then
    ({ t with
        runtime := { t.runtime with machStartPos := target, machOverBackReturnPos := target }
        drillState := .prepareDrill }, setCurrentPos sh target)
  else (t, setCurrentPos sh pos)

/-- A ratio between 0.35 and `top`. -/
def cutRatio (ratio top : K) : K :=
  if ratio > top then top else if ratio < 35 / 100 then 35 / 100 else ratio

def flagSet (flags bit : ℕ) : Bool := flags.testBit bit

/-- The end of the breakthrough is judged: wait on the spot from now on. -/
def judgeBreakoutEnd (t : DrillAutoTask K) (sh : MotionShared K) (inp : CycleInput K) :
    DrillAutoTask K × MotionShared K :=
  ({ t with runtime := { t.runtime with
        breakoutEndJudgedTimeMs := currentTimeMs inp % 2 ^ 32
        detectState := 2 } },
    triggerBzOnce { sh with breakoutDetected := true })

/-- The breakthrough detection of `_drillstate_drilling`; `true` when the hole is through. -/
def drillingBreakthrough (t : DrillAutoTask K) (sh : MotionShared K) (inp : CycleInput K)
    (servoDis : K) : DrillAutoTask K × MotionShared K × Bool :=
  let bt := sh.drillParams
  let cnt := (inp.lastKnCnt : ℤ)
  let threshold := (bt.knValidRateOkCntThreshold : ℤ)
  let knDetected : Bool := cnt > threshold
  if t.runtime.detectState = 1 then
    let ratio :=
      |(currentPos sh - t.runtime.minPosAfterBreakoutStartDetected) /
        (t.runtime.breakoutStartDetectedPos - t.runtime.minPosAfterBreakoutStartDetected)|
    let dis :=
      if flagSet bt.ctrlFlags 1 then
        servoDis * cutRatio ratio bt.speedRateAfterBreakoutStartDetected
      else servoDis
    let sh := setCurrentPos sh (currentPos sh - dis)
    if currentPos sh < t.runtime.minPosAfterBreakoutStartDetected then
      let (t, sh) :=
        judgeBreakoutEnd t (setCurrentPos sh t.runtime.minPosAfterBreakoutStartDetected) inp
      (t, sh, false)
    else if !flagSet bt.ctrlFlags 2 && !knDetected then
      let (t, sh) := judgeBreakoutEnd t sh inp
      (t, sh, false)
    else (t, sh, false)
  else if t.runtime.detectState = 2 then
    let deadline :=
      (t.runtime.breakoutEndJudgedTimeMs + bt.waitTimeMsAfterBreakoutEndJudged) % 2 ^ 32
    if currentTimeMs inp > deadline then (t, { sh with breakoutDetected := true }, true)
    else (t, sh, false)
  else
    let ratio :=
      -- the difference is taken in `uint32_t`
      |(((threshold - cnt) % 2 ^ 32 : ℤ) : K) / ((threshold - threshold / 2 : ℤ) : K)|
    let dis :=
      if flagSet bt.ctrlFlags 0 ∧ cnt > threshold / 2 then servoDis * cutRatio ratio 1
      else servoDis
    let sh := setCurrentPos sh (currentPos sh - dis)
    if knDetected then
      ({ t with runtime := { t.runtime with
            detectState := 1
            breakoutStartDetectedPos := currentPos sh
            minPosAfterBreakoutStartDetected :=
              currentPos sh - bt.maxMoveUmAfterBreakoutStartDetected } }, sh, false)
    else (t, sh, false)

/-- `_drillstate_drilling` up to the position limits: the step of the servo and, where asked for,
the detection of the breakthrough. -/
def drillingServo (t : DrillAutoTask K) (sh : MotionShared K) (inp : CycleInput K) :
    DrillAutoTask K × MotionShared K × Bool :=
  let servoDis := UnitConverter.mmMin2bluP inp.servoCalcedSpeedMmMin
  let free := setCurrentPos sh (currentPos sh - servoDis)
  if !t.startParams.breakout then (t, free, false)
  else
    let res :=
      if t.runtime.startBreakthroughDetect then t.drillingBreakthrough sh inp servoDis
      else (t, free, false)
    if !res.1.runtime.startBreakthroughDetect &&
        currentPos res.2.1 < res.1.runtime.startDetectPos then
      ({ res.1 with runtime := { res.1.runtime with startBreakthroughDetect := true } }, res.2)
    else res

/-- The position limits at the end of `_drillstate_drilling`. -/
def drillingLimit (t : DrillAutoTask K) (sh : MotionShared K) (through : Bool) :
    DrillAutoTask K × MotionShared K :=
  let (sh, drillOver) :=
    if currentPos sh ≥ t.runtime.machStartPos then
      (setCurrentPos sh t.runtime.machStartPos, through)
    else if currentPos sh ≤ t.runtime.machTargetPos then
      (setCurrentPos sh t.runtime.machTargetPos, true)
    else (sh, through)
  let sh := { sh with currentDrillRemainingBlu := currentPos sh - t.runtime.machTargetPos }
  if drillOver then
    if t.startParams.back then ({ t with drillState := .prepareBack }, sh)
    else (t.clearAllStatus, allPumpAndSpindleOn (machOn sh false) false)
  else (t, sh)

/-- `_drillstate_drilling`. -/
def drilling (t : DrillAutoTask K) (sh : MotionShared K) (inp : CycleInput K) :
    DrillAutoTask K × MotionShared K :=
  let (t, sh, through) := t.drillingServo sh inp
  t.drillingLimit sh through

/-- `_drillstate_return_backing`. -/
def returnBacking (t : DrillAutoTask K) (sh : MotionShared K) :
    DrillAutoTask K × MotionShared K :=
  let target := t.runtime.machOverBackReturnPos
  let pos := currentPos sh + 2
  if pos ≥ target then
    (t.clearAllStatus,
      triggerBzOnce (allPumpAndSpindleOn (machOn (setCurrentPos sh target) false) false))
  else (t, setCurrentPos sh pos)

def runOnce (t : DrillAutoTask K) (sh : MotionShared K) (inp : CycleInput K) :
    DrillAutoTask K × MotionShared K :=
  if t.pauseFlag then (t, sh)
  else
    match t.drillState with
    | .idle => (t, sh)
    | .prepareTouch => t.prepare sh inp false .prepareTouchDelaying
    | .prepareTouchDelaying => t.delaying sh inp .touching
    | .touching => t.touching sh inp
    | .touchedBacking => t.touchedBacking sh
    | .prepareDrill => t.prepare sh inp true .prepareDrillDelaying
    | .prepareDrillDelaying => t.delaying sh inp .drilling
    | .drilling => t.drilling sh inp
    | .prepareBack => t.prepare sh inp false .prepareBackDelaying
    | .prepareBackDelaying => t.delaying sh inp .returnBacking
    | .returnBacking => t.returnBacking sh

end Cycle

end DrillAutoTask

end Edm
