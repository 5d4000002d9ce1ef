import Edm.Lib.Path
import Edm.Motion.Shared

/-!
# Manual moves during a pause

While a task is paused the operator may move the axes by hand. `PauseMoveController` records each
finished move on a stack (`AxisRecordStack`) and, when the task is to go on, walks the stack back:
each recorded move is driven from its stop point to its start point. The recovery can itself be
paused, resumed and stopped.
-/

namespace Edm

/-- `AxisRecorderData`: the start and stop point of a manual move and its speed parameters. -/
abbrev AxisRecorderData (K : Type) := Path.Segment (Axis K) (MoveRuntimePlanSpeedInput K)

inductive PauseMoveController.State where
  | notInited
  | allowManualPointMove | manualPointMoving
  | recovering | recoveringPausing | recoveringPaused | recorverOver
  | outSideStopping | outSideOrErrorStopped
  deriving DecidableEq, Repr

structure PauseMoveController (K : Type) where
  pmHandler : PointMoveHandler K
  /-- The top of the stack is the head of the list. -/
  axisRecorder : List (AxisRecorderData K)
  state : PauseMoveController.State

namespace PauseMoveController

variable {K : Type} [Field K] [LinearOrder K]

def new : PauseMoveController K := ⟨.new, [], .notInited⟩

def init (c : PauseMoveController K) : PauseMoveController K where
  pmHandler := c.pmHandler.clear
  axisRecorder := []
  state := .allowManualPointMove

def isRecoverPaused (c : PauseMoveController K) : Bool := c.state = .recoveringPaused
def isRecoverOver (c : PauseMoveController K) : Bool := c.state = .recorverOver
def isStopped (c : PauseMoveController K) : Bool := c.state = .outSideOrErrorStopped

section Commands

variable [FloorRing K] [RealFns K] [Settings]

def startManualPointmove (c : PauseMoveController K) (sh : MotionShared K)
    (speedParam : MoveRuntimePlanSpeedInput K) (startPos targetPos : Axis K) :
    PauseMoveController K × MotionShared K × Bool :=
  if c.state ≠ .allowManualPointMove then (c, sh, false)
  else
    let (pm, ret) := c.pmHandler.start speedParam startPos targetPos
    if !ret then ({ c with pmHandler := pm }, sh, false)
    else if pm.isOver then ({ c with pmHandler := pm }, sh, false)
    else
      ({ c with pmHandler := pm, state := .manualPointMoving },
        sh.setSignal .manualPointMoveStarted, true)

def stopManualPointmove (c : PauseMoveController K) (immediate : Bool) :
    PauseMoveController K × Bool :=
  if c.state ≠ .manualPointMoving then (c, false)
  else
    let (pm, ret) := c.pmHandler.stop immediate
    ({ c with pmHandler := pm }, ret)

def pauseRecover (c : PauseMoveController K) : PauseMoveController K × Bool :=
  if c.state = .recoveringPausing ∨ c.state = .recoveringPaused then (c, true)
  else if c.state ≠ .recovering then (c, false)
  else
    let (pm, ret) := c.pmHandler.pause
    if !ret then ({ c with pmHandler := pm }, false)
    else ({ c with pmHandler := pm, state := .recoveringPausing }, true)

def resumeRecover (c : PauseMoveController K) : PauseMoveController K × Bool :=
  if c.state = .recovering ∨ c.state = .recorverOver then (c, true)
  else if c.state ≠ .recoveringPaused then (c, false)
  else
    let (pm, ret) := c.pmHandler.resume
    if !ret then ({ c with pmHandler := pm }, false)
    else ({ c with pmHandler := pm, state := .recovering }, true)

def stop (c : PauseMoveController K) (immediate : Bool) : PauseMoveController K × Bool :=
  match c.state with
  | .notInited => (c, false)
  | .allowManualPointMove => ({ c with state := .outSideOrErrorStopped }, true)
  | .outSideOrErrorStopped => ({ c with state := .outSideOrErrorStopped }, true)
  | .recorverOver => ({ c with state := .outSideOrErrorStopped }, true)
  | .recoveringPaused => ({ c with state := .outSideOrErrorStopped }, true)
  | .outSideStopping => (c, true)
  | .manualPointMoving =>
    ({ c with pmHandler := (c.pmHandler.stop immediate).1, state := .outSideStopping }, true)
  | .recovering =>
    ({ c with pmHandler := (c.pmHandler.stop immediate).1, state := .outSideStopping }, true)
  | .recoveringPausing =>
    ({ c with pmHandler := (c.pmHandler.stop immediate).1, state := .outSideStopping }, true)

def activateRecover (c : PauseMoveController K) : PauseMoveController K × Bool :=
  if c.state = .manualPointMoving then (c, false)
  else if c.state = .recovering ∨ c.state = .recorverOver then (c, true)
  else if c.state = .recoveringPaused then c.resumeRecover
  else
    match c.axisRecorder with
    | [] => ({ c with state := .recorverOver }, true)
    | finalSegment :: rest =>
      let (pm, ret) :=
        c.pmHandler.start finalSegment.data finalSegment.stop finalSegment.start
      if !ret then
        ({ pmHandler := pm, axisRecorder := rest, state := .outSideOrErrorStopped }, false)
      else ({ pmHandler := pm, axisRecorder := rest, state := .recovering }, true)

/-- `_manual_pointmoving`. A move that did not leave its start is not recorded. -/
def manualPointmoving (c : PauseMoveController K) (sh : MotionShared K) (inp : CycleInput K) :
    PauseMoveController K × MotionShared K :=
  if c.pmHandler.isOver then
    let sh := (sh.setSignal .manualPointMoveStopped).setDetectEnable false
    if c.pmHandler.startPos = c.pmHandler.currPos then
      ({ c with state := .allowManualPointMove }, sh)
    else
      let seg : AxisRecorderData K :=
        ⟨c.pmHandler.startPos, c.pmHandler.currPos, c.pmHandler.speedParam⟩
      ({ c with axisRecorder := seg :: c.axisRecorder, state := .allowManualPointMove }, sh)
  else
    let (sh, touched) := sh.runDetectOnce inp
    let pm := if touched then (c.pmHandler.stop true).1 else c.pmHandler
    let pm := pm.runOnce
    ({ c with pmHandler := pm }, sh.setGlobalCmdAxis pm.currPos)

/-- `_recovering`: the next segment once the current one is over. A segment whose move fails to
start leaves the handler over, so the cycle after goes on to the next one. -/
def recovering (c : PauseMoveController K) (sh : MotionShared K) :
    PauseMoveController K × MotionShared K :=
  if c.pmHandler.isOver then
    match c.axisRecorder with
    | [] => ({ c with state := .recorverOver }, sh)
    | segement :: rest =>
      ({ c with
          pmHandler := (c.pmHandler.start segement.data segement.stop segement.start).1
          axisRecorder := rest }, sh)
  else
    let pm := c.pmHandler.runOnce
    ({ c with pmHandler := pm }, sh.setGlobalCmdAxis pm.currPos)

/-- `_recovering_pausing`. -/
def recoveringPausing (c : PauseMoveController K) (sh : MotionShared K) :
    PauseMoveController K × MotionShared K :=
  if c.pmHandler.isPaused then ({ c with state := .recoveringPaused }, sh)
  else
    let pm := c.pmHandler.runOnce
    ({ c with pmHandler := pm }, sh.setGlobalCmdAxis pm.currPos)

/-- `_outside_stopping`. -/
def outsideStopping (c : PauseMoveController K) (sh : MotionShared K) :
    PauseMoveController K × MotionShared K :=
  if c.pmHandler.isStopped then ({ c with state := .outSideOrErrorStopped }, sh)
  else
    let pm := c.pmHandler.runOnce
    ({ c with pmHandler := pm }, sh.setGlobalCmdAxis pm.currPos)

def runOnce (c : PauseMoveController K) (sh : MotionShared K) (inp : CycleInput K) :
    PauseMoveController K × MotionShared K :=
  match c.state with
  | .notInited => (c, sh)
  | .allowManualPointMove => (c, sh)
  | .manualPointMoving => c.manualPointmoving sh inp
  | .recovering => c.recovering sh
  | .recoveringPausing => c.recoveringPausing sh
  | .recoveringPaused => (c, sh)
  | .recorverOver => (c, sh)
  | .outSideStopping => c.outsideStopping sh
  | .outSideOrErrorStopped => (c, sh)

end Commands

end PauseMoveController

end Edm
