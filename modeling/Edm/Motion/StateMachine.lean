import Edm.Motion.AutoTaskRunner

/-!
# The motion state machine

`MotionStateMachine` is in one of three main modes: idle, a manual move, or a task. Commands are
accepted or refused by mode; `runOnce` is one cycle of the motion thread. The state machine of the
source and the data it shares with the rest are one record here.
-/

namespace Edm

structure MotionStateMachine (K : Type) where
  enabled : Bool
  mainMode : MotionMainMode
  pmHandler : PointMoveHandler K
  autoTaskRunner : AutoTaskRunner K
  shared : MotionShared K

namespace MotionStateMachine

variable {K : Type} [Field K] [LinearOrder K]

/-- A reset leaves the touch detection and the commanded axis alone. -/
def reset (m : MotionStateMachine K) : MotionStateMachine K :=
  { m with
    enabled := false
    mainMode := .idle
    pmHandler := m.pmHandler.clear
    autoTaskRunner := m.autoTaskRunner.reset }

/-- The constructor resets the touch detection and the state machine. -/
def new : MotionStateMachine K :=
  reset
    { enabled := false
      mainMode := .idle
      pmHandler := .new
      autoTaskRunner := .new
      shared := { MotionShared.new with touch := (MotionShared.new (K := K)).touch.reset } }

def setEnable (m : MotionStateMachine K) (enable : Bool) : MotionStateMachine K :=
  { m with enabled := enable }

def autoState (m : MotionStateMachine K) : MotionAutoState := m.autoTaskRunner.state

variable [FloorRing K] [RealFns K] [Settings]

def startManualPointmove (m : MotionStateMachine K) (speedParam : MoveRuntimePlanSpeedInput K)
    (targetPos : Axis K) : MotionStateMachine K × Bool :=
  match m.mainMode with
  | .idle =>
    let (pm, ret) := m.pmHandler.start speedParam m.shared.globalCmdAxis targetPos
    if ret then
      ({ m with
          pmHandler := pm
          mainMode := .manual
          shared := m.shared.setSignal .manualPointMoveStarted }, true)
    else ({ m with pmHandler := pm }, false)
  | .manual => (m, false)
  | .auto =>
    let (r, sh, ret) :=
      m.autoTaskRunner.startManualPointmove m.shared speedParam m.shared.globalCmdAxis targetPos
    ({ m with autoTaskRunner := r, shared := sh }, ret)

def stopManualPointmove (m : MotionStateMachine K) (immediate : Bool) :
    MotionStateMachine K × Bool :=
  match m.mainMode with
  | .idle => (m, false)
  | .manual =>
    let (pm, ret) := m.pmHandler.stop immediate
    ({ m with pmHandler := pm }, ret)
  | .auto =>
    let (r, ret) := m.autoTaskRunner.stopManualPointmove immediate
    ({ m with autoTaskRunner := r }, ret)

/-- The end all `start_auto_…` share: a task that is over from the start is refused. What its
construction did to the shared data stays done. -/
def startAuto (m : MotionStateMachine K) (task : AutoTask K) (sh : MotionShared K) :
    MotionStateMachine K × Bool :=
  if task.isOver then ({ m with shared := sh }, false)
  else
    let (r, _) := m.autoTaskRunner.restartTask task
    ({ m with autoTaskRunner := r, mainMode := .auto, shared := sh.setSignal .autoStarted }, true)

def startAutoG00 (m : MotionStateMachine K) (speedParam : MoveRuntimePlanSpeedInput K)
    (targetPos : Axis K) (enableTouchDetect : Bool) : MotionStateMachine K × Bool :=
  if m.mainMode ≠ .idle then (m, false)
  else
    m.startAuto (.g00 (.new targetPos speedParam enableTouchDetect m.shared)) m.shared

def startAutoG01 (m : MotionStateMachine K) (targetPos : Axis K) (maxJumpHeightFromBegin : K)
    (nowMs hrNowNs : ℤ) : MotionStateMachine K × Bool :=
  if m.mainMode ≠ .idle then (m, false)
  else
    let line := TrajectoryLinearSegement.new m.shared.globalCmdAxis targetPos
    let (t, sh) := G01AutoTask.new line maxJumpHeightFromBegin m.shared nowMs hrNowNs
    m.startAuto (.g01 t) sh

def startAutoG04 (m : MotionStateMachine K) (delayS : K) : MotionStateMachine K × Bool :=
  if m.mainMode ≠ .idle then (m, false)
  else m.startAuto (.g04 (.new delayS)) m.shared

def startAutoG01Group (m : MotionStateMachine K) (items : List (G01GroupItem K)) :
    MotionStateMachine K × Bool :=
  if m.mainMode ≠ .idle then (m, false)
  else
    let (t, sh) := G01GroupAutoTask.new items m.shared
    m.startAuto (.g01Group t) sh

def startAutoM00fake (m : MotionStateMachine K) : MotionStateMachine K × Bool :=
  if m.mainMode ≠ .idle then (m, false)
  else m.startAuto (.m00Fake .new) m.shared

/-- Compiled for the drilling machine only. -/
def startAutoDrill (m : MotionStateMachine K) (p : DrillStartParams K) :
    MotionStateMachine K × Bool :=
  if !Settings.powerZhongguDrill ∨ m.mainMode ≠ .idle then (m, false)
  else
    let (t, sh) := DrillAutoTask.new p m.shared
    m.startAuto (.drill t) sh

def pauseAuto (m : MotionStateMachine K) : MotionStateMachine K × Bool :=
  if m.mainMode ≠ .auto then (m, false)
  else
    let (r, sh, ret) := m.autoTaskRunner.pause m.shared
    ({ m with autoTaskRunner := r, shared := sh }, ret)

def resumeAuto (m : MotionStateMachine K) : MotionStateMachine K × Bool :=
  if m.mainMode ≠ .auto then (m, false)
  else
    let (r, sh, ret) := m.autoTaskRunner.resume m.shared
    ({ m with autoTaskRunner := r, shared := sh }, ret)

def stopAuto (m : MotionStateMachine K) (immediate : Bool) : MotionStateMachine K × Bool :=
  if m.mainMode ≠ .auto then (m, false)
  else
    let (r, sh, ret) := m.autoTaskRunner.stop m.shared immediate
    ({ m with autoTaskRunner := r, shared := sh }, ret)

/-- `_mainmode_manual`. A touch ends the manual mode at once. -/
def mainmodeManual (m : MotionStateMachine K) (inp : CycleInput K) : MotionStateMachine K :=
  if m.pmHandler.isOver then
    { m with mainMode := .idle, shared := m.shared.setSignal .manualPointMoveStopped }
  else
    let (sh, touched) := m.shared.runDetectOnce inp
    if touched then
      { m with
        pmHandler := (m.pmHandler.stop true).1
        mainMode := .idle
        shared := sh.setSignal .manualPointMoveStopped }
    else
      let pm := m.pmHandler.runOnce
      { m with pmHandler := pm, shared := sh.setGlobalCmdAxis pm.currPos }

/-- `_mainmode_auto`. -/
def mainmodeAuto (m : MotionStateMachine K) (inp : CycleInput K) : MotionStateMachine K :=
  let (r, sh) := m.autoTaskRunner.runOnce m.shared inp
  { m with
    autoTaskRunner := r
    shared := sh
    mainMode := if r.state = .stopped then .idle else m.mainMode }

def runOnce (m : MotionStateMachine K) (inp : CycleInput K) : MotionStateMachine K :=
  if !m.enabled then m
  else
    match m.mainMode with
    | .idle => { m with shared := m.shared.setDetectEnable false }
    | .manual => m.mainmodeManual inp
    | .auto => m.mainmodeAuto inp

end MotionStateMachine

end Edm
