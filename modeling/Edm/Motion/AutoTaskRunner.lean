import Edm.Motion.PauseMove
import Edm.Motion.G01
import Edm.Motion.Tasks
import Edm.Motion.Drill

/-!
# The task runner

`AutoTask` is the abstract task class of the source: its operations dispatch to the task at hand.
`AutoTaskRunner` keeps one task and the pause-move controller. `state` is what it shows outside;
`dominState` says whether the task or a recovery stands behind it.
-/

namespace Edm

inductive AutoTask (K : Type) where
  | g00 (t : G00AutoTask K)
  | g01 (t : G01AutoTask K)
  | g04 (t : G04AutoTask)
  | m00Fake (t : M00FakeAutoTask)
  | g01Group (t : G01GroupAutoTask K)
  | drill (t : DrillAutoTask K)

namespace AutoTask

variable {K : Type} [Field K] [LinearOrder K]

def isNormalRunning : AutoTask K → Bool
  | g00 t => t.isNormalRunning
  | g01 t => t.isNormalRunning
  | g04 t => t.isNormalRunning
  | m00Fake _ => false
  | g01Group t => t.isNormalRunning
  | drill t => t.isNormalRunning

def isPausing : AutoTask K → Bool
  | g00 t => t.isPausing
  | g01 t => t.isPausing
  | g04 _ => false
  | m00Fake _ => false
  | g01Group t => t.isPausing
  | drill _ => false

def isPaused : AutoTask K → Bool
  | g00 t => t.isPaused
  | g01 t => t.isPaused
  | g04 t => t.isPaused
  | m00Fake t => t.isPaused
  | g01Group t => t.isPaused
  | drill t => t.isPaused

def isStopping : AutoTask K → Bool
  | g00 t => t.isStopping
  | g01 t => t.isStopping
  | g04 _ => false
  | m00Fake _ => false
  | g01Group t => t.isStopping
  | drill _ => false

def isStopped : AutoTask K → Bool
  | g00 t => t.isStopped
  | g01 t => t.isStopped
  | g04 t => t.isStopped
  | m00Fake t => t.isStopped
  | g01Group t => t.isStopped
  | drill t => t.isStopped

/-- Every task's `is_over` is its `is_stopped`. -/
def isOver (t : AutoTask K) : Bool := t.isStopped

variable [FloorRing K] [RealFns K] [Settings]

def pause (t : AutoTask K) (sh : MotionShared K) : AutoTask K × MotionShared K × Bool :=
  match t with
  | g00 t => let (t, ret) := t.pause; (g00 t, sh, ret)
  | g01 t => let (t, ret) := t.pause; (g01 t, sh, ret)
  | g04 t => let (t, ret) := t.pause; (g04 t, sh, ret)
  | m00Fake t => let (t, ret) := t.pause; (m00Fake t, sh, ret)
  | g01Group t => let (t, ret) := t.pause; (g01Group t, sh, ret)
  | drill t => let (t, sh, ret) := t.pause sh; (drill t, sh, ret)

def resume (t : AutoTask K) (sh : MotionShared K) : AutoTask K × MotionShared K × Bool :=
  match t with
  | g00 t => let (t, ret) := t.resume; (g00 t, sh, ret)
  | g01 t => let (t, ret) := t.resume; (g01 t, sh, ret)
  | g04 t => let (t, ret) := t.resume; (g04 t, sh, ret)
  | m00Fake t => let (t, ret) := t.resume; (m00Fake t, sh, ret)
  | g01Group t => let (t, ret) := t.resume; (g01Group t, sh, ret)
  | drill t => let (t, sh, ret) := t.resume sh; (drill t, sh, ret)

def stop (t : AutoTask K) (sh : MotionShared K) (immediate : Bool) :
    AutoTask K × MotionShared K × Bool :=
  match t with
  | g00 t => let (t, ret) := t.stop immediate; (g00 t, sh, ret)
  | g01 t => let (t, ret) := t.stop immediate; (g01 t, sh, ret)
  | g04 t => let (t, ret) := t.stop immediate; (g04 t, sh, ret)
  | m00Fake t => let (t, ret) := t.stop immediate; (m00Fake t, sh, ret)
  | g01Group t => let (t, ret) := t.stop immediate; (g01Group t, sh, ret)
  | drill t => let (t, sh, ret) := t.stop sh immediate; (drill t, sh, ret)

def runOnce (t : AutoTask K) (sh : MotionShared K) (inp : CycleInput K) :
    AutoTask K × MotionShared K :=
  match t with
  | g00 t => let (t, sh) := t.runOnce sh inp; (g00 t, sh)
  | g01 t => let (t, sh) := t.runOnce sh inp; (g01 t, sh)
  | g04 t => (g04 t.runOnce, sh)
  | m00Fake t => (m00Fake t, sh)
  | g01Group t => let (t, sh) := t.runOnce sh; (g01Group t, sh)
  | drill t => let (t, sh) := t.runOnce sh inp; (drill t, sh)

end AutoTask

inductive AutoTaskRunner.DominatedState where
  | autoTaskRunning | pauseMoveRecoverRunning
  deriving DecidableEq, Repr

structure AutoTaskRunner (K : Type) where
  currTask : Option (AutoTask K)
  state : MotionAutoState
  dominState : AutoTaskRunner.DominatedState
  pausemoveController : PauseMoveController K

namespace AutoTaskRunner

variable {K : Type} [Field K] [LinearOrder K]

def new : AutoTaskRunner K := ⟨none, .stopped, .autoTaskRunning, .new⟩

/-- The dominating state survives a reset. -/
def reset (r : AutoTaskRunner K) : AutoTaskRunner K :=
  { r with
    currTask := none
    state := .stopped
    pausemoveController := r.pausemoveController.init }

def restartTask (r : AutoTaskRunner K) (task : AutoTask K) : AutoTaskRunner K × Bool :=
  ({ r with currTask := some task, state := .normalMoving, dominState := .autoTaskRunning }, true)

def autostateSwitchToPaused (r : AutoTaskRunner K) : AutoTaskRunner K :=
  { r with state := .paused, pausemoveController := r.pausemoveController.init }

variable [FloorRing K] [RealFns K] [Settings]

def pause (r : AutoTaskRunner K) (sh : MotionShared K) :
    AutoTaskRunner K × MotionShared K × Bool :=
  match r.currTask with
  | none => (r, sh, false)
  | some task =>
    match r.dominState with
    | .pauseMoveRecoverRunning =>
      match r.state with
      | .paused => (r, sh, true)
      | .pausing => (r, sh, true)
      | .stopping => (r, sh, false)
      | .normalMoving =>
        let (pmc, ret) := r.pausemoveController.pauseRecover
        ({ r with pausemoveController := pmc, state := if ret then .pausing else r.state }, sh, ret)
      | .resuming => (r, sh.setFault, false)
      | .stopped => (r, sh.setFault, false)
    | .autoTaskRunning =>
      match r.state with
      | .normalMoving =>
        let (task, sh, ret) := task.pause sh
        ({ r with currTask := some task, state := if ret then .pausing else r.state }, sh, ret)
      | .resuming =>
        let (task, sh, ret) := task.pause sh
        ({ r with currTask := some task, state := if ret then .pausing else r.state }, sh, ret)
      | .pausing => (r, sh, true)
      | .paused => (r, sh, true)
      | .stopping => (r, sh, false)
      | .stopped => (r, sh, false)

def resume (r : AutoTaskRunner K) (sh : MotionShared K) :
    AutoTaskRunner K × MotionShared K × Bool :=
  match r.currTask with
  | none => (r, sh, false)
  | some _ =>
    match r.dominState with
    | .pauseMoveRecoverRunning =>
      match r.state with
      | .normalMoving => (r, sh, true)
      | .pausing => (r, sh, false)
      | .stopping => (r, sh, false)
      | .paused =>
        let (pmc, ret) := r.pausemoveController.resumeRecover
        if ret then
          ({ r with pausemoveController := pmc, state := .normalMoving },
            sh.setSignal .autoResumed, true)
        else ({ r with pausemoveController := pmc }, sh, false)
      | .resuming => (r, sh.setFault, false)
      | .stopped => (r, sh.setFault, false)
    | .autoTaskRunning =>
      match r.state with
      | .normalMoving => (r, sh, false)
      | .pausing => (r, sh, false)
      | .stopping => (r, sh, false)
      | .stopped => (r, sh, false)
      | .paused =>
        let (pmc, ret) := r.pausemoveController.activateRecover
        if ret then
          ({ r with
              pausemoveController := pmc
              dominState := .pauseMoveRecoverRunning
              state := .normalMoving }, sh.setSignal .autoResumed, true)
        else ({ r with pausemoveController := pmc }, sh, false)
      | .resuming => (r, sh, true)

/-- A runner that is paused is stopped at once, without a signal; its task is left alone, since it
may stand elsewhere than the axes after manual moves. -/
def stop (r : AutoTaskRunner K) (sh : MotionShared K) (immediate : Bool) :
    AutoTaskRunner K × MotionShared K × Bool :=
  match r.currTask with
  | none => (r, sh, false)
  | some task =>
    match r.dominState with
    | .pauseMoveRecoverRunning =>
      match r.state with
      | .stopping => (r, sh, true)
      | .normalMoving | .pausing | .paused =>
        let (pmc, ret) := r.pausemoveController.stop immediate
        ({ r with pausemoveController := pmc, state := if ret then .stopping else r.state },
          sh, ret)
      | .resuming => (r, sh.setFault, false)
      | .stopped => (r, sh.setFault, false)
    | .autoTaskRunning =>
      match r.state with
      | .normalMoving | .resuming | .pausing =>
        let (task, sh, ret) := task.stop sh immediate
        ({ r with currTask := some task, state := if ret then .stopping else r.state }, sh, ret)
      | .paused => ({ r with state := .stopped }, sh, true)
      | .stopping => (r, sh, true)
      | .stopped => (r, sh, true)

def startManualPointmove (r : AutoTaskRunner K) (sh : MotionShared K)
    (speedParam : MoveRuntimePlanSpeedInput K) (startPos targetPos : Axis K) :
    AutoTaskRunner K × MotionShared K × Bool :=
  if r.state ≠ .paused ∨ r.dominState ≠ .autoTaskRunning then (r, sh, false)
  else
    let (pmc, sh, ret) :=
      r.pausemoveController.startManualPointmove sh speedParam startPos targetPos
    ({ r with pausemoveController := pmc }, sh, ret)

def stopManualPointmove (r : AutoTaskRunner K) (immediate : Bool) : AutoTaskRunner K × Bool :=
  if r.state ≠ .paused ∨ r.dominState ≠ .autoTaskRunning then (r, false)
  else
    let (pmc, ret) := r.pausemoveController.stopManualPointmove immediate
    ({ r with pausemoveController := pmc }, ret)

/-- `_normal_moving`. -/
def normalMoving (r : AutoTaskRunner K) (sh : MotionShared K) (inp : CycleInput K)
    (task : AutoTask K) : AutoTaskRunner K × MotionShared K :=
  let (task, sh) := task.runOnce sh inp
  let r := { r with currTask := some task }
  if task.isPausing || task.isPaused then ({ r with state := .pausing }, sh)
  else if task.isStopping || task.isStopped then ({ r with state := .stopping }, sh)
  else (r, sh)

/-- `_pausing`. -/
def pausing (r : AutoTaskRunner K) (sh : MotionShared K) (inp : CycleInput K)
    (task : AutoTask K) : AutoTaskRunner K × MotionShared K :=
  let (task, sh) := task.runOnce sh inp
  let r := { r with currTask := some task }
  if task.isPaused then (r.autostateSwitchToPaused, sh.setSignal .autoPaused)
  else if task.isStopping || task.isStopped then ({ r with state := .stopping }, sh)
  else if task.isNormalRunning then ({ r with state := .resuming }, sh)
  else (r, sh)

/-- `_paused`: the manual moves. -/
def paused (r : AutoTaskRunner K) (sh : MotionShared K) (inp : CycleInput K) :
    AutoTaskRunner K × MotionShared K :=
  let (pmc, sh) := r.pausemoveController.runOnce sh inp
  ({ r with pausemoveController := pmc }, sh)

/-- `_resuming`. -/
def resuming (r : AutoTaskRunner K) (sh : MotionShared K) (inp : CycleInput K)
    (task : AutoTask K) : AutoTaskRunner K × MotionShared K :=
  let (task, sh) := task.runOnce sh inp
  let r := { r with currTask := some task }
  if task.isNormalRunning then ({ r with state := .normalMoving }, sh.setSignal .autoResumed)
  else if task.isStopping || task.isStopped then
    ({ r with state := .stopping }, sh.setSignal .autoResumed)
  else if task.isPausing || task.isPaused then ({ r with state := .pausing }, sh)
  else (r, sh)

/-- `_stopping`. -/
def stopping (r : AutoTaskRunner K) (sh : MotionShared K) (inp : CycleInput K)
    (task : AutoTask K) : AutoTaskRunner K × MotionShared K :=
  let (task, sh) := task.runOnce sh inp
  let r := { r with currTask := some task }
  if task.isStopped then ({ r with state := .stopped }, sh.setSignal .autoStopped) else (r, sh)

/-- `_dominated_state_pmrecovering_run_once`. -/
def dominatedStatePmrecoveringRunOnce (r : AutoTaskRunner K) (sh : MotionShared K)
    (inp : CycleInput K) (task : AutoTask K) : AutoTaskRunner K × MotionShared K :=
  match r.state with
  | .normalMoving =>
    let (pmc, sh) := r.pausemoveController.runOnce sh inp
    let r := { r with pausemoveController := pmc }
    if pmc.isStopped then ({ r with state := .stopped }, sh.setSignal .autoStopped)
    else if pmc.isRecoverOver then
      let (task, sh, ret) := task.resume sh
      let r := { r with currTask := some task }
      if ret then ({ r with dominState := .autoTaskRunning, state := .resuming }, sh)
      else (r, sh)
    else (r, sh)
  | .pausing =>
    let (pmc, sh) := r.pausemoveController.runOnce sh inp
    let r := { r with pausemoveController := pmc }
    if pmc.isRecoverPaused then ({ r with state := .paused }, sh.setSignal .autoPaused)
    else (r, sh)
  | .paused => (r, sh)
  | .stopping =>
    let (pmc, sh) := r.pausemoveController.runOnce sh inp
    let r := { r with pausemoveController := pmc }
    if pmc.isStopped then
      ({ r with state := .stopped, dominState := .autoTaskRunning }, sh.setSignal .autoStopped)
    else (r, sh)
  | .resuming => (r, sh.setFault)
  | .stopped => (r, sh.setFault)

def runOnce (r : AutoTaskRunner K) (sh : MotionShared K) (inp : CycleInput K) :
    AutoTaskRunner K × MotionShared K :=
  match r.currTask with
  | none => (r, sh)
  | some task =>
    match r.dominState with
    | .pauseMoveRecoverRunning => r.dominatedStatePmrecoveringRunOnce sh inp task
    | .autoTaskRunning =>
      match r.state with
      | .normalMoving => r.normalMoving sh inp task
      | .pausing => r.pausing sh inp task
      | .paused => r.paused sh inp
      | .resuming => r.resuming sh inp task
      | .stopping => r.stopping sh inp task
      | .stopped => (r, sh)

end AutoTaskRunner

end Edm
