import Edm.Motion.Trajectory

/-!
# Rapid moves, delays, the fake pause and the line group

The short tasks: `G00AutoTask` (a point move with touch detection), `G04AutoTask` (a delay counted in
cycles), `M00FakeAutoTask` (a task that is paused from the start and over once it is resumed) and
`G01GroupAutoTask` (a chain of lines driven at their own feed rates).
-/

namespace Edm

structure G00AutoTask (K : Type) where
  pmHandler : PointMoveHandler K
  enableTouchDetect : Bool

namespace G00AutoTask

variable {K : Type} [Field K] [LinearOrder K]

def isNormalRunning (t : G00AutoTask K) : Bool := t.pmHandler.isNormalRunning
def isPausing (t : G00AutoTask K) : Bool := t.pmHandler.isPausing
def isPaused (t : G00AutoTask K) : Bool := t.pmHandler.isPaused
def isResuming (t : G00AutoTask K) : Bool := t.isNormalRunning
def isStopping (t : G00AutoTask K) : Bool := t.pmHandler.isStopping
def isStopped (t : G00AutoTask K) : Bool := t.pmHandler.isStopped
def isOver (t : G00AutoTask K) : Bool := t.pmHandler.isOver

variable [FloorRing K] [RealFns K] [Settings]

def new (targetAxis : Axis K) (speedParam : MoveRuntimePlanSpeedInput K) (enableTouchDetect : Bool)
    (sh : MotionShared K) : G00AutoTask K :=
  ⟨(PointMoveHandler.new.start speedParam sh.globalCmdAxis targetAxis).1, enableTouchDetect⟩

def pause (t : G00AutoTask K) : G00AutoTask K × Bool :=
  let (pm, ret) := t.pmHandler.pause
  ({ t with pmHandler := pm }, ret)

def resume (t : G00AutoTask K) : G00AutoTask K × Bool :=
  let (pm, ret) := t.pmHandler.resume
  ({ t with pmHandler := pm }, ret)

def stop (t : G00AutoTask K) (immediate : Bool) : G00AutoTask K × Bool :=
  let (pm, ret) := t.pmHandler.stop immediate
  ({ t with pmHandler := pm }, ret)

/-- The detection is set up again in every cycle, the warning is not. -/
def runOnce (t : G00AutoTask K) (sh : MotionShared K) (inp : CycleInput K) :
    G00AutoTask K × MotionShared K :=
  let (sh, touched) := (sh.setDetectEnable t.enableTouchDetect).runDetectOnce inp
  let pm := if touched then (t.pmHandler.stop true).1 else t.pmHandler
  let pm := pm.runOnce
  let sh := sh.setGlobalCmdAxis pm.currPos
  let sh := if pm.isStopped || pm.isPaused then sh.setDetectEnable false else sh
  ({ t with pmHandler := pm }, sh)

end G00AutoTask

inductive G04AutoTask.State where
  | normalDelaying | paused | stopped
  deriving DecidableEq, Repr

structure G04AutoTask where
  state : G04AutoTask.State
  currDelayedPeroids : ℕ
  targetDelayPeroids : ℕ
  deriving DecidableEq, Repr

namespace G04AutoTask

section Construct

variable {K : Type} [Field K] [LinearOrder K] [FloorRing K] [Settings]

/-- `std::round`: halves away from zero. -/
def round (x : K) : ℤ := if 0 ≤ x then ⌊x + 1 / 2⌋ else -⌊-x + 1 / 2⌋

/-- The delay in cycles, at least one. -/
def new (delayS : K) : G04AutoTask :=
  let peroids := ⌊UnitConverter.ms2p (round (delayS * 1000) : K)⌋.toNat
  ⟨.normalDelaying, 0, if peroids < 1 then 1 else peroids⟩

end Construct

def pause (t : G04AutoTask) : G04AutoTask × Bool :=
  match t.state with
  | .stopped => (t, false)
  | .paused => (t, true)
  | .normalDelaying => ({ t with state := .paused }, true)

def resume (t : G04AutoTask) : G04AutoTask × Bool :=
  match t.state with
  | .stopped => (t, false)
  | .normalDelaying => (t, false)
  | .paused => ({ t with state := .normalDelaying }, true)

def stop (t : G04AutoTask) (_immediate : Bool) : G04AutoTask × Bool :=
  ({ t with state := .stopped }, true)

def isNormalRunning (t : G04AutoTask) : Bool := t.state = .normalDelaying
def isPaused (t : G04AutoTask) : Bool := t.state = .paused
def isStopped (t : G04AutoTask) : Bool := t.state = .stopped

def runOnce (t : G04AutoTask) : G04AutoTask :=
  match t.state with
  | .normalDelaying =>
    { t with
      currDelayedPeroids := t.currDelayedPeroids + 1
      state :=
        if t.currDelayedPeroids + 1 ≥ t.targetDelayPeroids then .stopped else .normalDelaying }
  | .paused => t
  | .stopped => t

end G04AutoTask

inductive M00FakeAutoTask.State where
  | paused | stopped
  deriving DecidableEq, Repr

structure M00FakeAutoTask where
  state : M00FakeAutoTask.State
  deriving DecidableEq, Repr

namespace M00FakeAutoTask

def new : M00FakeAutoTask := ⟨.paused⟩

def pause (t : M00FakeAutoTask) : M00FakeAutoTask × Bool :=
  match t.state with
  | .stopped => (t, false)
  | .paused => (t, true)

def resume (t : M00FakeAutoTask) : M00FakeAutoTask × Bool :=
  match t.state with
  | .stopped => (t, false)
  | .paused => (⟨.stopped⟩, true)

def stop (_ : M00FakeAutoTask) (_immediate : Bool) : M00FakeAutoTask × Bool := (⟨.stopped⟩, true)

def isPaused (t : M00FakeAutoTask) : Bool := t.state = .paused
def isStopped (t : M00FakeAutoTask) : Bool := t.state = .stopped

end M00FakeAutoTask

/-- `G01GroupItem`. -/
structure G01GroupItem (K : Type) where
  incs : Axis K
  line : ℤ
  feedrate : ℤ

/-- The states are those of the single line, without its sub-states. -/
structure G01GroupAutoTask (K : Type) where
  items : List (G01GroupItem K)
  /-- Not set for an empty list of items; the task is then stopped from the start. -/
  trajList : Option (TrajectoryList K)
  state : MotionAutoState

namespace G01GroupAutoTask

variable {K : Type} [Field K] [LinearOrder K]

/-- `_mach_on` returns before it does anything. -/
def machOn (sh : MotionShared K) (_enable : Bool) : MotionShared K := sh

def pause (t : G01GroupAutoTask K) : G01GroupAutoTask K × Bool :=
  match t.state with
  | .resuming => ({ t with state := .pausing }, true)
  | .normalMoving => ({ t with state := .pausing }, true)
  | .pausing => (t, true)
  | .paused => (t, false)
  | .stopped => (t, false)
  | .stopping => (t, false)

def resume (t : G01GroupAutoTask K) : G01GroupAutoTask K × Bool :=
  match t.state with
  | .paused => ({ t with state := .resuming }, true)
  | .resuming => (t, true)
  | .normalMoving => (t, false)
  | .pausing => (t, false)
  | .stopped => (t, false)
  | .stopping => (t, false)

def stop (t : G01GroupAutoTask K) (_immediate : Bool) : G01GroupAutoTask K × Bool :=
  match t.state with
  | .normalMoving => ({ t with state := .stopping }, true)
  | .resuming => ({ t with state := .stopping }, true)
  | .pausing => ({ t with state := .stopping }, true)
  | .paused => ({ t with state := .stopping }, true)
  | .stopping => (t, true)
  | .stopped => (t, false)

def isNormalRunning (t : G01GroupAutoTask K) : Bool := t.state = .normalMoving
def isPausing (t : G01GroupAutoTask K) : Bool := t.state = .pausing
def isPaused (t : G01GroupAutoTask K) : Bool := t.state = .paused
def isResuming (t : G01GroupAutoTask K) : Bool := t.state = .resuming
def isStopping (t : G01GroupAutoTask K) : Bool := t.state = .stopping
def isStopped (t : G01GroupAutoTask K) : Bool := t.state = .stopped
def isOver (t : G01GroupAutoTask K) : Bool := t.isStopped

variable [RealFns K]

/-- The segments of the items, the first starting at `firstPos`. -/
def segements (firstPos : Axis K) : List (G01GroupItem K) → List (TrajectoryLinearSegement K)
  | [] => []
  | item :: items =>
    let endPos : Axis K := fun i => firstPos i + item.incs i
    .new firstPos endPos :: segements endPos items

def new (items : List (G01GroupItem K)) (sh : MotionShared K) :
    G01GroupAutoTask K × MotionShared K :=
  match segements sh.globalCmdAxis items with
  | [] => (⟨items, none, .stopped⟩, sh)
  | seg :: rest => (⟨items, some ⟨[], seg, rest⟩, .normalMoving⟩, machOn sh true)

variable [Settings]

/-- `_state_normal_running`: the speed is the item's feed rate times the speed ratio. -/
def stateNormalRunning (t : G01GroupAutoTask K) (sh : MotionShared K) :
    G01GroupAutoTask K × MotionShared K :=
  match t.trajList with
  | none => (t, sh)
  | some traj =>
    match t.items[traj.currSegementIndex]? with
    | none => (t, sh)
    | some item =>
      let sh := sh.setSubLineNum item.line
      let servoDis := UnitConverter.mmMin2bluP (item.feedrate : K) * sh.g01SpeedRatio
      let traj := traj.runOnce servoDis
      let sh := sh.setGlobalCmdAxis traj.currCmdAxis
      let t := { t with trajList := some traj }
      if traj.atEnd then ({ t with state := .stopped }, machOn sh false) else (t, sh)

def runOnce (t : G01GroupAutoTask K) (sh : MotionShared K) :
    G01GroupAutoTask K × MotionShared K :=
  match t.state with
  | .normalMoving => t.stateNormalRunning sh
  | .pausing => ({ t with state := .paused }, machOn sh false)
  | .paused => (t, sh)
  | .resuming => ({ t with state := .normalMoving }, machOn sh true)
  | .stopping => ({ t with state := .stopped }, machOn sh false)
  | .stopped => (t, sh)

end G01GroupAutoTask

end Edm
