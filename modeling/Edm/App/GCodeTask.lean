import Edm.Motion.Tasks
import Edm.Motion.Drill

/-!
# Nodes of a program

`GCodeTaskBase` and the classes derived from it, one constructor each. The index of a node in a tree
(always `-1`) and the timers, which only measure, are left out.
-/

namespace Edm

inductive GCodeCoordinateMode where
  | undefined | absoluteMode | incrementMode
  deriving DecidableEq, Repr

/-- The values given for the six axes, in millimetres or degrees. -/
abbrev CmdValues (K : Type) := Fin 6 → Option K

structure G01GroupPoint (K : Type) where
  cmdValues : CmdValues K
  coordMode : GCodeCoordinateMode
  lineNumber : ℤ
  feedrate : ℤ

inductive GCodeNode (K : Type) where
  | g00Motion (touchDetectEnable isTouchMotion : Bool) (feedSpeed coordIndex : ℤ)
      (coordMode : GCodeCoordinateMode) (cmdValues : CmdValues K)
  | g01Motion (coordIndex : ℤ) (coordMode : GCodeCoordinateMode) (cmdValues : CmdValues K)
  | coordinateMode
  | coordinateIndex (coordIndex : ℤ)
  | eleparamSet (eleparamIndex : ℤ)
  | feedSpeedSet
  | delay (delayS : K)
  | programEnd
  | pauseCommand
  | coordSetZero (setZeroAxisList : Fin 6 → Bool)
  | drillMotion (startParams : DrillStartParams K) (spindleSpeedBluMsOpt : Option K)
  | g01GroupMotion (coordIndex : ℤ) (points : List (G01GroupPoint K))

/-- What every node carries, and what it does. -/
structure GCodeTask (K : Type) where
  lineNumber : ℤ
  gcodeStr : String
  options : List String
  node : GCodeNode K

namespace GCodeTask

variable {K : Type}

def isMotionTask (t : GCodeTask K) : Bool :=
  match t.node with
  | .g00Motion .. | .g01Motion .. | .delay .. | .pauseCommand | .drillMotion ..
  | .g01GroupMotion .. => true
  | .coordinateMode | .coordinateIndex .. | .eleparamSet .. | .feedSpeedSet | .programEnd
  | .coordSetZero .. => false

def isDrill (t : GCodeTask K) : Bool :=
  match t.node with
  | .drillMotion .. => true
  | _ => false

end GCodeTask

end Edm
