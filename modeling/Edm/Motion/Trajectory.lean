import Edm.Motion.Shared
import Edm.Utils.SlidingCounter

/-!
# Trajectories

`TrajectoryLinearSegement` is a straight line with the length gone so far; `TrajectoryList` a chain
of them with one current segment. The source keeps the chain in a deque with an iterator. Here it
is the current segment between the ones before it, nearest first, and the ones after it, so an empty
chain or an iterator past the end cannot be written down.
-/

namespace Edm

structure TrajectoryLinearSegement (K : Type) where
  startPos : Axis K
  endPos : Axis K
  currPos : Axis K
  totalLength : K
  currLength : K
  unitVector : Axis K

namespace TrajectoryLinearSegement

variable {K : Type} [Field K] [LinearOrder K] [RealFns K]

def new (startPos endPos : Axis K) : TrajectoryLinearSegement K where
  startPos := startPos
  endPos := endPos
  currPos := startPos
  totalLength := MotionUtils.axisLengthBetween startPos endPos
  currLength := 0
  unitVector := MotionUtils.axisUnitVector startPos endPos

def calcCurrPos (startPos endPos : Axis K) (currLength : K) : Axis K := fun i =>
  MotionUtils.scaleAxis (MotionUtils.axisUnitVector startPos endPos) currLength i + startPos i

def setAtStart (l : TrajectoryLinearSegement K) : TrajectoryLinearSegement K :=
  { l with currLength := 0, currPos := l.startPos }

def setAtEnd (l : TrajectoryLinearSegement K) : TrajectoryLinearSegement K :=
  { l with currLength := l.totalLength, currPos := l.endPos }

def atStart (l : TrajectoryLinearSegement K) : Bool := l.currLength ≤ 0

def atEnd (l : TrajectoryLinearSegement K) : Bool := l.currLength ≥ l.totalLength

/-- `_validate_curr_length`: a length outside the segment is cut to its ends. -/
def validate (l : TrajectoryLinearSegement K) (length : K) : K :=
  if length > l.totalLength then l.totalLength else if length ≤ 0 then 0 else length

def setCurrLength (l : TrajectoryLinearSegement K) (length : K) : TrajectoryLinearSegement K :=
  { l with
    currLength := l.validate length
    currPos := calcCurrPos l.startPos l.endPos (l.validate length) }

def runOnce (l : TrajectoryLinearSegement K) (inc : K) : TrajectoryLinearSegement K :=
  l.setCurrLength (l.currLength + inc)

end TrajectoryLinearSegement

structure TrajectoryList (K : Type) where
  before : List (TrajectoryLinearSegement K)
  curr : TrajectoryLinearSegement K
  after : List (TrajectoryLinearSegement K)

namespace TrajectoryList

variable {K : Type}

/-- The segments of the chain, the first of them first. -/
def all (t : TrajectoryList K) : List (TrajectoryLinearSegement K) :=
  t.before.reverse ++ t.curr :: t.after

variable [Field K] [LinearOrder K] [RealFns K]

def atEndSegement (t : TrajectoryList K) : Bool := t.after.isEmpty
def atStartSegement (t : TrajectoryList K) : Bool := t.before.isEmpty
def atEnd (t : TrajectoryList K) : Bool := t.atEndSegement && t.curr.atEnd
def currSegementIndex (t : TrajectoryList K) : ℕ := t.before.length
def currCmdAxis (t : TrajectoryList K) : Axis K := t.curr.currPos

/-- Moves along the current segment, and enters the neighbouring one at an end that is reached. -/
def runOnce (t : TrajectoryList K) (inc : K) : TrajectoryList K :=
  let t := { t with curr := t.curr.runOnce inc }
  if inc > 0 then
    if t.curr.atEnd then
      match t.after with
      | [] => t
      | next :: rest => ⟨t.curr :: t.before, next.setAtStart, rest⟩
    else t
  else if inc < 0 then
    if t.curr.atStart then
      match t.before with
      | [] => t
      | prev :: rest => ⟨rest, prev.setAtEnd, t.curr :: t.after⟩
    else t
  else t

end TrajectoryList

end Edm
