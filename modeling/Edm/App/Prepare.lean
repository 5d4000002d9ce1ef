import Edm.App.Coordinate
import Edm.App.GCodeTask
import Edm.Motion.MotionThread

/-!
# From a node of the program to a command

How `GCodeRunner` turns the values of a motion node into a target position, the checks against the
soft limits, and the command that is sent. A node that cannot be prepared aborts with a message; one
that has nowhere to go is passed over.
-/

namespace Edm

variable {K : Type} [Field K] [LinearOrder K]

namespace TaskHelper

/-- `CheckPosandnegSoftLimit`: only axes that move towards a limit are checked. -/
def checkPosandnegSoftLimit (sl : CoordSoftLimit K) (machPos dir : Axis K) : Bool :=
  (List.finRange 6).all fun i =>
    if dir i = 0 then true
    else if dir i > 0 ∧ machPos i > sl.pos i then false
    else if dir i < 0 ∧ machPos i < sl.neg i then false
    else true

/-- The loop of `GetMaxLengthOnCurrentDir`: how often `dir` fits between the position and the limits;
`none` where an axis stands at its limit already. -/
def maxScale (sl : CoordSoftLimit K) (dir referencePos : Axis K) : List (Fin 6) → K → Option K
  | [], scale => some scale
  | i :: is, scale =>
    if dir i > 0 then
      let leftLength := sl.pos i - referencePos i
      if leftLength ≤ 0 then none
      else
        let left := leftLength / dir i
        maxScale sl dir referencePos is (if scale = 0 ∨ left < scale then left else scale)
    else if dir i < 0 then
      let leftLength := sl.neg i - referencePos i
      if leftLength ≥ 0 then none
      else
        let left := leftLength / dir i
        maxScale sl dir referencePos is (if scale = 0 ∨ left < scale then left else scale)
    else maxScale sl dir referencePos is scale

/-- `GetMaxLengthOnCurrentDir`. -/
def getMaxLengthOnCurrentDir [RealFns K] (sl : CoordSoftLimit K) (dir referencePos : Axis K) : K :=
  match maxScale sl dir referencePos (List.finRange 6) 0 with
  | none => 0
  | some scale => scale * MotionUtils.axisLength dir

end TaskHelper

/-- The system settings the task level reads. -/
structure TaskSettings (K : Type) where
  fmNaccMs : ℕ
  fmMaxAccUmS2 : K
  jumpNaccMs : ℕ
  jumpBufferUm : ℕ
  drillAutoRecordData : Bool

namespace UnitConverter

def mmMin2bluS (mmMin : K) : K := mmMin * (1000 / 60 * um2blu_)

end UnitConverter

/-- `GetDefaultSpeedparam`. -/
def TaskSettings.getDefaultSpeedparam [FloorRing K] [Settings] (st : TaskSettings K) :
    MoveRuntimePlanSpeedInput K where
  nacc := ⌊UnitConverter.ms2p (st.fmNaccMs : K)⌋.toNat
  acc0 := UnitConverter.um2blu st.fmMaxAccUmS2
  dec0 := -UnitConverter.um2blu st.fmMaxAccUmS2
  entryV := 0
  exitV := 0
  cruiseV := 1000

namespace GCodeRunner

/-- The machine target of a point. In the absolute mode an axis without a value keeps its position,
by way of the coordinate system. `what` names the kind of node in the messages. -/
def machTargetPos (what : String) (cm : CoordinateManager K) (coordIndex : ℤ)
    (coordMode : GCodeCoordinateMode) (cmdValues : CmdValues K) (machStartPos : Axis K) :
    Except String (Axis K) :=
  if coordMode = .incrementMode then
    .ok fun i =>
      match cmdValues i with
      | some v => machStartPos i + UnitConverter.mm2blu v
      | none => machStartPos i
  else
    match cm.machineToCoord (uint32 coordIndex) machStartPos with
    | none =>
      .error ("abort: " ++ what ++ " machine_to_coord failed: " ++ toString (uint32 coordIndex))
    | some coordStartPos =>
      let coordTargetPos : Axis K := fun i =>
        match cmdValues i with
        | some v => UnitConverter.mm2blu v
        | none => coordStartPos i
      match cm.coordToMachine (uint32 coordIndex) coordTargetPos with
      | none =>
        .error ("abort: " ++ what ++ " coord_to_machine failed: " ++ toString (uint32 coordIndex))
      | some machTarget => .ok machTarget

/-- A difference this small is taken for an error of rounding. -/
def snapLimit : K := 1 / 1000 / 1000

def snap (x : K) : K := if |x| < snapLimit then 0 else x

/-- The increments of a point: those of an absolute point are snapped. -/
def groupIncs (point : G01GroupPoint K) (machStartPos machTarget : Axis K) : Axis K :=
  if point.coordMode = .incrementMode then
    fun i =>
      match point.cmdValues i with
      | some v => UnitConverter.mm2blu v
      | none => 0
  else fun i => snap (machTarget i - machStartPos i)

variable [RealFns K]

/-- The items of the points from `machStartPos` on. A point that does not move is left out. -/
def groupItems (cm : CoordinateManager K) (coordIndex : ℤ) :
    Axis K → List (G01GroupPoint K) → Except String (List (G01GroupItem K))
  | _, [] => .ok []
  | machStartPos, point :: points =>
    match machTargetPos "g01 group" cm coordIndex point.coordMode point.cmdValues machStartPos with
    | .error err => .error err
    | .ok machTarget =>
      if machStartPos = machTarget then groupItems cm coordIndex machStartPos points
      else if !TaskHelper.checkPosandnegSoftLimit cm.softLimits machTarget
          (MotionUtils.axisUnitVector machStartPos machTarget) then
        .error "abort: g01 group softlimit reached"
      else
        match groupItems cm coordIndex machTarget points with
        | .error err => .error err
        | .ok items =>
          .ok (⟨groupIncs point machStartPos machTarget, point.lineNumber, point.feedrate⟩ :: items)

/-- The start parameter of a group node. -/
def prepareG01Group (cm : CoordinateManager K) (motorStartPos : Axis K) (coordIndex : ℤ)
    (points : List (G01GroupPoint K)) : Except String (List (G01GroupItem K)) :=
  if !cm.existCoordinateIndex (uint32 coordIndex) then
    .error ("abort: g01 group coord index not exist: " ++ toString coordIndex)
  else groupItems cm coordIndex (cm.motorToMachine motorStartPos) points

/-- What comes of preparing a node: an abort, the next node, or a command with the time the runner
waits for its acceptance (without end for `none`) and the message if there is none. -/
inductive Prepared (K : Type) where
  | abort (err : String)
  | next
  | send (cmd : MotionCommand K) (timeoutMs : Option ℕ) (err : String)
  /-- The `default` of the switch: nothing happens. -/
  | unknown

/-- How far a touch move may go: the smallest way to a limit over the axes, with the flag that says
whether there was any. -/
def touchScale (sl : CoordSoftLimit K) (dir machStartPos : Axis K) : K × Bool :=
  (List.finRange 6).foldl (fun (minScale, refreshed) i =>
    if dir i = 0 then (minScale, refreshed)
    else
      let left :=
        if dir i > 0 then (sl.pos i - machStartPos i) / dir i
        else (sl.neg i - machStartPos i) / dir i
      if !refreshed || left < minScale then (if left > 0 then left else 0, true)
      else (minScale, refreshed)) (0, false)

/-- The target of a `G00` after the check against the soft limits: a touch move is cut short, any
other is refused. `none` passes the node over. -/
def g00Target (sl : CoordSoftLimit K) (isTouchMotion : Bool) (machStartPos machTarget : Axis K) :
    Except String (Option (Axis K)) :=
  let dir := MotionUtils.axisUnitVector machStartPos machTarget
  if TaskHelper.checkPosandnegSoftLimit sl machTarget dir then .ok (some machTarget)
  else if !isTouchMotion then .error "abort: g00 softlimit reached"
  else
    let minScale := (touchScale sl dir machStartPos).1
    if minScale ≤ 0 then .ok none
    else .ok (some fun i => machStartPos i + dir i * minScale)

/-- The message of a start that was not accepted. -/
def startFailed (what : String) : String :=
  "abort: start " ++ what ++ " failed, cmd not accepted by motion or timeout"

section Nodes

variable [FloorRing K] [Settings]

def prepareG00 (st : TaskSettings K) (cm : CoordinateManager K) (motorStartPos : Axis K)
    (touchDetectEnable isTouchMotion : Bool) (feedSpeed coordIndex : ℤ)
    (coordMode : GCodeCoordinateMode) (cmdValues : CmdValues K) : Prepared K :=
  if !cm.existCoordinateIndex (uint32 coordIndex) then
    .abort ("abort: g00 coord index not exist: " ++ toString coordIndex)
  else
    let machStartPos := cm.motorToMachine motorStartPos
    match machTargetPos "g00" cm coordIndex coordMode cmdValues machStartPos with
    | .error err => .abort err
    | .ok machTarget =>
      if machStartPos = machTarget then .next
      else
        match g00Target cm.softLimits isTouchMotion machStartPos machTarget with
        | .error err => .abort err
        | .ok none => .next
        | .ok (some machTarget) =>
          let cruiseV := UnitConverter.mmMin2bluS (feedSpeed : K)
          let speed :=
            { st.getDefaultSpeedparam with cruiseV := if cruiseV ≤ 0 then 1 else cruiseV }
          .send (.autoStartG00FastMove (cm.machineToMotor machTarget) speed touchDetectEnable) none
            (startFailed "g00")

def prepareG01 (cm : CoordinateManager K) (motorStartPos : Axis K) (coordIndex : ℤ)
    (coordMode : GCodeCoordinateMode) (cmdValues : CmdValues K) : Prepared K :=
  if !cm.existCoordinateIndex (uint32 coordIndex) then
    .abort ("abort: g01 coord index not exist: " ++ toString coordIndex)
  else
    let machStartPos := cm.motorToMachine motorStartPos
    match machTargetPos "g01" cm coordIndex coordMode cmdValues machStartPos with
    | .error err => .abort err
    | .ok machTarget =>
      if machStartPos = machTarget then .next
      else if !TaskHelper.checkPosandnegSoftLimit cm.softLimits machTarget
          (MotionUtils.axisUnitVector machStartPos machTarget) then
        .abort "abort: g01 softlimit reached"
      else
        let jumpDir := MotionUtils.axisUnitVector machTarget machStartPos
        let maxLength := TaskHelper.getMaxLengthOnCurrentDir cm.softLimits jumpDir machStartPos
        .send (.autoStartG01ServoMove (cm.machineToMotor machTarget) maxLength) (some 1000)
          (startFailed "g01")

/-- Only the drilling build knows drill nodes. -/
def prepareDrill (cm : CoordinateManager K) (motorStartPos : Axis K) (p : DrillStartParams K) :
    Prepared K :=
  if !Settings.powerZhongguDrill then .unknown
  else if motorStartPos 5 - UnitConverter.um2blu p.depthUm < cm.softLimits.neg 5 then
    .abort "abort: drill depth out of soft limit"
  else .send (.autoStartDrillMove p) (some 1000) (startFailed "drill")

/-- The switch of `_state_current_node_initing` over the motion nodes. -/
def prepare (st : TaskSettings K) (cm : CoordinateManager K) (motorStartPos : Axis K) :
    GCodeNode K → Prepared K
  | .g00Motion touchDetectEnable isTouchMotion feedSpeed coordIndex coordMode cmdValues =>
    prepareG00 st cm motorStartPos touchDetectEnable isTouchMotion feedSpeed coordIndex coordMode
      cmdValues
  | .g01Motion coordIndex coordMode cmdValues =>
    prepareG01 cm motorStartPos coordIndex coordMode cmdValues
  | .delay delayS => .send (.autoG04Delay delayS) (some 1000) (startFailed "g04")
  | .pauseCommand => .send .autoM00FakePauseTask (some 1000) (startFailed "m00")
  | .drillMotion p _ => prepareDrill cm motorStartPos p
  | .g01GroupMotion coordIndex points =>
    match prepareG01Group cm motorStartPos coordIndex points with
    | .error err => .abort err
    | .ok items => .send (.autoG01Group items) none (startFailed "g01 group")
  | _ => .unknown

end Nodes

end GCodeRunner

end Edm
