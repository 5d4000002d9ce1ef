import Edm.App.GCodeTask
import Edm.Lib.Json

/-!
# From JSON to the nodes of a program

`GCodeTaskConverter` reads the list of commands the interpreter prints. Each reader of a command takes
the fields it needs by name; a missing field or one of another kind is an exception, which the loop
over the list turns into a failure of the whole program. Exceptions and failures are both `none` here.
-/

namespace Edm

inductive GCodeTaskType where
  | undefined | g00MotionCommand | g01MotionCommand | coordinateModeCommand
  | coordinateIndexCommand | eleparamSetCommand | feedSpeedSetCommand | delayCommand
  | coordSetZeroCommand | drillMotionCommand | g01GroupMotionCommand | pauseCommand
  | programEndCommand
  deriving DecidableEq, Repr

namespace GCodeTaskConverter

/-- `s_type_map`. -/
def typeMap : List (String × GCodeTaskType) :=
  [("Undefined", .undefined), ("G00MotionCommand", .g00MotionCommand),
    ("G01MotionCommand", .g01MotionCommand), ("CoordinateModeCommand", .coordinateModeCommand),
    ("CoordinateIndexCommand", .coordinateIndexCommand),
    ("EleparamSetCommand", .eleparamSetCommand), ("FeedSpeedSetCommand", .feedSpeedSetCommand),
    ("DelayCommand", .delayCommand), ("PauseCommand", .pauseCommand),
    ("ProgramEndCommand", .programEndCommand), ("CoordSetZeroCommand", .coordSetZeroCommand),
    ("DrillMotionCommand", .drillMotionCommand),
    ("G01GroupMotionCommand", .g01GroupMotionCommand)]

/-- `s_coord_mode_map`. -/
def coordModeMap : List (String × GCodeCoordinateMode) :=
  [("Undefined", .undefined), ("AbsoluteMode", .absoluteMode), ("IncrementMode", .incrementMode)]

section Readers

variable {K : Type} (lib : Json.Reader K) (jo : List (String × Json K))

def readInteger (key : String) : Option ℤ := do lib.asInteger (← jo.lookup key)

def readDouble (key : String) : Option K := do lib.asDouble (← jo.lookup key)

def readBoolean (key : String) : Option Bool := do (← jo.lookup key).asBoolean

def readArray (key : String) : Option (List (Json K)) := do (← jo.lookup key).asArray

def readCoordMode : Option GCodeCoordinateMode := do
  coordModeMap.lookup (← (← jo.lookup "CoordinateMode").asString)

/-- A value of a list of coordinates: null, or a number. -/
def readValue (j : Json K) : Option (Option K) :=
  if j.isNull then some none else (lib.asDouble j).map some

/-- The first six values of `Coordinates`. -/
def readValues : Option (CmdValues K) := do
  let coords ← readArray jo "Coordinates"
  if coords.length < 6 then none
  else if (List.finRange 6).all fun i => ((coords[i.val]?).bind (readValue lib)).isSome then
    some fun i => ((coords[i.val]?).bind (readValue lib)).join
  else none

/-- The kind of node a command makes, with its line. -/
abbrev Made (K : Type) := ℤ × GCodeNode K

def makeG00 : Option (Made K) := do
  let coordMode ← readCoordMode jo
  let coordIndex ← readInteger lib jo "CoordinateIndex"
  let lineNumber ← readInteger lib jo "LineNumber"
  let m05 ← readBoolean jo "M05IgnoreTouchDetect"
  let touch ← readBoolean jo "G00Touch"
  let feedSpeed ← readInteger lib jo "FeedSpeed"
  let values ← readValues lib jo
  some (lineNumber, .g00Motion (!m05) touch feedSpeed coordIndex coordMode values)

def makeG01 : Option (Made K) := do
  let coordMode ← readCoordMode jo
  let coordIndex ← readInteger lib jo "CoordinateIndex"
  let lineNumber ← readInteger lib jo "LineNumber"
  let values ← readValues lib jo
  some (lineNumber, .g01Motion coordIndex coordMode values)

def makeCoordIndex : Option (Made K) := do
  let coordIndex ← readInteger lib jo "CoordinateIndex"
  let lineNumber ← readInteger lib jo "LineNumber"
  some (lineNumber, .coordinateIndex coordIndex)

def makeEleSet : Option (Made K) := do
  let eleIndex ← readInteger lib jo "EleparamIndex"
  let lineNumber ← readInteger lib jo "LineNumber"
  some (lineNumber, .eleparamSet eleIndex)

def makeDelay : Option (Made K) := do
  let delayTime ← readDouble lib jo "DelayTime"
  let lineNumber ← readInteger lib jo "LineNumber"
  some (lineNumber, .delay delayTime)

/-- The commands without data: `_make_m02`, `_make_m00`, `_make_coord_mode`, `_make_feed_set`. -/
def makeBare (node : GCodeNode K) : Option (Made K) := do
  some (← readInteger lib jo "LineNumber", node)

def makeM02 : Option (Made K) := makeBare lib jo .programEnd
def makeM00 : Option (Made K) := makeBare lib jo .pauseCommand
def makeCoordMode : Option (Made K) := makeBare lib jo .coordinateMode
def makeFeedSet : Option (Made K) := makeBare lib jo .feedSpeedSet

def makeCoordSetZero : Option (Made K) := do
  let lineNumber ← readInteger lib jo "LineNumber"
  let list ← readArray jo "SetZeroAxisList"
  if list.length < 6 then none
  else if (List.finRange 6).all fun i => ((list[i.val]?).bind Json.asBoolean).isSome then
    some (lineNumber,
      .coordSetZero fun i => ((list[i.val]?).bind Json.asBoolean).getD false)
  else none

variable [Field K]

def makeDrill : Option (Made K) := do
  let lineNumber ← readInteger lib jo "LineNumber"
  let depth ← readDouble lib jo "DrillDepth"
  let holdtimeMs ← readInteger lib jo "DrillHoldTime"
  let touch ← readBoolean jo "DrillTouch"
  let breakout ← readBoolean jo "DrillBreakout"
  let back ← readBoolean jo "DrillBack"
  let spindleSpeed ← readValue lib (← jo.lookup "DrillSpindleSpeed")
  some (lineNumber, .drillMotion ⟨depth * 1000, holdtimeMs, touch, breakout, back⟩ spindleSpeed)

def makeG01GroupPoint (jv : Json K) : Option (G01GroupPoint K) := do
  let item ← jv.asObject
  let coordMode ← readCoordMode item
  let lineNumber ← readInteger lib item "LineNumber"
  let values ← readValues lib item
  let feedrate ← readInteger lib item "FeedSpeed"
  some ⟨values, coordMode, lineNumber, feedrate⟩

def makeG01Group : Option (Made K) := do
  let coordIndex ← readInteger lib jo "CoordinateIndex"
  let lineNumber ← readInteger lib jo "LineNumber"
  let points ← readArray jo "G01GroupPoints"
  let points ← points.mapM (makeG01GroupPoint lib)
  some (lineNumber, .g01GroupMotion coordIndex points)

/-- The text of a command, if it has one. -/
def readCommandStr : Option String :=
  match jo.lookup "CommandStr" with
  | none => some ""
  | some j => j.asString

/-- The options of a command, if it has any. -/
def readOptions : Option (List String) :=
  match jo.lookup "Options" with
  | none => some []
  | some j => do (← j.asArray).mapM Json.asString

variable [Settings]

/-- The switch over the types; the inner `none` is a command the build ignores. -/
def makeNode (type : GCodeTaskType) : Option (Option (Made K)) :=
  match type with
  | .undefined => none
  | .g00MotionCommand => (makeG00 lib jo).map some
  | .g01MotionCommand => (makeG01 lib jo).map some
  | .coordinateIndexCommand => (makeCoordIndex lib jo).map some
  | .eleparamSetCommand => (makeEleSet lib jo).map some
  | .delayCommand => (makeDelay lib jo).map some
  | .programEndCommand => (makeM02 lib jo).map some
  | .pauseCommand => (makeM00 lib jo).map some
  | .coordSetZeroCommand => (makeCoordSetZero lib jo).map some
  | .drillMotionCommand =>
    if Settings.powerZhongguDrill then (makeDrill lib jo).map some else some none
  | .g01GroupMotionCommand => (makeG01Group lib jo).map some
  | .coordinateModeCommand => (makeCoordMode lib jo).map some
  | .feedSpeedSetCommand => (makeFeedSet lib jo).map some

/-- `_MakeGCodeTaskFromJsonObject`. -/
def makeGCodeTaskFromJsonObject : Option (Option (GCodeTask K)) := do
  let type ← typeMap.lookup (← (← jo.lookup "CommandType").asString)
  match ← makeNode lib jo type with
  | none => some none
  | some (lineNumber, node) =>
    let gcodeStr ← readCommandStr jo
    let options ← readOptions jo
    some (some ⟨lineNumber, gcodeStr, options, node⟩)

/-- One round of the loop over the list: only objects are commands. -/
def makeGCodeTask (jv : Json K) : Option (Option (GCodeTask K)) := do
  makeGCodeTaskFromJsonObject lib (← jv.asObject)

/-- `MakeGCodeTaskListFromJson`. -/
def makeGCodeTaskListFromJson (j : Json K) : Option (List (GCodeTask K)) := do
  let jarr ← j.asArray
  if jarr.isEmpty then none
  else
    let tasks ← jarr.mapM (makeGCodeTask lib)
    some (tasks.filterMap id)

end Readers

end GCodeTaskConverter

end Edm
