import Edm.Lib.Json
import Edm.Motion.Axis

/-!
# The RS274 interpreter module

A program is a Python script that calls the methods of `RS274Interpreter` and `Points`. Arguments are
Python values of any type, which the methods check; a failed check raises an exception, here an
error with the fixed part of its message. A command is kept as the JSON it is printed as: a number as
a number, a bool as a bool, `None` as null. Numbers that JSON cannot write (infinities, NaN) are left
out. `g53` to `g59` are `set_coord` with their number, `coord_set_x_zero` and its siblings are
`coord_set_zero` with one axis (or all).
-/

namespace Edm

namespace Rs274

inductive PyValue (K : Type) where
  | none
  | bool (b : Bool)
  | int (n : ℤ)
  | float (x : K)
  | str (s : String)
  | list (l : List (PyValue K))
  | other

/-- What `isinstance(v, int)` lets through: a bool is an int. -/
inductive PyInt where
  | bool (b : Bool)
  | int (n : ℤ)
  deriving DecidableEq

/-- What `isinstance(v, (int, float))` lets through. -/
inductive PyNum (K : Type) where
  | int (i : PyInt)
  | float (x : K)

def PyInt.value : PyInt → ℤ
  | bool b => if b then 1 else 0
  | int n => n

def PyInt.toJson {K : Type} : PyInt → Json K
  | bool b => .bool b
  | int n => .int n

namespace PyNum

variable {K : Type}

def value [IntCast K] : PyNum K → K
  | int i => (i.value : K)
  | float x => x

def toJson : PyNum K → Json K
  | int i => i.toJson
  | float x => .real x

end PyNum

namespace PyValue

variable {K : Type}

def asInt : PyValue K → Option PyInt
  | bool b => some (.bool b)
  | int n => some (.int n)
  | _ => Option.none

def asNum : PyValue K → Option (PyNum K)
  | float x => some (.float x)
  | v => v.asInt.map .int

def asBool : PyValue K → Option Bool
  | bool b => some b
  | _ => Option.none

def asStr : PyValue K → Option String
  | str s => some s
  | _ => Option.none

def asList : PyValue K → Option (List (PyValue K))
  | list l => some l
  | _ => Option.none

def isNone : PyValue K → Bool
  | none => true
  | _ => false

end PyValue

inductive CoordinateMode where
  | undefined | absoluteMode | incrementMode
  deriving DecidableEq, Repr

def CoordinateMode.name : CoordinateMode → String
  | undefined => "Undefined"
  | absoluteMode => "AbsoluteMode"
  | incrementMode => "IncrementMode"

inductive MotionMode where
  | undefined | g00 | g01 | drill
  deriving DecidableEq, Repr

def MotionMode.name : MotionMode → String
  | undefined => "Undefined"
  | g00 => "G00"
  | g01 => "G01"
  | drill => "DRILL"

/-- Where a method is called: the line, a C `int` in every frame, and its text. -/
structure CallSite where
  lineNumber : ℕ
  code : String
  lineNumber_lt : lineNumber < 2 ^ 31

/-- The values given for x, y, z, b, c and a. -/
abbrev Coords (K : Type) := Fin 6 → PyValue K

/-- Coordinates whose types were checked. -/
abbrev Coordinates (K : Type) := Fin 6 → Option (PyNum K)

section Coords

variable {K : Type}

/-- Neither `None` nor a number. -/
def badCoord (v : PyValue K) : Bool := !v.isNone && v.asNum.isNone

def checkCoords (message : String) (coords : Coords K) : Except String (Coordinates K) :=
  if (List.finRange 6).any fun i => badCoord (coords i) then .error message
  else .ok fun i => (coords i).asNum

/-- A value that may be `None`. -/
def valueJson : Option (PyNum K) → Json K
  | some x => x.toJson
  | none => .null

def coordinatesJson (coordinates : Coordinates K) : Json K :=
  .array (List.ofFn fun i => valueJson (coordinates i))

end Coords

/-! ### Points -/

structure Point (K : Type) where
  coordinateMode : CoordinateMode
  coords : Coordinates K
  site : CallSite
  feedrate : PyInt

structure Points (K : Type) where
  points : List (Point K)
  currentCoordinateMode : CoordinateMode
  feedrate : PyInt

inductive PointsCall (K : Type) where
  | g90
  | g91
  | f (speed : PyValue K)
  | push (site : CallSite) (coords : Coords K) (f : PyValue K)

namespace Points

variable {K : Type}

def new : Points K := ⟨[], .undefined, .int 1⟩

/-- The feed rate of a point: its own if it is given. -/
def pushFeedrate (ps : Points K) (f : PyValue K) : Except String PyInt :=
  if f.isNone then .ok ps.feedrate
  else
    match f.asInt with
    | none => .error "set_feedrate type invalid"
    | some speed => .ok speed

def call (ps : Points K) : PointsCall K → Except String (Points K)
  | .g90 => .ok { ps with currentCoordinateMode := .absoluteMode }
  | .g91 => .ok { ps with currentCoordinateMode := .incrementMode }
  | .f speed =>
    match speed.asInt with
    | none => .error "Feed Speed Type Not Valid"
    | some speed =>
      if speed.value ≤ 0 then .error "Feed Speed Value Out of Range"
      else .ok { ps with feedrate := speed }
  | .push site coords f =>
    if ps.currentCoordinateMode = .undefined then .error "CoordinateMode Undefined"
    else do
      let coords ← checkCoords "Point value type invalid" coords
      let feedrate ← ps.pushFeedrate f
      .ok { ps with points := ps.points ++ [⟨ps.currentCoordinateMode, coords, site, feedrate⟩] }

/-- A list of points made by the given calls. -/
def make (calls : List (PointsCall K)) : Except String (Points K) := calls.foldlM call new

/-- An object of the class: what calls that raised nothing made. -/
structure Object (K : Type) where
  object : Points K
  made : ∃ calls, make calls = .ok object

end Points

/-! ### The interpreter -/

structure Environment where
  coordinateMode : CoordinateMode
  motionMode : MotionMode
  coordinateIndex : PyInt
  programEndFlag : Bool
  feedSpeed : PyInt

def Environment.new : Environment := ⟨.undefined, .undefined, .int (-1), false, .int (-1)⟩

inductive Call (K : Type) where
  | g90
  | g91
  | g04 (t : PyValue K)
  | e (index : PyValue K)
  | setCoord (index : PyValue K)
  | coordSetZero (axes : Fin 6 → PyValue K)
  | m02
  | m00
  | g01 (coords : Coords K) (options : PyValue K)
  | g00 (coords : Coords K) (m05 touch : PyValue K)
  /-- `none` is an argument that is no `Points`. -/
  | g01Group (points : Option (Points.Object K))
  | f (speed : PyValue K)
  | drill (depth holdtime touch breakout back spindleSpeed : PyValue K)

structure RS274Interpreter (K : Type) where
  environment : Environment
  commandList : List (Json K)

namespace RS274Interpreter

def new {K : Type} : RS274Interpreter K := ⟨.new, []⟩

/-- `_assert_environment_valid`. -/
def assertEnvironmentValid (env : Environment) : Except String Unit :=
  if env.coordinateMode = .undefined then .error "CoordinateMode Undefined"
  else if env.motionMode = .undefined then .error "MotionMode Undefined"
  else if env.coordinateIndex.value = -1 then .error "Coordinate Not Set"
  else if env.coordinateIndex.value < 0 then .error "Coordinate Index not valid"
  else if env.feedSpeed.value < 0 then .error "Feed Speed Not Set"
  else .ok ()

variable {K : Type}

/-- The fields every command ends with or has among its own. -/
def siteFields (site : CallSite) : List (String × Json K) :=
  [("LineNumber", .int site.lineNumber), ("CommandStr", .string site.code)]

def command (type : String) (fields : List (String × Json K)) : Json K :=
  .object (("CommandType", .string type) :: fields)

def emit (s : RS274Interpreter K) (command : Json K) : RS274Interpreter K :=
  { s with commandList := s.commandList ++ [command] }

def coordinateModeCommand (mode : CoordinateMode) (site : CallSite) : Json K :=
  command "CoordinateModeCommand" (("CoordinateMode", .string mode.name) :: siteFields site)

def coordSetZeroCommand (axes : Fin 6 → Bool) (site : CallSite) : Json K :=
  command "CoordSetZeroCommand"
    (("SetZeroAxisList", .array (List.ofFn fun i => .bool (axes i))) :: siteFields site)

def pointJson (p : Point K) : Json K :=
  .object
    [("CoordinateMode", .string p.coordinateMode.name),
      ("Coordinates", coordinatesJson p.coords),
      ("LineNumber", .int p.site.lineNumber),
      ("CommandStr", .string p.site.code),
      ("FeedSpeed", p.feedrate.toJson)]

def g01Command (env : Environment) (site : CallSite) (options : List String)
    (coordinates : Coordinates K) : Json K :=
  command "G01MotionCommand"
    ([("CoordinateMode", .string env.coordinateMode.name),
      ("MotionMode", .string env.motionMode.name),
      ("CoordinateIndex", env.coordinateIndex.toJson)] ++ siteFields site ++
      [("Options", .array (options.map .string)), ("Coordinates", coordinatesJson coordinates)])

def g00Command (env : Environment) (site : CallSite) (m05 touch : Bool)
    (coordinates : Coordinates K) : Json K :=
  command "G00MotionCommand"
    ([("CoordinateMode", .string env.coordinateMode.name),
      ("MotionMode", .string env.motionMode.name),
      ("CoordinateIndex", env.coordinateIndex.toJson)] ++ siteFields site ++
      [("M05IgnoreTouchDetect", .bool m05), ("G00Touch", .bool touch),
        ("FeedSpeed", env.feedSpeed.toJson), ("Coordinates", coordinatesJson coordinates)])

def g01GroupCommand (env : Environment) (site : CallSite) (points : List (Point K)) : Json K :=
  command "G01GroupMotionCommand"
    (("CoordinateIndex", env.coordinateIndex.toJson) :: siteFields site ++
      [("G01GroupPoints", .array (points.map pointJson))])

def drillFields (site : CallSite) (depth : PyNum K) (holdtime : PyInt)
    (touch breakout back : Bool) (spindleSpeed : Option (PyNum K)) : List (String × Json K) :=
  [("MotionMode", .string MotionMode.drill.name), ("DrillDepth", depth.toJson),
    ("DrillHoldTime", holdtime.toJson), ("DrillTouch", .bool touch),
    ("DrillBreakout", .bool breakout), ("DrillBack", .bool back),
    ("DrillSpindleSpeed", valueJson spindleSpeed)] ++ siteFields site

/-- A value that must be of a type. -/
def need {α : Type} (message : String) : Option α → Except String α
  | some a => .ok a
  | none => .error message

def check (message : String) (bad : Bool) : Except String Unit :=
  if bad then .error message else .ok ()

variable [Field K] [LinearOrder K]

/-- A call of a method. After the end of the program nothing is done or checked. -/
def call (s : RS274Interpreter K) (site : CallSite) (c : Call K) :
    Except String (RS274Interpreter K) :=
  if s.environment.programEndFlag then .ok s
  else
    match c with
    | .g90 =>
      let s := { s with environment := { s.environment with coordinateMode := .absoluteMode } }
      .ok (s.emit (coordinateModeCommand .absoluteMode site))
    | .g91 =>
      let s := { s with environment := { s.environment with coordinateMode := .incrementMode } }
      .ok (s.emit (coordinateModeCommand .incrementMode site))
    | .g04 t => do
      let t ← need "Delay Time type invalid" t.asNum
      check "Delay Time Out of Range" (t.value < 0)
      .ok (s.emit (command "DelayCommand" (("DelayTime", t.toJson) :: siteFields site)))
    | .e index => do
      let index ← need "Eleparam Index type invalid" index.asInt
      check "Eleparam Index Out of Range" (index.value < 0 || index.value ≥ 1000)
      .ok (s.emit (command "EleparamSetCommand"
        (("EleparamIndex", index.toJson) :: siteFields site)))
    | .setCoord index => do
      let index ← need "Coordinate Index Type invalid" index.asInt
      check "Coordinate Index < 0" (index.value < 0)
      let s := { s with environment := { s.environment with coordinateIndex := index } }
      .ok (s.emit (command "CoordinateIndexCommand"
        (("CoordinateIndex", index.toJson) :: siteFields site)))
    | .coordSetZero axes =>
      if (List.finRange 6).any fun i => (axes i).asBool.isNone then .error "type invalid"
      else .ok (s.emit (coordSetZeroCommand (fun i => (axes i).asBool.getD false) site))
    | .m02 =>
      let s := { s with environment := { s.environment with programEndFlag := true } }
      .ok (s.emit (command "ProgramEndCommand" (siteFields site)))
    | .m00 => .ok (s.emit (command "PauseCommand" (siteFields site)))
    | .g01 coords options => do
      let options ← need "Options Type Not Valid" options.asList
      let options ← need "Option: Type Not Valid" (options.mapM (·.asStr))
      let s := { s with environment := { s.environment with motionMode := .g01 } }
      assertEnvironmentValid s.environment
      let coordinates ← checkCoords "Coordinate Value Type Not Valid" coords
      .ok (s.emit (g01Command s.environment site options coordinates))
    | .g00 coords m05 touch => do
      let s := { s with environment := { s.environment with motionMode := .g00 } }
      assertEnvironmentValid s.environment
      let m05 ← need "m05 Type Not Valid" m05.asBool
      let touch ← need "touch Type Not Valid" touch.asBool
      -- a touch move always detects
      let m05 := if touch then false else m05
      let coordinates ← checkCoords "Coordinate Value Type Not Valid" coords
      .ok (s.emit (g00Command s.environment site m05 touch coordinates))
    | .g01Group points => do
      let points ← need "Points Type Not Valid" points
      let s := { s with environment := { s.environment with motionMode := .g01 } }
      assertEnvironmentValid s.environment
      .ok (s.emit (g01GroupCommand s.environment site points.object.points))
    | .f speed => do
      let speed ← need "Feed Speed Type Not Valid" speed.asInt
      check "Feed Speed Value Out of Range" (speed.value ≤ 0)
      let s := { s with environment := { s.environment with feedSpeed := speed } }
      .ok (s.emit (command "FeedSpeedSetCommand" (("FeedSpeed", speed.toJson) :: siteFields site)))
    | .drill depth holdtime touch breakout back spindleSpeed => do
      let depth ← need "Drill Depth Type Not Valid" depth.asNum
      check "Drill Depth Value Out of Range" (depth.value ≤ 0)
      let holdtime ← need "Drill Holdtime Type Not Valid" holdtime.asInt
      check "Drill Holdtime Value Out of Range" (holdtime.value < 0)
      let touch ← need "Drill Touch Type Not Valid" touch.asBool
      let breakout ← need "Drill Breakout Type Not Valid" breakout.asBool
      let back ← need "Drill Back Type Not Valid" back.asBool
      check "Drill Spindle Speed Type Not Valid" (badCoord spindleSpeed)
      .ok (s.emit (command "DrillMotionCommand"
        (drillFields site depth holdtime touch breakout back spindleSpeed.asNum)))

/-- `get_command_list` of an interpreter after the given calls. -/
def interpret (calls : List (CallSite × Call K)) : Except String (RS274Interpreter K) :=
  calls.foldlM (fun s c => s.call c.1 c.2) new

end RS274Interpreter

/-! ### Checks that pass -/

theorem need_eq_ok {α : Type} {message : String} {o : Option α} {a : α} :
    RS274Interpreter.need message o = .ok a ↔ o = some a := by
  cases o <;> simp [RS274Interpreter.need]

theorem check_eq_ok {message : String} {bad : Bool} {u : Unit} :
    RS274Interpreter.check message bad = .ok u ↔ bad = false := by
  cases bad <;> simp [RS274Interpreter.check]

end Rs274

theorem Except.bind_eq_ok {ε α β : Type} {x : Except ε α} {f : α → Except ε β} {b : β} :
    (x >>= f) = .ok b ↔ ∃ a, x = .ok a ∧ f a = .ok b := by
  cases x with
  | error e => simp [bind, Except.bind]
  | ok a => simp [bind, Except.bind]

end Edm
