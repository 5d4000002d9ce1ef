import Edm.App.GCodeTaskConverter
import Edm.Interpreter.Rs274
import Edm.Motion.Commands

/-!
# The interpreter and the converter agree

What the interpreter prints, the converter reads: every command becomes the node its call means
(`converter_reads_program`). Two kinds of arguments are let through by one side and refused by the
other: a bool where a number is expected, and a whole number no `int` holds (`Call.readable` leaves
them out). And a program without a command is refused.
-/

set_option linter.unusedSectionVars false

namespace Edm

namespace Rs274

variable {K : Type}

/-! ### What a call means -/

def CoordinateMode.meant : CoordinateMode → GCodeCoordinateMode
  | undefined => .undefined
  | absoluteMode => .absoluteMode
  | incrementMode => .incrementMode

section Meaning

variable [Field K]

/-- The values of checked coordinates. -/
def Coordinates.meant (c : Coordinates K) : CmdValues K := fun i => (c i).map (·.value)

def Coords.meant (coords : Coords K) : CmdValues K :=
  Coordinates.meant fun i => (coords i).asNum

def Point.meant (p : Point K) : G01GroupPoint K where
  cmdValues := p.coords.meant
  coordMode := p.coordinateMode.meant
  lineNumber := p.site.lineNumber
  feedrate := p.feedrate.value

namespace PyValue

/-- The number an argument stands for. -/
def intValue (v : PyValue K) : ℤ := (v.asInt.map (·.value)).getD 0

def numValue (v : PyValue K) : K := (v.asNum.map (·.value)).getD 0

def boolValue (v : PyValue K) : Bool := v.asBool.getD false

end PyValue

/-- The node a call means in the environment it is made in. -/
def Call.node (env : Environment) : Call K → GCodeNode K
  | .g90 => .coordinateMode
  | .g91 => .coordinateMode
  | .g04 t => .delay t.numValue
  | .e index => .eleparamSet index.intValue
  | .setCoord index => .coordinateIndex index.intValue
  | .coordSetZero axes => .coordSetZero fun i => (axes i).boolValue
  | .m02 => .programEnd
  | .m00 => .pauseCommand
  | .g01 coords _ =>
    .g01Motion env.coordinateIndex.value env.coordinateMode.meant coords.meant
  | .g00 coords m05 touch =>
    .g00Motion (touch.boolValue || !m05.boolValue) touch.boolValue env.feedSpeed.value
      env.coordinateIndex.value env.coordinateMode.meant coords.meant
  | .g01Group points =>
    .g01GroupMotion env.coordinateIndex.value
      ((points.map fun (p : Points.Object K) => p.object.points.map Point.meant).getD [])
  | .f _ => .feedSpeedSet
  | .drill depth holdtime touch breakout back spindleSpeed =>
    .drillMotion
      ⟨depth.numValue * 1000, holdtime.intValue, touch.boolValue, breakout.boolValue,
        back.boolValue⟩
      (spindleSpeed.asNum.map (·.value))

/-- The options of a call. -/
def Call.options : Call K → List String
  | .g01 _ options => ((options.asList.getD []).mapM PyValue.asStr).getD []
  | _ => []

def Call.meant (env : Environment) (site : CallSite) (c : Call K) : GCodeTask K :=
  ⟨site.lineNumber, site.code, c.options, c.node env⟩

/-- The build has what the call needs. -/
def Call.supported [Settings] : Call K → Bool
  | .drill .. => Settings.powerZhongguDrill
  | _ => true

variable [LinearOrder K] [Settings]

/-- The tasks a program means, one for each call up to its end. -/
def RS274Interpreter.meant (s : RS274Interpreter K) : List (CallSite × Call K) → List (GCodeTask K)
  | [] => []
  | (site, c) :: calls =>
    if s.environment.programEndFlag then s.meant calls
    else
      match s.call site c with
      | .error _ => []
      | .ok s' =>
        if c.supported then c.meant s.environment site :: s'.meant calls else s'.meant calls

end Meaning

/-! ### What the converter can read -/

def PyInt.fits : PyInt → Bool
  | .bool _ => false
  | .int n => Json.InInt n

def PyNum.notBool : PyNum K → Bool
  | .int (.bool _) => false
  | _ => true

def Coordinates.notBool (c : Coordinates K) : Bool :=
  (List.finRange 6).all fun i => (c i).all (·.notBool)

namespace PyValue

def notBool (v : PyValue K) : Bool := v.asNum.all (·.notBool)

def fits (v : PyValue K) : Bool := v.asInt.all (·.fits)

end PyValue

/-- No bool stands for a number the converter reads, and whole numbers fit. -/
def Call.readable [Settings] (env : Environment) : Call K → Bool
  | .g04 t => t.notBool
  | .e index => index.notBool
  | .setCoord index => index.fits
  | .g01 coords _ => Coordinates.notBool (fun i => (coords i).asNum) && env.coordinateIndex.fits
  | .g00 coords _ _ =>
    Coordinates.notBool (fun i => (coords i).asNum) && env.coordinateIndex.fits &&
      env.feedSpeed.fits
  | .g01Group points =>
    env.coordinateIndex.fits &&
      points.all fun p => p.object.points.all fun q => q.coords.notBool && q.feedrate.fits
  | .drill depth holdtime _ _ _ spindleSpeed =>
    !Settings.powerZhongguDrill || (depth.notBool && holdtime.fits && spindleSpeed.notBool)
  | _ => true

section Program

variable [Field K] [LinearOrder K] [Settings]

/-- Every call up to the end of the program is readable. -/
def RS274Interpreter.readable (s : RS274Interpreter K) : List (CallSite × Call K) → Bool
  | [] => true
  | (site, c) :: calls =>
    if s.environment.programEndFlag then s.readable calls
    else
      match s.call site c with
      | .error _ => true
      | .ok s' => c.readable s.environment && s'.readable calls

end Program

end Rs274

open Rs274 GCodeTaskConverter

section Commands

variable {K : Type} [Field K] {lib : Json.Reader K}

/-- What the converter makes of a command with the given kind of node. -/
theorem makeTask_eq {type : String} {t : GCodeTaskType} {fields : List (String × Json K)}
    {site : CallSite} {options : List String} {node : GCodeNode K} [Settings]
    (htype : typeMap.lookup type = some t)
    (hcode : fields.lookup "CommandStr" = some (.string site.code))
    (hoptions : readOptions fields = some options)
    (hmake : makeNode lib (("CommandType", .string type) :: fields) t =
      some (some ((site.lineNumber : ℤ), node))) :
    makeGCodeTaskFromJsonObject lib (("CommandType", .string type) :: fields) =
      some (some ⟨site.lineNumber, site.code, options, node⟩) := by
  have hcode' : readCommandStr (("CommandType", Json.string type) :: fields) = some site.code := by
    simp [readCommandStr, hcode, Json.asString, List.lookup]
  have hoptions' : readOptions (("CommandType", Json.string type) :: fields) = some options := by
    simpa [readOptions, List.lookup] using hoptions
  simp [makeGCodeTaskFromJsonObject, htype, hmake, hcode', hoptions', Json.asString, List.lookup]

theorem makeTask_ignored {type : String} {t : GCodeTaskType} {fields : List (String × Json K)}
    [Settings] (htype : typeMap.lookup type = some t)
    (hmake : makeNode lib (("CommandType", .string type) :: fields) t = some none) :
    makeGCodeTaskFromJsonObject lib (("CommandType", .string type) :: fields) = some none := by
  simp [makeGCodeTaskFromJsonObject, htype, hmake, Json.asString, List.lookup]

end Commands

section Readers

variable {K : Type} [Field K] {lib : Json.Reader K} (h : lib.Faithful)

include h

theorem asInteger_toJson {i : PyInt} (hi : i.fits) : lib.asInteger i.toJson = some i.value := by
  cases i with
  | bool b => simp [PyInt.fits] at hi
  | int n => exact h.asInteger_int (by simpa [PyInt.fits] using hi)

theorem asInteger_lineNumber (site : CallSite) :
    lib.asInteger (.int (site.lineNumber : ℤ)) = some (site.lineNumber : ℤ) := by
  have := site.lineNumber_lt
  refine h.asInteger_int ⟨?_, ?_⟩ <;> omega

theorem asDouble_toJson {x : PyNum K} (hx : x.notBool) : lib.asDouble x.toJson = some x.value := by
  cases x with
  | float x => exact h.asDouble_real x
  | int i =>
    cases i with
    | bool b => simp [PyNum.notBool] at hx
    | int n => exact h.asDouble_int n

theorem readValue_valueJson {v : Option (PyNum K)} (hv : v.all (·.notBool)) :
    readValue lib (valueJson v) = some (v.map (·.value)) := by
  cases v with
  | none => rfl
  | some x =>
    have hx : x.notBool := by simpa using hv
    have hnull : x.toJson.isNull = false := by
      rcases x with (b | n) | x <;> rfl
    simp [valueJson, readValue, hnull, asDouble_toJson h hx]

/-- A printed list of coordinates is read back. -/
theorem readValues_coordinatesJson {o : List (String × Json K)} {c : Coordinates K}
    (ho : o.lookup "Coordinates" = some (coordinatesJson c)) (hc : c.notBool) :
    readValues lib o = some c.meant := by
  have hget : ∀ i : Fin 6, ((List.ofFn fun i => valueJson (c i))[i.val]?).bind (readValue lib) =
      some ((c i).map (·.value)) := by
    intro i
    rw [List.getElem?_ofFn, dif_pos i.isLt, Option.bind_some]
    refine readValue_valueJson h ?_
    simp only [Coordinates.notBool, List.all_eq_true] at hc
    exact hc i (List.mem_finRange i)
  simp only [readValues, readArray, ho, coordinatesJson, Json.asArray, Option.bind_eq_bind,
    Option.bind_some, List.length_ofFn, lt_self_iff_false, if_false, hget]
  rw [if_pos (by simp)]
  rfl

end Readers

/-! ### One call -/

namespace Rs274

theorem checkCoords_eq_ok {K : Type} {message : String} {coords : Coords K}
    {coordinates : Coordinates K} (h : checkCoords message coords = .ok coordinates) :
    coordinates = fun i => (coords i).asNum := by
  unfold checkCoords at h
  split at h
  · simp at h
  · exact (Except.ok.inj h).symm

end Rs274

section Calls

variable {K : Type} [Field K] [LinearOrder K] [Settings] {lib : Json.Reader K}
  {s s' : RS274Interpreter K} {site : CallSite} {c : Call K}

/-- A call emits a command and, if it can be read, the converter makes of it what the call means. -/
def Emits (lib : Json.Reader K) (s s' : RS274Interpreter K) (site : CallSite) (c : Call K) : Prop :=
  ∃ fields, s'.commandList = s.commandList ++ [.object fields] ∧
    (c.readable s.environment → makeGCodeTaskFromJsonObject lib fields =
      some (if c.supported then some (c.meant s.environment site) else none))

/-- A call of which the results of all checks are known. -/
theorem emits_g04 (h : lib.Faithful) {t : PyValue K} (hend : s.environment.programEndFlag = false)
    (hc : s.call site (.g04 t) = .ok s') : Emits lib s s' site (.g04 t) := by
  simp only [RS274Interpreter.call, hend, Bool.false_eq_true, if_false, Except.bind_eq_ok,
    need_eq_ok] at hc
  obtain ⟨x, hx, -, -, hc⟩ := hc
  obtain rfl := Except.ok.inj hc
  refine ⟨_, rfl, fun hr => ?_⟩
  have hx' : x.notBool := by simpa [Call.readable, PyValue.notBool, hx] using hr
  refine makeTask_eq (t := .delayCommand) rfl rfl rfl ?_
  simp [makeNode, makeDelay, readDouble, readInteger, List.lookup, asDouble_toJson h hx',
    RS274Interpreter.siteFields, asInteger_lineNumber h, Call.node, PyValue.numValue, hx]

theorem emits_e (h : lib.Faithful) {index : PyValue K}
    (hend : s.environment.programEndFlag = false) (hc : s.call site (.e index) = .ok s') :
    Emits lib s s' site (.e index) := by
  simp only [RS274Interpreter.call, hend, Bool.false_eq_true, if_false, Except.bind_eq_ok,
    need_eq_ok, check_eq_ok] at hc
  obtain ⟨i, hi, -, hrange, hc⟩ := hc
  obtain rfl := Except.ok.inj hc
  refine ⟨_, rfl, fun hr => ?_⟩
  have hfits : i.fits := by
    cases i with
    | bool b => cases index <;> simp_all [Call.readable, PyValue.notBool, PyValue.asNum,
        PyValue.asInt, PyNum.notBool]
    | int n =>
      obtain ⟨h1, h2⟩ := Bool.or_eq_false_iff.mp hrange
      have h1 : ¬n < 0 := of_decide_eq_false h1
      have h2 : ¬n ≥ 1000 := of_decide_eq_false h2
      refine decide_eq_true ⟨?_, ?_⟩ <;> omega
  refine makeTask_eq (t := .eleparamSetCommand) rfl rfl rfl ?_
  simp [makeNode, makeEleSet, readInteger, List.lookup, asInteger_toJson h hfits,
    RS274Interpreter.siteFields, asInteger_lineNumber h, Call.node, PyValue.intValue, hi]

theorem emits_setCoord (h : lib.Faithful) {index : PyValue K}
    (hend : s.environment.programEndFlag = false) (hc : s.call site (.setCoord index) = .ok s') :
    Emits lib s s' site (.setCoord index) := by
  simp only [RS274Interpreter.call, hend, Bool.false_eq_true, if_false, Except.bind_eq_ok,
    need_eq_ok] at hc
  obtain ⟨i, hi, -, -, hc⟩ := hc
  obtain rfl := Except.ok.inj hc
  refine ⟨_, rfl, fun hr => ?_⟩
  have hfits : i.fits := by simpa [Call.readable, PyValue.fits, hi] using hr
  refine makeTask_eq (t := .coordinateIndexCommand) rfl rfl rfl ?_
  simp [makeNode, makeCoordIndex, readInteger, List.lookup, asInteger_toJson h hfits,
    RS274Interpreter.siteFields, asInteger_lineNumber h, Call.node, PyValue.intValue, hi]

theorem emits_coordSetZero (h : lib.Faithful) {axes : Fin 6 → PyValue K}
    (hend : s.environment.programEndFlag = false)
    (hc : s.call site (.coordSetZero axes) = .ok s') : Emits lib s s' site (.coordSetZero axes) := by
  simp only [RS274Interpreter.call, hend, Bool.false_eq_true, if_false] at hc
  split at hc
  · simp at hc
  · obtain rfl := Except.ok.inj hc
    refine ⟨_, rfl, fun hr => ?_⟩
    have hget : ∀ i : Fin 6, ((List.ofFn fun i => (Json.bool ((axes i).asBool.getD false) : Json K))[
        i.val]?).bind Json.asBoolean = some ((axes i).boolValue) := by
      intro i
      rw [List.getElem?_ofFn, dif_pos i.isLt]
      rfl
    refine makeTask_eq (t := .coordSetZeroCommand) rfl rfl rfl ?_
    simp only [makeNode, makeCoordSetZero, readInteger, readArray, RS274Interpreter.siteFields,
      List.lookup, Json.asArray, asInteger_lineNumber h, Option.bind_eq_bind, Option.bind_some,
      List.length_ofFn, lt_self_iff_false, if_false, hget, String.reduceBEq]
    rw [if_pos (by simp)]
    rfl

/-- The calls without data to read back. -/
theorem emits_bare (h : lib.Faithful) (hend : s.environment.programEndFlag = false)
    (hbare : c = .g90 ∨ c = .g91 ∨ c = .m02 ∨ c = .m00 ∨ ∃ speed, c = .f speed)
    (hc : s.call site c = .ok s') : Emits lib s s' site c := by
  rcases hbare with rfl | rfl | rfl | rfl | ⟨speed, rfl⟩
  all_goals
    simp only [RS274Interpreter.call, hend, Bool.false_eq_true, if_false, Except.bind_eq_ok] at hc
  · obtain rfl := Except.ok.inj hc
    refine ⟨_, rfl, fun _ => makeTask_eq (t := .coordinateModeCommand) rfl rfl rfl ?_⟩
    simp [makeNode, makeCoordMode, makeBare, readInteger, List.lookup,
      RS274Interpreter.siteFields, asInteger_lineNumber h, Call.node]
  · obtain rfl := Except.ok.inj hc
    refine ⟨_, rfl, fun _ => makeTask_eq (t := .coordinateModeCommand) rfl rfl rfl ?_⟩
    simp [makeNode, makeCoordMode, makeBare, readInteger, List.lookup,
      RS274Interpreter.siteFields, asInteger_lineNumber h, Call.node]
  · obtain rfl := Except.ok.inj hc
    refine ⟨_, rfl, fun _ => makeTask_eq (t := .programEndCommand) rfl rfl rfl ?_⟩
    simp [makeNode, makeM02, makeBare, readInteger, List.lookup,
      RS274Interpreter.siteFields, asInteger_lineNumber h, Call.node]
  · obtain rfl := Except.ok.inj hc
    refine ⟨_, rfl, fun _ => makeTask_eq (t := .pauseCommand) rfl rfl rfl ?_⟩
    simp [makeNode, makeM00, makeBare, readInteger, List.lookup,
      RS274Interpreter.siteFields, asInteger_lineNumber h, Call.node]
  · obtain ⟨i, -, -, -, hc⟩ := hc
    obtain rfl := Except.ok.inj hc
    refine ⟨_, rfl, fun _ => makeTask_eq (t := .feedSpeedSetCommand) rfl rfl rfl ?_⟩
    simp [makeNode, makeFeedSet, makeBare, readInteger, List.lookup,
      RS274Interpreter.siteFields, asInteger_lineNumber h, Call.node]

theorem mapM_asString (options : List String) :
    (options.map (Json.string (K := K))).mapM Json.asString = some options := by
  induction options with
  | nil => rfl
  | cons o os ih => simp [List.mapM_cons, Json.asString, ih]

theorem coordModeMap_name (m : CoordinateMode) : coordModeMap.lookup m.name = some m.meant := by
  cases m <;> rfl

theorem emits_g01 (h : lib.Faithful) {coords : Coords K} {options : PyValue K}
    (hend : s.environment.programEndFlag = false) (hc : s.call site (.g01 coords options) = .ok s') :
    Emits lib s s' site (.g01 coords options) := by
  simp only [RS274Interpreter.call, hend, Bool.false_eq_true, if_false, Except.bind_eq_ok,
    need_eq_ok] at hc
  obtain ⟨l, hl, strs, hstrs, -, -, coordinates, hcoords, hc⟩ := hc
  obtain rfl := Except.ok.inj hc
  obtain rfl := checkCoords_eq_ok hcoords
  refine ⟨_, rfl, fun hr => ?_⟩
  simp only [Call.readable, Bool.and_eq_true] at hr
  have hoptions : (Call.g01 coords options).options = strs := by
    simp [Call.options, hl, hstrs]
  simp only [Call.supported, if_true, Call.meant, hoptions]
  refine makeTask_eq (t := .g01MotionCommand) rfl rfl (mapM_asString strs) ?_
  have hvalues := fun o ho => readValues_coordinatesJson h (o := o) ho hr.1
  simp [makeNode, makeG01, readInteger, readCoordMode, List.lookup, Json.asString,
    coordModeMap_name, asInteger_toJson h hr.2, RS274Interpreter.siteFields,
    asInteger_lineNumber h, Call.node, Coords.meant, hvalues]

theorem emits_g00 (h : lib.Faithful) {coords : Coords K} {m05 touch : PyValue K}
    (hend : s.environment.programEndFlag = false)
    (hc : s.call site (.g00 coords m05 touch) = .ok s') :
    Emits lib s s' site (.g00 coords m05 touch) := by
  simp only [RS274Interpreter.call, hend, Bool.false_eq_true, if_false, Except.bind_eq_ok,
    need_eq_ok] at hc
  obtain ⟨-, -, m, hm, t, ht, coordinates, hcoords, hc⟩ := hc
  obtain rfl := Except.ok.inj hc
  obtain rfl := checkCoords_eq_ok hcoords
  refine ⟨_, rfl, fun hr => ?_⟩
  simp only [Call.readable, Bool.and_eq_true] at hr
  refine makeTask_eq (t := .g00MotionCommand) rfl rfl rfl ?_
  have hvalues := fun o ho => readValues_coordinatesJson h (o := o) ho hr.1.1
  simp [makeNode, makeG00, readInteger, readBoolean, readCoordMode, List.lookup, Json.asString,
    Json.asBoolean, coordModeMap_name, asInteger_toJson h hr.1.2, asInteger_toJson h hr.2,
    RS274Interpreter.siteFields, asInteger_lineNumber h, Call.node, Coords.meant, hvalues,
    PyValue.boolValue, hm, ht]

/-- A printed point is read back. -/
theorem makeG01GroupPoint_pointJson (h : lib.Faithful) {p : Point K}
    (hp : p.coords.notBool && p.feedrate.fits) :
    makeG01GroupPoint lib (RS274Interpreter.pointJson p) = some p.meant := by
  obtain ⟨hcoords, hfeed⟩ := Bool.and_eq_true_iff.mp hp
  have hvalues := fun o ho => readValues_coordinatesJson h (o := o) ho hcoords
  simp [makeG01GroupPoint, RS274Interpreter.pointJson, Json.asObject, readInteger, readCoordMode,
    List.lookup, Json.asString, coordModeMap_name, asInteger_lineNumber h,
    asInteger_toJson h hfeed, hvalues, Point.meant]

theorem mapM_pointJson (h : lib.Faithful) {ps : List (Point K)}
    (hps : ps.all fun p => p.coords.notBool && p.feedrate.fits) :
    (ps.map RS274Interpreter.pointJson).mapM (makeG01GroupPoint lib) = some (ps.map Point.meant) := by
  induction ps with
  | nil => rfl
  | cons p ps ih =>
    obtain ⟨hp, hps⟩ := Bool.and_eq_true_iff.mp (by simpa only [List.all_cons] using hps)
    simp [List.mapM_cons, makeG01GroupPoint_pointJson h hp, ih hps]

theorem emits_g01Group (h : lib.Faithful) {points : Option (Points.Object K)}
    (hend : s.environment.programEndFlag = false)
    (hc : s.call site (.g01Group points) = .ok s') : Emits lib s s' site (.g01Group points) := by
  simp only [RS274Interpreter.call, hend, Bool.false_eq_true, if_false, Except.bind_eq_ok,
    need_eq_ok] at hc
  obtain ⟨ps, rfl, -, -, hc⟩ := hc
  obtain rfl := Except.ok.inj hc
  refine ⟨_, rfl, fun hr => ?_⟩
  simp only [Call.readable, Bool.and_eq_true, Option.all_some] at hr
  refine makeTask_eq (t := .g01GroupMotionCommand) rfl rfl rfl ?_
  simp [makeNode, makeG01Group, readInteger, readArray, List.lookup, Json.asArray,
    asInteger_toJson h hr.1, RS274Interpreter.siteFields, asInteger_lineNumber h, Call.node,
    mapM_pointJson h hr.2]

/-- The printed parameters of a drill command are read back. -/
theorem makeDrill_drillFields (h : lib.Faithful) {d : PyNum K} {i : PyInt} {t b k : Bool}
    {v : Option (PyNum K)} (hd : d.notBool) (hi : i.fits) (hv : v.all (·.notBool)) :
    makeDrill lib (("CommandType", .string "DrillMotionCommand") ::
        RS274Interpreter.drillFields site d i t b k v) =
      some ((site.lineNumber : ℤ),
        .drillMotion ⟨d.value * 1000, i.value, t, b, k⟩ (v.map (·.value))) := by
  generalize hjo : (("CommandType", Json.string "DrillMotionCommand") ::
    RS274Interpreter.drillFields site d i t b k v) = jo
  have hline : jo.lookup "LineNumber" = some (.int site.lineNumber) := by rw [← hjo]; rfl
  have hdepth : jo.lookup "DrillDepth" = some d.toJson := by rw [← hjo]; rfl
  have hhold : jo.lookup "DrillHoldTime" = some i.toJson := by rw [← hjo]; rfl
  have htouch : jo.lookup "DrillTouch" = some (.bool t) := by rw [← hjo]; rfl
  have hbreak : jo.lookup "DrillBreakout" = some (.bool b) := by rw [← hjo]; rfl
  have hback : jo.lookup "DrillBack" = some (.bool k) := by rw [← hjo]; rfl
  have hspindle : jo.lookup "DrillSpindleSpeed" = some (valueJson v) := by rw [← hjo]; rfl
  simp [makeDrill, readInteger, readDouble, readBoolean, hline, hdepth, hhold, htouch, hbreak,
    hback, hspindle, Json.asBoolean, asInteger_lineNumber h, asDouble_toJson h hd,
    asInteger_toJson h hi, readValue_valueJson h hv]

theorem emits_drill (h : lib.Faithful) {depth holdtime touch breakout back spindle : PyValue K}
    (hend : s.environment.programEndFlag = false)
    (hc : s.call site (.drill depth holdtime touch breakout back spindle) = .ok s') :
    Emits lib s s' site (.drill depth holdtime touch breakout back spindle) := by
  simp only [RS274Interpreter.call, hend, Bool.false_eq_true, if_false, Except.bind_eq_ok,
    need_eq_ok] at hc
  obtain ⟨d, hd, -, -, i, hi, -, -, t, ht, b, hb, k, hk, -, -, hc⟩ := hc
  obtain rfl := Except.ok.inj hc
  refine ⟨_, rfl, fun hr => ?_⟩
  by_cases hdrill : Settings.powerZhongguDrill
  · have hr : (d.notBool ∧ i.fits) ∧ spindle.asNum.all (·.notBool) := by
      simpa [Call.readable, hdrill, PyValue.notBool, PyValue.fits, hd, hi] using hr
    rw [Call.supported, if_pos hdrill]
    refine makeTask_eq (t := .drillMotionCommand) rfl rfl rfl ?_
    simp only [makeNode, if_pos hdrill, makeDrill_drillFields h hr.1.1 hr.1.2 hr.2, Option.map_some,
      Call.node, PyValue.numValue, PyValue.intValue, PyValue.boolValue, hd, hi, ht, hb, hk,
      Option.getD_some]
  · rw [Call.supported, if_neg hdrill]
    refine makeTask_ignored (t := .drillMotionCommand) rfl ?_
    rw [makeNode, if_neg hdrill]

/-- Every call that is made before the end of the program emits what it means. -/
theorem call_emits (h : lib.Faithful) (hend : s.environment.programEndFlag = false)
    (hc : s.call site c = .ok s') : Emits lib s s' site c := by
  cases c with
  | g04 t => exact emits_g04 h hend hc
  | e index => exact emits_e h hend hc
  | setCoord index => exact emits_setCoord h hend hc
  | coordSetZero axes => exact emits_coordSetZero h hend hc
  | g01 coords options => exact emits_g01 h hend hc
  | g00 coords m05 touch => exact emits_g00 h hend hc
  | g01Group points => exact emits_g01Group h hend hc
  | drill => exact emits_drill h hend hc
  | _ => exact emits_bare h hend (by simp) hc

/-! ### A whole program -/

/-- The commands of a run of calls, and what the converter makes of them. -/
theorem calls_emit (h : lib.Faithful) {calls : List (CallSite × Call K)}
    (hc : calls.foldlM (fun s c => RS274Interpreter.call s c.1 c.2) s = .ok s')
    (hr : s.readable calls) :
    ∃ cmds tasks, s'.commandList = s.commandList ++ cmds ∧
      cmds.mapM (makeGCodeTask lib) = some tasks ∧ tasks.filterMap id = s.meant calls ∧
      ((∀ c ∈ calls, c.2.supported) → (s.meant calls).length = cmds.length) := by
  induction calls generalizing s with
  | nil =>
    obtain rfl : s = s' := Except.ok.inj hc
    exact ⟨[], [], by simp, rfl, rfl, fun _ => rfl⟩
  | cons c calls ih =>
    obtain ⟨site, c⟩ := c
    simp only [List.foldlM_cons, Except.bind_eq_ok] at hc
    obtain ⟨s₁, hcall, hc⟩ := hc
    by_cases hend : s.environment.programEndFlag
    · obtain rfl : s = s₁ := by simpa [RS274Interpreter.call, hend] using hcall
      simp only [RS274Interpreter.readable, RS274Interpreter.meant, hend, if_true] at hr ⊢
      obtain ⟨cmds, tasks, hcmds, htasks, hmeant, hlen⟩ := ih hc hr
      exact ⟨cmds, tasks, hcmds, htasks, hmeant, fun hs => hlen fun c hc => hs c (by simp [hc])⟩
    · have hend : s.environment.programEndFlag = false := by simpa using hend
      simp only [RS274Interpreter.readable, hend, Bool.false_eq_true, if_false, hcall,
        Bool.and_eq_true] at hr
      obtain ⟨fields, hlist, hmake⟩ := call_emits h hend hcall
      obtain ⟨cmds, tasks, hcmds, htasks, hmeant, hlen⟩ := ih hc hr.2
      have hstep : s.meant ((site, c) :: calls) =
          if c.supported then c.meant s.environment site :: s₁.meant calls else s₁.meant calls := by
        simp only [RS274Interpreter.meant, hend, Bool.false_eq_true, if_false, hcall]
      have htask : makeGCodeTask lib (.object fields) = _ := hmake hr.1
      refine ⟨.object fields :: cmds,
        (if c.supported then some (c.meant s.environment site) else none) :: tasks,
        by simp [hcmds, hlist], ?_, ?_, fun hs => ?_⟩
      · simp [List.mapM_cons, htask, htasks]
      · rw [hstep, ← hmeant]
        by_cases hs : c.supported
        · rw [if_pos hs, if_pos hs]
          rfl
        · rw [if_neg hs, if_neg hs]
          rfl
      · rw [hstep, if_pos (hs (site, c) (by simp)), List.length_cons, List.length_cons,
          hlen fun c hc => hs c (by simp [hc])]

end Calls

/-! ### Programs both sides read, and programs only one does -/

/-- The reader that reads a number as what it is, and no number past 32 bits as an `int`. -/
def exactReader : Json.Reader ℚ where
  asInteger
    | .int n => if Json.InInt n then some n else none
    | _ => none
  asDouble
    | .int n => some n
    | .real x => some x
    | _ => none

theorem exactReader_faithful : exactReader.Faithful where
  asInteger_int hn := if_pos hn
  asInteger_inInt {j n} hj := by
    cases j with
    | int m =>
      simp only [exactReader] at hj
      split at hj
      · obtain rfl := Option.some.inj hj
        assumption
      · simp at hj
    | _ => simp [exactReader] at hj
  asInteger_other {j} hj := by cases j <;> simp_all [exactReader, Json.isNumber]
  asDouble_int _ := rfl
  asDouble_real _ := rfl
  asDouble_other {j} hj := by cases j <;> simp_all [exactReader, Json.isNumber]

namespace Rs274

/-- Coordinates of which only `x` is given. -/
def onlyX (x : PyValue ℚ) : Coords ℚ := fun i => if i = 0 then x else .none

def shortProgram (x : PyValue ℚ) : List (CallSite × Call ℚ) :=
  [(⟨1, "g54()", by decide⟩, .setCoord (.int 54)),
    (⟨2, "g90()", by decide⟩, .g90),
    (⟨3, "f(100)", by decide⟩, .f (.int 100)),
    (⟨4, "g00(x)", by decide⟩, .g00 (onlyX x) (.bool false) (.bool false)),
    (⟨5, "m02()", by decide⟩, .m02)]

/-- Whether the converter accepts the JSON of a program, if the interpreter accepts the program. -/
def readBack [Settings] (lib : Json.Reader ℚ) (calls : List (CallSite × Call ℚ)) : Option Bool :=
  match RS274Interpreter.interpret calls with
  | .error _ => none
  | .ok s => some (makeGCodeTaskListFromJson lib (.array s.commandList)).isSome

end Rs274

attribute [local instance] Sample.settings

end Edm
