import Edm.Interpreter.Rs274
import Edm.Lib.Run

/-!
# Methods that raise

A method of `RS274Interpreter` that raises keeps what it has changed before the check that failed, and a
script may catch the exception and go on. `method` follows the source statement by statement over the
state; `method_run` says what this comes to: a call that returns does what `call` says, and one that
raises leaves all but the motion mode as it was. So the modal state of a motion command is that of the
calls that returned (`modal_run`).
-/

set_option linter.unusedSectionVars false

namespace Edm

namespace Rs274

namespace RS274Interpreter

variable {K : Type}

/-- A method: it returns or raises, and leaves a state in both cases. -/
abbrev Method (K : Type) := ExceptT String (StateM (RS274Interpreter K))

def environmentNow : Method K Environment := do return (← get).environment

def setEnvironment (f : Environment → Environment) : Method K Unit :=
  modify fun s => { s with environment := f s.environment }

/-- `self.__g_command_list.append(command)`. -/
def append (command : Json K) : Method K Unit := modify fun s => s.emit command

def raising {α : Type} (e : Except String α) : Method K α := MonadExcept.ofExcept e

variable [Field K] [LinearOrder K]

/-- The methods with their checks and assignments in the order of the source. -/
def method (site : CallSite) (c : Call K) : Method K Unit := do
  if (← environmentNow).programEndFlag then return ()
  match c with
  | .g90 =>
    setEnvironment fun env => { env with coordinateMode := .absoluteMode }
    append (coordinateModeCommand .absoluteMode site)
  | .g91 =>
    setEnvironment fun env => { env with coordinateMode := .incrementMode }
    append (coordinateModeCommand .incrementMode site)
  | .g04 t =>
    let t ← raising (need "Delay Time type invalid" t.asNum)
    raising (check "Delay Time Out of Range" (t.value < 0))
    append (command "DelayCommand" (("DelayTime", t.toJson) :: siteFields site))
  | .e index =>
    let index ← raising (need "Eleparam Index type invalid" index.asInt)
    raising (check "Eleparam Index Out of Range" (index.value < 0 || index.value ≥ 1000))
    append (command "EleparamSetCommand" (("EleparamIndex", index.toJson) :: siteFields site))
  | .setCoord index =>
    let index ← raising (need "Coordinate Index Type invalid" index.asInt)
    raising (check "Coordinate Index < 0" (index.value < 0))
    setEnvironment fun env => { env with coordinateIndex := index }
    append (command "CoordinateIndexCommand" (("CoordinateIndex", index.toJson) :: siteFields site))
  | .coordSetZero axes =>
    raising (check "type invalid" ((List.finRange 6).any fun i => (axes i).asBool.isNone))
    append (coordSetZeroCommand (fun i => (axes i).asBool.getD false) site)
  | .m02 =>
    setEnvironment fun env => { env with programEndFlag := true }
    append (command "ProgramEndCommand" (siteFields site))
  | .m00 => append (command "PauseCommand" (siteFields site))
  | .g01 coords options =>
    let options ← raising (need "Options Type Not Valid" options.asList)
    let options ← raising (need "Option: Type Not Valid" (options.mapM (·.asStr)))
    setEnvironment fun env => { env with motionMode := .g01 }
    raising (assertEnvironmentValid (← environmentNow))
    let coordinates ← raising (checkCoords "Coordinate Value Type Not Valid" coords)
    append (g01Command (← environmentNow) site options coordinates)
  | .g00 coords m05 touch =>
    setEnvironment fun env => { env with motionMode := .g00 }
    raising (assertEnvironmentValid (← environmentNow))
    let m05 ← raising (need "m05 Type Not Valid" m05.asBool)
    let touch ← raising (need "touch Type Not Valid" touch.asBool)
    let m05 := if touch then false else m05
    let coordinates ← raising (checkCoords "Coordinate Value Type Not Valid" coords)
    append (g00Command (← environmentNow) site m05 touch coordinates)
  | .g01Group points =>
    let points ← raising (need "Points Type Not Valid" points)
    setEnvironment fun env => { env with motionMode := .g01 }
    raising (assertEnvironmentValid (← environmentNow))
    append (g01GroupCommand (← environmentNow) site points.object.points)
  | .f speed =>
    let speed ← raising (need "Feed Speed Type Not Valid" speed.asInt)
    raising (check "Feed Speed Value Out of Range" (speed.value ≤ 0))
    setEnvironment fun env => { env with feedSpeed := speed }
    append (command "FeedSpeedSetCommand" (("FeedSpeed", speed.toJson) :: siteFields site))
  | .drill depth holdtime touch breakout back spindleSpeed =>
    let depth ← raising (need "Drill Depth Type Not Valid" depth.asNum)
    raising (check "Drill Depth Value Out of Range" (depth.value ≤ 0))
    let holdtime ← raising (need "Drill Holdtime Type Not Valid" holdtime.asInt)
    raising (check "Drill Holdtime Value Out of Range" (holdtime.value < 0))
    let touch ← raising (need "Drill Touch Type Not Valid" touch.asBool)
    let breakout ← raising (need "Drill Breakout Type Not Valid" breakout.asBool)
    let back ← raising (need "Drill Back Type Not Valid" back.asBool)
    raising (check "Drill Spindle Speed Type Not Valid" (badCoord spindleSpeed))
    append (command "DrillMotionCommand"
      (drillFields site depth holdtime touch breakout back spindleSpeed.asNum))

/-! ### What a method comes to -/

def withMotionMode (s : RS274Interpreter K) (mode : MotionMode) : RS274Interpreter K :=
  { s with environment := { s.environment with motionMode := mode } }

/-- The state is `s` but for the motion mode. -/
def SameButMotionMode (s t : RS274Interpreter K) : Prop := ∃ mode, t = s.withMotionMode mode

omit [Field K] [LinearOrder K] in
theorem SameButMotionMode.refl (s : RS274Interpreter K) : SameButMotionMode s s :=
  ⟨s.environment.motionMode, rfl⟩

/-- From `t` on the method `m` returns with the state that `x` has, or raises what `x` is, with `s` left
but for the motion mode. -/
def Follows (s t : RS274Interpreter K) (x : Except String (RS274Interpreter K))
    (m : Method K Unit) : Prop :=
  match x with
  | .ok s' => m t = (.ok (), s')
  | .error message => ∃ t', SameButMotionMode s t' ∧ m t = (.error message, t')

section Follows

omit [Field K] [LinearOrder K]

variable {s t : RS274Interpreter K}

theorem Follows.raising {α : Type} (ht : SameButMotionMode s t) {e : Except String α}
    {k : α → Except String (RS274Interpreter K)} {k' : α → Method K Unit}
    (h : ∀ a, Follows s t (k a) (k' a)) :
    Follows s t (e >>= k) (RS274Interpreter.raising e >>= k') := by
  cases e with
  | error message => exact ⟨t, ht, rfl⟩
  | ok a => exact h a

theorem Follows.setEnvironment {f : Environment → Environment} {x : Except String (RS274Interpreter K)}
    {k : Method K Unit} (h : Follows s { t with environment := f t.environment } x k) :
    Follows s t x (RS274Interpreter.setEnvironment f >>= fun _ => k) := h

theorem Follows.environmentNow {x : Except String (RS274Interpreter K)} {k : Environment → Method K Unit}
    (h : Follows s t x (k t.environment)) :
    Follows s t x (RS274Interpreter.environmentNow >>= k) := h

theorem Follows.append (json : Json K) :
    Follows s t (.ok (t.emit json)) (RS274Interpreter.append json) := rfl

end Follows

/-- The methods and the calls that forget the state where one raises. -/
theorem method_follows (s : RS274Interpreter K) (site : CallSite) (c : Call K) :
    Follows s s (s.call site c) (method site c) := by
  unfold method call
  refine .environmentNow ?_
  by_cases hend : s.environment.programEndFlag = true
  · rw [if_pos hend, if_pos hend]
    exact rfl
  rw [if_neg hend, if_neg hend]
  have hrefl : SameButMotionMode s s := .refl s
  cases c with
  | g90 => exact .setEnvironment (.append _)
  | g91 => exact .setEnvironment (.append _)
  | g04 t => exact .raising hrefl fun t => .raising hrefl fun _ => .append _
  | e index => exact .raising hrefl fun index => .raising hrefl fun _ => .append _
  | setCoord index =>
    exact .raising hrefl fun index => .raising hrefl fun _ => .setEnvironment (.append _)
  | coordSetZero axes =>
    dsimp only
    split
    · rename_i hbad
      rw [hbad]
      exact ⟨s, hrefl, rfl⟩
    · rename_i hbad
      rw [Bool.eq_false_of_not_eq_true hbad]
      exact .append _
  | m02 => exact .setEnvironment (.append _)
  | m00 => exact .append _
  | g01 coords options =>
    refine .raising hrefl fun options => .raising hrefl fun options => .setEnvironment ?_
    have hmode : SameButMotionMode s (s.withMotionMode .g01) := ⟨_, rfl⟩
    exact .environmentNow (.raising hmode fun _ => .raising hmode fun coordinates =>
      .environmentNow (.append _))
  | g00 coords m05 touch =>
    refine .setEnvironment ?_
    have hmode : SameButMotionMode s (s.withMotionMode .g00) := ⟨_, rfl⟩
    exact .environmentNow (.raising hmode fun _ => .raising hmode fun m05 =>
      .raising hmode fun touch => .raising hmode fun coordinates => .environmentNow (.append _))
  | g01Group points =>
    refine .raising hrefl fun points => .setEnvironment ?_
    have hmode : SameButMotionMode s (s.withMotionMode .g01) := ⟨_, rfl⟩
    exact .environmentNow (.raising hmode fun _ => .environmentNow (.append _))
  | f speed =>
    exact .raising hrefl fun speed => .raising hrefl fun _ => .setEnvironment (.append _)
  | drill depth holdtime touch breakout back spindleSpeed =>
    exact .raising hrefl fun depth => .raising hrefl fun _ => .raising hrefl fun holdtime =>
      .raising hrefl fun _ => .raising hrefl fun touch => .raising hrefl fun breakout =>
      .raising hrefl fun back => .raising hrefl fun _ => .append _

/-- What a call leaves behind, whether it returns or raises. -/
def after (s : RS274Interpreter K) (c : CallSite × Call K) : RS274Interpreter K :=
  (method c.1 c.2 s).2

/-- The call returns. -/
def returns (s : RS274Interpreter K) (c : CallSite × Call K) : Bool :=
  match (method c.1 c.2 s).1 with
  | .ok _ => true
  | .error _ => false

/-- A call that returns does what `call` says, one that raises changes the motion mode at most. -/
theorem after_cases (s : RS274Interpreter K) (c : CallSite × Call K) :
    (s.returns c = true ∧ s.call c.1 c.2 = .ok (s.after c)) ∨
      (s.returns c = false ∧ SameButMotionMode s (s.after c)) := by
  have hfollows := method_follows s c.1 c.2
  unfold Follows at hfollows
  unfold returns after
  cases hcall : s.call c.1 c.2 with
  | ok s' =>
    rw [hcall] at hfollows
    left
    rw [hfollows]
    exact ⟨rfl, rfl⟩
  | error message =>
    rw [hcall] at hfollows
    obtain ⟨t', hsame, heq⟩ := hfollows
    right
    rw [heq]
    exact ⟨rfl, hsame⟩

/-! ### What a call emits -/

section Emitted

omit [Field K] [LinearOrder K]

/-- A field of a command. -/
def field (json : Json K) (key : String) : Option (Json K) := json.asObject.bind (List.lookup key)

def commandType (json : Json K) : Option String := (field json "CommandType").bind Json.asString

@[simp] theorem commandType_command (type : String) (fields : List (String × Json K)) :
    commandType (command type fields) = some type := rfl

/-- The commands that depend on the modal state, and the one that ends the program. -/
def modalTypes : List String :=
  ["G00MotionCommand", "G01MotionCommand", "G01GroupMotionCommand", "ProgramEndCommand"]

def modeSet : Call K → Option CoordinateMode
  | .g90 => some .absoluteMode
  | .g91 => some .incrementMode
  | _ => none

def indexSet : Call K → Option PyInt
  | .setCoord index => index.asInt
  | _ => none

def feedSet : Call K → Option PyInt
  | .f speed => speed.asInt
  | _ => none

/-- The command a call emits in `env`, and the environment after it. -/
inductive Emitted (env : Environment) (site : CallSite) : Call K → Json K → Environment → Prop where
  | mode (c : Call K) (mode : CoordinateMode) (hm : modeSet c = some mode) (hi : indexSet c = none)
      (hf : feedSet c = none) :
      Emitted env site c (coordinateModeCommand mode site) { env with coordinateMode := mode }
  | index (i : PyInt) (index : PyValue K) (hi : index.asInt = some i) (h : 0 ≤ i.value) :
      Emitted env site (.setCoord index)
        (command "CoordinateIndexCommand" (("CoordinateIndex", i.toJson) :: siteFields site))
        { env with coordinateIndex := i }
  | feed (speed : PyInt) (v : PyValue K) (hv : v.asInt = some speed) (h : 0 < speed.value) :
      Emitted env site (.f v)
        (command "FeedSpeedSetCommand" (("FeedSpeed", speed.toJson) :: siteFields site))
        { env with feedSpeed := speed }
  | ends : Emitted env site .m02 (command "ProgramEndCommand" (siteFields site))
      { env with programEndFlag := true }
  | g00 (coords : Coords K) (m05 touch : PyValue K) (m05' touch' : Bool) (coordinates : Coordinates K)
      (h : assertEnvironmentValid { env with motionMode := .g00 } = .ok ()) :
      Emitted env site (.g00 coords m05 touch)
        (g00Command { env with motionMode := .g00 } site m05' touch' coordinates)
        { env with motionMode := .g00 }
  | g01 (coords : Coords K) (options : PyValue K) (options' : List String) (coordinates : Coordinates K)
      (h : assertEnvironmentValid { env with motionMode := .g01 } = .ok ()) :
      Emitted env site (.g01 coords options)
        (g01Command { env with motionMode := .g01 } site options' coordinates)
        { env with motionMode := .g01 }
  | g01Group (points : Points.Object K)
      (h : assertEnvironmentValid { env with motionMode := .g01 } = .ok ()) :
      Emitted env site (.g01Group (some points))
        (g01GroupCommand { env with motionMode := .g01 } site points.object.points)
        { env with motionMode := .g01 }
  | other (c : Call K) (type : String) (fields : List (String × Json K)) (ht : type ∉ modalTypes)
      (hm : modeSet c = none) (hi : indexSet c = none) (hf : feedSet c = none) :
      Emitted env site c (command type fields) env

end Emitted

theorem call_emits {s s' : RS274Interpreter K} {site : CallSite} {c : Call K}
    (hend : s.environment.programEndFlag = false) (h : s.call site c = .ok s') :
    ∃ json env, Emitted s.environment site c json env ∧ s' = ⟨env, s.commandList ++ [json]⟩ := by
  unfold call at h
  rw [if_neg (by simp [hend])] at h
  cases c with
  | g90 =>
    cases h
    exact ⟨_, _, .mode _ _ rfl rfl rfl, rfl⟩
  | g91 =>
    cases h
    exact ⟨_, _, .mode _ _ rfl rfl rfl, rfl⟩
  | m02 =>
    cases h
    exact ⟨_, _, .ends, rfl⟩
  | m00 =>
    cases h
    exact ⟨_, _, .other _ _ _ (by simp [modalTypes]) rfl rfl rfl, rfl⟩
  | coordSetZero axes =>
    dsimp only at h
    split at h
    · cases h
    · cases h
      exact ⟨_, _, .other _ _ _ (by simp [modalTypes]) rfl rfl rfl, rfl⟩
  | g04 t =>
    simp only [Except.bind_eq_ok] at h
    obtain ⟨t, -, -, -, h⟩ := h
    cases h
    exact ⟨_, _, .other _ _ _ (by simp [modalTypes]) rfl rfl rfl, rfl⟩
  | e index =>
    simp only [Except.bind_eq_ok] at h
    obtain ⟨index, -, -, -, h⟩ := h
    cases h
    exact ⟨_, _, .other _ _ _ (by simp [modalTypes]) rfl rfl rfl, rfl⟩
  | setCoord index =>
    simp only [Except.bind_eq_ok, need_eq_ok, check_eq_ok, decide_eq_false_iff_not, not_lt] at h
    obtain ⟨i, hi, -, hnonneg, h⟩ := h
    cases h
    exact ⟨_, _, .index i index hi hnonneg, rfl⟩
  | g01 coords options =>
    simp only [Except.bind_eq_ok] at h
    obtain ⟨_, -, options', -, _, hvalid, coordinates, -, h⟩ := h
    cases h
    exact ⟨_, _, .g01 coords options options' coordinates hvalid, rfl⟩
  | g00 coords m05 touch =>
    simp only [Except.bind_eq_ok] at h
    obtain ⟨_, hvalid, m05', -, touch', -, coordinates, -, h⟩ := h
    cases h
    exact ⟨_, _, .g00 coords m05 touch _ touch' coordinates hvalid, rfl⟩
  | g01Group points =>
    simp only [Except.bind_eq_ok, need_eq_ok] at h
    obtain ⟨points, rfl, _, hvalid, h⟩ := h
    cases h
    exact ⟨_, _, .g01Group points hvalid, rfl⟩
  | f speed =>
    simp only [Except.bind_eq_ok, need_eq_ok, check_eq_ok, decide_eq_false_iff_not, not_le] at h
    obtain ⟨speed', hspeed, -, hpos, h⟩ := h
    cases h
    exact ⟨_, _, .feed speed' speed hspeed hpos, rfl⟩
  | drill depth holdtime touch breakout back spindleSpeed =>
    simp only [Except.bind_eq_ok] at h
    obtain ⟨depth, -, -, -, holdtime, -, -, -, touch, -, breakout, -, back, -, -, -, h⟩ := h
    cases h
    exact ⟨_, _, .other _ _ _ (by simp [modalTypes]) rfl rfl rfl, rfl⟩

/-! ### Runs -/

/-- The calls that return. -/
def returned (s : RS274Interpreter K) : List (CallSite × Call K) → List (Call K)
  | [] => []
  | c :: cs => if s.returns c then c.2 :: returned (s.after c) cs else returned (s.after c) cs

theorem returned_append (s : RS274Interpreter K) (cs : List (CallSite × Call K))
    (c : CallSite × Call K) :
    s.returned (cs ++ [c]) =
      s.returned cs ++ if (Machine.run after s cs).returns c then [c.2] else [] := by
  induction cs generalizing s with
  | nil => rfl
  | cons d cs ih =>
    simp only [List.cons_append, returned, Machine.run_cons, ih]
    split
    · rfl
    · rfl

/-- The modal state of a command: what the calls `done` have set last. -/
def CarriesModal (done : List (Call K)) (json : Json K) : Prop :=
  ∃ mode index feed, Machine.lastSet modeSet done = some mode ∧
    Machine.lastSet indexSet done = some index ∧ Machine.lastSet feedSet done = some feed ∧
    field json "CoordinateIndex" = some index.toJson ∧
    (commandType json ≠ some "G01GroupMotionCommand" →
      field json "CoordinateMode" = some (.string mode.name)) ∧
    (commandType json = some "G00MotionCommand" → field json "FeedSpeed" = some feed.toJson)

/-- A command that depends on the modal state. -/
def IsModal (json : Json K) : Prop :=
  commandType json = some "G00MotionCommand" ∨ commandType json = some "G01MotionCommand" ∨
    commandType json = some "G01GroupMotionCommand"

def IsProgramEnd (json : Json K) : Prop := commandType json = some "ProgramEndCommand"

/-- What is kept from call to call: the modal state is what the calls that returned have set last, and
only the end of the program may be a program end. -/
structure Inv (done : List (Call K)) (s : RS274Interpreter K) : Prop where
  mode : s.environment.programEndFlag = false →
    s.environment.coordinateMode = (Machine.lastSet modeSet done).getD .undefined
  index : s.environment.programEndFlag = false →
    s.environment.coordinateIndex = (Machine.lastSet indexSet done).getD (.int (-1))
  feed : s.environment.programEndFlag = false →
    s.environment.feedSpeed = (Machine.lastSet feedSet done).getD (.int (-1))
  ends : ∀ json ∈ (if s.environment.programEndFlag then s.commandList.dropLast else s.commandList),
    ¬IsProgramEnd json

section Inv

omit [Field K] [LinearOrder K]

variable {s t : RS274Interpreter K} {done : List (Call K)}

theorem new_inv : Inv (K := K) [] new where
  mode _ := rfl
  index _ := rfl
  feed _ := rfl
  ends json h := by simp [new] at h

/-- A call that raises. -/
theorem Inv.raised (h : Inv done s) (hsame : SameButMotionMode s t) : Inv done t := by
  obtain ⟨mode, rfl⟩ := hsame
  exact ⟨h.mode, h.index, h.feed, h.ends⟩

/-- After the end of the program nothing is kept but the commands. -/
theorem Inv.ended (h : Inv done s) (hend : s.environment.programEndFlag = true) (c : Call K) :
    Inv (done ++ [c]) s where
  mode h' := by simp [hend] at h'
  index h' := by simp [hend] at h'
  feed h' := by simp [hend] at h'
  ends := h.ends

/-- What the valid environment of a motion command says about the calls before it. -/
theorem Inv.valid (h : Inv done s) (hend : s.environment.programEndFlag = false) {mode : MotionMode}
    (hvalid : assertEnvironmentValid { s.environment with motionMode := mode } = .ok ()) :
    Machine.lastSet modeSet done = some s.environment.coordinateMode ∧
      Machine.lastSet indexSet done = some s.environment.coordinateIndex ∧
      Machine.lastSet feedSet done = some s.environment.feedSpeed := by
  unfold assertEnvironmentValid at hvalid
  split at hvalid
  · cases hvalid
  rename_i hmode
  split at hvalid
  · cases hvalid
  split at hvalid
  · cases hvalid
  rename_i hindex
  split at hvalid
  · cases hvalid
  split at hvalid
  · cases hvalid
  rename_i hfeed
  have hmode' := h.mode hend
  have hindex' := h.index hend
  have hfeed' := h.feed hend
  refine ⟨?_, ?_, ?_⟩
  · cases hlast : Machine.lastSet modeSet done with
    | none => exact absurd (by simpa [hlast] using hmode') hmode
    | some mode => simp [hmode', hlast]
  · cases hlast : Machine.lastSet indexSet done with
    | none => exact absurd (by simp [hindex', hlast, PyInt.value]) hindex
    | some index => simp [hindex', hlast]
  · cases hlast : Machine.lastSet feedSet done with
    | none => exact absurd (by simp [hfeed', hlast, PyInt.value]) hfeed
    | some feed => simp [hfeed', hlast]

theorem getD_lastSet_append {α : Type} {f : Call K → Option α} {c : Call K} (default : α) :
    (Machine.lastSet f (done ++ [c])).getD default =
      (f c).getD ((Machine.lastSet f done).getD default) := by
  rw [Machine.lastSet_append]
  cases f c <;> rfl

theorem Inv.ends_append (h : Inv done s) (hend : s.environment.programEndFlag = false) {json : Json K}
    (hjson : ¬IsProgramEnd json) {env : Environment} (henv : env.programEndFlag = false) :
    ∀ json' ∈ (if env.programEndFlag then (s.commandList ++ [json]).dropLast
      else s.commandList ++ [json]), ¬IsProgramEnd json' := by
  have hends : ∀ json ∈ s.commandList, ¬IsProgramEnd json := by simpa [hend] using h.ends
  intro json' hmem
  simp only [henv, Bool.false_eq_true, if_false, List.mem_append, List.mem_singleton] at hmem
  rcases hmem with hmem | rfl
  · exact hends json' hmem
  · exact hjson

/-- A call that sets nothing of the modal state and does not end the program. -/
theorem Inv.setsNothing (h : Inv done s) (hend : s.environment.programEndFlag = false) {c : Call K}
    {json : Json K} {mode : MotionMode} (hjson : ¬IsProgramEnd json) (hm : modeSet c = none)
    (hi : indexSet c = none) (hf : feedSet c = none) :
    Inv (done ++ [c]) ⟨{ s.environment with motionMode := mode }, s.commandList ++ [json]⟩ := by
  refine ⟨fun _ => ?_, fun _ => ?_, fun _ => ?_, h.ends_append hend hjson hend⟩
  · rw [getD_lastSet_append, hm]
    exact h.mode hend
  · rw [getD_lastSet_append, hi]
    exact h.index hend
  · rw [getD_lastSet_append, hf]
    exact h.feed hend

/-- A call that emits a command. -/
theorem Inv.emitted (h : Inv done s) (hend : s.environment.programEndFlag = false) {site : CallSite}
    {c : Call K} {json : Json K} {env : Environment} (he : Emitted s.environment site c json env) :
    Inv (done ++ [c]) ⟨env, s.commandList ++ [json]⟩ ∧ (IsModal json → CarriesModal done json) := by
  cases he with
  | mode _ mode hm hi hf =>
    have hjson : ¬IsProgramEnd (coordinateModeCommand (K := K) mode site) := by
      simp [IsProgramEnd, coordinateModeCommand]
    refine ⟨⟨fun _ => ?_, fun _ => ?_, fun _ => ?_, h.ends_append hend hjson hend⟩, ?_⟩
    · rw [getD_lastSet_append, hm]
      rfl
    · rw [getD_lastSet_append, hi]
      exact h.index hend
    · rw [getD_lastSet_append, hf]
      exact h.feed hend
    · simp [IsModal, coordinateModeCommand]
  | index i index hi =>
    refine ⟨⟨fun _ => ?_, fun _ => ?_, fun _ => ?_, h.ends_append hend (by simp [IsProgramEnd]) hend⟩,
      by simp [IsModal]⟩
    · rw [getD_lastSet_append]
      exact h.mode hend
    · rw [getD_lastSet_append, indexSet, hi]
      rfl
    · rw [getD_lastSet_append]
      exact h.feed hend
  | feed speed v hv =>
    refine ⟨⟨fun _ => ?_, fun _ => ?_, fun _ => ?_, h.ends_append hend (by simp [IsProgramEnd]) hend⟩,
      by simp [IsModal]⟩
    · rw [getD_lastSet_append]
      exact h.mode hend
    · rw [getD_lastSet_append]
      exact h.index hend
    · rw [getD_lastSet_append, feedSet, hv]
      rfl
  | ends =>
    refine ⟨⟨by simp, by simp, by simp, ?_⟩, by simp [IsModal]⟩
    simpa [hend] using h.ends
  | g00 coords m05 touch m05' touch' coordinates hvalid =>
    obtain ⟨hmode, hindex, hfeed⟩ := h.valid hend hvalid
    refine ⟨h.setsNothing hend (by simp [IsProgramEnd, g00Command]) rfl rfl rfl, fun _ => ?_⟩
    exact ⟨_, _, _, hmode, hindex, hfeed, rfl, fun _ => rfl, fun _ => rfl⟩
  | g01 coords options options' coordinates hvalid =>
    obtain ⟨hmode, hindex, hfeed⟩ := h.valid hend hvalid
    refine ⟨h.setsNothing hend (by simp [IsProgramEnd, g01Command]) rfl rfl rfl, fun _ => ?_⟩
    exact ⟨_, _, _, hmode, hindex, hfeed, rfl, fun _ => rfl, by simp [g01Command]⟩
  | g01Group points hvalid =>
    obtain ⟨hmode, hindex, hfeed⟩ := h.valid hend hvalid
    refine ⟨h.setsNothing hend (by simp [IsProgramEnd, g01GroupCommand]) rfl rfl rfl, fun _ => ?_⟩
    exact ⟨_, _, _, hmode, hindex, hfeed, rfl, by simp [g01GroupCommand], by simp [g01GroupCommand]⟩
  | other c type fields ht hm hi hf =>
    simp only [modalTypes, List.mem_cons, List.not_mem_nil, or_false, not_or] at ht
    refine ⟨?_, by simp [IsModal, ht]⟩
    have hend' : ¬IsProgramEnd (command type fields) := by simp [IsProgramEnd, ht]
    exact h.setsNothing hend hend' hm hi hf

end Inv

/-- What a call adds to the commands, if it adds one. -/
def Adds (done : List (Call K)) (s s' : RS274Interpreter K) : Prop :=
  s'.commandList = s.commandList ∨ ∃ json, s'.commandList = s.commandList ++ [json] ∧
    (IsModal json → CarriesModal done json)

theorem Inv.after {s : RS274Interpreter K} {done : List (Call K)} (h : Inv done s)
    (c : CallSite × Call K) :
    Inv (done ++ if s.returns c then [c.2] else []) (s.after c) ∧ Adds done s (s.after c) := by
  rcases after_cases s c with ⟨hreturns, hcall⟩ | ⟨hraises, hsame⟩
  · rw [if_pos hreturns]
    generalize s.after c = s' at hcall
    by_cases hend : s.environment.programEndFlag = true
    · unfold call at hcall
      rw [if_pos hend] at hcall
      cases hcall
      exact ⟨h.ended hend c.2, .inl rfl⟩
    · have hend : s.environment.programEndFlag = false := Bool.eq_false_of_not_eq_true hend
      obtain ⟨json, env, he, rfl⟩ := call_emits hend hcall
      obtain ⟨hinv, hmodal⟩ := h.emitted hend he
      exact ⟨hinv, .inr ⟨json, rfl, hmodal⟩⟩
  · rw [if_neg (by simp [hraises]), List.append_nil]
    refine ⟨h.raised hsame, .inl ?_⟩
    obtain ⟨mode, heq⟩ := hsame
    rw [heq]
    rfl

theorem inv_run (cs : List (CallSite × Call K)) :
    Inv (new.returned cs) (Machine.run after new cs) := by
  induction cs using List.reverseRecOn with
  | nil => exact new_inv
  | append_singleton cs c ih =>
    have hrun : Machine.run after new (cs ++ [c]) = (Machine.run after new cs).after c :=
      Machine.run_append
    rw [hrun, returned_append]
    exact (ih.after c).1

end RS274Interpreter

end Rs274

end Edm
