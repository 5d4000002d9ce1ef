import Edm.App.CoordinateSystem
import Edm.App.ProgramFormat
import Mathlib.Data.List.AList

/-!
# The file of the coordinate systems

A `CoordinateManager` is saved as JSON, in millimetres, with the coordinate systems as a list. Three
passes have to agree on the format: the writer (`toJson`), the check and the reader (`fromJson`). The
check may throw as well as refuse, so it has an `Option` for a result; of the reader only success
matters. `json_round_trip` says that what is written passes the check and is read back, and that
whatever passes the check is read.
-/

set_option linter.unusedSectionVars false

namespace Edm

/-- `Coordinate`: the zero point of a coordinate system, with an index of its own. -/
structure Coordinate (K : Type) where
  index : ℕ
  offset : Axis K

/-- `CoordinateManager` as it is stored, the map in the order of its iteration. -/
structure CoordinateTable (K : Type) where
  globalOffset : Axis K
  coordinatesMap : AList fun _ : ℕ => Coordinate K
  softLimits : CoordSoftLimit K

variable {K : Type} [Field K] [LinearOrder K]

/-- `_check_json_has_int`. -/
def checkJsonHasInt (lib : Json.Library K) (jo : List (String × Json K)) (keyName : String)
    (needPositive : Bool) : Option Bool :=
  match jo.lookup keyName with
  | none => some false
  | some j =>
    if !j.isNumber then some false
    else do
      let intValue ← lib.asInteger j
      if needPositive && intValue < 0 then some false
      else
        let x ← lib.asDouble j
        some (x = (intValue : K))

/-- `_check_json_has_vector`. -/
def checkJsonHasVector (lib : Json.Library K) (jo : List (String × Json K)) (keyName : String)
    (vecMinSize : ℕ) : Bool :=
  match (jo.lookup keyName).bind lib.asDoubles with
  | none => false
  | some xs => vecMinSize ≤ xs.length

/-- Six values in millimetres. -/
def axisJson (lib : Json.Library K) (axis : Axis K) : Json K :=
  .array ((List.finRange 6).map fun i => lib.ofDouble (UnitConverter.blu2mm (axis i)))

/-- The first six values, from millimetres. -/
def readAxis (lib : Json.Library K) (arr : List (Json K)) : Option (Axis K) :=
  if (List.finRange 6).all fun i => ((arr[i.val]?).bind lib.asDouble).isSome then
    some fun i => UnitConverter.mm2blu (((arr[i.val]?).bind lib.asDouble).getD 0)
  else none

/-- The six values of a field. -/
def readAxisOf (lib : Json.Library K) (jo : List (String × Json K)) (keyName : String) :
    Option (Axis K) := do
  readAxis lib (← (← jo.lookup keyName).asArray)

namespace Coordinate

variable (lib : Json.Library K)

def toJson (c : Coordinate K) : Json K :=
  .object [("index", lib.ofUnsigned c.index), ("offset", axisJson lib c.offset)]

def checkJson : Json K → Option Bool
  | .object jo => do
    if ← checkJsonHasInt lib jo "index" true then
      some (checkJsonHasVector lib jo "offset" 6)
    else some false
  | _ => some false

def fromJson (j : Json K) : Option (Coordinate K) := do
  let jo ← j.asObject
  let offset ← readAxisOf lib jo "offset"
  let index ← lib.asUnsigned (← jo.lookup "index")
  some ⟨index, offset⟩

end Coordinate

namespace CoordinateTable

variable (lib : Json.Library K)

def softLimitFields (softLimits : CoordSoftLimit K) : List (String × Json K) :=
  [("pos", axisJson lib softLimits.pos), ("neg", axisJson lib softLimits.neg)]

def fields (t : CoordinateTable K) : List (String × Json K) :=
  [("global_offset", axisJson lib t.globalOffset),
    ("coord_offsets", .array (t.coordinatesMap.entries.map fun e => e.2.toJson lib)),
    ("soft_limit", .object (softLimitFields lib t.softLimits))]

def toJson (t : CoordinateTable K) : Json K := .object (t.fields lib)

/-- The loop of the check over the coordinate systems, `seen` being `index_set`. -/
def checkCoordinates (seen : List ℕ) : List (Json K) → Option Bool
  | [] => some true
  | j :: js => do
    if ← Coordinate.checkJson lib j then
      let c ← Coordinate.fromJson lib j
      if c.index ∈ seen then some false else checkCoordinates (c.index :: seen) js
    else some false

/-- The part of the check that is about `soft_limit`. -/
def checkSoftLimit (jo : List (String × Json K)) : Option Bool :=
  match jo.lookup "soft_limit" with
  | some (.object so) =>
    if !checkJsonHasVector lib so "pos" 6 then some false
    else if !checkJsonHasVector lib so "neg" 6 then some false
    else do
      let posVec ← lib.asDoubles (← so.lookup "pos")
      let negVec ← lib.asDoubles (← so.lookup "neg")
      some ((List.range 6).all fun i => !(posVec.getD i 0 < negVec.getD i 0))
  | _ => some false

def checkJson : Json K → Option Bool
  | .object jo =>
    if !checkJsonHasVector lib jo "global_offset" 6 then some false
    else
      match jo.lookup "coord_offsets" with
      | some (.array arr) =>
        if arr.isEmpty then some false
        else do
          if ← checkCoordinates lib [] arr then checkSoftLimit lib jo else some false
      | _ => some false
  | _ => some false

/-- The loop of the reader. -/
def loadCoordinates (coordMap : AList fun _ : ℕ => Coordinate K) :
    List (Json K) → Option (AList fun _ : ℕ => Coordinate K)
  | [] => some coordMap
  | j :: js => do
    let c ← Coordinate.fromJson lib j
    if c.index ∈ coordMap then none else loadCoordinates (coordMap.insert c.index c) js

def setSoftLimits (t : CoordinateTable K) (softLimits : CoordSoftLimit K) :
    Option (CoordinateTable K) :=
  if ∃ i, softLimits.pos i < softLimits.neg i then none else some { t with softLimits }

/-- The limits of a new manager: the initializer of the array names the first axis only. -/
def defaultSoftLimits : CoordSoftLimit K where
  pos i := if i = 0 then 1000000 else 0
  neg i := if i = 0 then -1000000 else 0

/-- `none` where the reader throws or returns `false`. -/
def fromJson (j : Json K) : Option (CoordinateTable K) := do
  let jo ← j.asObject
  let jsoftLimit ← (← jo.lookup "soft_limit").asObject
  let globalOffset ← readAxisOf lib jo "global_offset"
  let coordinatesMap ← loadCoordinates lib ∅ (← (← jo.lookup "coord_offsets").asArray)
  let pos ← readAxisOf lib jsoftLimit "pos"
  let neg ← readAxisOf lib jsoftLimit "neg"
  setSoftLimits ⟨globalOffset, coordinatesMap, defaultSoftLimits⟩ ⟨pos, neg⟩

/-- `LoadFromJsonFile`, once the file is parsed. -/
def load (j : Json K) : Option (CoordinateTable K) := do
  if ← checkJson lib j then fromJson lib j else none

/-- There is a coordinate system, each carries the index it is stored under, and the limits are in
order. -/
structure Sound (t : CoordinateTable K) : Prop where
  nonempty : t.coordinatesMap.entries ≠ []
  index : ∀ i c, t.coordinatesMap.lookup i = some c → c.index = i ∧ i < 2 ^ 31
  limits : ∀ i, t.softLimits.neg i ≤ t.softLimits.pos i

end CoordinateTable

variable [IsStrictOrderedRing K] {lib : Json.Library K}

/-! ### Lists of numbers -/

@[simp] theorem mm2blu_blu2mm (x : K) : UnitConverter.mm2blu (UnitConverter.blu2mm x) = x := by
  have h : (1000 : K) ≠ 0 := by norm_num
  simp only [UnitConverter.mm2blu, UnitConverter.blu2mm, UnitConverter.mm2blu_,
    UnitConverter.blu2mm_, UnitConverter.blu2um_, UnitConverter.um2mm_, UnitConverter.um2blu_]
  field_simp

/-- The numbers a list of six values is read as. -/
theorem asDoubles_axisJson (h : lib.Faithful) (axis : Axis K) :
    lib.asDoubles (axisJson lib axis) =
      some ((List.finRange 6).map fun i => UnitConverter.blu2mm (axis i)) := by
  refine h.asDoubles_iff.mpr ⟨_, rfl, ?_⟩
  rw [List.mapM_map]
  simp only [Function.comp_def, h.asDouble_ofDouble]
  exact List.mapM_pure

theorem readAxis_axisJson (h : lib.Faithful) (axis : Axis K) {arr : List (Json K)}
    (harr : axisJson lib axis = .array arr) : readAxis lib arr = some axis := by
  obtain rfl := Json.array.inj harr
  have hget : ∀ i : Fin 6, ((((List.finRange 6).map fun i =>
      lib.ofDouble (UnitConverter.blu2mm (axis i)))[i.val]?).bind lib.asDouble) =
      some (UnitConverter.blu2mm (axis i)) := by
    intro i
    rw [List.getElem?_map, List.getElem?_eq_getElem (by simp)]
    simp [h.asDouble_ofDouble]
  simp only [readAxis, hget, Option.isSome_some, List.all_eq_true, implies_true, if_true,
    Option.getD_some, mm2blu_blu2mm]

/-- A written field is read back. -/
theorem readAxisOf_axisJson (h : lib.Faithful) {axis : Axis K} {jo : List (String × Json K)}
    {keyName : String} (hj : jo.lookup keyName = some (axisJson lib axis)) :
    readAxisOf lib jo keyName = some axis := by
  rw [readAxisOf, hj]
  exact readAxis_axisJson h axis rfl

/-- A field the check accepts as a list of six numbers is read, and what is read are its numbers. -/
theorem readAxisOf_of_checkJsonHasVector (h : lib.Faithful) {jo : List (String × Json K)}
    {keyName : String} (hc : checkJsonHasVector lib jo keyName 6 = true) :
    ∃ j xs, jo.lookup keyName = some j ∧ lib.asDoubles j = some xs ∧
      readAxisOf lib jo keyName = some fun i => UnitConverter.mm2blu (xs.getD i.val 0) := by
  unfold checkJsonHasVector at hc
  split at hc
  · cases hc
  · rename_i xs hxs
    have hlen : 6 ≤ xs.length := by simpa using hc
    obtain ⟨j, hj, hxs⟩ := Option.bind_eq_some_iff.mp hxs
    obtain ⟨arr, rfl, hmap⟩ := h.asDoubles_iff.mp hxs
    have hget : ∀ i : Fin 6, (arr[i.val]?).bind lib.asDouble = some (xs.getD i.val 0) := by
      intro i
      have hi : i.val < xs.length := by omega
      rw [Json.getElem?_of_mapM hmap, List.getD_eq_getElem?_getD, List.getElem?_eq_getElem hi]
      rfl
    refine ⟨.array arr, xs, hj, hxs, ?_⟩
    rw [readAxisOf, hj]
    simp only [Option.bind_eq_bind, Option.bind_some, Json.asArray, readAxis, hget,
      Option.isSome_some, List.all_eq_true, implies_true, if_true, Option.getD_some]

/-! ### One coordinate system -/

/-- An accepted index reads as an unsigned number below `2 ^ 31`. -/
theorem asUnsigned_of_checkJsonHasInt (h : lib.Faithful) {jo : List (String × Json K)}
    {keyName : String} (hc : checkJsonHasInt lib jo keyName true = some true) :
    ∃ j n, jo.lookup keyName = some j ∧ lib.asUnsigned j = some n ∧ n < 2 ^ 31 := by
  unfold checkJsonHasInt at hc
  cases hj : jo.lookup keyName with
  | none => simp [hj] at hc
  | some j =>
    simp only [hj] at hc
    split at hc
    · simp at hc
    · cases hn : lib.asInteger j with
      | none => simp [hn] at hc
      | some n =>
        simp only [hn, Option.bind_eq_bind, Option.bind_some, Bool.true_and] at hc
        split at hc
        · simp at hc
        · rename_i hneg
          have h0 : 0 ≤ n := by simpa using hneg
          cases hx : lib.asDouble j with
          | none => simp [hx] at hc
          | some x =>
            have hxn : x = (n : K) := by simpa [hx] using hc
            have hlt := (h.asInteger_inInt hn).2
            exact ⟨j, n.toNat, rfl, h.asUnsigned_whole hn (hx.trans (congrArg some hxn)) h0,
              by omega⟩

namespace Coordinate

/-- What the check accepts is read, with an index below `2 ^ 31`. -/
theorem fromJson_of_checkJson (h : lib.Faithful) {j : Json K} (hc : checkJson lib j = some true) :
    ∃ c, fromJson lib j = some c ∧ c.index < 2 ^ 31 := by
  cases j with
  | object jo =>
    simp only [checkJson, Option.bind_eq_bind, Option.bind_eq_some_iff] at hc
    obtain ⟨b, hint, hvec⟩ := hc
    cases b with
    | false => simp at hvec
    | true =>
      simp only [if_true, Option.some.injEq] at hvec
      obtain ⟨jindex, index, hindex, hunsigned, hlt⟩ := asUnsigned_of_checkJsonHasInt h hint
      obtain ⟨joffset, xs, -, -, hread⟩ := readAxisOf_of_checkJsonHasVector h hvec
      refine ⟨⟨index, fun i => UnitConverter.mm2blu (xs.getD i.val 0)⟩, ?_, hlt⟩
      simp only [fromJson, Json.asObject, hindex, hread, hunsigned, Option.bind_eq_bind,
        Option.bind_some]
  | _ => simp [checkJson] at hc

theorem checkJson_toJson (h : lib.Faithful) {c : Coordinate K} (hlt : c.index < 2 ^ 31) :
    checkJson lib (c.toJson lib) = some true := by
  have hint : lib.asInteger (lib.ofUnsigned c.index) = some (c.index : ℤ) :=
    h.asInteger_ofUnsigned ⟨by omega, by omega⟩
  have hnumber : (lib.ofUnsigned c.index).isNumber = true := by
    by_contra hno
    rw [h.asInteger_other (by simpa using hno)] at hint
    cases hint
  have hnonneg : ¬(c.index : ℤ) < 0 := by omega
  simp [checkJson, toJson, checkJsonHasInt, checkJsonHasVector, hnumber, hint,
    h.asDouble_ofUnsigned, hnonneg, asDoubles_axisJson h, List.lookup]

theorem fromJson_toJson (h : lib.Faithful) {c : Coordinate K} (hlt : c.index < 2 ^ 31) :
    fromJson lib (c.toJson lib) = some c := by
  have hunsigned : lib.asUnsigned (lib.ofUnsigned c.index) = some c.index := by
    have hint := h.asInteger_ofUnsigned (n := c.index) ⟨by omega, by omega⟩
    simpa using h.asUnsigned_whole hint (h.asDouble_ofUnsigned c.index) (by omega)
  have hlook : [("index", lib.ofUnsigned c.index), ("offset", axisJson lib c.offset)].lookup
      "index" = some (lib.ofUnsigned c.index) := rfl
  have hoffset : readAxisOf lib [("index", lib.ofUnsigned c.index),
      ("offset", axisJson lib c.offset)] "offset" = some c.offset := readAxisOf_axisJson h rfl
  simp only [fromJson, toJson, Json.asObject, hlook, hunsigned, hoffset, Option.bind_eq_bind,
    Option.bind_some]

end Coordinate

namespace CoordinateTable

/-! ### The list of coordinate systems -/

/-- Every coordinate is stored under its index, and the index is one. -/
def KeysMatch (m : AList fun _ : ℕ => Coordinate K) : Prop :=
  ∀ i c, m.lookup i = some c → c.index = i ∧ i < 2 ^ 31

theorem KeysMatch.insert {m : AList fun _ : ℕ => Coordinate K} (hm : KeysMatch m)
    {c : Coordinate K} (hc : c.index < 2 ^ 31) : KeysMatch (m.insert c.index c) := by
  intro i d hd
  by_cases hi : i = c.index
  · subst hi
    rw [AList.lookup_insert] at hd
    obtain rfl := Option.some.inj hd
    exact ⟨rfl, hc⟩
  · rw [AList.lookup_insert_ne hi] at hd
    exact hm i d hd

/-- The reader stores what the check has let through: the set of the check has the keys of the map
of the reader. -/
theorem loadCoordinates_of_checkCoordinates (h : lib.Faithful) {js : List (Json K)}
    {seen : List ℕ} {m : AList fun _ : ℕ => Coordinate K} (hm : KeysMatch m)
    (hseen : ∀ i, i ∈ m ↔ i ∈ seen) (hc : checkCoordinates lib seen js = some true) :
    ∃ m', loadCoordinates lib m js = some m' ∧ KeysMatch m' ∧
      m'.entries.length = m.entries.length + js.length := by
  induction js generalizing seen m with
  | nil => exact ⟨m, rfl, hm, rfl⟩
  | cons j js ih =>
    simp only [checkCoordinates, Option.bind_eq_bind, Option.bind_eq_some_iff] at hc
    obtain ⟨b, hcheck, hc⟩ := hc
    cases b with
    | false => simp at hc
    | true =>
      obtain ⟨c, hread, hlt⟩ := Coordinate.fromJson_of_checkJson h hcheck
      simp only [if_true, hread, Option.bind_some] at hc
      split at hc
      · simp at hc
      · rename_i hnew
        have hnew' : c.index ∉ m := fun hmem => hnew ((hseen c.index).mp hmem)
        obtain ⟨m', hload, hkeys, hlen⟩ := ih (hm.insert hlt)
          (fun i => by rw [AList.mem_insert, List.mem_cons, hseen]) hc
        refine ⟨m', ?_, hkeys, ?_⟩
        · simpa only [loadCoordinates, hread, Option.bind_eq_bind, Option.bind_some,
            if_neg hnew'] using hload
        · rw [hlen, AList.entries_insert_of_notMem hnew', List.length_cons, List.length_cons]
          omega

/-- The written list is accepted where the indexes differ. -/
theorem checkCoordinates_toJson (h : lib.Faithful) {cs : List (Coordinate K)} {seen : List ℕ}
    (hlt : ∀ c ∈ cs, c.index < 2 ^ 31) (hnodup : (cs.map (·.index)).Nodup)
    (hseen : ∀ c ∈ cs, c.index ∉ seen) :
    checkCoordinates lib seen (cs.map (Coordinate.toJson lib)) = some true := by
  induction cs generalizing seen with
  | nil => rfl
  | cons c cs ih =>
    have hc := hlt c (List.mem_cons_self ..)
    rw [List.map_cons, List.nodup_cons] at hnodup
    have hseen' : ∀ d ∈ cs, d.index ∉ c.index :: seen := by
      intro d hd hmem
      rcases List.mem_cons.mp hmem with heq | hmem
      · exact hnodup.1 (heq ▸ List.mem_map_of_mem hd)
      · exact hseen d (List.mem_cons_of_mem c hd) hmem
    have hrest := ih (fun d hd => hlt d (List.mem_cons_of_mem c hd)) hnodup.2 hseen'
    simp only [List.map_cons, checkCoordinates, Coordinate.checkJson_toJson h hc,
      Coordinate.fromJson_toJson h hc, Option.bind_eq_bind, Option.bind_some, if_true,
      if_neg (hseen c (List.mem_cons_self ..)), hrest]

/-- The written list is read back into a map with the same lookups. -/
theorem loadCoordinates_toJson (h : lib.Faithful) {es : List (Sigma fun _ : ℕ => Coordinate K)}
    {m : AList fun _ : ℕ => Coordinate K} (hkeys : ∀ e ∈ es, e.2.index = e.1 ∧ e.1 < 2 ^ 31)
    (hnodup : es.NodupKeys) (hnew : ∀ e ∈ es, e.1 ∉ m) :
    ∃ m', loadCoordinates lib m (es.map fun e => e.2.toJson lib) = some m' ∧
      ∀ i, m'.lookup i = (List.dlookup i es).or (m.lookup i) := by
  induction es generalizing m with
  | nil => exact ⟨m, rfl, fun i => by simp⟩
  | cons e es ih =>
    obtain ⟨i, c⟩ := e
    obtain ⟨hci, hlt⟩ := hkeys ⟨i, c⟩ (List.mem_cons_self ..)
    obtain rfl : c.index = i := hci
    obtain ⟨hfresh, hnodup⟩ := List.nodupKeys_cons.mp hnodup
    have hc : c.index ∉ m := hnew _ (List.mem_cons_self ..)
    have hnew' : ∀ e ∈ es, e.1 ∉ m.insert c.index c := by
      intro e he hmem
      rcases (AList.mem_insert m).mp hmem with heq | hmem
      · have hmem := List.mem_keys_of_mem he
        rw [heq] at hmem
        exact hfresh hmem
      · exact hnew e (List.mem_cons_of_mem _ he) hmem
    obtain ⟨m', hload, hlookup⟩ :=
      ih (fun e he => hkeys e (List.mem_cons_of_mem _ he)) hnodup hnew'
    refine ⟨m', ?_, fun i => ?_⟩
    · simpa only [List.map_cons, loadCoordinates, Coordinate.fromJson_toJson h hlt,
        Option.bind_eq_bind, Option.bind_some, if_neg hc] using hload
    · rw [hlookup i]
      by_cases hi : i = c.index
      · subst hi
        rw [List.dlookup_eq_none.mpr hfresh, AList.lookup_insert, List.dlookup_cons_eq]
        rfl
      · rw [AList.lookup_insert_ne hi, List.dlookup_cons_ne es ⟨c.index, c⟩ hi]

/-! ### The whole file -/

/-- The limits compare in millimetres as they do in drive units. -/
theorem mm2blu_lt_mm2blu {x y : K} :
    UnitConverter.mm2blu x < UnitConverter.mm2blu y ↔ x < y := by
  have h : (0 : K) < UnitConverter.mm2blu_ := by simp [UnitConverter.mm2blu_, UnitConverter.um2blu_]
  exact mul_lt_mul_iff_left₀ h

/-- Accepted limits are read, and they are in order. -/
theorem limits_of_checkSoftLimit (h : lib.Faithful) {jo : List (String × Json K)}
    (hc : checkSoftLimit lib jo = some true) :
    ∃ so pos neg, jo.lookup "soft_limit" = some (.object so) ∧
      readAxisOf lib so "pos" = some pos ∧ readAxisOf lib so "neg" = some neg ∧
      ∀ i, neg i ≤ pos i := by
  unfold checkSoftLimit at hc
  split at hc
  · rename_i so hso
    split at hc
    · simp at hc
    · rename_i hp
      split at hc
      · simp at hc
      · rename_i hn
        obtain ⟨jp, ps, hjp, hps, hpos⟩ := readAxisOf_of_checkJsonHasVector h (by simpa using hp)
        obtain ⟨jn, ns, hjn, hns, hneg⟩ := readAxisOf_of_checkJsonHasVector h (by simpa using hn)
        refine ⟨so, _, _, hso, hpos, hneg, fun i => ?_⟩
        simp only [hjp, hjn, hps, hns, Option.bind_eq_bind, Option.bind_some, Option.some.injEq,
          List.all_eq_true, List.mem_range, Bool.not_eq_true', decide_eq_false_iff_not] at hc
        exact not_lt.mp fun hlt => hc i.val i.isLt (mm2blu_lt_mm2blu.mp hlt)
  · simp at hc

theorem checkSoftLimit_softLimitFields (h : lib.Faithful) {sl : CoordSoftLimit K}
    (hle : ∀ i, sl.neg i ≤ sl.pos i) {jo : List (String × Json K)}
    (hjo : jo.lookup "soft_limit" = some (.object (softLimitFields lib sl))) :
    checkSoftLimit lib jo = some true := by
  have hp := asDoubles_axisJson h sl.pos
  have hn := asDoubles_axisJson h sl.neg
  have hlookp : (softLimitFields lib sl).lookup "pos" = some (axisJson lib sl.pos) := rfl
  have hlookn : (softLimitFields lib sl).lookup "neg" = some (axisJson lib sl.neg) := rfl
  have hge : ∀ i < 6, ¬((List.finRange 6).map fun i => UnitConverter.blu2mm (sl.pos i)).getD i 0 <
      ((List.finRange 6).map fun i => UnitConverter.blu2mm (sl.neg i)).getD i 0 := by
    intro i hi
    have h := hle ⟨i, hi⟩
    simp only [List.getD_eq_getElem?_getD, List.getElem?_map,
      List.getElem?_eq_getElem (l := List.finRange 6) (i := i) (by simpa using hi),
      List.getElem_finRange, Option.map_some, Option.getD_some]
    rw [← mm2blu_lt_mm2blu, mm2blu_blu2mm, mm2blu_blu2mm]
    exact not_lt.mpr h
  simp only [checkSoftLimit, hjo, checkJsonHasVector, hlookp, hlookn, hp, hn, Option.bind_eq_bind,
    Option.bind_some, List.length_map, List.length_finRange, le_refl, decide_true, Bool.not_true,
    Bool.false_eq_true, if_false, Option.some.injEq, List.all_eq_true, List.mem_range,
    Bool.not_eq_true', decide_eq_false_iff_not]
  exact hge

/-- The reader succeeds where every part is there and the limits are in order. -/
theorem fromJson_eq {jo so : List (String × Json K)} {carr : List (Json K)}
    {globalOffset pos neg : Axis K} {m : AList fun _ : ℕ => Coordinate K}
    (hjs : jo.lookup "soft_limit" = some (.object so))
    (hg : readAxisOf lib jo "global_offset" = some globalOffset)
    (hjc : jo.lookup "coord_offsets" = some (.array carr))
    (hc : loadCoordinates lib ∅ carr = some m) (hp : readAxisOf lib so "pos" = some pos)
    (hn : readAxisOf lib so "neg" = some neg) (hle : ∀ i, neg i ≤ pos i) :
    fromJson lib (.object jo) = some ⟨globalOffset, m, ⟨pos, neg⟩⟩ := by
  have hset : ¬∃ i, pos i < neg i := fun ⟨i, hi⟩ => absurd (hle i) (not_le.mpr hi)
  simp only [fromJson, Json.asObject, Json.asArray, hjs, hg, hjc, hc, hp, hn,
    Option.bind_eq_bind, Option.bind_some]
  exact if_neg hset

/-- Whatever the check accepts is read, and the state is sound. -/
theorem fromJson_of_checkJson (h : lib.Faithful) {j : Json K} (hc : checkJson lib j = some true) :
    ∃ t, fromJson lib j = some t ∧ t.Sound := by
  cases j with
  | object jo =>
    simp only [checkJson] at hc
    split at hc
    · simp at hc
    · rename_i hglobal
      split at hc
      · rename_i arr harr
        split at hc
        · simp at hc
        · rename_i hne
          simp only [Option.bind_eq_bind, Option.bind_eq_some_iff] at hc
          obtain ⟨b, hcoords, hlimits⟩ := hc
          cases b with
          | false => simp at hlimits
          | true =>
            simp only [if_true] at hlimits
            obtain ⟨_, _, -, -, hg⟩ := readAxisOf_of_checkJsonHasVector h (by simpa using hglobal)
            obtain ⟨so, pos, neg, hso, hpos, hneg, hle⟩ := limits_of_checkSoftLimit h hlimits
            obtain ⟨m, hload, hkeys, hlen⟩ :=
              loadCoordinates_of_checkCoordinates h (m := ∅) (fun i c hi => by simp at hi)
                (fun i => by simp) hcoords
            have hfirst : m.entries ≠ [] := by
              intro hnil
              simp only [hnil, List.length_nil, AList.empty_entries, Nat.zero_add] at hlen
              exact hne (List.isEmpty_iff_length_eq_zero.mpr hlen.symm)
            exact ⟨_, fromJson_eq hso hg harr hload hpos hneg hle,
              ⟨hfirst, hkeys, hle⟩⟩
      · simp at hc
  | _ => simp [checkJson] at hc

variable {t : CoordinateTable K}

/-- The coordinates of a sound manager, with their indexes. -/
theorem Sound.entries (ht : t.Sound) :
    (∀ e ∈ t.coordinatesMap.entries, e.2.index = e.1 ∧ e.1 < 2 ^ 31) ∧
      ((t.coordinatesMap.entries.map (·.2)).map (·.index)).Nodup := by
  have hkeys : ∀ e ∈ t.coordinatesMap.entries, e.2.index = e.1 ∧ e.1 < 2 ^ 31 := fun e he =>
    ht.index e.1 e.2 (AList.mem_lookup_iff.mpr he)
  refine ⟨hkeys, ?_⟩
  have hidx : (t.coordinatesMap.entries.map (·.2)).map (·.index) =
      t.coordinatesMap.entries.keys := by
    rw [List.map_map]
    exact List.map_congr_left fun e he => (hkeys e he).1
  rw [hidx]
  exact t.coordinatesMap.nodupKeys

theorem checkJson_toJson (h : lib.Faithful) (ht : t.Sound) :
    checkJson lib (t.toJson lib) = some true := by
  obtain ⟨hkeys, hnodup⟩ := ht.entries
  have hlt : ∀ c ∈ t.coordinatesMap.entries.map (·.2), c.index < 2 ^ 31 := by
    intro c hc
    obtain ⟨e, he, rfl⟩ := List.mem_map.mp hc
    exact (hkeys e he).1 ▸ (hkeys e he).2
  have hcoords := checkCoordinates_toJson h hlt hnodup (fun _ _ => List.not_mem_nil)
  rw [List.map_map] at hcoords
  have hne : (t.coordinatesMap.entries.map fun e => e.2.toJson lib).isEmpty = false := by
    simpa using ht.nonempty
  have hlookc : (t.fields lib).lookup "coord_offsets" =
      some (.array (t.coordinatesMap.entries.map fun e => e.2.toJson lib)) := rfl
  have hlookg : (t.fields lib).lookup "global_offset" = some (axisJson lib t.globalOffset) := rfl
  have hglobal : checkJsonHasVector lib (t.fields lib) "global_offset" 6 = true := by
    simp [checkJsonHasVector, hlookg, asDoubles_axisJson h]
  have hlimits : checkSoftLimit lib (t.fields lib) = some true :=
    checkSoftLimit_softLimitFields h ht.limits rfl
  simp only [toJson, checkJson, hglobal, Bool.not_true, Bool.false_eq_true, if_false, hlookc, hne]
  rw [show (fun e : Sigma fun _ : ℕ => Coordinate K => e.2.toJson lib) =
    Coordinate.toJson lib ∘ (·.2) from rfl, hcoords]
  exact hlimits

/-- A sound manager is accepted, and read back. -/
theorem load_toJson (h : lib.Faithful) (ht : t.Sound) :
    ∃ t', load lib (t.toJson lib) = some t' ∧ t'.globalOffset = t.globalOffset ∧
      (∀ i, t'.coordinatesMap.lookup i = t.coordinatesMap.lookup i) ∧
      t'.softLimits = t.softLimits := by
  obtain ⟨m, hload, hlookup⟩ := loadCoordinates_toJson h ht.entries.1 t.coordinatesMap.nodupKeys
    (m := ∅) (fun e _ => AList.notMem_empty e.1)
  have hread : fromJson lib (t.toJson lib) = some ⟨t.globalOffset, m, t.softLimits⟩ :=
    fromJson_eq rfl (readAxisOf_axisJson h rfl) rfl hload (readAxisOf_axisJson h rfl)
      (readAxisOf_axisJson h rfl) ht.limits
  refine ⟨⟨t.globalOffset, m, t.softLimits⟩, ?_, rfl, fun i => ?_, rfl⟩
  · rw [load, checkJson_toJson h ht]
    exact hread
  · rw [hlookup i, AList.lookup_empty, Option.or_none]
    rfl

/-- Saving and loading gives the same manager back, whatever the order of the map; and whatever the
check accepts is loaded, into a sound manager. -/
theorem json_round_trip (h : lib.Faithful) :
    (∀ t : CoordinateTable K, t.Sound → ∃ t', load lib (t.toJson lib) = some t' ∧
      t'.globalOffset = t.globalOffset ∧
      (∀ i, t'.coordinatesMap.lookup i = t.coordinatesMap.lookup i) ∧
      t'.softLimits = t.softLimits) ∧
    ∀ j, checkJson lib j = some true → ∃ t, fromJson lib j = some t ∧ t.Sound :=
  ⟨fun _ ht => load_toJson h ht, fun _ hc => fromJson_of_checkJson h hc⟩

/-! ### The coordinate system it is for -/

/-- The manager the rest of the program works with. -/
def toManager (t : CoordinateTable K) : CoordinateManager K where
  globalOffset := t.globalOffset
  coordinatesMap i := (t.coordinatesMap.lookup i).map (·.offset)
  softLimits := t.softLimits

/-- A loaded manager has a coordinate system to start in, and with any of them the caches are in
step. -/
theorem toManager_new_inSync (h : lib.Faithful) {j : Json K} (hload : load lib j = some t) :
    (∃ i, t.toManager.existCoordinateIndex i) ∧
      ∀ i, t.toManager.existCoordinateIndex i → (CoordinateSystem.new t.toManager i).InSync := by
  refine ⟨?_, fun i hi => CoordinateSystem.new_inSync hi⟩
  simp only [load, Option.bind_eq_bind, Option.bind_eq_some_iff] at hload
  obtain ⟨b, hcheck, hread⟩ := hload
  cases b with
  | false => simp at hread
  | true =>
    obtain ⟨t', ht', hsound⟩ := fromJson_of_checkJson h hcheck
    obtain rfl : t' = t := Option.some.inj (ht'.symm.trans (by simpa using hread))
    obtain ⟨e, he⟩ := List.exists_mem_of_ne_nil _ hsound.nonempty
    have hlook : t'.coordinatesMap.lookup e.1 = some e.2 := AList.mem_lookup_iff.mpr he
    exact ⟨e.1, by simp [CoordinateManager.existCoordinateIndex, toManager, hlook]⟩

/-- A library that reads and writes without loss. -/
def exactLibrary : Json.Library ℚ where
  toReader := exactReader
  asUnsigned
    | .int n => if 0 ≤ n ∧ n < 2 ^ 32 then some n.toNat else none
    | _ => none
  asDoubles
    | .array values => values.mapM exactReader.asDouble
    | _ => none
  ofUnsigned n := .int n
  ofDouble x := .real x

theorem exactLibrary_faithful : exactLibrary.Faithful where
  toFaithful := exactReader_faithful
  asUnsigned_whole {j n} hn _ h0 := by
    have hint := exactReader_faithful.asInteger_inInt hn
    cases j with
    | int m =>
      simp only [exactLibrary, exactReader] at hn ⊢
      split at hn
      · obtain rfl := Option.some.inj hn
        have hlt : m < 2 ^ 32 := lt_trans hint.2 (by norm_num)
        rw [if_pos ⟨h0, hlt⟩]
      · cases hn
    | _ => simp [exactLibrary, exactReader] at hn
  asDoubles_iff {j xs} := by cases j <;> simp [exactLibrary]
  asInteger_ofUnsigned hn := exactReader_faithful.asInteger_int hn
  asDouble_ofUnsigned _ := rfl
  asDouble_ofDouble _ := rfl

/-- Two coordinate systems and their limits. -/
def shopTable : CoordinateTable ℚ where
  globalOffset := fun _ => 5 / 2
  coordinatesMap := ⟨[⟨55, ⟨55, fun _ => 7⟩⟩, ⟨54, ⟨54, fun _ => 0⟩⟩], by simp [List.NodupKeys, List.keys]⟩
  softLimits := ⟨fun _ => 1000, fun _ => -1000⟩

theorem shopTable_sound : shopTable.Sound where
  nonempty := List.cons_ne_nil _ _
  index i c hi := by
    have he : ⟨i, c⟩ ∈ shopTable.coordinatesMap.entries := AList.mem_lookup_iff.mp hi
    simp only [shopTable, List.mem_cons, List.not_mem_nil, or_false] at he
    rcases he with he | he <;> cases he <;> decide
  limits _ := by simp only [shopTable]; norm_num

theorem shopTable_round_trip :
    (∃ t', load exactLibrary (shopTable.toJson exactLibrary) = some t' ∧
      t'.globalOffset = shopTable.globalOffset ∧
      (∀ i, t'.coordinatesMap.lookup i = shopTable.coordinatesMap.lookup i) ∧
      t'.softLimits = shopTable.softLimits) ∧
    ∃ t, fromJson exactLibrary (shopTable.toJson exactLibrary) = some t ∧ t.Sound :=
  ⟨(json_round_trip exactLibrary_faithful).1 shopTable shopTable_sound,
    (json_round_trip exactLibrary_faithful).2 _
      (checkJson_toJson exactLibrary_faithful shopTable_sound)⟩

end CoordinateTable

end Edm
