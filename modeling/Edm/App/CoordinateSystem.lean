import Edm.App.Coordinate
import Edm.Lib.Run

/-!
# The current coordinates

`CoordinateSystem` keeps the positions of the machine and of the current coordinate system,
commanded and actual, in four caches. New motor positions refresh all of them, a new index those of
the coordinate system, a new global offset only those of the machine, and a new offset of a
coordinate system none. The caches stay in step exactly while no operation changes an offset they
depend on (`caches_in_sync_iff`).
-/

set_option linter.unusedSectionVars false

namespace Edm

structure CoordinateSystem (K : Type) where
  cm : CoordinateManager K
  currMotorAxis : Axis K
  currMotorAxisAct : Axis K
  currMachineAxisCache : Axis K
  currMachineAxisCacheAct : Axis K
  currCoordIndex : ℕ
  currCoordAxisCache : Axis K
  currCoordAxisCacheAct : Axis K
  currUsingVOffsets : Axis K

namespace CoordinateSystem

variable {K : Type} [Field K]

def updateMachineAxisCache (s : CoordinateSystem K) : CoordinateSystem K :=
  { s with
    currMachineAxisCache := s.cm.motorToMachine s.currMotorAxis
    currMachineAxisCacheAct := s.cm.motorToMachine s.currMotorAxisAct }

/-- Without the index the conversion leaves the caches as they are. -/
def updateCoordAxisCache (s : CoordinateSystem K) : CoordinateSystem K :=
  { s with
    currCoordAxisCache :=
      (s.cm.motorToCoord s.currCoordIndex s.currMotorAxis).getD s.currCoordAxisCache
    currCoordAxisCacheAct :=
      (s.cm.motorToCoord s.currCoordIndex s.currMotorAxisAct).getD s.currCoordAxisCacheAct }

/-- The constructor, once the manager is read: `index` is the first one of the map, in no
particular order. -/
def new (cm : CoordinateManager K) (index : ℕ) : CoordinateSystem K :=
  updateCoordAxisCache <| updateMachineAxisCache
    { cm := cm
      currMotorAxis := 0
      currMotorAxisAct := 0
      currMachineAxisCache := 0
      currMachineAxisCacheAct := 0
      currCoordIndex := index
      currCoordAxisCache := 0
      currCoordAxisCacheAct := 0
      currUsingVOffsets := 0 }

def updateMotorPos (s : CoordinateSystem K) (newMotorPos newMotorPosAct : Axis K) :
    CoordinateSystem K :=
  updateCoordAxisCache <| updateMachineAxisCache
    { s with currMotorAxis := newMotorPos, currMotorAxisAct := newMotorPosAct }

def setCoordIndex (s : CoordinateSystem K) (newCoordIndex : ℕ) : CoordinateSystem K :=
  if s.cm.existCoordinateIndex newCoordIndex then
    updateCoordAxisCache { s with currCoordIndex := newCoordIndex }
  else s

/-- `get_coord_axis`: `none` where it returns `false`. -/
def getCoordAxis (s : CoordinateSystem K) (coordIndex : ℕ) : Option (Axis K) :=
  if coordIndex = s.currCoordIndex then some s.currCoordAxisCache
  else s.cm.motorToCoord coordIndex s.currMotorAxis

def setCoordOffset (s : CoordinateSystem K) (index : ℕ) (offset : Axis K) : CoordinateSystem K :=
  match s.cm.setCoordOffset index offset with
  | some cm => { s with cm }
  | none => s

def setCurrentCoordOffset (s : CoordinateSystem K) (offset : Axis K) : CoordinateSystem K :=
  match s.cm.setCoordOffset s.currCoordIndex offset with
  | some cm => { s with cm }
  | none => s

def setGlobalOffset (s : CoordinateSystem K) (offset : Axis K) : CoordinateSystem K :=
  updateMachineAxisCache { s with cm := s.cm.setGlobalOffset offset }

def setSoftLimits [LinearOrder K] (s : CoordinateSystem K) (softLimits : CoordSoftLimit K) :
    CoordinateSystem K :=
  match s.cm.setSoftLimits softLimits with
  | some cm => { s with cm }
  | none => s

/-- The public operations that change something. -/
inductive Op (K : Type) where
  | updateMotorPos (newMotorPos newMotorPosAct : Axis K)
  | updateCurrentVoffsets (newVOffsets : Axis K)
  | setCoordIndex (newCoordIndex : ℕ)
  | setCurrentCoordOffset (offset : Axis K)
  | setCoordOffset (index : ℕ) (offset : Axis K)
  | setGlobalOffset (offset : Axis K)
  | setSoftLimits (softLimits : CoordSoftLimit K)

variable [LinearOrder K]

def step (s : CoordinateSystem K) : Op K → CoordinateSystem K
  | .updateMotorPos pos act => s.updateMotorPos pos act
  | .updateCurrentVoffsets v => { s with currUsingVOffsets := v }
  | .setCoordIndex index => s.setCoordIndex index
  | .setCurrentCoordOffset offset => s.setCurrentCoordOffset offset
  | .setCoordOffset index offset => s.setCoordOffset index offset
  | .setGlobalOffset offset => s.setGlobalOffset offset
  | .setSoftLimits softLimits => s.setSoftLimits softLimits

/-- The caches hold what a conversion of the last motor positions gives now, and so does whoever
asks for the position in a coordinate system. -/
structure InSync (s : CoordinateSystem K) : Prop where
  machine : s.currMachineAxisCache = s.cm.motorToMachine s.currMotorAxis
  machineAct : s.currMachineAxisCacheAct = s.cm.motorToMachine s.currMotorAxisAct
  coord : s.cm.motorToCoord s.currCoordIndex s.currMotorAxis = some s.currCoordAxisCache
  coordAct : s.cm.motorToCoord s.currCoordIndex s.currMotorAxisAct = some s.currCoordAxisCacheAct
  readers : ∀ index, s.getCoordAxis index = s.cm.motorToCoord index s.currMotorAxis

/-- The operation changes no offset that the coordinates in the caches depend on. -/
def Harmless (s : CoordinateSystem K) : Op K → Prop
  | .setCurrentCoordOffset offset => s.cm.coordinatesMap s.currCoordIndex = some offset
  | .setCoordOffset index offset =>
    index = s.currCoordIndex → s.cm.coordinatesMap s.currCoordIndex = some offset
  | .setGlobalOffset offset => s.cm.globalOffset = offset
  | _ => True

variable {s : CoordinateSystem K}

/-- The current index is one of the map. -/
theorem InSync.hasIndex (h : s.InSync) : ∃ o, s.cm.coordinatesMap s.currCoordIndex = some o := by
  have hcoord := h.coord
  rw [CoordinateManager.motorToCoord, Option.map_eq_some_iff] at hcoord
  obtain ⟨o, ho, -⟩ := hcoord
  exact ⟨o, ho⟩

theorem inSync_of_caches (hm : s.currMachineAxisCache = s.cm.motorToMachine s.currMotorAxis)
    (hma : s.currMachineAxisCacheAct = s.cm.motorToMachine s.currMotorAxisAct)
    (hc : s.cm.motorToCoord s.currCoordIndex s.currMotorAxis = some s.currCoordAxisCache)
    (hca : s.cm.motorToCoord s.currCoordIndex s.currMotorAxisAct =
      some s.currCoordAxisCacheAct) : s.InSync :=
  ⟨hm, hma, hc, hca, fun index => by
    unfold getCoordAxis
    split
    · rename_i heq
      rw [heq, hc]
    · rfl⟩

/-- A refresh of the coordinates of the coordinate system brings them in step. -/
theorem updateCoordAxisCache_inSync
    (hm : s.currMachineAxisCache = s.cm.motorToMachine s.currMotorAxis)
    (hma : s.currMachineAxisCacheAct = s.cm.motorToMachine s.currMotorAxisAct)
    (hindex : s.cm.existCoordinateIndex s.currCoordIndex) : s.updateCoordAxisCache.InSync := by
  obtain ⟨o, ho⟩ := Option.isSome_iff_exists.mp hindex
  refine inSync_of_caches hm hma ?_ ?_ <;>
    simp [updateCoordAxisCache, CoordinateManager.motorToCoord, ho]

theorem new_inSync {cm : CoordinateManager K} {index : ℕ}
    (hindex : cm.existCoordinateIndex index) :
    (new cm index).InSync :=
  updateCoordAxisCache_inSync rfl rfl hindex

/-! ### One operation -/

theorem InSync.updateMotorPos (h : s.InSync) (pos act : Axis K) :
    (s.updateMotorPos pos act).InSync := by
  obtain ⟨o, ho⟩ := h.hasIndex
  refine updateCoordAxisCache_inSync rfl rfl ?_
  exact Option.isSome_iff_exists.mpr ⟨o, ho⟩

theorem InSync.setCoordIndex (h : s.InSync) (index : ℕ) : (s.setCoordIndex index).InSync := by
  unfold CoordinateSystem.setCoordIndex
  split
  · rename_i hindex
    exact updateCoordAxisCache_inSync h.machine h.machineAct hindex
  · exact h

theorem InSync.setSoftLimits (h : s.InSync) (softLimits : CoordSoftLimit K) :
    (s.setSoftLimits softLimits).InSync := by
  unfold CoordinateSystem.setSoftLimits CoordinateManager.setSoftLimits
  split
  · rename_i cm heq
    split at heq
    · cases heq
    · obtain rfl := Option.some.inj heq
      exact ⟨h.machine, h.machineAct, h.coord, h.coordAct, h.readers⟩
  · exact h

/-- A new offset of another coordinate system touches no cache; one of the current system leaves
the caches behind, unless it is the old one. -/
theorem InSync.setCoordOffset_iff (h : s.InSync) (index : ℕ) (offset : Axis K) :
    (s.setCoordOffset index offset).InSync ↔
      (index = s.currCoordIndex → s.cm.coordinatesMap s.currCoordIndex = some offset) := by
  obtain ⟨o, ho⟩ := h.hasIndex
  have hcoord := h.coord
  have hcoordAct := h.coordAct
  simp only [CoordinateManager.motorToCoord, ho, Option.map_some, Option.some.injEq]
    at hcoord hcoordAct
  cases hmap : s.cm.coordinatesMap index with
  | none =>
    have hne : index ≠ s.currCoordIndex := by
      rintro rfl
      simp [hmap] at ho
    simp [CoordinateSystem.setCoordOffset, CoordinateManager.setCoordOffset, hmap, h, hne]
  | some o' =>
    simp only [CoordinateSystem.setCoordOffset, CoordinateManager.setCoordOffset, hmap, ho,
      Option.some.injEq]
    constructor
    · rintro hsync rfl
      have hnew := hsync.coord
      simp only [CoordinateManager.motorToCoord, if_true, Option.map_some, Option.some.injEq,
        ← hcoord] at hnew
      funext i
      have hi := congrFun hnew i
      simpa using hi.symm
    · intro hsame
      by_cases hi : index = s.currCoordIndex
      · obtain rfl := hsame hi
        refine inSync_of_caches h.machine h.machineAct ?_ ?_
        · simp [CoordinateManager.motorToCoord, hi, hcoord]
        · simp [CoordinateManager.motorToCoord, hi, hcoordAct]
      · refine inSync_of_caches h.machine h.machineAct ?_ ?_
        · simp [CoordinateManager.motorToCoord, Ne.symm hi, ho, hcoord]
        · simp [CoordinateManager.motorToCoord, Ne.symm hi, ho, hcoordAct]

theorem InSync.setGlobalOffset_iff (h : s.InSync) (offset : Axis K) :
    (s.setGlobalOffset offset).InSync ↔ s.cm.globalOffset = offset := by
  obtain ⟨o, ho⟩ := h.hasIndex
  have hcoord := h.coord
  simp only [CoordinateManager.motorToCoord, ho, Option.map_some, Option.some.injEq] at hcoord
  constructor
  · intro hsync
    have hnew := hsync.coord
    simp only [CoordinateSystem.setGlobalOffset, updateMachineAxisCache,
      CoordinateManager.setGlobalOffset, CoordinateManager.motorToCoord, ho, Option.map_some,
      Option.some.injEq, ← hcoord] at hnew
    funext i
    have hi := congrFun hnew i
    simpa using hi.symm
  · rintro rfl
    exact inSync_of_caches rfl rfl h.coord h.coordAct

/-- An operation keeps the caches in step exactly if it is harmless. -/
theorem InSync.step_iff (s : CoordinateSystem K) (op : Op K) (h : s.InSync) :
    (s.step op).InSync ↔ s.Harmless op := by
  cases op with
  | updateMotorPos pos act => exact iff_of_true (h.updateMotorPos pos act) trivial
  | updateCurrentVoffsets v =>
    exact iff_of_true ⟨h.machine, h.machineAct, h.coord, h.coordAct, h.readers⟩ trivial
  | setCoordIndex index => exact iff_of_true (h.setCoordIndex index) trivial
  | setCurrentCoordOffset offset =>
    have hiff := h.setCoordOffset_iff s.currCoordIndex offset
    exact hiff.trans ⟨fun hsame => hsame rfl, fun hsame _ => hsame⟩
  | setCoordOffset index offset => exact h.setCoordOffset_iff index offset
  | setGlobalOffset offset => exact h.setGlobalOffset_iff offset
  | setSoftLimits softLimits => exact iff_of_true (h.setSoftLimits softLimits) trivial

/-! ### Runs -/

/-- The caches are in step after every operation exactly if all operations are harmless. -/
theorem caches_in_sync_iff (cm : CoordinateManager K) (index : ℕ)
    (hindex : cm.existCoordinateIndex index) (ops : List (Op K)) :
    (∀ done, done <+: ops → (Machine.run step (new cm index) done).InSync) ↔
      Machine.AllSteps step Harmless (new cm index) ops :=
  Machine.allSteps_iff InSync.step_iff (new_inSync hindex) ops

/-- `G54` alone, without offsets. -/
def g54Manager : CoordinateManager ℚ where
  globalOffset := 0
  coordinatesMap i := if i = 54 then some 0 else none
  softLimits := ⟨fun _ => 1000000, fun _ => -1000000⟩

theorem g54_in_sync_iff :
    (∀ done, done <+: [.updateMotorPos 1 1, .setGlobalOffset 0] →
        (Machine.run step (new g54Manager 54) done).InSync) ↔
      Machine.AllSteps step Harmless (new g54Manager 54)
        [.updateMotorPos 1 1, .setGlobalOffset 0] :=
  caches_in_sync_iff g54Manager 54 (by decide) _

/-- After a new global offset the position in `G54` is the old one. -/
theorem globalOffset_leaves_coord_cache :
    ¬∀ ops done, done <+: ops → (Machine.run step (new g54Manager 54) done).InSync := by
  intro h
  have hsync := (h [.setGlobalOffset 1] _ List.prefix_rfl).coord
  have h0 := congrFun (Option.some.inj hsync) 0
  revert h0
  decide +kernel

end CoordinateSystem

end Edm
