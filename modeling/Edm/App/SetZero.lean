import Edm.App.Ends

/-!
# The zero point of a coordinate system

A `CoordSetZeroCommand` node makes the commanded position the zero point of the current coordinate
system on the axes it selects. The offset of a coordinate system is the machine position of its zero
point (`Coordinate.h`), but the node stores the motor position: on a selected axis the position comes out
as the global offset, taken negative (`runOnce_motorToCoord`). It is zero where there is no global offset.
-/

set_option linter.unusedSectionVars false

namespace Edm

variable {K : Type} [Field K]

namespace CoordinateManager

/-- `cm` became `cm'`: `motor` is now the zero point of the system `index` on `axes`, and no other
coordinate value has changed. -/
structure ZeroedAt (cm cm' : CoordinateManager K) (index : ℕ) (axes : Fin 6 → Bool)
    (motor : Axis K) : Prop where
  zero : ∃ pos, cm'.motorToCoord index motor = some pos ∧ ∀ i, axes i = true → pos i = 0
  others : ∀ j i, ¬(j = index ∧ axes i = true) → ∀ motorAxis,
    (cm'.motorToCoord j motorAxis).map (· i) = (cm.motorToCoord j motorAxis).map (· i)

variable {cm cm' : CoordinateManager K} {index : ℕ}

/-- A new offset is that of its own system, and the other systems keep theirs. -/
theorem motorToCoord_setCoordOffset {offset : Axis K} (h : cm.setCoordOffset index offset = some cm')
    (j : ℕ) (motorAxis : Axis K) :
    cm'.motorToCoord j motorAxis =
      if j = index then some fun i => motorAxis i - cm.globalOffset i - offset i
      else cm.motorToCoord j motorAxis := by
  unfold setCoordOffset at h
  split at h
  · cases h
  · cases h
    unfold motorToCoord
    dsimp only
    split <;> rfl

end CoordinateManager

namespace TaskSystem

variable [LinearOrder K] [FloorRing K] [RealFns K] [Settings] {s : TaskSystem K}

/-! ### What leaves the coordinate systems alone -/

theorem pause_coords (s : TaskSystem K) (caller : PauseCaller) : (s.pause caller).1.coords = s.coords := by
  unfold pause
  repeat' split
  all_goals rfl

theorem thenTail_coords (f : Flow K) : (thenTail f).coords = f.1.coords := by
  obtain ⟨s, through⟩ := f
  cases through with
  | false => rfl
  | true =>
    show s.runOnceTail.coords = s.coords
    unfold runOnceTail
    split
    · have hpause := s.pause_coords .runOnce
      split
      · rename_i s' heq
        rw [heq] at hpause
        exact hpause
      · rename_i s' o hne heq
        rw [heq] at hpause
        exact hpause
    · rfl

theorem stopRecording_coords (s : TaskSystem K) (g : GCodeTask K) :
    (s.stopRecording g).coords = s.coords := by
  unfold stopRecording drillRecordData
  repeat' split
  all_goals rfl

theorem checkToNextGcode_coords (s : TaskSystem K) (g : GCodeTask K) :
    (s.checkToNextGcode g).1.coords = s.coords := by
  rw [← s.stopRecording_coords g]
  unfold checkToNextGcode
  dsimp only
  split <;> rfl

/-! ### The node -/

section Node

variable {g : GCodeTask K} {axes : Fin 6 → Bool}

/-- The poll that runs the node, where the current system is there: the offset of the selected axes is
the commanded motor position. -/
theorem runOnce_setCoordOffset (hstate : s.runner.state = .running) (hcurr : s.currGcode = some g)
    (hnode : g.node = .coordSetZero axes) {offset : Axis K}
    (hoffset : s.coords.coordinatesMap s.currCoordIndex = some offset) :
    s.coords.setCoordOffset s.currCoordIndex
      (fun i => if axes i then s.motion.infoCache.currCmdAxisBlu i else offset i) =
        some s.runOnce.coords := by
  have hmotion : g.isMotionTask = false := by rw [GCodeTask.isMotionTask, hnode]
  rw [runOnce, thenTail_coords]
  simp only [poll, hstate, stateRunning, hcurr, hmotion, Bool.not_false, if_true,
    stateRunningNonMotion, hnode, emit, hoffset, CoordinateManager.setCoordOffset,
    checkToNextGcode_coords]
  rfl

/-- Without the current system the node aborts and nothing has changed. -/
theorem runOnce_coords_of_none (hstate : s.runner.state = .running) (hcurr : s.currGcode = some g)
    (hnode : g.node = .coordSetZero axes)
    (hoffset : s.coords.coordinatesMap s.currCoordIndex = none) : s.runOnce.coords = s.coords := by
  have hmotion : g.isMotionTask = false := by rw [GCodeTask.isMotionTask, hnode]
  rw [runOnce, thenTail_coords]
  simp only [poll, hstate, stateRunning, hcurr, hmotion, Bool.not_false, if_true,
    stateRunningNonMotion, hnode, emit, hoffset]
  rfl

/-- Where the commanded position is afterwards: off the zero point by the global offset. -/
theorem runOnce_motorToCoord (hstate : s.runner.state = .running) (hcurr : s.currGcode = some g)
    (hnode : g.node = .coordSetZero axes) {offset : Axis K}
    (hoffset : s.coords.coordinatesMap s.currCoordIndex = some offset) (j : ℕ) (motorAxis : Axis K) :
    s.runOnce.coords.motorToCoord j motorAxis =
      if j = s.currCoordIndex then
        some fun i =>
          motorAxis i - s.coords.globalOffset i -
            if axes i then s.motion.infoCache.currCmdAxisBlu i else offset i
      else s.coords.motorToCoord j motorAxis :=
  CoordinateManager.motorToCoord_setCoordOffset
    (runOnce_setCoordOffset hstate hcurr hnode hoffset) j motorAxis

/-- The node does what it is for if and only if the current system is there and the selected axes have
no global offset. -/
theorem zeroedAt_iff (hstate : s.runner.state = .running) (hcurr : s.currGcode = some g)
    (hnode : g.node = .coordSetZero axes) :
    s.coords.ZeroedAt s.runOnce.coords s.currCoordIndex axes s.motion.infoCache.currCmdAxisBlu ↔
      s.coords.existCoordinateIndex s.currCoordIndex = true ∧
        ∀ i, axes i = true → s.coords.globalOffset i = 0 := by
  cases hoffset : s.coords.coordinatesMap s.currCoordIndex with
  | none =>
    have hsame := runOnce_coords_of_none hstate hcurr hnode hoffset
    constructor
    · rintro ⟨⟨pos, hpos, -⟩, -⟩
      rw [hsame, CoordinateManager.motorToCoord, hoffset] at hpos
      cases hpos
    · rintro ⟨hexist, -⟩
      rw [CoordinateManager.existCoordinateIndex, hoffset] at hexist
      cases hexist
  | some offset =>
    have hcoord := runOnce_motorToCoord hstate hcurr hnode hoffset
    constructor
    · rintro ⟨⟨pos, hpos, hzero⟩, -⟩
      refine ⟨by rw [CoordinateManager.existCoordinateIndex, hoffset]; rfl, fun i hi => ?_⟩
      rw [hcoord, if_pos rfl] at hpos
      cases hpos
      have h := hzero i hi
      dsimp only at h
      rw [if_pos hi] at h
      -- motor − global − motor = 0
      rwa [sub_right_comm, sub_self, zero_sub, neg_eq_zero] at h
    · rintro ⟨-, hglobal⟩
      refine ⟨⟨_, by rw [hcoord, if_pos rfl], fun i hi => ?_⟩, fun j i hother motorAxis => ?_⟩
      · rw [if_pos hi, hglobal i hi, sub_zero, sub_self]
      · rw [hcoord]
        split
        · rename_i hj
          have hi : axes i ≠ true := fun hi => hother ⟨hj, hi⟩
          rw [hj, CoordinateManager.motorToCoord, hoffset, Option.map_some, Option.map_some,
            Option.map_some]
          dsimp only
          rw [if_neg hi]
        · rfl

end Node

end TaskSystem

namespace TaskSystem

open Sample

attribute [local instance] Sample.settings

/-- A program that sets the zero point of the first axis, up to the poll that runs the node, in an
application whose global offset is `globalOffset`. -/
def atSetZero (globalOffset : Axis ℚ) : TaskSystem ℚ :=
  Machine.run step (.new { Sample.coords with globalOffset := globalOffset } 54 taskSettings fun _ => none)
    [.start ⟨[task (.coordSetZero fun i => i = 0), task .programEnd], by simp⟩, .timerTick, .timerTick]

theorem zeroedAt_without_offset :
    let s := atSetZero fun i => if i = 1 then 5000 else 0
    s.coords.ZeroedAt s.runOnce.coords s.currCoordIndex (fun i => i = 0)
      s.motion.infoCache.currCmdAxisBlu :=
  (zeroedAt_iff (s := atSetZero _) (by decide +kernel) rfl rfl).2 (by decide +kernel)

/-- The first axis is homed 5 mm off the zero of its drive: the zero point comes out at -5 mm. -/
theorem not_zeroedAt_with_offset :
    let s := atSetZero fun i => if i = 0 then 5000 else 0
    s.currGcode = some (task (.coordSetZero fun i => i = 0)) ∧ s.runner.state = .running ∧
      (s.runOnce.coords.motorToCoord 54 s.motion.infoCache.currCmdAxisBlu).map (· 0) = some (-5000) ∧
      ¬s.coords.ZeroedAt s.runOnce.coords s.currCoordIndex (fun i => i = 0)
        s.motion.infoCache.currCmdAxisBlu := by
  intro s
  have hat : (s.runOnce.coords.motorToCoord 54 s.motion.infoCache.currCmdAxisBlu).map (· 0) =
      some (-5000) := by
    decide +kernel
  refine ⟨rfl, by decide +kernel, hat, fun h => ?_⟩
  obtain ⟨pos, hpos, hzero⟩ := h.zero
  have hindex : s.currCoordIndex = 54 := by decide +kernel
  rw [hindex] at hpos
  rw [hpos, Option.map_some, hzero 0 rfl] at hat
  cases hat

end TaskSystem

end Edm
