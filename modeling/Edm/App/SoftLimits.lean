import Edm.App.GroupPath
import Edm.Motion.Numbers

/-!
# Targets and soft limits

The check before a move asks on each axis that moves whether the target lies beyond the limit ahead.
A touch move that would go beyond a limit is cut off at the first limit on its way, which is as far
as it may go (`touchScale_isGreatest`). The points of a group are checked where the program puts
them; the task goes where the snapped increments lead, which may be beyond the limit by as much as
has been snapped (`targets_within_limits`).
-/

set_option linter.unusedSectionVars false

namespace Edm

variable {K : Type} [Field K] [LinearOrder K]

/-- On each axis that changes the target does not exceed the limit ahead. -/
def CoordSoftLimit.Within (sl : CoordSoftLimit K) (start target : Axis K) : Prop :=
  ∀ i, (start i < target i → target i ≤ sl.pos i) ∧ (target i < start i → sl.neg i ≤ target i)

section Direction

variable [RealFns K] [IsStrictOrderedRing K] [LawfulSqrt K] {a b : Axis K}

open MotionUtils

theorem axisUnitVector_pos {i : Fin 6} : 0 < axisUnitVector a b i ↔ a i < b i := by
  by_cases h : a = b
  · subst h
    simp [axisUnitVector, scaleAxis, axisVector]
  · have hlen : 0 < 1 / axisLength (axisVector a b) := one_div_pos.mpr (axisLengthBetween_pos h)
    simp only [axisUnitVector, scaleAxis, mul_pos_iff_of_pos_right hlen, axisVector, sub_pos]

theorem axisUnitVector_neg {i : Fin 6} : axisUnitVector a b i < 0 ↔ b i < a i := by
  by_cases h : a = b
  · subst h
    simp [axisUnitVector, scaleAxis, axisVector]
  · have hlen : 0 < 1 / axisLength (axisVector a b) := one_div_pos.mpr (axisLengthBetween_pos h)
    simp only [axisUnitVector, scaleAxis, mul_neg_iff, hlen, not_lt_of_gt hlen, and_false,
      and_true, false_or, axisVector, sub_neg]

theorem axisUnitVector_ne_zero {i : Fin 6} : axisUnitVector a b i ≠ 0 ↔ a i ≠ b i := by
  rw [ne_iff_lt_or_gt, ne_iff_lt_or_gt, axisUnitVector_neg, axisUnitVector_pos]
  exact or_comm

end Direction

namespace TaskHelper

section Check

variable {sl : CoordSoftLimit K} {dir target : Axis K}

/-- What the check asks of an axis. -/
theorem checkPosandnegSoftLimit_iff :
    checkPosandnegSoftLimit sl target dir = true ↔
      ∀ i, (0 < dir i → target i ≤ sl.pos i) ∧ (dir i < 0 → sl.neg i ≤ target i) := by
  unfold checkPosandnegSoftLimit
  rw [List.all_eq_true]
  refine ⟨fun h i => ?_, fun h i _ => ?_⟩
  · have hi := h i (List.mem_finRange i)
    rcases lt_trichotomy (dir i) 0 with hneg | hzero | hpos
    · simp only [hneg.ne, hneg, not_lt_of_gt hneg, gt_iff_lt, if_false, false_and, true_and] at hi
      exact ⟨fun hp => absurd hp (not_lt_of_gt hneg), fun _ => by simpa using hi⟩
    · exact ⟨fun hp => absurd hzero hp.ne', fun hn => absurd hzero hn.ne⟩
    · simp only [hpos.ne', hpos, not_lt_of_gt hpos, gt_iff_lt, if_false, false_and, true_and] at hi
      exact ⟨fun _ => by simpa using hi, fun hn => absurd hn (not_lt_of_gt hpos)⟩
  · obtain ⟨hpos, hneg⟩ := h i
    split
    · rfl
    · split
      · rename_i hp
        exact absurd hp.2 (not_lt.mpr (hpos hp.1))
      · split
        · rename_i hn
          exact absurd hn.2 (not_lt.mpr (hneg hn.1))
        · rfl

end Check

variable [RealFns K] [IsStrictOrderedRing K] [LawfulSqrt K] {sl : CoordSoftLimit K}

theorem checkPosandnegSoftLimit_iff_within {start target : Axis K} :
    checkPosandnegSoftLimit sl target (MotionUtils.axisUnitVector start target) = true ↔
      sl.Within start target := by
  simp only [checkPosandnegSoftLimit_iff, axisUnitVector_pos, axisUnitVector_neg]
  rfl

end TaskHelper

namespace GCodeRunner

/-! ### Touch moves -/

section Touch

/-- How far along `dir` the limit ahead of an axis is. -/
def leftScale (sl : CoordSoftLimit K) (dir start : Axis K) (i : Fin 6) : K :=
  if dir i > 0 then (sl.pos i - start i) / dir i else (sl.neg i - start i) / dir i

/-- The position at `scale` on the ray. -/
def onRay (dir start : Axis K) (scale : K) : Axis K := fun i => start i + dir i * scale

/-- The body of the loop of `touchScale`. -/
def touchScaleStep (sl : CoordSoftLimit K) (dir start : Axis K) (acc : K × Bool) (i : Fin 6) :
    K × Bool :=
  if dir i = 0 then acc
  else if !acc.2 || leftScale sl dir start i < acc.1 then
    (if leftScale sl dir start i > 0 then leftScale sl dir start i else 0, true)
  else acc

variable {sl : CoordSoftLimit K} {dir start : Axis K}

theorem touchScale_eq :
    touchScale sl dir start = (List.finRange 6).foldl (touchScaleStep sl dir start) (0, false) := rfl

/-- The scale is the one of an axis seen so far, and of the others none is less. -/
def TouchScaleOf (sl : CoordSoftLimit K) (dir start : Axis K) (seen : List (Fin 6))
    (acc : K × Bool) : Prop :=
  (acc.2 = false → ∀ i ∈ seen, dir i = 0) ∧
    (acc.2 = true → (∃ i ∈ seen, dir i ≠ 0 ∧ acc.1 = max (leftScale sl dir start i) 0) ∧
      ∀ i ∈ seen, dir i ≠ 0 → acc.1 ≤ max (leftScale sl dir start i) 0)

theorem TouchScaleOf.step {seen : List (Fin 6)} {acc : K × Bool}
    (h : TouchScaleOf sl dir start seen acc) (i : Fin 6) :
    TouchScaleOf sl dir start (i :: seen) (touchScaleStep sl dir start acc i) := by
  obtain ⟨hfalse, htrue⟩ := h
  unfold touchScaleStep
  split
  · rename_i hzero
    refine ⟨fun hr => List.forall_mem_cons.mpr ⟨hzero, hfalse hr⟩, fun hr => ?_⟩
    obtain ⟨⟨j, hj, hne, heq⟩, hle⟩ := htrue hr
    exact ⟨⟨j, List.mem_cons_of_mem i hj, hne, heq⟩,
      List.forall_mem_cons.mpr ⟨fun hne => absurd hzero hne, hle⟩⟩
  · rename_i hne
    have hmax : (if leftScale sl dir start i > 0 then leftScale sl dir start i else 0) =
        max (leftScale sl dir start i) 0 := by
      split
      · rename_i hpos
        exact (max_eq_left hpos.le).symm
      · rename_i hnpos
        exact (max_eq_right (not_lt.mp hnpos)).symm
    split
    · rename_i hless
      refine ⟨by simp, fun _ => ⟨⟨i, List.mem_cons_self, hne, hmax⟩, ?_⟩⟩
      refine List.forall_mem_cons.mpr ⟨fun _ => hmax.le, fun j hj hnej => ?_⟩
      rcases Bool.eq_false_or_eq_true acc.2 with hr | hr
      · have hlt : leftScale sl dir start i < acc.1 := by simpa [hr] using hless
        obtain ⟨-, hle⟩ := htrue hr
        have hnn : 0 ≤ acc.1 := by
          obtain ⟨⟨k, -, -, heq⟩, -⟩ := htrue hr
          exact heq ▸ le_max_right _ _
        exact hmax.le.trans ((max_le hlt.le hnn).trans (hle j hj hnej))
      · exact absurd (hfalse hr j hj) hnej
    · rename_i hmore
      have hr : acc.2 = true := by
        by_contra hr
        simp [Bool.eq_false_iff.mpr hr] at hmore
      have hle : acc.1 ≤ leftScale sl dir start i := by simpa [hr] using hmore
      obtain ⟨⟨j, hj, hnej, heq⟩, hall⟩ := htrue hr
      refine ⟨fun hf => absurd hr (by simp [hf]), fun _ => ⟨⟨j, List.mem_cons_of_mem i hj, hnej, heq⟩, ?_⟩⟩
      exact List.forall_mem_cons.mpr ⟨fun _ => hle.trans (le_max_left _ _), hall⟩

theorem TouchScaleOf.foldl {seen rest : List (Fin 6)} {acc : K × Bool}
    (h : TouchScaleOf sl dir start seen acc) :
    TouchScaleOf sl dir start (rest.reverse ++ seen)
      (rest.foldl (touchScaleStep sl dir start) acc) := by
  induction rest generalizing seen acc with
  | nil => exact h
  | cons i rest ih => simpa using ih (h.step i)

variable [IsStrictOrderedRing K]

/-- Away from the start a point of the ray keeps to the limit of a moving axis exactly if it comes
no later than the limit. -/
theorem within_axis_iff {scale : K} {i : Fin 6} (hscale : 0 < scale) (hne : dir i ≠ 0) :
    (start i < onRay dir start scale i → onRay dir start scale i ≤ sl.pos i) ∧
        (onRay dir start scale i < start i → sl.neg i ≤ onRay dir start scale i) ↔
      scale ≤ leftScale sl dir start i := by
  simp only [onRay, lt_add_iff_pos_right, add_lt_iff_neg_left]
  unfold leftScale
  rcases lt_or_gt_of_ne hne with hneg | hpos
  · have hmove : dir i * scale < 0 := mul_neg_of_neg_of_pos hneg hscale
    rw [if_neg (not_lt_of_gt hneg), le_div_iff_of_neg hneg]
    simp only [hmove, not_lt_of_gt hmove, false_implies, true_implies, true_and]
    constructor <;> intro h <;> linarith
  · have hmove : 0 < dir i * scale := mul_pos hpos hscale
    rw [if_pos hpos, le_div_iff₀ hpos]
    simp only [hmove, not_lt_of_gt hmove, false_implies, true_implies, and_true]
    constructor <;> intro h <;> linarith

/-- The scale of a touch move is the greatest at which the limits are kept. -/
theorem touchScale_isGreatest (sl : CoordSoftLimit K) (start : Axis K) (hmoves : ∃ i, dir i ≠ 0) :
    IsGreatest {scale | 0 ≤ scale ∧ sl.Within start (onRay dir start scale)}
      (touchScale sl dir start).1 := by
  have hof : TouchScaleOf sl dir start ((List.finRange 6).reverse ++ []) (touchScale sl dir start) := by
    rw [touchScale_eq]
    exact TouchScaleOf.foldl ⟨by simp, by simp⟩
  have hmem : ∀ i, i ∈ (List.finRange 6).reverse ++ [] := by simp [List.mem_finRange]
  obtain ⟨hfalse, htrue⟩ := hof
  have hr : (touchScale sl dir start).2 = true := by
    obtain ⟨i, hi⟩ := hmoves
    by_contra hr
    exact hi (hfalse (Bool.eq_false_iff.mpr hr) i (hmem i))
  obtain ⟨⟨i, -, hne, heq⟩, hall⟩ := htrue hr
  constructor
  · have hnn : 0 ≤ (touchScale sl dir start).1 := heq ▸ le_max_right _ _
    refine ⟨hnn, fun j => ?_⟩
    rcases hnn.eq_or_lt with hzero | hpos
    · rw [← hzero]
      simp [onRay]
    · by_cases hj : dir j = 0
      · simp [onRay, hj]
      · refine (within_axis_iff hpos hj).mpr ?_
        rcases le_max_iff.mp (hall j (hmem j) hj) with hle | hle
        · exact hle
        · exact absurd hle (not_le.mpr hpos)
  · rintro scale ⟨hnn, hwithin⟩
    rcases hnn.eq_or_lt with hzero | hpos
    · rw [← hzero, heq]
      exact le_max_right _ _
    · rw [heq]
      exact ((within_axis_iff hpos hne).mp (hwithin i)).trans (le_max_left _ _)

end Touch

/-- Along a unit vector the scale is the distance. -/
theorem axisLengthBetween_onRay {start target : Axis ℝ} (hne : start ≠ target) {d : ℝ} (hd : 0 ≤ d) :
    MotionUtils.axisLengthBetween start
      (onRay (MotionUtils.axisUnitVector start target) start d) = d := by
  have hlen : 0 < MotionUtils.axisLength (MotionUtils.axisVector start target) :=
    axisLengthBetween_pos hne
  have hscale : ∀ (v : Axis ℝ) {c : ℝ}, 0 ≤ c →
      MotionUtils.axisLength (MotionUtils.scaleAxis v c) = c * MotionUtils.axisLength v := by
    intro v c hc
    simp only [MotionUtils.axisLength, MotionUtils.scaleAxis, foldl_mul_self]
    have hsum : ∑ i, v i * c * (v i * c) = c ^ 2 * ∑ i, v i * v i := by
      rw [Finset.mul_sum]
      exact Finset.sum_congr rfl fun i _ => by ring
    show Real.sqrt _ = c * Real.sqrt _
    rw [hsum, Real.sqrt_mul (sq_nonneg c), Real.sqrt_sq hc]
  have hvector : MotionUtils.axisVector start
      (onRay (MotionUtils.axisUnitVector start target) start d) =
      MotionUtils.scaleAxis (MotionUtils.axisUnitVector start target) d := by
    funext i
    simp [MotionUtils.axisVector, onRay, MotionUtils.scaleAxis]
  rw [MotionUtils.axisLengthBetween, hvector, hscale _ hd, MotionUtils.axisUnitVector,
    hscale _ (one_div_pos.mpr hlen).le, one_div_mul_cancel hlen.ne', mul_one]

end GCodeRunner

/-! ### Groups -/

namespace G01GroupPoint

/-- What the snapping takes from the increments of a point. -/
def lost (offset prev : Axis K) (p : G01GroupPoint K) : Axis K := fun i =>
  if p.coordMode ≠ .incrementMode ∧ |p.target offset prev i - prev i| < GCodeRunner.snapLimit then
    p.target offset prev i - prev i
  else 0

/-- Wherever a point moves an axis, what the points before have lost on it is not more than the room
between the point and the limit ahead. -/
def LostFits (sl : CoordSoftLimit K) (offset : Axis K) :
    Axis K → Axis K → List (G01GroupPoint K) → Prop
  | _, _, [] => True
  | prev, lostBefore, p :: ps =>
    let target := p.target offset prev
    (∀ i, p.lost offset prev i = 0 →
      (prev i < target i → -lostBefore i ≤ sl.pos i - target i) ∧
        (target i < prev i → lostBefore i ≤ target i - sl.neg i)) ∧
      LostFits sl offset target (fun i => lostBefore i + p.lost offset prev i) ps

theorem groupIncs_eq_sub_lost {p : G01GroupPoint K} {offset prev : Axis K} (i : Fin 6) :
    GCodeRunner.groupIncs p prev (p.target offset prev) i =
      p.target offset prev i - prev i - p.lost offset prev i := by
  unfold GCodeRunner.groupIncs lost GCodeRunner.snap
  by_cases hm : p.coordMode = .incrementMode
  · simp only [hm, if_true, target, ne_eq, not_true_eq_false, false_and, if_false]
    cases p.cmdValues i <;> simp
  · simp only [hm, if_false, ne_eq, not_false_eq_true, true_and]
    split <;> simp

end G01GroupPoint

namespace GCodeRunner

open G01GroupPoint

section Group

variable [RealFns K] [IsStrictOrderedRing K] {cm : CoordinateManager K} {coordIndex : ℤ}

/-- Where an item of a group ends the task goes the way of the program, less what has been lost. -/
theorem within_of_item {sl : CoordSoftLimit K} {offset prev lostBefore : Axis K}
    {p : G01GroupPoint K} :
    (sl.Within (fun i => prev i - lostBefore i)
        (fun i => p.target offset prev i - (lostBefore i + p.lost offset prev i))) ↔
      ∀ i, p.lost offset prev i = 0 →
        (prev i < p.target offset prev i → -lostBefore i ≤ sl.pos i - p.target offset prev i) ∧
          (p.target offset prev i < prev i → lostBefore i ≤ p.target offset prev i - sl.neg i) := by
  refine forall_congr' fun i => ?_
  by_cases hlost : p.lost offset prev i = 0
  · simp only [hlost, add_zero, true_implies, sub_lt_sub_iff_right]
    refine and_congr (imp_congr_right fun _ => ?_) (imp_congr_right fun _ => ?_)
    · constructor <;> intro h <;> linarith
    · constructor <;> intro h <;> linarith
  · have hall : p.lost offset prev i = p.target offset prev i - prev i := by
      unfold lost at hlost ⊢
      split
      · rfl
      · rename_i hn
        exact absurd (if_neg hn) hlost
    have hstay : p.target offset prev i - (lostBefore i + p.lost offset prev i) =
        prev i - lostBefore i := by
      rw [hall]
      ring
    simp [hlost, hstay]

/-- The ends of the segments of an accepted group keep to the limits exactly if what is lost fits. -/
theorem segements_within_iff {ps : List (G01GroupPoint K)} {prev : Axis K} (lostBefore : Axis K)
    {items : List (G01GroupItem K)} (hi : cm.existCoordinateIndex (uint32 coordIndex))
    (h : groupItems cm coordIndex prev ps = .ok items) :
    let pos : Axis K := fun i => prev i - lostBefore i
    List.IsChain cm.softLimits.Within
        (pos :: (G01GroupAutoTask.segements (cm.machineToMotor pos) items).map
          fun l => cm.motorToMachine l.endPos) ↔
      LostFits cm.softLimits (cm.offset coordIndex) prev lostBefore ps := by
  intro pos
  induction ps generalizing prev lostBefore items with
  | nil =>
    obtain rfl : items = [] := by simpa [groupItems] using h.symm
    simp [G01GroupAutoTask.segements, LostFits]
  | cons p ps ih =>
    rcases groupItems_cons hi h with ⟨heq, hrest⟩ | ⟨hne, rest, hrest, rfl⟩
    · have hlost : ∀ i, p.lost (cm.offset coordIndex) prev i = 0 := by
        intro i
        unfold lost
        rw [← heq, sub_self, ite_self]
      have hnext := ih lostBefore hrest
      rw [← heq] at hnext
      simp only [LostFits, ← heq, hlost, add_zero, lt_irrefl, false_implies, and_self,
        implies_true, true_and]
      exact hnext
    · have hend : (fun i => cm.machineToMotor pos i +
          groupIncs p prev (p.target (cm.offset coordIndex) prev) i) =
          cm.machineToMotor fun i => p.target (cm.offset coordIndex) prev i -
            (lostBefore i + p.lost (cm.offset coordIndex) prev i) := by
        funext i
        simp only [CoordinateManager.machineToMotor, groupIncs_eq_sub_lost, pos]
        ring
      simp only [G01GroupAutoTask.segements, hend, List.map_cons, TrajectoryLinearSegement.new,
        CoordinateManager.motorToMachine_machineToMotor, List.isChain_cons_cons, LostFits]
      exact and_congr within_of_item (ih _ hrest)

/-- The point of an accepted group is within the limits where the program puts it. -/
theorem within_of_groupItems_cons [LawfulSqrt K] {p : G01GroupPoint K} {ps : List (G01GroupPoint K)}
    {prev : Axis K} {items : List (G01GroupItem K)}
    (hi : cm.existCoordinateIndex (uint32 coordIndex))
    (h : groupItems cm coordIndex prev (p :: ps) = .ok items) :
    cm.softLimits.Within prev (p.target (cm.offset coordIndex) prev) := by
  rw [groupItems, machTargetPos_eq hi] at h
  simp only at h
  split at h
  · rename_i heq
    intro i
    rw [← heq]
    simp
  · split at h
    · simp at h
    · rename_i hcheck
      simp only [Bool.not_eq_true', Bool.not_eq_false] at hcheck
      exact TaskHelper.checkPosandnegSoftLimit_iff_within.mp hcheck

/-- An accepted group that snaps nothing has nothing to fit. -/
theorem lostFits_of_aboveSnapLimit [LawfulSqrt K] {ps : List (G01GroupPoint K)} {prev : Axis K}
    {items : List (G01GroupItem K)} (hi : cm.existCoordinateIndex (uint32 coordIndex))
    (h : groupItems cm coordIndex prev ps = .ok items)
    (hs : AboveSnapLimit (cm.offset coordIndex) prev ps) :
    LostFits cm.softLimits (cm.offset coordIndex) prev 0 ps := by
  induction ps generalizing prev items with
  | nil => trivial
  | cons p ps ih =>
    obtain ⟨hp, hps⟩ := hs
    have hwithin := within_of_groupItems_cons hi h
    have hlost : p.lost (cm.offset coordIndex) prev = 0 := by
      funext i
      unfold lost
      split
      · rename_i hsnap
        rcases hp hsnap.1 i with heq | hle
        · exact sub_eq_zero.mpr heq
        · exact absurd hsnap.2 (not_lt.mpr hle)
      · rfl
    have hrest : LostFits cm.softLimits (cm.offset coordIndex)
        (p.target (cm.offset coordIndex) prev) 0 ps := by
      rcases groupItems_cons hi h with ⟨-, hrest⟩ | ⟨-, rest, hrest, -⟩
      · exact ih hrest hps
      · exact ih hrest hps
    refine ⟨fun i _ => ?_, ?_⟩
    · simpa using hwithin i
    · simp only [hlost, Pi.zero_apply, add_zero]
      exact hrest

end Group

/-! ### Nodes -/

/-- The targets of a command in machine coordinates, one after the other. -/
def machTargets [RealFns K] (cm : CoordinateManager K) (motorStartPos : Axis K) :
    MotionCommand K → List (Axis K)
  | .autoStartG00FastMove endPos _ _ | .autoStartG01ServoMove endPos _ => [cm.motorToMachine endPos]
  | .autoG01Group items =>
    (G01GroupAutoTask.segements motorStartPos items).map fun l => cm.motorToMachine l.endPos
  | _ => []

/-- Where the program puts the end of a single move. -/
def programmedTarget (cm : CoordinateManager K) (motorStartPos : Axis K) (coordIndex : ℤ)
    (coordMode : GCodeCoordinateMode) (cmdValues : CmdValues K) : Axis K :=
  (G01GroupPoint.mk cmdValues coordMode 0 0).target (cm.offset coordIndex)
    (cm.motorToMachine motorStartPos)

/-- Only groups snap. -/
def NodeFits (cm : CoordinateManager K) (motorStartPos : Axis K) : GCodeNode K → Prop
  | .g01GroupMotion coordIndex points =>
    LostFits cm.softLimits (cm.offset coordIndex) (cm.motorToMachine motorStartPos) 0 points
  | _ => True

section Nodes

variable [RealFns K] [IsStrictOrderedRing K] [LawfulSqrt K] {sl : CoordSoftLimit K}
  {start target : Axis K}

/-- A `G00` goes to its target where that is within the limits. -/
theorem g00Target_of_within {isTouchMotion : Bool} (h : sl.Within start target) :
    g00Target sl isTouchMotion start target = .ok (some target) := by
  simp [g00Target, TaskHelper.checkPosandnegSoftLimit_iff_within.mpr h]

/-- Elsewhere it is refused. -/
theorem g00Target_refused (h : ¬sl.Within start target) :
    g00Target sl false start target = .error "abort: g00 softlimit reached" := by
  have hcheck := mt TaskHelper.checkPosandnegSoftLimit_iff_within.mp h
  simp [g00Target, hcheck]

/-- A touch move goes along its ray as far as the limits let it. -/
theorem g00Target_touch (h : ¬sl.Within start target) :
    let ray := onRay (MotionUtils.axisUnitVector start target) start
    ∃ d, IsGreatest {d | 0 ≤ d ∧ sl.Within start (ray d)} d ∧
      g00Target sl true start target = .ok (if d = 0 then none else some (ray d)) := by
  intro ray
  have hmoves : ∃ i, MotionUtils.axisUnitVector start target i ≠ 0 := by
    by_contra hnone
    simp only [axisUnitVector_ne_zero, not_exists, not_not] at hnone
    exact h fun i => by simp [hnone i]
  have hgreatest := touchScale_isGreatest sl start hmoves
  refine ⟨_, hgreatest, ?_⟩
  have hcheck := mt TaskHelper.checkPosandnegSoftLimit_iff_within.mp h
  simp only [g00Target, hcheck]
  have hnn := hgreatest.1.1
  by_cases hzero : (touchScale sl (MotionUtils.axisUnitVector start target) start).1 = 0
  · simp [hzero]
  · simp [hzero, not_le.mpr (lt_of_le_of_ne hnn (Ne.symm hzero))]
    rfl

theorem within_of_g00Target {isTouchMotion : Bool} {machTarget : Axis K}
    (h : g00Target sl isTouchMotion start target = .ok (some machTarget)) :
    sl.Within start machTarget := by
  by_cases hw : sl.Within start target
  · rw [g00Target_of_within hw] at h
    simp only [Except.ok.injEq, Option.some.injEq] at h
    exact h ▸ hw
  · cases isTouchMotion with
    | false => simp [g00Target_refused hw] at h
    | true =>
      obtain ⟨d, hgreatest, heq⟩ := g00Target_touch hw
      rw [heq] at h
      split at h
      · simp at h
      · simp only [Except.ok.injEq, Option.some.injEq] at h
        exact h ▸ hgreatest.1.2

variable [FloorRing K] [Settings] {st : TaskSettings K} {cm : CoordinateManager K}
  {motorStartPos : Axis K} {touchDetectEnable isTouchMotion : Bool} {feedSpeed coordIndex : ℤ}
  {coordMode : GCodeCoordinateMode} {cmdValues : CmdValues K} {cmd : MotionCommand K}
  {timeoutMs : Option ℕ} {err : String}

theorem machTargetPos_eq_programmed {what : String}
    (h : cm.existCoordinateIndex (uint32 coordIndex)) :
    machTargetPos what cm coordIndex coordMode cmdValues (cm.motorToMachine motorStartPos) =
      .ok (programmedTarget cm motorStartPos coordIndex coordMode cmdValues) :=
  machTargetPos_eq (p := ⟨cmdValues, coordMode, 0, 0⟩) h

theorem exist_of_not_abort {α : Type} {a b c : α}
    (h : (if !cm.existCoordinateIndex (uint32 coordIndex) then a else b) = c) (hne : a ≠ c) :
    cm.existCoordinateIndex (uint32 coordIndex) ∧ b = c := by
  split at h
  · exact absurd h hne
  · rename_i hi
    exact ⟨by simpa using hi, h⟩

theorem within_of_prepareG00
    (h : prepareG00 st cm motorStartPos touchDetectEnable isTouchMotion feedSpeed coordIndex
      coordMode cmdValues = .send cmd timeoutMs err) :
    ∃ endPos speed, cmd = .autoStartG00FastMove endPos speed touchDetectEnable ∧
      cm.softLimits.Within (cm.motorToMachine motorStartPos) (cm.motorToMachine endPos) := by
  obtain ⟨hi, h⟩ := exist_of_not_abort h (by simp)
  simp only [machTargetPos_eq_programmed hi] at h
  split at h
  · simp at h
  · split at h
    · simp at h
    · simp at h
    · rename_i machTarget htarget
      simp only [Prepared.send.injEq] at h
      refine ⟨_, _, h.1.symm, ?_⟩
      rw [CoordinateManager.motorToMachine_machineToMotor]
      exact within_of_g00Target htarget

/-- The length of a jump is the way back to the limits from the start. -/
theorem of_prepareG01
    (h : prepareG01 cm motorStartPos coordIndex coordMode cmdValues = .send cmd timeoutMs err) :
    ∃ endPos maxLength, cmd = .autoStartG01ServoMove endPos maxLength ∧
      cm.softLimits.Within (cm.motorToMachine motorStartPos) (cm.motorToMachine endPos) ∧
      maxLength = TaskHelper.getMaxLengthOnCurrentDir cm.softLimits
        (MotionUtils.axisUnitVector (cm.motorToMachine endPos) (cm.motorToMachine motorStartPos))
        (cm.motorToMachine motorStartPos) := by
  obtain ⟨hi, h⟩ := exist_of_not_abort h (by simp)
  simp only [machTargetPos_eq_programmed hi] at h
  split at h
  · simp at h
  · split at h
    · simp at h
    · rename_i hcheck
      simp only [Bool.not_eq_true', Bool.not_eq_false] at hcheck
      simp only [Prepared.send.injEq] at h
      refine ⟨_, _, h.1.symm, ?_⟩
      rw [CoordinateManager.motorToMachine_machineToMotor]
      exact ⟨TaskHelper.checkPosandnegSoftLimit_iff_within.mp hcheck, rfl⟩

/-- What a node sends keeps to the limits on the way from target to target exactly if what it has
lost by snapping fits. -/
theorem prepared_within_iff {node : GCodeNode K}
    (h : prepare st cm motorStartPos node = .send cmd timeoutMs err) :
    List.IsChain cm.softLimits.Within
        (cm.motorToMachine motorStartPos :: machTargets cm motorStartPos cmd) ↔
      NodeFits cm motorStartPos node := by
  cases node with
  | g00Motion touchDetectEnable isTouchMotion feedSpeed coordIndex coordMode cmdValues =>
    obtain ⟨endPos, speed, rfl, hwithin⟩ := within_of_prepareG00 h
    simpa [machTargets, NodeFits] using hwithin
  | g01Motion coordIndex coordMode cmdValues =>
    obtain ⟨endPos, maxLength, rfl, hwithin, -⟩ := of_prepareG01 h
    simpa [machTargets, NodeFits] using hwithin
  | g01GroupMotion coordIndex points =>
    simp only [prepare] at h
    split at h
    · simp at h
    · rename_i items hitems
      obtain ⟨hi, hitems⟩ := exist_of_not_abort hitems (by simp)
      simp only [Prepared.send.injEq] at h
      obtain ⟨rfl, -⟩ := h
      have hiff := segements_within_iff 0 hi hitems
      simp only [Pi.zero_apply, sub_zero] at hiff
      rw [show (fun i => cm.motorToMachine motorStartPos i) = cm.motorToMachine motorStartPos from rfl,
        CoordinateManager.machineToMotor_motorToMachine] at hiff
      exact hiff
  | delay delayS =>
    simp only [prepare, Prepared.send.injEq] at h
    obtain ⟨rfl, -⟩ := h
    simp [machTargets, NodeFits]
  | pauseCommand =>
    simp only [prepare, Prepared.send.injEq] at h
    obtain ⟨rfl, -⟩ := h
    simp [machTargets, NodeFits]
  | drillMotion startParams spindleSpeed =>
    simp only [prepare, prepareDrill] at h
    split at h
    · simp at h
    · split at h
      · simp at h
      · simp only [Prepared.send.injEq] at h
        obtain ⟨rfl, -⟩ := h
        simp [machTargets, NodeFits]
  | coordinateMode | coordinateIndex | eleparamSet | feedSpeedSet | programEnd | coordSetZero =>
    simp [prepare] at h

end Nodes

/-- Every command a node sends keeps its targets within the limits ahead exactly if what the points
of a group have lost by snapping fits; nothing but a group snaps. A touch `G00` programmed beyond a
limit goes along its ray to the greatest distance within the limits, and nowhere if that is zero. -/
theorem targets_within_limits [Settings] (st : TaskSettings ℝ) (cm : CoordinateManager ℝ)
    (motorStartPos : Axis ℝ) :
    let start := cm.motorToMachine motorStartPos
    (∀ node cmd timeoutMs err, prepare st cm motorStartPos node = .send cmd timeoutMs err →
      (List.IsChain cm.softLimits.Within (start :: machTargets cm motorStartPos cmd) ↔
        NodeFits cm motorStartPos node)) ∧
      ∀ touchDetectEnable feedSpeed coordIndex coordMode cmdValues,
        let target := programmedTarget cm motorStartPos coordIndex coordMode cmdValues
        let ray := onRay (MotionUtils.axisUnitVector start target) start
        let prepared := prepare st cm motorStartPos
          (.g00Motion touchDetectEnable true feedSpeed coordIndex coordMode cmdValues)
        cm.existCoordinateIndex (uint32 coordIndex) → ¬cm.softLimits.Within start target →
          (∀ d, 0 ≤ d → MotionUtils.axisLengthBetween start (ray d) = d) ∧
            ∃ d, IsGreatest {d | 0 ≤ d ∧ cm.softLimits.Within start (ray d)} d ∧
              (d = 0 → prepared = .next) ∧
              (d ≠ 0 → ∃ speed, prepared = .send (.autoStartG00FastMove (cm.machineToMotor (ray d))
                speed touchDetectEnable) none (startFailed "g00")) := by
  intro start
  refine ⟨fun node cmd timeoutMs err h => prepared_within_iff h, ?_⟩
  intro touchDetectEnable feedSpeed coordIndex coordMode cmdValues target ray prepared hi hw
  have hne : start ≠ target := by
    rintro heq
    exact hw fun i => by simp [← heq]
  refine ⟨fun d hd => axisLengthBetween_onRay hne hd, ?_⟩
  obtain ⟨d, hgreatest, htarget⟩ := g00Target_touch hw
  have hprepared : prepared = prepareG00 st cm motorStartPos touchDetectEnable true feedSpeed
      coordIndex coordMode cmdValues := rfl
  simp only [prepareG00, hi, machTargetPos_eq_programmed hi, Bool.not_true, Bool.false_eq_true,
    if_false] at hprepared
  rw [if_neg hne] at hprepared
  have hg00 : g00Target cm.softLimits true (cm.motorToMachine motorStartPos)
      (programmedTarget cm motorStartPos coordIndex coordMode cmdValues) =
        .ok (if d = 0 then none else some (ray d)) := htarget
  refine ⟨d, hgreatest, fun hzero => ?_, fun hnz => ?_⟩
  · rw [hprepared, hg00, if_pos hzero]
  · rw [hprepared, hg00, if_neg hnz]
    exact ⟨_, rfl⟩

attribute [local instance] Sample.settings

/-- Settings a program of the tests runs with. -/
def plainSettings (K : Type) [Field K] : TaskSettings K := ⟨60, 500, 60, 100, false⟩

/-- One coordinate system at the origin of the drives, and a limit on each side of it. -/
def limitedManager (K : Type) [Field K] (limit : K) : CoordinateManager K :=
  ⟨0, fun i => if i = 54 then some 0 else none, ⟨fun _ => limit, fun _ => -limit⟩⟩

/-- A touch move of two millimetres on the first axis, where one is left. -/
theorem touch_cut_off :
    let cm := limitedManager ℝ 1000
    ∃ endPos speed, prepare (plainSettings ℝ) cm 0
        (.g00Motion true true 100 54 .absoluteMode fun i => if i = 0 then some 2 else none) =
          .send (.autoStartG00FastMove endPos speed true) none (startFailed "g00") ∧
      List.IsChain cm.softLimits.Within [cm.motorToMachine 0, cm.motorToMachine endPos] := by
  intro cm
  let cmdValues : CmdValues ℝ := fun i => if i = 0 then some 2 else none
  obtain ⟨hsent, htouch⟩ := targets_within_limits (plainSettings ℝ) cm 0
  have hstart : ∀ i, cm.motorToMachine 0 i = 0 := by
    simp [cm, limitedManager, CoordinateManager.motorToMachine]
  have htarget : ∀ i, programmedTarget cm 0 54 .absoluteMode cmdValues i =
      if i = 0 then 2000 else 0 := by
    intro i
    by_cases hi : i = 0
    · simp [programmedTarget, G01GroupPoint.target, cmdValues, hi, CoordinateManager.offset, cm,
        limitedManager, uint32, UnitConverter.mm2blu, UnitConverter.mm2blu_, UnitConverter.um2blu_]
      norm_num
    · simp [programmedTarget, G01GroupPoint.target, cmdValues, hi, hstart]
  have hbeyond : ¬cm.softLimits.Within (cm.motorToMachine 0)
      (programmedTarget cm 0 54 .absoluteMode cmdValues) := by
    intro h
    have h0 := (h 0).1
    rw [hstart, htarget] at h0
    simp [cm, limitedManager] at h0
    norm_num at h0
  obtain ⟨-, d, hgreatest, -, hsend⟩ := htouch true 100 54 .absoluteMode cmdValues rfl hbeyond
  have hd : d ≠ 0 := by
    -- the limit itself is on the ray
    let dir := MotionUtils.axisUnitVector (cm.motorToMachine 0)
      (programmedTarget cm 0 54 .absoluteMode cmdValues)
    have hdir : 0 < dir 0 := by
      simp [dir, axisUnitVector_pos, hstart, htarget]
    have hmem : 0 ≤ 1000 / dir 0 ∧ cm.softLimits.Within (cm.motorToMachine 0)
        (onRay dir (cm.motorToMachine 0) (1000 / dir 0)) := by
      refine ⟨(div_pos (by norm_num) hdir).le, fun i => ?_⟩
      by_cases hi : i = 0
      · subst hi
        simp only [onRay, hstart, zero_add, mul_div_cancel₀ _ hdir.ne']
        simp [cm, limitedManager]
      · have hzero : dir i = 0 := by
          by_contra hne
          exact axisUnitVector_ne_zero.mp hne (by simp [hstart, htarget, hi])
        simp [onRay, hzero]
    have hle := hgreatest.2 hmem
    have hpos : 0 < 1000 / dir 0 := div_pos (by norm_num) hdir
    exact (hpos.trans_le hle).ne'
  obtain ⟨speed, hspeed⟩ := hsend hd
  exact ⟨_, speed, hspeed, (hsent _ _ _ _ hspeed).mpr trivial⟩

/-- Two points down to the negative limit, the first of them up by half a limit of snapping. -/
def creepingGroup : List (G01GroupPoint ℚ) :=
  [absolutePoint (1 / 2000000000) 0, absolutePoint (-1) 0]

theorem creeping_group_beyond_limit :
    ∃ cmd, prepare (plainSettings ℚ) (limitedManager ℚ 1000) 0 (.g01GroupMotion 54 creepingGroup) =
        .send cmd none (startFailed "g01 group") ∧
      ¬List.IsChain (limitedManager ℚ 1000).softLimits.Within
        ((limitedManager ℚ 1000).motorToMachine 0 :: machTargets (limitedManager ℚ 1000) 0 cmd) := by
  obtain ⟨items, hprep, hP⟩ := exists_of_preparedWith
    (P := fun items => (machTargets (limitedManager ℚ 1000) 0 (.autoG01Group items)).map (· 0) =
      [0, -1000 - 1 / 2000000])
    (r := prepareG01Group (limitedManager ℚ 1000) 0 54 creepingGroup)
    (by decide +kernel)
  have hP : (machTargets (limitedManager ℚ 1000) 0 (.autoG01Group items)).map (· 0) =
      [0, -1000 - 1 / 2000000] := of_decide_eq_true hP
  refine ⟨.autoG01Group items, by simp only [prepare, hprep], fun hchain => ?_⟩
  obtain ⟨first, rest, hfirst, h0, hrest⟩ := List.map_eq_cons_iff.mp hP
  obtain ⟨second, rest', hsecond, h1, -⟩ := List.map_eq_cons_iff.mp hrest
  rw [hfirst, hsecond, List.isChain_cons_cons, List.isChain_cons_cons] at hchain
  have hlimit : (limitedManager ℚ 1000).softLimits.neg 0 ≤ second 0 := by
    refine (hchain.2.1 0).2 ?_
    rw [h0, h1]
    norm_num
  rw [h1] at hlimit
  have hneg : (limitedManager ℚ 1000).softLimits.neg 0 = -1000 := rfl
  rw [hneg] at hlimit
  norm_num at hlimit

end GCodeRunner

end Edm
