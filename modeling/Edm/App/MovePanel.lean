import Edm.App.SoftLimits
import Edm.Motion.ManualMove

/-!
# Vector moves of the panel

A vector move goes as far as the first soft limit ahead allows, all axes by the same length; at the
single-step level it goes by a micrometre, whatever the limits are. The panel computes the target
from the position it has read, and the motion thread goes there from where it stands. What that
needs of the position is `MoveFits`; the move changes only the axes of its direction, and keeps to
their limits, exactly if it holds (`vector_move_keeps`, `stale_and_single_step_fail`).
-/

set_option linter.unusedSectionVars false

namespace Edm

/-- The speed levels. The last one is the single step. -/
inductive Mfr where
  | mfr0 | mfr1 | mfr2 | mfr3
  deriving DecidableEq, Repr

/-- What the panel reads of `fast_move_param`. -/
structure FastMoveParam (K : Type) where
  maxAccUmS2 : K
  naccMs : ℕ
  speed0UmS : K
  speed1UmS : K
  speed2UmS : K
  speed3UmS : K

namespace MovePanel

variable {K : Type} [Field K] [LinearOrder K]

/-- `_get_speed_blu_s_from_mfrx`. -/
def getSpeedBluSFromMfrx (fm : FastMoveParam K) (level : Mfr) : K :=
  UnitConverter.um2blu <|
    match level with
    | .mfr0 => fm.speed0UmS
    | .mfr1 => fm.speed1UmS
    | .mfr2 => fm.speed2UmS
    | .mfr3 => fm.speed3UmS

/-- `_get_default_speed_param`. -/
def getDefaultSpeedParam [FloorRing K] [Settings] (fm : FastMoveParam K) (level : Mfr) :
    MoveRuntimePlanSpeedInput K where
  nacc := ⌊UnitConverter.ms2p (fm.naccMs : K)⌋.toNat
  acc0 := UnitConverter.um2blu fm.maxAccUmS2
  dec0 := -UnitConverter.um2blu fm.maxAccUmS2
  entryV := 0
  exitV := 0
  cruiseV := getSpeedBluSFromMfrx fm level

/-- The loop over the axes: the least way that is left on one that moves. `none` where an axis is
out of its limit already and the move is given up. -/
def eachAxisIncLength (sl : CoordSoftLimit K) (dir machStartPos : Axis K) :
    List (Fin 6) → Bool → K → Option K
  | [], _, each => some each
  | i :: is, flag, each =>
    if dir i > 0 then
      let leftLength := sl.pos i - machStartPos i
      if leftLength ≤ 0 then none
      else
        eachAxisIncLength sl dir machStartPos is true
          (if !flag ∨ |leftLength| < each then |leftLength| else each)
    else if dir i < 0 then
      let leftLength := sl.neg i - machStartPos i
      if leftLength ≥ 0 then none
      else
        eachAxisIncLength sl dir machStartPos is true
          (if !flag ∨ |leftLength| < each then |leftLength| else each)
    else eachAxisIncLength sl dir machStartPos is flag each

/-- An axis goes by `length` in its direction. -/
def incs (dir : Axis K) (length : K) : Axis K := fun i =>
  if dir i > 0 then length else if dir i < 0 then -length else 0

/-- `_start_multiaxis_vectormove`, from the position that was read; `none` where it is given up. -/
def startMultiaxisVectormove [FloorRing K] [Settings] (fm : FastMoveParam K) (level : Mfr)
    (cm : CoordinateManager K) (motorStartPos dir : Axis K) (touchDetectEnable : Bool) :
    Option (MotionCommand K) :=
  let machStartPos := cm.motorToMachine motorStartPos
  match eachAxisIncLength cm.softLimits dir machStartPos (List.finRange 6) false 0 with
  | none => none
  | some length =>
    let machTargetPos : Axis K := fun i => machStartPos i + incs dir length i
    let motorTargetPos := cm.machineToMotor machTargetPos
    let speed := getDefaultSpeedParam fm level
    if level = .mfr3 then
      some (.manualStartPointMove
        (fun i => motorStartPos i + incs dir (UnitConverter.um2blu 1) i)
        { speed with cruiseV := 30000 } touchDetectEnable)
    else some (.manualStartPointMove motorTargetPos speed touchDetectEnable)

/-! ### The target -/

section Target

variable {sl : CoordSoftLimit K} {cm : CoordinateManager K} {dir p read start : Axis K} {i : Fin 6}
  {is : List (Fin 6)} {flag : Bool} {each r : K}

/-- The way to the limit ahead of the position `p`. -/
def room (sl : CoordSoftLimit K) (dir p : Axis K) (i : Fin 6) : K :=
  if dir i > 0 then sl.pos i - p i else p i - sl.neg i

/-- The way to the limit behind it. -/
def roomBehind (sl : CoordSoftLimit K) (dir p : Axis K) (i : Fin 6) : K :=
  if dir i > 0 then p i - sl.neg i else sl.pos i - p i

/-- How far `start` is ahead of `read`. -/
def lead (dir read start : Axis K) (i : Fin 6) : K :=
  if dir i > 0 then start i - read i else read i - start i

variable [IsStrictOrderedRing K]

/-- One turn of the loop. -/
theorem eachAxisIncLength_cons : eachAxisIncLength sl dir p (i :: is) flag each =
    if dir i = 0 then eachAxisIncLength sl dir p is flag each
    else if room sl dir p i ≤ 0 then none
    else
      eachAxisIncLength sl dir p is true
        (if !flag ∨ room sl dir p i < each then room sl dir p i else each) := by
  unfold room
  rcases lt_trichotomy (dir i) 0 with hneg | hzero | hpos
  · have hiff : p i - sl.neg i ≤ 0 ↔ sl.neg i - p i ≥ 0 := by
      rw [sub_nonpos, ge_iff_le, sub_nonneg]
    simp only [eachAxisIncLength, gt_iff_lt, hneg, hneg.ne, not_lt_of_gt hneg, if_false, if_true,
      hiff]
    split
    · rfl
    · rename_i hleft
      rw [abs_of_neg (not_le.mp hleft), neg_sub]
  · simp [eachAxisIncLength, hzero]
  · simp only [eachAxisIncLength, gt_iff_lt, hpos, hpos.ne', if_false, if_true]
    split
    · rfl
    · rename_i hleft
      rw [abs_of_pos (not_le.mp hleft)]

/-- The loop finds the least way left, and every axis that moves has some. -/
theorem eachAxisIncLength_isLeast (h : eachAxisIncLength sl dir p is flag each = some r) :
    (∀ i ∈ is, dir i ≠ 0 → 0 < room sl dir p i) ∧
      (flag = true ∨ (∃ i ∈ is, dir i ≠ 0) →
        IsLeast {x | flag = true ∧ x = each ∨ ∃ i ∈ is, dir i ≠ 0 ∧ x = room sl dir p i} r) := by
  induction is generalizing flag each with
  | nil =>
    refine ⟨by simp, fun hany => ?_⟩
    have hflag : flag = true := hany.resolve_right (by simp)
    obtain rfl := Option.some.inj h
    refine ⟨.inl ⟨hflag, rfl⟩, ?_⟩
    rintro x (⟨-, rfl⟩ | ⟨i, hi, -⟩)
    · exact le_rfl
    · exact absurd hi (by simp)
  | cons i is ih =>
    rw [eachAxisIncLength_cons] at h
    split at h
    · rename_i hzero
      obtain ⟨hpos, hleast⟩ := ih h
      refine ⟨List.forall_mem_cons.mpr ⟨fun hne => absurd hzero hne, hpos⟩, fun hany => ?_⟩
      have hset : {x | flag = true ∧ x = each ∨ ∃ j ∈ i :: is, dir j ≠ 0 ∧ x = room sl dir p j} =
          {x | flag = true ∧ x = each ∨ ∃ j ∈ is, dir j ≠ 0 ∧ x = room sl dir p j} := by
        ext x
        simp [hzero]
      rw [hset]
      exact hleast (by simpa [hzero] using hany)
    · rename_i hne
      split at h
      · simp at h
      · rename_i hleft
        have hroom := not_le.mp hleft
        obtain ⟨hpos, hleast⟩ := ih h
        obtain ⟨hmem, hle⟩ := hleast (.inl rfl)
        have hfirst : r ≤ if !flag ∨ room sl dir p i < each then room sl dir p i else each :=
          hle (.inl ⟨rfl, rfl⟩)
        refine ⟨List.forall_mem_cons.mpr ⟨fun _ => hroom, hpos⟩, fun _ => ⟨?_, ?_⟩⟩
        · rcases hmem with ⟨-, heq⟩ | ⟨j, hj, hnej, heq⟩
          · split at heq
            · exact .inr ⟨i, List.mem_cons_self, hne, heq⟩
            · rename_i hkeep
              exact .inl ⟨by simpa using (not_or.mp hkeep).1, heq⟩
          · exact .inr ⟨j, List.mem_cons_of_mem i hj, hnej, heq⟩
        · rintro x (⟨hflag, rfl⟩ | ⟨j, hj, hnej, rfl⟩)
          · refine hfirst.trans ?_
            split
            · rename_i hless
              exact (hless.resolve_left (by simp [hflag])).le
            · exact le_rfl
          · rcases List.mem_cons.mp hj with rfl | hj
            · refine hfirst.trans ?_
              split
              · exact le_rfl
              · rename_i hkeep
                exact not_lt.mp (not_or.mp hkeep).2
            · exact hle (.inr ⟨j, hj, hnej, rfl⟩)

/-- The length by which every moving axis goes. -/
def StepIs (sl : CoordSoftLimit K) (level : Mfr) (dir p : Axis K) (r : K) : Prop :=
  if level = .mfr3 then r = UnitConverter.um2blu 1
  else IsLeast {x | ∃ i, dir i ≠ 0 ∧ x = room sl dir p i} r

theorem StepIs.unique {level : Mfr} {r' : K} (h : StepIs sl level dir p r)
    (h' : StepIs sl level dir p r') : r = r' := by
  unfold StepIs at h h'
  split at h
  · rename_i hl
    rw [if_pos hl] at h'
    rw [h, h']
  · rename_i hl
    rw [if_neg hl] at h'
    exact IsLeast.unique h h'

/-- A vector move from `start` changes the axes of its direction only, and takes none past the limit
it moves towards. -/
def Keeps (cm : CoordinateManager K) (dir start g : Axis K) : Prop :=
  (∀ i, dir i = 0 → g i = start i) ∧
    cm.softLimits.Within (cm.motorToMachine start) (cm.motorToMachine g)

instance (cm : CoordinateManager K) (dir start g : Axis K) : Decidable (Keeps cm dir start g) :=
  inferInstanceAs (Decidable ((∀ i, dir i = 0 → g i = start i) ∧ ∀ i,
    (cm.motorToMachine start i < cm.motorToMachine g i →
      cm.motorToMachine g i ≤ cm.softLimits.pos i) ∧
    (cm.motorToMachine g i < cm.motorToMachine start i →
      cm.softLimits.neg i ≤ cm.motorToMachine g i)))

/-- What a move from `start` needs of the position `read` it was computed from. -/
structure MoveFits (cm : CoordinateManager K) (level : Mfr) (dir read start : Axis K) : Prop where
  still : ∀ i, dir i = 0 → read i = start i
  singleStep : level = .mfr3 → ∀ i, dir i ≠ 0 →
    UnitConverter.um2blu 1 ≤ room cm.softLimits dir (cm.motorToMachine read) i ∨
      UnitConverter.um2blu 1 ≤ lead dir read start i
  behind : ∀ r, StepIs cm.softLimits level dir (cm.motorToMachine read) r → ∀ i, dir i ≠ 0 →
    lead dir read start i ≤ r ∨ 0 ≤ roomBehind cm.softLimits dir (cm.motorToMachine read) i + r

/-- An axis that goes by `r` keeps to the limit it moves towards. -/
theorem within_axis_iff (hne : dir i ≠ 0) :
    (cm.motorToMachine start i < cm.motorToMachine (fun j => read j + incs dir r j) i →
        cm.motorToMachine (fun j => read j + incs dir r j) i ≤ cm.softLimits.pos i) ∧
      (cm.motorToMachine (fun j => read j + incs dir r j) i < cm.motorToMachine start i →
        cm.softLimits.neg i ≤ cm.motorToMachine (fun j => read j + incs dir r j) i) ↔
    (lead dir read start i < r → r ≤ room cm.softLimits dir (cm.motorToMachine read) i) ∧
      (r < lead dir read start i →
        0 ≤ roomBehind cm.softLimits dir (cm.motorToMachine read) i + r) := by
  simp only [CoordinateManager.motorToMachine, lead, room, roomBehind, incs]
  rcases lt_or_gt_of_ne hne with hneg | hpos
  · simp only [gt_iff_lt, not_lt_of_gt hneg, if_false, hneg, if_true]
    rw [and_comm]
    refine and_congr (imp_congr ?_ ?_) (imp_congr ?_ ?_)
    all_goals constructor <;> intro h <;> linarith
  · simp only [gt_iff_lt, hpos, if_true]
    refine and_congr (imp_congr ?_ ?_) (imp_congr ?_ ?_)
    all_goals constructor <;> intro h <;> linarith

variable [FloorRing K] [Settings] {fm : FastMoveParam K} {level : Mfr} {touch touch' : Bool}
  {target : Axis K} {speed : MoveRuntimePlanSpeedInput K}

/-- Where the panel sends the machine: a step from the position that was read. -/
theorem target_eq
    (h : startMultiaxisVectormove fm level cm read dir touch =
      some (.manualStartPointMove target speed touch')) :
    ∃ r, target = (fun i => read i + incs dir r i) ∧
      speed = { getDefaultSpeedParam fm level with
        cruiseV := if level = .mfr3 then 30000 else getSpeedBluSFromMfrx fm level } ∧
      (∀ i, dir i ≠ 0 → StepIs cm.softLimits level dir (cm.motorToMachine read) r ∧
        (level ≠ .mfr3 → r ≤ room cm.softLimits dir (cm.motorToMachine read) i)) := by
  cases hlength : eachAxisIncLength cm.softLimits dir (cm.motorToMachine read) (List.finRange 6)
    false 0 with
  | none => simp [startMultiaxisVectormove, hlength] at h
  | some length =>
    simp only [startMultiaxisVectormove, hlength] at h
    obtain ⟨-, hleast⟩ := eachAxisIncLength_isLeast hlength
    split at h
    · rename_i hl
      simp only [Option.some.injEq, MotionCommand.manualStartPointMove.injEq] at h
      refine ⟨UnitConverter.um2blu 1, h.1.symm, by rw [if_pos hl]; exact h.2.1.symm, fun i _ => ?_⟩
      exact ⟨by rw [StepIs, if_pos hl], fun hl' => absurd hl hl'⟩
    · rename_i hl
      simp only [Option.some.injEq, MotionCommand.manualStartPointMove.injEq] at h
      refine ⟨length, ?_, by rw [if_neg hl]; exact h.2.1.symm, fun i hi => ?_⟩
      · rw [← h.1]
        funext i
        simp only [CoordinateManager.machineToMotor, CoordinateManager.motorToMachine]
        ring
      · have hmin := hleast (.inr ⟨i, List.mem_finRange i, hi⟩)
        have hset : {x | false = true ∧ x = (0 : K) ∨ ∃ j ∈ List.finRange 6, dir j ≠ 0 ∧
            x = room cm.softLimits dir (cm.motorToMachine read) j} =
            {x | ∃ j, dir j ≠ 0 ∧ x = room cm.softLimits dir (cm.motorToMachine read) j} := by
          ext x
          simp [List.mem_finRange]
        rw [hset] at hmin
        refine ⟨?_, fun _ => hmin.2 ⟨i, hi, rfl⟩⟩
        rw [StepIs, if_neg hl]
        exact hmin

/-- The target keeps to the limits exactly if the position that was read fits. -/
theorem keeps_target_iff
    (h : startMultiaxisVectormove fm level cm read dir touch =
      some (.manualStartPointMove target speed touch')) :
    Keeps cm dir start target ↔ MoveFits cm level dir read start := by
  obtain ⟨r, rfl, -, hstep⟩ := target_eq h
  have hstill (i : Fin 6) (hi : dir i = 0) : read i + incs dir r i = read i := by
    simp [incs, hi]
  constructor
  · rintro ⟨hzero, hwithin⟩
    refine ⟨fun i hi => (hstill i hi).symm.trans (hzero i hi), fun hl i hi => ?_,
      fun r' hr' i hi => ?_⟩
    · have hr := (hstep i hi).1
      rw [StepIs, if_pos hl] at hr
      have hax := ((within_axis_iff hi).mp (hwithin i)).1
      rw [hr] at hax
      refine (le_or_gt _ _).imp id fun hlt => ?_
      exact not_lt.mp fun hlead => absurd (hax hlead) (not_le.mpr hlt)
    · obtain rfl := (hstep i hi).1.unique hr'
      exact (le_or_gt _ _).imp id fun hlt => ((within_axis_iff hi).mp (hwithin i)).2 hlt
  · intro hfits
    refine ⟨fun i hi => (hstill i hi).trans (hfits.still i hi), fun i => ?_⟩
    by_cases hi : dir i = 0
    · have heq : cm.motorToMachine (fun j => read j + incs dir r j) i =
          cm.motorToMachine start i :=
        congrArg (· - cm.globalOffset i) ((hstill i hi).trans (hfits.still i hi))
      exact ⟨fun hlt => absurd heq hlt.ne', fun hlt => absurd heq hlt.ne⟩
    · refine (within_axis_iff hi).mpr ⟨fun hlead => ?_, fun hlead => ?_⟩
      · by_cases hl : level = .mfr3
        · have hr := (hstep i hi).1
          rw [StepIs, if_pos hl] at hr
          rw [hr] at hlead ⊢
          exact (hfits.singleStep hl i hi).resolve_right (not_le.mpr hlead)
        · exact (hstep i hi).2 hl
      · exact (hfits.behind r (hstep i hi).1 i hi).resolve_left (not_le.mpr hlead)

end Target

/-! ### The move -/

section Move

open MotionStateMachine MotionUtils

variable {cm : CoordinateManager ℝ} {dir start target g : Axis ℝ}

/-- What holds of the target holds on the way there. -/
theorem Keeps.of_between (h : Keeps cm dir start target) (hg : Between start target g) :
    Keeps cm dir start g := by
  obtain ⟨x, hx, hlen, hplace⟩ := hg
  have hend (i : Fin 6) := axisUnitVector_mul_length (a := start) (b := target) i
  refine ⟨fun i hi => ?_, fun i => ?_⟩
  · have hzero : axisUnitVector start target i = 0 := by
      by_contra hne
      exact axisUnitVector_ne_zero.mp hne (h.1 i hi).symm
    rw [hplace, hzero, zero_mul, add_zero]
  · obtain ⟨hup, hdown⟩ := h.2 i
    simp only [CoordinateManager.motorToMachine, hplace, sub_lt_sub_iff_right] at hup hdown ⊢
    constructor
    · intro hlt
      have hmove : 0 < axisUnitVector start target i * x := by linarith
      have hu : 0 < axisUnitVector start target i :=
        lt_of_mul_lt_mul_right (by rwa [zero_mul]) hx
      have hle := mul_le_mul_of_nonneg_left hlen hu.le
      have hlimit := hup (axisUnitVector_pos.mp hu)
      linarith [hend i]
    · intro hlt
      have hmove : axisUnitVector start target i * x < 0 := by linarith
      have hu : axisUnitVector start target i < 0 :=
        lt_of_mul_lt_mul_right (by rwa [zero_mul]) hx
      have hle := mul_le_mul_of_nonpos_left hlen hu.le
      have hlimit := hdown (axisUnitVector_neg.mp hu)
      linarith [hend i]

variable [Settings]

/-- Where the position that was read fits, and only there, the target keeps to the limits and the
still axes; and then so does every position on the way, if the lengths of the plans fit. -/
theorem vector_move_keeps {fm : FastMoveParam ℝ} {level : Mfr} {read : Axis ℝ}
    {speed : MoveRuntimePlanSpeedInput ℝ} {touch touch' : Bool} (t : MotionThread ℝ)
    (nowMs hrNowNs : ℤ)
    (hpanel : startMultiaxisVectormove fm level cm read dir touch =
      some (.manualStartPointMove target speed touch'))
    (haccepted :
      (t.handleCommand nowMs hrNowNs (.manualStartPointMove target speed touch')).2 = true) :
    let start := t.motionStateMachine.shared.globalCmdAxis
    (Keeps cm dir start target ↔ MoveFits cm level dir read start) ∧
      (MoveFits cm level dir read start → 0 < fm.maxAccUmS2 →
        (level ≠ .mfr3 → 0 < getSpeedBluSFromMfrx fm level) →
        Moveruntime.Fits Moveruntime.cycleT speed (axisLengthBetween start target) →
        ∀ calls : List (ManualCall ℝ),
          let m := (t.handleCommand nowMs hrNowNs
            (.manualStartPointMove target speed touch')).1.motionStateMachine
          Machine.AllSteps manualStep StopFits m calls →
          Keeps cm dir start (Machine.run manualStep m calls).shared.globalCmdAxis) := by
  intro start
  refine ⟨keeps_target_iff hpanel, ?_⟩
  intro hmove hacc hlevel hlen calls m hcalls
  obtain ⟨-, -, hspeed, -⟩ := target_eq hpanel
  have hsp : speed.Accepted := by
    have hblu : 0 < UnitConverter.um2blu fm.maxAccUmS2 := mul_pos hacc (by
      norm_num [UnitConverter.um2blu_])
    rw [hspeed]
    refine ⟨hblu, neg_neg_of_pos hblu, ?_, rfl, rfl⟩
    show 0 < if level = .mfr3 then 30000 else getSpeedBluSFromMfrx fm level
    split
    · norm_num
    · rename_i hl
      exact hlevel hl
  have hway : m.OnWay start target := by
    simp only [MotionThread.handleCommand] at haccepted
    split at haccepted
    · simp at haccepted
    · rename_i hready
      have hret : (t.motionStateMachine.startManualPointmove speed target).2 = true := haccepted
      have hm : m = { (t.motionStateMachine.startManualPointmove speed target).1 with
          shared :=
            (t.motionStateMachine.startManualPointmove speed target).1.shared.setDetectEnable
              touch' } := by
        simp only [m, MotionThread.handleCommand, hready, hret, Bool.false_eq_true, if_true,
          if_false]
      have hstart := startManualPointmove_onWay hsp hlen hret
      rw [hm]
      exact ⟨hstart.line, hstart.place, hstart.paused⟩
  have hrun : (Machine.run manualStep m calls).OnWay start target :=
    Machine.AllSteps.invariant (I := fun m => m.OnWay start target)
      (fun _ _ h hc => h.manualStep hc) hway hcalls
  exact ((keeps_target_iff hpanel).mpr hmove).of_between hrun.place

end Move

section Sample

open MotionStateMachine

attribute [local instance] Sample.settings

/-- Machine and drives agree; every axis may go to twelve. -/
def sampleManager (K : Type) [Field K] : CoordinateManager K :=
  ⟨0, fun _ => none, ⟨fun _ => 12, fun _ => -12⟩⟩

/-- An acceleration so small that a move is one ramp. -/
def sampleParam (K : Type) [Field K] : FastMoveParam K := ⟨1 / 10, 1, 2, 2, 2, 2⟩

/-- A thread that is ready and stands at `g`. -/
def readyAt (g : Axis K) : MotionThread K :=
  { (MotionThread.new (K := K)) with threadState := .running }.ecatStateSwitchToReady g

/-- The panel sends a move along the first axis from zero to its limit. -/
theorem sample_panel :
    startMultiaxisVectormove (sampleParam ℝ) .mfr1 (sampleManager ℝ) 0 Sample.firstAxis false =
      some (.manualStartPointMove (fun i => (0 : Axis ℝ) i + Sample.firstAxis i * 12)
        Moveruntime.gentle false) := by
  have hfin : List.finRange 6 = [0, 1, 2, 3, 4, 5] := rfl
  have hloop : eachAxisIncLength (sampleManager ℝ).softLimits Sample.firstAxis
      ((sampleManager ℝ).motorToMachine 0) (List.finRange 6) false 0 = some 12 := by
    rw [hfin]
    norm_num [eachAxisIncLength_cons, eachAxisIncLength, room, Sample.firstAxis, sampleManager,
      CoordinateManager.motorToMachine]
  have hspeed : getDefaultSpeedParam (sampleParam ℝ) .mfr1 = Moveruntime.gentle := by
    norm_num [getDefaultSpeedParam, getSpeedBluSFromMfrx, sampleParam, Moveruntime.gentle,
      UnitConverter.ms2p, UnitConverter.ms2p_, UnitConverter.p2ms_, UnitConverter.um2blu,
      UnitConverter.um2blu_, Settings.motionCycleUs]
  simp only [startMultiaxisVectormove, hloop, hspeed, reduceCtorEq, if_false]
  congr 2
  funext i
  simp only [CoordinateManager.machineToMotor, CoordinateManager.motorToMachine, sampleManager,
    incs, Sample.firstAxis]
  split <;> simp

/-- A move whose position was read where the thread stands. -/
theorem sample_move_keeps :
    let m := ((readyAt (0 : Axis ℝ)).handleCommand 0 0 (.manualStartPointMove
      (fun i => (0 : Axis ℝ) i + Sample.firstAxis i * 12) Moveruntime.gentle
      false)).1.motionStateMachine
    Keeps (sampleManager ℝ) Sample.firstAxis 0
      (Machine.run MotionStateMachine.manualStep m
        (.replicate 3 (.runOnce ⟨false, 0, 0, 0, 0⟩))).shared.globalCmdAxis := by
  have hlen : MotionUtils.axisLengthBetween (0 : Axis ℝ)
      (fun i => (0 : Axis ℝ) i + Sample.firstAxis i * 12) = 12 := by
    rw [MotionUtils.axisLengthBetween_along Sample.firstAxis_length]
    norm_num
  have haccepted : ((readyAt (0 : Axis ℝ)).handleCommand 0 0 (.manualStartPointMove
      (fun i => (0 : Axis ℝ) i + Sample.firstAxis i * 12) Moveruntime.gentle false)).2 = true := by
    have hret : (PointMoveHandler.start
        ((readyAt (0 : Axis ℝ)).motionStateMachine.pmHandler) Moveruntime.gentle 0
        (fun i => (0 : Axis ℝ) i + Sample.firstAxis i * 12)).2 = true := by
      rcases PointMoveHandler.start_cases _ Moveruntime.gentle (0 : Axis ℝ)
        (fun i => (0 : Axis ℝ) i + Sample.firstAxis i * 12) with ⟨h, -, -⟩ | ⟨-, -, h⟩
      · exact h
      · rw [hlen] at h
        norm_num at h
    exact (startManualPointmove_idle rfl).trans hret
  have hfits : MoveFits (sampleManager ℝ) .mfr1 Sample.firstAxis 0 0 := by
    refine ⟨fun _ _ => rfl, by simp, fun r hr i hi => .inl ?_⟩
    have hlead : lead Sample.firstAxis (0 : Axis ℝ) 0 i = 0 := by simp [lead]
    have hi0 : i = 0 := by
      by_contra h
      exact hi (by simp [Sample.firstAxis, h])
    obtain ⟨⟨j, hj, rfl⟩, -⟩ := hr
    have hj0 : j = 0 := by
      by_contra h
      exact hj (by simp [Sample.firstAxis, h])
    rw [hlead, hj0]
    norm_num [room, Sample.firstAxis, sampleManager, CoordinateManager.motorToMachine]
  refine (vector_move_keeps (readyAt 0) 0 0 sample_panel haccepted).2 hfits ?_ ?_ ?_ _ ?_
  · norm_num [sampleParam]
  · norm_num [sampleParam, getSpeedBluSFromMfrx, UnitConverter.um2blu, UnitConverter.um2blu_]
  · have hfit : Moveruntime.Fits Moveruntime.cycleT Moveruntime.gentle 12 :=
      Moveruntime.gentle_fits (by norm_num) (by norm_num)
    rwa [← hlen] at hfit
  · exact ⟨trivial, trivial, trivial, trivial⟩

/-- Where a move along the first axis comes to in three cycles. -/
def movedTo (level : Mfr) (read g : Axis ℚ) : Option (Axis ℚ) := do
  let cmd ← startMultiaxisVectormove (sampleParam ℚ) level (sampleManager ℚ) read (Sample.xAxis 1)
    false
  let (t, accepted) := (readyAt g).handleCommand 0 0 cmd
  if accepted then
    some (Machine.run MotionStateMachine.manualStep t.motionStateMachine
      (.replicate 3 (.runOnce (Sample.input 0)))).shared.globalCmdAxis
  else none

/-- The second axis stands at five, where it was zero when the position was read. -/
def staleAxis : Axis ℚ := fun i => if i = 1 then 5 else 0

/-- A move along the first axis moves the second one, if it has gone on since the position was
read. A single step goes past a limit that is nearer than a micrometre. -/
theorem stale_and_single_step_fail :
    (∃ g ∈ movedTo .mfr1 0 staleAxis, ¬Keeps (sampleManager ℚ) (Sample.xAxis 1) staleAxis g) ∧
    ∃ g ∈ movedTo .mfr3 (Sample.xAxis (12 - 1 / 10 ^ 9)) (Sample.xAxis (12 - 1 / 10 ^ 9)),
      ¬Keeps (sampleManager ℚ) (Sample.xAxis 1) (Sample.xAxis (12 - 1 / 10 ^ 9)) g := by
  decide +kernel

end Sample

end MovePanel

end Edm
