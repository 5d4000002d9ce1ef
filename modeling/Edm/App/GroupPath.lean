import Edm.App.Prepare
import Edm.Lib.Polyline
import Edm.Lib.Run
import Edm.Motion.Commands
import Edm.Motion.Lines

/-!
# The path of a line group

The runner hands the group task increments, the task adds them up again. Where no increment of an
absolute point is snapped to zero, the segments are those of the program and the task keeps to the
programmed contour (`group_follows_program`). A snapped increment takes the task off the contour
for good, or leaves a segment without a length (`snapped_point_leaves_path`).
-/

set_option linter.unusedSectionVars false

namespace Edm

variable {K : Type} [Field K] [LinearOrder K]

/-! ### The program -/

namespace CoordinateManager

/-- The offset of a coordinate system. -/
def offset (cm : CoordinateManager K) (coordIndex : ℤ) : Axis K :=
  (cm.coordinatesMap (uint32 coordIndex)).getD 0

end CoordinateManager

namespace G01GroupPoint

/-- Where a point lies in machine coordinates, seen from the point before it. -/
def target (offset prev : Axis K) (p : G01GroupPoint K) : Axis K := fun i =>
  match p.cmdValues i with
  | none => prev i
  | some v =>
    if p.coordMode = .incrementMode then prev i + UnitConverter.mm2blu v
    else offset i + UnitConverter.mm2blu v

/-- The programmed points after `prev`, in machine coordinates. -/
def programmed (offset : Axis K) : Axis K → List (G01GroupPoint K) → List (Axis K)
  | _, [] => []
  | prev, p :: ps => p.target offset prev :: programmed offset (p.target offset prev) ps

/-- Those of them that differ from the one before. -/
def moves (offset : Axis K) : Axis K → List (G01GroupPoint K) → List (Axis K)
  | _, [] => []
  | prev, p :: ps =>
    if prev = p.target offset prev then moves offset prev ps
    else p.target offset prev :: moves offset (p.target offset prev) ps

/-- On every axis an absolute point either keeps the position of the point before or differs from it by the limit of
snapping at least. -/
def AboveSnapLimit (offset : Axis K) : Axis K → List (G01GroupPoint K) → Prop
  | _, [] => True
  | prev, p :: ps =>
    (p.coordMode ≠ .incrementMode →
      ∀ i, p.target offset prev i = prev i ∨
        GCodeRunner.snapLimit ≤ |p.target offset prev i - prev i|) ∧
      AboveSnapLimit offset (p.target offset prev) ps

instance AboveSnapLimit.decidable (offset : Axis K) :
    ∀ prev ps, Decidable (AboveSnapLimit offset prev ps)
  | _, [] => isTrue trivial
  | prev, p :: ps =>
    @instDecidableAnd _ _ _ (AboveSnapLimit.decidable offset (p.target offset prev) ps)

variable {offset prev : Axis K} {p : G01GroupPoint K} {ps : List (G01GroupPoint K)}

/-- Leaving out points that do not move leaves no position of the polyline out, in whatever
coordinates `f` the points are taken. -/
theorem on_programmed_of_on_moves {f : Axis K → Axis K} {x : Axis K}
    (h : Polyline.On K (f prev :: (moves offset prev ps).map f) x) :
    Polyline.On K (f prev :: (programmed offset prev ps).map f) x := by
  induction ps generalizing prev with
  | nil => exact h
  | cons p ps ih =>
    simp only [moves] at h
    simp only [programmed, List.map_cons]
    split at h
    · rename_i heq
      rw [← heq]
      exact (ih h).cons (f prev)
    · rcases Polyline.on_cons_cons.mp h with h | h
      · exact Polyline.on_cons_cons.mpr (.inl h)
      · exact Polyline.on_cons_cons.mpr (.inr (ih h))

/-- Both end at the same point. -/
theorem getLastD_moves {f : Axis K → Axis K} :
    ((moves offset prev ps).map f).getLastD (f prev) =
      ((programmed offset prev ps).map f).getLastD (f prev) := by
  induction ps generalizing prev with
  | nil => rfl
  | cons p ps ih =>
    simp only [moves, programmed, List.map_cons, List.getLastD_cons]
    split
    · rename_i heq
      rw [← heq]
      exact ih
    · rw [List.map_cons, List.getLastD_cons]
      exact ih

end G01GroupPoint

namespace GCodeRunner

open G01GroupPoint

variable {cm : CoordinateManager K} {coordIndex : ℤ}

theorem machTargetPos_eq {what : String} {p : G01GroupPoint K} {machStartPos : Axis K}
    (h : cm.existCoordinateIndex (uint32 coordIndex)) :
    machTargetPos what cm coordIndex p.coordMode p.cmdValues machStartPos =
      .ok (p.target (cm.offset coordIndex) machStartPos) := by
  obtain ⟨offset, ho⟩ := Option.isSome_iff_exists.mp h
  have hoff : cm.offset coordIndex = offset := by simp [CoordinateManager.offset, ho]
  unfold machTargetPos
  split
  · rename_i hm
    congr 1
    funext i
    simp only [target, hm, if_true]
    cases p.cmdValues i <;> rfl
  · rename_i hm
    simp only [CoordinateManager.machineToCoord, CoordinateManager.coordToMachine, ho,
      Option.map_some]
    congr 1
    funext i
    simp only [target, hm, if_false, hoff]
    cases p.cmdValues i with
    | none => simp
    | some v => exact add_comm _ _

variable [IsStrictOrderedRing K]

/-- An increment survives snapping exactly if it is zero or not below the limit. -/
theorem snap_eq_self {x : K} : snap x = x ↔ x = 0 ∨ snapLimit ≤ |x| := by
  unfold snap
  split
  · rename_i hlt
    constructor
    · exact fun h => .inl h.symm
    · rintro (h | h)
      · exact h.symm
      · exact absurd hlt (not_lt.mpr h)
  · rename_i hge
    exact ⟨fun _ => .inr (not_lt.mp hge), fun _ => rfl⟩

/-- The increments lead to the target unless one of them is snapped. -/
theorem groupIncs_eq {p : G01GroupPoint K} {offset prev : Axis K} :
    (∀ i, groupIncs p prev (p.target offset prev) i = p.target offset prev i - prev i) ↔
      (p.coordMode ≠ .incrementMode → ∀ i, p.target offset prev i = prev i ∨
        snapLimit ≤ |p.target offset prev i - prev i|) := by
  unfold groupIncs
  by_cases hm : p.coordMode = .incrementMode
  · simp only [hm, if_true, ne_eq, not_true_eq_false, false_implies, iff_true]
    intro i
    simp only [target, hm, if_true]
    cases p.cmdValues i <;> simp
  · simp only [hm, if_false, ne_eq, not_false_eq_true, true_implies, snap_eq_self, sub_eq_zero]

variable [RealFns K]

/-- What preparing a point and the points after it comes to. -/
theorem groupItems_cons {p : G01GroupPoint K} {ps : List (G01GroupPoint K)} {prev : Axis K}
    {items : List (G01GroupItem K)} (hi : cm.existCoordinateIndex (uint32 coordIndex))
    (h : groupItems cm coordIndex prev (p :: ps) = .ok items) :
    let machTarget := p.target (cm.offset coordIndex) prev
    (prev = machTarget ∧ groupItems cm coordIndex machTarget ps = .ok items) ∨
      (prev ≠ machTarget ∧ ∃ rest, groupItems cm coordIndex machTarget ps = .ok rest ∧
        items = ⟨groupIncs p prev machTarget, p.lineNumber, p.feedrate⟩ :: rest) := by
  intro machTarget
  rw [groupItems, machTargetPos_eq hi] at h
  simp only at h
  split at h
  · rename_i heq
    refine .inl ⟨heq, ?_⟩
    show groupItems cm coordIndex (p.target _ prev) ps = _
    rw [← heq]
    exact h
  · rename_i hne
    split at h
    · simp at h
    · split at h
      · simp at h
      · rename_i rest hrest
        exact .inr ⟨hne, rest, hrest, (Except.ok.inj h).symm⟩

/-- The item of a point leads from the motor position of the point before to its own. -/
theorem motor_add_groupIncs {p : G01GroupPoint K} {offset prev : Axis K} :
    ((fun i => cm.machineToMotor prev i + groupIncs p prev (p.target offset prev) i) =
        cm.machineToMotor (p.target offset prev)) ↔
      (p.coordMode ≠ .incrementMode → ∀ i, p.target offset prev i = prev i ∨
        snapLimit ≤ |p.target offset prev i - prev i|) := by
  rw [← groupIncs_eq, funext_iff]
  refine forall_congr' fun i => ?_
  simp only [CoordinateManager.machineToMotor]
  constructor
  · intro h
    linarith
  · intro h
    rw [h]
    ring

/-- Above the limit of snapping the segments end at the programmed points, and each of them moves. -/
theorem segements_of_aboveSnapLimit {ps : List (G01GroupPoint K)} {prev : Axis K}
    {items : List (G01GroupItem K)} (hi : cm.existCoordinateIndex (uint32 coordIndex))
    (h : groupItems cm coordIndex prev ps = .ok items)
    (hs : AboveSnapLimit (cm.offset coordIndex) prev ps) :
    let segs := G01GroupAutoTask.segements (cm.machineToMotor prev) items
    segs.map (·.endPos) = (moves (cm.offset coordIndex) prev ps).map cm.machineToMotor ∧
      ∀ l ∈ segs, l.startPos ≠ l.endPos := by
  induction ps generalizing prev items with
  | nil =>
    obtain rfl : items = [] := by simpa [groupItems] using h.symm
    simp [G01GroupAutoTask.segements, moves]
  | cons p ps ih =>
    obtain ⟨hp, hps⟩ := hs
    rcases groupItems_cons hi h with ⟨heq, hrest⟩ | ⟨hne, rest, hrest, rfl⟩
    · rw [← heq] at hrest hps
      rw [moves, if_pos heq]
      exact ih hrest hps
    · obtain ⟨hmap, hlen⟩ := ih hrest hps
      have hend : (fun i => cm.machineToMotor prev i +
          groupIncs p prev (p.target (cm.offset coordIndex) prev) i) =
          cm.machineToMotor (p.target (cm.offset coordIndex) prev) := motor_add_groupIncs.mpr hp
      simp only [G01GroupAutoTask.segements, hend, moves, if_neg hne, List.map_cons, hmap]
      refine ⟨rfl, fun l hl => ?_⟩
      rcases List.mem_cons.mp hl with rfl | hl
      · intro heq
        refine hne (funext fun i => ?_)
        simpa [TrajectoryLinearSegement.new, CoordinateManager.machineToMotor] using congrFun heq i
      · exact hlen l hl

/-- And only then do they. -/
theorem aboveSnapLimit_of_segements {ps : List (G01GroupPoint K)} {prev : Axis K}
    {items : List (G01GroupItem K)} (hi : cm.existCoordinateIndex (uint32 coordIndex))
    (h : groupItems cm coordIndex prev ps = .ok items)
    (hmap : (G01GroupAutoTask.segements (cm.machineToMotor prev) items).map (·.endPos) =
      (moves (cm.offset coordIndex) prev ps).map cm.machineToMotor) :
    AboveSnapLimit (cm.offset coordIndex) prev ps := by
  induction ps generalizing prev items with
  | nil => trivial
  | cons p ps ih =>
    rcases groupItems_cons hi h with ⟨heq, hrest⟩ | ⟨hne, rest, hrest, rfl⟩
    · rw [moves, if_pos heq] at hmap
      rw [← heq] at hrest
      refine ⟨fun _ i => .inl ?_, ?_⟩
      · exact (congrFun heq i).symm
      · rw [← heq]
        exact ih hrest hmap
    · simp only [G01GroupAutoTask.segements, moves, if_neg hne, List.map_cons, List.cons.injEq]
        at hmap
      obtain ⟨hend, hmap⟩ := hmap
      have hend : (fun i => cm.machineToMotor prev i + groupIncs p prev
          (p.target (cm.offset coordIndex) prev) i) = _ := hend
      rw [hend] at hmap
      exact ⟨motor_add_groupIncs.mp hend, ih hrest hmap⟩

end GCodeRunner

/-! ### The task -/

namespace TrajectoryList

variable [RealFns K]

/-- The ends of a chain do not change while it is walked. -/
def ends (t : TrajectoryList K) : List (Axis K × Axis K) :=
  t.all.map fun l => (l.startPos, l.endPos)

theorem ends_runOnce (t : TrajectoryList K) (inc : K) : (t.runOnce inc).ends = t.ends :=
  map_all_runOnce (fun _ _ => rfl) (fun _ => rfl) (fun _ => rfl) t inc

end TrajectoryList

/-- A group task with the shared data it moves in. -/
structure GroupRun (K : Type) where
  task : G01GroupAutoTask K
  shared : MotionShared K

namespace GroupRun

/-- What may happen to a group task that nobody stops; the speed ratio is set by other commands. -/
inductive Action (K : Type) where
  | runOnce
  | pause
  | resume
  | setG01SpeedRatio (ratio : K)

section Run

variable [RealFns K]

def start (items : List (G01GroupItem K)) (sh : MotionShared K) : GroupRun K :=
  let (task, sh) := G01GroupAutoTask.new items sh
  ⟨task, sh⟩

variable [Settings]

def step (s : GroupRun K) : Action K → GroupRun K
  | .runOnce => let (task, sh) := s.task.runOnce s.shared; ⟨task, sh⟩
  | .pause => { s with task := s.task.pause.1 }
  | .resume => { s with task := s.task.resume.1 }
  | .setG01SpeedRatio ratio => { s with shared := { s.shared with g01SpeedRatio := ratio } }

/-- The task walks the chain with the ends `ends`, and is over only at its end. -/
def Walks (ends : List (Axis K × Axis K)) (s : GroupRun K) : Prop :=
  s.task.state ≠ .stopping ∧ ∃ traj, s.task.trajList = some traj ∧ traj.Linked ∧
    traj.ends = ends ∧ s.shared.globalCmdAxis = traj.currCmdAxis ∧
    (s.task.state = .stopped → traj.atEnd)

variable [IsStrictOrderedRing K] [LawfulSqrt K] {s : GroupRun K} {ends : List (Axis K × Axis K)}

theorem Walks.step (h : s.Walks ends) (a : Action K) : (s.step a).Walks ends := by
  obtain ⟨hns, traj, ht, hl, he, hc, hover⟩ := h
  cases a with
  | pause =>
    refine ⟨?_, traj, ?_, hl, he, hc, ?_⟩ <;> simp only [GroupRun.step, G01GroupAutoTask.pause] <;>
      split <;> simp_all
  | resume =>
    refine ⟨?_, traj, ?_, hl, he, hc, ?_⟩ <;> simp only [GroupRun.step, G01GroupAutoTask.resume] <;>
      split <;> simp_all
  | setG01SpeedRatio ratio => exact ⟨hns, traj, ht, hl, he, hc, hover⟩
  | runOnce =>
    simp only [GroupRun.step, G01GroupAutoTask.runOnce]
    split
    · rename_i hs
      simp only [G01GroupAutoTask.stateNormalRunning, ht]
      split
      · exact ⟨hns, traj, ht, hl, he, hc, hover⟩
      · rename_i item hitem
        have hwalk := (hl.runOnce (UnitConverter.mmMin2bluP (item.feedrate : K) *
          s.shared.g01SpeedRatio)).1
        split
        · rename_i hend
          exact ⟨by simp, _, rfl, hwalk, (traj.ends_runOnce _).trans he, rfl, fun _ => hend⟩
        · refine ⟨hns, _, rfl, hwalk, (traj.ends_runOnce _).trans he, rfl, fun hst => ?_⟩
          exact absurd (hs.symm.trans hst) (by simp)
    · exact ⟨by simp, traj, ht, hl, he, hc, by simp⟩
    · exact ⟨hns, traj, ht, hl, he, hc, hover⟩
    · exact ⟨by simp, traj, ht, hl, he, hc, by simp⟩
    · rename_i hs
      exact absurd hs hns
    · exact ⟨hns, traj, ht, hl, he, hc, hover⟩

theorem start_walks {items : List (G01GroupItem K)} {sh : MotionShared K}
    (h : (G01GroupAutoTask.new items sh).1.isOver = false) :
    (start items sh).Walks
      ((G01GroupAutoTask.segements sh.globalCmdAxis items).map fun l => (l.startPos, l.endPos)) := by
  unfold start
  unfold G01GroupAutoTask.new at h ⊢
  split at h
  · simp [G01GroupAutoTask.isOver, G01GroupAutoTask.isStopped] at h
  · rename_i seg rest hseg
    obtain ⟨hstart, hcurr, hchain, hline⟩ := TrajectoryList.segements_linked hseg
    rw [hseg]
    refine ⟨by simp, ⟨[], seg, rest⟩, rfl, ?_, rfl, hcurr.symm, by simp⟩
    refine ⟨hline seg (by simp), hchain, .singleton _, fun l hl => ?_⟩
    exact (hline l (by simpa using .inr hl)).toProper

/-- A segment of the task lies between two neighbours of the points it was built from. -/
theorem infix_of_mem_segements {items : List (G01GroupItem K)} {firstPos : Axis K}
    {l : TrajectoryLinearSegement K} (h : l ∈ G01GroupAutoTask.segements firstPos items) :
    [l.startPos, l.endPos] <:+:
      firstPos :: (G01GroupAutoTask.segements firstPos items).map (·.endPos) := by
  induction items generalizing firstPos with
  | nil => simp [G01GroupAutoTask.segements] at h
  | cons item items ih =>
    simp only [G01GroupAutoTask.segements, List.mem_cons, List.map_cons] at h ⊢
    rcases h with rfl | h
    · exact List.IsPrefix.isInfix ⟨_, rfl⟩
    · exact (ih h).trans (List.suffix_cons _ _).isInfix

theorem segements_onLine {items : List (G01GroupItem K)} {firstPos : Axis K}
    {l : TrajectoryLinearSegement K} (h : l ∈ G01GroupAutoTask.segements firstPos items) :
    l.OnLine := by
  cases hs : G01GroupAutoTask.segements firstPos items with
  | nil => simp [hs] at h
  | cons seg rest => exact (TrajectoryList.segements_linked hs).2.2.2 l (hs ▸ h)

/-- A segment that moves carries its position between its ends. -/
theorem onLine_mem_segment {l : TrajectoryLinearSegement K} (h : l.OnLine)
    (hne : l.startPos ≠ l.endPos) : l.currPos ∈ segment K l.startPos l.endPos := by
  have htot : 0 < l.totalLength := h.totalLength ▸ axisLengthBetween_pos hne
  refine ⟨1 - l.currLength / l.totalLength, l.currLength / l.totalLength, ?_, ?_, by ring, ?_⟩
  · rw [sub_nonneg, div_le_one htot]
    exact h.le_total
  · exact div_nonneg h.nonneg htot.le
  · funext i
    have hend := axisUnitVector_mul_length (a := l.startPos) (b := l.endPos) i
    rw [← h.unitVector, ← h.totalLength] at hend
    have hcancel : l.currLength / l.totalLength * l.totalLength = l.currLength :=
      div_mul_cancel₀ _ htot.ne'
    simp only [Pi.add_apply, Pi.smul_apply, smul_eq_mul, h.currPos, ← hend]
    linear_combination l.unitVector i * hcancel

/-- Where a task that walks the segments of its items stands. -/
theorem Walks.position {items : List (G01GroupItem K)} {firstPos : Axis K}
    (h : s.Walks ((G01GroupAutoTask.segements firstPos items).map fun l => (l.startPos, l.endPos)))
    (hne : ∀ l ∈ G01GroupAutoTask.segements firstPos items, l.startPos ≠ l.endPos) :
    let points := (G01GroupAutoTask.segements firstPos items).map (·.endPos)
    Polyline.On K (firstPos :: points) s.shared.globalCmdAxis ∧
      (s.task.isStopped → s.shared.globalCmdAxis = points.getLastD firstPos) := by
  obtain ⟨-, traj, -, hl, he, hc, hover⟩ := h
  rw [hc]
  refine ⟨?_, fun hst => ?_⟩
  · have hmem : (traj.curr.startPos, traj.curr.endPos) ∈ traj.ends :=
      List.mem_map_of_mem (by simp [TrajectoryList.all])
    rw [he] at hmem
    obtain ⟨l, hl', heq⟩ := List.mem_map.mp hmem
    obtain ⟨hs, hend⟩ := Prod.mk.inj heq
    refine ⟨l.startPos, l.endPos, infix_of_mem_segements hl', ?_⟩
    have hcurr : traj.curr.startPos ≠ traj.curr.endPos := hs ▸ hend ▸ hne l hl'
    rw [hs, hend]
    exact onLine_mem_segment hl.curr hcurr
  · have hst : s.task.state = .stopped := by simpa [G01GroupAutoTask.isStopped] using hst
    have hat := hover hst
    simp only [TrajectoryList.atEnd, TrajectoryList.atEndSegement, Bool.and_eq_true,
      List.isEmpty_iff] at hat
    have hpoints := congrArg (List.map Prod.snd) he
    simp only [TrajectoryList.ends, List.map_map, Function.comp_def] at hpoints
    rw [← hpoints]
    simp only [TrajectoryList.all, hat.1, List.map_append, List.map_cons, List.map_nil,
      List.getLastD_concat]
    exact hl.curr.eq_endPos hat.2

end Run

end GroupRun

namespace GCodeRunner

open GroupRun

variable [IsStrictOrderedRing K] [FloorRing K] [RealFns K] [LawfulSqrt K] [Settings]

/-- The segments handed to the task of an accepted group end at the programmed points exactly if no
increment of an absolute point is snapped. Then each segment has a length and in every run of cycles, pauses and
resumes the commanded position is on the programmed contour and, when the task ends, at the last point. -/
theorem group_follows_program {cm : CoordinateManager K} {m : MotionStateMachine K} {coordIndex : ℤ}
    {points : List (G01GroupPoint K)} {items : List (G01GroupItem K)}
    (hprep : prepareG01Group cm m.shared.globalCmdAxis coordIndex points = .ok items)
    (hstart : (m.startAutoG01Group items).2 = true) :
    let start := m.shared.globalCmdAxis
    let offset := cm.offset coordIndex
    let prev := cm.motorToMachine start
    let segs := G01GroupAutoTask.segements start items
    let programmed := (G01GroupPoint.programmed offset prev points).map cm.machineToMotor
    (segs.map (·.endPos) = (G01GroupPoint.moves offset prev points).map cm.machineToMotor ↔
        G01GroupPoint.AboveSnapLimit offset prev points) ∧
      (G01GroupPoint.AboveSnapLimit offset prev points →
        (∀ l ∈ segs, 0 < l.totalLength) ∧
        ∀ actions : List (Action K),
          let s := Machine.run step (GroupRun.start items m.shared) actions
          Polyline.On K (start :: programmed) s.shared.globalCmdAxis ∧
            (s.task.isStopped → s.shared.globalCmdAxis = programmed.getLastD start)) := by
  intro start offset prev segs programmed
  have hi : cm.existCoordinateIndex (uint32 coordIndex) := by
    by_contra hn
    simp [prepareG01Group, Bool.eq_false_of_not_eq_true hn] at hprep
  have hitems : groupItems cm coordIndex prev points = .ok items := by
    simpa [prepareG01Group, hi] using hprep
  have hmotor : cm.machineToMotor prev = start := cm.machineToMotor_motorToMachine start
  have hover : (G01GroupAutoTask.new items m.shared).1.isOver = false := by
    simp only [MotionStateMachine.startAutoG01Group, MotionStateMachine.startAuto] at hstart
    split at hstart
    · simp at hstart
    · split at hstart
      · simp at hstart
      · rename_i ho
        exact Bool.eq_false_of_not_eq_true ho
  refine ⟨⟨fun h => aboveSnapLimit_of_segements hi hitems (by rwa [hmotor]), fun hs => ?_⟩,
    fun hs => ?_⟩
  · have h := (segements_of_aboveSnapLimit hi hitems hs).1
    rwa [hmotor] at h
  · obtain ⟨hmap, hne⟩ := segements_of_aboveSnapLimit hi hitems hs
    rw [hmotor] at hmap hne
    refine ⟨fun l hl => ?_, fun actions => ?_⟩
    · rw [(segements_onLine hl).totalLength]
      exact axisLengthBetween_pos (hne l hl)
    · have hwalks := Machine.run_invariant (I := Walks (segs.map fun l => (l.startPos, l.endPos)))
        (fun _ a h => Walks.step h a) (start_walks hover) actions
      obtain ⟨hon, hlast⟩ := hwalks.position hne
      rw [hmap] at hon hlast
      refine ⟨?_, fun hst => ?_⟩
      · rw [← hmotor] at hon ⊢
        exact G01GroupPoint.on_programmed_of_on_moves hon
      · rw [hlast hst, ← hmotor]
        exact G01GroupPoint.getLastD_moves

end GCodeRunner

namespace GCodeRunner

open GroupRun

attribute [local instance] Sample.settings

/-- One coordinate system, at the origin of the drives. -/
def originManager : CoordinateManager ℚ :=
  ⟨0, fun i => if i = 54 then some 0 else none, ⟨fun _ => 1000000, fun _ => -1000000⟩⟩

/-- An absolute point with the values `x` and `y`. -/
def absolutePoint (x y : ℚ) : G01GroupPoint ℚ :=
  ⟨fun i => if i = 0 then some x else if i = 1 then some y else none, .absoluteMode, 1, 60000⟩

/-- The preparation succeeded with items that satisfy `P`. -/
def preparedWith (P : List (G01GroupItem ℚ) → Bool) :
    Except String (List (G01GroupItem ℚ)) → Bool
  | .ok items => P items
  | .error _ => false

theorem exists_of_preparedWith {P : List (G01GroupItem ℚ) → Bool}
    {r : Except String (List (G01GroupItem ℚ))} (h : preparedWith P r) :
    ∃ items, r = .ok items ∧ P items := by
  cases r with
  | ok items => exact ⟨items, rfl, h⟩
  | error err => simp [preparedWith] at h

theorem straight_group_follows :
    ∃ items, prepareG01Group originManager 0 54 [absolutePoint 1 2] = .ok items ∧
      ∀ actions, (Machine.run step (GroupRun.start items .new) actions).task.isStopped →
        (Machine.run step (GroupRun.start items .new) actions).shared.globalCmdAxis =
          (fun i => if i = 0 then 1000 else if i = 1 then 2000 else 0) := by
  obtain ⟨items, hprep, hstart⟩ := exists_of_preparedWith
    (P := fun items => (MotionStateMachine.new.startAutoG01Group items).2)
    (r := prepareG01Group originManager 0 54 [absolutePoint 1 2]) (by decide +kernel)
  have h := (group_follows_program (m := MotionStateMachine.new) hprep hstart).2 (by decide +kernel)
  refine ⟨items, hprep, fun actions hst => ?_⟩
  exact ((h.2 actions).2 hst).trans (by decide +kernel)

/-- A point half a limit away leaves a segment without a length; a point that far off on one axis
leaves the contour. -/
theorem snapped_point_leaves_path :
    (∃ items, prepareG01Group originManager 0 54 [absolutePoint (1 / 2000000000) 0] = .ok items ∧
      (MotionStateMachine.new.startAutoG01Group items).2 = true ∧
      ∃ l ∈ G01GroupAutoTask.segements 0 items, ¬0 < l.totalLength) ∧
    (∃ items, prepareG01Group originManager 0 54 [absolutePoint 1 (1 / 2000000000)] = .ok items ∧
      (MotionStateMachine.new.startAutoG01Group items).2 = true ∧
      let s := Machine.run step (GroupRun.start items .new) [.runOnce]
      s.task.isStopped ∧ s.shared.globalCmdAxis 1 = 0 ∧
        UnitConverter.mm2blu (1 / 2000000000 : ℚ) ≠ 0) := by
  constructor
  · obtain ⟨items, hprep, hP⟩ := exists_of_preparedWith
      (P := fun items => (MotionStateMachine.new.startAutoG01Group items).2 &&
        (G01GroupAutoTask.segements 0 items).any fun l => !(0 < l.totalLength : Bool))
      (r := prepareG01Group originManager 0 54 [absolutePoint (1 / 2000000000) 0])
      (by decide +kernel)
    simp only [Bool.and_eq_true, List.any_eq_true, Bool.not_eq_true', decide_eq_false_iff_not]
      at hP
    exact ⟨items, hprep, hP⟩
  · obtain ⟨items, hprep, hP⟩ := exists_of_preparedWith
      (P := fun items => (MotionStateMachine.new.startAutoG01Group items).2 &&
        let s := Machine.run step (GroupRun.start items .new) [.runOnce]
        s.task.isStopped && (s.shared.globalCmdAxis 1 = 0 : Bool))
      (r := prepareG01Group originManager 0 54 [absolutePoint 1 (1 / 2000000000)])
      (by decide +kernel)
    simp only [Bool.and_eq_true, decide_eq_true_eq] at hP
    exact ⟨items, hprep, hP.1, hP.2.1, hP.2.2, by decide +kernel⟩

end GCodeRunner

end Edm
