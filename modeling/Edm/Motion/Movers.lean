import Edm.Motion.Lines
import Edm.Motion.PointMoveRun
import Edm.Motion.TaskLaws

/-!
# The mover of a cycle

In each cycle at most one object moves the axes: a point move or a trajectory segment. Each keeps
its own position and writes it over the commanded axis. `Mover` names the object a cycle runs, with
the position it starts from and the increment it makes. This module says which it is for each task,
and that the task hands over from one to the next without a step (`AutoTask.At`).
-/

set_option linter.unusedSectionVars false

namespace Edm

/-- What moves the axes in one cycle. -/
inductive Mover (K : Type) where
  | rest
  | point (m : PointMoveHandler K)
  | line (l : TrajectoryLinearSegement K) (inc : K)

variable {K : Type} [Field K] [LinearOrder K]

namespace Mover

/-- The mover starts from `g`. -/
def StandsAt : Mover K → Axis K → Prop
  | rest, _ => True
  | point m, g => m.currPos = g
  | line l _, g => l.currPos = g

/-- The increment of the mover in the cycle it runs. -/
def increment : Mover K → Axis K
  | rest => 0
  | point m => fun i => m.unitVector i * m.mrtWrapper.runOnce.2
  | line l inc => fun i => l.unitVector i * (l.validate (l.currLength + inc) - l.currLength)

/-- The mover starts from `g` and its increment leads to `g'`. -/
structure Leads (m : Mover K) (g g' : Axis K) : Prop where
  standsAt : m.StandsAt g
  moved : ∀ i, g' i = g i + m.increment i

theorem rest_leads (g : Axis K) : (rest : Mover K).Leads g g :=
  ⟨trivial, fun _ => (add_zero _).symm⟩

end Mover

namespace PointMoveHandler

/-- The move stands at `g` and, while it is under way, at its length on the line. -/
def At (m : PointMoveHandler K) (g : Axis K) : Prop :=
  m.currPos = g ∧ (m.isOver = false → m.Tracks)

variable {m : PointMoveHandler K} {g : Axis K}

theorem runOnce_of_over (h : m.isOver) : m.runOnce.currPos = m.currPos ∧
    m.mrtWrapper.runOnce.2 = 0 ∧ m.runOnce.isOver := by
  have hw : m.mrtWrapper.runOnce = (m.mrtWrapper, 0) := by
    unfold MoveruntimeWrapper.runOnce
    rcases MoveruntimeWrapper.isOver_iff.mp h with hs | hs <;> simp only [hs]
  have ho : m.runOnce.isOver := by
    simpa only [isOver, runOnce_mrtWrapper, hw] using h
  exact ⟨runOnce_currPos_of_over ho, by rw [hw], ho⟩

/-- A cycle of a point move. -/
theorem At.runOnce (h : m.At g) :
    m.runOnce.At m.runOnce.currPos ∧ (Mover.point m).Leads g m.runOnce.currPos := by
  obtain ⟨hpos, htracks⟩ := h
  cases ho : m.isOver with
  | true =>
    obtain ⟨h1, h2, h3⟩ := runOnce_of_over ho
    refine ⟨⟨rfl, fun h => absurd h (by simp [h3])⟩, hpos, fun i => ?_⟩
    simp only [h1, hpos, Mover.increment, h2, mul_zero, add_zero]
  | false =>
    refine ⟨⟨rfl, fun _ => (htracks ho).runOnce⟩, hpos, fun i => ?_⟩
    rw [(htracks ho).runOnce_currPos, hpos]
    rfl

variable [FloorRing K] [RealFns K] [Settings]

/-- A call that only changes the wrapper's state and plan leaves the move where it is. -/
theorem At.ofWrapper {w : MoveruntimeWrapper K} (h : m.At g)
    (hc : w.currLength = m.mrtWrapper.currLength)
    (ho : w.isOver = false → m.isOver = false) : { m with mrtWrapper := w }.At g := by
  refine ⟨h.1, fun hover i => ?_⟩
  show m.currPos i = m.startPos i + m.unitVector i * w.currLength
  rw [h.2 (ho hover) i, hc]

theorem At.stop (h : m.At g) (imm : Bool) : (m.stop imm).1.At g := by
  refine h.ofWrapper (MoveruntimeWrapper.stop_currLength imm) fun ho => ?_
  by_contra hover
  rw [Bool.not_eq_false] at hover
  have : (m.mrtWrapper.stop imm).1.isOver := by
    rcases MoveruntimeWrapper.isOver_iff.mp hover with hs | hs <;> cases imm <;>
      simp [MoveruntimeWrapper.stop, hs]
  exact absurd (this.symm.trans ho) (by simp)

theorem At.pause (h : m.At g) : m.pause.1.At g := by
  refine h.ofWrapper MoveruntimeWrapper.pause_currLength.1 fun ho => ?_
  by_contra hover
  rw [Bool.not_eq_false] at hover
  have : m.mrtWrapper.pause.1.isOver := by
    rcases MoveruntimeWrapper.isOver_iff.mp hover with hs | hs <;>
      simp [MoveruntimeWrapper.pause, hs]
  exact absurd (this.symm.trans ho) (by simp)

theorem At.resume (h : m.At g) : m.resume.1.At g := by
  refine h.ofWrapper MoveruntimeWrapper.resume_currLength.1 fun ho => ?_
  by_contra hover
  rw [Bool.not_eq_false] at hover
  have : m.mrtWrapper.resume.1.isOver := by
    rcases MoveruntimeWrapper.isOver_iff.mp hover with hs | hs <;>
      simp [MoveruntimeWrapper.resume, hs]
  exact absurd (this.symm.trans ho) (by simp)

/-- A move started by a handler that is over, or refused by it, stands at its start. -/
theorem start_at (ho : m.isOver) (sp : MoveRuntimePlanSpeedInput K) (startPos targetPos : Axis K) :
    (m.start sp startPos targetPos).1.At startPos := by
  refine ⟨rfl, fun hover => ?_⟩
  rcases m.start_cases sp startPos targetPos with ⟨hret, _, _⟩ | ⟨_, hs, _⟩
  · exact (start_tracks hret).1
  · refine absurd hover ?_
    rw [Bool.not_eq_false, isOver_iff, hs]
    exact isOver_iff.mp ho

/-- A refused start leaves a handler over. -/
theorem start_over (ho : m.isOver) (sp : MoveRuntimePlanSpeedInput K) (startPos targetPos : Axis K)
    (h : (m.start sp startPos targetPos).2 = false) : (m.start sp startPos targetPos).1.isOver := by
  rcases m.start_cases sp startPos targetPos with ⟨hret, _, _⟩ | ⟨_, hs, _⟩
  · exact absurd (h.symm.trans hret) (by simp)
  · rw [isOver_iff, hs]
    exact isOver_iff.mp ho

end PointMoveHandler

variable [FloorRing K] [RealFns K] [Settings]

namespace G00AutoTask

def mover (t : G00AutoTask K) (sh : MotionShared K) (inp : CycleInput K) : Mover K :=
  .point (if ((sh.setDetectEnable t.enableTouchDetect).runDetectOnce inp).2
    then (t.pmHandler.stop true).1 else t.pmHandler)

theorem runOnce_at {t : G00AutoTask K} {sh : MotionShared K} (inp : CycleInput K)
    (h : t.pmHandler.At sh.globalCmdAxis) :
    (t.runOnce sh inp).1.pmHandler.At (t.runOnce sh inp).2.globalCmdAxis ∧
      (t.mover sh inp).Leads sh.globalCmdAxis (t.runOnce sh inp).2.globalCmdAxis := by
  have hg : (t.runOnce sh inp).2.globalCmdAxis = (t.runOnce sh inp).1.pmHandler.currPos := by
    simp only [runOnce]
    split <;> split <;> rfl
  rw [hg]
  simp only [runOnce, mover]
  split
  · exact (h.stop true).runOnce
  · exact h.runOnce

end G00AutoTask

namespace G01GroupAutoTask

def mover (t : G01GroupAutoTask K) (sh : MotionShared K) : Mover K :=
  if t.state = .normalMoving then
    match t.trajList with
    | none => .rest
    | some traj =>
      match t.items[traj.currSegementIndex]? with
      | none => .rest
      | some item =>
        .line traj.curr (UnitConverter.mmMin2bluP (item.feedrate : K) * sh.g01SpeedRatio)
  else .rest

/-- The chain stands at `g`. -/
def At (t : G01GroupAutoTask K) (g : Axis K) : Prop :=
  ∀ traj, t.trajList = some traj → traj.Linked ∧ traj.currCmdAxis = g

variable [IsStrictOrderedRing K] [LawfulSqrt K]

theorem At.runOnce {t : G01GroupAutoTask K} {sh : MotionShared K} (h : t.At sh.globalCmdAxis) :
    (t.runOnce sh).1.At (t.runOnce sh).2.globalCmdAxis ∧
      (t.mover sh).Leads sh.globalCmdAxis (t.runOnce sh).2.globalCmdAxis := by
  unfold G01GroupAutoTask.runOnce mover
  cases hs : t.state with
  | normalMoving =>
    simp only [stateNormalRunning, if_true]
    cases ht : t.trajList with
    | none => exact ⟨h, Mover.rest_leads _⟩
    | some traj =>
      simp only
      cases hi : t.items[traj.currSegementIndex]? with
      | none => exact ⟨h, Mover.rest_leads _⟩
      | some item =>
        obtain ⟨hl, hg⟩ := h traj ht
        obtain ⟨hl', hmoved⟩ :=
          hl.runOnce (UnitConverter.mmMin2bluP (item.feedrate : K) * sh.g01SpeedRatio)
        have hat {t' : G01GroupAutoTask K}
            (ht' : t'.trajList = some (traj.runOnce
              (UnitConverter.mmMin2bluP (item.feedrate : K) * sh.g01SpeedRatio))) :
            t'.At (traj.runOnce
              (UnitConverter.mmMin2bluP (item.feedrate : K) * sh.g01SpeedRatio)).currCmdAxis := by
          intro traj' htraj'
          obtain rfl := Option.some.inj (ht'.symm.trans htraj')
          exact ⟨hl', rfl⟩
        have hleads : (Mover.line traj.curr
            (UnitConverter.mmMin2bluP (item.feedrate : K) * sh.g01SpeedRatio)).Leads
            sh.globalCmdAxis (traj.runOnce
              (UnitConverter.mmMin2bluP (item.feedrate : K) * sh.g01SpeedRatio)).currCmdAxis :=
          ⟨hg, fun i => by rw [hmoved, hg]; rfl⟩
        simp only
        split
        · exact ⟨hat rfl, hleads⟩
        · exact ⟨hat rfl, hleads⟩
  | _ => exact ⟨h, Mover.rest_leads _⟩

/-- A new group starts where the axes stand. -/
theorem new_at (items : List (G01GroupItem K)) (sh : MotionShared K) :
    (G01GroupAutoTask.new items sh).1.At sh.globalCmdAxis := by
  intro traj htraj
  simp only [G01GroupAutoTask.new] at htraj
  split at htraj
  · exact absurd htraj (by simp)
  · rename_i seg rest hseg
    obtain rfl := Option.some.inj htraj
    obtain ⟨_, hpos, hchain, hline⟩ := TrajectoryList.segements_linked hseg
    refine ⟨⟨hline seg (by simp), hchain, .singleton _, fun l hl => ?_⟩, hpos⟩
    exact (hline l (List.mem_cons_of_mem _ (by simpa using hl))).toProper

end G01GroupAutoTask

end Edm
