import Edm.Motion.Consistency
import Edm.Motion.Numbers

/-!
# The recovery leads back to where the task was paused

The moves on the recorder form a path from the position of the pause to the commanded axis. Manual
moves extend the path at its end, the recovery walks it back, and both can be interrupted at any
cycle. `OnPath` follows the path through the states of the controller; when the recovery is over the
path is empty, so the axes stand where the task left them.
-/

set_option linter.unusedSectionVars false

namespace Edm

open Path

variable {K : Type} [Field K] [LinearOrder K]

namespace PauseMoveController

/-- Where the recorded path from `p` ends, and how the commanded axis `g` stands to it. Once the
controller is stopped from outside the path is kept but the axes may be anywhere. -/
def OnPath (c : PauseMoveController K) (p g : Axis K) : Prop :=
  match c.state with
  | .allowManualPointMove => IsPath p c.axisRecorder g
  | .manualPointMoving => IsPath p c.axisRecorder c.pmHandler.startPos ∧ g = c.pmHandler.currPos
  | .recovering =>
    IsPath p c.axisRecorder c.pmHandler.targetPos ∧ g = c.pmHandler.currPos ∧
      (c.pmHandler.state = .running ∨ c.pmHandler.state = .paused ∨
        c.pmHandler.state = .stopped ∧ c.pmHandler.currPos = c.pmHandler.targetPos)
  | .recoveringPausing | .recoveringPaused =>
    IsPath p c.axisRecorder c.pmHandler.targetPos ∧ g = c.pmHandler.currPos
  | .recorverOver => c.axisRecorder = [] ∧ g = p
  | .notInited | .outSideStopping | .outSideOrErrorStopped => ∃ q, IsPath p c.axisRecorder q

/-- Every move on the recorder leads somewhere else. -/
def Moved (c : PauseMoveController K) : Prop := ∀ seg ∈ c.axisRecorder, seg.start ≠ seg.stop

variable {c : PauseMoveController K} {p g : Axis K}

theorem onPath_of_allow (hs : c.state = .allowManualPointMove) :
    c.OnPath p g ↔ IsPath p c.axisRecorder g := by
  simp only [OnPath, hs]

theorem onPath_of_manual (hs : c.state = .manualPointMoving) :
    c.OnPath p g ↔
      IsPath p c.axisRecorder c.pmHandler.startPos ∧ g = c.pmHandler.currPos := by
  simp only [OnPath, hs]

theorem onPath_of_recovering (hs : c.state = .recovering) :
    c.OnPath p g ↔
      IsPath p c.axisRecorder c.pmHandler.targetPos ∧ g = c.pmHandler.currPos ∧
        (c.pmHandler.state = .running ∨ c.pmHandler.state = .paused ∨
          c.pmHandler.state = .stopped ∧ c.pmHandler.currPos = c.pmHandler.targetPos) := by
  simp only [OnPath, hs]

theorem onPath_of_recoveringPausing
    (hs : c.state = .recoveringPausing ∨ c.state = .recoveringPaused) :
    c.OnPath p g ↔ IsPath p c.axisRecorder c.pmHandler.targetPos ∧ g = c.pmHandler.currPos := by
  rcases hs with hs | hs <;> simp only [OnPath, hs]

theorem OnPath.hasPath (h : c.OnPath p g) : ∃ q, IsPath p c.axisRecorder q := by
  unfold OnPath at h
  cases hs : c.state <;> simp only [hs] at h
  case allowManualPointMove => exact ⟨_, h⟩
  case manualPointMoving | recovering | recoveringPausing | recoveringPaused => exact ⟨_, h.1⟩
  case recorverOver => exact ⟨p, by simp [h.1]⟩
  all_goals exact h

theorem init_onPath : c.init.OnPath p p := rfl

theorem init_moved : c.init.Moved := fun _ h => absurd h (List.not_mem_nil)

variable [FloorRing K] [RealFns K] [Settings] {sh : MotionShared K} {inp : CycleInput K}
  {imm : Bool}

theorem OnPath.manualPointmoving (h : c.OnPath p sh.globalCmdAxis) (hm : c.Moved)
    (hs : c.state = .manualPointMoving) :
    (c.manualPointmoving sh inp).1.OnPath p (c.manualPointmoving sh inp).2.globalCmdAxis ∧
      (c.manualPointmoving sh inp).1.Moved := by
  obtain ⟨hpath, hg⟩ := (onPath_of_manual hs).mp h
  simp only [PauseMoveController.manualPointmoving]
  split
  · split
    · rename_i hsame
      -- the move never left its start: nothing is recorded
      refine ⟨(onPath_of_allow rfl).mpr ?_, hm⟩
      show IsPath p c.axisRecorder sh.globalCmdAxis
      rw [hg, ← hsame]
      exact hpath
    · rename_i hdiff
      refine ⟨(onPath_of_allow rfl).mpr ⟨hg, hpath⟩, fun seg hseg => ?_⟩
      rcases List.mem_cons.mp hseg with rfl | hseg
      · exact hdiff
      · exact hm seg hseg
  · refine ⟨(onPath_of_manual (by exact hs)).mpr ⟨?_, rfl⟩, hm⟩
    simp only
    split <;> simpa using hpath

/-- The cycles of a pause stay with the manual moves. -/
theorem runOnce_state_of_manual
    (hs : c.state = .allowManualPointMove ∨ c.state = .manualPointMoving) :
    (c.runOnce sh inp).1.state = .allowManualPointMove ∨
      (c.runOnce sh inp).1.state = .manualPointMoving := by
  rcases hs with hs | hs
  · simp [PauseMoveController.runOnce, hs]
  · simp only [PauseMoveController.runOnce, hs, PauseMoveController.manualPointmoving]
    split
    · split <;> exact .inl rfl
    · exact .inr rfl

variable [IsStrictOrderedRing K] [LawfulSqrt K]

/-- The next recorded move can always be planned. -/
theorem start_of_moved {m : PointMoveHandler K} {seg : AxisRecorderData K}
    (h : seg.start ≠ seg.stop) :
    (m.start seg.data seg.stop seg.start).2 = true ∧
      (m.start seg.data seg.stop seg.start).1.state = .running := by
  rcases m.start_cases seg.data seg.stop seg.start with
    ⟨h1, h2, _⟩ | ⟨_, _, h3⟩
  · exact ⟨h1, h2⟩
  · exact absurd (axisLengthBetween_pos h.symm) (not_lt.mpr h3)

/-- Walking back: a recorded move that is over leaves the axes where the next older one ends. -/
theorem OnPath.recovering (h : c.OnPath p sh.globalCmdAxis) (hm : c.Moved)
    (hs : c.state = .recovering) (he : c.pmHandler.RunsOutAtTarget) :
    (c.recovering sh).1.OnPath p (c.recovering sh).2.globalCmdAxis ∧
      (c.recovering sh).1.Moved := by
  obtain ⟨hpath, hg, hstate⟩ := (onPath_of_recovering hs).mp h
  simp only [PauseMoveController.recovering]
  split
  · rename_i hover
    have hat : c.pmHandler.currPos = c.pmHandler.targetPos := by
      rcases hstate with h' | h' | ⟨_, h'⟩
      · simp [h'] at hover
      · simp [h'] at hover
      · exact h'
    split
    · rename_i hnil
      refine ⟨⟨hnil, ?_⟩, hm⟩
      rw [hnil, isPath_nil] at hpath
      rw [hg, hat, hpath]
    · rename_i seg rest hcons
      rw [hcons, isPath_cons] at hpath
      have hrun := (start_of_moved (m := c.pmHandler) (hm seg (by simp [hcons]))).2
      refine ⟨(onPath_of_recovering (by exact hs)).mpr ⟨hpath.2, ?_, .inl hrun⟩,
        fun x hx => hm x (by simp [hcons, hx])⟩
      rw [hg, hat, hpath.1, PointMoveHandler.start_currPos]
  · rename_i hover
    refine ⟨(onPath_of_recovering (by exact hs)).mpr ⟨?_, rfl, ?_⟩, hm⟩
    · simpa using hpath
    simp only [PointMoveHandler.runOnce_targetPos]
    rcases c.pmHandler.runOnce_state with h' | ⟨hr, h'⟩ | ⟨_, h'⟩ | ⟨hr, _⟩
    · rcases hstate with h'' | h'' | ⟨h'', _⟩
      · exact .inl (h'.trans h'')
      · exact .inr (.inl (h'.trans h''))
      · exact absurd (PointMoveHandler.isOver_iff.mpr (.inl h'')) hover
    · exact .inr (.inr ⟨h', he.1 hr h'⟩)
    · exact .inr (.inl h')
    · rcases hstate with h'' | h'' | ⟨h'', _⟩ <;> simp [h''] at hr

/-- A cycle keeps the controller on the path. -/
theorem OnPath.runOnce (h : c.OnPath p sh.globalCmdAxis) (hm : c.Moved)
    (he : c.pmHandler.RunsOutAtTarget) (inp : CycleInput K) :
    (c.runOnce sh inp).1.OnPath p (c.runOnce sh inp).2.globalCmdAxis ∧
      (c.runOnce sh inp).1.Moved := by
  unfold PauseMoveController.runOnce
  cases hs : c.state with
  | manualPointMoving => exact h.manualPointmoving hm hs
  | recovering => exact h.recovering hm hs he
  | recoveringPausing =>
    obtain ⟨hpath, hg⟩ := (onPath_of_recoveringPausing (.inl hs)).mp h
    simp only [PauseMoveController.recoveringPausing]
    split
    · exact ⟨(onPath_of_recoveringPausing (.inr rfl)).mpr ⟨hpath, hg⟩, hm⟩
    · exact ⟨(onPath_of_recoveringPausing (.inl (by exact hs))).mpr ⟨by simpa using hpath, rfl⟩, hm⟩
  | outSideStopping =>
    have ho := h.hasPath
    simp only [outsideStopping]
    split
    · exact ⟨ho, hm⟩
    · refine ⟨?_, hm⟩
      simp only [OnPath, hs]
      exact ho
  | _ => exact ⟨h, hm⟩

theorem OnPath.pauseRecover (h : c.OnPath p g) (hm : c.Moved) (hr : c.InRecovery .normalMoving) :
    c.pauseRecover.1.OnPath p g ∧ c.pauseRecover.1.Moved := by
  rcases hr with ⟨hs, _⟩ | hs
  · obtain ⟨hpath, hg, hstate⟩ := (onPath_of_recovering hs).mp h
    simp only [PauseMoveController.pauseRecover, hs, reduceCtorEq, or_self, if_false, ne_eq,
      not_true_eq_false]
    split
    · rename_i hret
      refine ⟨(onPath_of_recovering rfl).mpr ⟨hpath, hg, ?_⟩, hm⟩
      rcases c.pmHandler.pause_state with ⟨_, h' | ⟨_, h'⟩⟩ | ⟨hnr, h', _⟩
      · exact .inr (.inl h')
      · simp [h'] at hret
      · rcases hstate with h'' | h'' | ⟨h'', hat⟩
        · exact absurd h'' hnr
        · exact .inr (.inl (h'.trans h''))
        · exact .inr (.inr ⟨h'.trans h'', hat⟩)
    · exact ⟨(onPath_of_recoveringPausing (.inl rfl)).mpr ⟨hpath, hg⟩, hm⟩
  · simp only [PauseMoveController.pauseRecover, hs, reduceCtorEq, or_self, if_false, ne_eq,
      not_false_eq_true, if_true]
    exact ⟨h, hm⟩

theorem OnPath.resumeRecover (h : c.OnPath p g) (hm : c.Moved) (hr : c.InRecovery .paused)
    (he : c.pmHandler.RunsOutAtTarget) :
    c.resumeRecover.1.OnPath p g ∧ c.resumeRecover.1.Moved := by
  obtain ⟨hs, hp⟩ := hr
  obtain ⟨hpath, hg⟩ := (onPath_of_recoveringPausing (.inr hs)).mp h
  obtain ⟨hret, hstate⟩ := c.pmHandler.resume_state hp
  simp only [PauseMoveController.resumeRecover, hs, hret, reduceCtorEq, or_self, if_false, ne_eq,
    not_true_eq_false, Bool.not_true, Bool.false_eq_true]
  refine ⟨(onPath_of_recovering rfl).mpr ⟨hpath, hg, ?_⟩, hm⟩
  rcases hstate with h' | h'
  · exact .inl h'
  · exact .inr (.inr ⟨h', he.2 hp h'⟩)

/-- The recovery starts at the end of the path. -/
theorem OnPath.activateRecover (h : c.OnPath p g) (hm : c.Moved)
    (hs : c.state = .allowManualPointMove ∨ c.state = .manualPointMoving) :
    c.activateRecover.1.OnPath p g ∧ c.activateRecover.1.Moved ∧
      c.activateRecover.1.state ≠ .outSideOrErrorStopped := by
  rcases hs with hs | hs
  · simp only [OnPath, hs] at h
    simp only [PauseMoveController.activateRecover, hs, reduceCtorEq, or_self, if_false]
    split
    · rename_i hnil
      rw [hnil] at h
      exact ⟨⟨hnil, h⟩, hm, by simp⟩
    · rename_i seg rest hcons
      rw [hcons, isPath_cons] at h
      obtain ⟨hret, hrun⟩ := start_of_moved (m := c.pmHandler) (hm seg (by simp [hcons]))
      simp only [hret, Bool.not_true, Bool.false_eq_true, if_false]
      exact ⟨⟨h.2, h.1, .inl hrun⟩, fun x hx => hm x (by simp [hcons, hx]), by simp⟩
  · simp only [PauseMoveController.activateRecover, hs, if_true]
    exact ⟨h, hm, by simp⟩

theorem OnPath.stop (h : c.OnPath p g) (hm : c.Moved) {st : MotionAutoState}
    (hr : c.InRecovery st) (imm : Bool) : (c.stop imm).1.OnPath p g ∧ (c.stop imm).1.Moved := by
  have ho := h.hasPath
  have hs : c.state ≠ .notInited ∧ c.state ≠ .allowManualPointMove := by
    cases st <;> simp only [InRecovery] at hr
    case normalMoving => rcases hr with ⟨hr, _⟩ | hr <;> simp [hr]
    case stopping => rcases hr with hr | hr <;> simp [hr]
    all_goals simp [hr.1]
  unfold PauseMoveController.stop
  cases hs' : c.state <;> simp only [OnPath, hs'] at h ⊢
  all_goals exact ⟨ho, hm⟩

/-- A manual move starts at the end of the path. -/
theorem OnPath.startManualPointmove (h : c.OnPath p sh.globalCmdAxis) (hm : c.Moved)
    (sp : MoveRuntimePlanSpeedInput K) (targetPos : Axis K) :
    let res := c.startManualPointmove sh sp sh.globalCmdAxis targetPos
    res.1.OnPath p res.2.1.globalCmdAxis ∧ res.1.Moved ∧
      (c.state ≠ .outSideOrErrorStopped → res.1.state ≠ .outSideOrErrorStopped) := by
  simp only [PauseMoveController.startManualPointmove]
  split
  · exact ⟨h, hm, id⟩
  · rename_i hs
    have hs : c.state = .allowManualPointMove := not_not.mp hs
    simp only [OnPath, hs] at h
    split
    · exact ⟨by simpa only [OnPath, hs] using h, hm, by simp [hs]⟩
    · split
      · exact ⟨by simpa only [OnPath, hs] using h, hm, by simp [hs]⟩
      · exact ⟨⟨h, rfl⟩, hm, by simp⟩

theorem OnPath.stopManualPointmove (h : c.OnPath p g) (hm : c.Moved) (imm : Bool) :
    (c.stopManualPointmove imm).1.OnPath p g ∧ (c.stopManualPointmove imm).1.Moved ∧
      (c.stopManualPointmove imm).1.state = c.state := by
  simp only [PauseMoveController.stopManualPointmove]
  split
  · exact ⟨h, hm, rfl⟩
  · rename_i hs
    have hs : c.state = .manualPointMoving := not_not.mp hs
    exact ⟨(onPath_of_manual (by exact hs)).mpr ((onPath_of_manual hs).mp h), hm, rfl⟩

end PauseMoveController

namespace AutoTaskRunner

open RunnerSystem (pausedInTask)

/-- The runner is consistent and, while its task is paused or recovered, on the path from `p`. -/
structure Retraces (r : AutoTaskRunner K) (sh : MotionShared K) (p : Axis K) : Prop where
  consistent : r.Consistent sh
  moved : r.pausemoveController.Moved
  hasPath : ∃ q, IsPath p r.pausemoveController.axisRecorder q
  inPause : pausedInTask r → r.pausemoveController.state = .allowManualPointMove ∨
    r.pausemoveController.state = .manualPointMoving
  onPath : pausedInTask r ∨ r.dominState = .pauseMoveRecoverRunning →
    r.pausemoveController.OnPath p sh.globalCmdAxis

variable {r : AutoTaskRunner K} {sh : MotionShared K} {p : Axis K}

theorem pausedInTask_iff :
    pausedInTask r ↔ r.state = .paused ∧ r.dominState = .autoTaskRunning := by
  simp [pausedInTask]

/-- Nothing is asked of a runner whose task runs. -/
theorem Retraces.ofTask (hc : r.Consistent sh) (hm : r.pausemoveController.Moved)
    (hp : ∃ q, IsPath p r.pausemoveController.axisRecorder q)
    (hd : r.dominState = .autoTaskRunning) (hs : r.state ≠ .paused) : r.Retraces sh p where
  consistent := hc
  moved := hm
  hasPath := hp
  inPause h := absurd (pausedInTask_iff.mp h).1 hs
  onPath h := by
    rcases h with h | h
    · exact absurd (pausedInTask_iff.mp h).1 hs
    · simp [hd] at h

theorem Retraces.ofRecovery (hc : r.Consistent sh) (hm : r.pausemoveController.Moved)
    (hd : r.dominState = .pauseMoveRecoverRunning)
    (ho : r.pausemoveController.OnPath p sh.globalCmdAxis) : r.Retraces sh p where
  consistent := hc
  moved := hm
  hasPath := ho.hasPath
  inPause h := by simp [pausedInTask_iff, hd] at h
  onPath _ := ho

theorem Retraces.ofPause (hc : r.Consistent sh) (hm : r.pausemoveController.Moved)
    (hi : r.pausemoveController.state = .allowManualPointMove ∨
      r.pausemoveController.state = .manualPointMoving)
    (ho : r.pausemoveController.OnPath p sh.globalCmdAxis) : r.Retraces sh p where
  consistent := hc
  moved := hm
  hasPath := ho.hasPath
  inPause _ := hi
  onPath _ := ho

/-- Changes of the shared data that do not move the axes do not matter. -/
theorem Retraces.shared {sh' : MotionShared K} (h : r.Retraces sh p)
    (hf : sh'.fault = sh.fault) (hg : sh'.globalCmdAxis = sh.globalCmdAxis) : r.Retraces sh' p where
  consistent := h.consistent.shared hf
  moved := h.moved
  hasPath := h.hasPath
  inPause := h.inPause
  onPath ho := hg ▸ h.onPath ho

variable [FloorRing K] [RealFns K] [Settings] [IsStrictOrderedRing K] [LawfulSqrt K]

theorem Retraces.pause (h : r.Retraces sh p) : (r.pause sh).1.Retraces (r.pause sh).2.1 p := by
  have hcons := h.consistent.pause
  rcases hc : r.pause sh with ⟨r', sh', ret⟩
  rw [hc] at hcons
  have hcase := hc ▸ r.pause_cases sh
  cases hcase with
  | unchanged => exact h
  | unhandled hd hs => exact (h.consistent.handled hd hs).elim
  | recovery hd hs =>
    have hr := (h.consistent.recovery hd).1
    rw [hs] at hr
    obtain ⟨ho, hm⟩ := (h.onPath (.inr hd)).pauseRecover h.moved hr
    exact .ofRecovery hcons hm hd ho
  | task ht hd hs =>
    refine .ofTask hcons h.moved h.hasPath hd ?_
    rcases hs with hs | hs <;> simp only [hs] <;> split <;> simp

theorem Retraces.resume (h : r.Retraces sh p)
    (he : r.pausemoveController.pmHandler.RunsOutAtTarget) :
    (r.resume sh).1.Retraces (r.resume sh).2.1 p := by
  have hcons := h.consistent.resume
  rcases hc : r.resume sh with ⟨r', sh', ret⟩
  rw [hc] at hcons
  have hcase := hc ▸ r.resume_cases sh
  cases hcase with
  | unchanged => exact h
  | unhandled hd hs => exact (h.consistent.handled hd hs).elim
  | recovery hd hs =>
    have hr := (h.consistent.recovery hd).1
    rw [hs] at hr
    obtain ⟨ho, hm⟩ := (h.onPath (.inr hd)).resumeRecover h.moved hr he
    exact .ofRecovery hcons hm hd ho
  | recoveryRefused hd hs =>
    have hr := (h.consistent.recovery hd).1
    rw [hs] at hr
    obtain ⟨ho, hm⟩ := (h.onPath (.inr hd)).resumeRecover h.moved hr he
    exact .ofRecovery hcons hm hd ho
  | activate hd hs =>
    have hpt := pausedInTask_iff.mpr ⟨hs, hd⟩
    obtain ⟨ho, hm, _⟩ := (h.onPath (.inl hpt)).activateRecover h.moved (h.inPause hpt)
    exact .ofRecovery hcons hm rfl ho
  | activateRefused hd hs hr =>
    have hpt := pausedInTask_iff.mpr ⟨hs, hd⟩
    obtain ⟨ho, hm, hn⟩ := (h.onPath (.inl hpt)).activateRecover h.moved (h.inPause hpt)
    refine .ofPause hcons hm ?_ ho
    rcases (hcons.paused hd hs).1 with h' | h' | h'
    · exact .inl h'
    · exact .inr h'
    · exact absurd h' hn

theorem Retraces.stop (h : r.Retraces sh p) (imm : Bool) :
    (r.stop sh imm).1.Retraces (r.stop sh imm).2.1 p := by
  have hcons := h.consistent.stop imm
  rcases hc : r.stop sh imm with ⟨r', sh', ret⟩
  rw [hc] at hcons
  have hcase := hc ▸ r.stop_cases sh imm
  cases hcase with
  | unchanged => exact h
  | unhandled hd hs => exact (h.consistent.handled hd hs).elim
  | recovery hd hs =>
    have hr := (h.consistent.recovery hd).1
    obtain ⟨ho, hm⟩ := (h.onPath (.inr hd)).stop h.moved hr imm
    exact .ofRecovery hcons hm hd ho
  | task ht hd hs =>
    refine .ofTask hcons h.moved h.hasPath hd ?_
    rcases hs with hs | hs | hs <;> simp only [hs] <;> split <;> simp
  | paused hd hs => exact .ofTask hcons h.moved h.hasPath hd (by simp)

theorem Retraces.startManualPointmove (h : r.Retraces sh p) (sp : MoveRuntimePlanSpeedInput K)
    (targetPos : Axis K) :
    let res := r.startManualPointmove sh sp sh.globalCmdAxis targetPos
    res.1.Retraces res.2.1 p := by
  have hcons := h.consistent.startManualPointmove sp sh.globalCmdAxis targetPos
  simp only [AutoTaskRunner.startManualPointmove] at hcons ⊢
  split
  · exact h
  · rename_i hc
    rw [if_neg hc] at hcons
    push Not at hc
    have hpt := pausedInTask_iff.mpr hc
    obtain ⟨ho, hm, hn⟩ := (h.onPath (.inl hpt)).startManualPointmove h.moved sp targetPos
    refine .ofPause hcons hm ?_ ho
    rcases (hcons.paused hc.2 hc.1).1 with h' | h' | h'
    · exact .inl h'
    · exact .inr h'
    · exact absurd h' (hn (by rcases h.inPause hpt with h'' | h'' <;> simp [h'']))

theorem Retraces.stopManualPointmove (h : r.Retraces sh p) (imm : Bool) :
    (r.stopManualPointmove imm).1.Retraces sh p := by
  have hcons := h.consistent.stopManualPointmove imm
  simp only [AutoTaskRunner.stopManualPointmove] at hcons ⊢
  split
  · exact h
  · rename_i hc
    rw [if_neg hc] at hcons
    push Not at hc
    have hpt := pausedInTask_iff.mpr hc
    obtain ⟨ho, hm, hst⟩ := (h.onPath (.inl hpt)).stopManualPointmove h.moved imm
    exact .ofPause hcons hm (hst ▸ h.inPause hpt) ho

/-- The path after a cycle starts anew where the cycle finds the task paused. -/
theorem Retraces.runOnce (h : r.Retraces sh p)
    (he : r.pausemoveController.pmHandler.RunsOutAtTarget) (inp : CycleInput K) :
    let res := r.runOnce sh inp
    res.1.Retraces res.2
      (if pausedInTask res.1 && !pausedInTask r then res.2.globalCmdAxis else p) := by
  have hcons := h.consistent.runOnce inp
  rcases hc : r.runOnce sh inp with ⟨r', sh'⟩
  rw [hc] at hcons
  have hcase := hc ▸ r.runOnce_cases sh inp
  have hrun (ho : r.pausemoveController.OnPath p sh.globalCmdAxis) :=
    ho.runOnce h.moved he inp
  -- in every case but one the start of the path stays
  have keep (hk : (pausedInTask r' && !pausedInTask r) = false) (hr : r'.Retraces sh' p) :
      r'.Retraces sh' (if pausedInTask r' && !pausedInTask r then sh'.globalCmdAxis else p) := by
    rw [hk]
    exact hr
  cases hcase with
  | unchanged => exact keep (by simp) h
  | unhandled hd hs => exact (h.consistent.handled hd hs).elim
  | taskRuns st ht hd hs hst =>
    exact keep (by simp [pausedInTask, hst.1]) (.ofTask hcons h.moved h.hasPath hd hst.1)
  | taskResumed st ht hd hs hst =>
    exact keep (by simp [pausedInTask, hst.1]) (.ofTask hcons h.moved h.hasPath hd hst.1)
  | taskPaused ht hd hs hp =>
    dsimp only
    rw [if_pos (by simp [pausedInTask, hs, hd])]
    exact .ofPause hcons PauseMoveController.init_moved (.inl rfl) PauseMoveController.init_onPath
  | taskStopped ht hd hs hp =>
    exact keep (by simp [pausedInTask]) (.ofTask hcons h.moved h.hasPath hd (by simp))
  | paused hd hs =>
    have hpt := pausedInTask_iff.mpr ⟨hs, hd⟩
    obtain ⟨ho, hm⟩ := hrun (h.onPath (.inl hpt))
    exact keep (by simp [hpt])
      (.ofPause hcons hm (PauseMoveController.runOnce_state_of_manual (h.inPause hpt)) ho)
  | recovers hd hs =>
    obtain ⟨ho, hm⟩ := hrun (h.onPath (.inr hd))
    exact keep (by simp [pausedInTask, hd]) (.ofRecovery hcons hm hd ho)
  | recovered ht hd hs hp hr =>
    obtain ⟨ho, hm⟩ := hrun (h.onPath (.inr hd))
    exact keep (by simp [pausedInTask]) (.ofTask hcons hm ho.hasPath rfl (by simp))
  | resumeRefused ht hd hs hp hr =>
    obtain ⟨_, t, ht', hpt⟩ := h.consistent.recovery hd
    obtain rfl : _ = t := Option.some.inj (ht.symm.trans ht')
    exact Bool.noConfusion ((AutoTask.resume_of_isPaused _ _ hpt).symm.trans hr)
  | recoveryPaused hd hs hp =>
    obtain ⟨ho, hm⟩ := hrun (h.onPath (.inr hd))
    exact keep (by simp [pausedInTask, hd]) (.ofRecovery hcons hm hd ho)
  | recoveryBroken hd hs hp =>
    obtain ⟨ho, hm⟩ := hrun (h.onPath (.inr hd))
    exact keep (by simp [pausedInTask]) (.ofRecovery hcons hm hd ho)
  | recoveryStopped hd hs hp =>
    obtain ⟨ho, hm⟩ := hrun (h.onPath (.inr hd))
    exact keep (by simp [pausedInTask]) (.ofTask hcons hm ho.hasPath rfl (by simp))

end AutoTaskRunner

/-- Building a task does not move the axes. -/
theorem TaskStart.build_globalCmdAxis [FloorRing K] [RealFns K] [Settings] (ts : TaskStart K)
    (sh : MotionShared K) : (ts.build sh).2.globalCmdAxis = sh.globalCmdAxis := by
  cases ts with
  | g01Group items =>
    simp only [build, G01GroupAutoTask.new]
    split <;> rfl
  | _ => rfl

namespace RunnerSystem

open AutoTaskRunner

variable [FloorRing K] [RealFns K] [Settings]

/-- The point move of the pause-move controller ends at its target when it runs out. -/
def ExactMoves (s : RunnerSystem K) (_ : Command K) : Prop :=
  s.runner.pausemoveController.pmHandler.RunsOutAtTarget

instance (s : RunnerSystem K) (c : Command K) : Decidable (s.ExactMoves c) :=
  inferInstanceAs (Decidable (PointMoveHandler.RunsOutAtTarget _))

variable [IsStrictOrderedRing K] [LawfulSqrt K]

theorem step_retraces {s : RunnerSystem K} {c : Command K}
    (h : s.runner.Retraces s.shared s.pausedAt) (he : s.ExactMoves c) :
    (s.step c).runner.Retraces (s.step c).shared (s.step c).pausedAt := by
  cases c with
  | start ts =>
    have hcons := start_consistent h.consistent ts
    simp only [step, start] at hcons ⊢
    split
    · exact h.shared (AutoTask.build_quiet ts).fault (ts.build_globalCmdAxis s.shared)
    · rename_i ho
      rw [if_neg ho] at hcons
      exact .ofTask hcons h.moved h.hasPath rfl (by simp [restartTask])
  | pause => exact h.pause
  | resume => exact h.resume he
  | stop imm => exact h.stop imm
  | startManualPointmove sp target => exact h.startManualPointmove sp target
  | stopManualPointmove imm => exact h.stopManualPointmove imm
  | setting c => cases c <;> exact h.shared rfl rfl
  | cycle inp => exact h.runOnce he inp

theorem run_retraces (sh : MotionShared K) {cmds : List (Command K)}
    (he : Machine.AllSteps step ExactMoves (new sh) cmds) :
    let s := Machine.run step (new sh) cmds
    s.runner.Retraces s.shared s.pausedAt :=
  Machine.AllSteps.invariant
    (I := fun s : RunnerSystem K => s.runner.Retraces s.shared s.pausedAt)
    (fun _ _ => step_retraces)
    (.ofTask (new_consistent rfl) (fun _ h => absurd h (List.not_mem_nil))
      ⟨_, rfl⟩ rfl (by simp [new, AutoTaskRunner.new])) he

/-- Only a cycle hands control back to the task, and it does so at the start of the path. -/
theorem control_returns {s : RunnerSystem K} {c : Command K}
    (h : s.runner.Retraces s.shared s.pausedAt) (he : s.ExactMoves c)
    (hd : s.runner.dominState = .pauseMoveRecoverRunning)
    (hd' : (s.step c).runner.dominState = .autoTaskRunning)
    (hs' : (s.step c).runner.state = .resuming) :
    (s.step c).shared.globalCmdAxis = s.pausedAt := by
  cases c with
  | start ts =>
    simp only [step, start] at hd' hs'
    split at hs' <;> simp_all [restartTask]
  | pause =>
    have hcase := s.runner.pause_cases s.shared
    simp only [step] at hd' hs'
    generalize s.runner.pause s.shared = res at hcase hd' hs'
    cases hcase <;> simp_all
  | resume =>
    have hcase := s.runner.resume_cases s.shared
    simp only [step] at hd' hs'
    generalize s.runner.resume s.shared = res at hcase hd' hs'
    cases hcase <;> simp_all
  | stop imm =>
    have hcase := s.runner.stop_cases s.shared imm
    simp only [step] at hd' hs'
    generalize s.runner.stop s.shared imm = res at hcase hd' hs'
    cases hcase <;> simp_all
  | startManualPointmove sp target =>
    simp [step, AutoTaskRunner.startManualPointmove, hd] at hd'
  | stopManualPointmove imm =>
    simp [step, AutoTaskRunner.stopManualPointmove, hd] at hd'
  | setting c => simp [step, hd] at hd'
  | cycle inp =>
    have hcase := s.runner.runOnce_cases s.shared inp
    have hrun := (h.onPath (.inr hd)).runOnce h.moved he inp
    simp only [step] at hd' hs' ⊢
    generalize s.runner.runOnce s.shared inp = res at hcase hd' hs'
    cases hcase with
    | recovered ht _ hs hp hr =>
      have hover : (s.runner.pausemoveController.runOnce s.shared inp).1.state = .recorverOver := by
        simpa [PauseMoveController.isRecoverOver] using hp
      have ho := hrun.1
      simp only [PauseMoveController.OnPath, hover] at ho
      exact (AutoTask.resume_globalCmdAxis _ _).trans ho.2
    | _ => simp_all

/-- In every state of a run in which recovery moves are exact, the recorded moves form a path from
where the task was last paused; its end is the commanded axis when no move is running, the start of
a running manual move, and the target of a recovery move. And the cycle in which a recovery hands
control back to the task finds the axes where the task was paused. -/
theorem recovery_returns_to_pause (sh : MotionShared K) (cmds : List (Command K))
    (he : Machine.AllSteps step ExactMoves (new sh) cmds) :
    let s := Machine.run step (new sh) cmds
    let pmc := s.runner.pausemoveController
    (∃ q, IsPath s.pausedAt pmc.axisRecorder q) ∧
    (pausedInTask s.runner ∨ s.runner.dominState = .pauseMoveRecoverRunning →
      (pmc.state = .allowManualPointMove ∨ pmc.state = .recorverOver →
        IsPath s.pausedAt pmc.axisRecorder s.shared.globalCmdAxis) ∧
      (pmc.state = .manualPointMoving →
        IsPath s.pausedAt pmc.axisRecorder pmc.pmHandler.startPos) ∧
      (pmc.state = .recovering ∨ pmc.state = .recoveringPausing ∨ pmc.state = .recoveringPaused →
        IsPath s.pausedAt pmc.axisRecorder pmc.pmHandler.targetPos)) ∧
    (∀ c, s.ExactMoves c → s.runner.dominState = .pauseMoveRecoverRunning →
      (s.step c).runner.dominState = .autoTaskRunning → (s.step c).runner.state = .resuming →
      (s.step c).shared.globalCmdAxis = s.pausedAt) := by
  intro s pmc
  have h : s.runner.Retraces s.shared s.pausedAt := run_retraces sh he
  refine ⟨h.hasPath, fun hp => ?_, fun c hec hd => control_returns h hec hd⟩
  have ho := h.onPath hp
  refine ⟨fun hs => ?_, fun hs => ((PauseMoveController.onPath_of_manual hs).mp ho).1,
    fun hs => ?_⟩
  · rcases hs with hs | hs
    · exact (PauseMoveController.onPath_of_allow hs).mp ho
    · simp only [PauseMoveController.OnPath, show s.runner.pausemoveController.state = _ from hs]
        at ho
      exact (congrArg (fun l => IsPath s.pausedAt l s.shared.globalCmdAxis) ho.1).mpr ho.2
  · rcases hs with hs | hs
    · exact ((PauseMoveController.onPath_of_recovering hs).mp ho).1
    · exact ((PauseMoveController.onPath_of_recoveringPausing hs).mp ho).1

end RunnerSystem

namespace RunnerSystem

attribute [local instance] Sample.settings

/-- A move of 4 during the fake pause, recovered after eight cycles. -/
def movedAndResumed : List (Command ℚ) :=
  [.start .m00Fake] ++ .replicate 2 (.cycle (Sample.input 0)) ++
    [.startManualPointmove Sample.speedParam (Sample.xAxis 4)] ++
    .replicate 9 (.cycle (Sample.input 0)) ++ [.resume] ++ .replicate 8 (.cycle (Sample.input 0))

theorem movedAndResumed_returns :
    let s := Machine.run step (new .new) movedAndResumed
    (s.step (.cycle (Sample.input 0))).shared.globalCmdAxis = s.pausedAt :=
  (recovery_returns_to_pause .new movedAndResumed (by decide +kernel)).2.2
    (.cycle (Sample.input 0)) (by decide +kernel) (by decide +kernel) (by decide +kernel)
    (by decide +kernel)

end RunnerSystem

end Edm
