import Edm.Motion.Jump
import Edm.Motion.Recovery
import Edm.Motion.Signals

/-!
# The commanded axis never steps

Each mover keeps its own copy of the position and writes it over the commanded axis when it runs. The
copies of paused movers go stale during manual moves and recoveries. This module shows that in every
run without a reset the mover of a cycle stands at the commanded axis when the cycle begins
(`commanded_axis_continuous`): the task waits where it was paused, the recovery leads back there, and
all other movers start anew from the commanded axis.
-/

set_option linter.unusedSectionVars false

namespace Edm

section

variable {K : Type} [Field K] [LinearOrder K] [FloorRing K] [RealFns K] [Settings]

namespace AutoTask

/-- The mover of a cycle of the task. The drill task is left out. -/
def mover (t : AutoTask K) (sh : MotionShared K) (inp : CycleInput K) : Mover K :=
  match t with
  | g00 t => t.mover sh inp
  | g01 t => t.mover sh inp
  | g01Group t => t.mover sh
  | g04 _ | m00Fake _ | drill _ => .rest

/-- The task, if it moves the axes, stands at `g`. -/
def At : AutoTask K → Axis K → Prop
  | g00 t => t.pmHandler.At
  | g01 t => t.At
  | g01Group t => t.At
  | g04 _ | m00Fake _ => fun _ => True
  | drill _ => fun _ => False

/-- The point move of a jump ends at its target when it runs out. -/
def ExactJump : AutoTask K → Prop
  | g01 t => t.jumpPmHandler.RunsOutAtTarget
  | _ => True

instance : DecidablePred (ExactJump (K := K)) := fun t => by
  cases t <;> unfold ExactJump <;> infer_instance

variable {t : AutoTask K} {g : Axis K} {sh : MotionShared K} {inp : CycleInput K} {imm : Bool}
  [IsStrictOrderedRing K] [LawfulSqrt K]

theorem At.pause (h : t.At g) : (t.pause sh).1.At g := by
  cases t with
  | g00 t => exact PointMoveHandler.At.pause h
  | g01 t => exact G01AutoTask.At.pause h
  | g01Group t =>
    simp only [AutoTask.pause, G01GroupAutoTask.pause]
    split <;> exact h
  | drill t => exact h.elim
  | _ => trivial

theorem At.resume (h : t.At g) : (t.resume sh).1.At g := by
  cases t with
  | g00 t => exact PointMoveHandler.At.resume h
  | g01 t => exact G01AutoTask.At.resume h
  | g01Group t =>
    simp only [AutoTask.resume, G01GroupAutoTask.resume]
    split <;> exact h
  | drill t => exact h.elim
  | _ => trivial

theorem At.stop (h : t.At g) : (t.stop sh imm).1.At g := by
  cases t with
  | g00 t => exact PointMoveHandler.At.stop h imm
  | g01 t => exact G01AutoTask.At.stop h imm
  | g01Group t =>
    simp only [AutoTask.stop, G01GroupAutoTask.stop]
    split <;> exact h
  | drill t => exact h.elim
  | _ => trivial

/-- Pausing and stopping a task does not move the axes. -/
theorem At.shared_globalCmdAxis (h : t.At g) (sh : MotionShared K) (imm : Bool) :
    (t.pause sh).2.1.globalCmdAxis = sh.globalCmdAxis ∧
      (t.stop sh imm).2.1.globalCmdAxis = sh.globalCmdAxis := by
  cases t with
  | drill t => exact h.elim
  | _ => exact ⟨rfl, rfl⟩

theorem At.runOnce (h : t.At sh.globalCmdAxis) (he : t.ExactJump)
    (hb : 0 ≤ sh.jumpParam.bufferBlu) (inp : CycleInput K) :
    (t.runOnce sh inp).1.At (t.runOnce sh inp).2.globalCmdAxis ∧
      (t.mover sh inp).Leads sh.globalCmdAxis (t.runOnce sh inp).2.globalCmdAxis := by
  cases t with
  | g00 t => exact t.runOnce_at inp h
  | g01 t => exact G01AutoTask.At.runOnce h he hb
  | g01Group t => exact G01GroupAutoTask.At.runOnce h
  | drill t => exact h.elim
  | _ => exact ⟨trivial, Mover.rest_leads _⟩

end AutoTask

/-- A task other than a drill is built at the commanded axis. -/
theorem TaskStart.build_at [IsStrictOrderedRing K] [LawfulSqrt K] {ts : TaskStart K}
    (hd : ∀ p, ts ≠ .drill p) (sh : MotionShared K) : (ts.build sh).1.At sh.globalCmdAxis := by
  cases ts with
  | g00 sp target touch => exact PointMoveHandler.start_at rfl sp _ _
  | g01 target height nowMs hrNowNs => exact G01AutoTask.new_at target height nowMs hrNowNs
  | g01Group items => exact G01GroupAutoTask.new_at items sh
  | drill p => exact absurd rfl (hd p)
  | _ => trivial

namespace PauseMoveController

/-- The mover of a cycle of the controller. -/
def mover (c : PauseMoveController K) (sh : MotionShared K) (inp : CycleInput K) : Mover K :=
  match c.state with
  | .manualPointMoving =>
    if c.pmHandler.isOver then .rest
    else .point (if (sh.runDetectOnce inp).2 then (c.pmHandler.stop true).1 else c.pmHandler)
  | .recovering => if c.pmHandler.isOver then .rest else .point c.pmHandler
  | .recoveringPausing => if c.pmHandler.isPaused then .rest else .point c.pmHandler
  | .outSideStopping => if c.pmHandler.isStopped then .rest else .point c.pmHandler
  | .notInited | .allowManualPointMove | .recoveringPaused | .recorverOver
  | .outSideOrErrorStopped => .rest

/-- Where the point move of the controller stands, by the controller's state. -/
def At (c : PauseMoveController K) (g : Axis K) : Prop :=
  match c.state with
  | .allowManualPointMove => c.pmHandler.isOver
  | .manualPointMoving | .recovering | .recoveringPausing | .recoveringPaused | .outSideStopping =>
    c.pmHandler.At g
  | .notInited | .recorverOver | .outSideOrErrorStopped => True

variable {c : PauseMoveController K} {p g : Axis K} {sh : MotionShared K} {inp : CycleInput K}
  {imm : Bool}

theorem at_of_moving (h : c.pmHandler.At g) (hs : c.state ≠ .allowManualPointMove) : c.At g := by
  unfold At
  cases hc : c.state with
  | allowManualPointMove => exact absurd hc hs
  | notInited | recorverOver | outSideOrErrorStopped => trivial
  | _ => exact h

variable [IsStrictOrderedRing K] [LawfulSqrt K]

/-- A cycle of the controller. A recovery move starts where the axes stand. -/
theorem At.runOnce (h : c.At sh.globalCmdAxis) (ho : c.OnPath p sh.globalCmdAxis) (hm : c.Moved)
    (he : c.pmHandler.RunsOutAtTarget) (inp : CycleInput K) :
    (c.runOnce sh inp).1.At (c.runOnce sh inp).2.globalCmdAxis ∧
      (c.mover sh inp).Leads sh.globalCmdAxis (c.runOnce sh inp).2.globalCmdAxis := by
  have hpath := (ho.runOnce hm he inp).1
  unfold PauseMoveController.runOnce mover
  unfold PauseMoveController.runOnce at hpath
  cases hs : c.state with
  | manualPointMoving =>
    have hat : c.pmHandler.At sh.globalCmdAxis := by simpa only [At, hs] using h
    simp only [manualPointmoving]
    split
    · rename_i hover
      refine ⟨?_, ?_⟩
      · split <;> exact hover
      · split <;> exact Mover.rest_leads _
    · have hat' : (if (sh.runDetectOnce inp).2 then (c.pmHandler.stop true).1
          else c.pmHandler).At sh.globalCmdAxis := by
        split
        · exact hat.stop true
        · exact hat
      obtain ⟨h1, h2⟩ := hat'.runOnce
      exact ⟨at_of_moving h1 (by simp [hs]), h2⟩
  | recovering =>
    have hat : c.pmHandler.At sh.globalCmdAxis := by simpa only [At, hs] using h
    simp only [hs, recovering] at hpath ⊢
    split
    · rename_i hover
      simp only [hover, if_true] at hpath
      split
      · exact ⟨trivial, Mover.rest_leads _⟩
      · rename_i seg rest hcons
        simp only [hcons] at hpath
        have hg := ((onPath_of_recovering rfl).mp hpath).2.1
        refine ⟨at_of_moving ?_ (by simp), Mover.rest_leads _⟩
        have := PointMoveHandler.start_at hover seg.data seg.stop seg.start
        rw [hg]
        exact ⟨rfl, this.2⟩
    · obtain ⟨h1, h2⟩ := hat.runOnce
      exact ⟨at_of_moving h1 (by simp), h2⟩
  | recoveringPausing =>
    have hat : c.pmHandler.At sh.globalCmdAxis := by simpa only [At, hs] using h
    simp only [recoveringPausing]
    split
    · exact ⟨at_of_moving hat (by simp), Mover.rest_leads _⟩
    · obtain ⟨h1, h2⟩ := hat.runOnce
      exact ⟨at_of_moving h1 (by simp [hs]), h2⟩
  | outSideStopping =>
    have hat : c.pmHandler.At sh.globalCmdAxis := by simpa only [At, hs] using h
    simp only [outsideStopping]
    split
    · exact ⟨at_of_moving hat (by simp), Mover.rest_leads _⟩
    · obtain ⟨h1, h2⟩ := hat.runOnce
      exact ⟨at_of_moving h1 (by simp [hs]), h2⟩
  | _ => exact ⟨h, Mover.rest_leads _⟩

theorem At.pauseRecover (h : c.At g) : c.pauseRecover.1.At g := by
  simp only [PauseMoveController.pauseRecover]
  split
  · exact h
  · split
    · exact h
    · rename_i hs
      have hs : c.state = .recovering := not_not.mp hs
      have hat : c.pmHandler.At g := by simpa only [At, hs] using h
      split
      · exact at_of_moving hat.pause (by simp [hs])
      · exact at_of_moving hat.pause (by simp)

theorem At.resumeRecover (h : c.At g) : c.resumeRecover.1.At g := by
  simp only [PauseMoveController.resumeRecover]
  split
  · exact h
  · split
    · exact h
    · rename_i hs
      have hs : c.state = .recoveringPaused := not_not.mp hs
      have hat : c.pmHandler.At g := by simpa only [At, hs] using h
      split
      · exact at_of_moving hat.resume (by simp [hs])
      · exact at_of_moving hat.resume (by simp)

/-- The recovery starts where the axes stand. -/
theorem At.activateRecover (h : c.At g) (ho : c.OnPath p g) (hm : c.Moved)
    (hs : c.state = .allowManualPointMove ∨ c.state = .manualPointMoving) :
    c.activateRecover.1.At g := by
  obtain ⟨hpath, _, _⟩ := ho.activateRecover hm hs
  rcases hs with hs | hs
  · have hover : c.pmHandler.isOver := by simpa only [At, hs] using h
    simp only [PauseMoveController.activateRecover, hs, reduceCtorEq, or_self, if_false] at hpath ⊢
    split
    · trivial
    · rename_i seg rest hcons
      simp only [hcons] at hpath
      split
      · trivial
      · rename_i hret
        rw [if_neg hret] at hpath
        rw [((onPath_of_recovering rfl).mp hpath).2.1]
        exact at_of_moving ⟨rfl, (PointMoveHandler.start_at hover _ _ _).2⟩ (by simp)
  · simp only [PauseMoveController.activateRecover, hs, if_true]
    exact h

theorem At.stop (h : c.At g) : (c.stop imm).1.At g := by
  unfold PauseMoveController.stop
  cases hs : c.state with
  | manualPointMoving | recovering | recoveringPausing =>
    have hat : c.pmHandler.At g := by simpa only [At, hs] using h
    exact at_of_moving (hat.stop imm) (by simp)
  | notInited | outSideStopping => exact h
  | _ => trivial

theorem At.startManualPointmove (h : c.At sh.globalCmdAxis) (sp : MoveRuntimePlanSpeedInput K)
    (targetPos : Axis K) :
    (c.startManualPointmove sh sp sh.globalCmdAxis targetPos).1.At sh.globalCmdAxis := by
  simp only [PauseMoveController.startManualPointmove]
  split
  · exact h
  · rename_i hs
    have hs : c.state = .allowManualPointMove := not_not.mp hs
    have hover : c.pmHandler.isOver := by simpa only [At, hs] using h
    split
    · rename_i hret
      simp only [At, hs]
      exact PointMoveHandler.start_over hover _ _ _ (by simpa using hret)
    · split
      · rename_i hover'
        simpa only [At, hs] using hover'
      · exact at_of_moving (PointMoveHandler.start_at hover _ _ _) (by simp)

theorem At.stopManualPointmove (h : c.At g) : (c.stopManualPointmove imm).1.At g := by
  simp only [PauseMoveController.stopManualPointmove]
  split
  · exact h
  · rename_i hs
    have hs : c.state = .manualPointMoving := not_not.mp hs
    have hat : c.pmHandler.At g := by simpa only [At, hs] using h
    exact at_of_moving (hat.stop imm) (by simp [hs])

end PauseMoveController

namespace AutoTaskRunner

open RunnerSystem (pausedInTask)

/-- The mover of a cycle of the runner. -/
def mover (r : AutoTaskRunner K) (sh : MotionShared K) (inp : CycleInput K) : Mover K :=
  match r.currTask with
  | none => .rest
  | some task =>
    match r.dominState, r.state with
    | .pauseMoveRecoverRunning, .normalMoving | .pauseMoveRecoverRunning, .pausing
    | .pauseMoveRecoverRunning, .stopping | .autoTaskRunning, .paused =>
      r.pausemoveController.mover sh inp
    | .autoTaskRunning, .normalMoving | .autoTaskRunning, .pausing | .autoTaskRunning, .resuming
    | .autoTaskRunning, .stopping => task.mover sh inp
    | .pauseMoveRecoverRunning, .paused | .pauseMoveRecoverRunning, .resuming
    | .pauseMoveRecoverRunning, .stopped | .autoTaskRunning, .stopped => .rest

/-- The task stands back: it is paused, or its recovery runs. -/
def StandsBack (r : AutoTaskRunner K) : Prop :=
  pausedInTask r ∨ r.dominState = .pauseMoveRecoverRunning

/-- The copies of the position a runner keeps. A task that stands back is left at `p`, where it was
paused, and the pause-move controller has the axes; otherwise the task is where the axes are. -/
structure Standing (r : AutoTaskRunner K) (sh : MotionShared K) (p : Axis K) : Prop where
  retraces : r.Retraces sh p
  back : r.StandsBack → r.pausemoveController.At sh.globalCmdAxis ∧
    ∀ t, r.currTask = some t → t.At p
  ahead : ¬r.StandsBack → r.state ≠ .stopped → ∀ t, r.currTask = some t → t.At sh.globalCmdAxis

/-- The point moves of a recovery and of a jump end at their targets when they run out. -/
structure ExactMoves (r : AutoTaskRunner K) : Prop where
  recovery : r.pausemoveController.pmHandler.RunsOutAtTarget
  jump : ∀ t ∈ r.currTask, t.ExactJump

instance : DecidablePred (ExactMoves (K := K)) := fun r =>
  decidable_of_iff
    (r.pausemoveController.pmHandler.RunsOutAtTarget ∧ ∀ t ∈ r.currTask, t.ExactJump)
    ⟨fun h => ⟨h.1, h.2⟩, fun h => ⟨h.1, h.2⟩⟩

variable {r : AutoTaskRunner K} {sh : MotionShared K} {p : Axis K}

theorem standsBack_of_paused (hd : r.dominState = .autoTaskRunning) (hs : r.state = .paused) :
    r.StandsBack :=
  .inl (pausedInTask_iff.mpr ⟨hs, hd⟩)

theorem not_standsBack (hd : r.dominState = .autoTaskRunning) (hs : r.state ≠ .paused) :
    ¬r.StandsBack := by
  rintro (h | h)
  · exact hs (pausedInTask_iff.mp h).1
  · simp [hd] at h

/-- The runner stands back. -/
theorem Standing.ofBack (hr : r.Retraces sh p) (hb : r.StandsBack)
    (hc : r.pausemoveController.At sh.globalCmdAxis) (ht : ∀ t, r.currTask = some t → t.At p) :
    r.Standing sh p :=
  ⟨hr, fun _ => ⟨hc, ht⟩, fun h => absurd hb h⟩

/-- The task has the axes. -/
theorem Standing.ofAhead (hr : r.Retraces sh p) (hd : r.dominState = .autoTaskRunning)
    (hs : r.state ≠ .paused) (ht : ∀ t, r.currTask = some t → t.At sh.globalCmdAxis) :
    r.Standing sh p :=
  ⟨hr, fun h => absurd h (not_standsBack hd hs), fun _ _ => ht⟩

/-- A stopped runner keeps nothing. -/
theorem Standing.ofStopped (hr : r.Retraces sh p) (hs : r.state = .stopped) : r.Standing sh p := by
  refine ⟨hr, fun hb => ?_, fun _ h => absurd hs h⟩
  rcases hb with hb | hb
  · simp [pausedInTask_iff, hs] at hb
  · have := (hr.consistent.recovery hb).1
    rw [hs] at this
    exact this.elim

/-- Changes of the shared data that do not move the axes do not matter. -/
theorem Standing.shared {sh' : MotionShared K} (h : r.Standing sh p) (hf : sh'.fault = sh.fault)
    (hg : sh'.globalCmdAxis = sh.globalCmdAxis) : r.Standing sh' p :=
  ⟨h.retraces.shared hf hg, hg ▸ h.back, hg ▸ h.ahead⟩

variable [IsStrictOrderedRing K] [LawfulSqrt K]

theorem Standing.pause (h : r.Standing sh p) :
    (r.pause sh).1.Standing (r.pause sh).2.1 p ∧
      (r.pause sh).2.1.globalCmdAxis = sh.globalCmdAxis := by
  have hret := h.retraces.pause
  rcases hc : r.pause sh with ⟨r', sh', ret⟩
  rw [hc] at hret
  have hcase := hc ▸ r.pause_cases sh
  cases hcase with
  | unchanged => exact ⟨h, rfl⟩
  | unhandled hd hs => exact (h.retraces.consistent.handled hd hs).elim
  | recovery hd hs =>
    obtain ⟨hctl, htask⟩ := h.back (.inr hd)
    exact ⟨.ofBack hret (.inr hd) hctl.pauseRecover htask, rfl⟩
  | @task task ht hd hs =>
    have hn : r.state ≠ .paused ∧ r.state ≠ .stopped := by rcases hs with hs | hs <;> simp [hs]
    have hat := h.ahead (not_standsBack hd hn.1) hn.2 task ht
    have hg := (hat.shared_globalCmdAxis sh false).1
    refine ⟨.ofAhead hret hd ?_ fun t ht' => ?_, hg⟩
    · simp only
      split
      · simp
      · exact hn.1
    · obtain rfl := Option.some.inj ht'
      exact hg ▸ hat.pause

theorem Standing.resume (h : r.Standing sh p)
    (he : r.pausemoveController.pmHandler.RunsOutAtTarget) :
    (r.resume sh).1.Standing (r.resume sh).2.1 p ∧
      (r.resume sh).2.1.globalCmdAxis = sh.globalCmdAxis := by
  have hret := h.retraces.resume he
  rcases hc : r.resume sh with ⟨r', sh', ret⟩
  rw [hc] at hret
  have hcase := hc ▸ r.resume_cases sh
  cases hcase with
  | unchanged => exact ⟨h, rfl⟩
  | unhandled hd hs => exact (h.retraces.consistent.handled hd hs).elim
  | recovery hd hs =>
    obtain ⟨hctl, htask⟩ := h.back (.inr hd)
    exact ⟨.ofBack hret (.inr hd) hctl.resumeRecover htask, rfl⟩
  | recoveryRefused hd hs =>
    obtain ⟨hctl, htask⟩ := h.back (.inr hd)
    exact ⟨.ofBack hret (.inr hd) hctl.resumeRecover htask, rfl⟩
  | activate hd hs =>
    have hpt := pausedInTask_iff.mpr ⟨hs, hd⟩
    obtain ⟨hctl, htask⟩ := h.back (.inl hpt)
    have hctl' := hctl.activateRecover (h.retraces.onPath (.inl hpt)) h.retraces.moved
      (h.retraces.inPause hpt)
    exact ⟨.ofBack hret (.inr rfl) hctl' htask, rfl⟩
  | activateRefused hd hs =>
    have hpt := pausedInTask_iff.mpr ⟨hs, hd⟩
    obtain ⟨hctl, htask⟩ := h.back (.inl hpt)
    have hctl' := hctl.activateRecover (h.retraces.onPath (.inl hpt)) h.retraces.moved
      (h.retraces.inPause hpt)
    exact ⟨.ofBack hret (standsBack_of_paused hd hs) hctl' htask, rfl⟩

theorem Standing.stop (h : r.Standing sh p) (imm : Bool) :
    (r.stop sh imm).1.Standing (r.stop sh imm).2.1 p ∧
      (r.stop sh imm).2.1.globalCmdAxis = sh.globalCmdAxis := by
  have hret := h.retraces.stop imm
  rcases hc : r.stop sh imm with ⟨r', sh', ret⟩
  rw [hc] at hret
  have hcase := hc ▸ r.stop_cases sh imm
  cases hcase with
  | unchanged => exact ⟨h, rfl⟩
  | unhandled hd hs => exact (h.retraces.consistent.handled hd hs).elim
  | recovery hd hs =>
    obtain ⟨hctl, htask⟩ := h.back (.inr hd)
    exact ⟨.ofBack hret (.inr hd) hctl.stop htask, rfl⟩
  | @task task ht hd hs =>
    have hn : r.state ≠ .paused ∧ r.state ≠ .stopped := by
      rcases hs with hs | hs | hs <;> simp [hs]
    have hat := h.ahead (not_standsBack hd hn.1) hn.2 task ht
    have hg := (hat.shared_globalCmdAxis sh imm).2
    refine ⟨.ofAhead hret hd ?_ fun t ht' => ?_, hg⟩
    · simp only
      split
      · simp
      · exact hn.1
    · obtain rfl := Option.some.inj ht'
      exact hg ▸ hat.stop
  | paused hd hs => exact ⟨.ofStopped hret rfl, rfl⟩

theorem Standing.startManualPointmove (h : r.Standing sh p) (sp : MoveRuntimePlanSpeedInput K)
    (targetPos : Axis K) :
    let res := r.startManualPointmove sh sp sh.globalCmdAxis targetPos
    res.1.Standing res.2.1 p ∧ res.2.1.globalCmdAxis = sh.globalCmdAxis := by
  have hret := h.retraces.startManualPointmove sp targetPos
  simp only [AutoTaskRunner.startManualPointmove] at hret ⊢
  split
  · exact ⟨h, rfl⟩
  · rename_i hc
    rw [if_neg hc] at hret
    push Not at hc
    have hb := standsBack_of_paused hc.2 hc.1
    obtain ⟨hctl, htask⟩ := h.back hb
    have hg : (r.pausemoveController.startManualPointmove sh sp sh.globalCmdAxis
        targetPos).2.1.globalCmdAxis = sh.globalCmdAxis := by
      simp only [PauseMoveController.startManualPointmove]
      repeat' split
      all_goals rfl
    refine ⟨.ofBack hret hb ?_ htask, hg⟩
    simp only [hg]
    exact hctl.startManualPointmove sp targetPos

theorem Standing.stopManualPointmove (h : r.Standing sh p) (imm : Bool) :
    (r.stopManualPointmove imm).1.Standing sh p := by
  have hret := h.retraces.stopManualPointmove imm
  simp only [AutoTaskRunner.stopManualPointmove] at hret ⊢
  split
  · exact h
  · rename_i hc
    rw [if_neg hc] at hret
    push Not at hc
    have hb := standsBack_of_paused hc.2 hc.1
    obtain ⟨hctl, htask⟩ := h.back hb
    exact .ofBack hret hb hctl.stopManualPointmove htask

/-- Around a cycle of the task the runner moves nothing. -/
theorem task_cycle_globalCmdAxis (r : AutoTaskRunner K) (sh : MotionShared K) (inp : CycleInput K)
    (task : AutoTask K) :
    (r.normalMoving sh inp task).2.globalCmdAxis = (task.runOnce sh inp).2.globalCmdAxis ∧
    (r.pausing sh inp task).2.globalCmdAxis = (task.runOnce sh inp).2.globalCmdAxis ∧
    (r.resuming sh inp task).2.globalCmdAxis = (task.runOnce sh inp).2.globalCmdAxis ∧
    (r.stopping sh inp task).2.globalCmdAxis = (task.runOnce sh inp).2.globalCmdAxis := by
  simp only [normalMoving, pausing, resuming, stopping]
  refine ⟨?_, ?_, ?_, ?_⟩
  all_goals
    repeat' split
    all_goals rfl

/-- Around a cycle of the recovery the runner moves nothing either. -/
theorem recovery_cycle_globalCmdAxis (r : AutoTaskRunner K) (sh : MotionShared K)
    (inp : CycleInput K) (task : AutoTask K)
    (hs : r.state = .normalMoving ∨ r.state = .pausing ∨ r.state = .stopping) :
    (r.dominatedStatePmrecoveringRunOnce sh inp task).2.globalCmdAxis =
      (r.pausemoveController.runOnce sh inp).2.globalCmdAxis := by
  rcases hs with hs | hs | hs
  all_goals
    simp only [dominatedStatePmrecoveringRunOnce, hs]
    repeat' split
  all_goals first | rfl | exact AutoTask.resume_globalCmdAxis _ _

/-- The mover of a cycle stands at the commanded axis and leads it to where the cycle leaves it. -/
theorem Standing.mover_leads (h : r.Standing sh p) (he : r.ExactMoves)
    (hb : 0 ≤ sh.jumpParam.bufferBlu) (inp : CycleInput K) :
    (r.mover sh inp).Leads sh.globalCmdAxis (r.runOnce sh inp).2.globalCmdAxis := by
  have hctl (hback : r.StandsBack) :=
    ((h.back hback).1.runOnce (h.retraces.onPath hback) h.retraces.moved he.recovery inp).2
  unfold mover AutoTaskRunner.runOnce
  cases ht : r.currTask with
  | none => exact Mover.rest_leads _
  | some task =>
    cases hd : r.dominState with
    | pauseMoveRecoverRunning =>
      have hrec := r.recovery_cycle_globalCmdAxis sh inp task
      cases hs : r.state with
      | normalMoving | pausing | stopping =>
        simp only [hs] at hrec ⊢
        rw [hrec (by simp)]
        exact hctl (.inr hd)
      | paused =>
        simp only [dominatedStatePmrecoveringRunOnce, hs]
        exact Mover.rest_leads _
      | resuming =>
        simp only [dominatedStatePmrecoveringRunOnce, hs]
        exact Mover.rest_leads _
      | stopped =>
        simp only [dominatedStatePmrecoveringRunOnce, hs]
        exact Mover.rest_leads _
    | autoTaskRunning =>
      have htask (hn : r.state ≠ .paused) (hn' : r.state ≠ .stopped) :=
        ((h.ahead (not_standsBack hd hn) hn' task ht).runOnce (he.jump task ht) hb inp).2
      obtain ⟨h1, h2, h3, h4⟩ := r.task_cycle_globalCmdAxis sh inp task
      cases hs : r.state with
      | normalMoving => exact h1 ▸ htask (by simp [hs]) (by simp [hs])
      | pausing => exact h2 ▸ htask (by simp [hs]) (by simp [hs])
      | resuming => exact h3 ▸ htask (by simp [hs]) (by simp [hs])
      | stopping => exact h4 ▸ htask (by simp [hs]) (by simp [hs])
      | paused => exact hctl (standsBack_of_paused hd hs)
      | stopped => exact Mover.rest_leads _

/-- After a cycle the copies stand as they should. -/
theorem Standing.runOnce (h : r.Standing sh p) (he : r.ExactMoves)
    (hb : 0 ≤ sh.jumpParam.bufferBlu) (inp : CycleInput K) :
    let res := r.runOnce sh inp
    res.1.Standing res.2
      (if pausedInTask res.1 && !pausedInTask r then res.2.globalCmdAxis else p) := by
  have hret := h.retraces.runOnce he.recovery inp
  rcases hc : r.runOnce sh inp with ⟨r', sh'⟩
  rw [hc] at hret
  have hcase := hc ▸ r.runOnce_cases sh inp
  have hctl (hback : r.StandsBack) :=
    ((h.back hback).1.runOnce (h.retraces.onPath hback) h.retraces.moved he.recovery inp).1
  have htask {task : AutoTask K} (ht : r.currTask = some task)
      (hd : r.dominState = .autoTaskRunning) (hs : r.state ≠ .paused) (hs' : r.state ≠ .stopped) :
      ∀ t, some (task.runOnce sh inp).1 = some t →
        t.At (task.runOnce sh inp).2.globalCmdAxis := by
    intro t ht'
    obtain rfl := Option.some.inj ht'
    exact ((h.ahead (not_standsBack hd hs) hs' task ht).runOnce (he.jump task ht) hb inp).1
  dsimp only at hret ⊢
  cases hcase with
  | unchanged => simpa using h
  | unhandled hd hs => exact (h.retraces.consistent.handled hd hs).elim
  | taskRuns st ht hd hs hst => exact .ofAhead hret hd hst.1 (htask ht hd hs.1 hs.2)
  | taskResumed st ht hd hs hst =>
    exact .ofAhead hret hd hst.1 (htask ht hd (by simp [hs]) (by simp [hs]))
  | taskPaused ht hd hs hp =>
    rw [if_pos (by simp [pausedInTask, hs, hd])] at hret ⊢
    refine .ofBack hret (standsBack_of_paused hd rfl) ?_
      (htask ht hd (by simp [hs]) (by simp [hs]))
    exact rfl
  | taskStopped ht hd hs hp => exact .ofStopped hret rfl
  | paused hd hs =>
    have hback := standsBack_of_paused hd hs
    rw [if_neg (by simp [pausedInTask, hs, hd])] at hret ⊢
    exact .ofBack hret hback (hctl hback) (h.back hback).2
  | recovers hd hs =>
    rw [if_neg (by simp [pausedInTask, hd])] at hret ⊢
    exact .ofBack hret (.inr hd) (hctl (.inr hd)) (h.back (.inr hd)).2
  | @recovered task ht hd hs hp hr =>
    rw [if_neg (by simp [pausedInTask])] at hret ⊢
    refine .ofAhead hret rfl (by simp) fun t ht' => ?_
    obtain rfl := Option.some.inj ht'
    -- the recovery ended where the task was paused
    have hpath := ((h.retraces.onPath (.inr hd)).runOnce h.retraces.moved he.recovery inp).1
    have hover : (r.pausemoveController.runOnce sh inp).1.state = .recorverOver := by
      simpa [PauseMoveController.isRecoverOver] using hp
    simp only [PauseMoveController.OnPath, hover] at hpath
    rw [AutoTask.resume_globalCmdAxis, hpath.2]
    exact ((h.back (.inr hd)).2 task ht).resume
  | resumeRefused ht hd hs hp hr =>
    obtain ⟨_, t, ht', hpt⟩ := h.retraces.consistent.recovery hd
    obtain rfl : _ = t := Option.some.inj (ht.symm.trans ht')
    exact Bool.noConfusion ((AutoTask.resume_of_isPaused _ _ hpt).symm.trans hr)
  | recoveryPaused hd hs hp =>
    rw [if_neg (by simp [pausedInTask, hd])] at hret ⊢
    exact .ofBack hret (.inr hd) (hctl (.inr hd)) (h.back (.inr hd)).2
  | recoveryBroken hd hs hp => exact .ofStopped hret rfl
  | recoveryStopped hd hs hp => exact .ofStopped hret rfl

section JumpParam

variable (r : AutoTaskRunner K) (sh : MotionShared K) (inp : CycleInput K)

/-- No operation of the runner sets a jump parameter. -/
theorem pause_jumpParam : (r.pause sh).2.1.jumpParam = sh.jumpParam := by
  have hcase := r.pause_cases sh
  generalize r.pause sh = res at hcase
  cases hcase with
  | task => exact (AutoTask.pause_quiet _ sh).jumpParam
  | _ => rfl

theorem resume_jumpParam : (r.resume sh).2.1.jumpParam = sh.jumpParam := by
  have hcase := r.resume_cases sh
  generalize r.resume sh = res at hcase
  cases hcase <;> rfl

theorem stop_jumpParam (imm : Bool) : (r.stop sh imm).2.1.jumpParam = sh.jumpParam := by
  have hcase := r.stop_cases sh imm
  generalize r.stop sh imm = res at hcase
  cases hcase with
  | task => exact (AutoTask.stop_quiet _ sh imm).jumpParam
  | _ => rfl

theorem startManualPointmove_jumpParam (sp : MoveRuntimePlanSpeedInput K)
    (startPos targetPos : Axis K) :
    (r.startManualPointmove sh sp startPos targetPos).2.1.jumpParam = sh.jumpParam := by
  simp only [AutoTaskRunner.startManualPointmove, PauseMoveController.startManualPointmove]
  repeat' split
  all_goals rfl

theorem runOnce_jumpParam : (r.runOnce sh inp).2.jumpParam = sh.jumpParam := by
  have hctl : (r.pausemoveController.runOnce sh inp).2.jumpParam = sh.jumpParam := by
    unfold PauseMoveController.runOnce
    cases r.pausemoveController.state <;>
      simp only [PauseMoveController.manualPointmoving, PauseMoveController.recovering,
        PauseMoveController.recoveringPausing, PauseMoveController.outsideStopping]
    all_goals
      repeat' split
      all_goals rfl
  have hcase := r.runOnce_cases sh inp
  generalize r.runOnce sh inp = res at hcase
  cases hcase with
  | unchanged | unhandled => rfl
  | taskRuns | taskResumed | taskPaused | taskStopped =>
    exact (AutoTask.runOnce_quiet _ sh inp).jumpParam
  | recovered | resumeRefused => exact (AutoTask.resume_quiet _ _).jumpParam.trans hctl
  | _ => exact hctl

end JumpParam

end AutoTaskRunner

namespace MotionStateMachine

/-- The mover of a cycle of the machine. -/
def mover (m : MotionStateMachine K) (inp : CycleInput K) : Mover K :=
  if !m.enabled then .rest
  else
    match m.mainMode with
    | .idle => .rest
    | .manual =>
      if m.pmHandler.isOver || (m.shared.runDetectOnce inp).2 then .rest else .point m.pmHandler
    | .auto => m.autoTaskRunner.mover m.shared inp

/-- The copies of the position the machine keeps. The manual move is over in the other modes, and
the runner is stopped unless a task runs. -/
structure Standing (m : MotionStateMachine K) : Prop where
  bufferBlu : 0 ≤ m.shared.jumpParam.bufferBlu
  runner : ∃ p, m.autoTaskRunner.Standing m.shared p
  stopped : m.mainMode ≠ .auto → m.autoTaskRunner.state = .stopped
  manual : m.mainMode = .manual → m.pmHandler.At m.shared.globalCmdAxis
  moveOver : m.mainMode ≠ .manual → m.pmHandler.isOver

/-- Drill tasks are left out, and the buffer of a jump is not negative. -/
def NoDrill : Command K → Bool
  | .start (.drill _) => false
  | .setting (.setJumpParam jp) => 0 ≤ jp.bufferBlu
  | _ => true

/-- The step is taken with exact point moves. -/
def ExactStep (m : MotionStateMachine K) (c : Command K) : Prop :=
  m.autoTaskRunner.ExactMoves ∧ NoDrill c

instance (m : MotionStateMachine K) (c : Command K) : Decidable (m.ExactStep c) :=
  inferInstanceAs (Decidable (_ ∧ _))

variable {m : MotionStateMachine K} {sh : MotionShared K} [IsStrictOrderedRing K] [LawfulSqrt K]

/-- In the automatic mode. -/
theorem Standing.ofAuto {r : AutoTaskRunner K} {p : Axis K} (h : m.Standing)
    (hm : m.mainMode = .auto) (hr : r.Standing sh p)
    (hj : sh.jumpParam = m.shared.jumpParam) :
    { m with autoTaskRunner := r, shared := sh }.Standing where
  bufferBlu := hj ▸ h.bufferBlu
  runner := ⟨p, hr⟩
  stopped hn := absurd hm hn
  manual hn := by simp [hm] at hn
  moveOver := h.moveOver

/-- Outside the automatic mode the shared data may change in any way that is not a fault. -/
theorem Standing.runner_of_stopped (h : m.Standing) (hm : m.mainMode ≠ .auto)
    (hf : sh.fault = m.shared.fault) : ∃ p, m.autoTaskRunner.Standing sh p := by
  obtain ⟨p, hr⟩ := h.runner
  have hs := h.stopped hm
  have hcons := hr.retraces.consistent.shared hf
  have hd : m.autoTaskRunner.dominState = .autoTaskRunning := by
    cases hd : m.autoTaskRunner.dominState with
    | autoTaskRunning => rfl
    | pauseMoveRecoverRunning =>
      have := (hcons.recovery hd).1
      rw [hs] at this
      exact this.elim
  exact ⟨p, .ofStopped (.ofTask hcons hr.retraces.moved hr.retraces.hasPath hd (by simp [hs])) hs⟩

theorem Standing.start (h : m.Standing) (ts : TaskStart K) (hd : ∀ p, ts ≠ .drill p) :
    (m.start ts).1.Standing ∧
      (m.start ts).1.shared.globalCmdAxis = m.shared.globalCmdAxis := by
  have hq : Quiet m.shared (ts.build m.shared).2 := AutoTask.build_quiet ts
  have hg := ts.build_globalCmdAxis m.shared
  obtain ⟨p, hr⟩ := h.runner
  rw [start_eq]
  split
  · exact ⟨h, rfl⟩
  · rename_i hc
    push Not at hc
    simp only [startAuto]
    split
    · refine ⟨⟨hq.jumpParam ▸ h.bufferBlu, ⟨p, hr.shared hq.fault hg⟩, h.stopped, fun hm => ?_,
        h.moveOver⟩, hg⟩
      exact absurd (hc.2.symm.trans hm) (by simp)
    · rename_i hover
      have hsound := AutoTask.build_sound (Bool.eq_false_of_not_eq_true hover)
      refine ⟨⟨hq.jumpParam ▸ h.bufferBlu, ⟨p, ?_⟩, fun hn => absurd rfl hn, fun hm => (by cases hm),
        fun _ => h.moveOver (by simp [hc.2])⟩, hg⟩
      have hret : (m.autoTaskRunner.restartTask (ts.build m.shared).1).1.Retraces m.shared p :=
        .ofTask (hr.retraces.consistent.restartTask hsound) hr.retraces.moved hr.retraces.hasPath rfl
          (by simp [AutoTaskRunner.restartTask])
      refine .shared (.ofAhead hret rfl (by simp [AutoTaskRunner.restartTask]) fun t ht => ?_)
        hq.fault hg
      obtain rfl := Option.some.inj ht
      exact ts.build_at hd m.shared

theorem Standing.startManualPointmove (h : m.Standing) (sp : MoveRuntimePlanSpeedInput K)
    (target : Axis K) :
    (m.startManualPointmove sp target).1.Standing ∧
      (m.startManualPointmove sp target).1.shared.globalCmdAxis = m.shared.globalCmdAxis := by
  unfold MotionStateMachine.startManualPointmove
  split
  · rename_i hm
    have hover := h.moveOver (by simp [hm])
    have hs := h.stopped (by simp [hm])
    simp only
    split
    · exact ⟨⟨h.bufferBlu, h.runner_of_stopped (by simp [hm]) rfl, fun _ => hs,
        fun _ => PointMoveHandler.start_at hover _ _ _, fun hn => absurd rfl hn⟩, rfl⟩
    · rename_i hret
      refine ⟨⟨h.bufferBlu, h.runner, fun _ => hs, fun hn => ?_, fun _ => ?_⟩, rfl⟩
      · exact absurd (hm.symm.trans hn) (by simp)
      · exact PointMoveHandler.start_over hover _ _ _ (by simpa using hret)
  · exact ⟨h, rfl⟩
  · rename_i hm
    obtain ⟨p, hr⟩ := h.runner
    obtain ⟨h1, h2⟩ := hr.startManualPointmove sp target
    exact ⟨h.ofAuto hm h1 (m.autoTaskRunner.startManualPointmove_jumpParam m.shared sp _ target), h2⟩

theorem Standing.stopManualPointmove (h : m.Standing) (imm : Bool) :
    (m.stopManualPointmove imm).1.Standing ∧
      (m.stopManualPointmove imm).1.shared.globalCmdAxis = m.shared.globalCmdAxis := by
  unfold MotionStateMachine.stopManualPointmove
  split
  · exact ⟨h, rfl⟩
  · rename_i hm
    exact ⟨⟨h.bufferBlu, h.runner, h.stopped, fun _ => (h.manual hm).stop imm, fun hn =>
      absurd hm hn⟩, rfl⟩
  · rename_i hm
    obtain ⟨p, hr⟩ := h.runner
    exact ⟨h.ofAuto hm (hr.stopManualPointmove imm) rfl, rfl⟩

theorem Standing.pauseAuto (h : m.Standing) : m.pauseAuto.1.Standing ∧
    m.pauseAuto.1.shared.globalCmdAxis = m.shared.globalCmdAxis := by
  simp only [MotionStateMachine.pauseAuto]
  split
  · exact ⟨h, rfl⟩
  · rename_i hm
    obtain ⟨p, hr⟩ := h.runner
    exact ⟨h.ofAuto (not_not.mp hm) hr.pause.1 (m.autoTaskRunner.pause_jumpParam m.shared),
      hr.pause.2⟩

theorem Standing.resumeAuto (h : m.Standing) (he : m.autoTaskRunner.ExactMoves) :
    m.resumeAuto.1.Standing ∧
      m.resumeAuto.1.shared.globalCmdAxis = m.shared.globalCmdAxis := by
  simp only [MotionStateMachine.resumeAuto]
  split
  · exact ⟨h, rfl⟩
  · rename_i hm
    obtain ⟨p, hr⟩ := h.runner
    obtain ⟨h1, h2⟩ := hr.resume he.recovery
    exact ⟨h.ofAuto (not_not.mp hm) h1 (m.autoTaskRunner.resume_jumpParam m.shared), h2⟩

theorem Standing.stopAuto (h : m.Standing) (imm : Bool) : (m.stopAuto imm).1.Standing ∧
    (m.stopAuto imm).1.shared.globalCmdAxis = m.shared.globalCmdAxis := by
  simp only [MotionStateMachine.stopAuto]
  split
  · exact ⟨h, rfl⟩
  · rename_i hm
    obtain ⟨p, hr⟩ := h.runner
    exact ⟨h.ofAuto (not_not.mp hm) (hr.stop imm).1
      (m.autoTaskRunner.stop_jumpParam m.shared imm), (hr.stop imm).2⟩

theorem Standing.setting (h : m.Standing) {c : SettingCommand K}
    (hc : NoDrill (.setting c)) :
    { m with shared := c.apply m.shared }.Standing ∧
      (c.apply m.shared).globalCmdAxis = m.shared.globalCmdAxis := by
  have hf : (c.apply m.shared).fault = m.shared.fault := by cases c <;> rfl
  have hg : (c.apply m.shared).globalCmdAxis = m.shared.globalCmdAxis := by cases c <;> rfl
  have hb : 0 ≤ (c.apply m.shared).jumpParam.bufferBlu := by
    cases c with
    | setJumpParam jp => exact of_decide_eq_true hc
    | _ => exact h.bufferBlu
  obtain ⟨p, hr⟩ := h.runner
  refine ⟨⟨hb, ⟨p, hr.shared hf hg⟩, h.stopped, fun hm => ?_, h.moveOver⟩, hg⟩
  simp only [hg]
  exact h.manual hm

/-- A cycle: the mover stands at the commanded axis and leads it on. -/
theorem Standing.runOnce (h : m.Standing) (he : m.autoTaskRunner.ExactMoves)
    (inp : CycleInput K) :
    (m.runOnce inp).Standing ∧
      (m.mover inp).Leads m.shared.globalCmdAxis (m.runOnce inp).shared.globalCmdAxis := by
  unfold MotionStateMachine.runOnce mover
  split
  · exact ⟨h, Mover.rest_leads _⟩
  cases hm : m.mainMode with
  | idle =>
    exact ⟨⟨h.bufferBlu, h.runner_of_stopped (by simp [hm]) rfl, fun _ => h.stopped (by simp [hm]),
      fun hn => (by cases hn), fun _ => h.moveOver (by simp [hm])⟩, Mover.rest_leads _⟩
  | manual =>
    have hat := h.manual hm
    have hs := h.stopped (by simp [hm])
    simp only [mainmodeManual]
    split
    · rename_i hover
      rw [if_pos (by simp [hover])]
      exact ⟨⟨h.bufferBlu, h.runner_of_stopped (by simp [hm]) rfl, fun _ => hs,
        fun hn => (by cases hn), fun _ => hover⟩, Mover.rest_leads _⟩
    · rename_i hover
      split
      · rename_i htouch
        rw [if_pos (by simp [htouch])]
        refine ⟨⟨h.bufferBlu, h.runner_of_stopped (by simp [hm]) rfl, fun _ => hs,
          fun hn => (by cases hn), fun _ => ?_⟩, Mover.rest_leads _⟩
        exact PointMoveHandler.isOver_iff.mpr (.inl rfl)
      · rename_i htouch
        rw [if_neg (by simp [hover, htouch])]
        obtain ⟨h1, h2⟩ := hat.runOnce
        exact ⟨⟨h.bufferBlu, h.runner_of_stopped (by simp [hm]) rfl, fun _ => hs, fun _ => h1,
          fun hn => absurd hm hn⟩, h2⟩
  | auto =>
    obtain ⟨p, hr⟩ := h.runner
    have hleads := hr.mover_leads he h.bufferBlu inp
    have hr' := hr.runOnce he h.bufferBlu inp
    simp only [mainmodeAuto]
    refine ⟨⟨?_, ⟨_, hr'⟩, fun hn => ?_, fun hn => ?_, fun _ => h.moveOver (by simp [hm])⟩, hleads⟩
    · rw [m.autoTaskRunner.runOnce_jumpParam m.shared inp]
      exact h.bufferBlu
    · by_contra hs
      simp [hs, hm] at hn
    · simp only [hm] at hn
      split at hn <;> simp at hn

/-- Every command keeps the copies; only a cycle moves the axes. -/
theorem step_standing {c : Command K} (h : m.Standing) (he : m.ExactStep c) :
    (m.step c).Standing ∧ ((∀ inp, c ≠ .cycle inp) →
      (m.step c).shared.globalCmdAxis = m.shared.globalCmdAxis) := by
  obtain ⟨he, hd⟩ := he
  cases c with
  | start ts =>
    obtain ⟨h1, h2⟩ := h.start ts (by rintro p rfl; cases hd)
    exact ⟨h1, fun _ => h2⟩
  | pauseAuto => exact ⟨h.pauseAuto.1, fun _ => h.pauseAuto.2⟩
  | resumeAuto => exact ⟨(h.resumeAuto he).1, fun _ => (h.resumeAuto he).2⟩
  | stopAuto imm => exact ⟨(h.stopAuto imm).1, fun _ => (h.stopAuto imm).2⟩
  | startManualPointmove sp target =>
    exact ⟨(h.startManualPointmove sp target).1, fun _ => (h.startManualPointmove sp target).2⟩
  | stopManualPointmove imm =>
    exact ⟨(h.stopManualPointmove imm).1, fun _ => (h.stopManualPointmove imm).2⟩
  | setting c => exact ⟨(h.setting hd).1, fun _ => (h.setting hd).2⟩
  | cycle inp => exact ⟨(h.runOnce he inp).1, fun hn => absurd rfl (hn inp)⟩

theorem ready_standing (hb : 0 ≤ sh.jumpParam.bufferBlu) : (ready sh).Standing where
  bufferBlu := hb
  runner := ⟨sh.globalCmdAxis, .ofStopped (.ofTask
    (.ofTask rfl rfl (fun _ h => by cases h) rfl (fun h => by cases h))
    PauseMoveController.init_moved ⟨_, rfl⟩ rfl (fun h => by cases h)) rfl⟩
  stopped _ := rfl
  manual h := by cases h
  moveOver _ := rfl

end MotionStateMachine

end

namespace MotionStateMachine

attribute [local instance] Sample.settings

/-- A rapid move, paused after three cycles, with a manual move back under way. -/
def movedInPause : List (Command ℚ) :=
  [.start (.g00 Sample.speedParam (Sample.xAxis 10) false)] ++
    .replicate 3 (.cycle (Sample.input 0)) ++ [.pauseAuto] ++
    .replicate 5 (.cycle (Sample.input 0)) ++
    [.startManualPointmove Sample.speedParam (Sample.xAxis 0)] ++
    .replicate 6 (.cycle (Sample.input 0))

end MotionStateMachine

end Edm
