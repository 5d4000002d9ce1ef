import Edm.Lib.Run
import Edm.Motion.Commands
import Edm.Motion.Numbers
import Edm.Motion.PlanLength

/-!
# Runs of one point move

A point move that is paused, resumed and given a new speed is planned again each time. The length
gone is the sum of the increments returned and the position follows it (`Tracks`). While the
move runs, its plan covers what is left to the target (`Aimed`), so it runs out at the target. Two
steps can lose the target: resuming a move that was paused past it, and a change of speed that
leaves a plan without cycles (`runs_out_at_target`).
-/

set_option linter.unusedSectionVars false

namespace Edm

section

variable {K : Type} [Field K] [LinearOrder K]

/-- What the callers give every move: a positive acceleration, a negative deceleration, a positive
speed, and rest at both ends. -/
structure MoveRuntimePlanSpeedInput.Accepted (p : MoveRuntimePlanSpeedInput K) : Prop where
  acc0_pos : 0 < p.acc0
  dec0_neg : p.dec0 < 0
  cruiseV_pos : 0 < p.cruiseV
  entryV : p.entryV = 0
  exitV : p.exitV = 0

namespace MoveruntimeWrapper

variable {w : MoveruntimeWrapper K}

/-- A cycle goes on by the increment it returns. -/
theorem runOnce_currLength : w.runOnce.1.currLength = w.currLength + w.runOnce.2 := by
  unfold runOnce
  cases w.state <;> simp [advance]

@[simp] theorem runOnce_targetLength : w.runOnce.1.targetLength = w.targetLength := by
  unfold runOnce
  cases w.state <;> rfl

/-- The cycle that finds a move over, and every cycle of a move that is over, returns nothing. -/
theorem runOnce_of_isOver (h : w.runOnce.1.isOver) : w.runOnce.2 = 0 := by
  have hadv {ended : State} (hw : w.state ≠ .stopped ∧ w.state ≠ .notStarted)
      (h : (w.advance ended).1.isOver) : (w.advance ended).2 = 0 := by
    simp only [advance] at h ⊢
    split at h
    · rename_i ho
      exact Moveruntime.runOnce_of_isOver ho
    · simp [hw.1, hw.2] at h
  unfold runOnce at h ⊢
  cases hs : w.state <;> simp only [hs] at h ⊢
  all_goals exact hadv (by simp [hs]) h

/-- A running move is planned through to its target; a stopped one has arrived. -/
structure Aimed (w : MoveruntimeWrapper K) : Prop where
  acc0 : w.tempUsingSpeedParam.acc0 ≠ 0
  dec0 : w.tempUsingSpeedParam.dec0 ≠ 0
  cruiseV : 0 < w.tempUsingSpeedParam.cruiseV
  not_stopping : w.state ≠ .stopping
  running : w.state = .running → w.mrt.OnPlan ∧ w.mrt.state = .running ∧
    w.currLength - w.mrt.currentLength + w.mrt.impl.length = w.targetLength
  arrived : w.state = .stopped → w.currLength = w.targetLength

/-- Nothing is asked of a move that neither runs nor has stopped. -/
theorem Aimed.of_idle {w' : MoveruntimeWrapper K} (h : w.Aimed)
    (ha : w'.tempUsingSpeedParam.acc0 = w.tempUsingSpeedParam.acc0)
    (hd : w'.tempUsingSpeedParam.dec0 = w.tempUsingSpeedParam.dec0)
    (hv : 0 < w'.tempUsingSpeedParam.cruiseV)
    (hs : w'.state = .notStarted ∨ w'.state = .pausing ∨ w'.state = .paused) : w'.Aimed where
  acc0 := ha ▸ h.acc0
  dec0 := hd ▸ h.dec0
  cruiseV := hv
  not_stopping := by rcases hs with hs | hs | hs <;> simp [hs]
  running hr := by rcases hs with hs | hs | hs <;> simp [hs] at hr
  arrived hr := by rcases hs with hs | hs | hs <;> simp [hs] at hr

theorem Aimed.runOnce (h : w.Aimed) : w.runOnce.1.Aimed := by
  unfold MoveruntimeWrapper.runOnce
  cases hs : w.state with
  | running =>
    obtain ⟨hplan, hrun, haim⟩ := h.running hs
    have hlen := Moveruntime.runOnce_currentLength (m := w.mrt)
    have hplanned := Moveruntime.runOnce_length (m := w.mrt)
    refine ⟨h.acc0, h.dec0, h.cruiseV, ?_, fun hr => ?_, fun hr => ?_⟩
    · simp only [advance]
      split <;> simp [hs]
    · simp only [advance] at hr ⊢
      split at hr
      · cases hr
      · rename_i ho
        refine ⟨hplan.runOnce, by simpa [Moveruntime.isOver, Moveruntime.isRunning] using ho, ?_⟩
        rw [hlen, hplanned]
        linear_combination haim
    · simp only [advance] at hr ⊢
      split at hr
      · rename_i ho
        rw [Moveruntime.runOnce_of_isOver ho]
        linear_combination haim + hplan.covered_of_isOver hrun ho
      · simp [hs] at hr
  | pausing =>
    refine h.of_idle rfl rfl h.cruiseV ?_
    simp only [advance]
    split
    · exact .inr (.inr rfl)
    · exact .inr (.inl hs)
  | stopping => exact absurd hs h.not_stopping
  | _ => exact h

variable [FloorRing K] [RealFns K] [Settings]

/-- None of these calls moves. -/
theorem pause_currLength : w.pause.1.currLength = w.currLength ∧
    w.pause.1.targetLength = w.targetLength := by
  unfold pause
  cases w.state with
  | running =>
    simp only [slowDown]
    repeat' split
    all_goals exact ⟨rfl, rfl⟩
  | _ => exact ⟨rfl, rfl⟩

theorem stop_currLength (imm : Bool) : (w.stop imm).1.currLength = w.currLength := by
  unfold stop
  split
  · rfl
  · cases w.state with
    | running =>
      simp only [slowDown]
      repeat' split
      all_goals rfl
    | _ => rfl

theorem resume_currLength : w.resume.1.currLength = w.currLength ∧
    w.resume.1.targetLength = w.targetLength := by
  unfold resume
  cases w.state with
  | paused =>
    simp only
    repeat' split
    all_goals exact ⟨rfl, rfl⟩
  | _ => exact ⟨rfl, rfl⟩

theorem changeSpeed_currLength (newSpeed : K) :
    (w.changeSpeed newSpeed).1.currLength = w.currLength ∧
      (w.changeSpeed newSpeed).1.targetLength = w.targetLength := by
  unfold changeSpeed
  split
  · exact ⟨rfl, rfl⟩
  · cases w.state with
    | running =>
      simp only
      repeat' split
      all_goals exact ⟨rfl, rfl⟩
    | _ => exact ⟨rfl, rfl⟩

variable [IsStrictOrderedRing K]

/-- A fresh plan for what is left aims at the target. -/
theorem aimed_of_plan {p : MoveRuntimePlanSpeedInput K} {mrt : Moveruntime K} {len : K}
    (hm : Moveruntime.plan p len = some mrt) (ha : p.acc0 ≠ 0) (hd : p.dec0 ≠ 0)
    (hv : 0 < p.cruiseV) (hp : ¬Moveruntime.NoPhases Moveruntime.cycleT p len)
    (hw : w.mrt = mrt) (htemp : w.tempUsingSpeedParam = p) (hs : w.state = .running)
    (hlen : w.currLength + len = w.targetLength) : w.Aimed := by
  obtain ⟨hplan, hrun, hzero, hplanned⟩ := Moveruntime.onPlan_of_plan hv ha hd hp hm
  subst hw htemp
  exact ⟨ha, hd, hv, by simp [hs], fun _ => ⟨hplan, hrun, by rw [hzero, hplanned, sub_zero, hlen]⟩,
    fun hr => by simp [hs] at hr⟩

theorem start_aimed {sp : MoveRuntimePlanSpeedInput K} {len : K} (hsp : sp.Accepted)
    (h : (w.start sp len).2 = true) : (w.start sp len).1.Aimed := by
  unfold start at h ⊢
  cases hm : Moveruntime.plan sp len with
  | none => simp [hm] at h
  | some mrt =>
    exact aimed_of_plan hm hsp.acc0_pos.ne' hsp.dec0_neg.ne hsp.cruiseV_pos
      (Moveruntime.not_noPhases_of_rest hsp.entryV hsp.exitV.le) rfl rfl rfl (zero_add len)

theorem Aimed.pause (h : w.Aimed) : w.pause.1.Aimed := by
  unfold MoveruntimeWrapper.pause
  cases hs : w.state with
  | running =>
    simp only [slowDown]
    repeat' split
    all_goals
      exact h.of_idle rfl rfl h.cruiseV (by simp)
  | notStarted => exact h.of_idle rfl rfl h.cruiseV (.inl rfl)
  | _ => exact h

/-- Resuming aims at the target again unless the move has gone past it. -/
theorem Aimed.resume (h : w.Aimed) (hc : w.state = .paused → w.currLength ≤ w.targetLength) :
    w.resume.1.Aimed := by
  unfold MoveruntimeWrapper.resume
  cases hs : w.state with
  | paused =>
    simp only
    split
    · rename_i hr
      refine ⟨h.acc0, h.dec0, h.cruiseV, by simp, by simp, fun _ => ?_⟩
      have := hc hs
      simp only
      linarith
    · rename_i hr
      split
      · rename_i hm
        exact absurd (Moveruntime.plan_eq_none.mp hm) hr
      · rename_i mrt hm
        exact aimed_of_plan hm h.acc0 h.dec0 h.cruiseV
          (Moveruntime.not_noPhases_of_rest rfl le_rfl) rfl rfl rfl (add_sub_cancel _ _)
  | _ => exact h

/-- The change of speed that leaves a plan without cycles. -/
def NoPhasesAt (w : MoveruntimeWrapper K) (newSpeed : K) : Prop :=
  w.state = .running ∧ |w.mrt.currentSpeed - newSpeed| < Moveruntime.speedEps ∧
    |2 - newSpeed| < Moveruntime.speedEps ∧
    w.targetLength - w.currLength < newSpeed * Moveruntime.cycleT

instance (w : MoveruntimeWrapper K) (newSpeed : K) : Decidable (w.NoPhasesAt newSpeed) :=
  inferInstanceAs (Decidable (_ ∧ _ ∧ _ ∧ _))

theorem Aimed.changeSpeed (h : w.Aimed) {newSpeed : K} (hc : ¬w.NoPhasesAt newSpeed) :
    (w.changeSpeed newSpeed).1.Aimed := by
  unfold MoveruntimeWrapper.changeSpeed
  split
  · exact h
  · rename_i hv
    have hv : 0 < newSpeed := not_le.mp hv
    cases hs : w.state with
    | paused => exact h.of_idle rfl rfl hv (.inr (.inr rfl))
    | pausing => exact h.of_idle rfl rfl hv (.inr (.inl rfl))
    | running =>
      simp only
      split
      · exact h
      · split
        · exact h
        · rename_i hr
          split
          · rename_i hm
            exact absurd (Moveruntime.plan_eq_none.mp hm) hr
          · rename_i mrt hm
            refine aimed_of_plan hm h.acc0 h.dec0 hv (fun hp => hc ⟨hs, hp.1, ?_, hp.2.2⟩) rfl rfl
              rfl (add_sub_cancel _ _)
            simpa [Moveruntime.exitSpeed] using hp.2.1
    | _ => exact h

end MoveruntimeWrapper

namespace PointMoveHandler

/-- The position is on the line at the length the wrapper has gone. -/
def Tracks (m : PointMoveHandler K) : Prop :=
  ∀ i, m.currPos i = m.startPos i + m.unitVector i * m.mrtWrapper.currLength

variable {m : PointMoveHandler K}

/-- A cycle moves the position by the increment, also where it does not bring it up to date. -/
theorem Tracks.runOnce_currPos (h : m.Tracks) (i : Fin 6) :
    m.runOnce.currPos i = m.currPos i + m.unitVector i * m.mrtWrapper.runOnce.2 := by
  have hover (ho : m.mrtWrapper.runOnce.1.isOver) :
      m.currPos i = m.currPos i + m.unitVector i * m.mrtWrapper.runOnce.2 := by
    rw [MoveruntimeWrapper.runOnce_of_isOver ho, mul_zero, add_zero]
  simp only [runOnce]
  split
  · rename_i hs
    refine hover (MoveruntimeWrapper.isOver_iff.mpr (.inr ?_))
    simpa [MoveruntimeWrapper.isStarted] using hs
  · split
    · rename_i ho
      exact hover ho
    · simp only [MotionUtils.scaleAxis, MoveruntimeWrapper.runOnce_currLength, h i]
      ring

theorem Tracks.runOnce (h : m.Tracks) : m.runOnce.Tracks := by
  intro i
  rw [h.runOnce_currPos, runOnce_startPos, runOnce_unitVector, runOnce_mrtWrapper,
    MoveruntimeWrapper.runOnce_currLength, h i]
  ring

variable [FloorRing K] [RealFns K] [Settings]

/-- A move that was started stands at its start. -/
theorem start_tracks {sp : MoveRuntimePlanSpeedInput K} {startPos targetPos : Axis K}
    (h : (m.start sp startPos targetPos).2 = true) :
    (m.start sp startPos targetPos).1.Tracks ∧
      (m.start sp startPos targetPos).1.mrtWrapper.currLength = 0 ∧
      (m.start sp startPos targetPos).1.mrtWrapper.targetLength =
        MotionUtils.axisLengthBetween startPos targetPos := by
  have hlen : (m.start sp startPos targetPos).1.mrtWrapper.currLength = 0 ∧
      (m.start sp startPos targetPos).1.mrtWrapper.targetLength =
        MotionUtils.axisLengthBetween startPos targetPos := by
    simp only [start, MoveruntimeWrapper.start] at h ⊢
    split
    · rename_i hm
      simp [hm] at h
    · exact ⟨rfl, rfl⟩
  refine ⟨fun i => ?_, hlen⟩
  rw [hlen.1, mul_zero, add_zero]
  rfl

end PointMoveHandler

/-- One point move, with the sum of the increments its wrapper has returned. -/
structure PointMoveRun (K : Type) where
  handler : PointMoveHandler K
  returned : K

namespace PointMoveRun

inductive Command (K : Type) where
  | runOnce
  | pause
  | resume
  | changeSpeed (newSpeed : K)

variable [FloorRing K] [RealFns K] [Settings]

/-- A move just started by a handler in any state. -/
def new (m : PointMoveHandler K) (sp : MoveRuntimePlanSpeedInput K) (startPos targetPos : Axis K) :
    PointMoveRun K :=
  ⟨(m.start sp startPos targetPos).1, 0⟩

def step (s : PointMoveRun K) : Command K → PointMoveRun K
  | .runOnce => ⟨s.handler.runOnce, s.returned + s.handler.mrtWrapper.runOnce.2⟩
  | .pause => { s with handler := s.handler.pause.1 }
  | .resume => { s with handler := s.handler.resume.1 }
  | .changeSpeed newSpeed => { s with handler := (s.handler.changeSpeed newSpeed).1 }

/-- Where a move from `a` to `b` stands. -/
structure Follows (s : PointMoveRun K) (a b : Axis K) : Prop where
  returned : s.handler.mrtWrapper.currLength = s.returned
  tracks : s.handler.Tracks
  startPos : s.handler.startPos = a
  targetPos : s.handler.targetPos = b
  unitVector : s.handler.unitVector = MotionUtils.axisUnitVector a b
  targetLength : s.handler.mrtWrapper.targetLength = MotionUtils.axisLengthBetween a b

variable {s : PointMoveRun K} {a b : Axis K}

/-- A call that only changes the wrapper, and not its lengths, moves nothing. -/
theorem Follows.ofWrapper (h : s.Follows a b) {w : MoveruntimeWrapper K}
    (hw : w.currLength = s.handler.mrtWrapper.currLength ∧
      w.targetLength = s.handler.mrtWrapper.targetLength) :
    PointMoveRun.Follows { s with handler := { s.handler with mrtWrapper := w } } a b where
  returned := hw.1.trans h.returned
  tracks i := by
    show s.handler.currPos i = s.handler.startPos i + s.handler.unitVector i * w.currLength
    rw [h.tracks i, hw.1]
  startPos := h.startPos
  targetPos := h.targetPos
  unitVector := h.unitVector
  targetLength := hw.2.trans h.targetLength

theorem step_follows {c : Command K} (h : s.Follows a b) : (s.step c).Follows a b := by
  cases c with
  | runOnce =>
    refine ⟨?_, h.tracks.runOnce, ?_, ?_, ?_, ?_⟩
    all_goals simp only [step]
    · rw [PointMoveHandler.runOnce_mrtWrapper, MoveruntimeWrapper.runOnce_currLength, h.returned]
    · rw [PointMoveHandler.runOnce_startPos, h.startPos]
    · rw [PointMoveHandler.runOnce_targetPos, h.targetPos]
    · rw [PointMoveHandler.runOnce_unitVector, h.unitVector]
    · rw [PointMoveHandler.runOnce_mrtWrapper, MoveruntimeWrapper.runOnce_targetLength,
        h.targetLength]
  | pause => exact h.ofWrapper MoveruntimeWrapper.pause_currLength
  | resume => exact h.ofWrapper MoveruntimeWrapper.resume_currLength
  | changeSpeed v => exact h.ofWrapper (MoveruntimeWrapper.changeSpeed_currLength v)

/-- The step neither resumes a move that was paused past its target, nor leaves a running one with
a plan without cycles. -/
def KeepsAim (s : PointMoveRun K) : Command K → Prop
  | .resume => s.handler.state = .paused →
      s.handler.mrtWrapper.currLength ≤ s.handler.mrtWrapper.targetLength
  | .changeSpeed newSpeed => ¬s.handler.mrtWrapper.NoPhasesAt newSpeed
  | _ => True

instance (s : PointMoveRun K) (c : Command K) : Decidable (s.KeepsAim c) := by
  cases c <;> unfold KeepsAim <;> infer_instance

variable [IsStrictOrderedRing K]

theorem step_aimed {c : Command K} (h : s.handler.mrtWrapper.Aimed) (hc : s.KeepsAim c) :
    (s.step c).handler.mrtWrapper.Aimed := by
  cases c with
  | runOnce =>
    simp only [step, PointMoveHandler.runOnce_mrtWrapper]
    exact h.runOnce
  | pause => exact h.pause
  | resume => exact h.resume hc
  | changeSpeed v => exact h.changeSpeed hc

end PointMoveRun

end

namespace PointMoveRun

attribute [local instance] Sample.settings

/-- A move of 10, paused on the way and resumed, to its end. -/
def pausedOnce : List (Command ℚ) :=
  [.runOnce, .pause] ++ .replicate 5 .runOnce ++ [.resume] ++ .replicate 14 .runOnce

end PointMoveRun

end Edm
