import Edm.Lib.Progress
import Edm.Motion.Discharge
import Edm.Motion.Jump
import Edm.Motion.PlanLength

/-!
# Tasks come to a halt

A task that was asked to pause or to stop needs some cycles for it: a rapid move slows down, a
discharge task ends its jump, goes through the buffer as fast as the servo lets it, and draws back a
little. Here every such way is shown to end. What a plan still takes is counted (`cyclesLeft`); what
the buffer takes depends on the servo, which must not ask for ever smaller steps (`Paced`).
-/

set_option linter.unusedSectionVars false

namespace Edm

open Machine (LeadsTo)
open MoveruntimeWrapper (State)

variable {K : Type} [Field K] [LinearOrder K]

/-! ### Point moves -/

/-- The cycles a plan still takes, with the one that finds it played out. -/
def Moveruntime.cyclesLeft (m : Moveruntime K) : ℕ :=
  if m.isRunning then (m.impl.totalN - m.impl.currentN).toNat + 1 else 0

theorem Moveruntime.runOnce_cyclesLeft (m : Moveruntime K) :
    m.runOnce.1.isOver ∨ m.runOnce.1.cyclesLeft < m.cyclesLeft := by
  unfold runOnce
  cases hs : m.state with
  | notRunning => exact .inl (by simp [isOver, isRunning, hs])
  | running =>
    rw [if_neg (by simp)]
    split
    · rename_i hlt
      refine .inr ?_
      simp only [cyclesLeft, isRunning, hs, decide_true, if_true, Impl.cycle_totalN,
        Impl.cycle_currentN]
      omega
    · exact .inl rfl

namespace MoveruntimeWrapper

/-- The states in which a plan is played. -/
def State.Plays (s : State) : Prop := s = .running ∨ s = .pausing ∨ s = .stopping

instance (s : State) : Decidable s.Plays := inferInstanceAs (Decidable (_ ∨ _))

/-- Where a plan that is played out leads. -/
def State.ended : State → State
  | .running => .stopped
  | .pausing => .paused
  | .stopping => .stopped
  | s => s

variable {w : MoveruntimeWrapper K}

theorem advance_cyclesLeft (w : MoveruntimeWrapper K) (ended : State) :
    (w.advance ended).1.state = ended ∨
      (w.advance ended).1.state = w.state ∧
        (w.advance ended).1.mrt.cyclesLeft < w.mrt.cyclesLeft := by
  have hstate : (w.advance ended).1.state =
      if w.mrt.runOnce.1.isOver then ended else w.state := rfl
  rcases w.mrt.runOnce_cyclesLeft with h | h
  · exact .inl (by rw [hstate, if_pos h])
  · cases ho : w.mrt.runOnce.1.isOver with
    | true => exact .inl (by rw [hstate, if_pos ho])
    | false => exact .inr ⟨by rw [hstate, ho]; rfl, h⟩

theorem runOnce_cyclesLeft (h : w.state.Plays) :
    w.runOnce.1.state = w.state.ended ∨
      w.runOnce.1.state = w.state ∧ w.runOnce.1.mrt.cyclesLeft < w.mrt.cyclesLeft := by
  rcases h with h | h | h
  all_goals
    simp only [runOnce, h, State.ended]
    simpa only [h] using w.advance_cyclesLeft _

@[simp] theorem runOnce_recordSpeedParam :
    w.runOnce.1.recordSpeedParam = w.recordSpeedParam := by
  unfold runOnce
  cases w.state <;> rfl

variable [FloorRing K] [RealFns K] [Settings] {imm : Bool}

@[simp] theorem slowDown_recordSpeedParam (ending ended : State) :
    (w.slowDown ending ended).1.recordSpeedParam = w.recordSpeedParam := by
  unfold slowDown
  dsimp only
  repeat' split
  all_goals rfl

@[simp] theorem pause_recordSpeedParam : w.pause.1.recordSpeedParam = w.recordSpeedParam := by
  unfold pause
  cases w.state
  case running => exact slowDown_recordSpeedParam _ _
  all_goals rfl

@[simp] theorem resume_recordSpeedParam : w.resume.1.recordSpeedParam = w.recordSpeedParam := by
  unfold resume
  dsimp only
  repeat' split
  all_goals rfl

@[simp] theorem stop_recordSpeedParam : (w.stop imm).1.recordSpeedParam = w.recordSpeedParam := by
  unfold stop
  split
  · rfl
  · cases w.state
    case running => exact slowDown_recordSpeedParam _ _
    all_goals rfl

/-- With a deceleration that is one, slowing down can always be planned. -/
theorem slowDown_accepted [IsStrictOrderedRing K] (h : w.recordSpeedParam.dec0 < 0)
    (ending ended : State) : (w.slowDown ending ended).2 = true := by
  unfold slowDown
  dsimp only
  split
  · rfl
  rename_i hv
  split
  · rfl
  rename_i hrest
  have hdec : 0 < decLength w.mrt.currentSpeed w.recordSpeedParam.dec0 := by
    have hv : 0 < w.mrt.currentSpeed := not_le.mp hv
    exact div_pos (mul_pos hv hv) (by linarith)
  split
  · rename_i hplan
    rw [Moveruntime.plan_eq_none] at hplan
    split at hplan <;> linarith
  · rfl

end MoveruntimeWrapper

namespace PointMoveHandler

variable {m : PointMoveHandler K}

/-- The cycles until the move is at rest, with the one that finds its plan played out. -/
def cyclesLeft (m : PointMoveHandler K) : ℕ :=
  if m.state.Plays then m.mrtWrapper.mrt.cyclesLeft + 1 else 0

theorem runOnce_cyclesLeft (h : m.state.Plays) :
    (m.runOnce.state = m.state.ended ∨ m.runOnce.state = m.state) ∧
      m.runOnce.cyclesLeft < m.cyclesLeft := by
  have hw := MoveruntimeWrapper.runOnce_cyclesLeft (w := m.mrtWrapper) h
  rw [cyclesLeft, cyclesLeft, if_pos h]
  simp only [state, runOnce_mrtWrapper] at h hw ⊢
  rcases hw with hw | ⟨hw, hlt⟩
  · refine ⟨.inl hw, ?_⟩
    rw [hw, if_neg]
    · omega
    · rcases h with h | h | h <;> rw [h] <;> decide
  · refine ⟨.inr hw, ?_⟩
    rw [hw, if_pos h]
    omega

/-- The move is under way or over: nobody pauses it. -/
def Unhalted (m : PointMoveHandler K) : Prop := m.state = .running ∨ m.isOver

theorem new_unhalted : (new (K := K)).Unhalted := .inr rfl

/-- A cycle ends a move nobody pauses, or goes on with it. -/
theorem Unhalted.runOnce (h : m.Unhalted) :
    m.runOnce.isOver ∨ m.runOnce.state = .running ∧ m.runOnce.cyclesLeft < m.cyclesLeft := by
  rcases h with h | h
  · obtain ⟨h' | h', hlt⟩ := m.runOnce_cyclesLeft (.inl h)
    · exact .inl (isOver_iff.mpr (.inl (by rw [h', h]; rfl)))
    · exact .inr ⟨h'.trans h, hlt⟩
  · exact .inl (runOnce_of_over h).2.2

theorem Unhalted.runOnce_unhalted (h : m.Unhalted) : m.runOnce.Unhalted :=
  h.runOnce.symm.imp_left And.left

variable [FloorRing K] [RealFns K] [Settings]

theorem Unhalted.start (h : m.Unhalted) (sp : MoveRuntimePlanSpeedInput K)
    (startPos targetPos : Axis K) : (m.start sp startPos targetPos).1.Unhalted := by
  rcases m.start_cases sp startPos targetPos with ⟨_, hs, _⟩ | ⟨_, hs, _⟩
  · exact .inl hs
  · simpa only [Unhalted, isOver_iff, hs] using h

end PointMoveHandler

variable [FloorRing K] [RealFns K] [Settings]

/-- What the servo asks for in a cycle is no way forward, or one of at least `δ`. -/
def CycleInput.Paced (δ : K) (inp : CycleInput K) : Prop :=
  G01AutoTask.servoCmd inp ≤ 0 ∨ δ ≤ G01AutoTask.servoCmd inp

/-! ### The discharge task -/

namespace G01AutoTask

/-- A cycle of the task with the data it shares. -/
def step (x : G01AutoTask K × MotionShared K) (inp : CycleInput K) :
    G01AutoTask K × MotionShared K := x.1.runOnce x.2 inp

/-- The line stands within its ends, a jump goes back to a place on it, and nobody pauses the point
move of a jump. -/
structure Ranged (t : G01AutoTask K) : Prop where
  line : t.lineTraj.OnLine
  before : t.servoingLengthBeforeJump ≤ t.lineTraj.totalLength
  jump : t.jumpPmHandler.Unhalted

variable {t t' : G01AutoTask K} {sh : MotionShared K} {inp : CycleInput K}

/-- Only the point move changes, or nothing the invariant is about. -/
theorem Ranged.withJump (h : t.Ranged) (hline : t'.lineTraj = t.lineTraj)
    (hbefore : t'.servoingLengthBeforeJump = t.servoingLengthBeforeJump)
    (hjump : t'.jumpPmHandler.Unhalted) : t'.Ranged where
  line := hline ▸ h.line
  before := hline ▸ hbefore ▸ h.before
  jump := hjump

variable [IsStrictOrderedRing K] [LawfulSqrt K]

/-- Only the length of the line changes. -/
theorem Ranged.along (h : t.Ranged) {len : K} (hline : t'.lineTraj = t.lineTraj.setCurrLength len)
    (hbefore : t'.servoingLengthBeforeJump = t.servoingLengthBeforeJump)
    (hjump : t'.jumpPmHandler = t.jumpPmHandler) : t'.Ranged where
  line := hline ▸ h.line.toProper.setCurrLength len
  before := hline ▸ hbefore ▸ h.before
  jump := hjump ▸ h.jump

theorem Ranged.planJumpUp (h : t.Ranged) : t.planJumpUp.1.Ranged := by
  obtain ⟨jp, hcheck, -⟩ := checkAndValidateJumpHeight_spec
    { t with servoingLengthBeforeJump := t.lineTraj.currLength }
  simp only [G01AutoTask.planJumpUp, hcheck]
  split
  · exact ⟨h.line, h.line.le_total, h.jump⟩
  · exact ⟨h.line, h.line.le_total, h.jump.start _ _ _⟩

theorem Ranged.servoingCheckAndPlanJump (h : t.Ranged) (sh : MotionShared K) (inp : CycleInput K) :
    (t.servoingCheckAndPlanJump sh inp).1.Ranged := by
  have h' : { t with jumpingParam := sh.jumpParam, lastJumpEndTimeMs := inp.nowMs }.Ranged :=
    h.withJump rfl rfl h.jump
  have hplan := h'.planJumpUp
  simp only [G01AutoTask.servoingCheckAndPlanJump]
  repeat' split
  all_goals first
    | exact h.withJump rfl rfl h.jump
    | exact hplan.withJump rfl rfl hplan.jump

theorem Ranged.servoSubstateServoing (h : t.Ranged) (sh : MotionShared K) (inp : CycleInput K) :
    (t.servoSubstateServoing sh inp).1.Ranged := by
  have h' := h.servoingCheckAndPlanJump sh inp
  simp only [G01AutoTask.servoSubstateServoing, servoingDoServothings]
  repeat' split
  all_goals first
    | exact h'.withJump rfl rfl h'.jump
    | exact h'.along rfl rfl rfl

theorem Ranged.servoSubstateJumpuping (h : t.Ranged) (sh : MotionShared K) (inp : CycleInput K) :
    (t.servoSubstateJumpuping sh inp).1.Ranged := by
  have hrun := h.jump.runOnce_unhalted
  obtain ⟨now, hsend, -⟩ := multiSend_eq { t with jumpPmHandler := t.jumpPmHandler.runOnce }
    (sh.setGlobalCmdAxis t.jumpPmHandler.runOnce.currPos) inp false
  simp only [G01AutoTask.servoSubstateJumpuping, hsend]
  split
  · exact h.withJump rfl rfl (hrun.start _ _ _)
  · exact h.withJump rfl rfl hrun

theorem Ranged.servoSubstateJumpdowning (h : t.Ranged) (sh : MotionShared K) (inp : CycleInput K) :
    (t.servoSubstateJumpdowning sh inp).1.Ranged := by
  have hrun := h.jump.runOnce_unhalted
  obtain ⟨now, hsend, -⟩ := multiSend_eq { t with jumpPmHandler := t.jumpPmHandler.runOnce }
    (sh.setGlobalCmdAxis t.jumpPmHandler.runOnce.currPos) inp true
  have h' : { t with jumpPmHandler := t.jumpPmHandler.runOnce }.Ranged := h.withJump rfl rfl hrun
  simp only [G01AutoTask.servoSubstateJumpdowning, hsend]
  split
  · exact h'.along rfl rfl rfl
  · exact h'.withJump rfl rfl hrun

theorem Ranged.servoSubstateJumpdowningbuffer (h : t.Ranged) (sh : MotionShared K)
    (inp : CycleInput K) : (t.servoSubstateJumpdowningbuffer sh inp).1.Ranged := by
  simp only [G01AutoTask.servoSubstateJumpdowningbuffer]
  split
  · split <;> exact h.along rfl rfl rfl
  · exact h.withJump rfl rfl h.jump

theorem Ranged.stateNormalRunning (h : t.Ranged) (sh : MotionShared K) (inp : CycleInput K) :
    (t.stateNormalRunning sh inp).1.Ranged := by
  unfold G01AutoTask.stateNormalRunning
  cases t.servoSubState with
  | servoing => exact h.servoSubstateServoing sh inp
  | jumpUping => exact h.servoSubstateJumpuping sh inp
  | jumpDowning => exact h.servoSubstateJumpdowning sh inp
  | jumpDowningBuffer => exact h.servoSubstateJumpdowningbuffer sh inp

theorem Ranged.statePausingOrStopping (h : t.Ranged) (sh : MotionShared K) (inp : CycleInput K)
    (target : State) : (t.statePausingOrStopping sh inp target).1.Ranged := by
  unfold G01AutoTask.statePausingOrStopping
  split
  · split
    · simp only
      split <;> exact h.withJump rfl rfl h.jump
    · exact h.servoSubstateJumpuping sh inp
    · exact h.servoSubstateJumpdowning sh inp
    · exact h.servoSubstateJumpdowningbuffer sh inp
  · have hback : (t.pauseReturnBack sh).1.Ranged := h.along rfl rfl rfl
    simp only
    split
    · exact h.withJump rfl rfl h.jump
    · split
      · split
        · exact hback
        · exact hback.withJump rfl rfl hback.jump
      · exact h.withJump rfl rfl h.jump

theorem Ranged.runOnce (h : t.Ranged) (sh : MotionShared K) (inp : CycleInput K) :
    (t.runOnce sh inp).1.Ranged := by
  unfold G01AutoTask.runOnce
  cases t.state with
  | normalRunning => exact h.stateNormalRunning sh inp
  | pausing => exact h.statePausingOrStopping sh inp .paused
  | paused => exact h
  | resuming => exact h.withJump rfl rfl h.jump
  | stopping => exact h.statePausingOrStopping sh inp .stopped
  | stopped => exact h

/-- Outside servoing a cycle leaves the state and the way to a halt alone. -/
theorem stateNormalRunning_state (t : G01AutoTask K) (sh : MotionShared K) (inp : CycleInput K)
    (hs : t.servoSubState ≠ .servoing) :
    (t.stateNormalRunning sh inp).1.state = t.state ∧
      (t.stateNormalRunning sh inp).1.pauseOrStopSubState = t.pauseOrStopSubState := by
  unfold stateNormalRunning
  cases h : t.servoSubState with
  | servoing => exact absurd h hs
  | jumpUping =>
    have h := t.servoSubstateJumpuping_servoStep sh inp
    exact ⟨h.2, h.1.subState⟩
  | jumpDowning =>
    have h := t.servoSubstateJumpdowning_servoStep sh inp
    exact ⟨h.2, h.1.subState⟩
  | jumpDowningBuffer =>
    have h := t.servoSubstateJumpdowningbuffer_servoStep sh inp
    exact ⟨h.2, h.1.subState⟩

/-- The two point moves of a jump, and the sub-state after each. -/
def IsMove (s next : ServoSubState) : Prop :=
  s = .jumpUping ∧ next = .jumpDowning ∨ s = .jumpDowning ∧ next = .jumpDowningBuffer

/-- A cycle of a point move of a jump: the sub-state after it begins, or only the move goes on. -/
theorem stateNormalRunning_move {s next : ServoSubState} (h : IsMove s next)
    (hs : t.servoSubState = s) (sh : MotionShared K) (inp : CycleInput K) :
    if t.jumpPmHandler.runOnce.isOver then
      (t.stateNormalRunning sh inp).1.servoSubState = next
    else
      (t.stateNormalRunning sh inp).1.servoSubState = s ∧
        (t.stateNormalRunning sh inp).1.jumpPmHandler = t.jumpPmHandler.runOnce := by
  rcases h with ⟨rfl, rfl⟩ | ⟨rfl, rfl⟩
  · obtain ⟨now, hsend, -⟩ := multiSend_eq { t with jumpPmHandler := t.jumpPmHandler.runOnce }
      (sh.setGlobalCmdAxis t.jumpPmHandler.runOnce.currPos) inp false
    simp only [stateNormalRunning, hs]
    simp only [servoSubstateJumpuping, hsend]
    split
    · rfl
    · exact ⟨hs, rfl⟩
  · obtain ⟨now, hsend, -⟩ := multiSend_eq { t with jumpPmHandler := t.jumpPmHandler.runOnce }
      (sh.setGlobalCmdAxis t.jumpPmHandler.runOnce.currPos) inp true
    simp only [stateNormalRunning, hs]
    simp only [servoSubstateJumpdowning, hsend]
    split
    · rfl
    · exact ⟨hs, rfl⟩

/-- A cycle in the buffer ends it, or goes a part of what remains of it. -/
theorem servoSubstateJumpdowningbuffer_cases (t : G01AutoTask K) (sh : MotionShared K)
    (inp : CycleInput K) :
    (t.servoSubstateJumpdowningbuffer sh inp).1.servoSubState = .servoing ∨
      0 < servoCmd inp ∧
        servoCmd inp < t.servoingLengthBeforeJump - t.lineTraj.currLength ∧
        (t.servoSubstateJumpdowningbuffer sh inp).1 =
          { t with lineTraj := t.lineTraj.runOnce (servoCmd inp) } := by
  simp only [servoSubstateJumpdowningbuffer]
  split
  · rename_i hcmd
    split
    · exact .inl rfl
    · rename_i hover
      exact .inr ⟨hcmd, not_le.mp fun h => hover (.inl h), rfl⟩
  · exact .inl rfl

/-- What a task that is pausing or stopping is on its way to. -/
def State.halt : State → State
  | .pausing => .paused
  | .stopping => .stopped
  | s => s

/-- On the way to a halt, in the given sub-states. -/
structure HaltsFrom (st : State) (p : PauseOrStopSubState) (s : ServoSubState)
    (x : G01AutoTask K × MotionShared K) : Prop where
  ranged : x.1.Ranged
  state : x.1.state = st
  subState : x.1.pauseOrStopSubState = p
  servo : x.1.servoSubState = s

variable {st : State} {p : PauseOrStopSubState} {s : ServoSubState}
  {x : G01AutoTask K × MotionShared K} {δ : K}

theorem HaltsFrom.step_eq (h : HaltsFrom st p s x) (hst : st = .pausing ∨ st = .stopping)
    (inp : CycleInput K) : step x inp = x.1.statePausingOrStopping x.2 inp st.halt := by
  obtain ⟨t, sh⟩ := x
  have hs : t.state = st := h.state
  rcases hst with rfl | rfl <;> simp only [step, G01AutoTask.runOnce, hs, State.halt]

/-- The servo sub-states run on while the halt waits for the end of the jump. -/
theorem HaltsFrom.step_waiting (h : HaltsFrom st .waitingForJumpEnd s x)
    (hst : st = .pausing ∨ st = .stopping) (hs : s ≠ .servoing) (inp : CycleInput K) :
    step x inp = x.1.stateNormalRunning x.2 inp := by
  rw [h.step_eq hst]
  unfold statePausingOrStopping stateNormalRunning
  rw [h.subState, h.servo]
  cases s with
  | servoing => exact absurd rfl hs
  | _ => rfl

/-- What such a cycle keeps. -/
theorem HaltsFrom.stateNormalRunning (h : HaltsFrom st .waitingForJumpEnd s x) (hs : s ≠ .servoing)
    (inp : CycleInput K) {next : ServoSubState}
    (hnext : (x.1.stateNormalRunning x.2 inp).1.servoSubState = next) :
    HaltsFrom st .waitingForJumpEnd next (x.1.stateNormalRunning x.2 inp) := by
  obtain ⟨hst, hsub⟩ := x.1.stateNormalRunning_state x.2 inp (h.servo ▸ hs)
  exact ⟨h.ranged.stateNormalRunning x.2 inp, hst.trans h.state, hsub.trans h.subState, hnext⟩

/-- A point move of a jump ends. -/
theorem move_ends {next : ServoSubState} (hmove : IsMove s next)
    (hst : st = .pausing ∨ st = .stopping) :
    LeadsTo step (CycleInput.Paced δ) (HaltsFrom (K := K) st .waitingForJumpEnd s)
      (HaltsFrom st .waitingForJumpEnd next) := by
  have hs : s ≠ .servoing := by rcases hmove with ⟨rfl, -⟩ | ⟨rfl, -⟩ <;> simp
  refine LeadsTo.of_measure (μ := fun x => x.1.jumpPmHandler.cyclesLeft) fun x inp h _ => ?_
  rw [h.step_waiting hst hs]
  have hcase := stateNormalRunning_move hmove h.servo x.2 inp
  rcases h.ranged.jump.runOnce with hover | ⟨hrunning, hlt⟩
  · rw [if_pos hover] at hcase
    exact .inl (h.stateNormalRunning hs inp hcase)
  · rw [if_neg (by simp [hrunning])] at hcase
    exact .inr ⟨h.stateNormalRunning hs inp hcase.1, by rwa [hcase.2]⟩

/-- The buffer ends: the servo goes through it in steps of at least `δ`, or not at all. -/
theorem buffer_ends (hδ : 0 < δ) (hst : st = .pausing ∨ st = .stopping) :
    LeadsTo step (CycleInput.Paced δ) (HaltsFrom (K := K) st .waitingForJumpEnd .jumpDowningBuffer)
      (HaltsFrom st .waitingForJumpEnd .servoing) := by
  refine LeadsTo.of_lowering
    (f := fun x => x.1.servoingLengthBeforeJump - x.1.lineTraj.currLength) hδ
    fun x inp h hpaced => ?_
  have hbuffer : x.1.stateNormalRunning x.2 inp = x.1.servoSubstateJumpdowningbuffer x.2 inp := by
    rw [G01AutoTask.stateNormalRunning, h.servo]
  have hnext : ∀ next, (x.1.stateNormalRunning x.2 inp).1.servoSubState = next →
      HaltsFrom st .waitingForJumpEnd next (x.1.stateNormalRunning x.2 inp) :=
    fun _ => h.stateNormalRunning (by simp) inp
  rw [h.step_waiting hst (by simp)]
  rcases x.1.servoSubstateJumpdowningbuffer_cases x.2 inp with hover | ⟨hpos, hlt, heq⟩
  · exact .inl (hnext _ (by rw [hbuffer, hover]))
  · refine .inr ⟨hnext _ (by rw [hbuffer, heq]; exact h.servo), ?_⟩
    have hle : δ ≤ servoCmd inp := hpaced.resolve_left (not_le.mpr hpos)
    have hlen : (x.1.lineTraj.runOnce (servoCmd inp)).currLength =
        x.1.lineTraj.currLength + servoCmd inp := by
      have hbefore := h.ranged.before
      have hnonneg := h.ranged.line.nonneg
      exact TrajectoryLinearSegement.validate_of_mem (by linarith) (by linarith)
    simp only [hbuffer, heq, hlen]
    constructor <;> linarith

/-- The power is off, and only the way back is left. -/
structure Backs (st : State) (x : G01AutoTask K × MotionShared K) : Prop where
  ranged : x.1.Ranged
  state : x.1.state = st
  subState : x.1.pauseOrStopSubState = .backingToBegin

/-- Once the jump is over the power goes off. -/
theorem servoing_ends (hst : st = .pausing ∨ st = .stopping) :
    LeadsTo step (CycleInput.Paced δ) (HaltsFrom (K := K) st .waitingForJumpEnd .servoing)
      (Backs st) := by
  refine LeadsTo.of_step fun x inp h _ => ?_
  have hr := h.ranged.statePausingOrStopping x.2 inp st.halt
  rw [h.step_eq hst]
  refine ⟨hr, ?_, ?_⟩
  · unfold statePausingOrStopping
    rw [h.subState, h.servo]
    dsimp only
    split <;> exact h.state
  · unfold statePausingOrStopping
    rw [h.subState, h.servo]

/-- A step back that is not the last has a fixed length at least. -/
theorem pauseReturnBackStep_cases (t : G01AutoTask K) :
    t.pauseReturnBackStep.2 = true ∨
      1 / 100 ≤ t.pauseReturnBackStep.1 ∧
        t.pauseReturnBackCurrentGoneBlu + t.pauseReturnBackStep.1 ≤
          t.pauseReturnBackTargetDistanceBlu := by
  unfold pauseReturnBackStep
  extract_lets speed dec
  split
  · exact .inl rfl
  · rename_i hle
    refine .inr ⟨?_, not_lt.mp hle⟩
    simp only [dec]
    split
    · exact le_rfl
    · rename_i hspeed
      exact not_lt.mp hspeed

/-- The way back ends: at once when the task is stopped, after a little when it is paused. -/
theorem backing_ends (hst : st = .pausing ∨ st = .stopping) :
    LeadsTo step (CycleInput.Paced δ) (Backs (K := K) st) (fun x => x.1.state = st.halt) := by
  rcases hst with rfl | rfl
  · refine LeadsTo.of_lowering (f := fun x =>
      x.1.pauseReturnBackTargetDistanceBlu - x.1.pauseReturnBackCurrentGoneBlu)
      (δ := 1 / 100) (by norm_num) fun x inp h _ => ?_
    have hrun : step x inp =
        if !(x.1.pauseReturnBack x.2).2.2 then
          ((x.1.pauseReturnBack x.2).1, (x.1.pauseReturnBack x.2).2.1)
        else ({ (x.1.pauseReturnBack x.2).1 with state := .paused },
          (x.1.pauseReturnBack x.2).2.1) := by
      unfold step G01AutoTask.runOnce statePausingOrStopping
      rw [h.state, h.subState]
      rfl
    have hr : (step x inp).1.Ranged := h.ranged.runOnce x.2 inp
    rw [hrun] at hr ⊢
    cases hover : (x.1.pauseReturnBack x.2).2.2 with
    | true => exact .inl rfl
    | false =>
      rw [hover] at hr
      have hlast : x.1.pauseReturnBackStep.2 = false := (Bool.or_eq_false_iff.mp hover).1
      obtain ⟨hdec, hle⟩ := x.1.pauseReturnBackStep_cases.resolve_left (by simp [hlast])
      have hgone : (x.1.pauseReturnBack x.2).1.pauseReturnBackCurrentGoneBlu =
          x.1.pauseReturnBackCurrentGoneBlu + x.1.pauseReturnBackStep.1 := by
        simp only [pauseReturnBack, hlast, Bool.false_eq_true, if_false]
      refine .inr ⟨⟨hr, h.state, h.subState⟩, ?_⟩
      show 0 ≤ x.1.pauseReturnBackTargetDistanceBlu -
          (x.1.pauseReturnBack x.2).1.pauseReturnBackCurrentGoneBlu ∧
        x.1.pauseReturnBackTargetDistanceBlu -
          (x.1.pauseReturnBack x.2).1.pauseReturnBackCurrentGoneBlu + 1 / 100 ≤ _
      rw [hgone]
      constructor <;> linarith
  · refine LeadsTo.of_step fun x inp h _ => ?_
    unfold step G01AutoTask.runOnce statePausingOrStopping
    rw [h.state, h.subState]
    rfl

/-- A task that is pausing is paused, one that is stopping is stopped in the end. -/
theorem halts (hδ : 0 < δ) (hst : st = .pausing ∨ st = .stopping) :
    LeadsTo step (CycleInput.Paced δ)
      (fun x : G01AutoTask K × MotionShared K => x.1.Ranged ∧ x.1.state = st)
      (fun x => x.1.state = st.halt) := by
  have hservoing := (servoing_ends (δ := δ) hst).trans (backing_ends hst)
  have hbuffer := (buffer_ends hδ hst).trans hservoing
  have hdown := (move_ends (.inr ⟨rfl, rfl⟩) hst).trans hbuffer
  have hup := (move_ends (.inl ⟨rfl, rfl⟩) hst).trans hdown
  rintro x ⟨hr, hs⟩
  cases hp : x.1.pauseOrStopSubState with
  | backingToBegin => exact backing_ends hst x ⟨hr, hs, hp⟩
  | waitingForJumpEnd =>
    cases hj : x.1.servoSubState with
    | servoing => exact hservoing x ⟨hr, hs, hp, hj⟩
    | jumpUping => exact hup x ⟨hr, hs, hp, hj⟩
    | jumpDowning => exact hdown x ⟨hr, hs, hp, hj⟩
    | jumpDowningBuffer => exact hbuffer x ⟨hr, hs, hp, hj⟩

end G01AutoTask

/-! ### Every task -/

/-- A touch ends a rapid move at once; without one its point move runs on. -/
theorem G00AutoTask.runOnce_cases (t : G00AutoTask K) (sh : MotionShared K) (inp : CycleInput K) :
    (t.runOnce sh inp).1.pmHandler.state = .stopped ∨
      (t.runOnce sh inp).1.pmHandler = t.pmHandler.runOnce := by
  simp only [G00AutoTask.runOnce]
  split
  · refine .inl ?_
    rcases (t.pmHandler.stop true).1.runOnce_state with h | ⟨h, _⟩ | ⟨h, _⟩ | ⟨h, _⟩
    · exact h
    all_goals simp [PointMoveHandler.stop, PointMoveHandler.state] at h
  · exact .inr rfl

/-- A rapid move that slows down comes to rest. -/
theorem G00AutoTask.ends {s : State} (hs : s.Plays) {δ : K} :
    LeadsTo (fun x inp => x.1.runOnce x.2 inp) (CycleInput.Paced δ)
      (fun x : G00AutoTask K × MotionShared K => x.1.pmHandler.state = s)
      (fun x => x.1.pmHandler.state = s.ended ∨ x.1.pmHandler.state = .stopped) := by
  refine LeadsTo.of_measure (μ := fun x => x.1.pmHandler.cyclesLeft) ?_
  rintro ⟨t, sh⟩ inp ht -
  rcases t.runOnce_cases sh inp with h | h
  · exact .inl (.inr h)
  · rw [h]
    obtain ⟨h' | h', hlt⟩ := t.pmHandler.runOnce_cyclesLeft (ht ▸ hs)
    · exact .inl (.inl (by rw [h', ht]))
    · exact .inr ⟨by rw [h', ht], hlt⟩

namespace AutoTask

/-- A cycle of a task with the data it shares. -/
def step (x : AutoTask K × MotionShared K) (inp : CycleInput K) : AutoTask K × MotionShared K :=
  x.1.runOnce x.2 inp

/-- What a task needs to come to a halt when it is asked to. -/
def Endable : AutoTask K → Prop
  | g00 t => t.pmHandler.speedParam.dec0 < 0
  | g01 t => t.Ranged
  | _ => True

def Halting (t : AutoTask K) : Prop := t.isPausing ∨ t.isPaused

def Ending (t : AutoTask K) : Prop := t.isStopping ∨ t.isStopped

variable {t : AutoTask K} {sh : MotionShared K} {inp : CycleInput K} {imm : Bool} {δ : K}

theorem halting_g00 {t : G00AutoTask K} :
    (g00 t).Halting ↔ t.pmHandler.state = .pausing ∨ t.pmHandler.state = .paused := by
  simp [Halting, isPausing, isPaused, G00AutoTask.isPausing, G00AutoTask.isPaused,
    PointMoveHandler.isPausing, MoveruntimeWrapper.isPausing, PointMoveHandler.state]

theorem ending_g00 {t : G00AutoTask K} :
    (g00 t).Ending ↔ t.pmHandler.state = .stopping ∨ t.pmHandler.isOver := by
  simp [Ending, isStopping, isStopped, G00AutoTask.isStopping, G00AutoTask.isStopped,
    PointMoveHandler.isStopping, MoveruntimeWrapper.isStopping, PointMoveHandler.state]

theorem halting_g01 {t : G01AutoTask K} :
    (g01 t).Halting ↔ t.state = .pausing ∨ t.state = .paused := by
  simp [Halting, isPausing, isPaused, G01AutoTask.isPausing, G01AutoTask.isPaused]

theorem ending_g01 {t : G01AutoTask K} :
    (g01 t).Ending ↔ t.state = .stopping ∨ t.state = .stopped := by
  simp [Ending, isStopping, isStopped, G01AutoTask.isStopping, G01AutoTask.isStopped]

theorem halting_g01Group {t : G01GroupAutoTask K} :
    (g01Group t).Halting ↔ t.state = .pausing ∨ t.state = .paused := by
  simp [Halting, isPausing, isPaused, G01GroupAutoTask.isPausing, G01GroupAutoTask.isPaused]

theorem ending_g01Group {t : G01GroupAutoTask K} :
    (g01Group t).Ending ↔ t.state = .stopping ∨ t.state = .stopped := by
  simp [Ending, isStopping, isStopped, G01GroupAutoTask.isStopping, G01GroupAutoTask.isStopped]

/-- The rapid move among the others. -/
theorem g00_ends {s : State} (hs : s.Plays) :
    LeadsTo step (CycleInput.Paced δ)
      (fun x => ∃ y : G00AutoTask K × MotionShared K,
        x = (g00 y.1, y.2) ∧ y.1.pmHandler.state = s)
      (fun x => ∃ y : G00AutoTask K × MotionShared K,
        x = (g00 y.1, y.2) ∧
          (y.1.pmHandler.state = s.ended ∨ y.1.pmHandler.state = .stopped)) :=
  (G00AutoTask.ends hs).map step _ fun _ _ => rfl

variable [IsStrictOrderedRing K] [LawfulSqrt K]

/-- The discharge task among the others. -/
theorem g01_halts (hδ : 0 < δ) {st : G01AutoTask.State} (hst : st = .pausing ∨ st = .stopping) :
    LeadsTo step (CycleInput.Paced δ)
      (fun x => ∃ y : G01AutoTask K × MotionShared K,
        x = (g01 y.1, y.2) ∧ y.1.Ranged ∧ y.1.state = st)
      (fun x => ∃ y : G01AutoTask K × MotionShared K, x = (g01 y.1, y.2) ∧ y.1.state = st.halt) :=
  (G01AutoTask.halts hδ hst).map step _ fun _ _ => rfl

/-- A task that is pausing is paused in the end, or stops by itself. -/
theorem halting_ends (hδ : 0 < δ) :
    LeadsTo step (CycleInput.Paced δ)
      (fun x : AutoTask K × MotionShared K => x.1.Endable ∧ x.1.Halting)
      (fun x => x.1.isPaused ∨ x.1.isStopped) := by
  rintro ⟨t, sh⟩ ⟨he, h⟩
  by_cases hp : t.isPaused
  · exact .now (.inl hp)
  cases t with
  | g00 t =>
    have hs : t.pmHandler.state = .pausing := (halting_g00.mp h).resolve_right fun hs =>
      hp (by simp [isPaused, G00AutoTask.isPaused, hs])
    refine (g00_ends (.inr (.inl rfl)) (g00 t, sh) ⟨(t, sh), rfl, hs⟩).mono ?_
    rintro _ ⟨⟨t, sh⟩, rfl, ht | ht⟩
    · exact .inl (by simpa [isPaused, G00AutoTask.isPaused, State.ended] using ht)
    · exact .inr (by simp [isStopped, G00AutoTask.isStopped, ht])
  | g01 t =>
    have hs : t.state = .pausing := (halting_g01.mp h).resolve_right fun hs =>
      hp (by simp [isPaused, G01AutoTask.isPaused, hs])
    refine (g01_halts hδ (.inl rfl) (g01 t, sh) ⟨(t, sh), rfl, he, hs⟩).mono ?_
    rintro _ ⟨⟨t, sh⟩, rfl, ht⟩
    exact .inl (by simpa [isPaused, G01AutoTask.isPaused, G01AutoTask.State.halt] using ht)
  | g01Group t =>
    have hs : t.state = .pausing := (halting_g01Group.mp h).resolve_right fun hs =>
      hp (by simp [isPaused, G01GroupAutoTask.isPaused, hs])
    refine .next fun inp _ => .now (.inl ?_)
    simp [step, runOnce, G01GroupAutoTask.runOnce, hs, isPaused, G01GroupAutoTask.isPaused]
  | g04 t => exact absurd (h.resolve_left (by simp [isPausing])) hp
  | m00Fake t => exact absurd (h.resolve_left (by simp [isPausing])) hp
  | drill t => exact absurd (h.resolve_left (by simp [isPausing])) hp

/-- A task that is stopping is stopped in the end. -/
theorem ending_ends (hδ : 0 < δ) :
    LeadsTo step (CycleInput.Paced δ)
      (fun x : AutoTask K × MotionShared K => x.1.Endable ∧ x.1.Ending)
      (fun x => x.1.isStopped) := by
  rintro ⟨t, sh⟩ ⟨he, h⟩
  by_cases hp : t.isStopped
  · exact .now hp
  cases t with
  | g00 t =>
    have hs : t.pmHandler.state = .stopping := (ending_g00.mp h).resolve_right hp
    refine (g00_ends (.inr (.inr rfl)) (g00 t, sh) ⟨(t, sh), rfl, hs⟩).mono ?_
    rintro _ ⟨⟨t, sh⟩, rfl, ht⟩
    exact PointMoveHandler.isStopped_iff.mpr (.inl (ht.elim id id))
  | g01 t =>
    have hs : t.state = .stopping := (ending_g01.mp h).resolve_right fun hs =>
      hp (by simp [isStopped, G01AutoTask.isStopped, hs])
    refine (g01_halts hδ (.inr rfl) (g01 t, sh) ⟨(t, sh), rfl, he, hs⟩).mono ?_
    rintro _ ⟨⟨t, sh⟩, rfl, ht⟩
    simpa [isStopped, G01AutoTask.isStopped, G01AutoTask.State.halt] using ht
  | g01Group t =>
    have hs : t.state = .stopping := (ending_g01Group.mp h).resolve_right fun hs =>
      hp (by simp [isStopped, G01GroupAutoTask.isStopped, hs])
    refine .next fun inp _ => .now ?_
    simp [step, runOnce, G01GroupAutoTask.runOnce, hs, isStopped, G01GroupAutoTask.isStopped]
  | g04 t => exact absurd (h.resolve_left (by simp [isStopping])) hp
  | m00Fake t => exact absurd (h.resolve_left (by simp [isStopping])) hp
  | drill t => exact absurd (h.resolve_left (by simp [isStopping])) hp

end AutoTask

end Edm
