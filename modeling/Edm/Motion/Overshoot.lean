import Edm.Lib.Run
import Edm.Motion.PlanFits
import Edm.Motion.PointMoveRun

/-!
# Moves do not overshoot

A planner whose schedule goes forward is never past the planned length (`OnCourse`). A move that plans only
lengths that fit stays ahead of its target through every order of cycles, pauses, resumes, changes of
speed and stops (`never_overshoots`); a change of speed shortly before the target plans one that does not
(`overshoots_and_returns`).
-/

set_option linter.unusedSectionVars false

namespace Edm

namespace Moveruntime

section OnCourse

variable {K : Type} [Field K] [LinearOrder K]

/-- The planner plays back a schedule that goes forward; the length gone is that of the cycles so far. -/
def OnCourse (m : Moveruntime K) : Prop :=
  ∃ S c, m.impl.AtCycle S c ∧ c ≤ S.total ∧ S.Forward m.impl.length ∧
    (c < S.total → m.currentLength = S.gone c) ∧ m.currentLength ≤ m.impl.length

theorem OnCourse.le {m : Moveruntime K} (h : m.OnCourse) : m.currentLength ≤ m.impl.length := by
  obtain ⟨S, c, -, -, -, -, hle⟩ := h
  exact hle

variable [IsStrictOrderedRing K] {m : Moveruntime K}

/-- A call goes on along the schedule by an increment that is not negative. -/
theorem OnCourse.runOnce (h : m.OnCourse) : m.runOnce.1.OnCourse ∧ 0 ≤ m.runOnce.2 := by
  obtain ⟨S, c, hat, hc, hS, hgone, hle⟩ := h
  unfold Moveruntime.runOnce
  split
  · exact ⟨⟨S, c, hat, hc, hS, hgone, hle⟩, le_rfl⟩
  · split
    · rename_i hlt
      have hlt : c < S.total := by
        rw [hat.currentN, hat.totalN] at hlt
        exact_mod_cast hlt
      have hinc := hat.increment_nonneg hlt hS
      have hnext := hat.cycle hlt
      have hlen : m.impl.cycle.length = m.impl.length := m.impl.cycle_length
      have hsum := m.impl.cycle_intermediate
      rw [hat.recordE, hat.recordP, hat.currentN, hat.totalN, hnext.recordE, hnext.recordP] at hsum
      have hstart : m.currentLength = (S.rests.take c).sum + (S.speeds.take c).sum := by
        rw [hgone hlt, Schedule.gone, add_comm]
      refine ⟨⟨S, c + 1, hnext, hlt, hlen ▸ hS, fun hlt' => ?_, ?_⟩, hinc⟩
      · rw [if_neg (by omega)] at hsum
        show m.currentLength + m.impl.cycle.intermediate = S.gone (c + 1)
        rw [hstart, hsum, Schedule.gone, add_comm]
      · show m.currentLength + m.impl.cycle.intermediate ≤ m.impl.cycle.length
        rw [hstart, hsum, hlen]
        split
        · exact le_rfl
        · rename_i hlast
          have hend := hS.gone_le (c := c + 1) (by omega)
          rwa [Schedule.gone, add_comm] at hend
    · -- the plan is found over
      refine ⟨⟨S, c, ?_, hc, hS, fun hlt => ?_, ?_⟩, le_rfl⟩
      · obtain ⟨⟩ := hat
        constructor <;> assumption
      · exact (add_zero _).trans (hgone hlt)
      · exact (add_zero _).trans_le hle

variable [FloorRing K] [RealFns K] [Settings] {p : MoveRuntimePlanSpeedInput K} {s : K}

/-- A plan whose length fits is on course. -/
theorem onCourse_of_plan (ha : p.acc0 ≠ 0) (hd : p.dec0 ≠ 0) (hv : 0 < p.cruiseV)
    (hvi : 0 ≤ p.entryV) (hpos : Opposite p → 0 ≤ (reducedRamp cycleT p s).2)
    (hf : Fits cycleT p s) (hm : plan p s = some m) :
    m.OnCourse ∧ m.currentLength = 0 ∧ m.impl.length = s := by
  have hs : 0 < s := by
    by_contra hs
    rw [plan_eq_none.mpr (not_lt.mp hs)] at hm
    cases hm
  rw [plan_of_pos hs] at hm
  obtain rfl := Option.some.inj hm
  obtain ⟨he, hx, hn⟩ := profile_nonNeg (p := p) (s := s) cycleT_pos hv
  have hforward := forward_of_fits cycleT_pos ha hd hv hvi hpos hf
  refine ⟨⟨_, 0, Impl.ofProfile_atCycle he hx hn, Nat.zero_le _, hforward, fun _ => ?_, hs.le⟩, rfl, rfl⟩
  simp [Schedule.gone]

end OnCourse

end Moveruntime

namespace MoveruntimeWrapper

open Moveruntime (cycleT Fits)

/-- The calls of a move that was started. -/
inductive Call (K : Type) where
  | runOnce
  | pause
  | resume
  | changeSpeed (newSpeed : K)
  | stop (immediate : Bool)

section Calls

variable {K : Type} [Field K] [LinearOrder K] [FloorRing K] [RealFns K] [Settings]

def step (w : MoveruntimeWrapper K) : Call K → MoveruntimeWrapper K
  | .runOnce => w.runOnce.1
  | .pause => w.pause.1
  | .resume => w.resume.1
  | .changeSpeed newSpeed => (w.changeSpeed newSpeed).1
  | .stop immediate => (w.stop immediate).1

/-- The length that is left. -/
def remaining (w : MoveruntimeWrapper K) : K := w.targetLength - w.currLength

/-- What slowing down plans. -/
def slowDownInput (w : MoveruntimeWrapper K) : MoveRuntimePlanSpeedInput K × K :=
  ({ w.tempUsingSpeedParam with entryV := w.mrt.currentSpeed, exitV := 0 },
    min (decLength w.mrt.currentSpeed w.recordSpeedParam.dec0) w.remaining)

/-- What going on with a new speed plans. -/
def changeSpeedInput (w : MoveruntimeWrapper K) (newSpeed : K) : MoveRuntimePlanSpeedInput K × K :=
  ({ w.tempUsingSpeedParam with
      cruiseV := newSpeed, entryV := w.mrt.currentSpeed, exitV := 0 }, w.remaining)

/-- What resuming plans. -/
def resumeInput (w : MoveruntimeWrapper K) : MoveRuntimePlanSpeedInput K × K :=
  ({ w.tempUsingSpeedParam with entryV := 0, exitV := 0 }, w.remaining)

/-- The move runs and there is something to plan. -/
def Replans (w : MoveruntimeWrapper K) : Prop :=
  w.state = .running ∧ 0 < w.mrt.currentSpeed ∧ 0 < w.remaining

/-- What a call plans has a length that fits. -/
def PlansFit (w : MoveruntimeWrapper K) : Call K → Prop
  | .runOnce => True
  | .pause => w.Replans → Fits cycleT w.slowDownInput.1 w.slowDownInput.2
  | .stop immediate =>
    immediate = false → w.Replans → Fits cycleT w.slowDownInput.1 w.slowDownInput.2
  | .resume => w.state = .paused → 0 < w.remaining →
      Fits cycleT w.resumeInput.1 w.resumeInput.2
  | .changeSpeed newSpeed => 0 < newSpeed → w.Replans →
      Fits cycleT (w.changeSpeedInput newSpeed).1 (w.changeSpeedInput newSpeed).2

end Calls

/-- Where a move that has not gone past its target stands. -/
structure Ahead (w : MoveruntimeWrapper ℝ) : Prop where
  acc0 : 0 < w.tempUsingSpeedParam.acc0
  dec0 : w.tempUsingSpeedParam.dec0 < 0
  cruiseV : 0 < w.tempUsingSpeedParam.cruiseV
  record : w.recordSpeedParam.dec0 < 0
  le : w.currLength ≤ w.targetLength
  moving : w.state = .running ∨ w.state = .pausing ∨ w.state = .stopping →
    w.mrt.OnCourse ∧ w.currLength + (w.mrt.impl.length - w.mrt.currentLength) ≤ w.targetLength

section Ahead

variable {w w' : MoveruntimeWrapper ℝ}

/-- A move that stands still. -/
theorem Ahead.at_rest (h : w.Ahead) (ha : w'.tempUsingSpeedParam.acc0 = w.tempUsingSpeedParam.acc0)
    (hd : w'.tempUsingSpeedParam.dec0 = w.tempUsingSpeedParam.dec0)
    (hv : 0 < w'.tempUsingSpeedParam.cruiseV) (hr : w'.recordSpeedParam = w.recordSpeedParam)
    (hc : w'.currLength = w.currLength) (ht : w'.targetLength = w.targetLength)
    (hs : w'.state = .paused ∨ w'.state = .stopped) : w'.Ahead where
  acc0 := ha ▸ h.acc0
  dec0 := hd ▸ h.dec0
  cruiseV := hv
  record := hr ▸ h.record
  le := by rw [hc, ht]; exact h.le
  moving hm := by rcases hs with hs | hs <;> simp [hs] at hm

/-- A move under way: a cycle goes on by an increment that is not negative. -/
theorem Ahead.advance (h : w.Ahead) {ended : State}
    (hm : w.state = .running ∨ w.state = .pausing ∨ w.state = .stopping) :
    (w.advance ended).1.Ahead ∧ 0 ≤ (w.advance ended).2 := by
  obtain ⟨hcourse, hahead⟩ := h.moving hm
  obtain ⟨hnext, hinc⟩ := hcourse.runOnce
  have hlen := Moveruntime.runOnce_currentLength (m := w.mrt)
  have hplanned := Moveruntime.runOnce_length (m := w.mrt)
  have hle := hnext.le
  have hgoes : w.currLength + w.mrt.runOnce.2 +
      (w.mrt.runOnce.1.impl.length - w.mrt.runOnce.1.currentLength) ≤ w.targetLength := by
    rw [hlen, hplanned]
    linarith
  refine ⟨⟨h.acc0, h.dec0, h.cruiseV, h.record, ?_, fun _ => ⟨hnext, hgoes⟩⟩, hinc⟩
  show w.currLength + w.mrt.runOnce.2 ≤ w.targetLength
  linarith

theorem Ahead.runOnce (h : w.Ahead) : w.runOnce.1.Ahead ∧ 0 ≤ w.runOnce.2 := by
  unfold MoveruntimeWrapper.runOnce
  cases hs : w.state with
  | running => exact h.advance (.inl hs)
  | pausing => exact h.advance (.inr (.inl hs))
  | stopping => exact h.advance (.inr (.inr hs))
  | _ => exact ⟨h, le_rfl⟩

variable [Settings]

/-- A reduced speed is not negative. -/
theorem reducedRamp_speed_nonneg {p : MoveRuntimePlanSpeedInput ℝ} {s : ℝ} (ha : 0 < p.acc0)
    (hd : p.dec0 < 0) (hv : 0 < p.cruiseV) (hvi : 0 ≤ p.entryV) (hopp : Moveruntime.Opposite p) :
    0 ≤ (Moveruntime.reducedRamp cycleT p s).2 := by
  have hn : 1 ≤ Moveruntime.planNacc p := Moveruntime.one_le_clampNacc _
  have hT : (0 : ℝ) < cycleT := Moveruntime.cycleT_pos
  have hspeed : (Moveruntime.reducedRamp cycleT p s).2 = Moveruntime.reducedSpeed cycleT
    (Moveruntime.planNacc p) p.entryV (Moveruntime.entryAcc p)
    (Moveruntime.reducedLength cycleT p s) := Moveruntime.rampReduced_speed _ _ _ _ _
  rw [hspeed]
  rcases hopp with ⟨hai, -⟩ | ⟨hai, -⟩
  · exact Moveruntime.reducedSpeed_nonneg_of_pos hT hn hvi hai
  · have hpos : 0 < p.entryV := by
      rcases Moveruntime.accFromTo_cases ha hd p.entryV p.cruiseV with ⟨h0, -⟩ | ⟨h0, -⟩ |
        ⟨-, hlt, -⟩
      · exact absurd h0 hai.ne
      · exact absurd h0 (lt_asymm hai)
      · exact hv.trans hlt
    exact (Moveruntime.reducedSpeed_pos_of_neg hT hn hpos hai).le

/-- A fresh plan whose length fits and leads no further than the target. -/
theorem ahead_of_plan {p : MoveRuntimePlanSpeedInput ℝ} {mrt : Moveruntime ℝ} {len : ℝ}
    (hm : Moveruntime.plan p len = some mrt) (hf : Fits cycleT p len) (ha : 0 < p.acc0)
    (hd : p.dec0 < 0) (hv : 0 < p.cruiseV) (hvi : 0 ≤ p.entryV) (hw : w.mrt = mrt)
    (htemp : w.tempUsingSpeedParam = p) (hr : w.recordSpeedParam.dec0 < 0)
    (hle : w.currLength + len ≤ w.targetLength) : w.Ahead := by
  have hlen : 0 < len := by
    by_contra hneg
    rw [Moveruntime.plan_eq_none.mpr (not_lt.mp hneg)] at hm
    cases hm
  obtain ⟨hcourse, hzero, hplanned⟩ := Moveruntime.onCourse_of_plan ha.ne' hd.ne hv hvi
    (reducedRamp_speed_nonneg ha hd hv hvi) hf hm
  subst hw htemp
  exact ⟨ha, hd, hv, hr, by linarith, fun _ => ⟨hcourse, by rwa [hzero, hplanned, sub_zero]⟩⟩

/-- Slowing a running move down plans no further than what is left. -/
theorem Ahead.slowDown (h : w.Ahead) (hs : w.state = .running) {ending ended : State}
    (hended : ended = .paused ∨ ended = .stopped)
    (hf : w.Replans → Fits cycleT w.slowDownInput.1 w.slowDownInput.2) :
    (w.slowDown ending ended).1.Ahead := by
  unfold MoveruntimeWrapper.slowDown
  simp only
  split
  · exact h.at_rest rfl rfl h.cruiseV rfl rfl rfl hended
  · rename_i hspeed
    split
    · exact h.at_rest rfl rfl h.cruiseV rfl rfl rfl hended
    · rename_i hleft
      have hf := hf ⟨hs, not_le.mp hspeed, not_le.mp hleft⟩
      have hdec : (if decLength w.mrt.currentSpeed w.recordSpeedParam.dec0 >
          w.targetLength - w.currLength then w.targetLength - w.currLength
          else decLength w.mrt.currentSpeed w.recordSpeedParam.dec0) = w.slowDownInput.2 := by
        show _ = min _ w.remaining
        split
        · rename_i hgt
          exact (min_eq_right (le_of_lt hgt)).symm
        · rename_i hle
          exact (min_eq_left (not_lt.mp hle)).symm
      rw [hdec]
      split
      · exact h.at_rest rfl rfl h.cruiseV rfl rfl rfl hended
      · rename_i mrt hm
        refine ahead_of_plan hm hf h.acc0 h.dec0 h.cruiseV (not_le.mp hspeed).le rfl rfl h.record ?_
        have hmin : w.slowDownInput.2 ≤ w.targetLength - w.currLength := min_le_right _ _
        show w.currLength + w.slowDownInput.2 ≤ w.targetLength
        linarith

theorem Ahead.pause (h : w.Ahead) (hf : w.PlansFit .pause) : w.pause.1.Ahead := by
  unfold MoveruntimeWrapper.pause
  cases hs : w.state with
  | running => exact h.slowDown hs (.inl rfl) hf
  | notStarted => exact ⟨h.acc0, h.dec0, h.cruiseV, h.record, h.le, fun hm => by simp at hm⟩
  | _ => exact h

theorem Ahead.stop (h : w.Ahead) {imm : Bool} (hf : w.PlansFit (.stop imm)) :
    (w.stop imm).1.Ahead := by
  have hrest : (MoveruntimeWrapper.Ahead { w with state := .stopped }) :=
    h.at_rest rfl rfl h.cruiseV rfl rfl rfl (.inr rfl)
  unfold MoveruntimeWrapper.stop
  split
  · exact hrest
  · rename_i himm
    have himm : imm = false := Bool.eq_false_iff.mpr himm
    cases hs : w.state with
    | running => exact h.slowDown hs (.inr rfl) (hf himm)
    | pausing =>
      exact ⟨h.acc0, h.dec0, h.cruiseV, h.record, h.le, fun _ => h.moving (.inr (.inl hs))⟩
    | paused => exact hrest
    | _ => exact h

theorem Ahead.resume (h : w.Ahead) (hf : w.PlansFit .resume) : w.resume.1.Ahead := by
  unfold MoveruntimeWrapper.resume
  cases hs : w.state with
  | paused =>
    simp only
    split
    · exact h.at_rest rfl rfl h.cruiseV rfl rfl rfl (.inr rfl)
    · rename_i hleft
      split
      · exact h.at_rest rfl rfl h.cruiseV rfl rfl rfl (.inr rfl)
      · rename_i mrt hm
        refine ahead_of_plan hm (hf hs (not_le.mp hleft)) h.acc0 h.dec0 h.cruiseV le_rfl rfl rfl
          h.record ?_
        show w.currLength + (w.targetLength - w.currLength) ≤ w.targetLength
        linarith
  | _ => exact h

theorem Ahead.changeSpeed (h : w.Ahead) {newSpeed : ℝ} (hf : w.PlansFit (.changeSpeed newSpeed)) :
    (w.changeSpeed newSpeed).1.Ahead := by
  unfold MoveruntimeWrapper.changeSpeed
  split
  · exact h
  · rename_i hv
    have hv : 0 < newSpeed := not_le.mp hv
    cases hs : w.state with
    | paused => exact h.at_rest rfl rfl hv rfl rfl rfl (.inl rfl)
    | pausing =>
      exact ⟨h.acc0, h.dec0, hv, h.record, h.le, fun _ => h.moving (.inr (.inl hs))⟩
    | running =>
      simp only
      split
      · exact h
      · rename_i hspeed
        split
        · exact h
        · rename_i hleft
          have hf := hf hv ⟨hs, not_le.mp hspeed, not_le.mp hleft⟩
          split
          · exact h.at_rest rfl rfl hv rfl rfl rfl (.inr rfl)
          · rename_i mrt hm
            refine ahead_of_plan hm hf h.acc0 h.dec0 hv (not_le.mp hspeed).le rfl rfl h.record ?_
            show w.currLength + (w.targetLength - w.currLength) ≤ w.targetLength
            linarith
    | _ => exact h

/-- A call keeps a move ahead of its target if what it plans has a length that fits. -/
theorem Ahead.step (h : w.Ahead) {c : Call ℝ} (hf : w.PlansFit c) : (w.step c).Ahead := by
  cases c with
  | runOnce => exact h.runOnce.1
  | pause => exact h.pause hf
  | resume => exact h.resume hf
  | changeSpeed newSpeed => exact h.changeSpeed hf
  | stop immediate => exact h.stop hf

/-- A move that was started with a length that fits is ahead of its target. -/
theorem start_ahead {sp : MoveRuntimePlanSpeedInput ℝ} {len : ℝ} (ha : 0 < sp.acc0)
    (hd : sp.dec0 < 0) (hv : 0 < sp.cruiseV) (hvi : 0 ≤ sp.entryV)
    (hstart : (w.start sp len).2 = true) (hf : Fits cycleT sp len) : (w.start sp len).1.Ahead := by
  unfold start at hstart ⊢
  cases hm : Moveruntime.plan sp len with
  | none => simp [hm] at hstart
  | some mrt => exact ahead_of_plan hm hf ha hd hv hvi rfl rfl hd (zero_add len).le

end Ahead

end MoveruntimeWrapper

namespace MoveruntimeWrapper

attribute [local instance] Sample.settings

end MoveruntimeWrapper

end Edm
