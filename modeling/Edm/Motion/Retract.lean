import Edm.Motion.Discharge
import Edm.Motion.PointMoveLine

/-!
# The jumps of a discharge move

A `G01` task moves on the line from its start to its target, and jumps back along it: up to a height
and down again to a buffer before where it was. The position is held by the trajectory and by the
point move of the jump in turn. Every command is on the line, not past its end, and a jump does not
go back further than the height left above the start, if what the jump is planned with fits
(`keeps_course`). The planner goes past the end of a way it has no plan for, and the command with it
(`jump_retracts_too_far`).
-/

set_option linter.unusedSectionVars false

namespace Edm

namespace JumpParam

variable [Settings]

/-- What a jump must be given: a buffer that is not negative, a speed the planner accepts, a way up
and a way down whose lengths fit. -/
structure Fits (jp : JumpParam ℝ) : Prop where
  buffer : 0 ≤ jp.bufferBlu
  speed : jp.speedParam.Accepted
  up : Moveruntime.Fits Moveruntime.cycleT jp.speedParam jp.upBlu
  down : Moveruntime.Fits Moveruntime.cycleT jp.speedParam (jp.upBlu - jp.bufferBlu)

/-- The height and the buffer cut to what the line allows. -/
def cut {K : Type} [Field K] [LinearOrder K] (jp : JumpParam K) (currLength height : K) :
    JumpParam K :=
  { jp with
    upBlu := min jp.upBlu (currLength + height - UnitConverter.um2blu 100)
    bufferBlu := min jp.bufferBlu currLength }

end JumpParam

namespace G01AutoTask

open MotionUtils

variable [Settings]

/-- Where a jump comes down to. -/
def jumpDownTargetPos {K : Type} [Field K] (t : G01AutoTask K) : Axis K := fun i =>
  t.jumpUpTargetPos i + t.lineTraj.unitVector i * (t.jumpingParam.upBlu - t.jumpingParam.bufferBlu)

/-- A jump from where the line stands, within its room. -/
structure Jump (t : G01AutoTask ℝ) : Prop where
  before : t.servoingLengthBeforeJump = t.lineTraj.currLength
  buffer_le : t.jumpingParam.bufferBlu ≤ t.lineTraj.currLength
  down : t.jumpingParam.bufferBlu ≤ t.jumpingParam.upBlu - UnitConverter.um2blu 10
  up_le : t.jumpingParam.upBlu ≤
    t.lineTraj.currLength + t.maxJumpHeightFromBegin - UnitConverter.um2blu 100
  fits : t.jumpingParam.Fits
  upTarget : t.jumpUpTargetPos = fun i =>
    t.lineTraj.currPos i - t.lineTraj.unitVector i * t.jumpingParam.upBlu

/-- What the task moves by, by its sub-state, and where that stands. -/
def Stands (t : G01AutoTask ℝ) (g : Axis ℝ) : Prop :=
  match t.servoSubState with
  | .servoing => t.lineTraj.currPos = g
  | .jumpDowningBuffer =>
    t.lineTraj.currPos = g ∧ t.lineTraj.currLength ≤ t.servoingLengthBeforeJump
  | .jumpUping =>
    t.Jump ∧ t.jumpPmHandler.currPos = g ∧
      t.jumpPmHandler.Runs t.lineTraj.currPos t.jumpUpTargetPos
  | .jumpDowning =>
    t.Jump ∧ t.jumpPmHandler.currPos = g ∧
      t.jumpPmHandler.Runs t.jumpUpTargetPos t.jumpDownTargetPos

/-- The task is at rest or on the last way there. -/
def Halts (t : G01AutoTask ℝ) : Prop :=
  t.state = .paused ∨ t.state = .resuming ∨
    (t.state = .pausing ∨ t.state = .stopping) ∧ t.pauseOrStopSubState = .backingToBegin

/-- The task is on its line from `a` to `b`. -/
structure OnTrack (a b : Axis ℝ) (height : ℝ) (t : G01AutoTask ℝ) (g : Axis ℝ) : Prop where
  line : t.lineTraj.OnLine
  startPos : t.lineTraj.startPos = a
  endPos : t.lineTraj.endPos = b
  height : t.maxJumpHeightFromBegin = height
  halts : t.Halts → t.servoSubState = .servoing
  stands : t.Stands g

variable {t : G01AutoTask ℝ} {sh : MotionShared ℝ} {inp : CycleInput ℝ} {a b g : Axis ℝ}
  {height : ℝ}

/-- The parameters of a jump from where the line stands, cut to what it allows. -/
def cutJump {K : Type} [Field K] [LinearOrder K] (t : G01AutoTask K) : JumpParam K :=
  t.jumpingParam.cut t.lineTraj.currLength t.maxJumpHeightFromBegin

/-- A jump is let through with its parameters cut, if they leave it its least height and way
down. -/
theorem checkAndValidateJumpHeight_eq (t : G01AutoTask ℝ) :
    t.checkAndValidateJumpHeight =
      if t.cutJump.upBlu < UnitConverter.um2blu 10 then
        ({ t with jumpingParam := { t.jumpingParam with upBlu := t.cutJump.upBlu } }, false)
      else ({ t with jumpingParam := t.cutJump },
        decide (t.cutJump.bufferBlu ≤ t.cutJump.upBlu - UnitConverter.um2blu 10)) := by
  unfold checkAndValidateJumpHeight
  extract_lets limit jp jp₁ jp₂
  have hjp₁ : jp₁ = { t.jumpingParam with upBlu := t.cutJump.upBlu } := by
    simp only [jp₁]
    split
    · rename_i hgt
      rw [cutJump, JumpParam.cut, min_eq_right (le_of_lt hgt)]
    · rename_i hle
      rw [cutJump, JumpParam.cut, min_eq_left (not_lt.mp hle)]
  have hjp₂ : jp₂ = t.cutJump := by
    simp only [jp₂, hjp₁]
    split
    · rename_i hgt
      rw [cutJump, JumpParam.cut, min_eq_right (le_of_lt hgt)]
    · rename_i hle
      rw [cutJump, JumpParam.cut, min_eq_left (not_lt.mp hle)]
  rw [hjp₂, hjp₁]
  congr 1
  split
  · rename_i hbuffer
    rw [decide_eq_false (not_le.mpr hbuffer)]
  · rename_i hbuffer
    rw [decide_eq_true (not_lt.mp hbuffer)]

/-- A jump that is let through goes up along the line. -/
theorem planJumpUp_eq (hup : UnitConverter.um2blu 10 ≤ t.cutJump.upBlu)
    (hbuffer : t.cutJump.bufferBlu ≤ t.cutJump.upBlu - UnitConverter.um2blu 10) :
    let target : Axis ℝ := fun i =>
      t.lineTraj.currPos i - t.lineTraj.unitVector i * t.cutJump.upBlu
    let pm := t.jumpPmHandler.start t.cutJump.speedParam t.lineTraj.currPos target
    t.planJumpUp = ({ t with
      servoingLengthBeforeJump := t.lineTraj.currLength
      jumpingParam := t.cutJump
      jumpUpTargetPos := target
      jumpPmHandler := pm.1 }, pm.2) := by
  intro target pm
  have hcheck := checkAndValidateJumpHeight_eq
    { t with servoingLengthBeforeJump := t.lineTraj.currLength }
  have hcut : cutJump { t with servoingLengthBeforeJump := t.lineTraj.currLength } = t.cutJump :=
    rfl
  rw [hcut, if_neg (not_lt.mpr hup), decide_eq_true hbuffer] at hcheck
  simp only [planJumpUp, hcheck, Bool.not_true, Bool.false_eq_true, if_false]
  rfl

/-- What the search for a jump leaves alone. -/
structure SamePlace (t t' : G01AutoTask ℝ) : Prop where
  line : t'.lineTraj = t.lineTraj
  height : t'.maxJumpHeightFromBegin = t.maxJumpHeightFromBegin

theorem checkAndValidateJumpHeight_samePlace (t : G01AutoTask ℝ) :
    t.SamePlace t.checkAndValidateJumpHeight.1 ∧
      t.checkAndValidateJumpHeight.1.servoSubState = t.servoSubState := by
  simp only [checkAndValidateJumpHeight]
  repeat' split
  all_goals exact ⟨⟨rfl, rfl⟩, rfl⟩

/-- A line that has a way back has a direction. -/
theorem axisLength_unitVector_of_start {l : TrajectoryLinearSegement ℝ} (hline : l.OnLine)
    {p : Axis ℝ} {d : ℝ} (h : 0 < axisLengthBetween p fun i => p i - l.unitVector i * d) :
    axisLength l.unitVector = 1 := by
  rw [hline.unitVector]
  refine axisLength_unitVector fun heq => ?_
  have hzero (i : Fin 6) : l.unitVector i = 0 := by
    rw [hline.unitVector, heq]
    simp [axisUnitVector, scaleAxis, axisVector]
  refine ne_of_axisLengthBetween_pos h (funext fun i => ?_)
  rw [hzero, zero_mul, sub_zero]

/-- A planned jump starts where the line stands and keeps within its room. -/
theorem planJumpUp_spec (hline : t.lineTraj.OnLine) :
    t.SamePlace t.planJumpUp.1 ∧ t.planJumpUp.1.servoSubState = t.servoSubState ∧
      (t.planJumpUp.2 = true → t.cutJump.Fits →
        t.planJumpUp.1.Jump ∧ t.planJumpUp.1.jumpPmHandler.currPos = t.lineTraj.currPos ∧
          t.planJumpUp.1.jumpPmHandler.Runs t.lineTraj.currPos t.planJumpUp.1.jumpUpTargetPos) := by
  by_cases hok : UnitConverter.um2blu 10 ≤ t.cutJump.upBlu ∧
      t.cutJump.bufferBlu ≤ t.cutJump.upBlu - UnitConverter.um2blu 10
  · obtain ⟨hup, hbuffer⟩ := hok
    rw [planJumpUp_eq hup hbuffer]
    refine ⟨⟨rfl, rfl⟩, rfl, fun hret hfits => ?_⟩
    have hten : (0 : ℝ) < UnitConverter.um2blu 10 := by
      norm_num [UnitConverter.um2blu, UnitConverter.um2blu_]
    have hpos : 0 < t.cutJump.upBlu := hten.trans_le hup
    rcases t.jumpPmHandler.start_cases t.cutJump.speedParam t.lineTraj.currPos
      (fun i => t.lineTraj.currPos i - t.lineTraj.unitVector i * t.cutJump.upBlu) with
      ⟨-, -, hlen⟩ | ⟨hno, -, -⟩
    · have hunit := axisLength_unitVector_of_start hline hlen
      have hlength : axisLengthBetween t.lineTraj.currPos
          (fun i => t.lineTraj.currPos i - t.lineTraj.unitVector i * t.cutJump.upBlu) =
          t.cutJump.upBlu := by
        have h := axisLengthBetween_along (p := t.lineTraj.currPos) (d := -t.cutJump.upBlu) hunit
        simpa only [mul_neg, ← sub_eq_add_neg, abs_neg, abs_of_pos hpos] using h
      refine ⟨⟨rfl, min_le_right _ _, hbuffer, min_le_right _ _, hfits, rfl⟩, rfl, ?_⟩
      refine PointMoveHandler.start_runs hfits.speed ?_ hret
      rw [hlength]
      exact hfits.up
    · exact absurd (hno.symm.trans hret) (by simp)
  · have hfalse : t.planJumpUp = ((checkAndValidateJumpHeight
        { t with servoingLengthBeforeJump := t.lineTraj.currLength }).1, false) := by
      have hcheck := checkAndValidateJumpHeight_eq
        { t with servoingLengthBeforeJump := t.lineTraj.currLength }
      have hret : (checkAndValidateJumpHeight
          { t with servoingLengthBeforeJump := t.lineTraj.currLength }).2 = false := by
        rw [hcheck]
        split
        · rfl
        · rename_i hup
          exact decide_eq_false fun hbuffer => hok ⟨not_lt.mp hup, hbuffer⟩
      unfold planJumpUp
      simp only [hret, Bool.not_false, if_true]
    obtain ⟨hsame, hsub⟩ := checkAndValidateJumpHeight_samePlace
      { t with servoingLengthBeforeJump := t.lineTraj.currLength }
    rw [hfalse]
    exact ⟨⟨hsame.line, hsame.height⟩, hsub, fun h => absurd h (by simp)⟩

theorem servoingCheckAndPlanJump_spec (hline : t.lineTraj.OnLine) (sh : MotionShared ℝ)
    (inp : CycleInput ℝ) :
    let res := t.servoingCheckAndPlanJump sh inp
    t.SamePlace res.1 ∧ res.2.1.globalCmdAxis = sh.globalCmdAxis ∧
      (res.2.2 = false → res.1.servoSubState = t.servoSubState) ∧
      (res.2.2 = true →
        (sh.jumpParam.cut t.lineTraj.currLength t.maxJumpHeightFromBegin).Fits →
        res.1.Stands t.lineTraj.currPos) := by
  obtain ⟨hsame, hsub, hplanned⟩ := planJumpUp_spec
    (t := { t with jumpingParam := sh.jumpParam, lastJumpEndTimeMs := inp.nowMs }) hline
  simp only [G01AutoTask.servoingCheckAndPlanJump]
  split
  · exact ⟨⟨rfl, rfl⟩, rfl, fun _ => rfl, fun h => absurd h (by simp)⟩
  split
  · exact ⟨⟨rfl, rfl⟩, rfl, fun _ => rfl, fun h => absurd h (by simp)⟩
  split
  · exact ⟨⟨rfl, rfl⟩, rfl, fun _ => rfl, fun h => absurd h (by simp)⟩
  split
  · exact ⟨⟨rfl, rfl⟩, rfl, fun _ => rfl, fun h => absurd h (by simp)⟩
  split
  · exact ⟨⟨hsame.line, hsame.height⟩, rfl, fun _ => hsub, fun h => absurd h (by simp)⟩
  · rename_i hno
    refine ⟨⟨hsame.line, hsame.height⟩, rfl, fun h => absurd h (by simp), fun _ hfits => ?_⟩
    obtain ⟨hjump, hpos, hruns⟩ := hplanned (by simpa using hno) hfits
    refine ⟨⟨hjump.before, hjump.buffer_le, hjump.down, hjump.up_le,
      hjump.fits, hjump.upTarget⟩, hpos, ?_⟩
    show PointMoveHandler.Runs _ (planJumpUp _).1.lineTraj.currPos _
    rw [hsame.line]
    exact hruns

/-- A jump is planned when it is due, high enough, and too little of the way was forward. -/
theorem servoingCheckAndPlanJump_of_planned (t : G01AutoTask ℝ) (sh : MotionShared ℝ)
    (inp : CycleInput ℝ) (hpower : Settings.powerZhongguDrill = false)
    (hdue : sh.jumpParam.dnMs < inp.nowMs - t.lastJumpEndTimeMs)
    (hup : UnitConverter.um2blu 10 ≤ sh.jumpParam.upBlu)
    (hrate : t.scServoGo.validRate < (scServoGoValidRateThreshold1 : ℝ))
    (hok : (planJumpUp { t with
      jumpingParam := sh.jumpParam, lastJumpEndTimeMs := inp.nowMs }).2 = true) :
    t.servoingCheckAndPlanJump sh inp =
      ({ (planJumpUp { t with
            jumpingParam := sh.jumpParam, lastJumpEndTimeMs := inp.nowMs }).1 with
          servoSubState := .jumpUping, lastSendEnableVotalgeGateTimeNs := inp.hrNowNs },
        sh.cbEnableVoltageGate false, true) := by
  simp only [servoingCheckAndPlanJump, hpower, Bool.false_eq_true, if_false, not_le.mpr hdue,
    not_lt.mpr hup, ge_iff_le, not_le.mpr hrate, hok, Bool.not_true]

/-- The main state and the way to a halt decide whether the task halts. -/
theorem Halts.congr {t' : G01AutoTask ℝ} (hst : t'.state = t.state)
    (hsub : t'.pauseOrStopSubState = t.pauseOrStopSubState) : t'.Halts ↔ t.Halts := by
  unfold Halts
  rw [hst, hsub]

theorem not_halts_of_running (hn : t.state = .normalRunning) : ¬t.Halts := by
  simp [Halts, hn]

/-- While it servoes the task is where its line is. -/
theorem onTrack_servoing (hline : t.lineTraj.OnLine) (ha : t.lineTraj.startPos = a)
    (hb : t.lineTraj.endPos = b) (hheight : t.maxJumpHeightFromBegin = height)
    (hs : t.servoSubState = .servoing) (hpos : t.lineTraj.currPos = g) :
    t.OnTrack a b height g := by
  refine ⟨hline, ha, hb, hheight, fun _ => hs, ?_⟩
  simpa only [Stands, hs] using hpos

theorem OnTrack.currPos (h : t.OnTrack a b height g) (hs : t.servoSubState = .servoing) :
    t.lineTraj.currPos = g := by
  have hstands := h.stands
  simpa only [Stands, hs] using hstands

/-- With other clocks and main states a servoing task is still on its track. -/
theorem OnTrack.of_servoing (h : t.OnTrack a b height g) (hs : t.servoSubState = .servoing)
    {t' : G01AutoTask ℝ} (hsame : t.SamePlace t') (hs' : t'.servoSubState = .servoing) :
    t'.OnTrack a b height g :=
  onTrack_servoing (hsame.line ▸ h.line) (hsame.line ▸ h.startPos) (hsame.line ▸ h.endPos)
    (hsame.height.trans h.height) hs' (hsame.line ▸ h.currPos hs)

/-- A step along the line. -/
theorem OnTrack.servoingDoServothings (h : t.OnTrack a b height g)
    (hs : t.servoSubState = .servoing) (sh : MotionShared ℝ) (inp : CycleInput ℝ) :
    let res := t.servoingDoServothings sh inp
    res.1.OnTrack a b height res.2.1.globalCmdAxis ∧ res.1.servoSubState = .servoing := by
  simp only [G01AutoTask.servoingDoServothings]
  split
  · exact ⟨onTrack_servoing (h.line.runOnce _) h.startPos h.endPos h.height hs rfl, hs⟩
  · exact ⟨onTrack_servoing h.line h.startPos h.endPos h.height hs rfl, hs⟩

/-- A jump under way is not at a halt. -/
theorem OnTrack.not_halts (h : t.OnTrack a b height g) (hs : t.servoSubState ≠ .servoing) :
    ¬t.Halts := fun hh => hs (h.halts hh)

/-- Servoing plans a jump, or steps along the line. -/
theorem OnTrack.servoSubstateServoing (h : t.OnTrack a b height sh.globalCmdAxis)
    (hs : t.servoSubState = .servoing) (hn : t.state = .normalRunning)
    (hfits : (t.servoingCheckAndPlanJump sh inp).2.2 = true →
      (sh.jumpParam.cut t.lineTraj.currLength height).Fits) :
    (t.servoSubstateServoing sh inp).1.OnTrack a b height
      (t.servoSubstateServoing sh inp).2.globalCmdAxis := by
  obtain ⟨hsame, hg, hno, hyes⟩ := servoingCheckAndPlanJump_spec h.line sh inp
  have hst := (t.servoingCheckAndPlanJump_servoStep sh inp).2
  simp only [G01AutoTask.servoSubstateServoing]
  split
  · rename_i hplan
    refine ⟨hsame.line ▸ h.line, hsame.line ▸ h.startPos, hsame.line ▸ h.endPos,
      hsame.height.trans h.height, fun hh => absurd hh (not_halts_of_running (hst.trans hn)), ?_⟩
    show Stands _ (t.servoingCheckAndPlanJump sh inp).2.1.globalCmdAxis
    rw [hg, ← h.currPos hs]
    exact hyes hplan (h.height ▸ hfits hplan)
  · rename_i hplan
    have hs' := (hno (by simpa using hplan)).trans hs
    obtain ⟨hat, hs''⟩ := (h.of_servoing hs hsame hs').servoingDoServothings hs'
      (t.servoingCheckAndPlanJump sh inp).2.1 inp
    split
    · exact hat.of_servoing hs'' ⟨rfl, rfl⟩ hs''
    · exact hat

/-- Up: the next cycle of the move, or the way down from its end. -/
theorem OnTrack.servoSubstateJumpuping (h : t.OnTrack a b height sh.globalCmdAxis)
    (hs : t.servoSubState = .jumpUping) :
    (t.servoSubstateJumpuping sh inp).1.OnTrack a b height
      (t.servoSubstateJumpuping sh inp).2.globalCmdAxis := by
  obtain ⟨hjump, hpos, hruns⟩ : t.Jump ∧ t.jumpPmHandler.currPos = sh.globalCmdAxis ∧
      t.jumpPmHandler.Runs t.lineTraj.currPos t.jumpUpTargetPos := by
    have hstands := h.stands
    simpa only [Stands, hs] using hstands
  have hnot := h.not_halts (by simp [hs])
  obtain ⟨now, hsend, hg⟩ := multiSend_eq { t with jumpPmHandler := t.jumpPmHandler.runOnce }
    (sh.setGlobalCmdAxis t.jumpPmHandler.runOnce.currPos) inp false
  simp only [G01AutoTask.servoSubstateJumpuping, hsend]
  rcases hruns.runOnce with ⟨hover, hruns'⟩ | ⟨hover, hend⟩
  · rw [hover, if_neg (by simp), hg]
    refine ⟨h.line, h.startPos, h.endPos, h.height, fun hh => absurd hh hnot, ?_⟩
    simp only [Stands, hs]
    exact ⟨⟨hjump.before, hjump.buffer_le, hjump.down, hjump.up_le,
      hjump.fits, hjump.upTarget⟩, rfl, hruns'⟩
  · rw [hover, if_pos rfl]
    have hten : (0 : ℝ) < UnitConverter.um2blu 10 := by
      norm_num [UnitConverter.um2blu, UnitConverter.um2blu_]
    have hdown := hjump.down
    have hunit : axisLength t.lineTraj.unitVector = 1 := by
      have hlen := axisLengthBetween_pos hruns.ne
      rw [hjump.upTarget] at hlen
      exact axisLength_unitVector_of_start h.line hlen
    have hlength : axisLengthBetween t.jumpUpTargetPos t.jumpDownTargetPos =
        t.jumpingParam.upBlu - t.jumpingParam.bufferBlu := by
      rw [← abs_of_pos (by linarith : 0 < t.jumpingParam.upBlu - t.jumpingParam.bufferBlu)]
      exact axisLengthBetween_along hunit
    have hret : (t.jumpPmHandler.runOnce.start t.jumpingParam.speedParam t.jumpUpTargetPos
        t.jumpDownTargetPos).2 = true := by
      rcases t.jumpPmHandler.runOnce.start_cases t.jumpingParam.speedParam t.jumpUpTargetPos
        t.jumpDownTargetPos with ⟨hret, -, -⟩ | ⟨-, -, hle⟩
      · exact hret
      · rw [hlength] at hle
        linarith
    refine ⟨h.line, h.startPos, h.endPos, h.height, fun hh => absurd hh hnot, ?_, ?_, ?_⟩
    · exact ⟨hjump.before, hjump.buffer_le, hjump.down, hjump.up_le,
        hjump.fits, hjump.upTarget⟩
    · show t.jumpUpTargetPos = (G01AutoTask.multiSend _ _ _ _).2.globalCmdAxis
      rw [hg]
      exact hend.symm
    · have hfits : Moveruntime.Fits Moveruntime.cycleT t.jumpingParam.speedParam
          (axisLengthBetween t.jumpUpTargetPos t.jumpDownTargetPos) := hlength ▸ hjump.fits.down
      exact PointMoveHandler.start_runs hjump.fits.speed hfits hret

/-- Down: the next cycle of the move; at its end the line takes over, set back by the buffer. -/
theorem OnTrack.servoSubstateJumpdowning (h : t.OnTrack a b height sh.globalCmdAxis)
    (hs : t.servoSubState = .jumpDowning) :
    (t.servoSubstateJumpdowning sh inp).1.OnTrack a b height
      (t.servoSubstateJumpdowning sh inp).2.globalCmdAxis := by
  obtain ⟨hjump, hpos, hruns⟩ : t.Jump ∧ t.jumpPmHandler.currPos = sh.globalCmdAxis ∧
      t.jumpPmHandler.Runs t.jumpUpTargetPos t.jumpDownTargetPos := by
    have hstands := h.stands
    simpa only [Stands, hs] using hstands
  have hnot := h.not_halts (by simp [hs])
  obtain ⟨now, hsend, hg⟩ := multiSend_eq { t with jumpPmHandler := t.jumpPmHandler.runOnce }
    (sh.setGlobalCmdAxis t.jumpPmHandler.runOnce.currPos) inp true
  simp only [G01AutoTask.servoSubstateJumpdowning, hsend]
  rcases hruns.runOnce with ⟨hover, hruns'⟩ | ⟨hover, hend⟩
  · rw [hover, if_neg (by simp), hg]
    refine ⟨h.line, h.startPos, h.endPos, h.height, fun hh => absurd hh hnot, ?_⟩
    simp only [Stands, hs]
    exact ⟨⟨hjump.before, hjump.buffer_le, hjump.down, hjump.up_le,
      hjump.fits, hjump.upTarget⟩, rfl, hruns'⟩
  · rw [hover, if_pos rfl, hg]
    have hle := h.line.le_total
    have hvalid : t.lineTraj.validate (t.servoingLengthBeforeJump - t.jumpingParam.bufferBlu) =
        t.lineTraj.currLength - t.jumpingParam.bufferBlu := by
      rw [hjump.before]
      have hb0 := hjump.fits.buffer
      have hb1 := hjump.buffer_le
      exact TrajectoryLinearSegement.validate_of_mem (by linarith) (by linarith)
    refine ⟨h.line.toProper.setCurrLength _, h.startPos, h.endPos, h.height,
      fun hh => absurd hh hnot, ?_, ?_⟩
    · funext i
      show (t.lineTraj.setCurrLength _).currPos i = t.jumpPmHandler.runOnce.currPos i
      rw [h.line.setCurrLength_currPos, hvalid, hend, jumpDownTargetPos, hjump.upTarget]
      ring
    · show t.lineTraj.validate _ ≤ t.servoingLengthBeforeJump
      rw [hvalid, hjump.before]
      have hb0 := hjump.fits.buffer
      linarith

/-- The buffer: the line goes on, no further than where the jump began. -/
theorem OnTrack.servoSubstateJumpdowningbuffer (h : t.OnTrack a b height sh.globalCmdAxis)
    (hs : t.servoSubState = .jumpDowningBuffer) :
    (t.servoSubstateJumpdowningbuffer sh inp).1.OnTrack a b height
      (t.servoSubstateJumpdowningbuffer sh inp).2.globalCmdAxis := by
  obtain ⟨hpos, hle⟩ : t.lineTraj.currPos = sh.globalCmdAxis ∧
      t.lineTraj.currLength ≤ t.servoingLengthBeforeJump := by
    have hstands := h.stands
    simpa only [Stands, hs] using hstands
  have hnot := h.not_halts (by simp [hs])
  simp only [G01AutoTask.servoSubstateJumpdowningbuffer]
  split
  · rename_i hcmd
    split
    · exact onTrack_servoing (h.line.runOnce _) h.startPos h.endPos h.height rfl rfl
    · rename_i hb
      obtain ⟨hlt, -⟩ := not_or.mp hb
      have hgoes : 0 ≤ t.lineTraj.currLength + servoCmd inp :=
        add_nonneg h.line.nonneg (le_of_lt hcmd)
      refine ⟨h.line.runOnce _, h.startPos, h.endPos, h.height, fun hh => absurd hh hnot, ?_⟩
      simp only [Stands, hs]
      refine ⟨rfl, ?_⟩
      show t.lineTraj.validate (t.lineTraj.currLength + servoCmd inp) ≤ t.servoingLengthBeforeJump
      have hval : t.lineTraj.validate (t.lineTraj.currLength + servoCmd inp) ≤
          t.lineTraj.currLength + servoCmd inp := by
        unfold TrajectoryLinearSegement.validate
        split
        · rename_i hgt
          exact le_of_lt hgt
        · split
          · exact hgoes
          · exact le_rfl
      linarith [not_le.mp hlt]
  · exact onTrack_servoing h.line h.startPos h.endPos h.height rfl hpos

/-- The retreat before a pause goes back along the line. -/
theorem OnTrack.pauseReturnBack (h : t.OnTrack a b height g) (hs : t.servoSubState = .servoing)
    (sh : MotionShared ℝ) :
    let res := t.pauseReturnBack sh
    res.1.OnTrack a b height res.2.1.globalCmdAxis ∧ res.1.servoSubState = .servoing :=
  ⟨onTrack_servoing (h.line.runOnce _) h.startPos h.endPos h.height hs rfl, hs⟩

/-- A task with a jump under way finishes it before it halts. -/
theorem OnTrack.statePausingOrStopping (h : t.OnTrack a b height sh.globalCmdAxis) {target : State}
    (ht : t.state = .pausing ∧ target = .paused ∨ t.state = .stopping ∧ target = .stopped) :
    (t.statePausingOrStopping sh inp target).1.OnTrack a b height
      (t.statePausingOrStopping sh inp target).2.globalCmdAxis := by
  unfold G01AutoTask.statePausingOrStopping
  cases hsub : t.pauseOrStopSubState with
  | waitingForJumpEnd =>
    cases hs : t.servoSubState with
    | servoing =>
      simp only
      split
      · exact h.of_servoing hs ⟨rfl, rfl⟩ rfl
      · exact h.of_servoing hs ⟨rfl, rfl⟩ hs
    | jumpUping => exact h.servoSubstateJumpuping hs
    | jumpDowning => exact h.servoSubstateJumpdowning hs
    | jumpDowningBuffer => exact h.servoSubstateJumpdowningbuffer hs
  | backingToBegin =>
    have hs : t.servoSubState = .servoing :=
      h.halts (.inr (.inr ⟨ht.imp And.left And.left, hsub⟩))
    obtain ⟨hback, hs'⟩ := h.pauseReturnBack hs sh
    simp only
    split
    · exact h.of_servoing hs ⟨rfl, rfl⟩ hs
    split
    · split
      · exact hback
      · exact hback.of_servoing hs' ⟨rfl, rfl⟩ hs'
    · exact h.of_servoing hs ⟨rfl, rfl⟩ hs

/-- A task that changes its state, or its way to a halt, stands where it stood. -/
theorem OnTrack.changeState (h : t.OnTrack a b height g) {st : State} {sub : PauseOrStopSubState}
    (hh : Halts { t with state := st, pauseOrStopSubState := sub } → t.servoSubState = .servoing) :
    OnTrack a b height { t with state := st, pauseOrStopSubState := sub } g := by
  refine ⟨h.line, h.startPos, h.endPos, h.height, hh, ?_⟩
  have hstands := h.stands
  unfold Stands at hstands ⊢
  cases hs : t.servoSubState with
  | servoing | jumpDowningBuffer => simpa only [hs] using hstands
  | jumpUping | jumpDowning =>
    simp only [hs] at hstands ⊢
    obtain ⟨hjump, hat⟩ := hstands
    exact ⟨⟨hjump.before, hjump.buffer_le, hjump.down, hjump.up_le, hjump.fits, hjump.upTarget⟩,
      hat⟩

theorem OnTrack.pause (h : t.OnTrack a b height g) : t.pause.1.OnTrack a b height g := by
  unfold G01AutoTask.pause
  cases hst : t.state with
  | normalRunning => exact h.changeState (by simp [Halts])
  | _ => exact h

theorem OnTrack.resume (h : t.OnTrack a b height g) : t.resume.1.OnTrack a b height g := by
  unfold G01AutoTask.resume
  cases hst : t.state with
  | paused =>
    have hs := h.halts (.inl hst)
    exact h.of_servoing hs ⟨rfl, rfl⟩ hs
  | _ => exact h

/-- A stop takes a pause under way over where it is. -/
theorem OnTrack.stop (h : t.OnTrack a b height g) (immediate : Bool) :
    (t.stop immediate).1.OnTrack a b height g := by
  unfold G01AutoTask.stop
  cases hst : t.state with
  | normalRunning => exact h.changeState (by simp [Halts])
  | pausing =>
    refine h.changeState fun hh => h.halts ?_
    rcases hh with hh | hh | ⟨-, hsub⟩
    · simp at hh
    · simp at hh
    · exact .inr (.inr ⟨.inl hst, hsub⟩)
  | paused =>
    have hs := h.halts (.inl hst)
    exact h.of_servoing hs ⟨rfl, rfl⟩ hs
  | resuming =>
    have hs := h.halts (.inr (.inl hst))
    exact h.of_servoing hs ⟨rfl, rfl⟩ hs
  | _ => exact h

/-- The cycle plans a jump. -/
def plansJump (t : G01AutoTask ℝ) (sh : MotionShared ℝ) (inp : CycleInput ℝ) : Prop :=
  t.state = .normalRunning ∧ t.servoSubState = .servoing ∧
    (t.servoingCheckAndPlanJump sh inp).2.2 = true

/-- A cycle keeps the task on its track if the jump it plans fits. -/
theorem OnTrack.runOnce (h : t.OnTrack a b height sh.globalCmdAxis)
    (hfits : t.plansJump sh inp → (sh.jumpParam.cut t.lineTraj.currLength height).Fits) :
    (t.runOnce sh inp).1.OnTrack a b height (t.runOnce sh inp).2.globalCmdAxis := by
  unfold G01AutoTask.runOnce
  cases hst : t.state with
  | normalRunning =>
    simp only [stateNormalRunning]
    cases hs : t.servoSubState with
    | servoing => exact h.servoSubstateServoing hs hst fun hplan => hfits ⟨hst, hs, hplan⟩
    | jumpUping => exact h.servoSubstateJumpuping hs
    | jumpDowning => exact h.servoSubstateJumpdowning hs
    | jumpDowningBuffer => exact h.servoSubstateJumpdowningbuffer hs
  | pausing => exact h.statePausingOrStopping (.inl ⟨hst, rfl⟩)
  | stopping => exact h.statePausingOrStopping (.inr ⟨hst, rfl⟩)
  | resuming =>
    have hs := h.halts (.inr (.inl hst))
    simp only [stateResuming]
    exact h.of_servoing hs ⟨rfl, rfl⟩ hs
  | _ => exact h

/-- A jump is under way up or down. -/
def InJump (t : G01AutoTask ℝ) : Prop :=
  t.servoSubState = .jumpUping ∨ t.servoSubState = .jumpDowning

instance (t : G01AutoTask ℝ) : Decidable t.InJump := by unfold InJump; infer_instance

/-- Where a task on its track is: on the line, in a jump back to the height left above the start. -/
theorem OnTrack.place (h : t.OnTrack a b height g) :
    ∃ x ≤ axisLengthBetween a b, (∀ i, g i = a i + axisUnitVector a b i * x) ∧
      (if t.InJump then -(height - UnitConverter.um2blu 100) else 0) ≤ x := by
  have hline (i : Fin 6) : t.lineTraj.currPos i =
      a i + axisUnitVector a b i * t.lineTraj.currLength := by
    rw [h.line.currPos i, h.line.unitVector, h.startPos, h.endPos, add_comm]
  have htotal : t.lineTraj.totalLength = axisLengthBetween a b := by
    rw [h.line.totalLength, h.startPos, h.endPos]
  have hunit : t.lineTraj.unitVector = axisUnitVector a b := by
    rw [h.line.unitVector, h.startPos, h.endPos]
  have hle : t.lineTraj.currLength ≤ axisLengthBetween a b := htotal ▸ h.line.le_total
  have h0 := h.line.nonneg
  have hstands := h.stands
  cases hs : t.servoSubState with
  | servoing =>
    simp only [Stands, hs] at hstands
    refine ⟨t.lineTraj.currLength, hle, fun i => hstands ▸ hline i, ?_⟩
    rwa [if_neg (by simp [InJump, hs])]
  | jumpDowningBuffer =>
    simp only [Stands, hs] at hstands
    refine ⟨t.lineTraj.currLength, hle, fun i => hstands.1 ▸ hline i, ?_⟩
    rwa [if_neg (by simp [InJump, hs])]
  | jumpUping =>
    simp only [Stands, hs] at hstands
    obtain ⟨hjump, hpos, hruns⟩ := hstands
    rw [if_pos (.inl hs)]
    have hten : (0 : ℝ) < UnitConverter.um2blu 10 := by
      norm_num [UnitConverter.um2blu, UnitConverter.um2blu_]
    have hb0 := hjump.fits.buffer
    have hdown := hjump.down
    have hup := hjump.up_le
    rw [h.height] at hup
    have hlen1 := axisLengthBetween_pos hruns.ne
    have htarget : t.jumpUpTargetPos = fun i =>
        t.lineTraj.currPos i + t.lineTraj.unitVector i * -t.jumpingParam.upBlu := by
      rw [hjump.upTarget]
      funext i
      ring
    have hone : axisLength t.lineTraj.unitVector = 1 := by
      rw [hjump.upTarget] at hlen1
      exact axisLength_unitVector_of_start h.line hlen1
    have hpos' : 0 < t.jumpingParam.upBlu := by linarith
    obtain ⟨c, hc0, hc1, hat⟩ := hruns.between
    rw [htarget, axisLengthBetween_along hone, abs_neg, abs_of_pos hpos'] at hc1
    refine ⟨t.lineTraj.currLength - c, by linarith, fun i => ?_, by linarith⟩
    rw [← hpos, hat i, htarget, axisUnitVector_along hone, hline i, abs_neg, abs_of_pos hpos',
      scaleAxis, hunit]
    field_simp
    ring
  | jumpDowning =>
    simp only [Stands, hs] at hstands
    obtain ⟨hjump, hpos, hruns⟩ := hstands
    rw [if_pos (.inr hs)]
    have hten : (0 : ℝ) < UnitConverter.um2blu 10 := by
      norm_num [UnitConverter.um2blu, UnitConverter.um2blu_]
    have hb0 := hjump.fits.buffer
    have hdown := hjump.down
    have hup := hjump.up_le
    rw [h.height] at hup
    have hpos' : 0 < t.jumpingParam.upBlu - t.jumpingParam.bufferBlu := by linarith
    have hone : axisLength t.lineTraj.unitVector = 1 := by
      rw [hunit]
      refine axisLength_unitVector fun heq => hruns.ne ?_
      have hzero (i : Fin 6) : t.lineTraj.unitVector i = 0 := by
        rw [hunit, heq]
        simp [axisUnitVector, scaleAxis, axisVector]
      funext i
      rw [jumpDownTargetPos, hzero, zero_mul, add_zero]
    obtain ⟨c, hc0, hc1, hat⟩ := hruns.between
    have hlength : axisLengthBetween t.jumpUpTargetPos t.jumpDownTargetPos =
        |t.jumpingParam.upBlu - t.jumpingParam.bufferBlu| := axisLengthBetween_along hone
    have hdir : axisUnitVector t.jumpUpTargetPos t.jumpDownTargetPos = _ :=
      axisUnitVector_along hone
    rw [hlength, abs_of_pos hpos'] at hc1
    refine ⟨t.lineTraj.currLength - t.jumpingParam.upBlu + c, by linarith, fun i => ?_, by linarith⟩
    have hup' : t.jumpUpTargetPos i =
        a i + axisUnitVector a b i * t.lineTraj.currLength -
          axisUnitVector a b i * t.jumpingParam.upBlu := by
      rw [hjump.upTarget]
      show t.lineTraj.currPos i - t.lineTraj.unitVector i * _ = _
      rw [hline i, hunit]
    rw [← hpos, hat i, hdir, abs_of_pos hpos', scaleAxis, mul_one_div_cancel hpos'.ne', hup', hunit]
    ring

end G01AutoTask

namespace G01System

open MotionUtils

variable [Settings]

/-- What a jump must not spoil, for a task on the line from `a` to `b`: the commanded axis is on the
line, not behind the start but by the height of a jump; the way down of a jump is positive; the line
takes over where the jump has ended, and while the buffer lasts it is not past where the jump began;
at a halt no jump is under way. -/
structure KeepsCourse (a b : Axis ℝ) (height : ℝ) (s : G01System ℝ) : Prop where
  place : ∃ x ≤ axisLengthBetween a b,
    (∀ i, s.shared.globalCmdAxis i = a i + axisUnitVector a b i * x) ∧
      (if s.task.InJump then -(height - UnitConverter.um2blu 100) else 0) ≤ x
  down : s.task.servoSubState = .jumpUping →
    0 < s.task.jumpingParam.upBlu - s.task.jumpingParam.bufferBlu
  line : ¬s.task.InJump → s.task.lineTraj.currPos = s.shared.globalCmdAxis
  buffer : s.task.servoSubState = .jumpDowningBuffer →
    s.task.lineTraj.currLength ≤ s.task.servoingLengthBeforeJump
  halts : s.task.Halts → s.task.servoSubState = .servoing

/-- A jump that the step plans fits. -/
def JumpsFit (s : G01System ℝ) : Command ℝ → Prop
  | .runOnce inp => s.task.plansJump s.shared inp →
      (s.shared.jumpParam.cut s.task.lineTraj.currLength s.task.maxJumpHeightFromBegin).Fits
  | _ => True

variable {a b : Axis ℝ} {height : ℝ} {s : G01System ℝ}

theorem step_onTrack {c : Command ℝ} (h : s.task.OnTrack a b height s.shared.globalCmdAxis)
    (hc : s.JumpsFit c) : (s.step c).task.OnTrack a b height (s.step c).shared.globalCmdAxis := by
  cases c with
  | pause => exact h.pause
  | resume => exact h.resume
  | stop immediate => exact h.stop immediate
  | setting c => cases c <;> exact h
  | runOnce inp => exact h.runOnce fun hplan => h.height ▸ hc hplan

theorem keepsCourse_of_onTrack (h : s.task.OnTrack a b height s.shared.globalCmdAxis) :
    s.KeepsCourse a b height := by
  have hstands := h.stands
  refine ⟨h.place, fun hs => ?_, fun hjump => ?_, fun hs => ?_, h.halts⟩
  · simp only [G01AutoTask.Stands, hs] at hstands
    have hten : (0 : ℝ) < UnitConverter.um2blu 10 := by
      norm_num [UnitConverter.um2blu, UnitConverter.um2blu_]
    have hdown := hstands.1.down
    linarith
  · cases hs : s.task.servoSubState with
    | servoing => simpa only [G01AutoTask.Stands, hs] using hstands
    | jumpDowningBuffer =>
      simp only [G01AutoTask.Stands, hs] at hstands
      exact hstands.1
    | jumpUping => exact absurd (.inl hs) hjump
    | jumpDowning => exact absurd (.inr hs) hjump
  · simp only [G01AutoTask.Stands, hs] at hstands
    exact hstands.2

theorem run_onTrack (target : Axis ℝ) (height : ℝ) (sh : MotionShared ℝ) (nowMs hrNowNs : ℤ)
    {cmds : List (Command ℝ)}
    (hc : Machine.AllSteps step JumpsFit
      (new (.new sh.globalCmdAxis target) height sh nowMs hrNowNs) cmds) :
    let s := Machine.run step (new (.new sh.globalCmdAxis target) height sh nowMs hrNowNs) cmds
    s.task.OnTrack sh.globalCmdAxis target height s.shared.globalCmdAxis := by
  refine Machine.AllSteps.invariant
    (I := fun s : G01System ℝ =>
      s.task.OnTrack sh.globalCmdAxis target height s.shared.globalCmdAxis)
    (fun _ _ => step_onTrack) ?_ hc
  exact G01AutoTask.onTrack_servoing (TrajectoryLinearSegement.new_onLine _ _) rfl rfl rfl rfl rfl

end G01System

/-! ### The hard plan -/

namespace Moveruntime

section Hard

attribute [local instance] Sample.settings

/-- The greatest acceleration of the electrical parameters, reached in a cycle. -/
noncomputable def hard : MoveRuntimePlanSpeedInput ℝ := ⟨9990000, -9990000, 20000, 0, 0, 1⟩

theorem hard_entryAcc : entryAcc hard = 9990000 := by
  norm_num [entryAcc, accFromTo, hard, speedEps, abs_of_neg]

theorem hard_exitSpeed : exitSpeed hard = 2 := by norm_num [exitSpeed, hard]

theorem hard_exitAcc : exitAcc hard = -9990000 := by
  norm_num [exitAcc, hard_exitSpeed]
  norm_num [hard, speedEps]

theorem hard_directAcc : directAcc hard = 9990000 := by
  rw [directAcc, hard_exitSpeed]
  norm_num [accFromTo, hard, speedEps]

theorem hard_planNacc : planNacc hard = 1 := by norm_num [planNacc, hard, clampNacc]

theorem rampOf_two_s {T v0 v1 : ℝ} : (rampOf T v0 v1 2 0).s = (v0 + 3 * v1) * T := by
  show (v0 + v1) * ((2 : ℤ) * T + 1 / 2 * ((0 : ℤ) * T)) + (v1 - v0) * T = _
  push_cast
  ring

theorem rampOf_one_s {T v0 v1 : ℝ} : (rampOf T v0 v1 1 1).s = (v0 + 5 * v1) / 2 * T := by
  show (v0 + v1) * ((1 : ℤ) * T + 1 / 2 * ((1 : ℤ) * T)) + (v1 - v0) * T = _
  push_cast
  ring

/-- From a standstill to the exit speed the ramp is the shortest one. -/
theorem hard_directLength : directLength cycleT hard = 3 / 500 := by
  have hroot : sqrt ((2 : ℝ) / (9990000 / (1 / 1000))) / (1 / 1000) < (2 : ℤ) := by
    show Real.sqrt _ / _ < _
    rw [div_lt_iff₀ (by norm_num), Real.sqrt_lt' (by norm_num)]
    norm_num
  have hramp : rampByAcc cycleT 1 0 2 (9990000 : ℝ) (9990000 / jerk2acc 1 cycleT) =
      rampOf cycleT 0 2 2 0 := by
    have hn2 : ⌊((2 : ℝ) - 0 - 9990000 * jerk2acc 1 cycleT) / 9990000 / cycleT⌋ < 1 := by
      rw [Int.floor_lt]
      norm_num [jerk2acc, cycleT_eq]
    have hn1 : ⌊sqrt (((2 : ℝ) - 0) / (9990000 / jerk2acc 1 cycleT)) / cycleT⌋ < 2 := by
      rw [Int.floor_lt]
      simpa [jerk2acc, cycleT_eq] using hroot
    unfold rampByAcc
    simp only [hn2, hn1, if_true]
  rw [directLength, hard_directAcc, hard_exitSpeed, hard_planNacc, if_pos (by norm_num)]
  show (rampByAcc cycleT 1 0 2 _ _).s = _
  rw [hramp, rampOf_two_s, cycleT_eq]
  norm_num

theorem hard_entryRamp : (entryRamp cycleT hard).s = 50 := by
  have hramp (j : ℝ) : rampByAcc cycleT 1 0 20000 (9990000 : ℝ) j = rampOf cycleT 0 20000 1 1 := by
    have hfloor : ⌊((20000 : ℝ) - 0 - 9990000 * jerk2acc 1 cycleT) / 9990000 / cycleT⌋ = 1 := by
      norm_num [Int.floor_eq_iff, jerk2acc, cycleT_eq]
    unfold rampByAcc
    simp only [hfloor]
    rfl
  rw [entryRamp, hard_entryAcc, hard_planNacc, if_pos (by norm_num)]
  show (rampByAcc cycleT 1 0 20000 _ _).s = _
  rw [hramp, rampOf_one_s, cycleT_eq]
  norm_num

theorem hard_exitRamp : (exitRamp cycleT hard).s = 10005 / 1000 := by
  have hramp (j : ℝ) : rampByAcc cycleT 1 20000 2 (-9990000 : ℝ) j = rampOf cycleT 20000 2 1 1 := by
    have hfloor : ⌊((2 : ℝ) - 20000 - -9990000 * jerk2acc 1 cycleT) / -9990000 / cycleT⌋ = 1 := by
      norm_num [Int.floor_eq_iff, jerk2acc, cycleT_eq]
    unfold rampByAcc
    simp only [hfloor]
    rfl
  rw [exitRamp, hard_exitAcc, hard_planNacc, hard_exitSpeed, if_pos (by norm_num)]
  show (rampByAcc cycleT 1 20000 2 _ _).s = _
  rw [hramp, rampOf_one_s, cycleT_eq]
  norm_num

/-- The length planned: the two ramps do not fit, and the reduced speed is reached in 0.8 cycles. -/
noncomputable def hardLength : ℝ := 127797 / 12500

theorem hard_reducedRamp :
    reducedRamp cycleT hard hardLength = (rampOf cycleT 0 (31968 / 5) 2 0, 31968 / 5) := by
  have hlen : reducedLength cycleT hard hardLength = 511488 / 100000 := by
    rw [reducedLength, hard_directAcc, hard_entryAcc, hard_directLength, if_pos (by norm_num)]
    norm_num [hardLength]
  rw [reducedRamp, hlen, hard_entryAcc, hard_planNacc]
  unfold rampReduced
  extract_lets d0 xa xb xc d2 j1 xp xq xt r0 r theta d1 vc n1 vc'
  have hd0 : d0 = 1 / 1000 := by norm_num [d0, jerk2acc, cycleT_eq]
  have hj1 : j1 = 9990000000 := by
    simp only [j1, hd0]
    norm_num
  have hd2 : d2 < 0 := by
    have hxb : xb = 24975 := by
      simp only [xb, hd0, hard, cycleT_eq]
      norm_num
    have hdisc : xb * xb - 4 * xa * xc < 24975 ^ 2 := by
      simp only [xc, xa, hxb, hd0, hard, cycleT_eq]
      norm_num
    have hroot : sqrt (xb * xb - 4 * xa * xc) < 24975 := by
      show Real.sqrt _ < _
      exact (Real.sqrt_lt' (by norm_num)).mpr hdisc
    refine div_neg_of_neg_of_pos ?_ (by norm_num [xa])
    linarith only [hxb, hroot]
  have hd1 : d1 = 8 / 10000 := by
    have hxq : xq = -(8 / 10000) ^ 3 := by
      simp only [xq, hj1]
      norm_num
    have hxp : xp = 0 := by simp [xp, hard]
    have hxt : xt = (8 / 10000 : ℝ) ^ 3 / 2 := by
      simp only [xt]
      have hsq : xq * xq / 4 + xp * xp * xp / 27 = ((8 / 10000 : ℝ) ^ 3 / 2) ^ 2 := by
        rw [hxp, hxq]
        norm_num
      rw [hsq]
      exact Real.sqrt_sq (by norm_num)
    have hcube : cbrt ((8 / 10000 : ℝ) ^ 3) = 8 / 10000 := by
      show (if (0 : ℝ) ≤ (8 / 10000 : ℝ) ^ 3 then _ else _) = _
      rw [if_pos (by norm_num), one_div]
      exact_mod_cast Real.pow_rpow_inv_natCast (by norm_num : (0 : ℝ) ≤ 8 / 10000) three_ne_zero
    have hzero : cbrt (0 : ℝ) = 0 := by
      show (if (0 : ℝ) ≤ 0 then _ else _) = _
      rw [if_pos le_rfl, Real.zero_rpow (by norm_num)]
    simp only [d1]
    rw [if_pos (by rw [hj1]; norm_num), hxq, hxt]
    have h1 : -(1 / 2) * -(8 / 10000 : ℝ) ^ 3 + (8 / 10000) ^ 3 / 2 = (8 / 10000) ^ 3 := by ring
    have h2 : -(1 / 2) * -(8 / 10000 : ℝ) ^ 3 - (8 / 10000) ^ 3 / 2 = 0 := by ring
    rw [h1, h2, hcube, hzero, add_zero]
  have hvc : vc = 31968 / 5 := by
    simp only [vc, hj1, hd1, hard]
    norm_num
  have hn1 : n1 < 2 := by
    simp only [n1, hd1, cycleT_eq]
    rw [Int.floor_lt]
    norm_num
  rw [if_pos hd2, if_pos hn1, hvc]
  rfl

theorem profile_hard : profile cycleT hard hardLength =
    ⟨rampOf cycleT 0 (31968 / 5) 2 0, 0, 0, rampOf cycleT (31968 / 5) 2 2 0⟩ := by
  have hn4 : hard.cruiseV * cruiseN cycleT hard hardLength * cycleT < 0 := by
    have hcruise : cruiseN cycleT hard hardLength = -3 := by
      rw [cruiseN, hard_entryRamp, hard_exitRamp]
      norm_num [Int.floor_eq_iff, hard, hardLength, cycleT_eq]
    rw [hcruise, cycleT_eq]
    norm_num [hard]
  have hopp : Opposite hard := by
    refine .inl ⟨?_, ?_⟩
    · rw [hard_entryAcc]
      norm_num
    · rw [hard_exitAcc]
      norm_num
  have hone : ¬OneSided hard := by
    unfold OneSided OneCountsAsZero
    rw [hard_entryAcc, hard_exitAcc]
    norm_num [speedEps]
  have hexit : rampByLen cycleT 1 (31968 / 5 : ℝ) 2
      (hardLength - (rampOf cycleT 0 (31968 / 5) 2 0).s) = rampOf cycleT (31968 / 5) 2 2 0 := by
    have hleft : hardLength - (rampOf cycleT 0 (31968 / 5) 2 0).s = -(111963 / 12500) := by
      rw [rampOf_two_s, cycleT_eq]
      norm_num [hardLength]
    have hneg {x : ℝ} (hx : x < 0) : ⌊x⌋ < 1 ∧ ⌊x⌋ < 2 := by
      rw [Int.floor_lt, Int.floor_lt]
      constructor <;> norm_num <;> linarith
    rw [hleft]
    unfold rampByLen
    extract_lets d0 n2 d1 n1
    have hn2 : n2 < 1 := by
      refine (hneg ?_).1
      norm_num [d0, jerk2acc, cycleT_eq]
    have hn1 : n1 < 2 := by
      refine (hneg ?_).2
      norm_num [d1, cycleT_eq]
    rw [if_pos hn2, if_pos hn1]
  rw [profile_eq, if_neg, if_pos hn4]
  · rcases profileShort_forms (T := cycleT) (s := hardLength) (p := hard) with
      ⟨h, -⟩ | ⟨-, -, h⟩ | ⟨-, h, -⟩
    · exact absurd h hone
    · rw [h, hard_reducedRamp, hard_planNacc, hard_exitSpeed]
      rw [hexit]
    · exact absurd hopp h
  · rw [hard_directLength]
    norm_num [hardLength]

/-- What the planner plays back. -/
noncomputable def hardSchedule : Schedule ℝ :=
  .ofProfile cycleT 0 hardLength
    ⟨rampOf cycleT 0 (31968 / 5) 2 0, 0, 0, rampOf cycleT (31968 / 5) 2 2 0⟩

theorem hardSchedule_eq : hardSchedule =
    ⟨2, 0, 0, 2, 0, 0, 999/625, -(15979/10000), 0, -(31993/18750), 31993/18750⟩ := by
  have hentry : (rampOf cycleT 0 (31968 / 5) 2 0 : Ramp ℝ).s = 3 * (31968 / 5) / 1000 := by
    rw [rampOf_two_s, cycleT_eq]
    ring
  have hexit : (rampOf cycleT (31968 / 5) 2 2 0 : Ramp ℝ).s = (31968 / 5 + 6) / 1000 := by
    rw [rampOf_two_s, cycleT_eq]
    ring
  have hn : (rampOf cycleT 0 (31968 / 5) 2 0 : Ramp ℝ).jerkN = 2 := rfl
  unfold hardSchedule Schedule.ofProfile Impl.ofProfile
  simp only [hentry, hexit]
  norm_num [rampOf, jerk2acc, cycleT_eq, hardLength]
  rfl

theorem hardSchedule_total : hardSchedule.total = 8 := rfl

/-- After five cycles it has gone past its length. -/
theorem hardSchedule_gone : hardLength < hardSchedule.gone 5 := by
  have hjerks : hardSchedule.jerks = [999 / 625, 999 / 625, -(999 / 625), -(999 / 625),
      -(15979 / 10000), -(15979 / 10000), - -(15979 / 10000), - -(15979 / 10000)] := by
    rw [hardSchedule_eq]
    rfl
  have hspeeds : hardSchedule.speeds.take 5 =
      [999 / 625, 2997 / 625, 3996 / 625, 3996 / 625, 47957 / 10000] := by
    rw [Schedule.speeds, Schedule.accs, hjerks, hardSchedule_eq]
    norm_num [Kinematics.totals]
  have hrests : hardSchedule.rests.take 5 = [0, -(31993 / 18750), -(63986 / 18750),
      -(95979 / 18750), -(63986 / 18750)] := by
    have hsteps : hardSchedule.restSteps = [0, -(31993 / 18750), -(31993 / 18750),
        -(31993 / 18750), 31993 / 18750, 31993 / 18750, 31993 / 18750] := by
      rw [hardSchedule_eq]
      rfl
    rw [Schedule.rests, hsteps, hardSchedule_eq]
    norm_num [Kinematics.totals]
  rw [Schedule.gone, hspeeds, hrests, hardLength]
  norm_num

end Hard

end Moveruntime

namespace G01System

open MotionUtils

section Rising

variable [Settings] {s : G01System ℝ} {S : Moveruntime.Schedule ℝ} {c : ℕ} {a u : Axis ℝ}

/-- A running task on the way up of a jump that plays back a schedule, from `a` along `u`. -/
structure Rises (s : G01System ℝ) (a u : Axis ℝ) (S : Moveruntime.Schedule ℝ) (c : ℕ) : Prop where
  state : s.task.state = .normalRunning
  sub : s.task.servoSubState = .jumpUping
  startPos : s.task.jumpPmHandler.startPos = a
  unitVector : s.task.jumpPmHandler.unitVector = u
  move : s.task.jumpPmHandler.mrtWrapper.Follows S c

/-- A cycle before the last one takes the command along with the schedule. -/
theorem Rises.runOnce (h : s.Rises a u S c) (hc : c + 1 < S.total) (inp : CycleInput ℝ) :
    (s.step (.runOnce inp)).Rises a u S (c + 1) ∧
      ∀ i, (s.step (.runOnce inp)).shared.globalCmdAxis i = a i + u i * S.gone (c + 1) := by
  have hnext := h.move.runOnce hc
  have hw : s.task.jumpPmHandler.runOnce.mrtWrapper = s.task.jumpPmHandler.mrtWrapper.runOnce.1 :=
    PointMoveHandler.runOnce_mrtWrapper
  have hstarted : s.task.jumpPmHandler.mrtWrapper.runOnce.1.isStarted = true := by
    simp [MoveruntimeWrapper.isStarted, hnext.state]
  have hover : s.task.jumpPmHandler.mrtWrapper.runOnce.1.isOver = false := by
    simp [MoveruntimeWrapper.isOver, MoveruntimeWrapper.isStopped, hnext.state]
  have hnot : s.task.jumpPmHandler.runOnce.isOver = false := by
    unfold PointMoveHandler.isOver
    rw [hw, hover]
  have hpos (i : Fin 6) : s.task.jumpPmHandler.runOnce.currPos i = a i + u i * S.gone (c + 1) := by
    unfold PointMoveHandler.runOnce
    simp only [hstarted, hover, Bool.not_true, Bool.false_eq_true, if_false, scaleAxis, h.startPos,
      h.unitVector, hnext.currLength]
  obtain ⟨now, hsend, hg⟩ := G01AutoTask.multiSend_eq
    { s.task with jumpPmHandler := s.task.jumpPmHandler.runOnce }
    (s.shared.setGlobalCmdAxis s.task.jumpPmHandler.runOnce.currPos) inp false
  have hstep : s.step (.runOnce inp) =
      ⟨(G01AutoTask.multiSend { s.task with jumpPmHandler := s.task.jumpPmHandler.runOnce }
        (s.shared.setGlobalCmdAxis s.task.jumpPmHandler.runOnce.currPos) inp false).1,
      (G01AutoTask.multiSend { s.task with jumpPmHandler := s.task.jumpPmHandler.runOnce }
        (s.shared.setGlobalCmdAxis s.task.jumpPmHandler.runOnce.currPos) inp false).2⟩ := by
    simp only [step, G01AutoTask.runOnce, G01AutoTask.stateNormalRunning,
      G01AutoTask.servoSubstateJumpuping, h.state, h.sub, hnot, Bool.false_eq_true, if_false]
  rw [hstep]
  constructor
  · rw [hsend]
    refine ⟨h.state, h.sub, ?_, ?_, hw ▸ hnext⟩
    · exact (PointMoveHandler.runOnce_startPos).trans h.startPos
    · exact (PointMoveHandler.runOnce_unitVector).trans h.unitVector
  · intro i
    show (G01AutoTask.multiSend _ _ _ _).2.globalCmdAxis i = _
    rw [hg]
    exact hpos i

theorem Rises.run (h : s.Rises a u S c) (inp : CycleInput ℝ) {n : ℕ} (hn : c + n < S.total) :
    (Machine.run step s (List.replicate n (.runOnce inp))).Rises a u S (c + n) := by
  induction n with
  | zero => exact h
  | succ n ih =>
    rw [List.replicate_succ', Machine.run_append]
    exact ((ih (by omega)).runOnce hn inp).1

end Rising

section HardJump

attribute [local instance] Sample.settings

/-- Jumps of a millimetre without a buffer, at the greatest acceleration of the electrical
parameters. -/
noncomputable def hardJump : JumpParam ℝ := ⟨1000, 0, 0, Moveruntime.hard⟩

/-- The height that leaves a jump the length of the hard move. -/
noncomputable def hardHeight : ℝ := 100 + Moveruntime.hardLength

/-- A line of a millimetre on the first drive. -/
noncomputable def hardTarget : Axis ℝ := fun i => if i = 0 then 1000 else 0

noncomputable def hardShared : MotionShared ℝ := { MotionShared.new with jumpParam := hardJump }

noncomputable def hardStart : G01System ℝ := new (.new 0 hardTarget) hardHeight hardShared 0 0

/-- A cycle a millisecond after the start. -/
noncomputable def hardInput : CycleInput ℝ := ⟨false, 0, 0, 1, 0⟩

theorem hardTarget_ne : (0 : Axis ℝ) ≠ hardTarget := by
  intro h
  have h0 := congrFun h 0
  norm_num [hardTarget] at h0

/-- The direction of the line. -/
noncomputable def hardUnit : Axis ℝ := axisUnitVector 0 hardTarget

theorem hardUnit_length : axisLength hardUnit = 1 := axisLength_unitVector hardTarget_ne

theorem hardJump_cut :
    hardJump.cut 0 hardHeight = { hardJump with upBlu := Moveruntime.hardLength } := by
  have hlimit : (0 : ℝ) + hardHeight - UnitConverter.um2blu 100 = Moveruntime.hardLength := by
    simp only [hardHeight, UnitConverter.um2blu, UnitConverter.um2blu_]
    ring
  have hle : Moveruntime.hardLength ≤ hardJump.upBlu := by
    norm_num [hardJump, Moveruntime.hardLength]
  unfold JumpParam.cut
  rw [hlimit, min_eq_right hle]
  congr 1
  exact min_self _

/-- The move up of the hard jump, as it is started. -/
noncomputable def hardMove : PointMoveHandler ℝ :=
  (PointMoveHandler.new.start Moveruntime.hard 0
    (fun i => (0 : Axis ℝ) i - hardUnit i * Moveruntime.hardLength)).1

theorem hardMove_length :
    axisLengthBetween (0 : Axis ℝ) (fun i => (0 : Axis ℝ) i - hardUnit i * Moveruntime.hardLength) =
      Moveruntime.hardLength := by
  have hlen : (0 : ℝ) < Moveruntime.hardLength := by norm_num [Moveruntime.hardLength]
  have h := axisLengthBetween_along (p := 0) (d := -Moveruntime.hardLength) hardUnit_length
  simpa only [mul_neg, ← sub_eq_add_neg, abs_neg, abs_of_pos hlen] using h

theorem hardMove_follows : hardMove.mrtWrapper.Follows Moveruntime.hardSchedule 0 := by
  have hlen : (0 : ℝ) < Moveruntime.hardLength := by norm_num [Moveruntime.hardLength]
  have hstart : hardMove.mrtWrapper =
      (MoveruntimeWrapper.new.start Moveruntime.hard Moveruntime.hardLength).1 := by
    show (MoveruntimeWrapper.start _ _ (axisLengthBetween _ _)).1 = _
    rw [hardMove_length]
    rfl
  have hentry :
      Moveruntime.NonNeg (Moveruntime.rampOf Moveruntime.cycleT (0 : ℝ) (31968 / 5) 2 0) :=
    ⟨show (0 : ℤ) ≤ 2 by decide, le_rfl⟩
  have hexit : Moveruntime.NonNeg (Moveruntime.rampOf Moveruntime.cycleT (31968 / 5 : ℝ) 2 2 0) :=
    ⟨show (0 : ℤ) ≤ 2 by decide, le_rfl⟩
  rw [hstart, MoveruntimeWrapper.start, Moveruntime.plan_of_pos hlen, Moveruntime.profile_hard]
  refine ⟨rfl, ⟨rfl, ?_, ?_⟩, ?_⟩
  · exact Moveruntime.Impl.ofProfile_atCycle hentry hexit le_rfl
  · simp [Moveruntime.Schedule.gone]
  · simp [Moveruntime.Schedule.gone]

theorem hardMove_unitVector : hardMove.unitVector = fun i => -hardUnit i := by
  have hlen : (0 : ℝ) < Moveruntime.hardLength := by norm_num [Moveruntime.hardLength]
  have h := axisUnitVector_along (p := 0) (d := -Moveruntime.hardLength) hardUnit_length
  show axisUnitVector (0 : Axis ℝ)
    (fun i => (0 : Axis ℝ) i - hardUnit i * Moveruntime.hardLength) = _
  simp only [mul_neg, ← sub_eq_add_neg, abs_neg, abs_of_pos hlen] at h
  rw [h]
  funext i
  rw [scaleAxis, neg_mul, mul_one_div_cancel hlen.ne', mul_neg_one]

/-- The task as it comes to plan the jump. -/
noncomputable def hardTask : G01AutoTask ℝ :=
  { hardStart.task with jumpingParam := hardJump, lastJumpEndTimeMs := 1 }

theorem hardTask_planJumpUp : hardTask.planJumpUp =
    ({ hardTask with
      servoingLengthBeforeJump := 0
      jumpingParam := { hardJump with upBlu := Moveruntime.hardLength }
      jumpUpTargetPos := fun i => (0 : Axis ℝ) i - hardUnit i * Moveruntime.hardLength
      jumpPmHandler := hardMove }, true) := by
  have hlen : (0 : ℝ) < Moveruntime.hardLength := by norm_num [Moveruntime.hardLength]
  have hten : UnitConverter.um2blu 10 ≤ Moveruntime.hardLength := by
    norm_num [Moveruntime.hardLength, UnitConverter.um2blu, UnitConverter.um2blu_]
  have hcut : hardTask.cutJump = { hardJump with upBlu := Moveruntime.hardLength } := hardJump_cut
  have hplan := G01AutoTask.planJumpUp_eq (t := hardTask)
    (by rw [hcut]; exact hten) (by rw [hcut]; exact sub_nonneg.mpr hten)
  have hret : (PointMoveHandler.new.start Moveruntime.hard (0 : Axis ℝ)
      (fun i => (0 : Axis ℝ) i - hardUnit i * Moveruntime.hardLength)).2 = true := by
    rcases PointMoveHandler.new.start_cases Moveruntime.hard 0
      (fun i => (0 : Axis ℝ) i - hardUnit i * Moveruntime.hardLength) with ⟨h, -, -⟩ | ⟨-, -, h⟩
    · exact h
    · rw [hardMove_length] at h
      exact absurd h (not_le.mpr hlen)
  rw [hcut] at hplan
  rw [hplan]
  exact congrArg _ hret

/-- The first cycle plans the jump. -/
theorem hardStart_rises :
    (hardStart.step (.runOnce hardInput)).Rises 0 (fun i => -hardUnit i)
      Moveruntime.hardSchedule 0 := by
  have hup : UnitConverter.um2blu 10 ≤ hardJump.upBlu := by
    norm_num [hardJump, UnitConverter.um2blu, UnitConverter.um2blu_]
  have hrate : hardTask.scServoGo.validRate < (G01AutoTask.scServoGoValidRateThreshold1 : ℝ) := by
    have hcount : hardTask.scServoGo.validCount = 0 := by decide
    rw [SlidingCounter.validRate, hcount, Nat.cast_zero, zero_div]
    norm_num [G01AutoTask.scServoGoValidRateThreshold1]
  have hok : hardTask.planJumpUp.2 = true := congrArg Prod.snd hardTask_planJumpUp
  have hjump := G01AutoTask.servoingCheckAndPlanJump_of_planned
    hardStart.task hardStart.shared hardInput rfl one_pos hup hrate hok
  have hstep : (hardStart.step (.runOnce hardInput)).task =
      { hardTask.planJumpUp.1 with
        servoSubState := .jumpUping, lastSendEnableVotalgeGateTimeNs := 0 } := by
    show (hardStart.task.servoSubstateServoing hardStart.shared hardInput).1 = _
    rw [G01AutoTask.servoSubstateServoing, hjump]
    rfl
  have hmove : (hardStart.step (.runOnce hardInput)).task.jumpPmHandler = hardMove := by
    rw [hstep, hardTask_planJumpUp]
  refine ⟨?_, by rw [hstep], ?_, ?_, ?_⟩
  · rw [hstep, hardTask_planJumpUp]
    rfl
  · rw [hmove]
    rfl
  · rw [hmove, hardMove_unitVector]
  · rw [hmove]
    exact hardMove_follows

/-- Jumps of fifteen without a buffer, at the small acceleration. -/
noncomputable def gentleJump : JumpParam ℝ := ⟨1, 0, 0, Moveruntime.gentle⟩

noncomputable def gentleShared : MotionShared ℝ :=
  { MotionShared.new with jumpParam := gentleJump }

theorem gentleJump_fits : (gentleJump.cut 0 1000).Fits := by
  have hup : (gentleJump.cut 0 1000).upBlu = 1 := by
    norm_num [JumpParam.cut, gentleJump, UnitConverter.um2blu, UnitConverter.um2blu_]
  have hbuffer : (gentleJump.cut 0 1000).bufferBlu = 0 := min_self _
  refine ⟨hbuffer.ge, ?_, ?_, ?_⟩
  · constructor <;> norm_num [JumpParam.cut, gentleJump, Moveruntime.gentle]
  · rw [hup]
    exact Moveruntime.gentle_fits (by norm_num) (by norm_num)
  · rw [hup, hbuffer]
    exact Moveruntime.gentle_fits (by norm_num) (by norm_num)

theorem hardUnit_ne_zero : hardUnit 0 ≠ 0 := by
  have hlen : axisLengthBetween 0 hardTarget ≠ 0 := (axisLengthBetween_pos hardTarget_ne).ne'
  have hx : hardUnit 0 = 1000 * (1 / axisLengthBetween 0 hardTarget) := by
    simp only [hardUnit, axisUnitVector, scaleAxis, axisVector, hardTarget, axisLengthBetween]
    norm_num
  rw [hx]
  exact mul_ne_zero (by norm_num) (one_div_ne_zero hlen)

/-- The height leaves a jump the length of the hard move. -/
theorem hardHeight_sub : hardHeight - UnitConverter.um2blu 100 = Moveruntime.hardLength := by
  simp only [hardHeight, UnitConverter.um2blu, UnitConverter.um2blu_]
  ring

/-- Where the jump has come to five cycles after it was planned. -/
theorem hardStart_run :
    let s := Machine.run step hardStart (.runOnce hardInput :: .replicate 5 (.runOnce hardInput))
    s.task.servoSubState = .jumpUping ∧
      ∀ i, s.shared.globalCmdAxis i = hardUnit i * -Moveruntime.hardSchedule.gone 5 := by
  have hfour := hardStart_rises.run hardInput (n := 4) (by decide)
  obtain ⟨hfive, hpos⟩ := hfour.runOnce (by decide) hardInput
  rw [List.replicate_succ', Machine.run_cons, Machine.run_append]
  refine ⟨hfive.sub, fun i => (hpos i).trans ?_⟩
  simp

end HardJump

end G01System

end Edm
