import Edm.Motion.Movers

/-!
# The discharge task and its jumps

The task moves by its line, and by a point move while it jumps. A jump goes up along the line, down
again to a buffer before the point it left, and from there the line goes on, set back by the buffer.
`G01AutoTask.At` says where the mover of each sub-state stands; each change of the sub-state keeps the
position, if the point moves of the jump are exact.
-/

set_option linter.unusedSectionVars false

namespace Edm

variable {K : Type} [Field K] [LinearOrder K] [RealFns K]

namespace G01AutoTask

/-- A jump from where the line stands: its highest point, and a buffer within the line. -/
def Jumping (t : G01AutoTask K) : Prop :=
  t.servoingLengthBeforeJump = t.lineTraj.currLength ∧
  0 ≤ t.jumpingParam.bufferBlu ∧ t.jumpingParam.bufferBlu ≤ t.lineTraj.currLength ∧
  ∀ i, t.jumpUpTargetPos i =
    t.lineTraj.currPos i - t.lineTraj.unitVector i * t.jumpingParam.upBlu

/-- Where the task stands, by its sub-state. -/
def At (t : G01AutoTask K) (g : Axis K) : Prop :=
  t.lineTraj.OnLine ∧
  (t.state = .pausing → t.pauseOrStopSubState = .backingToBegin → t.servoSubState = .servoing) ∧
  match t.servoSubState with
  | .servoing | .jumpDowningBuffer => t.jumpPmHandler.isOver ∧ t.lineTraj.currPos = g
  | .jumpUping =>
    t.Jumping ∧ t.jumpPmHandler.At g ∧ t.jumpPmHandler.state = .running ∧
      t.jumpPmHandler.targetPos = t.jumpUpTargetPos
  | .jumpDowning =>
    t.Jumping ∧ t.jumpPmHandler.At g ∧
      (t.jumpPmHandler.state = .running ∨
        t.jumpPmHandler.isOver ∧ t.jumpPmHandler.currPos = t.jumpPmHandler.targetPos) ∧
      ∀ i, t.jumpPmHandler.targetPos i = t.jumpUpTargetPos i +
        t.lineTraj.unitVector i * (t.jumpingParam.upBlu - t.jumpingParam.bufferBlu)

variable {t : G01AutoTask K} {g : Axis K} {sh : MotionShared K} {inp : CycleInput K}

/-- The sub-states driven by the line. -/
theorem at_of_line
    (hs : t.servoSubState = .servoing ∨ t.servoSubState = .jumpDowningBuffer)
    (hb : t.state = .pausing → t.pauseOrStopSubState = .backingToBegin →
      t.servoSubState = .servoing) :
    t.At g ↔ t.lineTraj.OnLine ∧ t.jumpPmHandler.isOver ∧ t.lineTraj.currPos = g := by
  unfold At
  rcases hs with hs | hs <;> simp only [hs]
  · simp
  · constructor
    · rintro ⟨h1, _, h2⟩
      exact ⟨h1, h2⟩
    · rintro ⟨h1, h2⟩
      exact ⟨h1, by simpa [hs] using hb, h2⟩

theorem at_servoing (hs : t.servoSubState = .servoing) (hline : t.lineTraj.OnLine)
    (hover : t.jumpPmHandler.isOver) (hpos : t.lineTraj.currPos = g) : t.At g :=
  (at_of_line (.inl hs) fun _ _ => hs).mpr ⟨hline, hover, hpos⟩

theorem at_of_jumpUping (hs : t.servoSubState = .jumpUping) :
    t.At g ↔ t.lineTraj.OnLine ∧
      (t.state = .pausing → t.pauseOrStopSubState ≠ .backingToBegin) ∧ t.Jumping ∧
      t.jumpPmHandler.At g ∧ t.jumpPmHandler.state = .running ∧
      t.jumpPmHandler.targetPos = t.jumpUpTargetPos := by
  simp only [At, hs, reduceCtorEq, imp_false, ne_eq]

theorem at_of_jumpDowning (hs : t.servoSubState = .jumpDowning) :
    t.At g ↔ t.lineTraj.OnLine ∧
      (t.state = .pausing → t.pauseOrStopSubState ≠ .backingToBegin) ∧ t.Jumping ∧
      t.jumpPmHandler.At g ∧
      (t.jumpPmHandler.state = .running ∨
        t.jumpPmHandler.isOver ∧ t.jumpPmHandler.currPos = t.jumpPmHandler.targetPos) ∧
      ∀ i, t.jumpPmHandler.targetPos i = t.jumpUpTargetPos i +
        t.lineTraj.unitVector i * (t.jumpingParam.upBlu - t.jumpingParam.bufferBlu) := by
  simp only [At, hs, reduceCtorEq, imp_false, ne_eq]

variable [FloorRing K] [Settings]

/-- The check only changes the parameters of the jump; what it lets pass fits the line. -/
theorem checkAndValidateJumpHeight_spec (t : G01AutoTask K) :
    ∃ jp, t.checkAndValidateJumpHeight.1 = { t with jumpingParam := jp } ∧
      (t.checkAndValidateJumpHeight.2 = true → 0 ≤ t.lineTraj.currLength →
        0 ≤ t.jumpingParam.bufferBlu →
        0 ≤ jp.bufferBlu ∧ jp.bufferBlu ≤ t.lineTraj.currLength) := by
  unfold checkAndValidateJumpHeight
  extract_lets limit jp jp₁ jp₂
  have hjp₁ : jp₁.bufferBlu = t.jumpingParam.bufferBlu := by
    simp only [jp₁]
    split <;> rfl
  have hjp₂ : (0 ≤ t.lineTraj.currLength → 0 ≤ t.jumpingParam.bufferBlu → 0 ≤ jp₂.bufferBlu) ∧
      jp₂.bufferBlu ≤ t.lineTraj.currLength := by
    simp only [jp₂]
    split
    · exact ⟨fun h _ => h, le_rfl⟩
    · rename_i hle
      exact ⟨fun _ h => hjp₁ ▸ h, not_lt.mp hle⟩
  split
  · exact ⟨jp₁, rfl, fun h => by simp at h⟩
  · split
    · exact ⟨jp₂, rfl, fun h => by simp at h⟩
    · exact ⟨jp₂, rfl, fun _ h0 hb => ⟨hjp₂.1 h0 hb, hjp₂.2⟩⟩

/-- A planned jump starts where the line stands; one that is not planned leaves the line its mover. -/
theorem At.planJumpUp (h : t.At g) (hs : t.servoSubState = .servoing) (hn : t.state = .normalRunning)
    (hb : 0 ≤ t.jumpingParam.bufferBlu) :
    t.planJumpUp.1.state = .normalRunning ∧
      (t.planJumpUp.2 = false → t.planJumpUp.1.At g ∧ t.planJumpUp.1.servoSubState = .servoing ∧
        t.planJumpUp.1.lineTraj = t.lineTraj) ∧
      (t.planJumpUp.2 = true → ∀ now, { t.planJumpUp.1 with
        servoSubState := .jumpUping, lastSendEnableVotalgeGateTimeNs := now }.At g) := by
  obtain ⟨hline, hover, hpos⟩ := (at_of_line (.inl hs) fun _ _ => hs).mp h
  obtain ⟨jp, hcheck, hjp⟩ := checkAndValidateJumpHeight_spec
    { t with servoingLengthBeforeJump := t.lineTraj.currLength }
  unfold G01AutoTask.planJumpUp
  cases hok : ({ t with servoingLengthBeforeJump := t.lineTraj.currLength } :
      G01AutoTask K).checkAndValidateJumpHeight.2 with
  | false =>
    simp only [hok, hcheck, Bool.not_false, if_true]
    refine ⟨hn, fun _ => ⟨?_, hs, trivial⟩, fun hret => absurd hret (by simp)⟩
    exact at_servoing hs hline hover hpos
  | true =>
    obtain ⟨hb0, hb1⟩ := hjp hok hline.nonneg hb
    simp only [hok, hcheck, Bool.not_true, Bool.false_eq_true, if_false]
    refine ⟨hn, fun hret => ⟨?_, hs, trivial⟩, fun hret now => ?_⟩
    · exact at_servoing hs hline (PointMoveHandler.start_over hover _ _ _ hret) hpos
    · refine (at_of_jumpUping rfl).mpr ⟨hline, fun hp => absurd (hp.symm.trans hn) (by simp),
        ⟨rfl, hb0, hb1, fun i => rfl⟩, hpos ▸ PointMoveHandler.start_at hover _ _ _, ?_, rfl⟩
      rcases t.jumpPmHandler.start_cases jp.speedParam t.lineTraj.currPos
        (fun i => t.lineTraj.currPos i - t.lineTraj.unitVector i * jp.upBlu) with
        ⟨_, hr, _⟩ | ⟨hr, _, _⟩
      · exact hr
      · exact absurd (hr.symm.trans hret) (by simp)

theorem At.servoingCheckAndPlanJump (h : t.At sh.globalCmdAxis) (hs : t.servoSubState = .servoing)
    (hn : t.state = .normalRunning) (hb : 0 ≤ sh.jumpParam.bufferBlu) (inp : CycleInput K) :
    let res := t.servoingCheckAndPlanJump sh inp
    res.1.At sh.globalCmdAxis ∧ res.2.1.globalCmdAxis = sh.globalCmdAxis ∧
      res.1.state = .normalRunning ∧
      (res.2.2 = false → res.1.servoSubState = .servoing ∧ res.1.lineTraj = t.lineTraj) := by
  obtain ⟨hline, hover, hpos⟩ := (at_of_line (.inl hs) fun _ _ => hs).mp h
  -- with other parameters, and with the clock set, the task stands where it stood
  have hat₁ : { t with jumpingParam := sh.jumpParam }.At sh.globalCmdAxis :=
    at_servoing hs hline hover hpos
  have hat₂ : { t with jumpingParam := sh.jumpParam, lastJumpEndTimeMs := inp.nowMs }.At
      sh.globalCmdAxis :=
    at_servoing hs hline hover hpos
  obtain ⟨hst, hno, hyes⟩ := hat₂.planJumpUp hs hn hb
  simp only [G01AutoTask.servoingCheckAndPlanJump]
  split
  · exact ⟨h, rfl, hn, fun _ => ⟨hs, rfl⟩⟩
  split
  · exact ⟨hat₁, rfl, hn, fun _ => ⟨hs, rfl⟩⟩
  split
  · exact ⟨hat₂, rfl, hn, fun _ => ⟨hs, rfl⟩⟩
  split
  · exact ⟨hat₂, rfl, hn, fun _ => ⟨hs, rfl⟩⟩
  split
  · rename_i hplan
    obtain ⟨hat₃, hsub, hl⟩ := hno (by simpa using hplan)
    exact ⟨hat₃, rfl, hst, fun _ => ⟨hsub, hl⟩⟩
  · rename_i hplan
    exact ⟨hyes (by simpa using hplan) _, rfl, hst, fun hfalse => absurd hfalse (by simp)⟩

/-- The mover of a running discharge task. -/
def servoMover (t : G01AutoTask K) (sh : MotionShared K) (inp : CycleInput K) : Mover K :=
  match t.servoSubState with
  | .servoing =>
    if (t.servoingCheckAndPlanJump sh inp).2.2 then .rest else .line t.lineTraj (servoCmd inp)
  | .jumpUping | .jumpDowning => .point t.jumpPmHandler
  | .jumpDowningBuffer =>
    let cmd := servoCmd inp
    let remaining := t.servoingLengthBeforeJump - t.lineTraj.currLength
    if cmd > 0 then .line t.lineTraj (if cmd ≥ remaining ∨ remaining ≤ 0 then remaining else cmd)
    else .rest

def mover (t : G01AutoTask K) (sh : MotionShared K) (inp : CycleInput K) : Mover K :=
  match t.state with
  | .normalRunning => t.servoMover sh inp
  | .pausing | .stopping =>
    match t.pauseOrStopSubState with
    | .waitingForJumpEnd => if t.servoSubState = .servoing then .rest else t.servoMover sh inp
    | .backingToBegin =>
      if t.state = .pausing then .line t.lineTraj (-t.pauseReturnBackStep.1) else .rest
  | .paused | .resuming | .stopped => .rest

/-- After a cycle: the task stands at the commanded axis, and its mover led there. -/
def CycleAt (sh : MotionShared K) (m : Mover K)
    (res : G01AutoTask K × MotionShared K) : Prop :=
  res.1.At res.2.globalCmdAxis ∧ m.Leads sh.globalCmdAxis res.2.globalCmdAxis

variable [IsStrictOrderedRing K] [LawfulSqrt K]

/-- A step along the line. -/
theorem line_leads {l : TrajectoryLinearSegement K} (hline : l.OnLine) (hpos : l.currPos = g)
    (inc : K) :
    (l.runOnce inc).OnLine ∧ (Mover.line l inc).Leads g (l.runOnce inc).currPos := by
  refine ⟨hline.runOnce inc, hpos, fun i => ?_⟩
  rw [← hpos]
  exact hline.setCurrLength_currPos _ i

/-- Servoing steps along the line, and stands still without a servo speed. -/
theorem At.servoingDoServothings (h : t.At g) (hs : t.servoSubState = .servoing)
    (sh : MotionShared K) (inp : CycleInput K) :
    let res := t.servoingDoServothings sh inp
    res.1.At res.2.1.globalCmdAxis ∧
      (Mover.line t.lineTraj (servoCmd inp)).Leads g res.2.1.globalCmdAxis ∧
      res.1.servoSubState = .servoing := by
  obtain ⟨hline, hover, hpos⟩ := (at_of_line (.inl hs) fun _ _ => hs).mp h
  simp only [G01AutoTask.servoingDoServothings]
  split
  · obtain ⟨hline', hleads⟩ := line_leads hline hpos (servoCmd inp)
    exact ⟨at_servoing hs hline' hover rfl, hleads, hs⟩
  · rename_i hcmd
    have hcmd : servoCmd inp = 0 := not_not.mp hcmd
    refine ⟨at_servoing hs hline hover rfl, ⟨hpos, fun i => ?_⟩, hs⟩
    simp only [Mover.increment, hcmd, add_zero, MotionShared.setGlobalCmdAxis,
      TrajectoryLinearSegement.validate_of_mem hline.nonneg hline.le_total, sub_self, mul_zero, hpos]

theorem At.servoSubstateServoing (h : t.At sh.globalCmdAxis) (hs : t.servoSubState = .servoing)
    (hn : t.state = .normalRunning) (hb : 0 ≤ sh.jumpParam.bufferBlu) :
    CycleAt sh (t.servoMover sh inp) (t.servoSubstateServoing sh inp) := by
  obtain ⟨hat, hg, hst, hno⟩ := h.servoingCheckAndPlanJump hs hn hb inp
  simp only [servoMover, hs, G01AutoTask.servoSubstateServoing]
  split
  · refine ⟨?_, ?_⟩
    · rw [hg]
      exact hat
    · simp only [hg]
      exact Mover.rest_leads _
  · rename_i hplan
    obtain ⟨hs', hl⟩ := hno (by simpa using hplan)
    obtain ⟨hat', hleads, hs''⟩ := hat.servoingDoServothings hs'
      (t.servoingCheckAndPlanJump sh inp).2.1 inp
    rw [hl] at hleads
    obtain ⟨hline, hover, hpos⟩ := (at_of_line (.inl hs'') fun _ _ => hs'').mp hat'
    split
    · exact ⟨at_servoing hs'' hline hover hpos, hleads⟩
    · exact ⟨hat', hleads⟩

/-- Sending the voltage gate again changes only its clock. -/
theorem multiSend_eq (t : G01AutoTask K) (sh : MotionShared K) (inp : CycleInput K) (on : Bool) :
    ∃ now,
    (t.multiSend sh inp on).1 = { t with lastSendEnableVotalgeGateTimeNs := now } ∧
      (t.multiSend sh inp on).2.globalCmdAxis = sh.globalCmdAxis := by
  unfold multiSend
  split
  · exact ⟨_, rfl, rfl⟩
  · exact ⟨t.lastSendEnableVotalgeGateTimeNs, rfl, rfl⟩

/-- Up: when the point move is over it stands at the highest point, and the way down starts there. -/
theorem At.servoSubstateJumpuping (h : t.At sh.globalCmdAxis) (hs : t.servoSubState = .jumpUping)
    (he : t.jumpPmHandler.RunsOutAtTarget) :
    CycleAt sh (.point t.jumpPmHandler) (t.servoSubstateJumpuping sh inp) := by
  obtain ⟨hline, hback, hjump, hat, hrun, htarget⟩ := (at_of_jumpUping hs).mp h
  obtain ⟨hat', hleads⟩ := hat.runOnce
  obtain ⟨now, hsend, hg⟩ := multiSend_eq { t with jumpPmHandler := t.jumpPmHandler.runOnce }
    (sh.setGlobalCmdAxis t.jumpPmHandler.runOnce.currPos) inp false
  have hg' : (t.servoSubstateJumpuping sh inp).2.globalCmdAxis = t.jumpPmHandler.runOnce.currPos := by
    simp only [G01AutoTask.servoSubstateJumpuping]
    split
    · exact hg
    · exact hg
  rw [CycleAt, hg']
  refine ⟨?_, hleads⟩
  simp only [G01AutoTask.servoSubstateJumpuping, hsend]
  split
  · rename_i hover
    have hend : t.jumpPmHandler.runOnce.currPos = t.jumpUpTargetPos := by
      rcases t.jumpPmHandler.runOnce_state with hst | ⟨_, hst⟩ | ⟨hst, _⟩ | ⟨hst, _⟩
      · rw [PointMoveHandler.isOver_iff, hst, hrun] at hover
        simp at hover
      · rw [he.1 hrun hst, htarget]
      · simp [hrun] at hst
      · simp [hrun] at hst
    rw [hend]
    refine (at_of_jumpDowning rfl).mpr ⟨hline, hback, hjump,
      PointMoveHandler.start_at hover _ _ _, ?_, fun i => rfl⟩
    rcases t.jumpPmHandler.runOnce.start_cases t.jumpingParam.speedParam t.jumpUpTargetPos
      (fun i => t.jumpUpTargetPos i +
        t.lineTraj.unitVector i * (t.jumpingParam.upBlu - t.jumpingParam.bufferBlu)) with
      ⟨_, hr, _⟩ | ⟨hret, _, hlen⟩
    · exact .inl hr
    · refine .inr ⟨PointMoveHandler.start_over hover _ _ _ hret, ?_⟩
      by_contra hne
      exact absurd (axisLengthBetween_pos hne) (not_lt.mpr hlen)
  · rename_i hover
    refine (at_of_jumpUping (t := { t with
      jumpPmHandler := t.jumpPmHandler.runOnce, lastSendEnableVotalgeGateTimeNs := now }) hs).mpr
      ⟨hline, hback, hjump, hat', ?_, ?_⟩
    · rcases t.jumpPmHandler.runOnce_state with hst | ⟨_, hst⟩ | ⟨hst, _⟩ | ⟨hst, _⟩
      · exact hst.trans hrun
      · exact absurd (PointMoveHandler.isOver_iff.mpr (.inl hst)) hover
      · simp [hrun] at hst
      · simp [hrun] at hst
    · exact PointMoveHandler.runOnce_targetPos.trans htarget

/-- The line set back by the buffer stands where the way down ends. -/
theorem Jumping.setCurrLength (h : t.Jumping) (hline : t.lineTraj.OnLine) :
    (t.lineTraj.setCurrLength (t.servoingLengthBeforeJump - t.jumpingParam.bufferBlu)).OnLine ∧
      ∀ i, (t.lineTraj.setCurrLength
        (t.servoingLengthBeforeJump - t.jumpingParam.bufferBlu)).currPos i =
          t.jumpUpTargetPos i +
            t.lineTraj.unitVector i * (t.jumpingParam.upBlu - t.jumpingParam.bufferBlu) := by
  obtain ⟨hlen, hb0, hb1, hup⟩ := h
  refine ⟨hline.toProper.setCurrLength _, fun i => ?_⟩
  have hle := hline.le_total
  have hvalid : t.lineTraj.validate (t.lineTraj.currLength - t.jumpingParam.bufferBlu) =
      t.lineTraj.currLength - t.jumpingParam.bufferBlu :=
    TrajectoryLinearSegement.validate_of_mem (by linarith) (by linarith)
  rw [hlen, hline.setCurrLength_currPos, hvalid, hup]
  ring

/-- Down: when the point move is over the line takes over where it stands. -/
theorem At.servoSubstateJumpdowning (h : t.At sh.globalCmdAxis)
    (hs : t.servoSubState = .jumpDowning) (he : t.jumpPmHandler.RunsOutAtTarget) :
    CycleAt sh (.point t.jumpPmHandler) (t.servoSubstateJumpdowning sh inp) := by
  obtain ⟨hline, hback, hjump, hat, hrun, htarget⟩ := (at_of_jumpDowning hs).mp h
  obtain ⟨hat', hleads⟩ := hat.runOnce
  obtain ⟨now, hsend, hg⟩ := multiSend_eq { t with jumpPmHandler := t.jumpPmHandler.runOnce }
    (sh.setGlobalCmdAxis t.jumpPmHandler.runOnce.currPos) inp true
  have hg' : (t.servoSubstateJumpdowning sh inp).2.globalCmdAxis =
      t.jumpPmHandler.runOnce.currPos := by
    simp only [G01AutoTask.servoSubstateJumpdowning]
    split
    · exact hg
    · exact hg
  -- a point move that is over stands at its target
  have hend (hover : t.jumpPmHandler.runOnce.isOver) :
      t.jumpPmHandler.runOnce.currPos = t.jumpPmHandler.targetPos := by
    rcases hrun with hrun | ⟨hover', hpos⟩
    · rcases t.jumpPmHandler.runOnce_state with hst | ⟨_, hst⟩ | ⟨hst, _⟩ | ⟨hst, _⟩
      · rw [PointMoveHandler.isOver_iff, hst, hrun] at hover
        simp at hover
      · exact he.1 hrun hst
      · simp [hrun] at hst
      · simp [hrun] at hst
    · rw [(PointMoveHandler.runOnce_of_over hover').1, hpos]
  rw [CycleAt, hg']
  refine ⟨?_, hleads⟩
  simp only [G01AutoTask.servoSubstateJumpdowning, hsend]
  split
  · rename_i hover
    obtain ⟨hline', hpos'⟩ := hjump.setCurrLength hline
    refine (at_of_line (t := { t with
      jumpPmHandler := t.jumpPmHandler.runOnce
      lastSendEnableVotalgeGateTimeNs := now
      lineTraj := t.lineTraj.setCurrLength (t.servoingLengthBeforeJump - t.jumpingParam.bufferBlu)
      servoSubState := .jumpDowningBuffer }) (.inr rfl) fun hp hb => absurd hb (hback hp)).mpr
      ⟨hline', hover, ?_⟩
    rw [hend hover]
    funext i
    rw [hpos', htarget]
  · rename_i hover
    refine (at_of_jumpDowning (t := { t with
      jumpPmHandler := t.jumpPmHandler.runOnce, lastSendEnableVotalgeGateTimeNs := now }) hs).mpr
      ⟨hline, hback, hjump, hat', .inl ?_, ?_⟩
    · rcases hrun with hrun | ⟨hover', _⟩
      · rcases t.jumpPmHandler.runOnce_state with hst | ⟨_, hst⟩ | ⟨hst, _⟩ | ⟨hst, _⟩
        · exact hst.trans hrun
        · exact absurd (PointMoveHandler.isOver_iff.mpr (.inl hst)) hover
        · simp [hrun] at hst
        · simp [hrun] at hst
      · exact absurd (PointMoveHandler.runOnce_of_over hover').2.2 hover
    · intro i
      simpa using htarget i

theorem At.servoSubstateJumpdowningbuffer (h : t.At sh.globalCmdAxis)
    (hs : t.servoSubState = .jumpDowningBuffer) :
    CycleAt sh (t.servoMover sh inp) (t.servoSubstateJumpdowningbuffer sh inp) := by
  have hback : t.state = .pausing → t.pauseOrStopSubState ≠ .backingToBegin := by
    intro hp hb
    exact absurd ((h.2.1 hp hb).symm.trans hs) (by simp)
  obtain ⟨hline, hover, hpos⟩ :=
    (at_of_line (.inr hs) fun hp hb => absurd hb (hback hp)).mp h
  simp only [servoMover, hs, G01AutoTask.servoSubstateJumpdowningbuffer]
  split
  · obtain ⟨hline', hleads⟩ := line_leads hline hpos
      (if servoCmd inp ≥ t.servoingLengthBeforeJump - t.lineTraj.currLength ∨
        t.servoingLengthBeforeJump - t.lineTraj.currLength ≤ 0
        then t.servoingLengthBeforeJump - t.lineTraj.currLength else servoCmd inp)
    split
    · rename_i hb
      rw [if_pos hb] at hline' hleads
      exact ⟨at_servoing rfl hline' hover rfl, hleads⟩
    · rename_i hb
      rw [if_neg hb] at hline' hleads
      exact ⟨(at_of_line (t := { t with
        lineTraj := t.lineTraj.runOnce (servoCmd inp), servoSubState := .jumpDowningBuffer })
        (.inr rfl) fun hp hb => absurd hb (hback hp)).mpr ⟨hline', hover, rfl⟩, hleads⟩
  · exact ⟨at_servoing rfl hline hover hpos, Mover.rest_leads _⟩

/-- Changing the main state and what a pause or stop is doing leaves the task where it is. -/
theorem At.changeState (h : t.At g) {st : State} {sub : PauseOrStopSubState}
    (hb : st = .pausing → sub = .backingToBegin → t.servoSubState = .servoing) (gone : K) :
    { t with
      state := st, pauseOrStopSubState := sub, pauseReturnBackCurrentGoneBlu := gone }.At g :=
  ⟨h.1, hb, h.2.2⟩

theorem At.pause (h : t.At g) : t.pause.1.At g := by
  unfold G01AutoTask.pause
  cases hs : t.state with
  | normalRunning => exact h.changeState (by simp) t.pauseReturnBackCurrentGoneBlu
  | _ => exact h

theorem At.resume (h : t.At g) : t.resume.1.At g := by
  unfold G01AutoTask.resume
  cases hs : t.state with
  | paused => exact ⟨h.1, by simp, h.2.2⟩
  | _ => exact h

theorem At.stop (h : t.At g) (imm : Bool) : (t.stop imm).1.At g := by
  unfold G01AutoTask.stop
  cases hs : t.state with
  | normalRunning | pausing | paused | resuming =>
    exact h.changeState (by simp) t.pauseReturnBackCurrentGoneBlu
  | _ => exact h

/-- The retreat before a pause goes back along the line. -/
theorem At.pauseReturnBack (h : t.At g) (hs : t.servoSubState = .servoing)
    (sh : MotionShared K) :
    let res := t.pauseReturnBack sh
    res.1.At res.2.1.globalCmdAxis ∧
      (Mover.line t.lineTraj (-t.pauseReturnBackStep.1)).Leads g res.2.1.globalCmdAxis ∧
      res.1.servoSubState = .servoing := by
  obtain ⟨hline, hover, hpos⟩ := (at_of_line (.inl hs) fun _ _ => hs).mp h
  obtain ⟨hline', hleads⟩ := line_leads hline hpos (-t.pauseReturnBackStep.1)
  exact ⟨at_servoing hs hline' hover rfl, hleads, hs⟩

/-- Pausing and stopping: the jump is finished first, then the task backs or ends. -/
theorem At.statePausingOrStopping (h : t.At sh.globalCmdAxis) {target : State}
    (ht : t.state = .pausing ∧ target = .paused ∨ t.state = .stopping ∧ target = .stopped)
    (he : t.jumpPmHandler.RunsOutAtTarget) :
    CycleAt sh (t.mover sh inp) (t.statePausingOrStopping sh inp target) := by
  have hmover : t.mover sh inp = match t.pauseOrStopSubState with
      | .waitingForJumpEnd => if t.servoSubState = .servoing then .rest else t.servoMover sh inp
      | .backingToBegin =>
        if t.state = .pausing then .line t.lineTraj (-t.pauseReturnBackStep.1) else .rest := by
    rcases ht with ⟨hst, _⟩ | ⟨hst, _⟩ <;> simp only [mover, hst]
  rw [hmover]
  unfold G01AutoTask.statePausingOrStopping
  cases hsub : t.pauseOrStopSubState with
  | waitingForJumpEnd =>
    cases hs : t.servoSubState with
    | servoing =>
      refine ⟨?_, Mover.rest_leads _⟩
      obtain ⟨hline, hover, hpos⟩ := (at_of_line (.inl hs) fun _ _ => hs).mp h
      simp only
      split
      · exact at_servoing rfl hline hover hpos
      · exact at_servoing hs hline hover hpos
    | jumpUping =>
      simpa only [servoMover, hs, reduceCtorEq, if_false] using h.servoSubstateJumpuping hs he
    | jumpDowning =>
      simpa only [servoMover, hs, reduceCtorEq, if_false] using h.servoSubstateJumpdowning hs he
    | jumpDowningBuffer => exact h.servoSubstateJumpdowningbuffer hs
  | backingToBegin =>
    rcases ht with ⟨hst, rfl⟩ | ⟨hst, rfl⟩
    · have hs := h.2.1 hst hsub
      obtain ⟨hat, hleads, hs'⟩ := h.pauseReturnBack hs sh
      simp only [hst, backToBeginWhenPause, reduceCtorEq, false_and, if_false, Bool.not_false,
        and_self, if_true]
      split
      · exact ⟨hat, hleads⟩
      · exact ⟨⟨hat.1, by simp, hat.2.2⟩, hleads⟩
    · simp only [hst, backToBeginWhenStop, Bool.not_false, and_self, if_true, reduceCtorEq,
        if_false]
      exact ⟨⟨h.1, by simp, h.2.2⟩, Mover.rest_leads _⟩

/-- A cycle of the discharge task. -/
theorem At.runOnce (h : t.At sh.globalCmdAxis) (he : t.jumpPmHandler.RunsOutAtTarget)
    (hb : 0 ≤ sh.jumpParam.bufferBlu) :
    CycleAt sh (t.mover sh inp) (t.runOnce sh inp) := by
  unfold G01AutoTask.runOnce
  cases hst : t.state with
  | normalRunning =>
    simp only [mover, hst, stateNormalRunning]
    cases hs : t.servoSubState with
    | servoing => exact h.servoSubstateServoing hs hst hb
    | jumpUping => simpa only [servoMover, hs] using h.servoSubstateJumpuping hs he
    | jumpDowning => simpa only [servoMover, hs] using h.servoSubstateJumpdowning hs he
    | jumpDowningBuffer => exact h.servoSubstateJumpdowningbuffer hs
  | pausing => exact h.statePausingOrStopping (.inl ⟨hst, rfl⟩) he
  | stopping => exact h.statePausingOrStopping (.inr ⟨hst, rfl⟩) he
  | resuming =>
    simp only [mover, hst, stateResuming]
    exact ⟨⟨h.1, by simp, h.2.2⟩, Mover.rest_leads _⟩
  | _ =>
    simp only [mover, hst]
    exact ⟨h, Mover.rest_leads _⟩

/-- A new task stands where it was built. -/
theorem new_at (target : Axis K) (height : K) (nowMs hrNowNs : ℤ) :
    (G01AutoTask.new (.new sh.globalCmdAxis target) height sh nowMs hrNowNs).1.At
      sh.globalCmdAxis :=
  at_servoing rfl (TrajectoryLinearSegement.new_onLine _ _) rfl rfl

end G01AutoTask

end Edm
