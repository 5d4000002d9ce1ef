import Edm.App.DrillLimits

/-!
# The detection of the breakthrough

A drilling task with the detection on looks for the breakthrough from some depth on (`detectState` 0),
follows it down to a limit (1) and stays where it is for a while (2). What it needs for that is set where
it touches the workpiece; a task that does not touch finds in `runtime_` whatever was in memory.
`newOn` is the constructor over such a memory. `DetectCase` lists what a cycle can do to the detection.
-/

set_option linter.unusedSectionVars false

namespace Edm

variable {K : Type} [Field K] [LinearOrder K]

namespace DrillAutoTask

/-- The constructor, which finds `r` in the fields of `runtime_` it does not set. -/
def newOn (r : Runtime K) (p : DrillStartParams K) (sh : MotionShared K) :
    DrillAutoTask K × MotionShared K :=
  let t : DrillAutoTask K := ⟨.idle, false, p, 0, 1000, r⟩
  let t :=
    if p.touch then { t with drillState := .prepareTouch }
    else
      let start := currentPos sh
      { t with
        drillState := .prepareDrill
        runtime := { t.runtime with
          machStartPos := start
          machTargetPos := start - UnitConverter.um2blu p.depthUm
          machOverBackReturnPos := start } }
  (t, { sh with
    currentDrillTotalBlu := UnitConverter.um2blu p.depthUm
    breakoutDetected := false })

theorem newOn_cleared (p : DrillStartParams K) (sh : MotionShared K) :
    newOn .cleared p sh = new p sh := rfl

/-- No trace of a breakthrough, and it is not looked for. -/
def Runtime.Unseen (r : Runtime K) : Prop := r.detectState = 0 ∧ r.startBreakthroughDetect = false

/-- A drilling task whose axis is below `startDetectPos` is below `x`. -/
def Runtime.Late (r : Runtime K) (x : K) : Prop :=
  r.startDetectPos ≤ max x (min r.machTargetPos r.machStartPos) ∨ r.machStartPos < x

/-- Where the breakthrough is to be looked for: the part `percent` of the depth below the position
touched, or below `x0`, where a task that does not touch begins. -/
def detectFrom (t : DrillAutoTask K) (x0 percent : K) : K :=
  (if t.startParams.touch then t.runtime.touchedPos else x0) -
    percent * UnitConverter.um2blu t.startParams.depthUm

/-- What the detection has to do with the state of the task; `P` is what it may rely on. -/
def Stage (x0 percent : K) (P : K → Prop) (t : DrillAutoTask K) : Prop :=
  match t.drillState with
  | .prepareTouch | .prepareTouchDelaying | .touching => t.startParams.touch = true
  | .touchedBacking =>
    t.runtime.Unseen ∧ t.runtime.startDetectPos ≤ t.detectFrom x0 percent
  | .prepareDrill | .prepareDrillDelaying =>
    t.runtime.Unseen ∧ t.runtime.Late (t.detectFrom x0 percent)
  | .drilling =>
    if t.runtime.startBreakthroughDetect then P (t.detectFrom x0 percent)
    else t.runtime.Late (t.detectFrom x0 percent)
  | .idle | .prepareBack | .prepareBackDelaying | .returnBacking => True

/-- The breakthrough is looked for. -/
def evaluates (t : DrillAutoTask K) : Bool :=
  t.drillState = .drilling && t.runtime.startBreakthroughDetect

/-- Drilling is over or the task was stopped. -/
def DrillState.past : DrillState → Bool
  | .prepareBack | .prepareBackDelaying | .returnBacking | .idle => true
  | _ => false

theorem DrillState.ne_drilling_of_past {a : DrillState} (h : a.past = true) : a ≠ .drilling := by
  rintro rfl
  cases h

/-- The clock at which a task that waits at the breakthrough goes on, as it computes it. -/
def waitEndMs (t : DrillAutoTask K) (dp : DrillParams K) : ℤ :=
  (t.runtime.breakoutEndJudgedTimeMs + dp.waitTimeMsAfterBreakoutEndJudged) % 2 ^ 32

/-- The runtime once the breakthrough has been seen at `pos`. -/
def Runtime.seenAt (r : Runtime K) (pos maxMove : K) : Runtime K :=
  { r with
    detectState := 1
    breakoutStartDetectedPos := pos
    minPosAfterBreakoutStartDetected := pos - maxMove }

/-- The runtime once the end of the breakthrough was judged. -/
def Runtime.judgedAt (r : Runtime K) (clockMs : ℤ) : Runtime K :=
  { r with breakoutEndJudgedTimeMs := clockMs % 2 ^ 32, detectState := 2 }

/-- What the servo and the detection do to the runtime and to the axis, and whether the hole is through. -/
inductive DetectCase (t : DrillAutoTask K) (sh : MotionShared K) (inp : CycleInput K) :
    Runtime K → K → Bool → Prop where
  /-- Not yet at the depth from which on the breakthrough is looked for. -/
  | above (pos : K) (hf : t.runtime.startBreakthroughDetect = false)
      (hpos : ¬pos < t.runtime.startDetectPos) : DetectCase t sh inp t.runtime pos false
  | arrives (pos : K) (hf : t.runtime.startBreakthroughDetect = false)
      (hpos : pos < t.runtime.startDetectPos) :
      DetectCase t sh inp { t.runtime with startBreakthroughDetect := true } pos false
  | looks (pos : K) (hf : t.runtime.startBreakthroughDetect = true)
      (hd : t.runtime.detectState ≠ 1 ∧ t.runtime.detectState ≠ 2) :
      DetectCase t sh inp t.runtime pos false
  | sees (pos : K) (hf : t.runtime.startBreakthroughDetect = true)
      (hd : t.runtime.detectState ≠ 1 ∧ t.runtime.detectState ≠ 2) :
      DetectCase t sh inp
        (t.runtime.seenAt pos sh.drillParams.maxMoveUmAfterBreakoutStartDetected) pos false
  | follows (pos : K) (hf : t.runtime.startBreakthroughDetect = true)
      (hd : t.runtime.detectState = 1)
      (hpos : t.runtime.minPosAfterBreakoutStartDetected ≤ pos) : DetectCase t sh inp t.runtime pos false
  | judges (pos : K) (hf : t.runtime.startBreakthroughDetect = true)
      (hd : t.runtime.detectState = 1)
      (hpos : t.runtime.minPosAfterBreakoutStartDetected ≤ pos) :
      DetectCase t sh inp (t.runtime.judgedAt (currentTimeMs inp)) pos false
  | waits (hf : t.runtime.startBreakthroughDetect = true) (hd : t.runtime.detectState = 2) :
      DetectCase t sh inp t.runtime (currentPos sh)
        (decide (currentTimeMs inp > t.waitEndMs sh.drillParams))

/-- A task that waits does nothing else. -/
theorem DetectCase.waiting {t : DrillAutoTask K} {sh : MotionShared K} {inp : CycleInput K}
    {r : Runtime K} {pos : K} {through : Bool} (hd : DetectCase t sh inp r pos through)
    (hf : t.runtime.startBreakthroughDetect = true) (hstate : t.runtime.detectState = 2) :
    r = t.runtime ∧ pos = currentPos sh ∧
      through = decide (currentTimeMs inp > t.waitEndMs sh.drillParams) := by
  cases hd with
  | above _ hf' => simp [hf] at hf'
  | arrives _ hf' => simp [hf] at hf'
  | looks _ _ hd' => exact absurd hstate hd'.2
  | sees _ _ hd' => exact absurd hstate hd'.2
  | follows _ _ hd' => simp [hstate] at hd'
  | judges _ _ hd' => simp [hstate] at hd'
  | waits => exact ⟨rfl, rfl, rfl⟩

section Cycle

variable (t : DrillAutoTask K) (sh : MotionShared K) (inp : CycleInput K)

@[simp] theorem judgeBreakoutEnd_pos : currentPos (judgeBreakoutEnd t sh inp).2 = currentPos sh := rfl

@[simp] theorem judgeBreakoutEnd_runtime :
    (judgeBreakoutEnd t sh inp).1.runtime = t.runtime.judgedAt (currentTimeMs inp) := rfl

theorem drillingBreakthrough_detects (hf : t.runtime.startBreakthroughDetect = true) (servoDis : K) :
    DetectCase t sh inp (t.drillingBreakthrough sh inp servoDis).1.runtime
      (currentPos (t.drillingBreakthrough sh inp servoDis).2.1)
      (t.drillingBreakthrough sh inp servoDis).2.2 := by
  unfold drillingBreakthrough
  dsimp only
  by_cases h1 : t.runtime.detectState = 1
  · rw [if_pos h1]
    generalize (if flagSet _ 1 = true then _ else servoDis) = dis
    split
    · simp only [judgeBreakoutEnd_pos, judgeBreakoutEnd_runtime, currentPos_setCurrentPos]
      exact .judges _ hf h1 le_rfl
    · rename_i hmin
      split
      · simp only [judgeBreakoutEnd_pos, judgeBreakoutEnd_runtime]
        exact .judges _ hf h1 (not_lt.mp hmin)
      · exact .follows _ hf h1 (not_lt.mp hmin)
  · rw [if_neg h1]
    by_cases h2 : t.runtime.detectState = 2
    · rw [if_pos h2]
      have hcase : DetectCase t sh inp t.runtime (currentPos sh)
          (decide (currentTimeMs inp > t.waitEndMs sh.drillParams)) := .waits hf h2
      split
      · rename_i hnow
        rwa [decide_eq_true (by exact hnow)] at hcase
      · rename_i hnow
        rwa [decide_eq_false (by exact hnow)] at hcase
    · rw [if_neg h2]
      by_cases hkn : (inp.lastKnCnt : ℤ) > sh.drillParams.knValidRateOkCntThreshold
      · rw [if_pos (decide_eq_true hkn)]
        exact .sees _ hf ⟨h1, h2⟩
      · rw [if_neg (by simpa using hkn)]
        exact .looks _ hf ⟨h1, h2⟩

variable [Settings]

theorem drillingServo_detects (hb : t.startParams.breakout = true) :
    DetectCase t sh inp (t.drillingServo sh inp).1.runtime (currentPos (t.drillingServo sh inp).2.1)
      (t.drillingServo sh inp).2.2 := by
  simp only [drillingServo, hb, Bool.not_true, Bool.false_eq_true, if_false]
  by_cases hf : t.runtime.startBreakthroughDetect = true
  · have hcase := drillingBreakthrough_detects t sh inp hf
      (UnitConverter.mmMin2bluP inp.servoCalcedSpeedMmMin)
    have hkeep : (t.drillingBreakthrough sh inp
        (UnitConverter.mmMin2bluP inp.servoCalcedSpeedMmMin)).1.runtime.startBreakthroughDetect = true := by
      generalize t.drillingBreakthrough sh inp _ = res at hcase
      obtain ⟨t', sh', through⟩ := res
      dsimp only at hcase ⊢
      generalize t'.runtime = r at hcase
      generalize currentPos sh' = pos at hcase
      cases hcase <;> first | assumption | rfl
    simpa only [hf, if_true, hkeep, Bool.not_true, Bool.false_and, Bool.false_eq_true, if_false]
      using hcase
  · have hf : t.runtime.startBreakthroughDetect = false := Bool.eq_false_of_not_eq_true hf
    simp only [hf, Bool.false_eq_true, if_false, Bool.not_false, Bool.true_and, decide_eq_true_eq]
    split
    · rename_i hpos
      exact .arrives _ hf hpos
    · rename_i hpos
      exact .above _ hf hpos

/-- A drilling task that goes on at `x'` after the servo has moved the axis to `x`. -/
def Clamps (r : Runtime K) (x x' : K) : Prop :=
  r.machStartPos ≤ x ∧ x' = r.machStartPos ∨
    r.machTargetPos < x ∧ x < r.machStartPos ∧ x' = x

/-- What the position limits do to an axis at `currentPos sh`. -/
inductive LimitCase (through : Bool) : DrillAutoTask K × MotionShared K → Prop where
  | ends {t' : DrillAutoTask K} {sh' : MotionShared K}
      (hover : through = true ∨
        currentPos sh ≤ t.runtime.machTargetPos ∧ currentPos sh < t.runtime.machStartPos)
      (hs : t'.drillState.past = true)
      (hpos : currentPos sh ≤ currentPos sh' ∨ currentPos sh' = t.runtime.machStartPos) :
      LimitCase through (t', sh')
  | within {sh' : MotionShared K} (hover : through = false)
      (hpos : Clamps t.runtime (currentPos sh) (currentPos sh')) : LimitCase through (t, sh')

theorem drillingLimit_cases (through : Bool) : LimitCase t sh through (t.drillingLimit sh through) := by
  have hend (sh' : MotionShared K)
      (hover : through = true ∨
        currentPos sh ≤ t.runtime.machTargetPos ∧ currentPos sh < t.runtime.machStartPos)
      (hpos : currentPos sh ≤ currentPos sh' ∨ currentPos sh' = t.runtime.machStartPos) :
      LimitCase t sh through (if t.startParams.back then ({ t with drillState := .prepareBack }, sh')
        else (t.clearAllStatus, allPumpAndSpindleOn (machOn sh' false) false)) := by
    split
    · exact .ends hover rfl hpos
    · exact .ends hover rfl hpos
  simp only [drillingLimit]
  by_cases hstart : currentPos sh ≥ t.runtime.machStartPos
  · simp only [hstart, if_true]
    cases through with
    | true => exact hend _ (.inl rfl) (.inr (currentPos_setCurrentPos sh _))
    | false => exact .within rfl (.inl ⟨hstart, currentPos_setCurrentPos sh _⟩)
  · have hlt : currentPos sh < t.runtime.machStartPos := not_le.mp hstart
    by_cases htarget : currentPos sh ≤ t.runtime.machTargetPos
    · simp only [hstart, htarget, if_true, if_false]
      refine hend _ (.inr ⟨htarget, hlt⟩) (.inl (htarget.trans ?_))
      exact (currentPos_setCurrentPos sh _).ge
    · simp only [hstart, htarget, if_false]
      cases through with
      | true => exact hend _ (.inl rfl) (.inl le_rfl)
      | false => exact .within rfl (.inr ⟨not_le.mp htarget, hlt, rfl⟩)

/-- What a drilling cycle with the detection on does. -/
inductive DrillingCase : DrillAutoTask K × MotionShared K → Prop where
  | ends {r : Runtime K} {pos : K} {through : Bool} {t' : DrillAutoTask K} {sh' : MotionShared K}
      (hd : DetectCase t sh inp r pos through)
      (hover : through = true ∨ pos ≤ t.runtime.machTargetPos ∧ pos < t.runtime.machStartPos)
      (hs : t'.drillState.past = true)
      (hpos : pos ≤ currentPos sh' ∨ currentPos sh' = t.runtime.machStartPos) : DrillingCase (t', sh')
  | goesOn {pos : K} {t' : DrillAutoTask K} {sh' : MotionShared K}
      (hd : DetectCase t sh inp t'.runtime pos false) (hs : t'.drillState = t.drillState)
      (hpos : Clamps t.runtime pos (currentPos sh')) : DrillingCase (t', sh')

theorem drilling_detects (hb : t.startParams.breakout = true) :
    DrillingCase t sh inp (t.drilling sh inp) := by
  have haims := t.drillingServo_sameAims sh inp
  have hon := t.drillingServo_drillsOn sh inp
  have hd := drillingServo_detects t sh inp hb
  simp only [drilling]
  generalize t.drillingServo sh inp = res at haims hon hd
  obtain ⟨t', sh', through⟩ := res
  have haims : SameAims t t' := haims
  have hstate : t'.drillState = t.drillState := hon.drillState
  have hlim := drillingLimit_cases t' sh' through
  generalize t'.drillingLimit sh' through = res at hlim
  cases hlim with
  | ends hover hs hpos =>
    rw [haims.start, haims.target] at hover
    rw [haims.start] at hpos
    exact .ends hd hover hs hpos
  | within hover hpos =>
    unfold Clamps at hpos
    rw [haims.start, haims.target] at hpos
    subst hover
    exact .goesOn hd hstate hpos

end Cycle

/-- The same data and parameters. -/
structure SameData (t t' : DrillAutoTask K) : Prop where
  runtime : t'.runtime = t.runtime
  startParams : t'.startParams = t.startParams

/-- What a cycle means for the detection. -/
inductive DetectStep [Settings] (t : DrillAutoTask K) (sh : MotionShared K) (inp : CycleInput K) :
    DrillAutoTask K × MotionShared K → Prop where
  | rests : DetectStep t sh inp (t, sh)
  /-- On to the next state or not, on the spot. -/
  | prepares {t' : DrillAutoTask K} {sh' : MotionShared K} (hd : SameData t t')
      (hpos : currentPos sh' = currentPos sh)
      (hs : t'.drillState = t.drillState ∨ (t.drillState, t'.drillState) ∈
        [(DrillState.prepareTouch, DrillState.prepareTouchDelaying),
          (.prepareTouchDelaying, .touching), (.prepareDrill, .prepareDrillDelaying),
          (.prepareDrillDelaying, .drilling)]) :
      DetectStep t sh inp (t', sh')
  | touches (hs : t.drillState = .touching) : DetectStep t sh inp (t.touching sh inp)
  | backs (hs : t.drillState = .touchedBacking) : DetectStep t sh inp (t.touchedBacking sh)
  | drills (hp : t.pauseFlag = false) (hs : t.drillState = .drilling) :
      DetectStep t sh inp (t.drilling sh inp)
  | past {res : DrillAutoTask K × MotionShared K} (hs : t.drillState.past = true)
      (hs' : res.1.drillState.past = true) : DetectStep t sh inp res

theorem runOnce_detectStep [Settings] (t : DrillAutoTask K) (sh : MotionShared K) (inp : CycleInput K) :
    DetectStep t sh inp (t.runOnce sh inp) := by
  unfold runOnce
  by_cases hp : t.pauseFlag = true
  · rw [if_pos hp]
    exact .rests
  rw [if_neg hp]
  have hp : t.pauseFlag = false := Bool.eq_false_of_not_eq_true hp
  split <;> rename_i hs
  · exact .rests
  · exact .prepares ⟨rfl, rfl⟩ rfl (by simp [hs])
  · unfold delaying
    split
    · exact .prepares ⟨rfl, rfl⟩ rfl (by simp [hs])
    · exact .rests
  · exact .touches hs
  · exact .backs hs
  · exact .prepares ⟨rfl, rfl⟩ rfl (by simp [hs])
  · unfold delaying
    split
    · exact .prepares ⟨rfl, rfl⟩ rfl (by simp [hs])
    · exact .rests
  · exact .drills hp hs
  · exact .past (by simp [hs, DrillState.past]) rfl
  · refine .past (by simp [hs, DrillState.past]) ?_
    unfold delaying
    split <;> simp [hs, DrillState.past]
  · refine .past (by simp [hs, DrillState.past]) ?_
    simp only [returnBacking]
    split <;> simp [hs, DrillState.past, clearAllStatus]

theorem touching_startParams [Settings] (t : DrillAutoTask K) (sh : MotionShared K)
    (inp : CycleInput K) : (t.touching sh inp).1.startParams = t.startParams := by
  unfold touching
  split <;> rfl

theorem touchedBacking_startParams [Settings] (t : DrillAutoTask K) (sh : MotionShared K) :
    (t.touchedBacking sh).1.startParams = t.startParams := by
  simp only [touchedBacking]
  split <;> rfl

theorem returnBacking_startParams [Settings] (t : DrillAutoTask K) (sh : MotionShared K) :
    (t.returnBacking sh).1.startParams = t.startParams := by
  simp only [returnBacking]
  split <;> rfl

theorem drilling_startParams [Settings] (t : DrillAutoTask K) (sh : MotionShared K)
    (inp : CycleInput K) : (t.drilling sh inp).1.startParams = t.startParams := by
  refine Eq.trans ?_ (t.drillingServo_drillsOn sh inp).startParams
  simp only [drilling, drillingLimit]
  repeat' split
  all_goals rfl

theorem runOnce_startParams [Settings] (t : DrillAutoTask K) (sh : MotionShared K)
    (inp : CycleInput K) : (t.runOnce sh inp).1.startParams = t.startParams := by
  unfold runOnce
  split
  · rfl
  · split
    · rfl
    · rfl
    · unfold delaying; split <;> rfl
    · exact t.touching_startParams sh inp
    · exact t.touchedBacking_startParams sh
    · rfl
    · unfold delaying; split <;> rfl
    · exact t.drilling_startParams sh inp
    · rfl
    · unfold delaying; split <;> rfl
    · exact t.returnBacking_startParams sh

section Stage

variable {x0 percent : K} {P P' : K → Prop} {t t' : DrillAutoTask K}

theorem SameData.detectFrom (hd : SameData t t') : t'.detectFrom x0 percent = t.detectFrom x0 percent := by
  simp only [DrillAutoTask.detectFrom, hd.runtime, hd.startParams]

theorem Stage.of_past (h : t.drillState.past = true) : t.Stage x0 percent P := by
  unfold Stage
  generalize t.drillState = a at h
  cases a <;> trivial

/-- With the same data in the same state. -/
theorem Stage.mono (h : t.Stage x0 percent P) (hd : SameData t t') (hs : t'.drillState = t.drillState)
    (hP : ∀ x, P x → P' x) : t'.Stage x0 percent P' := by
  unfold Stage at h ⊢
  rw [hs, hd.detectFrom, hd.runtime, hd.startParams]
  generalize t.drillState = a at h
  cases a with
  | drilling =>
    by_cases hf : t.runtime.startBreakthroughDetect = true
    · simp only [hf, if_true] at h ⊢
      exact hP _ h
    · simp only [hf] at h ⊢
      exact h
  | _ => exact h

theorem stage_drilling (hs : t.drillState = .drilling) : t.Stage x0 percent P ↔
    if t.runtime.startBreakthroughDetect then P (t.detectFrom x0 percent)
    else t.runtime.Late (t.detectFrom x0 percent) := by
  simp only [Stage, hs]

/-- On to the next state with the same data. -/
theorem Stage.next (h : t.Stage x0 percent P) (hd : SameData t t')
    (hs : (t.drillState, t'.drillState) ∈
      [(DrillState.prepareTouch, DrillState.prepareTouchDelaying),
        (.prepareTouchDelaying, .touching), (.prepareDrill, .prepareDrillDelaying),
        (.prepareDrillDelaying, .drilling)]) : t'.Stage x0 percent P' := by
  unfold Stage at h ⊢
  rw [hd.detectFrom, hd.runtime, hd.startParams]
  generalize t.drillState = a at h hs
  generalize t'.drillState = b at hs ⊢
  simp only [List.mem_cons, Prod.mk.injEq, List.not_mem_nil, or_false] at hs
  rcases hs with ⟨rfl, rfl⟩ | ⟨rfl, rfl⟩ | ⟨rfl, rfl⟩ | ⟨rfl, rfl⟩
  · exact h
  · exact h
  · exact h
  · simp only [h.1.2, Bool.false_eq_true, if_false]
    exact h.2

/-- The axis is moved below `startDetectPos`, and drilling goes on: it is below `x`. -/
theorem Runtime.Late.lt {r : Runtime K} {x pos pos' : K} (h : r.Late x) (hpos : pos < r.startDetectPos)
    (hclamp : Clamps r pos pos') : pos' < x := by
  rcases hclamp with ⟨hstart, rfl⟩ | ⟨htarget, hstart, rfl⟩
  · rcases h with hle | hlt
    · rcases lt_max_iff.mp (hpos.trans_le hle) with hx | hmin
      · exact hstart.trans_lt hx
      · exact absurd (lt_min_iff.mp hmin).2 (not_lt.mpr hstart)
    · exact hlt
  · rcases h with hle | hlt
    · rcases lt_max_iff.mp (hpos.trans_le hle) with hx | hmin
      · exact hx
      · exact absurd (lt_min_iff.mp hmin).1 htarget.not_gt
    · exact hstart.trans hlt

variable [Settings] {sh : MotionShared K} {inp : CycleInput K}

theorem Stage.touching (h : t.Stage x0 percent P) (hs : t.drillState = .touching)
    (hb : t.startParams.breakout = true)
    (hpercent : sh.drillParams.breakoutStartDetectLengthPercent = percent) :
    (t.touching sh inp).1.Stage x0 percent P' := by
  have htouch : t.startParams.touch = true := by simpa only [Stage, hs] using h
  unfold DrillAutoTask.touching
  split
  · simp only [Stage, if_true, DrillAutoTask.detectFrom, htouch, hpercent]
    exact ⟨⟨rfl, rfl⟩, le_rfl⟩
  · simpa only [Stage, hs] using htouch

theorem Stage.touchedBacking (h : t.Stage x0 percent P) (hs : t.drillState = .touchedBacking) :
    (t.touchedBacking sh).1.Stage x0 percent P' := by
  have h : t.runtime.Unseen ∧ t.runtime.startDetectPos ≤ t.detectFrom x0 percent := by
    simpa only [Stage, hs] using h
  simp only [DrillAutoTask.touchedBacking]
  split
  · exact ⟨h.1, .inl (h.2.trans (le_max_left _ _))⟩
  · simpa only [Stage, hs] using h

theorem Stage.drilling (h : t.Stage x0 percent P) (hs : t.drillState = .drilling)
    (hb : t.startParams.breakout = true) (hP : ∀ x, P x → P' x)
    (hnow : (t.drilling sh inp).1.drillState = .drilling →
      ∀ x, currentPos (t.drilling sh inp).2 < x → P' x) :
    (t.drilling sh inp).1.Stage x0 percent P' := by
  have h := (stage_drilling hs).mp h
  have hparams := t.drilling_startParams sh inp
  have hcase := drilling_detects t sh inp hb
  generalize t.drilling sh inp = res at hnow hparams hcase
  cases hcase with
  | ends _ _ hpast => exact .of_past hpast
  | @goesOn pos t' sh' hd hs' hpos =>
    have hs' : t'.drillState = .drilling := hs'.trans hs
    have hparams : t'.startParams = t.startParams := hparams
    refine (stage_drilling hs').mpr ?_
    unfold DrillAutoTask.detectFrom at h ⊢
    rw [hparams]
    have hnow := hnow hs'
    generalize t'.runtime = r at hd ⊢
    generalize false = through at hd
    cases hd with
    | above _ hf =>
      simp only [hf, Bool.false_eq_true, if_false] at h ⊢
      exact h
    | arrives _ hf hlt =>
      simp only [hf, Bool.false_eq_true, if_false] at h
      exact hnow _ (h.lt hlt hpos)
    | looks _ hf | sees _ hf | follows _ hf | judges _ hf | waits hf =>
      rw [if_pos hf] at h
      exact (if_pos hf).mpr (hP _ h)

end Stage

end DrillAutoTask

/-! ### Runs -/

namespace DrillSystem

open DrillAutoTask

/-- A task just constructed over the memory `r`. -/
def startOn (r : Runtime K) (p : DrillStartParams K) (sh : MotionShared K) : DrillSystem K :=
  let (t, sh) := newOn r p { sh with callbacks := {} }
  ⟨t, sh, t.drillState, false⟩

theorem startOn_cleared (p : DrillStartParams K) (sh : MotionShared K) :
    startOn .cleared p sh = start p sh := rfl

variable [Settings]

theorem step_startParams (s : DrillSystem K) (c : Call K) :
    (s.step c).task.startParams = s.task.startParams := by
  cases c with
  | runOnce inp => exact s.task.runOnce_startParams s.shared inp
  | pause =>
    simp only [step, DrillAutoTask.pause]
    split <;> rfl
  | resume =>
    simp only [step, DrillAutoTask.resume]
    split
    · rfl
    · split <;> rfl
  | stop immediate => rfl
  | setDrillParams dp => rfl

theorem step_drillParams (s : DrillSystem K) (c : Call K) (hc : ∀ dp, c ≠ .setDrillParams dp) :
    (s.step c).shared.drillParams = s.shared.drillParams := by
  cases c with
  | runOnce inp =>
    have hcase := s.task.runOnce_cases s.shared inp
    simp only [step]
    generalize s.task.runOnce s.shared inp = res at hcase
    cases hcase with
    | rests => rfl
    | prepares => rfl
    | works _ _ _ _ ho => exact ho.drillParams
    | ends _ _ _ ho => exact ho.drillParams
  | pause =>
    simp only [step, DrillAutoTask.pause]
    split <;> rfl
  | resume =>
    simp only [step, DrillAutoTask.resume]
    split
    · rfl
    · split <;> rfl
  | stop immediate => rfl
  | setDrillParams dp => exact absurd rfl (hc dp)

/-- A call that is no cycle stops the task or keeps its state, its data and the axis. -/
theorem step_keeps (s : DrillSystem K) (c : Call K) (hc : ∀ inp, c ≠ .runOnce inp) :
    (s.step c).task.drillState = .idle ∨
      SameData s.task (s.step c).task ∧ (s.step c).task.drillState = s.task.drillState ∧
        currentPos (s.step c).shared = currentPos s.shared := by
  cases c with
  | runOnce inp => exact absurd rfl (hc inp)
  | pause =>
    simp only [step, DrillAutoTask.pause]
    split
    · exact .inr ⟨⟨rfl, rfl⟩, rfl, rfl⟩
    · exact .inr ⟨⟨rfl, rfl⟩, rfl, rfl⟩
  | resume =>
    simp only [step, DrillAutoTask.resume]
    split
    · exact .inr ⟨⟨rfl, rfl⟩, rfl, rfl⟩
    · split <;> exact .inr ⟨⟨rfl, rfl⟩, rfl, rfl⟩
  | stop immediate => exact .inl rfl
  | setDrillParams dp => exact .inr ⟨⟨rfl, rfl⟩, rfl, rfl⟩

/-- A task with the detection on that drills with `I`, or is past drilling. -/
def Drills (I : Runtime K → K → Prop) (s : DrillSystem K) : Prop :=
  s.task.startParams.breakout = true ∧
    (s.task.drillState = .drilling ∧ I s.task.runtime (currentPos s.shared) ∨
      s.task.drillState.past = true)

/-- What each drilling cycle keeps is kept. -/
theorem Drills.step {I : Runtime K → K → Prop}
    (hI : ∀ {t t' : DrillAutoTask K} {sh sh' : MotionShared K} {inp : CycleInput K} {pos : K},
      I t.runtime (currentPos sh) → DetectCase t sh inp t'.runtime pos false →
        Clamps t.runtime pos (currentPos sh') → I t'.runtime (currentPos sh'))
    {s : DrillSystem K} (h : s.Drills I) (c : Call K) : (s.step c).Drills I := by
  obtain ⟨hb, h⟩ := h
  refine ⟨(s.step_startParams c ▸ hb : (s.step c).task.startParams.breakout = true), ?_⟩
  by_cases hcycle : ∃ inp, c = .runOnce inp
  · obtain ⟨inp, rfl⟩ := hcycle
    have hcase := s.task.runOnce_detectStep s.shared inp
    simp only [DrillSystem.step]
    generalize s.task.runOnce s.shared inp = res at hcase
    cases hcase with
    | rests => exact h
    | prepares hd hpos hs =>
      rcases h with ⟨hstate, hI'⟩ | hpast
      · rcases hs with hs | hs
        · exact .inl ⟨hs.trans hstate, by rw [hd.runtime, hpos]; exact hI'⟩
        · simp [hstate] at hs
      · rcases hs with hs | hs
        · exact .inr (hs ▸ hpast)
        · generalize s.task.drillState = a at hpast hs
          simp only [List.mem_cons, Prod.mk.injEq, List.not_mem_nil, or_false] at hs
          rcases hs with ⟨rfl, -⟩ | ⟨rfl, -⟩ | ⟨rfl, -⟩ | ⟨rfl, -⟩ <;> cases hpast
    | touches hs => simp [hs, DrillState.past] at h
    | backs hs => simp [hs, DrillState.past] at h
    | drills hp hs =>
      simp only [hs, DrillState.past, Bool.false_eq_true, or_false, true_and] at h
      have hcase := drilling_detects s.task s.shared inp hb
      generalize s.task.drilling s.shared inp = res at hcase
      cases hcase with
      | ends hd hover hs' hpos => exact .inr hs'
      | goesOn hd hs' hpos => exact .inl ⟨hs'.trans hs, hI h hd hpos⟩
    | past hs hs' => exact .inr hs'
  · obtain hidle | ⟨hd, hs, hpos⟩ := s.step_keeps c fun inp heq => hcycle ⟨inp, heq⟩
    · exact .inr (by rw [hidle]; rfl)
    · rw [hs, hd.runtime, hpos]
      exact h

theorem Drills.run {I : Runtime K → K → Prop}
    (hI : ∀ {t t' : DrillAutoTask K} {sh sh' : MotionShared K} {inp : CycleInput K} {pos : K},
      I t.runtime (currentPos sh) → DetectCase t sh inp t'.runtime pos false →
        Clamps t.runtime pos (currentPos sh') → I t'.runtime (currentPos sh'))
    {s : DrillSystem K} (h : s.Drills I) (calls : List (Call K)) :
    (Machine.run DrillSystem.step s calls).Drills I :=
  Machine.run_invariant (fun _ c hs => hs.step hI c) h calls

/-- A cycle after which the task drills with other detection data was one of drilling with the detection
on. -/
theorem drills_of_runtime_ne {s : DrillSystem K} {inp : CycleInput K}
    (hs' : (s.step (.runOnce inp)).task.drillState = .drilling)
    (hne : (s.step (.runOnce inp)).task.runtime ≠ s.task.runtime) :
    s.task.startParams.breakout = true ∧ s.task.drillState = .drilling ∧
      DrillingCase s.task s.shared inp
        ((s.step (.runOnce inp)).task, (s.step (.runOnce inp)).shared) := by
  have hcase := s.task.runOnce_detectStep s.shared inp
  simp only [step] at hs' hne ⊢
  generalize s.task.runOnce s.shared inp = res at hcase hs' hne
  cases hcase with
  | rests => exact absurd rfl hne
  | prepares hd => exact absurd hd.runtime hne
  | touches hs =>
    refine absurd hs' ?_
    unfold touching
    split <;> simp [hs]
  | backs hs =>
    refine absurd hs' ?_
    simp only [touchedBacking]
    split <;> simp [hs]
  | drills hp hs =>
    cases hb : s.task.startParams.breakout with
    | true => exact ⟨rfl, hs, drilling_detects s.task s.shared inp hb⟩
    | false =>
      have hservo : (s.task.drillingServo s.shared inp).1 = s.task := by simp [drillingServo, hb]
      simp only [DrillAutoTask.drilling] at hs' hne
      have hlim := drillingLimit_cases (s.task.drillingServo s.shared inp).1
        (s.task.drillingServo s.shared inp).2.1 (s.task.drillingServo s.shared inp).2.2
      generalize (s.task.drillingServo s.shared inp).1.drillingLimit
        (s.task.drillingServo s.shared inp).2.1 (s.task.drillingServo s.shared inp).2.2 = res
        at hlim hs' hne
      cases hlim with
      | ends _ hpast => exact absurd hs' (DrillState.ne_drilling_of_past hpast)
      | within => exact absurd (congrArg DrillAutoTask.runtime hservo) hne
  | past _ hpast => exact absurd hs' (DrillState.ne_drilling_of_past hpast)

/-! ### The wait at the breakthrough -/

/-- The S axis is where drilling ends. -/
def AtDepth (s : DrillSystem K) : Prop :=
  currentPos s.shared ≤ s.task.runtime.machTargetPos ∧
    currentPos s.shared < s.task.runtime.machStartPos

/-- A task that has judged the end of the breakthrough at the clock `x`, as it remembers it, and waits. -/
def Waits (x : ℤ) (r : Runtime K) (_ : K) : Prop :=
  r.startBreakthroughDetect = true ∧ r.detectState = 2 ∧ r.breakoutEndJudgedTimeMs = x

theorem Waits.kept {x : ℤ} {t t' : DrillAutoTask K} {sh sh' : MotionShared K} {inp : CycleInput K}
    {pos : K} (h : Waits x t.runtime (currentPos sh)) (hd : DetectCase t sh inp t'.runtime pos false)
    (_ : Clamps t.runtime pos (currentPos sh')) : Waits x t'.runtime (currentPos sh') := by
  rw [(hd.waiting h.1 h.2.1).1]
  exact h

/-- The cycles that end the drilling of a task that waits. -/
theorem Drills.waits_ends {x : ℤ} {s : DrillSystem K} (h : s.Drills (Waits x))
    (hs : s.task.drillState = .drilling) {inp : CycleInput K}
    (hend : (s.step (.runOnce inp)).task.drillState ≠ .drilling) :
    (x + s.shared.drillParams.waitTimeMsAfterBreakoutEndJudged) % 2 ^ 32 < currentTimeMs inp ∨
      s.AtDepth := by
  obtain ⟨hb, ⟨_, hf, hstate, rfl⟩ | hpast⟩ := h
  · have hcase := s.task.runOnce_detectStep s.shared inp
    simp only [DrillSystem.step] at hend
    generalize s.task.runOnce s.shared inp = res at hcase hend
    cases hcase with
    | rests => exact absurd hs hend
    | prepares hd hpos hs' =>
      rcases hs' with hs' | hs'
      · exact absurd (hs'.trans hs) hend
      · simp [hs] at hs'
    | touches hs' => simp [hs] at hs'
    | backs hs' => simp [hs] at hs'
    | past hs' => simp [hs, DrillState.past] at hs'
    | drills hp hs' =>
      have hcase := drilling_detects s.task s.shared inp hb
      generalize s.task.drilling s.shared inp = res at hcase hend
      cases hcase with
      | goesOn _ hs'' => exact absurd (hs''.trans hs) hend
      | ends hd hover =>
        obtain ⟨-, rfl, rfl⟩ := hd.waiting hf hstate
        exact hover.imp (fun hnow => of_decide_eq_true hnow) id
  · simp [hs, DrillState.past] at hpast

/-- A cycle after the end of the wait, as the task computes it, ends the drilling. -/
theorem Drills.waits_over {x : ℤ} {s : DrillSystem K} (h : s.Drills (Waits x))
    (hs : s.task.drillState = .drilling) (hp : s.task.pauseFlag = false) {inp : CycleInput K}
    (hnow : (x + s.shared.drillParams.waitTimeMsAfterBreakoutEndJudged) % 2 ^ 32 <
      currentTimeMs inp) : (s.step (.runOnce inp)).task.drillState ≠ .drilling := by
  obtain ⟨hb, ⟨_, hf, hstate, rfl⟩ | hpast⟩ := h
  · have hcase := drilling_detects s.task s.shared inp hb
    have hdrill : (s.step (.runOnce inp)).task = (s.task.drilling s.shared inp).1 := by
      simp [DrillSystem.step, DrillAutoTask.runOnce, hp, hs]
    rw [hdrill]
    generalize s.task.drilling s.shared inp = res at hcase
    cases hcase with
    | ends _ _ hpast => exact DrillState.ne_drilling_of_past hpast
    | goesOn hd =>
      exact absurd hnow (of_decide_eq_false (hd.waiting hf hstate).2.2.symm)
  · simp [hs, DrillState.past] at hpast

/-- The end of the breakthrough is judged in a cycle of drilling. -/
theorem drills_waits_of_judged {s : DrillSystem K} {inp : CycleInput K}
    (hbefore : s.task.runtime.detectState ≠ 2)
    (hs' : (s.step (.runOnce inp)).task.drillState = .drilling)
    (hjudged : (s.step (.runOnce inp)).task.runtime.detectState = 2) :
    (s.step (.runOnce inp)).Drills (Waits (currentTimeMs inp % 2 ^ 32)) ∧
      ¬(s.step (.runOnce inp)).AtDepth := by
  obtain ⟨hb, hs, hcase⟩ := drills_of_runtime_ne hs' fun heq => hbefore (heq ▸ hjudged)
  have hb' : (s.step (.runOnce inp)).task.startParams.breakout = true :=
    s.step_startParams (.runOnce inp) ▸ hb
  unfold Drills AtDepth
  generalize (s.step (.runOnce inp)).task = t' at hs' hjudged hcase hb' ⊢
  generalize (s.step (.runOnce inp)).shared = sh' at hcase ⊢
  cases hcase with
  | ends _ _ hpast => exact absurd hs' (DrillState.ne_drilling_of_past hpast)
  | @goesOn pos _ _ hd _ hpos =>
    generalize t'.runtime = r at hd hjudged ⊢
    generalize false = through at hd
    cases hd with
    | above | arrives | looks => exact absurd hjudged hbefore
    | sees => cases hjudged
    | follows => exact absurd hjudged hbefore
    | waits => exact absurd hjudged hbefore
    | judges pos hf hd' hmin =>
      refine ⟨⟨hb', .inl ⟨hs', ?_⟩⟩, ?_⟩
      · exact ⟨hf, rfl, rfl⟩
      · rintro ⟨htarget, hstart⟩
        rcases hpos with ⟨_, heq⟩ | ⟨hlt, _, heq⟩
        · exact absurd (heq ▸ hstart) (lt_irrefl _)
        · exact absurd (heq ▸ htarget) (not_le.mpr hlt)

/-- Whatever is called after the end of the breakthrough was judged at the clock `t0`: where the wait is
`w`, only a cycle later than that ends the drilling, unless the hole is as deep as asked. -/
def HoldsFor (s : DrillSystem K) (t0 : ℤ) (w : ℕ) : Prop :=
  ∀ post inp, let s' := Machine.run step s post
    s'.shared.drillParams.waitTimeMsAfterBreakoutEndJudged = w → s'.task.drillState = .drilling →
      (s'.step (.runOnce inp)).task.drillState ≠ .drilling → t0 + w < currentTimeMs inp ∨ s'.AtDepth

@[simp] theorem step_resume_task (s : DrillSystem K) :
    (s.step .resume).task = { s.task with pauseFlag := false } := by
  obtain ⟨t, sh, cycledFrom, resumed⟩ := s
  obtain ⟨state, paused, p, timer, delay, r⟩ := t
  cases paused with
  | false => rfl
  | true => cases state <;> rfl

@[simp] theorem step_resume_pos (s : DrillSystem K) :
    currentPos (s.step .resume).shared = currentPos s.shared := by
  obtain ⟨t, sh, cycledFrom, resumed⟩ := s
  obtain ⟨state, paused, p, timer, delay, r⟩ := t
  cases paused with
  | false => rfl
  | true => cases state <;> rfl

@[simp] theorem step_setDrillParams_task (s : DrillSystem K) (dp : DrillParams K) :
    (s.step (.setDrillParams dp)).task = s.task := rfl

@[simp] theorem step_setDrillParams_pos (s : DrillSystem K) (dp : DrillParams K) :
    currentPos (s.step (.setDrillParams dp)).shared = currentPos s.shared := rfl

/-- A cycle at the clock `x`. -/
def cycleAt (x : ℤ) : CycleInput K := ⟨false, 0, 0, 0, x * 1000000⟩

theorem currentTimeMs_cycleAt (x : ℤ) : currentTimeMs (cycleAt x : CycleInput K) = x :=
  Int.mul_tdiv_cancel x (by decide)

/-- Drilling ends by the breakthrough only after the wait, for all that is called since its end was
judged at `t0`, exactly if the end of the wait is a time of 32 bits: the task keeps `t0` and compares in
`uint32_t`. -/
theorem holds_iff_end_fits (r : Runtime K) (p : DrillStartParams K) (sh : MotionShared K)
    (pre : List (Call K)) (inp : CycleInput K) (w : ℕ) :
    let s := Machine.run step (startOn r p sh) pre
    let s' := Machine.run step (startOn r p sh) (pre ++ [.runOnce inp])
    s.task.runtime.detectState ≠ 2 → s'.task.drillState = .drilling →
      s'.task.runtime.detectState = 2 →
        (s'.HoldsFor (currentTimeMs inp) w ↔ currentTimeMs inp + w < 2 ^ 32) := by
  intro s s' hbefore hs' hjudged
  have hrun : s' = s.step (.runOnce inp) := Machine.run_append
  rw [hrun] at hs' hjudged ⊢
  obtain ⟨hwaits, hdepth⟩ := drills_waits_of_judged hbefore hs' hjudged
  generalize currentTimeMs inp = t0 at hwaits ⊢
  generalize s.step (.runOnce inp) = s' at hs' hwaits hdepth
  have hend : (t0 % 2 ^ 32 + (w : ℤ)) % 2 ^ 32 = (t0 + w) % 2 ^ 32 := by omega
  constructor
  · intro hholds
    by_contra hge
    have hlate : (t0 + w) % 2 ^ 32 < t0 + w := by
      have := Int.emod_lt_of_pos (t0 + w) (show (0 : ℤ) < 2 ^ 32 by decide)
      omega
    -- the wait is set to `w`, the task resumed, and the next cycle comes when the wait should end
    let dp : DrillParams K := { s'.shared.drillParams with waitTimeMsAfterBreakoutEndJudged := w }
    have hwaits' := hwaits.run Waits.kept [.setDrillParams dp, .resume]
    have hstate : (Machine.run step s' [.setDrillParams dp, .resume]).task.drillState = .drilling := by
      simpa using hs'
    have hwait : (Machine.run step s' [.setDrillParams dp, .resume]).shared.drillParams = dp :=
      step_drillParams _ .resume (by simp)
    have hover := hwaits'.waits_over hstate (by simp) <|
      show _ < currentTimeMs (cycleAt (t0 + w) : CycleInput K) by
        rw [hwait, currentTimeMs_cycleAt]
        exact hend ▸ hlate
    rcases hholds [.setDrillParams dp, .resume] (cycleAt (t0 + w)) (by rw [hwait]) hstate hover with
      hnow | hat
    · exact absurd hnow (by rw [currentTimeMs_cycleAt]; exact lt_irrefl _)
    · refine hdepth ?_
      simpa [AtDepth] using hat
  · intro hfits post inp' s'' hw hstate hleaves
    rcases (hwaits.run Waits.kept post).waits_ends hstate hleaves with hnow | hat
    · left
      rw [hw, hend] at hnow
      omega
    · exact .inr hat

/-! ### The way through the workpiece -/

/-- The breakthrough was seen, and the axis stays above `b` until drilling ends. -/
structure Follows (b : K) (r : Runtime K) (x : K) : Prop where
  detects : r.startBreakthroughDetect = true
  state : r.detectState = 1 ∧ b ≤ r.minPosAfterBreakoutStartDetected ∨ r.detectState = 2
  start : b ≤ r.machStartPos
  pos : b ≤ x

/-- The servo does not lead a task that follows the breakthrough below `b`. -/
theorem Follows.detect {b : K} {t : DrillAutoTask K} {sh : MotionShared K} {inp : CycleInput K}
    {r : Runtime K} {pos : K} {through : Bool} (h : Follows b t.runtime (currentPos sh))
    (hd : DetectCase t sh inp r pos through) : Follows b r pos := by
  rcases h.state with ⟨hstate, hmin⟩ | hstate
  · cases hd with
    | above _ hf' => simp [h.detects] at hf'
    | arrives _ hf' => simp [h.detects] at hf'
    | looks _ _ hd' => exact absurd hstate hd'.1
    | sees _ _ hd' => exact absurd hstate hd'.1
    | follows _ _ _ hpos => exact ⟨h.detects, .inl ⟨hstate, hmin⟩, h.start, hmin.trans hpos⟩
    | judges _ _ _ hpos => exact ⟨h.detects, .inr rfl, h.start, hmin.trans hpos⟩
    | waits _ hd' => simp [hstate] at hd'
  · obtain ⟨rfl, rfl, -⟩ := hd.waiting h.detects hstate
    exact h

theorem Follows.kept {b : K} {t t' : DrillAutoTask K} {sh sh' : MotionShared K} {inp : CycleInput K}
    {pos : K} (h : Follows b t.runtime (currentPos sh))
    (hd : DetectCase t sh inp t'.runtime pos false) (hpos : Clamps t.runtime pos (currentPos sh')) :
    Follows b t'.runtime (currentPos sh') := by
  have h' := h.detect hd
  refine ⟨h'.detects, h'.state, h'.start, ?_⟩
  rcases hpos with ⟨-, heq⟩ | ⟨-, -, heq⟩
  · exact heq ▸ h.start
  · exact heq ▸ h'.pos

/-- Nor does the cycle that ends drilling. -/
theorem Drills.follows_pos {b : K} {s : DrillSystem K} (h : s.Drills (Follows b))
    (hs : s.task.drillState = .drilling) (inp : CycleInput K) :
    b ≤ currentPos s.shared ∧ b ≤ currentPos (s.step (.runOnce inp)).shared := by
  obtain ⟨hb, ⟨_, hI⟩ | hpast⟩ := h
  · refine ⟨hI.pos, ?_⟩
    by_cases hp : s.task.pauseFlag = true
    · have hstay : (s.step (.runOnce inp)).shared = s.shared := by
        simp [DrillSystem.step, DrillAutoTask.runOnce, hp]
      exact hstay ▸ hI.pos
    · have hdrill : (s.step (.runOnce inp)).shared = (s.task.drilling s.shared inp).2 := by
        simp [DrillSystem.step, DrillAutoTask.runOnce, hp, hs]
      rw [hdrill]
      have hcase := drilling_detects s.task s.shared inp hb
      generalize s.task.drilling s.shared inp = res at hcase
      cases hcase with
      | ends hd _ _ hpos =>
        rcases hpos with hle | heq
        · exact (hI.detect hd).pos.trans hle
        · exact heq ▸ hI.start
      | goesOn hd _ hpos => exact (hI.kept hd hpos).pos
  · exact absurd hs (DrillState.ne_drilling_of_past hpast)

variable [IsStrictOrderedRing K]

/-- From the cycle on that sees the breakthrough. -/
theorem drills_follows_of_seen {s : DrillSystem K} {inp : CycleInput K}
    (hbefore : s.task.runtime.detectState ≠ 1)
    (hs' : (s.step (.runOnce inp)).task.drillState = .drilling)
    (hseen : (s.step (.runOnce inp)).task.runtime.detectState = 1) :
    (s.step (.runOnce inp)).Drills (Follows (currentPos (s.step (.runOnce inp)).shared -
      max 0 (UnitConverter.um2blu s.shared.drillParams.maxMoveUmAfterBreakoutStartDetected))) := by
  obtain ⟨hb, hs, hcase⟩ := drills_of_runtime_ne hs' fun heq => hbefore (heq ▸ hseen)
  have hb' : (s.step (.runOnce inp)).task.startParams.breakout = true :=
    s.step_startParams (.runOnce inp) ▸ hb
  unfold Drills
  generalize (s.step (.runOnce inp)).task = t' at hs' hseen hcase hb' ⊢
  generalize (s.step (.runOnce inp)).shared = sh' at hcase ⊢
  have hmax : UnitConverter.um2blu s.shared.drillParams.maxMoveUmAfterBreakoutStartDetected =
      s.shared.drillParams.maxMoveUmAfterBreakoutStartDetected := mul_one _
  rw [hmax]
  generalize hm : s.shared.drillParams.maxMoveUmAfterBreakoutStartDetected = maxMove
  cases hcase with
  | ends _ _ hpast => exact absurd hs' (DrillState.ne_drilling_of_past hpast)
  | @goesOn pos _ _ hd _ hpos =>
    refine ⟨hb', .inl ⟨hs', ?_⟩⟩
    generalize t'.runtime = r at hd hseen ⊢
    generalize false = through at hd
    cases hd with
    | above | arrives | looks | follows | waits => exact absurd hseen hbefore
    | judges => cases hseen
    | sees pos hf =>
      have h0 : 0 ≤ max 0 maxMove := le_max_left _ _
      have h1 : maxMove ≤ max 0 maxMove := le_max_right _ _
      rcases hpos with ⟨hstart, heq⟩ | ⟨_, hlt, heq⟩
      · refine ⟨hf, .inl ⟨rfl, ?_⟩, ?_, ?_⟩
        · show _ ≤ pos - s.shared.drillParams.maxMoveUmAfterBreakoutStartDetected
          rw [hm, heq]
          linarith
        · show _ ≤ s.task.runtime.machStartPos
          rw [heq]
          linarith
        · linarith
      · refine ⟨hf, .inl ⟨rfl, ?_⟩, ?_, ?_⟩
        · show _ ≤ pos - s.shared.drillParams.maxMoveUmAfterBreakoutStartDetected
          rw [hm, heq]
          linarith
        · show _ ≤ s.task.runtime.machStartPos
          rw [heq]
          linarith
        · linarith

section Runs

omit [IsStrictOrderedRing K]

variable {x0 percent : K} {P P' : K → Prop}

theorem stage_step {s : DrillSystem K} (h : s.task.Stage x0 percent P)
    (hb : s.task.startParams.breakout = true)
    (hpercent : s.shared.drillParams.breakoutStartDetectLengthPercent = percent) (c : Call K)
    (hP : ∀ x, P x → P' x)
    (hnow : (s.step c).task.drillState = .drilling → ∀ x, currentPos (s.step c).shared < x → P' x) :
    (s.step c).task.Stage x0 percent P' := by
  by_cases hcycle : ∃ inp, c = .runOnce inp
  · obtain ⟨inp, rfl⟩ := hcycle
    have hcase := s.task.runOnce_detectStep s.shared inp
    simp only [DrillSystem.step] at hnow ⊢
    generalize s.task.runOnce s.shared inp = res at hcase hnow
    cases hcase with
    | rests => exact h.mono ⟨rfl, rfl⟩ rfl hP
    | prepares hd hpos hs =>
      rcases hs with hs | hs
      · exact h.mono hd hs hP
      · exact h.next hd hs
    | touches hs => exact h.touching hs hb hpercent
    | backs hs => exact h.touchedBacking hs
    | drills _ hs => exact h.drilling hs hb hP hnow
    | past _ hpast => exact .of_past hpast
  · obtain hidle | ⟨hd, hs, -⟩ := s.step_keeps c fun inp heq => hcycle ⟨inp, heq⟩
    · exact .of_past (by rw [hidle]; rfl)
    · exact h.mono hd hs hP

/-- In the run of `calls` from `s` the axis has drilled below `x`. -/
def Passed (s : DrillSystem K) (calls : List (Call K)) (x : K) : Prop :=
  ∃ done, done <+: calls ∧ (Machine.run step s done).task.drillState = .drilling ∧
    currentPos (Machine.run step s done).shared < x

theorem Passed.mono {s : DrillSystem K} {calls : List (Call K)} {x : K} (h : Passed s calls x)
    (c : Call K) : Passed s (calls ++ [c]) x := by
  obtain ⟨done, hpre, h⟩ := h
  exact ⟨done, hpre.trans (List.prefix_append _ _), h⟩

/-- Nobody sets the drill parameters. -/
def KeepsParams (calls : List (Call K)) : Prop := ∀ dp, .setDrillParams dp ∉ calls

theorem stage_run {s : DrillSystem K} (h : s.task.Stage x0 percent (Passed s []))
    (hb : s.task.startParams.breakout = true)
    (hpercent : s.shared.drillParams.breakoutStartDetectLengthPercent = percent) (calls : List (Call K))
    (hkeeps : KeepsParams calls) :
    let s' := Machine.run step s calls
    s'.task.Stage x0 percent (Passed s calls) ∧ s'.task.startParams = s.task.startParams ∧
      s'.shared.drillParams = s.shared.drillParams := by
  induction calls using List.reverseRecOn with
  | nil => exact ⟨h, rfl, rfl⟩
  | append_singleton calls c ih =>
    obtain ⟨hstage, hstart, hparams⟩ := ih fun dp hmem => hkeeps dp (List.mem_append_left _ hmem)
    have hc : ∀ dp, c ≠ .setDrillParams dp := fun dp heq => hkeeps dp (by simp [heq])
    have hrun : Machine.run step s (calls ++ [c]) = (Machine.run step s calls).step c :=
      Machine.run_append
    simp only [hrun]
    refine ⟨?_, (step_startParams _ c).trans hstart, (step_drillParams _ c hc).trans hparams⟩
    refine stage_step hstage (hstart ▸ hb) (hparams ▸ hpercent) c (fun x hx => hx.mono c) ?_
    intro hs x hx
    exact ⟨calls ++ [c], List.prefix_rfl, by rwa [hrun], by rwa [hrun]⟩

end Runs

/-- What the detection of the breakthrough owes a drilling task: it begins with nothing seen and nothing
looked for, it looks only once the axis has drilled below the position asked for, and from where it sees
the breakthrough it goes down by the length set at most while it drills. -/
structure DetectsInOrder (r : Runtime K) (p : DrillStartParams K) (sh : MotionShared K) : Prop where
  fresh : ∀ calls, KeepsParams calls → let s := Machine.run step (startOn r p sh) calls
    s.task.drillState = .prepareDrill ∨ s.task.drillState = .prepareDrillDelaying →
      s.task.runtime.Unseen
  passed : ∀ calls, KeepsParams calls → let s := Machine.run step (startOn r p sh) calls
    s.task.evaluates = true → Passed (startOn r p sh) calls
      (s.task.detectFrom (currentPos sh) sh.drillParams.breakoutStartDetectLengthPercent)
  bounded : ∀ before inp after inp',
    let s := Machine.run step (startOn r p sh) before
    let s' := Machine.run step (startOn r p sh) (before ++ [.runOnce inp])
    let s'' := Machine.run step (startOn r p sh) (before ++ .runOnce inp :: after)
    let maxMove := UnitConverter.um2blu s.shared.drillParams.maxMoveUmAfterBreakoutStartDetected
    s.task.runtime.detectState ≠ 1 → s'.task.drillState = .drilling →
      s'.task.runtime.detectState = 1 → s''.task.drillState = .drilling →
        currentPos s'.shared - max 0 maxMove ≤ currentPos s''.shared ∧
          currentPos s'.shared - max 0 maxMove ≤ currentPos (s''.step (.runOnce inp')).shared

theorem bounded_of_seen (s : DrillSystem K) (inp : CycleInput K) (after : List (Call K))
    (inp' : CycleInput K) :
    let s' := s.step (.runOnce inp)
    let s'' := Machine.run step s' after
    let b := currentPos s'.shared -
      max 0 (UnitConverter.um2blu s.shared.drillParams.maxMoveUmAfterBreakoutStartDetected)
    s.task.runtime.detectState ≠ 1 → s'.task.drillState = .drilling →
      s'.task.runtime.detectState = 1 → s''.task.drillState = .drilling →
        b ≤ currentPos s''.shared ∧ b ≤ currentPos (s''.step (.runOnce inp')).shared := by
  intro s' s'' b hbefore hs' hseen hs''
  have hfollows : s'.Drills (Follows b) := drills_follows_of_seen hbefore hs' hseen
  exact (hfollows.run Follows.kept after).follows_pos hs'' inp'

/-- What a task that does not touch has to find in its memory. -/
def MemoryFits (r : Runtime K) (p : DrillStartParams K) (sh : MotionShared K) : Prop :=
  let start := currentPos sh
  let depth := UnitConverter.um2blu p.depthUm
  let detect := start - sh.drillParams.breakoutStartDetectLengthPercent * depth
  r.Unseen ∧ (r.startDetectPos ≤ max detect (min (start - depth) start) ∨ start < detect)

omit [Settings] [IsStrictOrderedRing K] in
theorem startOn_stage {r : Runtime K} {p : DrillStartParams K} {sh : MotionShared K} {P : K → Prop}
    (h : p.touch = true ∨ MemoryFits r p sh) :
    (startOn r p sh).task.Stage (currentPos sh) sh.drillParams.breakoutStartDetectLengthPercent P := by
  simp only [startOn, newOn]
  cases ht : p.touch with
  | true => exact ht
  | false =>
    have hfits : MemoryFits r p sh := h.resolve_left (by simp [ht])
    refine ⟨hfits.1, ?_⟩
    simp only [DrillAutoTask.detectFrom, ht, Bool.false_eq_true, if_false]
    exact hfits.2

omit [IsStrictOrderedRing K] in
theorem startOn_data (r : Runtime K) (p : DrillStartParams K) (sh : MotionShared K) :
    (startOn r p sh).task.startParams = p ∧ (startOn r p sh).shared.drillParams = sh.drillParams := by
  simp only [startOn, newOn]
  split <;> simp

theorem detectsInOrder_of_fits {r : Runtime K} {p : DrillStartParams K} {sh : MotionShared K}
    (hb : p.breakout = true) (h : p.touch = true ∨ MemoryFits r p sh) : DetectsInOrder r p sh := by
  obtain ⟨hp, hdp⟩ := startOn_data r p sh
  have hrun := stage_run (startOn_stage h) (by rw [hp]; exact hb) (by rw [hdp])
  refine ⟨?_, ?_, ?_⟩
  · intro calls hkeeps s hs
    obtain ⟨hstage, -⟩ := hrun calls hkeeps
    unfold Stage at hstage
    rcases hs with hs | hs
    · exact (hs ▸ hstage : _ ∧ _).1
    · exact (hs ▸ hstage : _ ∧ _).1
  · intro calls hkeeps s hs
    obtain ⟨hstage, -⟩ := hrun calls hkeeps
    simp only [evaluates, Bool.and_eq_true, decide_eq_true_eq] at hs
    have hstage := (stage_drilling hs.1).mp hstage
    rwa [if_pos hs.2] at hstage
  · intro before inp after inp' s s' s'' maxMove hbefore hs' hseen hs''
    have heq' : s' = s.step (.runOnce inp) := Machine.run_append
    have heq'' : s'' = Machine.run step (s.step (.runOnce inp)) after := Machine.run_append
    rw [heq'] at hs' hseen ⊢
    rw [heq''] at hs'' ⊢
    exact bounded_of_seen s inp after inp' hbefore hs' hseen hs''

omit [IsStrictOrderedRing K] in
/-- A cycle in which the servo asks for the way to `y` goes there and finds out that it is below
`startDetectPos`. -/
theorem drilling_arrives {t : DrillAutoTask K} {sh : MotionShared K} {inp : CycleInput K} {y : K}
    (hb : t.startParams.breakout = true) (hf : t.runtime.startBreakthroughDetect = false)
    (hservo : currentPos sh - UnitConverter.mmMin2bluP inp.servoCalcedSpeedMmMin = y)
    (hdetect : y < t.runtime.startDetectPos)
    (hy : y = t.runtime.machStartPos ∨ t.runtime.machTargetPos < y ∧ y < t.runtime.machStartPos) :
    (t.drilling sh inp).1.drillState = t.drillState ∧
      (t.drilling sh inp).1.runtime.startBreakthroughDetect = true ∧
        currentPos (t.drilling sh inp).2 = y := by
  simp only [DrillAutoTask.drilling, drillingServo, hb, hf, Bool.not_true, Bool.false_eq_true, if_false,
    Bool.not_false, Bool.true_and, currentPos_setCurrentPos, hservo, hdetect, decide_true, if_true,
    drillingLimit]
  rcases hy with heq | ⟨htarget, hstart⟩
  · simp [heq]
    rfl
  · simp [hstart.not_ge, htarget.not_ge]
    rfl

/-- The two cycles before drilling. -/
def untilDrilling : List (Call K) :=
  [.runOnce ⟨false, 0, 0, 0, 0⟩, .runOnce ⟨false, 0, 0, 0, 1000000000⟩]

omit [IsStrictOrderedRing K] in
theorem untilDrilling_run {r : Runtime K} {p : DrillStartParams K} {sh : MotionShared K}
    (ht : p.touch = false) :
    (Machine.run step (startOn r p sh) untilDrilling).task =
        ⟨.drilling, false, p, 0, 1000, { r with
          machStartPos := currentPos sh
          machTargetPos := currentPos sh - UnitConverter.um2blu p.depthUm
          machOverBackReturnPos := currentPos sh }⟩ ∧
      currentPos (Machine.run step (startOn r p sh) untilDrilling).shared = currentPos sh := by
  simp only [startOn, newOn, ht]
  exact ⟨rfl, rfl⟩

omit [IsStrictOrderedRing K] in
/-- Before drilling there is no drilling. -/
theorem prefix_untilDrilling {r : Runtime K} {p : DrillStartParams K} {sh : MotionShared K}
    (ht : p.touch = false) {c : Call K} {done : List (Call K)} (hpre : done <+: untilDrilling ++ [c])
    (hs : (Machine.run step (startOn r p sh) done).task.drillState = .drilling) :
    done = untilDrilling ∨ done = untilDrilling ++ [c] := by
  simp only [untilDrilling, List.cons_append, List.nil_append, List.prefix_cons_iff, List.prefix_nil] at hpre
  rcases hpre with rfl | ⟨_, rfl, rfl | ⟨_, rfl, rfl | ⟨_, rfl, rfl⟩⟩⟩
  · simp [startOn, newOn, ht] at hs
  · simp only [startOn, newOn, ht] at hs
    cases hs
  · exact .inl rfl
  · exact .inr rfl

/-- Between where the breakthrough is to be looked for and where a task starts to look for it there is a
place to drill at. -/
theorem exists_early {start target detect x : K} (hlate : max x (min target start) < detect)
    (hx : x ≤ start) : ∃ y, x ≤ y ∧ y < detect ∧ (y = start ∨ target < y ∧ y < start) := by
  obtain ⟨hxd, hmin⟩ := max_lt_iff.mp hlate
  by_cases hstart : start < detect
  · exact ⟨start, hx, hstart, .inl rfl⟩
  · have hle : detect ≤ start := not_lt.mp hstart
    have htarget : target < detect := (min_lt_iff.mp hmin).resolve_right fun h => hstart h
    have hlt : max x target < detect := max_lt hxd htarget
    obtain ⟨hlo, hhi⟩ : max x target < (max x target + detect) / 2 ∧
        (max x target + detect) / 2 < detect := by constructor <;> linarith
    exact ⟨(max x target + detect) / 2, (le_max_left _ _).trans hlo.le, hhi,
      .inr ⟨(le_max_right _ _).trans_lt hlo, hhi.trans_le hle⟩⟩

theorem fits_of_detectsInOrder {r : Runtime K} {p : DrillStartParams K} {sh : MotionShared K}
    (hb : p.breakout = true) (h : DetectsInOrder r p sh) : p.touch = true ∨ MemoryFits r p sh := by
  by_cases ht : p.touch = true
  · exact .inl ht
  have ht : p.touch = false := Bool.eq_false_of_not_eq_true ht
  have hfresh : r.Unseen := by
    have hnow := h.fresh [] (fun dp hmem => by simp at hmem)
    simpa [startOn, newOn, ht, Runtime.Unseen] using hnow
  refine .inr ⟨hfresh, ?_⟩
  by_contra hnot
  obtain ⟨hlate, hx⟩ := not_or.mp hnot
  obtain ⟨y, hxy, hyd, hy⟩ := exists_early (not_le.mp hlate) (not_lt.mp hx)
  obtain ⟨htask, hpos⟩ : _ ∧ currentPos (Machine.run step (startOn r p sh) untilDrilling).shared = _ :=
    untilDrilling_run ht
  let inp : CycleInput K :=
    ⟨false, (currentPos sh - y) / UnitConverter.mmMin2bluP_, 0, 0, 1000000000⟩
  have hrun : Machine.run step (startOn r p sh) (untilDrilling ++ [.runOnce inp]) =
      (Machine.run step (startOn r p sh) untilDrilling).step (.runOnce inp) := Machine.run_append
  generalize hs : Machine.run step (startOn r p sh) untilDrilling = s at htask hpos hrun
  have hservo : currentPos s.shared - UnitConverter.mmMin2bluP inp.servoCalcedSpeedMmMin = y := by
    show currentPos s.shared - (currentPos sh - y) / UnitConverter.mmMin2bluP_ *
      UnitConverter.mmMin2bluP_ = y
    rw [div_mul_cancel₀ _ mmMin2bluP_pos.ne', hpos, sub_sub_cancel]
  have hnext : _ ∧ (s.task.drilling s.shared inp).1.runtime.startBreakthroughDetect = true ∧
      currentPos (s.task.drilling s.shared inp).2 = y :=
    drilling_arrives (by rw [htask]; exact hb) (by rw [htask]; exact hfresh.2) hservo
      (by rw [htask]; exact hyd) (by rw [htask]; exact hy)
  have hparams := s.task.drilling_startParams s.shared inp
  have htask' : (s.step (.runOnce inp)).task = (s.task.drilling s.shared inp).1 := by
    simp [step, DrillAutoTask.runOnce, htask]
  have hshared' : (s.step (.runOnce inp)).shared = (s.task.drilling s.shared inp).2 := by
    simp [step, DrillAutoTask.runOnce, htask]
  have hkeeps : KeepsParams (untilDrilling ++ [.runOnce inp]) := by
    intro dp hmem
    simp [untilDrilling] at hmem
  have hpassed := h.passed _ hkeeps
  have hstate : s.task.drillState = .drilling := by rw [htask]
  have hp : s.task.startParams = p := by rw [htask]
  simp only [hrun, htask', evaluates, hnext.1, hnext.2.1, DrillAutoTask.detectFrom, hparams, hstate, hp,
    ht, decide_true, Bool.and_self, Bool.false_eq_true, if_false, forall_const] at hpassed
  obtain ⟨done, hpre, hdrills, hlt⟩ := hpassed
  rcases prefix_untilDrilling ht hpre hdrills with rfl | rfl
  · rw [hs, hpos] at hlt
    exact hx hlt
  · rw [hrun, hshared', hnext.2.2] at hlt
    exact hlt.not_ge hxy

end DrillSystem

namespace Sample

/-- A hole of forty, with the detection on. -/
def throughHole (touch : Bool) : DrillStartParams ℚ := ⟨40, 0, touch, true, true⟩

/-- The workpiece is touched, the servo goes down by fifteen, the breakthrough is seen; the cycle after
these judges its end. -/
def untilJudged (t0 : ℤ) : List (DrillSystem.Call ℚ) :=
  [.runOnce ⟨false, 0, 0, 0, (t0 - 9000) * 1000000⟩, .runOnce ⟨false, 0, 0, 0, (t0 - 7000) * 1000000⟩,
    .runOnce ⟨true, 0, 0, 0, (t0 - 7000) * 1000000⟩] ++
  List.replicate 4 (.runOnce ⟨false, 0, 0, 0, (t0 - 7000) * 1000000⟩) ++
  [.runOnce ⟨false, 0, 0, 0, (t0 - 5000) * 1000000⟩, .runOnce ⟨false, 900, 0, 0, (t0 - 5000) * 1000000⟩,
    .runOnce ⟨false, 0, 400, 0, (t0 - 1) * 1000000⟩]

end Sample

namespace DrillSystem

open DrillAutoTask Sample

attribute [local instance] Sample.drillSettings

theorem holds_of_early_clock :
    (Machine.run step (startOn .cleared (throughHole true) drillShared)
      (untilJudged 10000 ++ [.runOnce (cycleAt 10000)])).HoldsFor 10000 1000 := by
  have hiff := holds_iff_end_fits .cleared (throughHole true) drillShared (untilJudged 10000)
    (cycleAt 10000) 1000 (by decide +kernel) (by decide +kernel) (by decide +kernel)
  rw [currentTimeMs_cycleAt] at hiff
  exact hiff.mpr (by decide)

/-- The end of the breakthrough is judged in 2023; the next cycle, a millisecond later, ends the drilling
that should go on for a second. -/
theorem not_holds_today :
    let before := Machine.run step (startOn .cleared (throughHole true) drillShared)
      (untilJudged 1700000000000)
    let s := before.step (.runOnce (cycleAt 1700000000000))
    before.task.runtime.detectState = 1 ∧ s.task.drillState = .drilling ∧
      s.task.runtime.detectState = 2 ∧
      s.shared.drillParams.waitTimeMsAfterBreakoutEndJudged = 1000 ∧
      ¬s.HoldsFor 1700000000000 1000 := by
  refine ⟨by decide +kernel, by decide +kernel, by decide +kernel, by decide +kernel, ?_⟩
  intro h
  have hnext := h [] (cycleAt 1700000000001) (by decide +kernel) (by decide +kernel) (by decide +kernel)
  revert hnext
  unfold AtDepth
  decide +kernel

end DrillSystem

end Edm
