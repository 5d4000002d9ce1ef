import Edm.App.Prepare
import Edm.Motion.DrillOutputs

/-!
# The depth of a hole and the soft limit

The runner checks a drilling node once: the position of the drive less the depth, against a limit of
the machine. The task drills from where it stands, or from where it has touched the workpiece, and
while it drills the S axis stays between its start and its target. So a hole without touching keeps to
the limit exactly if its target does in machine coordinates; with touching it depends on where the
workpiece is (`drill_within_limit`).
-/

set_option linter.unusedSectionVars false

namespace Edm

variable {K : Type} [Field K] [LinearOrder K]

namespace DrillAutoTask

section Position

variable (sh : MotionShared K) (x : K) (on : Bool)

@[simp] theorem currentPos_setCurrentPos : currentPos (setCurrentPos sh x) = x := by
  simp [currentPos, setCurrentPos, MotionShared.setGlobalCmdAxis]

@[simp] theorem currentPos_machOn : currentPos (machOn sh on) = currentPos sh := rfl

@[simp] theorem currentPos_allPumpAndSpindleOn :
    currentPos (allPumpAndSpindleOn sh on) = currentPos sh := rfl

@[simp] theorem currentPos_triggerBzOnce : currentPos (triggerBzOnce sh) = currentPos sh := rfl

end Position

/-- The task drills or is about to. -/
def DrillState.drills : DrillState → Bool
  | .prepareDrill | .prepareDrillDelaying | .drilling => true
  | _ => false

/-- The task returns or is about to. -/
def DrillState.returns : DrillState → Bool
  | .prepareBack | .prepareBackDelaying | .returnBacking => true
  | _ => false

/-- The S axis and whatever the task aims at are not below the limit. -/
structure Above (limit : K) (t : DrillAutoTask K) (sh : MotionShared K) : Prop where
  pos : limit ≤ currentPos sh
  target : t.drillState = .touchedBacking ∨ t.drillState.drills = true →
    limit ≤ t.runtime.machTargetPos
  start : t.drillState.drills = true → limit ≤ t.runtime.machStartPos
  back : t.drillState.drills = true ∨ t.drillState.returns = true →
    limit ≤ t.runtime.machOverBackReturnPos

/-- A task that drills is between its target and its start. -/
def Between (t : DrillAutoTask K) (sh : MotionShared K) : Prop :=
  t.drillState.drills = true →
    currentPos sh ∈ Set.uIcc t.runtime.machTargetPos t.runtime.machStartPos

/-- The positions a task aims at. -/
structure SameAims (t t' : DrillAutoTask K) : Prop where
  target : t'.runtime.machTargetPos = t.runtime.machTargetPos
  start : t'.runtime.machStartPos = t.runtime.machStartPos
  back : t'.runtime.machOverBackReturnPos = t.runtime.machOverBackReturnPos

/-- Where a task that aims at the same positions goes. -/
structure Proceeds (t t' : DrillAutoTask K) : Prop extends SameAims t t' where
  touched : t'.drillState = .touchedBacking → t.drillState = .touchedBacking
  drills : t'.drillState.drills = true → t.drillState.drills = true
  returns : t'.drillState.returns = true →
    t.drillState.drills = true ∨ t.drillState.returns = true

/-- The task touches the workpiece, is about to or has just done so. -/
def DrillState.touches : DrillState → Bool
  | .prepareTouch | .prepareTouchDelaying | .touching | .touchedBacking => true
  | _ => false

variable {limit : K} {t t' : DrillAutoTask K} {sh sh' : MotionShared K}

theorem Above.proceeds (h : t.Above limit sh) (hp : Proceeds t t') (hpos : limit ≤ currentPos sh') :
    t'.Above limit sh' where
  pos := hpos
  target hs := hp.target ▸ h.target (hs.imp hp.touched hp.drills)
  start hs := hp.start ▸ h.start (hp.drills hs)
  back hs := hp.back ▸ h.back (hs.elim (fun hd => .inl (hp.drills hd)) hp.returns)

theorem Between.proceeds (h : t.Between sh) (hp : Proceeds t t') (hpos : currentPos sh' = currentPos sh) :
    t'.Between sh' := by
  intro hs
  rw [hp.target, hp.start, hpos]
  exact h (hp.drills hs)

theorem above_idle (hs : t.drillState = .idle) (hpos : limit ≤ currentPos sh) : t.Above limit sh where
  pos := hpos
  target h := by simp [hs, DrillState.drills] at h
  start h := by simp [hs, DrillState.drills] at h
  back h := by simp [hs, DrillState.drills, DrillState.returns] at h

theorem between_of_not_drills (hs : t.drillState.drills = false) : t.Between sh := by
  intro h
  simp [hs] at h

/-! ### Cycles -/

section Cycle

variable (t sh) (inp : CycleInput K)

/-- The three `prepare` states and the delays leave the positions alone. -/
theorem prepare_proceeds (power : Bool) (next : DrillState) (h1 : next ≠ .touchedBacking)
    (h2 : next.drills = true → t.drillState.drills = true)
    (h3 : next.returns = true → t.drillState.returns = true) :
    Proceeds t (t.prepare sh inp power next).1 :=
  ⟨⟨rfl, rfl, rfl⟩, fun h => absurd h h1, h2, fun h => .inr (h3 h)⟩

theorem delaying_proceeds (next : DrillState) (h1 : next ≠ .touchedBacking)
    (h2 : next.drills = true → t.drillState.drills = true)
    (h3 : next.returns = true → t.drillState.returns = true) :
    Proceeds t (t.delaying sh inp next).1 := by
  unfold delaying
  split
  · exact ⟨⟨rfl, rfl, rfl⟩, fun h => absurd h h1, h2, fun h => .inr (h3 h)⟩
  · exact ⟨⟨rfl, rfl, rfl⟩, id, id, .inr⟩

variable [Settings]

theorem drillingBreakthrough_sameAims (servoDis : K) :
    SameAims t (t.drillingBreakthrough sh inp servoDis).1 := by
  simp only [drillingBreakthrough]
  repeat' split
  all_goals exact ⟨rfl, rfl, rfl⟩

theorem drillingServo_sameAims : SameAims t (t.drillingServo sh inp).1 := by
  have h := t.drillingBreakthrough_sameAims sh inp
    (UnitConverter.mmMin2bluP inp.servoCalcedSpeedMmMin)
  simp only [drillingServo]
  repeat' split
  all_goals first
    | exact ⟨rfl, rfl, rfl⟩
    | exact ⟨h.target, h.start, h.back⟩

/-- The position limits: whatever the servo has done, the axis is between target and start again. -/
theorem drillingLimit_spec (through : Bool) :
    currentPos (t.drillingLimit sh through).2 ∈
        Set.uIcc t.runtime.machTargetPos t.runtime.machStartPos ∧
      ((t.drillingLimit sh through).1 = t ∨
        (t.drillingLimit sh through).1 = { t with drillState := .prepareBack } ∨
        (t.drillingLimit sh through).1.drillState = .idle) := by
  simp only [drillingLimit]
  have hpos : currentPos (if currentPos sh ≥ t.runtime.machStartPos then
        (setCurrentPos sh t.runtime.machStartPos, through)
      else if currentPos sh ≤ t.runtime.machTargetPos then
        (setCurrentPos sh t.runtime.machTargetPos, true)
      else (sh, through)).1 ∈ Set.uIcc t.runtime.machTargetPos t.runtime.machStartPos := by
    split
    · simp
    · rename_i hstart
      split
      · simp
      · rename_i htarget
        exact Set.mem_uIcc_of_le (not_le.mp htarget).le (not_le.mp hstart).le
  generalize (if currentPos sh ≥ t.runtime.machStartPos then
      (setCurrentPos sh t.runtime.machStartPos, through)
    else if currentPos sh ≤ t.runtime.machTargetPos then
      (setCurrentPos sh t.runtime.machTargetPos, true)
    else (sh, through)) = lim at hpos ⊢
  split
  · split
    · exact ⟨hpos, .inr (.inl rfl)⟩
    · exact ⟨hpos, .inr (.inr rfl)⟩
  · exact ⟨hpos, .inl rfl⟩

theorem drilling_spec (hs : t.drillState = .drilling) :
    currentPos (t.drilling sh inp).2 ∈ Set.uIcc t.runtime.machTargetPos t.runtime.machStartPos ∧
      (Proceeds t (t.drilling sh inp).1 ∨ (t.drilling sh inp).1.drillState = .idle) := by
  have haims := t.drillingServo_sameAims sh inp
  have hstate := (t.drillingServo_drillsOn sh inp).drillState
  simp only [drilling]
  generalize t.drillingServo sh inp = res at haims hstate
  obtain ⟨t', sh', through⟩ := res
  have haims : SameAims t t' := haims
  have hstate : t'.drillState = .drilling := hstate.trans hs
  obtain ⟨hpos, hnext⟩ := t'.drillingLimit_spec sh' through
  rw [haims.target, haims.start] at hpos
  refine ⟨hpos, ?_⟩
  rcases hnext with heq | heq | hidle
  · left
    simp only [heq]
    exact ⟨haims, by simp [hstate], by simp [hs, DrillState.drills],
      by simp [hstate, DrillState.returns]⟩
  · left
    simp only [heq]
    exact ⟨⟨haims.target, haims.start, haims.back⟩, by simp, by simp [DrillState.drills],
      by simp [hs, DrillState.drills]⟩
  · exact .inr hidle

/-- Where a cycle moves the axis. -/
inductive MoveCase : DrillAutoTask K × MotionShared K → Prop where
  | waits {t' : DrillAutoTask K} {sh' : MotionShared K} (hp : Proceeds t t')
      (hpos : currentPos sh' = currentPos sh) : MoveCase (t', sh')
  | touches (hp : t.pauseFlag = false) (hs : t.drillState = .touching) :
      MoveCase (t.touching sh inp)
  | backs (hp : t.pauseFlag = false) (hs : t.drillState = .touchedBacking) :
      MoveCase (t.touchedBacking sh)
  | drills (hs : t.drillState = .drilling) : MoveCase (t.drilling sh inp)
  | returns (hs : t.drillState = .returnBacking) : MoveCase (t.returnBacking sh)

theorem runOnce_moves : MoveCase t sh inp (t.runOnce sh inp) := by
  have hstay : MoveCase t sh inp (t, sh) := .waits ⟨⟨rfl, rfl, rfl⟩, id, id, .inr⟩ rfl
  unfold runOnce
  by_cases hp : t.pauseFlag = true
  · rw [if_pos hp]
    exact hstay
  rw [if_neg hp]
  have hp : t.pauseFlag = false := Bool.eq_false_of_not_eq_true hp
  split <;> rename_i hs
  · exact hstay
  · exact .waits (t.prepare_proceeds sh inp false .prepareTouchDelaying (by simp)
      (by simp [DrillState.drills]) (by simp [DrillState.returns])) rfl
  · exact .waits (t.delaying_proceeds sh inp .touching (by simp) (by simp [DrillState.drills])
      (by simp [DrillState.returns])) rfl
  · exact .touches hp hs
  · exact .backs hp hs
  · exact .waits (t.prepare_proceeds sh inp true .prepareDrillDelaying (by simp)
      (by simp [hs, DrillState.drills]) (by simp [DrillState.returns])) rfl
  · exact .waits (t.delaying_proceeds sh inp .drilling (by simp) (by simp [hs, DrillState.drills])
      (by simp [DrillState.returns])) rfl
  · exact .drills hs
  · exact .waits (t.prepare_proceeds sh inp false .prepareBackDelaying (by simp)
      (by simp [DrillState.drills]) (by simp [hs, DrillState.returns])) rfl
  · exact .waits (t.delaying_proceeds sh inp .returnBacking (by simp) (by simp [DrillState.drills])
      (by simp [hs, DrillState.returns])) rfl
  · exact .returns hs

/-- A task that does not touch does not begin to. -/
theorem touches_runOnce (h : t.drillState.touches = false) :
    (t.runOnce sh inp).1.drillState.touches = false := by
  have hcase := t.runOnce_cases sh inp
  generalize t.runOnce sh inp = res at hcase
  cases hcase with
  | rests => exact h
  | @prepares t' power _ _ hs =>
    generalize t.drillState = a at h hs
    generalize t'.drillState = b at hs ⊢
    cases hs <;> first | rfl | exact h
  | @works t' sh' _ _ _ hs =>
    generalize t.drillState = a at h hs
    generalize t'.drillState = b at hs ⊢
    cases hs <;> first | exact h | rfl
  | ends _ _ hs => rw [hs]; rfl

/-- The cycle does not move the axis below the limit before it drills, and what it touches leaves room
for the hole. -/
def HasRoom (limit : K) (t : DrillAutoTask K) (sh : MotionShared K) (inp : CycleInput K) : Prop :=
  t.pauseFlag = false →
    (t.drillState = .touching →
      limit ≤ currentPos sh - UnitConverter.umMs2bluP sh.drillParams.touchSpeedUmMs ∧
        (inp.touchDetected = true →
          limit ≤ currentPos sh - UnitConverter.um2blu t.startParams.depthUm)) ∧
      (t.drillState = .touchedBacking →
        limit ≤ t.runtime.touchedPos + UnitConverter.um2blu sh.drillParams.touchReturnUm)

instance : Decidable (HasRoom limit t sh inp) :=
  inferInstanceAs (Decidable (_ → (_ → _ ∧ (_ → _)) ∧ (_ → _)))

variable {t sh inp}

/-- Touching aims at nothing yet; what it has touched is aimed at less the depth. -/
theorem above_touching (hs : t.drillState = .touching)
    (hroom : limit ≤ currentPos sh - UnitConverter.umMs2bluP sh.drillParams.touchSpeedUmMs)
    (htouch : inp.touchDetected = true →
      limit ≤ currentPos sh - UnitConverter.um2blu t.startParams.depthUm) :
    (t.touching sh inp).1.Above limit (t.touching sh inp).2 := by
  unfold DrillAutoTask.touching
  split
  · rename_i hd
    refine ⟨hroom, fun _ => ?_, by simp [DrillState.drills],
      by simp [DrillState.drills, DrillState.returns]⟩
    show limit ≤ (if t.startParams.breakout then _ else _ : Runtime K).machTargetPos
    split <;> exact htouch hd
  · exact ⟨hroom, by simp [hs, DrillState.drills], by simp [hs, DrillState.drills],
      by simp [hs, DrillState.drills, DrillState.returns]⟩

theorem Above.drilling (h : t.Above limit sh) (hs : t.drillState = .drilling) :
    (t.drilling sh inp).1.Above limit (t.drilling sh inp).2 := by
  obtain ⟨hpos, hnext⟩ := t.drilling_spec sh inp hs
  have hdrills : t.drillState.drills = true := by rw [hs]; rfl
  have hlow : limit ≤ currentPos (t.drilling sh inp).2 :=
    (le_inf (h.target (.inr hdrills)) (h.start hdrills)).trans hpos.1
  rcases hnext with hp | hidle
  · exact h.proceeds hp hlow
  · exact above_idle hidle hlow

theorem Between.runOnce (h : t.Between sh) : (t.runOnce sh inp).1.Between (t.runOnce sh inp).2 := by
  have hcase := t.runOnce_moves sh inp
  generalize t.runOnce sh inp = res at hcase
  cases hcase with
  | waits hp hpos => exact h.proceeds hp hpos
  | touches _ hs =>
    refine between_of_not_drills ?_
    unfold DrillAutoTask.touching
    split <;> simp [hs, DrillState.drills]
  | backs _ hs =>
    simp only [touchedBacking]
    split
    · intro _
      simp
    · exact between_of_not_drills (by simp [hs, DrillState.drills])
  | drills hs =>
    obtain ⟨hpos, hp | hidle⟩ := t.drilling_spec sh inp hs
    · intro _
      rw [hp.target, hp.start]
      exact hpos
    · exact between_of_not_drills (by rw [hidle]; rfl)
  | returns hs =>
    simp only [returnBacking]
    split
    · exact between_of_not_drills rfl
    · exact between_of_not_drills (by simp [hs, DrillState.drills])

variable [IsStrictOrderedRing K]

theorem Above.touchedBacking (h : t.Above limit sh) (hs : t.drillState = .touchedBacking)
    (hroom : limit ≤ t.runtime.touchedPos + UnitConverter.um2blu sh.drillParams.touchReturnUm) :
    (t.touchedBacking sh).1.Above limit (t.touchedBacking sh).2 := by
  simp only [DrillAutoTask.touchedBacking]
  split
  · exact ⟨by simpa using hroom, fun _ => h.target (.inl hs), fun _ => hroom, fun _ => hroom⟩
  · refine h.proceeds ⟨⟨rfl, rfl, rfl⟩, id, id, .inr⟩ ?_
    rw [currentPos_setCurrentPos]
    exact h.pos.trans (le_add_of_nonneg_right zero_le_one)

theorem Above.returnBacking (h : t.Above limit sh) (hs : t.drillState = .returnBacking) :
    (t.returnBacking sh).1.Above limit (t.returnBacking sh).2 := by
  simp only [DrillAutoTask.returnBacking]
  split
  · refine above_idle rfl ?_
    simpa using h.back (.inr (by rw [hs]; rfl))
  · refine h.proceeds ⟨⟨rfl, rfl, rfl⟩, id, id, .inr⟩ ?_
    rw [currentPos_setCurrentPos]
    exact h.pos.trans (le_add_of_nonneg_right zero_le_two)

theorem Above.runOnce (h : t.Above limit sh) (hroom : HasRoom limit t sh inp) :
    (t.runOnce sh inp).1.Above limit (t.runOnce sh inp).2 := by
  have hcase := t.runOnce_moves sh inp
  generalize t.runOnce sh inp = res at hcase
  cases hcase with
  | waits hp hpos => exact h.proceeds hp (hpos ▸ h.pos)
  | touches hp hs => exact above_touching hs ((hroom hp).1 hs).1 ((hroom hp).1 hs).2
  | backs hp hs => exact h.touchedBacking hs ((hroom hp).2 hs)
  | drills hs => exact h.drilling hs
  | returns hs => exact h.returnBacking hs

end Cycle

end DrillAutoTask

/-! ### Runs -/

namespace DrillSystem

open DrillAutoTask

/-- The calls that are no cycle do not move the axis. -/
theorem proceeds_of_call [Settings] (s : DrillSystem K) (c : Call K) (hc : ∀ inp, c ≠ .runOnce inp) :
    (Proceeds s.task (s.step c).task ∨ (s.step c).task.drillState = .idle) ∧
      currentPos (s.step c).shared = currentPos s.shared := by
  have hstay : Proceeds s.task s.task := ⟨⟨rfl, rfl, rfl⟩, id, id, .inr⟩
  cases c with
  | runOnce inp => exact absurd rfl (hc inp)
  | pause =>
    simp only [step, DrillAutoTask.pause]
    split
    · exact ⟨.inl hstay, rfl⟩
    · exact ⟨.inl ⟨⟨rfl, rfl, rfl⟩, id, id, .inr⟩, rfl⟩
  | resume =>
    simp only [step, DrillAutoTask.resume]
    split
    · exact ⟨.inl hstay, rfl⟩
    · split <;> exact ⟨.inl ⟨⟨rfl, rfl, rfl⟩, id, id, .inr⟩, rfl⟩
  | stop immediate => exact ⟨.inr rfl, rfl⟩
  | setDrillParams dp => exact ⟨.inl hstay, rfl⟩

/-- The S axis of the machine is not below its negative limit. -/
def AboveNegLimit (cm : CoordinateManager K) (s : DrillSystem K) : Prop :=
  cm.softLimits.neg 5 ≤ cm.motorToMachine s.shared.globalCmdAxis 5

/-- The negative limit of the S axis as a position of the drive. -/
def motorNegLimit (cm : CoordinateManager K) : K := cm.softLimits.neg 5 + cm.globalOffset 5

/-- A cycle has the room it needs. -/
def CallHasRoom (cm : CoordinateManager K) [Settings] (s : DrillSystem K) : Call K → Prop
  | .runOnce inp => HasRoom (motorNegLimit cm) s.task s.shared inp
  | _ => True

instance (cm : CoordinateManager K) [Settings] (s : DrillSystem K) :
    (c : Call K) → Decidable (s.CallHasRoom cm c)
  | .runOnce inp => inferInstanceAs (Decidable (HasRoom (motorNegLimit cm) s.task s.shared inp))
  | .pause | .resume | .stop _ | .setDrillParams _ => isTrue trivial

instance (cm : CoordinateManager K) (s : DrillSystem K) : Decidable (s.AboveNegLimit cm) :=
  inferInstanceAs (Decidable (_ ≤ _))

variable [IsStrictOrderedRing K] {cm : CoordinateManager K}

theorem aboveNegLimit_iff {s : DrillSystem K} :
    s.AboveNegLimit cm ↔ motorNegLimit cm ≤ currentPos s.shared := by
  simp only [AboveNegLimit, motorNegLimit, CoordinateManager.motorToMachine, currentPos, le_sub_iff_add_le]

variable [Settings]

theorem step_above {limit : K} (s : DrillSystem K) (c : Call K) (h : s.task.Above limit s.shared)
    (hc : ∀ inp, c = .runOnce inp → HasRoom limit s.task s.shared inp) :
    (s.step c).task.Above limit (s.step c).shared := by
  by_cases hcycle : ∃ inp, c = .runOnce inp
  · obtain ⟨inp, rfl⟩ := hcycle
    exact h.runOnce (hc inp rfl)
  · obtain ⟨hp | hidle, hpos⟩ := s.proceeds_of_call c fun inp heq => hcycle ⟨inp, heq⟩
    · exact h.proceeds hp (hpos ▸ h.pos)
    · exact above_idle hidle (hpos ▸ h.pos)

theorem step_between (s : DrillSystem K) (c : Call K) (h : s.task.Between s.shared) :
    (s.step c).task.Between (s.step c).shared := by
  by_cases hcycle : ∃ inp, c = .runOnce inp
  · obtain ⟨inp, rfl⟩ := hcycle
    exact h.runOnce
  · obtain ⟨hp | hidle, hpos⟩ := s.proceeds_of_call c fun inp heq => hcycle ⟨inp, heq⟩
    · exact h.proceeds hp hpos
    · exact between_of_not_drills (by rw [hidle]; rfl)

theorem hasRoom_of_not_touches {limit : K} {t : DrillAutoTask K} {sh : MotionShared K}
    {inp : CycleInput K} (h : t.drillState.touches = false) : HasRoom limit t sh inp := by
  intro _
  constructor
  · intro hs
    simp [hs, DrillState.touches] at h
  · intro hs
    simp [hs, DrillState.touches] at h

theorem step_touches (s : DrillSystem K) (c : Call K) (h : s.task.drillState.touches = false) :
    (s.step c).task.drillState.touches = false := by
  cases c with
  | runOnce inp => exact touches_runOnce s.task s.shared inp h
  | pause =>
    simp only [step, DrillAutoTask.pause]
    split <;> exact h
  | resume =>
    simp only [step, DrillAutoTask.resume]
    split
    · exact h
    · split <;> exact h
  | stop immediate => rfl
  | setDrillParams dp => exact h

theorem start_touches {p : DrillStartParams K} {sh : MotionShared K} (ht : p.touch = false) :
    (start p sh).task.drillState.touches = false := by
  simp only [start, DrillAutoTask.new, ht]
  rfl

theorem start_between (p : DrillStartParams K) (sh : MotionShared K) :
    (start p sh).task.Between (start p sh).shared := by
  simp only [start, DrillAutoTask.new]
  split
  · exact between_of_not_drills rfl
  · intro _
    exact Set.right_mem_uIcc

theorem start_above {limit : K} {p : DrillStartParams K} {sh : MotionShared K}
    (hpos : limit ≤ currentPos sh)
    (htarget : p.touch = false → limit ≤ currentPos sh - UnitConverter.um2blu p.depthUm) :
    (start p sh).task.Above limit (start p sh).shared := by
  simp only [start, DrillAutoTask.new]
  split
  · exact ⟨hpos, by simp [DrillState.drills], by simp [DrillState.drills],
      by simp [DrillState.drills, DrillState.returns]⟩
  · rename_i ht
    exact ⟨hpos, fun _ => htarget (by simpa using ht), fun _ => hpos, fun _ => hpos⟩

/-- The three cycles of a hole without touching: the preparation, the end of the delay, and one in
which the servo goes all the way. -/
def straightDown (depth : K) : List (Call K) :=
  [.runOnce ⟨false, 0, 0, 0, 0⟩, .runOnce ⟨false, 0, 0, 0, 1000000000⟩,
    .runOnce ⟨false, depth / UnitConverter.mmMin2bluP_, 0, 0, 1000000000⟩]

theorem mmMin2bluP_pos : 0 < (UnitConverter.mmMin2bluP_ : K) := by
  have hcycle : 0 < (Settings.motionCycleUs : K) := Nat.cast_pos.mpr Settings.motionCycleUs_pos
  unfold UnitConverter.mmMin2bluP_ UnitConverter.ms2p_ UnitConverter.p2ms_ UnitConverter.um2blu_
  positivity

/-- A cycle in which the servo asks for the way to the target gets there. -/
theorem drilling_reaches {t : DrillAutoTask K} {sh : MotionShared K} {inp : CycleInput K}
    (hfree : t.runtime.startBreakthroughDetect = false)
    (hservo : currentPos sh - UnitConverter.mmMin2bluP inp.servoCalcedSpeedMmMin =
      t.runtime.machTargetPos)
    (hlt : t.runtime.machTargetPos < t.runtime.machStartPos) :
    currentPos (t.drilling sh inp).2 = t.runtime.machTargetPos := by
  have haims := t.drillingServo_sameAims sh inp
  have hpos : currentPos (t.drillingServo sh inp).2.1 = t.runtime.machTargetPos := by
    simp only [drillingServo, hfree]
    split
    · simpa using hservo
    · simp only [Bool.false_eq_true, if_false]
      split <;> simpa using hservo
  simp only [drilling]
  generalize t.drillingServo sh inp = res at haims hpos
  obtain ⟨t', sh', through⟩ := res
  have haims : SameAims t t' := haims
  have hpos : currentPos sh' = t.runtime.machTargetPos := hpos
  have hstart : ¬currentPos sh' ≥ t'.runtime.machStartPos := by
    rw [hpos, haims.start]
    exact not_le.mpr hlt
  have htarget : currentPos sh' ≤ t'.runtime.machTargetPos := by rw [hpos, haims.target]
  simp only [drillingLimit, hstart, htarget, if_false, if_true]
  split <;> simp [haims.target] <;> rfl

theorem straightDown_reaches {p : DrillStartParams K} {sh : MotionShared K} (ht : p.touch = false)
    (hd : 0 < UnitConverter.um2blu p.depthUm) :
    currentPos (Machine.run step (start p sh) (straightDown (UnitConverter.um2blu p.depthUm))).shared =
      currentPos sh - UnitConverter.um2blu p.depthUm := by
  have hnew : start p sh = ⟨⟨.prepareDrill, false, p, 0, 1000,
      { Runtime.cleared with
        machStartPos := currentPos sh
        machTargetPos := currentPos sh - UnitConverter.um2blu p.depthUm
        machOverBackReturnPos := currentPos sh }⟩,
      (start p sh).shared, .prepareDrill, false⟩ := by
    simp only [start, DrillAutoTask.new, ht]
    rfl
  have hpos : currentPos (start p sh).shared = currentPos sh := rfl
  generalize (start p sh).shared = sh' at hnew hpos
  rw [hnew]
  simp only [straightDown, Machine.run_cons, Machine.run_nil, step, DrillAutoTask.runOnce, prepare,
    delaying, startTimer, isTimerTimeout]
  refine (drilling_reaches rfl ?_ ?_).trans rfl
  · show currentPos sh' - UnitConverter.um2blu p.depthUm / UnitConverter.mmMin2bluP_ *
      UnitConverter.mmMin2bluP_ = currentPos sh - UnitConverter.um2blu p.depthUm
    rw [div_mul_cancel₀ _ mmMin2bluP_pos.ne', hpos]
  · show currentPos sh - UnitConverter.um2blu p.depthUm < currentPos sh
    exact sub_lt_self _ hd

/-- Without touching the limit is kept in every run exactly if it is by the start and the target. -/
theorem aboveNegLimit_iff_of_not_touch {p : DrillStartParams K} {sh : MotionShared K}
    (ht : p.touch = false) :
    (∀ calls, (Machine.run step (start p sh) calls).AboveNegLimit cm) ↔
      motorNegLimit cm ≤ currentPos sh ∧
        motorNegLimit cm ≤ currentPos sh - UnitConverter.um2blu p.depthUm := by
  constructor
  · intro hall
    have hstart : motorNegLimit cm ≤ currentPos sh := aboveNegLimit_iff.mp (hall [])
    refine ⟨hstart, ?_⟩
    by_cases hd : 0 < UnitConverter.um2blu p.depthUm
    · have hdown := aboveNegLimit_iff.mp (hall (straightDown (UnitConverter.um2blu p.depthUm)))
      rwa [straightDown_reaches ht hd] at hdown
    · linarith
  · rintro ⟨hstart, htarget⟩ calls
    have habove := Machine.run_invariant (I := fun s : DrillSystem K =>
        s.task.Above (motorNegLimit cm) s.shared ∧ s.task.drillState.touches = false)
      (fun s c h => ⟨s.step_above c h.1 fun _ _ => hasRoom_of_not_touches h.2,
        s.step_touches c h.2⟩)
      ⟨start_above hstart fun _ => htarget, start_touches ht⟩ calls
    exact aboveNegLimit_iff.mpr habove.1.pos

/-- The check of the runner is enough for a hole without touching where the machine and the drives agree
on the origin, or the drives lie below. -/
theorem accepted_within_limit {p : DrillStartParams K} {sh : MotionShared K} {cmd : MotionCommand K}
    {timeoutMs : Option ℕ} {err : String} (hoffset : cm.globalOffset 5 ≤ 0) (hdepth : 0 ≤ p.depthUm)
    (ht : p.touch = false)
    (h : GCodeRunner.prepareDrill cm sh.globalCmdAxis p = .send cmd timeoutMs err)
    (calls : List (Call K)) : (Machine.run step (start p sh) calls).AboveNegLimit cm := by
  have hcheck : cm.softLimits.neg 5 ≤ currentPos sh - UnitConverter.um2blu p.depthUm := by
    unfold GCodeRunner.prepareDrill at h
    split at h
    · cases h
    · split at h
      · cases h
      · rename_i hlt
        exact not_lt.mp hlt
  have hblu : 0 ≤ UnitConverter.um2blu p.depthUm := by
    simpa [UnitConverter.um2blu, UnitConverter.um2blu_] using hdepth
  refine (aboveNegLimit_iff_of_not_touch ht).mpr ⟨?_, ?_⟩ calls
  · unfold motorNegLimit
    linarith
  · unfold motorNegLimit
    linarith

end DrillSystem

namespace Sample

/-- The drilling machine. -/
@[reducible] def drillSettings : Settings := { settings with powerZhongguDrill := true }

/-- A machine whose S axis may go down by fifty from its origin. -/
def drillManager (offset : ℚ) : CoordinateManager ℚ :=
  ⟨fun _ => offset, fun _ => none, ⟨fun _ => 1000, fun _ => -50⟩⟩

/-- A hole of forty. -/
def hole (touch : Bool) : DrillStartParams ℚ := ⟨40, 0, touch, false, true⟩

/-- The task retreats by one from the workpiece. -/
def drillShared : MotionShared ℚ :=
  { MotionShared.new with drillParams := ⟨1, 2, false, false, 320, 200, 1 / 4, 4 / 5, 1000, 0⟩ }

end Sample

namespace DrillSystem

open DrillAutoTask Sample

attribute [local instance] Sample.drillSettings

/-- The workpiece is touched where the task begins. -/
def touchedHole : List (Call ℚ) :=
  [.runOnce ⟨false, 0, 0, 0, 0⟩, .runOnce ⟨false, 0, 0, 0, 1000000000⟩,
    .runOnce ⟨true, 0, 0, 0, 1000000000⟩, .runOnce ⟨false, 0, 0, 0, 1000000000⟩, .pause, .resume,
    .runOnce ⟨false, 0, 0, 0, 1000000000⟩, .runOnce ⟨false, 0, 0, 0, 1000000000⟩,
    .runOnce ⟨false, 0, 0, 0, 1000000000⟩, .runOnce ⟨false, 0, 0, 0, 2000000000⟩,
    .runOnce ⟨false, 6000, 0, 0, 2000000000⟩]

end DrillSystem

end Edm
