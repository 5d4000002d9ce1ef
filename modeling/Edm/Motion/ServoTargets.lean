import Edm.App.DrillLimits
import Edm.Motion.PowerOff
import Edm.Motion.Recovery

/-!
# The targets of the drives

A drive counts pulses, the motion thread works in units of which a pulse is one part in the gear ratio.
When the drives get ready, their positions are divided by the ratios and become the commanded axis; in
every cycle after that the commanded axis is rounded to a whole unit and multiplied back. An axis
nobody moves stays where it is if its position is a whole number of units (`enabling_keeps_iff`).

The ratios are fixed: one, and a hundred on the S axis of the drilling machine. Its spindle has a
controller of its own.
-/

set_option linter.unusedSectionVars false

namespace Edm

variable {K : Type} [Field K] [LinearOrder K]

/-- `std::lround`: halves are rounded away from zero. -/
def lround [FloorRing K] (x : K) : ℤ := if 0 ≤ x then ⌊x + 1 / 2⌋ else -⌊-x + 1 / 2⌋

namespace MotionShared

/-- `gear_ratios_` -/
def gearRatios [Settings] (i : Fin 6) : ℕ := if Settings.powerZhongguDrill && i = 5 then 100 else 1

/-- `get_act_axis`, where the drives are connected. -/
def getActAxis [Settings] (pulses : Fin 6 → ℤ) : Axis K := fun i => (pulses i : K) / gearRatios i

end MotionShared

namespace MotionThread

open MotionShared (gearRatios getActAxis)

/-- The target of a drive, before it is cut to `int32_t`. -/
def targetPosition [FloorRing K] [Settings] (cmdAxis : Axis K) (i : Fin 6) : ℤ :=
  lround (cmdAxis i) * gearRatios i

/-- The targets a cycle writes, which only `EcatReady` does. -/
def writtenTargets [FloorRing K] [Settings] (t : MotionThread K) : Option (Fin 6 → ℤ) :=
  if t.threadState = .running ∧ t.ecatState = .ecatReady then
    some (targetPosition t.motionStateMachine.shared.globalCmdAxis)
  else none

/-! ### Rounding -/

section Rounding

variable [IsStrictOrderedRing K] [FloorRing K]

theorem lround_intCast (n : ℤ) : lround (n : K) = n := by
  have hhalf (m : ℤ) : ⌊(m : K) + 1 / 2⌋ = m := by
    rw [Int.floor_eq_iff]
    constructor <;> linarith
  unfold lround
  split
  · exact hhalf n
  · have := hhalf (-n)
    push_cast at this
    rw [this, neg_neg]

/-- Rounding keeps within bounds that are whole numbers and a half. -/
theorem lround_mem {x : K} {m : ℤ} (hm : 0 ≤ m) (hlow : -(m : K) - 1 / 2 < x) (hhigh : x < m + 1 / 2) :
    -m ≤ lround x ∧ lround x ≤ m := by
  unfold lround
  split
  · rename_i hx
    have hnonneg : 0 ≤ ⌊x + 1 / 2⌋ := Int.floor_nonneg.mpr (by linarith)
    have hlt : ⌊x + 1 / 2⌋ < m + 1 := Int.floor_lt.mpr (by push_cast; linarith)
    omega
  · rename_i hx
    have hnonneg : 0 ≤ ⌊-x + 1 / 2⌋ := Int.floor_nonneg.mpr (by linarith)
    have hlt : ⌊-x + 1 / 2⌋ < m + 1 := Int.floor_lt.mpr (by push_cast; linarith)
    omega

variable [Settings] {pulses : Fin 6 → ℤ} {i : Fin 6}

theorem gearRatios_eq (i : Fin 6) : gearRatios i = 1 ∨ gearRatios i = 100 := by
  unfold gearRatios
  split
  · exact .inr rfl
  · exact .inl rfl

/-- There and back: only whole units come back as they were. -/
theorem targetPosition_eq_iff :
    targetPosition (getActAxis pulses : Axis K) i = pulses i ↔ (gearRatios i : ℤ) ∣ pulses i := by
  constructor
  · intro h
    exact ⟨lround ((getActAxis pulses : Axis K) i), by rw [mul_comm]; exact h.symm⟩
  · rintro ⟨n, hn⟩
    have hgear : (gearRatios i : K) ≠ 0 := by
      rcases gearRatios_eq i with h | h <;> simp [h]
    have hact : (getActAxis pulses : Axis K) i = (n : K) := by
      unfold getActAxis
      rw [hn]
      push_cast
      exact mul_div_cancel_left₀ _ hgear
    rw [targetPosition, hact, lround_intCast, hn, mul_comm]

/-- Rounding a position of type `int32_t` to whole units does not leave the type. -/
theorem targetPosition_mem (h : -2 ^ 31 ≤ pulses i ∧ pulses i < 2 ^ 31) :
    -2 ^ 31 ≤ targetPosition (getActAxis pulses : Axis K) i ∧
      targetPosition (getActAxis pulses : Axis K) i < 2 ^ 31 := by
  have hlow : (-2 ^ 31 : K) ≤ pulses i := by exact_mod_cast h.1
  have hhigh : (pulses i : K) ≤ 2 ^ 31 - 1 := by
    have : pulses i ≤ 2 ^ 31 - 1 := by omega
    exact_mod_cast this
  rcases gearRatios_eq i with hgear | hgear
  · have heq : targetPosition (getActAxis pulses : Axis K) i = pulses i := by
      rw [targetPosition_eq_iff, hgear]
      exact one_dvd _
    rw [heq]
    exact h
  · have hbound := lround_mem (x := (getActAxis pulses : Axis K) i) (m := 21474836) (by decide)
      (by
        simp only [getActAxis, hgear]
        push_cast
        rw [lt_div_iff₀ (by norm_num)]
        linarith)
      (by
        simp only [getActAxis, hgear]
        push_cast
        rw [div_lt_iff₀ (by norm_num)]
        linarith)
    unfold targetPosition
    rw [hgear]
    push_cast
    omega

end Rounding

/-! ### An axis nobody moves -/

section Runs

variable [FloorRing K] [RealFns K] [Settings] {t : MotionThread K}

/-- The commanded axis of the thread. -/
def cmdAxis (t : MotionThread K) : Axis K := t.motionStateMachine.shared.globalCmdAxis

/-- The drives are ready and no motion is under way. -/
def Quiet (t : MotionThread K) : Prop :=
  t.ecatState = .ecatReady ∧ t.motionStateMachine.mainMode = .idle

instance (t : MotionThread K) : Decidable t.Quiet := inferInstanceAs (Decidable (_ ∧ _))

/-- The work of the cycle switches to `EcatReady`. -/
def switchesToReady (t : MotionThread K) (inp : ThreadInput K) : Bool :=
  t.threadState = .running && inp.ecat.allEnabled &&
    (t.ecatState = .ecatConnectedNotAllEnabled ||
      t.ecatState = .ecatConnectedEnabling && inp.ecat.connected)

theorem start_cmdAxis (m : MotionStateMachine K) (ts : TaskStart K) :
    (m.start ts).1.shared.globalCmdAxis = m.shared.globalCmdAxis := by
  rw [MotionStateMachine.start_eq]
  split
  · rfl
  · unfold MotionStateMachine.startAuto
    split
    · exact ts.build_globalCmdAxis m.shared
    · exact ts.build_globalCmdAxis m.shared

/-- The work of a cycle moves nothing while the state machine is idle. -/
theorem threadCycleWork_cmdAxis (hq : t.Quiet) (inp : ThreadInput K) :
    (t.threadCycleWork inp).cmdAxis = t.cmdAxis := by
  have hidle : (t.motionStateMachine.runOnce inp.cycle).shared.globalCmdAxis = t.cmdAxis := by
    unfold MotionStateMachine.runOnce
    rw [hq.2]
    split <;> rfl
  have hrunning : (t.threadstateRunning inp).cmdAxis = t.cmdAxis := by
    unfold threadstateRunning
    rw [hq.1]
    dsimp only
    split
    · rfl
    · exact hidle
  unfold threadCycleWork
  split
  · rfl
  · dsimp only
    split <;> exact hrunning
  · unfold threadstateStopping
    repeat' split
    all_goals rfl
  · rfl

/-- No command moves an axis by itself while the state machine is idle. -/
theorem handleCommand_cmdAxis (hq : t.Quiet) (nowMs hrNowNs : ℤ) (c : MotionCommand K) :
    (t.handleCommand nowMs hrNowNs c).1.cmdAxis = t.cmdAxis := by
  have hstart (ts : TaskStart K) : (t.onMachine (t.motionStateMachine.start ts)).1.cmdAxis = t.cmdAxis :=
    start_cmdAxis t.motionStateMachine ts
  cases c with
  | manualStartPointMove endPos sp touch =>
    simp only [handleCommand, MotionStateMachine.startManualPointmove, hq.2]
    repeat' split
    all_goals rfl
  | manualStopPointMove imm =>
    simp only [handleCommand, MotionStateMachine.stopManualPointmove, hq.2]
    split <;> rfl
  | autoPause =>
    simp only [handleCommand, onMachine, MotionStateMachine.pauseAuto, hq.2]
    rfl
  | autoResume =>
    simp only [handleCommand, onMachine, MotionStateMachine.resumeAuto, hq.2]
    rfl
  | autoStop imm =>
    simp only [handleCommand, onMachine, MotionStateMachine.stopAuto, hq.2]
    rfl
  | autoStartG00FastMove endPos sp touch =>
    simp only [handleCommand]
    split
    · rfl
    · exact hstart (.g00 sp endPos touch)
  | autoStartG01ServoMove endPos height =>
    simp only [handleCommand]
    split
    · rfl
    · exact hstart (.g01 endPos height nowMs hrNowNs)
  | autoG04Delay delayS =>
    simp only [handleCommand]
    split
    · rfl
    · exact hstart (.g04 delayS)
  | autoM00FakePauseTask =>
    simp only [handleCommand]
    split
    · rfl
    · exact hstart .m00Fake
  | autoG01Group items => exact hstart (.g01Group items)
  | autoStartDrillMove p =>
    simp only [handleCommand, onlyDrill]
    split
    · exact hstart (.drill p)
    · rfl
  | settingTestVOffset i type value =>
    simp only [handleCommand]
    split
    · rfl
    · cases type <;> rfl
  | setSpindleState | setSpindleParam | setDrillParams =>
    simp only [handleCommand, onlyDrill]
    split <;> rfl
  | manualEmergencyStopAllMove | settingTriggerEcatConnect | settingClearStatData
  | settingMotionSettings | settingClearWarning | settingSetJumpParam | settingSetG01SpeedRatio => rfl

theorem step_cmdAxis (hq : t.Quiet) (a : Action K) : (t.step a).cmdAxis = t.cmdAxis := by
  cases a with
  | work inp => exact threadCycleWork_cmdAxis hq inp
  | command nowMs hrNowNs c => exact handleCommand_cmdAxis hq nowMs hrNowNs c
  | report inp => rfl

/-- The switch takes the positions of the drives over. -/
theorem switch_cmdAxis {inp : ThreadInput K} (h : t.switchesToReady inp = true) :
    (t.step (.work inp)).cmdAxis = inp.ecat.actAxis := by
  simp only [switchesToReady, Bool.and_eq_true, Bool.or_eq_true, decide_eq_true_eq] at h
  obtain ⟨⟨hrunning, hall⟩, he⟩ := h
  have hswitch : (t.threadstateRunning inp).cmdAxis = inp.ecat.actAxis := by
    unfold threadstateRunning
    rcases he with he | ⟨he, hconnected⟩
    · simp only [he, hall, if_true]
      rfl
    · simp only [he, hall, hconnected, if_true, Bool.not_true, Bool.false_eq_true, if_false]
      rfl
  show (t.threadCycleWork inp).cmdAxis = _
  unfold threadCycleWork
  rw [hrunning]
  dsimp only
  split <;> exact hswitch

variable [IsStrictOrderedRing K]

/-- After the drives got ready at `pulses`, and as long as no motion is started: an axis is told to stay
where it is if and only if it stands at a whole unit; and no target leaves `int32_t`. -/
theorem enabling_keeps_iff {inp : ThreadInput K} {pulses : Fin 6 → ℤ}
    (hswitch : t.switchesToReady inp = true) (hact : inp.ecat.actAxis = getActAxis pulses)
    (hpulses : ∀ i, -2 ^ 31 ≤ pulses i ∧ pulses i < 2 ^ 31) (actions : List (Action K))
    (hquiet : Machine.AllSteps step (fun s _ => s.Quiet) (t.step (.work inp)) actions)
    {target : Fin 6 → ℤ}
    (hwritten : (Machine.run step (t.step (.work inp)) actions).writtenTargets = some target) (i : Fin 6) :
    (target i = pulses i ↔ (gearRatios i : ℤ) ∣ pulses i) ∧ -2 ^ 31 ≤ target i ∧ target i < 2 ^ 31 := by
  have hcmd : (Machine.run step (t.step (.work inp)) actions).cmdAxis = getActAxis pulses :=
    hquiet.invariant (I := fun s => s.cmdAxis = getActAxis pulses)
      (fun s a hs hq => (step_cmdAxis hq a).trans hs) ((switch_cmdAxis hswitch).trans hact)
  have htarget : target i = targetPosition (getActAxis pulses : Axis K) i := by
    unfold writtenTargets at hwritten
    split at hwritten
    · cases hwritten
      rw [← hcmd]
      rfl
    · cases hwritten
  rw [htarget]
  exact ⟨targetPosition_eq_iff, targetPosition_mem (hpulses i)⟩

end Runs

end MotionThread

namespace MotionThread

attribute [local instance] Sample.drillSettings

/-- The drives are connected; the next cycle finds them enabled. -/
def connected : MotionThread ℚ :=
  Machine.run step new
    [.work goodInput, .work goodInput, .command 0 0 .settingTriggerEcatConnect, .work goodInput,
      .work goodInput, .work goodInput]

/-- The S axis stands at `pulses`, the others at zero. -/
def inputAt (pulses : ℤ) : ThreadInput ℚ :=
  { goodInput with
    ecat := { goodInput.ecat with
      actAxis := MotionShared.getActAxis fun i => if i = 5 then pulses else 0 } }

/-- The thread a cycle after the drives got ready. -/
def enabledAt (pulses : ℤ) : MotionThread ℚ :=
  Machine.run step (connected.step (.work (inputAt pulses)))
    [.report (inputAt pulses), .work (inputAt pulses)]

theorem enabling_keeps_whole_units :
    ∃ target, (enabledAt 300).writtenTargets = some target ∧ target 5 = 300 := by
  have hwritten : (enabledAt 300).writtenTargets = some (targetPosition (enabledAt 300).cmdAxis) :=
    if_pos (by decide +kernel)
  have hact : (inputAt 300).ecat.actAxis =
      MotionShared.getActAxis fun i => if i = 5 then 300 else 0 := rfl
  have hswitch : connected.switchesToReady (inputAt 300) = true := by decide +kernel
  exact ⟨_, hwritten, (enabling_keeps_iff hswitch hact (by decide) _ (by decide +kernel) hwritten 5).1.2
    (by decide)⟩

/-- The S axis stands at 150 pulses, one unit and a half: it is told to go to 200. -/
theorem enabling_moves_half_units :
    ∃ target, (enabledAt 150).writtenTargets = some target ∧ target 5 = 200 ∧
      (enabledAt 150).Quiet :=
  ⟨targetPosition (enabledAt 150).cmdAxis, if_pos (by decide +kernel), by decide +kernel,
    by decide +kernel⟩

end MotionThread

end Edm
