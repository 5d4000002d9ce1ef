import Edm.Ecat.Connection
import Edm.Lib.Occurrence
import Edm.Motion.ReadyGuard

/-!
# Standing still

An emergency stop is taken in every state of the thread. From then on, upTo a command that starts a
motion is accepted, the state machine stays idle and only the enabling of the drives sets the
commanded axis, to where they stand: whatever else is commanded, reconnections included, the frames
hold the drives at one place (`estop_stands`).
-/

set_option linter.unusedSectionVars false

namespace Edm

section

variable {K : Type} [Field K] [LinearOrder K] [FloorRing K] [RealFns K] [Settings]

namespace MotionThread

variable {t : MotionThread K}

def Idle (t : MotionThread K) : Prop := t.motionStateMachine.mainMode = .idle

theorem start_idle {m : MotionStateMachine K} (hm : m.mainMode = .idle) {ts : TaskStart K}
    (h : (m.start ts).2 = false) : (m.start ts).1.mainMode = .idle := by
  rw [MotionStateMachine.start_eq] at h ⊢
  by_cases hc : !ts.compiled ∨ m.mainMode ≠ .idle
  · rw [if_pos hc]
    exact hm
  · rw [if_neg hc] at h ⊢
    unfold MotionStateMachine.startAuto at h ⊢
    split at h
    · rename_i hover
      rw [if_pos hover]
      exact hm
    · cases h

/-- A command that starts nothing leaves an idle state machine idle, and the commanded axis alone.
-/
theorem handleCommand_idle (hm : t.Idle) (nowMs hrNowNs : ℤ) (c : MotionCommand K)
    (h : c.startsMotion = true → (t.handleCommand nowMs hrNowNs c).2 = false) :
    (t.handleCommand nowMs hrNowNs c).1.Idle ∧
      (t.handleCommand nowMs hrNowNs c).1.cmdAxis = t.cmdAxis := by
  unfold Idle at hm
  have hstart (ts : TaskStart K) (h : (t.onMachine (t.motionStateMachine.start ts)).2 = false) :
      (t.onMachine (t.motionStateMachine.start ts)).1.Idle ∧
        (t.onMachine (t.motionStateMachine.start ts)).1.cmdAxis = t.cmdAxis :=
    ⟨start_idle hm h, start_cmdAxis t.motionStateMachine ts⟩
  cases c with
  | manualStartPointMove endPos sp touch =>
    have hrefused := h rfl
    simp only [handleCommand, MotionStateMachine.startManualPointmove, hm] at hrefused ⊢
    split at hrefused
    · rename_i hguard
      rw [if_pos hguard]
      exact ⟨hm, rfl⟩
    · rename_i hguard
      rw [if_neg hguard]
      split at hrefused
      · cases hrefused
      · rename_i hret
        simp only [hret, Bool.false_eq_true, if_false]
        exact ⟨rfl, rfl⟩
  | manualStopPointMove imm =>
    simp only [handleCommand, MotionStateMachine.stopManualPointmove, hm]
    split <;> exact ⟨hm, rfl⟩
  | autoPause =>
    have hauto : t.motionStateMachine.mainMode ≠ .auto := by simp [hm]
    simp only [handleCommand, onMachine, MotionStateMachine.pauseAuto, if_pos hauto]
    exact ⟨hm, trivial⟩
  | autoResume =>
    have hauto : t.motionStateMachine.mainMode ≠ .auto := by simp [hm]
    simp only [handleCommand, onMachine, MotionStateMachine.resumeAuto, if_pos hauto]
    exact ⟨hm, trivial⟩
  | autoStop imm =>
    have hauto : t.motionStateMachine.mainMode ≠ .auto := by simp [hm]
    simp only [handleCommand, onMachine, MotionStateMachine.stopAuto, if_pos hauto]
    exact ⟨hm, trivial⟩
  | autoStartG00FastMove endPos sp touch =>
    have hrefused := h rfl
    simp only [handleCommand] at hrefused ⊢
    split
    · exact ⟨hm, rfl⟩
    · rename_i hguard
      rw [if_neg hguard] at hrefused
      exact hstart (.g00 sp endPos touch) hrefused
  | autoStartG01ServoMove endPos height =>
    have hrefused := h rfl
    simp only [handleCommand] at hrefused ⊢
    split
    · exact ⟨hm, rfl⟩
    · rename_i hguard
      rw [if_neg hguard] at hrefused
      exact hstart (.g01 endPos height nowMs hrNowNs) hrefused
  | autoG04Delay delayS =>
    have hrefused := h rfl
    simp only [handleCommand] at hrefused ⊢
    split
    · exact ⟨hm, rfl⟩
    · rename_i hguard
      rw [if_neg hguard] at hrefused
      exact hstart (.g04 delayS) hrefused
  | autoM00FakePauseTask =>
    have hrefused := h rfl
    simp only [handleCommand] at hrefused ⊢
    split
    · exact ⟨hm, rfl⟩
    · rename_i hguard
      rw [if_neg hguard] at hrefused
      exact hstart .m00Fake hrefused
  | autoG01Group items => exact hstart (.g01Group items) (h rfl)
  | autoStartDrillMove p =>
    have hrefused := h rfl
    simp only [handleCommand, onlyDrill] at hrefused ⊢
    split
    · rename_i hdrill
      rw [if_pos hdrill] at hrefused
      exact hstart (.drill p) hrefused
    · exact ⟨hm, rfl⟩
  | settingTestVOffset i type value =>
    simp only [handleCommand]
    split
    · exact ⟨hm, rfl⟩
    · cases type <;> exact ⟨hm, rfl⟩
  | setSpindleState | setSpindleParam | setDrillParams =>
    simp only [handleCommand, onlyDrill]
    split <;> exact ⟨hm, rfl⟩
  | manualEmergencyStopAllMove => exact ⟨rfl, rfl⟩
  | settingTriggerEcatConnect | settingClearStatData | settingMotionSettings
  | settingClearWarning | settingSetJumpParam | settingSetG01SpeedRatio => exact ⟨hm, rfl⟩

/-- The work of a cycle moves an idle machine only to where its drives stand when they get ready. -/
theorem threadCycleWork_idle (hm : t.Idle) {inp : ThreadInput K}
    (hup : t.ecatState = .ecatConnectedEnabling → inp.ecat.connected = true) :
    (t.threadCycleWork inp).Idle ∧
      (t.switchesToReady inp = false → (t.threadCycleWork inp).cmdAxis = t.cmdAxis) := by
  have hrun : (t.motionStateMachine.runOnce inp.cycle).mainMode = .idle ∧
      (t.motionStateMachine.runOnce inp.cycle).shared.globalCmdAxis = t.cmdAxis := by
    unfold MotionStateMachine.runOnce
    unfold Idle at hm
    split
    · exact ⟨hm, rfl⟩
    · rw [hm]
      exact ⟨rfl, rfl⟩
  have hrunning (hs : t.threadState = .running) : (t.threadstateRunning inp).Idle ∧
      (t.switchesToReady inp = false → (t.threadstateRunning inp).cmdAxis = t.cmdAxis) := by
    unfold switchesToReady threadstateRunning
    cases he : t.ecatState <;> dsimp only
    case ecatConnectedNotAllEnabled =>
      by_cases hall : inp.ecat.allEnabled = true
      · rw [if_pos hall]
        exact ⟨rfl, fun h => by simp [hs, hall] at h⟩
      · rw [if_neg hall]
        split <;> exact ⟨hm, fun _ => rfl⟩
    case ecatConnectedEnabling =>
      simp only [hup he, Bool.not_true, Bool.false_eq_true, if_false]
      by_cases hall : inp.ecat.allEnabled = true
      · rw [if_pos hall]
        exact ⟨rfl, fun h => by simp [hs, hall] at h⟩
      · rw [if_neg hall]
        exact ⟨hm, fun _ => rfl⟩
    case ecatReady =>
      split
      · exact ⟨rfl, fun _ => rfl⟩
      · exact ⟨hrun.1, fun _ => hrun.2⟩
    case ecatDisconnected | ecatConnectedWaitingForOP =>
      repeat' split
      all_goals exact ⟨hm, fun _ => rfl⟩
    all_goals exact ⟨hm, fun _ => rfl⟩
  unfold threadCycleWork
  cases hs : t.threadState <;> dsimp only
  case running =>
    split <;> exact hrunning hs
  case stopping =>
    unfold threadstateStopping
    repeat' split
    all_goals exact ⟨hm, fun _ => rfl⟩
  all_goals exact ⟨hm, fun _ => rfl⟩

end MotionThread

namespace EcatSystem

variable {s : EcatSystem K} {a : EcatCycle K × Option (MotionCommand K)}

/-- The command of the cycle starts a motion, and is accepted. -/
def Starts (s : EcatSystem K) (a : EcatCycle K × Option (MotionCommand K)) : Prop :=
  ∃ c, a.2 = some c ∧ c.startsMotion = true ∧
    (s.thread.threadCycle (s.threadInput a.1) a.2).2 = some true

/-- The drives get ready in the cycle. -/
def GetsReady (s : EcatSystem K) (a : EcatCycle K × Option (MotionCommand K)) : Prop :=
  s.thread.switchesToReady (s.threadInput a.1) = true

theorem Agrees.enabling_connected (h : s.Agrees) {inp : EcatCycle K}
    (hs : s.thread.threadState = .running) (he : s.thread.ecatState = .ecatConnectedEnabling) :
    (s.threadInput inp).ecat.connected = true := by
  have hup := h.running hs
  rw [he] at hup
  show (s.work inp).report.connected = true
  rw [work_connected, work_of_running hs, EcatSystem.workRunning, he]
  dsimp only
  split <;> exact hup

/-- A cycle that starts nothing leaves an idle system idle, and sets the commanded axis only where
the drives get ready. -/
theorem Agrees.cycle_idle (h : s.Agrees) (hm : s.thread.Idle) (ha : ¬s.Starts a) :
    (s.cycle a).thread.Idle ∧
      (¬s.GetsReady a → (s.cycle a).thread.cmdAxis = s.thread.cmdAxis) ∧
      (s.GetsReady a → (s.cycle a).thread.cmdAxis = (s.threadInput a.1).ecat.actAxis) := by
  have hwork : (s.thread.threadCycleWork (s.threadInput a.1)).Idle ∧
      (¬s.GetsReady a →
        (s.thread.threadCycleWork (s.threadInput a.1)).cmdAxis = s.thread.cmdAxis) := by
    by_cases hs : s.thread.threadState = .running
    · have hup : s.thread.ecatState = .ecatConnectedEnabling →
          (s.threadInput a.1).ecat.connected = true := h.enabling_connected hs
      obtain ⟨hidle, hcmd⟩ := MotionThread.threadCycleWork_idle hm hup
      exact ⟨hidle, fun hr => hcmd (Bool.eq_false_of_not_eq_true hr)⟩
    · unfold MotionThread.threadCycleWork
      cases hs' : s.thread.threadState <;> dsimp only
      case running => exact absurd hs' hs
      case stopping =>
        unfold MotionThread.threadstateStopping
        repeat' split
        all_goals exact ⟨hm, fun _ => rfl⟩
      all_goals exact ⟨hm, fun _ => rfl⟩
  have hset (hr : s.GetsReady a) :
      (s.thread.threadCycleWork (s.threadInput a.1)).cmdAxis = (s.threadInput a.1).ecat.actAxis :=
    MotionThread.switch_cmdAxis hr
  obtain ⟨inp, cmd⟩ := a
  cases cmd with
  | none => exact ⟨hwork.1, hwork.2, hset⟩
  | some c =>
    have hrefused (hc : c.startsMotion = true) :
        ((s.thread.threadCycleWork (s.threadInput inp)).handleCommand
          (s.threadInput inp).cycle.nowMs (s.threadInput inp).cycle.hrNowNs c).2 = false := by
      rw [← Bool.not_eq_true]
      exact fun hret => ha ⟨c, rfl, hc, congrArg some hret⟩
    obtain ⟨hidle, hcmd⟩ := MotionThread.handleCommand_idle hwork.1 (s.threadInput inp).cycle.nowMs
      (s.threadInput inp).cycle.hrNowNs c hrefused
    exact ⟨hidle, fun hr => hcmd.trans (hwork.2 hr), fun hr => hcmd.trans (hset hr)⟩

/-- What a frame tells drives that are ready: the axis as it was commanded before the cycle. -/
theorem work_targetPosition {inp : EcatCycle K} (hs : s.thread.threadState = .running)
    (he : s.thread.ecatState = .ecatReady) (hsends : (s.work inp).sends = true) (i : Fin 6) :
    ((s.work inp).system.manager.servoDevices (axisServo i)).targetPosition =
      MotionThread.targetPosition s.thread.cmdAxis i := by
  rw [work_of_running hs, workRunning, he] at hsends ⊢
  dsimp only at hsends ⊢
  split at hsends
  · cases hsends
  · rename_i hret
    rw [if_neg hret]
    have hlt : (axisServo i).val < 6 := i.isLt
    simp only [Ecat.EcatManager.onDevices, writeTarget, hlt, dif_pos]
    split <;> rfl

/-- A cycle with an emergency stop. -/
def estop (s : EcatSystem K) (inp : EcatCycle K) : EcatSystem K :=
  s.cycle (inp, some .manualEmergencyStopAllMove)

/-- In every run with an emergency stop, in whatever it was doing then: as long as no start of a
motion is accepted after it, the state machine is idle; every frame to drives that are ready holds
them at the commanded axis; and this is the one at the stop, or where the drives stood when they
last got ready. -/
theorem estop_stands (opWaitCountMax : ℕ)
    (before as : List (EcatCycle K × Option (MotionCommand K))) (inp : EcatCycle K)
    (hnone : Machine.AllSteps cycle (fun s a => ¬s.Starts a)
      ((Machine.run cycle (new opWaitCountMax) before).estop inp) as) :
    let stopped := (Machine.run cycle (new opWaitCountMax) before).estop inp
    let now := Machine.run cycle stopped as
    now.thread.Idle ∧
      (∀ next i, now.thread.threadState = .running ∧ now.thread.ecatState = .ecatReady ∧
        (now.work next).sends = true →
          ((now.work next).system.manager.servoDevices (axisServo i)).targetPosition =
            MotionThread.targetPosition now.thread.cmdAxis i) ∧
      (Machine.AllSteps cycle (fun s a => ¬s.GetsReady a) stopped as ∧
          now.thread.cmdAxis = stopped.thread.cmdAxis ∨
        ∃ upTo a after, as = upTo ++ a :: after ∧
          (Machine.run cycle stopped upTo).GetsReady a ∧
          Machine.AllSteps cycle (fun s a => ¬s.GetsReady a)
            (Machine.run cycle stopped (upTo ++ [a])) after ∧
          now.thread.cmdAxis =
            ((Machine.run cycle stopped upTo).threadInput a.1).ecat.actAxis) := by
  intro stopped now
  have hstep (s : EcatSystem K) (a : EcatCycle K × Option (MotionCommand K))
      (hs : s.Agrees ∧ s.thread.Idle) (ha : ¬s.Starts a) :
      (s.cycle a).Agrees ∧ (s.cycle a).thread.Idle :=
    ⟨hs.1.cycle a, (hs.1.cycle_idle hs.2 ha).1⟩
  have hstart : stopped.Agrees ∧ stopped.thread.Idle :=
    ⟨(Machine.run_invariant (fun _ a h => h.cycle a) (new_agrees opWaitCountMax) before).cycle _,
      rfl⟩
  have hkept : Machine.AllSteps cycle
      (fun s a => (s.Agrees ∧ s.thread.Idle) ∧ ¬s.Starts a) stopped as :=
    hnone.strengthen hstep (fun _ _ hs ha => ⟨hs, ha⟩) hstart
  refine ⟨(hnone.invariant hstep hstart).2,
    fun next i ⟨hs, he, hsends⟩ => work_targetPosition hs he hsends i, ?_⟩
  exact Machine.AllSteps.last_change (f := fun s : EcatSystem K => s.thread.cmdAxis)
    (g := fun s a => (s.threadInput a.1).ecat.actAxis)
    (fun s a hs hr => (hs.1.1.cycle_idle hs.1.2 hs.2).2.1 hr)
    (fun s a hs hr => (hs.1.1.cycle_idle hs.1.2 hs.2).2.2 hr) hkept

/-- Commands of other kinds start nothing. -/
theorem not_starts_of_mem {as : List (EcatCycle K × Option (MotionCommand K))}
    (h : ∀ a ∈ as, ∀ c ∈ a.2, c.startsMotion = false) :
    Machine.AllSteps cycle (fun s a => ¬s.Starts a) s as := by
  have hall : Machine.AllSteps cycle
      (fun _ a => ∀ c ∈ a.2, MotionCommand.startsMotion c = false) s as := Machine.allSteps_of_mem h
  refine hall.mono fun s a ha ⟨c, hc, hstarts, _⟩ => ?_
  rw [ha c hc] at hstarts
  cases hstarts

end EcatSystem

end

namespace EcatSystem

attribute [local instance] Sample.settings

/-- A manual move under way. -/
def moving : List (EcatCycle ℚ × Option (MotionCommand ℚ)) :=
  toReady ++ [(goodCycle, some (.manualStartPointMove (Sample.xAxis 1000) Sample.speedParam false)),
    (goodCycle, none), (goodCycle, none)]

/-- What an operator may try after an emergency stop, short of a new move. -/
def tries : List (EcatCycle ℚ × Option (MotionCommand ℚ)) :=
  [(goodCycle, some .autoResume), (goodCycle, some (.manualStopPointMove true)), (badCycle, none)]

theorem tries_start_nothing (s : EcatSystem ℚ) :
    Machine.AllSteps cycle (fun s a => ¬s.Starts a) s tries :=
  not_starts_of_mem (by
    intro a ha c hc
    simp only [tries, List.mem_cons, List.not_mem_nil, or_false] at ha
    rcases ha with rfl | rfl | rfl <;> cases hc <;> rfl)

/-- The move ends where the emergency stop found it. -/
theorem estop_ends_move :
    (Machine.run cycle ((Machine.run cycle (new 100) moving).estop goodCycle) tries).thread.Idle ∧
      ((Machine.run cycle (new 100) moving).estop goodCycle).thread.cmdAxis 0 ≠ 0 :=
  ⟨(estop_stands 100 moving tries goodCycle (tries_start_nothing _)).1, by decide +kernel⟩

end EcatSystem

end Edm
