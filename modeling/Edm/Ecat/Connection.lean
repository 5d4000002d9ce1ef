import Edm.Ecat.EcatSystem

/-!
# The connection to the drives

The flag of the manager and the state of the thread say the same about the bus (`Agrees`): it is up
from `EcatConnectedWaitingForOP` on. Receives are checked in `EcatReady` only, so only there a bus
that is lost is noticed, and only there it is given up: as soon as more than ninety of the last
hundred checks failed, whatever the drives report.
-/

set_option linter.unusedSectionVars false

namespace Edm

open Ecat (EcatManager ServoDevice)

/-- The states in which the bus is up. -/
def EcatState.isConnected : EcatState → Bool
  | .init | .ecatDisconnected | .ecatConnecting => false
  | .ecatConnectedWaitingForOP | .ecatConnectedNotAllEnabled | .ecatConnectedEnabling
  | .ecatReady => true

section

variable {K : Type} [Field K] [LinearOrder K] [FloorRing K] [RealFns K] [Settings]

namespace MotionThread

/-- No command changes the state of the thread or of the bus. -/
theorem handleCommand_states (t : MotionThread K) (nowMs hrNowNs : ℤ) (c : MotionCommand K) :
    (t.handleCommand nowMs hrNowNs c).1.threadState = t.threadState ∧
      (t.handleCommand nowMs hrNowNs c).1.ecatState = t.ecatState := by
  cases c with
  | setSpindleState | setSpindleParam | autoStartDrillMove | setDrillParams =>
    simp only [handleCommand, onlyDrill]
    split <;> exact ⟨rfl, rfl⟩
  | settingTestVOffset i type value =>
    simp only [handleCommand]
    split
    · exact ⟨rfl, rfl⟩
    · cases type <;> exact ⟨rfl, rfl⟩
  | manualStartPointMove | manualStopPointMove | autoStartG00FastMove | autoStartG01ServoMove
  | autoG04Delay | autoM00FakePauseTask =>
    simp only [handleCommand]
    split <;> exact ⟨rfl, rfl⟩
  | _ => exact ⟨rfl, rfl⟩

variable (t : MotionThread K) (inp : ThreadInput K) (cmd : Option (MotionCommand K))

/-- Where a running thread takes the state of the bus. -/
def nextEcatState (r : EcatInput K) : EcatState :=
  match t.ecatState with
  | .init => .ecatDisconnected
  | .ecatDisconnected => if t.ecatConnectFlag then .ecatConnecting else .ecatDisconnected
  | .ecatConnecting => if r.connectOk then .ecatConnectedWaitingForOP else .ecatDisconnected
  | .ecatConnectedWaitingForOP =>
    if r.opWaitTimeout then .ecatDisconnected
    else if r.opReached then .ecatConnectedNotAllEnabled
    else .ecatConnectedWaitingForOP
  | .ecatConnectedNotAllEnabled =>
    if r.allEnabled then .ecatReady
    else if t.ecatClearFaultReenableFlag then .ecatConnectedEnabling
    else .ecatConnectedNotAllEnabled
  | .ecatConnectedEnabling =>
    if !r.connected then .ecatDisconnected
    else if r.allEnabled then .ecatReady
    else .ecatConnectedEnabling
  | .ecatReady => if !r.connected then .ecatDisconnected else .ecatReady

theorem threadstateRunning_ecatState :
    (t.threadstateRunning inp).ecatState = t.nextEcatState inp.ecat := by
  unfold threadstateRunning nextEcatState
  cases he : t.ecatState <;> dsimp only
  case ecatDisconnected | ecatConnectedWaitingForOP | ecatConnectedNotAllEnabled | ecatReady =>
    repeat' split
    all_goals first | rfl | exact he
  case ecatConnectedEnabling =>
    by_cases hd : inp.ecat.connected <;> by_cases ha : inp.ecat.allEnabled <;>
      simp [hd, ha, ecatStateSwitchToReady]

theorem threadstateRunning_threadState :
    (t.threadstateRunning inp).threadState = t.threadState := by
  unfold threadstateRunning
  cases he : t.ecatState <;> dsimp only
  case ecatDisconnected | ecatConnectedWaitingForOP | ecatConnectedNotAllEnabled | ecatReady =>
    repeat' split
    all_goals rfl
  case ecatConnectedEnabling =>
    by_cases hd : inp.ecat.connected <;> by_cases ha : inp.ecat.allEnabled <;>
      simp [hd, ha, ecatStateSwitchToReady]

/-- A cycle leaves these states as its work does. -/
theorem threadCycle_states :
    (t.threadCycle inp cmd).1.threadState = (t.threadCycleWork inp).threadState ∧
      (t.threadCycle inp cmd).1.ecatState = (t.threadCycleWork inp).ecatState := by
  cases cmd with
  | none => exact ⟨rfl, rfl⟩
  | some c => exact (t.threadCycleWork inp).handleCommand_states inp.cycle.nowMs inp.cycle.hrNowNs c

theorem threadCycle_infoCache :
    (t.threadCycle inp cmd).1.infoCache.ecatConnected = inp.ecat.connected ∧
      ((t.threadCycle inp cmd).1.infoCache.ecatAllEnabled = true ↔
        (t.threadCycle inp cmd).1.ecatState = .ecatReady) := by
  cases cmd with
  | none => exact ⟨rfl, decide_eq_true_iff⟩
  | some c => exact ⟨rfl, decide_eq_true_iff⟩

end MotionThread

namespace EcatSystem

variable {s : EcatSystem K} {a : EcatCycle K × Option (MotionCommand K)} {inp : EcatCycle K}

theorem cycle_threadState (s : EcatSystem K) (a : EcatCycle K × Option (MotionCommand K)) :
    (s.cycle a).thread.threadState = (s.thread.threadCycleWork (s.threadInput a.1)).threadState :=
  (s.thread.threadCycle_states _ _).1

theorem cycle_ecatState (s : EcatSystem K) (a : EcatCycle K × Option (MotionCommand K)) :
    (s.cycle a).thread.ecatState = (s.thread.threadCycleWork (s.threadInput a.1)).ecatState :=
  (s.thread.threadCycle_states _ _).2

/-- While the thread runs, the state of the bus is that of `_threadstate_running`. -/
theorem cycle_ecatState_of_running (h : s.thread.threadState = .running) :
    (s.cycle a).thread.ecatState = s.thread.nextEcatState (s.workRunning a.1).report := by
  have hinput : (s.threadInput a.1).ecat = (s.workRunning a.1).report := by
    unfold threadInput work
    rw [h]
  rw [cycle_ecatState, ← hinput, ← s.thread.threadstateRunning_ecatState]
  unfold MotionThread.threadCycleWork
  rw [h]
  dsimp only
  split <;> rfl

/-- A running thread goes on running unless it is told to stop. -/
theorem cycle_threadState_of_running (h : s.thread.threadState = .running) :
    (s.cycle a).thread.threadState = if a.1.threadStopFlag then .stopping else .running := by
  have hflag : (s.threadInput a.1).threadStopFlag = a.1.threadStopFlag := rfl
  rw [cycle_threadState, MotionThread.threadCycleWork, h, ← hflag]
  dsimp only
  split
  · rfl
  · exact (s.thread.threadstateRunning_threadState _).trans h

theorem work_of_running (h : s.thread.threadState = .running) : s.work inp = s.workRunning inp := by
  unfold work
  rw [h]

theorem work_of_stopping (h : s.thread.threadState = .stopping) :
    s.work inp = s.workStopping inp := by
  unfold work
  rw [h]

theorem receiveChecked_connected (m : EcatManager servoNum) (inp : EcatCycle K) :
    (receiveChecked m inp).1.connected = (m.connected && (receiveChecked m inp).2) :=
  (m.receive inp.images).receiveCheck_connected _

/-- The next cycle of a thread that stops is its last. -/
def lastCycle (s : EcatSystem K) : Bool :=
  s.stoppingCount + 1 > stoppingCountMax || !s.manager.isEcatConnected || s.manager.servoAllDisabled

theorem stopping_ends (hs : s.thread.threadState = .stopping) (h : s.lastCycle = true)
    (a : EcatCycle K × Option (MotionCommand K)) :
    (s.cycle a).thread.threadState = .canExit ∧ (s.cycle a).manager.connected = false ∧
      (s.cycle a).manager.servoDevices = s.manager.servoDevices := by
  rw [cycle_threadState, cycle_manager, MotionThread.threadCycleWork, hs,
    MotionThread.threadstateStopping, threadInput, work_of_stopping hs, workStopping]
  unfold lastCycle at h
  by_cases hcount : s.stoppingCount + 1 > stoppingCountMax
  · simp only [hcount, if_true]
    exact ⟨trivial, rfl, rfl⟩
  by_cases hconnected : s.manager.isEcatConnected = true
  · have hdisabled : s.manager.servoAllDisabled = true := by simpa [hcount, hconnected] using h
    simp only [hcount, hconnected, hdisabled, if_false, if_true, Bool.not_true, Bool.false_eq_true]
    exact ⟨rfl, rfl, rfl⟩
  · rw [Bool.not_eq_true] at hconnected
    simp only [hcount, hconnected, if_false, if_true, Bool.not_false]
    have hreport : (report (K := K) s.manager).connected = false := hconnected
    simp only [quiet, hreport, Bool.not_false, if_true]
    refine ⟨?_, hconnected, trivial⟩
    split <;> rfl

theorem stopping_goes_on (hs : s.thread.threadState = .stopping) (h : s.lastCycle = false)
    (a : EcatCycle K × Option (MotionCommand K)) :
    (s.cycle a).thread.threadState = .stopping ∧
      (s.cycle a).manager = (s.manager.receive a.1.images).disableCycleRunOnce ∧
      (s.cycle a).stoppingCount = s.stoppingCount + 1 ∧ (s.work a.1).sends = true := by
  unfold lastCycle at h
  simp only [Bool.or_eq_false_iff, decide_eq_false_iff_not, Bool.not_eq_false'] at h
  obtain ⟨⟨hcount, hconnected⟩, hdisabled⟩ := h
  have hwork : s.work a.1 = s.workStopping a.1 := work_of_stopping hs
  rw [cycle_threadState, cycle_manager, cycle, MotionThread.threadCycleWork, hs,
    MotionThread.threadstateStopping, threadInput, hwork, workStopping]
  simp only [hcount, hconnected, hdisabled, if_false, Bool.not_true, Bool.false_eq_true]
  have hreport : (report (K := K)
      (s.manager.receive a.1.images).disableCycleRunOnce).connected = true := hconnected
  simp only [report] at hreport ⊢
  simp [hreport, hs]

/-- The manager and the thread say the same about the bus. -/
structure Agrees (s : EcatSystem K) : Prop where
  init : s.thread.threadState = .init →
    s.thread.ecatState = .init ∧ s.manager.connected = false
  running : s.thread.threadState = .running → s.manager.connected = s.thread.ecatState.isConnected
  canExit : s.thread.threadState = .canExit → s.manager.connected = false

theorem new_agrees (opWaitCountMax : ℕ) : (new opWaitCountMax : EcatSystem K).Agrees :=
  ⟨fun _ => ⟨rfl, rfl⟩, nofun, nofun⟩

/-- In a running thread a cycle keeps the agreement. -/
theorem Agrees.workRunning (h : s.Agrees) (hs : s.thread.threadState = .running) :
    (s.workRunning inp).system.manager.connected =
      (s.thread.nextEcatState (s.workRunning inp).report).isConnected := by
  have hconnected := h.running hs
  unfold EcatSystem.workRunning MotionThread.nextEcatState
  cases he : s.thread.ecatState <;> rw [he] at hconnected <;> dsimp only
  case init => exact hconnected
  case ecatDisconnected => split <;> exact hconnected
  case ecatConnecting =>
    rw [EcatManager.connectEcat_connected]
    split <;> simp_all [EcatState.isConnected]
  case ecatConnectedWaitingForOP =>
    split
    · rfl
    · simp only [report, Bool.false_eq_true, if_false]
      split <;> exact hconnected
  case ecatConnectedNotAllEnabled =>
    split
    · exact hconnected
    · split <;> exact hconnected
  case ecatConnectedEnabling =>
    have hreport : (report (K := K) (s.manager.receive inp.images)).connected = true := hconnected
    simp only [hreport, Bool.not_true, Bool.false_eq_true, if_false]
    split <;> split <;> exact hconnected
  case ecatReady =>
    have hcheck := receiveChecked_connected s.manager inp
    by_cases hret : (receiveChecked s.manager inp).2 = true
    · rw [hret, Bool.and_true, hconnected] at hcheck
      have hreport : (report (K := K) ((receiveChecked s.manager inp).1.onDevices
          (writeTarget s.thread inp.spindleAxis))).connected = true := hcheck
      simp only [hret, Bool.not_true, Bool.false_eq_true, if_false, hreport]
      exact hcheck
    · rw [Bool.not_eq_true] at hret
      rw [hret, Bool.and_false] at hcheck
      have hreport : (report (K := K) (receiveChecked s.manager inp).1).connected = false := hcheck
      simp only [hret, Bool.not_false, if_true, quiet, hreport]
      exact hcheck

theorem Agrees.cycle (h : s.Agrees) (a : EcatCycle K × Option (MotionCommand K)) :
    (s.cycle a).Agrees := by
  cases hs : s.thread.threadState with
  | init =>
    have hnext : (s.cycle a).thread.threadState = .running := by
      rw [cycle_threadState, MotionThread.threadCycleWork, hs]
    have hecat : (s.cycle a).thread.ecatState = s.thread.ecatState := by
      rw [cycle_ecatState, MotionThread.threadCycleWork, hs]
    have hmanager : (s.cycle a).manager = s.manager := by
      rw [cycle_manager, work, hs]
      rfl
    refine ⟨by simp [hnext], fun _ => ?_, by simp [hnext]⟩
    rw [hmanager, hecat, (h.init hs).1]
    exact (h.init hs).2
  | running =>
    have hconnected : (s.cycle a).manager.connected = (s.cycle a).thread.ecatState.isConnected := by
      rw [cycle_manager, work_of_running hs, cycle_ecatState_of_running hs]
      exact h.workRunning hs
    have hnext := cycle_threadState_of_running (a := a) hs
    refine ⟨fun hi => ?_, fun _ => hconnected, fun he => ?_⟩
    · rw [hi] at hnext
      split at hnext <;> cases hnext
    · rw [he] at hnext
      split at hnext <;> cases hnext
  | stopping =>
    by_cases hlast : s.lastCycle = true
    · obtain ⟨hnext, hd, -⟩ := stopping_ends hs hlast a
      exact ⟨by simp [hnext], by simp [hnext], fun _ => hd⟩
    · have hnext := (stopping_goes_on hs (Bool.eq_false_of_not_eq_true hlast) a).1
      exact ⟨by simp [hnext], by simp [hnext], by simp [hnext]⟩
  | canExit =>
    have hnext : (s.cycle a).thread.threadState = .canExit := by
      rw [cycle_threadState, MotionThread.threadCycleWork, hs]
    have hmanager : (s.cycle a).manager = s.manager := by
      rw [cycle_manager, work, hs]
      rfl
    exact ⟨by simp [hnext], by simp [hnext], fun _ => hmanager ▸ h.canExit hs⟩

/-- The thread is told what became of the bus. -/
theorem work_connected (s : EcatSystem K) (inp : EcatCycle K) :
    (s.work inp).report.connected = (s.work inp).system.manager.connected := by
  unfold work
  cases s.thread.threadState <;> dsimp only
  case init | canExit => rfl
  case running =>
    unfold workRunning
    cases s.thread.ecatState <;> dsimp only
    case ecatConnectedWaitingForOP | ecatConnectedEnabling | ecatReady => split <;> rfl
    all_goals rfl
  case stopping =>
    unfold workStopping
    dsimp only
    repeat' split
    all_goals rfl

/-- In every run, the manager and the thread say the same about the bus while the thread runs; a
thread that may exit has released the master; a bus that is lost while the drives are enabled is not
noticed; and the info for the other threads tells whether the bus is up. -/
theorem bus_and_thread_agree (opWaitCountMax : ℕ)
    (as : List (EcatCycle K × Option (MotionCommand K))) :
    let s := Machine.run cycle (new opWaitCountMax) as
    (s.thread.threadState = .running → s.manager.connected = s.thread.ecatState.isConnected) ∧
      (s.thread.threadState = .canExit → s.manager.connected = false) ∧
      (s.thread.threadState = .running → s.thread.ecatState = .ecatConnectedEnabling →
        ∀ a, (s.cycle a).thread.ecatState = .ecatConnectedEnabling ∨
          (s.cycle a).thread.ecatState = .ecatReady) ∧
      ∀ a, (s.cycle a).thread.infoCache.ecatConnected = (s.cycle a).manager.connected ∧
        ((s.cycle a).thread.threadState = .running →
          (s.cycle a).thread.infoCache.ecatAllEnabled = true →
          (s.cycle a).thread.infoCache.ecatConnected = true) := by
  intro s
  have hagrees : s.Agrees :=
    Machine.run_invariant (fun _ a h => h.cycle a) (new_agrees opWaitCountMax) as
  have hinfo (a : EcatCycle K × Option (MotionCommand K)) :
      (s.cycle a).thread.infoCache.ecatConnected = (s.cycle a).manager.connected :=
    (s.thread.threadCycle_infoCache _ _).1.trans (s.work_connected a.1)
  refine ⟨hagrees.running, hagrees.canExit, fun hs he a => ?_,
    fun a => ⟨hinfo a, fun hs hall => ?_⟩⟩
  · have hconnected : (s.workRunning a.1).report.connected = true := by
      have hwork := s.work_connected a.1
      rw [work_of_running hs] at hwork
      rw [hwork, workRunning, he]
      dsimp only
      have hup := hagrees.running hs
      rw [he] at hup
      split <;> exact hup
    rw [cycle_ecatState_of_running hs, MotionThread.nextEcatState, he]
    simp only [hconnected, Bool.not_true, Bool.false_eq_true, if_false]
    split
    · exact .inr rfl
    · exact .inl rfl
  · have hready := (s.thread.threadCycle_infoCache (s.threadInput a.1) a.2).2.mp hall
    rw [hinfo a, (hagrees.cycle a).running hs]
    exact congrArg EcatState.isConnected hready

/-! ### When the bus is given up -/

theorem receive_wkcFailedSc (m : EcatManager servoNum) (inp : EcatCycle K) :
    (receiveChecked m inp).1.wkcFailedSc =
      m.wkcFailedSc.pushBack (!m.ighCheckReceiveValid inp.master inp.domains) :=
  (m.receive inp.images).receiveCheck_wkcFailedSc _

/-- The failed checks of a cycle join those since the bus came up, newest first. -/
def failuresAfter (s : EcatSystem K) (inp : EcatCycle K) (failures : List Bool) : List Bool :=
  if s.thread.threadState = .running then
    match s.thread.ecatState, inp.attempt with
    | .ecatConnecting, some _ => []
    | .ecatReady, _ => (!s.manager.ighCheckReceiveValid inp.master inp.domains) :: failures
    | _, _ => failures
  else failures

/-- A run with the checks since the bus came up. -/
structure Watched (K : Type) [Settings] where
  system : EcatSystem K
  failures : List Bool

def Watched.cycle (w : Watched K) (a : EcatCycle K × Option (MotionCommand K)) : Watched K :=
  ⟨w.system.cycle a, w.system.failuresAfter a.1 w.failures⟩

/-- The counter counts the failed checks since the bus came up. -/
def Watched.Counts (w : Watched K) : Prop :=
  w.system.Agrees ∧ w.system.manager.wkcFailedSc.Counts ⟨100, w.failures⟩

theorem Agrees.workRunning_counts (h : s.Agrees) (hs : s.thread.threadState = .running)
    {failures : List Bool} (hc : s.manager.wkcFailedSc.Counts ⟨100, failures⟩) (inp : EcatCycle K) :
    (s.workRunning inp).system.manager.wkcFailedSc.Counts
      ⟨100, s.failuresAfter inp failures⟩ := by
  have hup := h.running hs
  unfold failuresAfter EcatSystem.workRunning
  rw [if_pos hs]
  cases he : s.thread.ecatState <;> rw [he] at hup <;> dsimp only
  case ecatConnecting =>
    have hdown : ¬s.manager.connected = true := by simp [hup, EcatState.isConnected]
    unfold EcatManager.connectEcat
    rw [if_neg hdown]
    cases hattempt : inp.attempt with
    | none => simpa [EcatManager.tryConnect] using hc
    | some devices => simpa [EcatManager.tryConnect] using hc.clear
  case ecatReady =>
    have hpush := hc.pushBack (!s.manager.ighCheckReceiveValid inp.master inp.domains)
    rw [← receive_wkcFailedSc] at hpush
    split <;> exact hpush
  case ecatConnectedWaitingForOP | ecatConnectedEnabling => split <;> exact hc
  all_goals exact hc

theorem Watched.Counts.cycle {w : Watched K} (h : w.Counts)
    (a : EcatCycle K × Option (MotionCommand K)) : (w.cycle a).Counts := by
  refine ⟨h.1.cycle a, ?_⟩
  show ((w.system.cycle a).manager.wkcFailedSc).Counts ⟨100, w.system.failuresAfter a.1 w.failures⟩
  have hsame (hn : w.system.thread.threadState ≠ .running) :
      w.system.failuresAfter a.1 w.failures = w.failures := if_neg hn
  rw [cycle_manager]
  unfold work
  cases hs : w.system.thread.threadState <;> dsimp only
  case running => exact h.1.workRunning_counts hs h.2 a.1
  case stopping =>
    rw [hsame (by simp [hs])]
    unfold workStopping
    dsimp only
    repeat' split
    all_goals exact h.2
  all_goals
    rw [hsame (by simp [hs])]
    exact h.2

/-- In every run, a thread whose drives are ready leaves this state in the cycle in which more than
ninety of the last hundred checks since the bus came up failed, and in no other; the bus is then
given up. A drive that reports a fault does not end it. -/
theorem bus_given_up_iff (opWaitCountMax : ℕ) (as : List (EcatCycle K × Option (MotionCommand K))) :
    let w := Machine.run Watched.cycle ⟨new opWaitCountMax, []⟩ as
    w.system.thread.threadState = .running ∧ w.system.thread.ecatState = .ecatReady →
      ∀ a, ((w.system.cycle a).thread.ecatState = .ecatReady ↔
          ((w.cycle a).failures.take 100).count true ≤ 90) ∧
        ((w.system.cycle a).thread.ecatState ≠ .ecatReady →
          (w.system.cycle a).thread.ecatState = .ecatDisconnected ∧
            (w.system.cycle a).manager.connected = false) := by
  intro w hw a
  obtain ⟨hs, he⟩ := hw
  have hcounts : w.Counts :=
    Machine.run_invariant (fun _ a h => h.cycle a)
      ⟨new_agrees opWaitCountMax, SlidingCounter.counts_new (by decide)⟩ as
  obtain ⟨hagrees, hcount⟩ := hcounts
  have hup : w.system.manager.connected = true := by
    rw [hagrees.running hs, he]
    rfl
  have hfailures : (w.cycle a).failures =
      (!w.system.manager.ighCheckReceiveValid a.1.master a.1.domains) :: w.failures := by
    show w.system.failuresAfter a.1 w.failures = _
    rw [failuresAfter, if_pos hs, he]
  have hret : (receiveChecked w.system.manager a.1).2 = true ↔
      ((w.cycle a).failures.take 100).count true ≤ 90 := by
    rw [hfailures]
    exact EcatManager.receiveCheck_eq_true_iff (w.system.manager.receive a.1.images) hcount _
  have hconnected :
      (w.system.cycle a).manager.connected = (receiveChecked w.system.manager a.1).2 := by
    have hcheck := receiveChecked_connected w.system.manager a.1
    rw [hup, Bool.true_and] at hcheck
    rw [← hcheck, cycle_manager, work_of_running hs, workRunning, he]
    dsimp only
    split <;> rfl
  have hreport : (w.system.workRunning a.1).report.connected =
      (receiveChecked w.system.manager a.1).2 := by
    rw [← work_of_running hs, work_connected, ← cycle_manager]
    exact hconnected
  have hnext := cycle_ecatState_of_running (a := a) hs
  rw [MotionThread.nextEcatState, he] at hnext
  simp only [hreport] at hnext
  rw [← hret, hnext, hconnected]
  cases (receiveChecked w.system.manager a.1).2 <;> simp

end EcatSystem

end

namespace EcatSystem

attribute [local instance] Sample.settings

/-- A cycle in which all is well, and every drive reports operation enabled. -/
def goodCycle : EcatCycle ℚ where
  attempt := some fun _ => { (default : ServoDevice) with statusWord := Ecat.SW.operationEnabled }
  images := fun _ => none
  master := ⟨6, true, 0b1000#4⟩
  domains := [⟨3, true⟩]
  cycle := MotionThread.goodInput.cycle
  threadStopFlag := false
  spindleAxis := 0

/-- The frames of a slave do not come back. -/
def badCycle : EcatCycle ℚ := { goodCycle with domains := [⟨0, false⟩] }

/-- A thread whose drives are ready. -/
def toReady : List (EcatCycle ℚ × Option (MotionCommand ℚ)) :=
  [(goodCycle, none), (goodCycle, some .settingTriggerEcatConnect), (goodCycle, none),
    (goodCycle, none), (goodCycle, none), (goodCycle, none)]

/-- Ninety failures in a row, as soon as the drives are ready. -/
def ninetyFailures : Watched ℚ :=
  Machine.run Watched.cycle ⟨new 100, []⟩ (toReady ++ List.replicate 90 (badCycle, none))

/-- The ninety-first is one too many. -/
theorem bus_given_up_at_ninety_one :
    ninetyFailures.system.thread.ecatState = .ecatReady ∧
      (ninetyFailures.system.cycle (badCycle, none)).thread.ecatState = .ecatDisconnected := by
  have hready : ninetyFailures.system.thread.threadState = .running ∧
      ninetyFailures.system.thread.ecatState = .ecatReady := by decide +kernel
  have hcount : ¬((ninetyFailures.cycle (badCycle, none)).failures.take 100).count true ≤ 90 := by
    decide +kernel
  have h := bus_given_up_iff 100 (toReady ++ List.replicate 90 (badCycle, none)) hready
    (badCycle, none)
  exact ⟨hready.2, (h.2 (mt h.1.mp hcount)).1⟩

end EcatSystem

end Edm
