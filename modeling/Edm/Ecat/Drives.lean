import Edm.Ecat.Connection
import Edm.Lib.Occurrence

/-!
# The program and its drives

Here the frames that come back are those of drives that keep to their profile (`Drive.Follows`), and
what is sent reaches them. While the thread enables the drives it leads each of them to operation
enabled, where it stands, and then goes on (`drives_get_ready`); when it stops it leads them to
switch on disabled before it exits (`drives_get_disabled`). The reset bit it sends to a drive at
fault is never taken back: a drive that did not take the first edge gets no second one
(`fault_stays`).
-/

set_option linter.unusedSectionVars false

namespace Edm

open DriveProfile
open Ecat (EcatManager ServoDevice CanBeLed enabling disabling enableWord disableWord)

/-- The program with a drive for each servo. -/
structure DriveSystem (K D : Type) [Settings] where
  system : EcatSystem K
  drives : Fin servoNum → D

section

variable {K D : Type} [Field K] [LinearOrder K] [FloorRing K] [RealFns K] [Settings]

/-- The switch leaves the state machine idle. -/
theorem MotionThread.switch_quiet {t : MotionThread K} {inp : ThreadInput K}
    (h : t.switchesToReady inp = true) : (t.threadCycleWork inp).Quiet := by
  simp only [switchesToReady, Bool.and_eq_true, Bool.or_eq_true, decide_eq_true_eq] at h
  obtain ⟨⟨hrunning, hall⟩, he⟩ := h
  have hquiet : (t.threadstateRunning inp).Quiet := by
    unfold threadstateRunning
    rcases he with he | ⟨he, hconnected⟩
    · simp only [he, hall, if_true]
      exact ⟨rfl, rfl⟩
    · simp only [he, hall, hconnected, if_true, Bool.not_true, Bool.false_eq_true, if_false]
      exact ⟨rfl, rfl⟩
  unfold threadCycleWork
  rw [hrunning]
  dsimp only
  split <;> exact hquiet

namespace DriveSystem

/-- The frames are those of the drives. -/
def framed (drv : Drive D) (p : DriveSystem K D) (inp : EcatCycle K) : EcatCycle K :=
  { inp with images := fun i => some (drv.statusWord (p.drives i), drv.position (p.drives i)) }

/-- A cycle, and what the drives make of the frame it sends. -/
def cycle (drv : Drive D) (p : DriveSystem K D) (a : EcatCycle K × Option (MotionCommand K)) :
    DriveSystem K D :=
  let inp := p.framed drv a.1
  let system := p.system.cycle (inp, a.2)
  { system
    drives := fun i =>
      if (p.system.work inp).sends then
        drv.exchange (p.drives i) (system.manager.servoDevices i).controlWord
          (system.manager.servoDevices i).targetPosition
      else p.drives i }

/-- The device of a servo. -/
def device (p : DriveSystem K D) (i : Fin servoNum) : ServoDevice :=
  p.system.manager.servoDevices i

variable {drv : Drive D} {pr : PowerView D} {latency : ℕ} {p : DriveSystem K D}
  {a : EcatCycle K × Option (MotionCommand K)}

/-- The device of a servo after the frame of its drive. -/
def receivedDevice (drv : Drive D) (p : DriveSystem K D) (i : Fin servoNum) : ServoDevice :=
  (p.device i).received (some (drv.statusWord (p.drives i), drv.position (p.drives i)))

theorem receivedDevice_shows (h : drv.Follows pr latency) (i : Fin servoNum) :
    Shows (receivedDevice drv p i).statusWord (pr.power (p.drives i)) := h.shows (p.drives i)

/-! ### Enabling -/

/-- The thread enables the drives. -/
def Enabling (p : DriveSystem K D) : Prop :=
  p.system.thread.threadState = .running ∧ p.system.thread.ecatState = .ecatConnectedEnabling ∧
    p.system.manager.connected = true

theorem work_of_enabling (hp : p.Enabling) (inp : EcatCycle K) :
    p.system.work inp =
      let received := p.system.manager.receive inp.images
      ⟨{ p.system with
          manager :=
            if !received.servoAllOperationEnabled then received.clearFaultCycleRunOnce
            else received },
        EcatSystem.report received, true⟩ := by
  rw [EcatSystem.work_of_running hp.1, EcatSystem.workRunning, hp.2.1]

theorem allEnabled_iff (h : drv.Follows pr latency) (inp : EcatCycle K) :
    (p.system.manager.receive (p.framed drv inp).images).servoAllOperationEnabled = true ↔
      ∀ i, pr.power (p.drives i) = .operationEnabled := by
  rw [EcatManager.servoAllOperationEnabled, decide_eq_true_iff]
  refine forall_congr' fun i => ?_
  rw [ServoDevice.swOperationalEnabled_iff]
  exact (receivedDevice_shows h i).iff_eq.trans eq_comm

/-- The thread goes on as soon as all drives report that they are enabled. -/
theorem enabling_ecatState (h : drv.Follows pr latency) (hp : p.Enabling) :
    (p.cycle drv a).system.thread.ecatState =
      if ∀ i, pr.power (p.drives i) = .operationEnabled then .ecatReady
      else .ecatConnectedEnabling := by
  have hstate := EcatSystem.cycle_ecatState_of_running (a := (p.framed drv a.1, a.2)) hp.1
  rw [← EcatSystem.work_of_running hp.1, work_of_enabling hp, MotionThread.nextEcatState, hp.2.1]
    at hstate
  have hup : (EcatSystem.report (K := K)
      (p.system.manager.receive (p.framed drv a.1).images)).connected = true := hp.2.2
  have hall := allEnabled_iff (p := p) h a.1
  simp only [hup, Bool.not_true, Bool.false_eq_true, if_false] at hstate
  refine hstate.trans ?_
  simp only [EcatSystem.report, hall]

/-- The word a device is left with, and the target it gets with it, by the state its drive is in. -/
theorem enabling_device (h : drv.Follows pr latency) (hp : p.Enabling)
    (hall : ¬∀ i, pr.power (p.drives i) = .operationEnabled) (i : Fin servoNum) :
    ((p.cycle drv a).device i).controlWord =
        enableWord (pr.power (p.drives i)) (p.device i).controlWord ∧
      (Ecat.enables (pr.power (p.drives i)) = true →
        ((p.cycle drv a).device i).targetPosition = drv.position (p.drives i)) ∧
      (p.cycle drv a).drives i =
        drv.exchange (p.drives i) ((p.cycle drv a).device i).controlWord
          ((p.cycle drv a).device i).targetPosition := by
  have hwork := work_of_enabling hp (p.framed drv a.1)
  have hsome : (p.system.manager.receive (p.framed drv a.1).images).servoAllOperationEnabled =
      false := by
    rw [← Bool.not_eq_true, allEnabled_iff h]
    exact hall
  simp only [hsome, Bool.not_false, if_true] at hwork
  have hdevice : (p.cycle drv a).device i = (receivedDevice drv p i).clearFaultOnce := by
    show ((p.system.cycle (p.framed drv a.1, a.2)).manager).servoDevices i = _
    rw [EcatSystem.cycle_manager, hwork]
    rfl
  have hsends : (p.system.work (p.framed drv a.1)).sends = true := by rw [hwork]
  refine ⟨?_, fun henables => ?_, ?_⟩
  · rw [hdevice, ServoDevice.clearFaultOnce_eq (receivedDevice_shows h i)]
    rfl
  · rw [hdevice, ServoDevice.clearFaultOnce_eq (receivedDevice_shows h i), henables]
    rfl
  · show (if _ then _ else _) = _
    rw [if_pos hsends]
    rfl

theorem Enabling.next (h : drv.Follows pr latency) (hp : p.Enabling)
    (hall : ¬∀ i, pr.power (p.drives i) = .operationEnabled) (ha : a.1.threadStopFlag = false) :
    (p.cycle drv a).Enabling := by
  have hthread : (p.cycle drv a).system.thread.threadState = .running := by
    refine (EcatSystem.cycle_threadState_of_running hp.1).trans ?_
    simp [framed, ha]
  refine ⟨hthread, ?_, ?_⟩
  · rw [enabling_ecatState h hp, if_neg hall]
  · show ((p.system.cycle (p.framed drv a.1, a.2)).manager).connected = true
    rw [EcatSystem.cycle_manager, work_of_enabling hp]
    dsimp only
    split <;> exact hp.2.2

/-- Every drive can be led to operation enabled within `n` exchanges. -/
def EnablingWithin (pr : PowerView D) (latency n : ℕ) (p : DriveSystem K D) : Prop :=
  p.Enabling ∧ ∀ i, enabling.Leads pr (p.drives i) (p.device i).controlWord ∧
    enabling.distance pr latency (p.drives i) (p.device i).controlWord ≤ n

/-- A drive that gets enabled was sent its own position with the command. -/
def EnabledInPlace (drv : Drive D) (pr : PowerView D) (p p' : DriveSystem K D) : Prop :=
  ∀ i, pr.power (p.drives i) ≠ .operationEnabled → pr.power (p'.drives i) = .operationEnabled →
    (p'.device i).controlWord = Ecat.CW.enableOperation ∧
      (p'.device i).targetPosition = drv.position (p.drives i)

theorem enabling_step (h : drv.Follows pr latency) {n : ℕ} (hp : p.EnablingWithin pr latency n)
    (ha : a.1.threadStopFlag = false) :
    (∀ i, pr.power (p.drives i) = .operationEnabled) ∨
      0 < n ∧ (p.cycle drv a).EnablingWithin pr latency (n - 1) := by
  obtain ⟨hen, hdrives⟩ := hp
  by_cases hall : ∀ i, pr.power (p.drives i) = .operationEnabled
  · exact .inl hall
  · right
    have hpos : 0 < n := by
      obtain ⟨i, hi⟩ := not_forall.mp hall
      have hne : enabling.distance pr latency (p.drives i) (p.device i).controlWord ≠ 0 := by
        intro hzero
        exact hi (Ecat.enableRank_eq_zero.mp (Strategy.distance_eq_zero.mp hzero))
      have hle := (hdrives i).2
      omega
    refine ⟨hpos, hen.next h hall ha, fun i => ?_⟩
    obtain ⟨hleads, hle⟩ := hdrives i
    obtain ⟨hword, -, hdrive⟩ := enabling_device (a := a) h hen hall i
    have hnext := hleads.exchange h ((p.cycle drv a).device i).targetPosition
    rw [hdrive, hword]
    exact ⟨hnext.1, hnext.2.trans (Nat.sub_le_sub_right hle 1)⟩

/-- The only ways into operation enabled. -/
theorem enables_of_exchange (h : drv.Follows pr latency) {x : D} {w : DriveProfile.Word} {t : ℤ}
    (hx : enabling.Leads pr x w)
    (hnext : pr.power (drv.exchange x (enableWord (pr.power x) w) t) = .operationEnabled) :
    Ecat.enables (pr.power x) = true := by
  by_cases hfault : pr.power x = .fault
  · have hword : enableWord (pr.power x) w = Ecat.CW.faultReset := by rw [hfault]; rfl
    rw [hword] at hnext
    rcases h.resets x _ t hfault Ecat.resetBit_faultReset
        (hx.takesReset hfault) with hq | hq
    · rw [hq] at hnext
      cases hnext
    · rw [hq.1] at hnext
      cases hnext
  · rcases h.answers x (enableWord (pr.power x) w) t hfault with hq | ⟨hq, -⟩
    · rw [hq] at hnext
      have hallowed := hx.allowed
      cases hpower : pr.power x <;> rw [hpower] at hnext hallowed <;>
        first
        | rfl
        | exact hallowed.elim
        | exact absurd hnext (by simp [enableWord, PowerState.next])
    · rw [← hq, hnext]
      rfl

theorem enabledInPlace (h : drv.Follows pr latency) {n : ℕ} (hp : p.EnablingWithin pr latency n) :
    EnabledInPlace drv pr p (p.cycle drv a) := by
  intro i hbefore hafter
  have hall : ¬∀ i, pr.power (p.drives i) = .operationEnabled := fun hall => hbefore (hall i)
  obtain ⟨hword, htarget, hdrive⟩ := enabling_device (a := a) h hp.1 hall i
  rw [hdrive, hword] at hafter
  have henables := enables_of_exchange h (hp.2 i).1 hafter
  refine ⟨?_, htarget henables⟩
  rw [hword]
  cases hpower : pr.power (p.drives i) <;> rw [hpower] at henables <;>
    first
    | rfl
    | cases henables

/-- Five exchanges for each drive at most, each put off for at most `latency` more. -/
theorem enablingWithin (h : drv.Follows pr latency) (hp : p.Enabling)
    (hdrives : ∀ i, CanBeLed (pr.power (p.drives i)) (p.device i).controlWord ∧
      (pr.power (p.drives i) = .fault → pr.TakesReset (p.drives i))) :
    p.EnablingWithin pr latency ((latency + 1) * 5 + latency) :=
  ⟨hp, fun i => ⟨⟨(hdrives i).1, (hdrives i).2⟩,
    Strategy.distance_le h (Ecat.enableRank_le _)⟩⟩

/-- The cycle in which the drives are found enabled takes their positions over. -/
theorem cmdAxis_of_allEnabled (h : drv.Follows pr latency) (hp : p.Enabling)
    (hall : ∀ i, pr.power (p.drives i) = .operationEnabled) :
    (p.cycle drv a).system.thread.cmdAxis =
      MotionShared.getActAxis fun i => drv.position (p.drives (axisServo i)) := by
  set t := p.system.thread
  set inp := p.system.threadInput (p.framed drv a.1) with hinp
  have hreport : inp.ecat = EcatSystem.report
      (p.system.manager.receive (p.framed drv a.1).images) := by
    rw [hinp, EcatSystem.threadInput, work_of_enabling hp]
  have hswitch : t.switchesToReady inp = true := by
    have henabled := (allEnabled_iff (p := p) h a.1).mpr hall
    have hup : (EcatSystem.report (K := K)
        (p.system.manager.receive (p.framed drv a.1).images)).connected = true := hp.2.2
    have hthread : t.threadState = .running := hp.1
    have hecat : t.ecatState = .ecatConnectedEnabling := hp.2.1
    simp only [MotionThread.switchesToReady, hreport, hup, hthread, hecat]
    simpa [EcatSystem.report] using henabled
  have hwork : (t.threadCycleWork inp).cmdAxis = inp.ecat.actAxis :=
    MotionThread.switch_cmdAxis hswitch
  have hact : inp.ecat.actAxis =
      MotionShared.getActAxis fun i => drv.position (p.drives (axisServo i)) := by
    rw [hreport]
    rfl
  have hquiet : (t.threadCycleWork inp).Quiet := MotionThread.switch_quiet hswitch
  show (t.threadCycle inp a.2).1.cmdAxis = _
  rw [← hact, ← hwork]
  cases a.2 with
  | none => rfl
  | some c => exact MotionThread.handleCommand_cmdAxis hquiet inp.cycle.nowMs inp.cycle.hrNowNs c

/-- The drive did not take the reset that is still being sent to it. -/
def Refuses (pr : PowerView D) (x : D) : Prop := pr.power x = .fault ∧ ¬pr.TakesReset x

theorem Refuses.step (h : drv.Follows pr latency) (hp : p.Enabling) {i : Fin servoNum}
    (hi : Refuses pr (p.drives i)) (ha : a.1.threadStopFlag = false) :
    (p.cycle drv a).Enabling ∧ Refuses pr ((p.cycle drv a).drives i) := by
  obtain ⟨hfault, htakes⟩ := hi
  have hall : ¬∀ i, pr.power (p.drives i) = .operationEnabled := by
    intro hall
    have hi := hall i
    rw [hfault] at hi
    cases hi
  refine ⟨hp.next h hall ha, ?_⟩
  obtain ⟨hword, -, hdrive⟩ := enabling_device (a := a) h hp hall i
  rw [hfault] at hword
  have hkept := h.keepsFault (p.drives i) ((p.cycle drv a).device i).controlWord
    ((p.cycle drv a).device i).targetPosition hfault (fun hr => htakes hr.2)
  have hlast := h.lastReset (p.drives i) ((p.cycle drv a).device i).controlWord
    ((p.cycle drv a).device i).targetPosition
  rw [← hdrive] at hkept hlast
  refine ⟨hkept.1, fun ht => ?_⟩
  rcases ht with ht | ht
  · rw [hkept.2] at ht
    cases ht
  · have hbit : resetBit (enableWord .fault (p.device i).controlWord) = true :=
      Ecat.resetBit_faultReset
    rw [hlast, hword, hbit] at ht
    cases ht

/-- A drive that did not take the reset keeps its fault and holds the thread up for good: as long as
the thread is not told to stop, no cycle and no command gets it out of the enabling. -/
theorem fault_stays (h : drv.Follows pr latency) (hp : p.Enabling) {i : Fin servoNum}
    (hi : Refuses pr (p.drives i)) (as : List (EcatCycle K × Option (MotionCommand K)))
    (has : ∀ a ∈ as, a.1.threadStopFlag = false) :
    (Machine.run (cycle drv) p as).system.thread.ecatState = .ecatConnectedEnabling ∧
      pr.power ((Machine.run (cycle drv) p as).drives i) = .fault := by
  have hend : (Machine.run (cycle drv) p as).Enabling ∧
      Refuses pr ((Machine.run (cycle drv) p as).drives i) :=
    Machine.AllSteps.invariant
      (I := fun p : DriveSystem K D => p.Enabling ∧ Refuses pr (p.drives i))
      (fun p a hI ha => hI.2.step h hI.1 ha) ⟨hp, hi⟩ (Machine.allSteps_of_mem has)
  exact ⟨hend.1.2.1, hend.2.1⟩

/-! ### Disabling -/

/-- The thread stops. -/
def Stopping (p : DriveSystem K D) : Prop :=
  p.system.thread.threadState = .stopping ∧ p.system.manager.connected = true

/-- The images show every drive disabled. -/
def ShownDisabled (p : DriveSystem K D) : Prop :=
  ∀ i, Shows (p.device i).statusWord .switchOnDisabled

theorem servoAllDisabled_iff : p.system.manager.servoAllDisabled = true ↔ p.ShownDisabled := by
  rw [EcatManager.servoAllDisabled, decide_eq_true_iff]
  exact forall_congr' fun i => ServoDevice.swSwitchOnDisabled_iff

/-- Within `n` cycles all drives are shown disabled, and there is time for it. -/
def DisablingWithin (pr : PowerView D) (latency n : ℕ) (p : DriveSystem K D) : Prop :=
  p.Stopping ∧ p.system.stoppingCount + n < stoppingCountMax ∧
    (∀ i, disabling.Leads pr (p.drives i) (p.device i).controlWord ∧
      disabling.distance pr latency (p.drives i) (p.device i).controlWord ≤ n - 1) ∧
    (n = 0 → p.ShownDisabled)

theorem disabling_device (h : drv.Follows pr latency) (hp : p.Stopping)
    (hgo : p.system.lastCycle = false) (i : Fin servoNum) :
    ((p.cycle drv a).device i).controlWord =
        disableWord (pr.power (p.drives i)) (p.device i).controlWord ∧
      ((p.cycle drv a).device i).statusWord = drv.statusWord (p.drives i) ∧
      (p.cycle drv a).drives i =
        drv.exchange (p.drives i) ((p.cycle drv a).device i).controlWord
          ((p.cycle drv a).device i).targetPosition := by
  obtain ⟨-, hmanager, -, hsends⟩ :=
    EcatSystem.stopping_goes_on hp.1 hgo (p.framed drv a.1, a.2)
  have hdevice : (p.cycle drv a).device i = (receivedDevice drv p i).disableOnce := by
    show ((p.system.cycle (p.framed drv a.1, a.2)).manager).servoDevices i = _
    rw [hmanager]
    rfl
  rw [ServoDevice.disableOnce_eq (receivedDevice_shows h i)] at hdevice
  refine ⟨?_, ?_, ?_⟩
  · rw [hdevice]
    rfl
  · rw [hdevice]
    rfl
  · show (if _ then _ else _) = _
    rw [if_pos hsends]
    rfl

theorem disabling_step (h : drv.Follows pr latency) {n : ℕ} (hp : p.DisablingWithin pr latency n) :
    (p.Stopping ∧ p.ShownDisabled) ∨
      0 < n ∧ (p.cycle drv a).DisablingWithin pr latency (n - 1) := by
  obtain ⟨hstop, hcount, hdrives, hshown⟩ := hp
  by_cases hall : p.ShownDisabled
  · exact .inl ⟨hstop, hall⟩
  · right
    have hpos : 0 < n := Nat.pos_of_ne_zero fun hn => hall (hshown hn)
    have hgo : p.system.lastCycle = false := by
      have hnot : p.system.manager.servoAllDisabled = false := by
        rw [← Bool.not_eq_true, servoAllDisabled_iff]
        exact hall
      have hup : p.system.manager.isEcatConnected = true := hstop.2
      have hle : ¬p.system.stoppingCount + 1 > stoppingCountMax := by omega
      simp [EcatSystem.lastCycle, hnot, hup, hle]
    obtain ⟨hthread, hmanager, hnextCount, -⟩ :=
      EcatSystem.stopping_goes_on hstop.1 hgo (p.framed drv a.1, a.2)
    have hup : (p.cycle drv a).system.manager.connected = true := by
      show ((p.system.cycle (p.framed drv a.1, a.2)).manager).connected = true
      rw [hmanager]
      exact hstop.2
    have hcount' : (p.cycle drv a).system.stoppingCount = p.system.stoppingCount + 1 := hnextCount
    refine ⟨hpos, ⟨hthread, hup⟩, by omega, fun i => ?_, fun hn i => ?_⟩
    · obtain ⟨hleads, hle⟩ := hdrives i
      obtain ⟨hword, -, hdrive⟩ := disabling_device (a := a) h hstop hgo i
      have hnext := hleads.exchange h ((p.cycle drv a).device i).targetPosition
      rw [hdrive, hword]
      exact ⟨hnext.1, hnext.2.trans (Nat.sub_le_sub_right hle 1)⟩
    · have hzero : disabling.distance pr latency (p.drives i) (p.device i).controlWord = 0 := by
        have hle := (hdrives i).2
        omega
      have hpower := Ecat.disableRank_eq_zero (Strategy.distance_eq_zero.mp hzero)
      rw [(disabling_device (a := a) h hstop hgo i).2.1, ← hpower]
      exact h.shows (p.drives i)

end DriveSystem

end

/-! ### A drive that does at once what it is told -/

structure PromptDrive where
  power : PowerState
  lastReset : Bool
  position : ℤ

namespace PromptDrive

def drive : Drive PromptDrive where
  statusWord x := x.power.code
  position x := x.position
  exchange x w t :=
    { power :=
        if x.power = .fault then
          if resetBit w && !x.lastReset then .switchOnDisabled else .fault
        else x.power.next (.ofWord w)
      lastReset := resetBit w
      position := if x.power = .operationEnabled then t else x.position }

def view : PowerView PromptDrive where
  power x := x.power
  lastReset x := x.lastReset
  resetting _ := false
  patience _ := 0

theorem drive_follows : drive.Follows view 0 where
  shows x := by
    show x.power.code &&& x.power.mask = x.power.code
    cases x.power <;> rfl
  patience_le _ := le_rfl
  lastReset _ _ _ := rfl
  answers x w t hx := .inl (if_neg hx)
  resets x w t hx hw htakes := by
    have hlast : x.lastReset = false := htakes.resolve_left Bool.false_ne_true
    have hfault : x.power = .fault := hx
    left
    show (if x.power = .fault then _ else _) = _
    simp [hfault, hw, hlast]
  keepsFault x w t hx hkeeps := by
    have hfault : x.power = .fault := hx
    refine ⟨?_, rfl⟩
    show (if x.power = .fault then _ else _) = _
    rw [if_pos hfault, if_neg]
    intro htakes
    rw [Bool.and_eq_true, Bool.not_eq_true'] at htakes
    exact hkeeps ⟨htakes.1, .inr htakes.2⟩

attribute [local instance] Sample.settings

/-- The thread enables drives of which the first is at fault, the others ready to be switched on. -/
def atFault (lastReset : Bool) : DriveSystem ℚ PromptDrive where
  system :=
    { (EcatSystem.new 100 : EcatSystem ℚ) with
      thread :=
        { (MotionThread.new : MotionThread ℚ) with
          threadState := .running
          ecatState := .ecatConnectedEnabling }
      manager := { EcatManager.new servoNum 0 with connected := true } }
  drives i := if i.val = 0 then ⟨.fault, lastReset, 7⟩ else ⟨.readyToSwitchOn, false, 3⟩

theorem atFault_canBeLed (i : Fin servoNum) :
    CanBeLed (view.power ((atFault false).drives i)) ((atFault false).device i).controlWord ∧
      (view.power ((atFault false).drives i) = .fault →
        view.TakesReset ((atFault false).drives i)) := by
  by_cases hi : i.val = 0
  · simp [atFault, view, hi, CanBeLed, PowerView.TakesReset]
  · simp [atFault, view, hi, CanBeLed]

/-- Cycles in which nobody interferes. -/
def goodCycles (n : ℕ) : List (EcatCycle ℚ × Option (MotionCommand ℚ)) :=
  List.replicate n (EcatSystem.goodCycle, none)

theorem threadStopFlag_of_mem_goodCycles {n : ℕ} :
    ∀ a ∈ goodCycles n, a.1.threadStopFlag = false := by
  intro a ha
  rw [List.eq_of_mem_replicate ha]
  rfl

/-- The reset is on from an earlier fault. -/
theorem atFault_stays :
    (Machine.run (DriveSystem.cycle drive) (atFault true)
      (goodCycles 50)).system.thread.ecatState = .ecatConnectedEnabling :=
  (DriveSystem.fault_stays drive_follows (p := atFault true) ⟨rfl, rfl, rfl⟩ (i := ⟨0, by decide⟩)
    ⟨rfl, by rintro (h | h) <;> cases h⟩ _ threadStopFlag_of_mem_goodCycles).1

/-- The same drives when the program is closed. -/
def closing : DriveSystem ℚ PromptDrive :=
  { atFault false with
    system :=
      { (atFault false).system with
        thread := { (atFault false).system.thread with threadState := .stopping } } }

end PromptDrive

end Edm
