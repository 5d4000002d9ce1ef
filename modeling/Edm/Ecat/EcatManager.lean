import Mathlib.Algebra.Order.Field.Rat
import Mathlib.Tactic.Linarith
import Mathlib.Tactic.NormNum
import Edm.Ecat.ServoDevice
import Edm.Utils.SlidingCounter

/-!
# The EtherCAT manager

`EcatManager` holds the servo devices, the flag that says whether the bus is up, and a counter of
the receive checks that failed. What the master library reports in a cycle (`MasterState`,
`DomainState`) is an input; so is the outcome of an attempt to connect. The driver is IGH with a
domain for each slave.
-/

namespace Edm.Ecat

open DriveProfile

/-- `ec_master_state_t`. -/
structure MasterState where
  slavesResponding : ℕ
  linkUp : Bool
  alStates : BitVec 4
  deriving DecidableEq, Repr

/-- `ec_domain_state_t`. -/
structure DomainState where
  workingCounter : ℕ
  /-- `wc_state` is `EC_WC_COMPLETE`. -/
  complete : Bool
  deriving DecidableEq, Repr

/-- The manager of `n` servos. -/
structure EcatManager (n : ℕ) where
  connected : Bool
  ioNum : ℕ
  servoDevices : Fin n → ServoDevice
  /-- `wkc_failed_sc`: the valid entries are the checks that failed. -/
  wkcFailedSc : SlidingCounter 100

namespace EcatManager

variable {n : ℕ}

/-- Before the first connection the devices are null pointers; their values here are never used. -/
def new (n ioNum : ℕ) : EcatManager n := ⟨false, ioNum, fun _ => default, .new⟩

def isEcatConnected (m : EcatManager n) : Bool := m.connected

/-- The loop over the attempts: the devices of the first that succeeds. -/
def tryConnect (attempt : ℕ → Option (Fin n → ServoDevice)) : ℕ → Option (Fin n → ServoDevice)
  | 0 => none
  | k + 1 => (attempt 0).or (tryConnect (fun i => attempt (i + 1)) k)

/-- `connect_ecat`, where the attempts come out as `attempt` says. -/
def connectEcat (m : EcatManager n) (attempt : ℕ → Option (Fin n → ServoDevice)) (maxTryTimes : ℕ) :
    EcatManager n × Bool :=
  if m.connected then (m, true)
  else
    match tryConnect attempt maxTryTimes with
    | none => (m, false)
    | some devices =>
      ({ m with
          connected := true
          servoDevices := devices
          wkcFailedSc := m.wkcFailedSc.clear }, true)

def disconnectEcat (m : EcatManager n) : EcatManager n := { m with connected := false }

/-- `_igh_check_receive_valid`. -/
def ighCheckReceiveValid (m : EcatManager n) (master : MasterState) (domains : List DomainState) :
    Bool :=
  if master.slavesResponding ≠ n + m.ioNum then false
  else if !master.linkUp then false
  else if master.alStates ≠ 0b1000#4 then false
  else domains.all fun d => d.workingCounter = 3 && d.complete

def wkcFailedThreshold : ℚ := 90 / 100

/-- `receive_check` after a check with the result `stateCheck`. -/
def receiveCheck (m : EcatManager n) (stateCheck : Bool) : EcatManager n × Bool :=
  let m := { m with wkcFailedSc := m.wkcFailedSc.pushBack (!stateCheck) }
  if m.wkcFailedSc.validRate > wkcFailedThreshold then ({ m with connected := false }, false)
  else (m, true)

def ighCheckOp (master : MasterState) : Bool := master.alStates = 0b1000#4

def servoHasFault (m : EcatManager n) : Bool := decide (∃ i, (m.servoDevices i).swFault)

def servoAllOperationEnabled (m : EcatManager n) : Bool :=
  decide (∀ i, (m.servoDevices i).swOperationalEnabled)

def servoAllDisabled (m : EcatManager n) : Bool :=
  decide (∀ i, (m.servoDevices i).swSwitchOnDisabled)

/-- `f` on every device. -/
def onDevices (m : EcatManager n) (f : Fin n → ServoDevice → ServoDevice) : EcatManager n :=
  { m with servoDevices := fun i => f i (m.servoDevices i) }

def clearFaultCycleRunOnce (m : EcatManager n) : EcatManager n :=
  m.onDevices fun _ d => d.clearFaultOnce

def disableCycleRunOnce (m : EcatManager n) : EcatManager n := m.onDevices fun _ d => d.disableOnce

/-- `igh_master_receive` and `igh_domain_process`: an image is of the last frame that came back. -/
def receive (m : EcatManager n) (images : Fin n → Option (Word × ℤ)) : EcatManager n :=
  m.onDevices fun i d => d.received (images i)

section Lemmas

variable (m : EcatManager n)

@[simp] theorem onDevices_connected (f : Fin n → ServoDevice → ServoDevice) :
    (m.onDevices f).connected = m.connected := rfl

@[simp] theorem onDevices_wkcFailedSc (f : Fin n → ServoDevice → ServoDevice) :
    (m.onDevices f).wkcFailedSc = m.wkcFailedSc := rfl

theorem connectEcat_connected (attempt : ℕ → Option (Fin n → ServoDevice)) (k : ℕ) :
    (m.connectEcat attempt k).1.connected = (m.connectEcat attempt k).2 := by
  unfold connectEcat
  split
  · assumption
  · rename_i h
    split
    · simpa using h
    · rfl

theorem connectEcat_of_connected (h : m.connected = true)
    (attempt : ℕ → Option (Fin n → ServoDevice)) (k : ℕ) : m.connectEcat attempt k = (m, true) :=
  if_pos h

/-- The check is failed by more than nine in ten. -/
theorem validRate_gt_iff {c : SlidingCounter 100} (h : c.currentWindowSize = 100) :
    c.validRate > wkcFailedThreshold ↔ 90 < c.validCount := by
  unfold SlidingCounter.validRate wkcFailedThreshold
  rw [h, gt_iff_lt, Nat.cast_ofNat, div_lt_div_iff_of_pos_right (by norm_num)]
  exact Nat.cast_lt (m := 90)

theorem receiveCheck_wkcFailedSc (v : Bool) :
    (m.receiveCheck v).1.wkcFailedSc = m.wkcFailedSc.pushBack (!v) := by
  unfold receiveCheck
  dsimp only
  split <;> rfl

theorem receiveCheck_servoDevices (v : Bool) :
    (m.receiveCheck v).1.servoDevices = m.servoDevices := by
  unfold receiveCheck
  dsimp only
  split <;> rfl

/-- The bus is given up if the check fails. -/
theorem receiveCheck_connected (v : Bool) :
    (m.receiveCheck v).1.connected = (m.connected && (m.receiveCheck v).2) := by
  unfold receiveCheck
  dsimp only
  split
  · exact (Bool.and_false _).symm
  · exact (Bool.and_true _).symm

/-- The check fails exactly if more than ninety of the last hundred receives were bad. -/
theorem receiveCheck_eq_true_iff {hist : List Bool} (h : m.wkcFailedSc.Counts ⟨100, hist⟩)
    (v : Bool) :
    (m.receiveCheck v).2 = true ↔ (((!v) :: hist).take 100).count true ≤ 90 := by
  have hnext := h.pushBack (!v)
  have hcount : (m.wkcFailedSc.pushBack (!v)).validCount = (((!v) :: hist).take 100).count true :=
    hnext.valid
  have hrate := validRate_gt_iff hnext.window
  rw [hcount] at hrate
  unfold receiveCheck
  dsimp only
  split
  · rename_i hgt
    have hlt := hrate.mp hgt
    simp only [Bool.false_eq_true, false_iff]
    omega
  · rename_i hle
    have hlt := mt hrate.mpr hle
    simp only [true_iff]
    omega

end Lemmas

end EcatManager

/-! ### The two strategies -/

section Strategies

@[simp] theorem ofWord_shutdown : Command.ofWord CW.shutdown = .shutdown := by decide
@[simp] theorem ofWord_switchOn : Command.ofWord CW.switchOn = .switchOn := by decide
@[simp] theorem ofWord_enableOperation : Command.ofWord CW.enableOperation = .enableOperation := by
  decide
@[simp] theorem ofWord_disableVoltage : Command.ofWord CW.disableVoltage = .disableVoltage := by
  decide
@[simp] theorem ofWord_disableOperation : Command.ofWord CW.disableOperation = .switchOn := by
  decide
@[simp] theorem ofWord_faultReset : Command.ofWord CW.faultReset = .disableVoltage := by decide
@[simp] theorem resetBit_faultReset : resetBit CW.faultReset = true := by decide

/-- The states the two cycles get a drive out of. They send a drive that reacts to a fault what they
sent before, which must not be a reset yet; and they have no answer to a quick stop. -/
def CanBeLed : PowerState → Word → Prop
  | .quickStopActive, _ => False
  | .faultReactionActive, w => resetBit w = false
  | _, _ => True

def enableRank : PowerState → ℕ
  | .operationEnabled => 0
  | .switchedOn => 1
  | .readyToSwitchOn => 2
  | .switchOnDisabled => 3
  | .notReadyToSwitchOn | .fault => 4
  | .faultReactionActive | .quickStopActive => 5

/-- A drive that is disabled leaves this state again if it was last told to shut down. -/
def disableRank : PowerState → Word → ℕ
  | .switchOnDisabled, w => if Command.ofWord w = .shutdown then 2 else 0
  | .readyToSwitchOn, _ => 1
  | .fault, _ => 1
  | .switchedOn, _ => 2
  | .operationEnabled, _ | .notReadyToSwitchOn, _ => 3
  | .faultReactionActive, _ => 2
  | .quickStopActive, _ => 4

/-- `clear_fault_cycle_run_once` leads a drive to operation enabled. -/
def enabling : Strategy where
  word := enableWord
  rank p _ := enableRank p
  allowed := CanBeLed
  answered p w h hp := by
    cases p
    case fault => exact absurd rfl hp
    case quickStopActive => exact h.elim
    all_goals simp [enableWord, PowerState.next, CanBeLed, enableRank]
  putOff p w h := by
    cases p
    case faultReactionActive => exact ⟨h, le_rfl⟩
    case quickStopActive => exact h.elim
    all_goals exact ⟨trivial, le_rfl⟩
  resets w _ := by simp [enableWord, CanBeLed, enableRank]
  arms p w h hp hnext := by
    cases p
    case faultReactionActive => exact h
    case quickStopActive => exact h.elim
    all_goals simp [enableWord, PowerState.next] at hnext hp

/-- `disable_cycle_run_once` leads a drive to switch on disabled. -/
def disabling : Strategy where
  word := disableWord
  rank := disableRank
  allowed := CanBeLed
  answered p w h hp := by
    cases p
    case fault => exact absurd rfl hp
    case quickStopActive => exact h.elim
    case switchOnDisabled =>
      cases hw : Command.ofWord w <;>
        simp [disableWord, PowerState.next, CanBeLed, disableRank, hw]
    case notReadyToSwitchOn =>
      have hle : (if Command.ofWord w = .shutdown then 2 else 0) ≤ 2 := by split <;> omega
      exact ⟨trivial, hle⟩
    all_goals simp [disableWord, PowerState.next, CanBeLed, disableRank]
  putOff p w h := by
    cases p
    case faultReactionActive => exact ⟨h, le_rfl⟩
    case quickStopActive => exact h.elim
    all_goals exact ⟨trivial, le_rfl⟩
  resets w _ := by simp [disableWord, CanBeLed, disableRank]
  arms p w h hp hnext := by
    cases p
    case faultReactionActive => exact h
    case quickStopActive => exact h.elim
    case switchOnDisabled =>
      cases hw : Command.ofWord w <;> simp [disableWord, PowerState.next, hw] at hnext
    all_goals simp [disableWord, PowerState.next] at hnext hp

theorem enableRank_eq_zero {p : PowerState} : enableRank p = 0 ↔ p = .operationEnabled := by
  cases p <;> simp [enableRank]

theorem enableRank_le (p : PowerState) : enableRank p ≤ 5 := by cases p <;> simp [enableRank]

theorem disableRank_eq_zero {p : PowerState} {w : Word} (h : disableRank p w = 0) :
    p = .switchOnDisabled := by
  cases p <;> simp [disableRank] at h ⊢

theorem disableRank_le (p : PowerState) (w : Word) : disableRank p w ≤ 4 := by
  cases p with
  | switchOnDisabled =>
    show (if Command.ofWord w = .shutdown then 2 else 0) ≤ 4
    split <;> omega
  | _ => simp [disableRank]

end Strategies

end Edm.Ecat
