import Edm.Lib.DriveProfile

/-!
# The servo devices

A `ServoDevice` is a drive as the program sees it: the part of the process image that is sent to it
(control word, mode of operation, target) and the part that came back from it (status word, actual
position). `clear_fault_cycle_run_once` and `disable_cycle_run_once` take each drive one state on;
what they make of a device depends on the state it shows (`clearFaultOnce_eq`, `disableOnce_eq`).
-/

namespace Edm.Ecat

open DriveProfile

/-! ### Definitions of `Panasonic.h` -/

namespace CW

def shutdown : Word := 0x6#16
def switchOn : Word := 0x7#16
def enableOperation : Word := 0xF#16
def disableVoltage : Word := 0x0#16
def disableOperation : Word := 0x7#16
def faultReset : Word := 0x80#16

end CW

namespace SW

def switchOnDisabled : Word := 0x40#16
def readyToSwitchOn : Word := 0x21#16
def switchedOn : Word := 0x23#16
def operationEnabled : Word := 0x27#16
def fault : Word := 0x8#16

end SW

/-- `OM_CSP`. -/
def OM.csp : BitVec 8 := 8#8

inductive ServoType where
  | unknownType | panasonicA5B | panasonicA5BWithVOffset
  deriving DecidableEq, Repr, Inhabited

/-- `PanasonicServoDevice` over its domain. Positions are those of type `int32_t`. -/
structure ServoDevice where
  type : ServoType
  controlWord : Word
  modesOfOperation : BitVec 8
  targetPosition : ℤ
  /-- Sent by a `PanasonicServoDeviceWithVOffset` only. -/
  vOffset : ℤ
  statusWord : Word
  positionActualValue : ℤ
  deriving DecidableEq, Repr, Inhabited

namespace ServoDevice

def setControlWord (d : ServoDevice) (controlWord : Word) : ServoDevice := { d with controlWord }

def setTargetPosition (d : ServoDevice) (targetPosition : ℤ) : ServoDevice :=
  { d with targetPosition }

def setOperationMode (d : ServoDevice) (operationMode : BitVec 8) : ServoDevice :=
  { d with modesOfOperation := operationMode }

def setVOffset (d : ServoDevice) (vOffset : ℤ) : ServoDevice := { d with vOffset }

def swFault (d : ServoDevice) : Bool := d.statusWord &&& 0b01001111#16 == SW.fault

def swSwitchOnDisabled (d : ServoDevice) : Bool :=
  d.statusWord &&& 0b01001111#16 == SW.switchOnDisabled

def swReadyToSwitchOn (d : ServoDevice) : Bool :=
  d.statusWord &&& 0b01101111#16 == SW.readyToSwitchOn

def swSwitchedOn (d : ServoDevice) : Bool := d.statusWord &&& 0b01101111#16 == SW.switchedOn

def swOperationalEnabled (d : ServoDevice) : Bool :=
  d.statusWord &&& 0b01101111#16 == SW.operationEnabled

def cwFaultReset (d : ServoDevice) : ServoDevice := d.setControlWord CW.faultReset
def cwShutDown (d : ServoDevice) : ServoDevice := d.setControlWord CW.shutdown
def cwSwitchOn (d : ServoDevice) : ServoDevice := d.setControlWord CW.switchOn
def cwEnableOperation (d : ServoDevice) : ServoDevice := d.setControlWord CW.enableOperation
def cwDisableOperation (d : ServoDevice) : ServoDevice := d.setControlWord CW.disableOperation
def cwDisableVoltage (d : ServoDevice) : ServoDevice := d.setControlWord CW.disableVoltage

def syncActualPositionToTargetPosition (d : ServoDevice) : ServoDevice :=
  d.setTargetPosition d.positionActualValue

/-- `clear_fault_cycle_run_once` on one servo. -/
def clearFaultOnce (d : ServoDevice) : ServoDevice :=
  let d := d.setOperationMode OM.csp
  if d.swFault then d.cwFaultReset
  else if d.swSwitchOnDisabled then d.cwShutDown
  else if d.swReadyToSwitchOn then d.cwSwitchOn
  else if d.swSwitchedOn || d.swOperationalEnabled then
    d.cwEnableOperation.syncActualPositionToTargetPosition
  else d

/-- `disable_cycle_run_once` on one servo. -/
def disableOnce (d : ServoDevice) : ServoDevice :=
  let d := d.setOperationMode OM.csp
  if d.swFault then d.cwFaultReset
  else if d.swSwitchOnDisabled then d
  else if d.swReadyToSwitchOn then d.cwDisableVoltage
  else if d.swSwitchedOn then d.cwShutDown
  else if d.swOperationalEnabled then d.cwDisableOperation
  else d

/-- A frame came back from the drive. -/
def received (d : ServoDevice) : Option (Word × ℤ) → ServoDevice
  | none => d
  | some (statusWord, positionActualValue) => { d with statusWord, positionActualValue }

/-! ### The states of the drives -/

section States

variable {d : ServoDevice} {p : PowerState}

theorem swFault_iff : d.swFault = true ↔ Shows d.statusWord .fault := beq_iff_eq

theorem swSwitchOnDisabled_iff :
    d.swSwitchOnDisabled = true ↔ Shows d.statusWord .switchOnDisabled :=
  beq_iff_eq

theorem swReadyToSwitchOn_iff : d.swReadyToSwitchOn = true ↔ Shows d.statusWord .readyToSwitchOn :=
  beq_iff_eq

theorem swSwitchedOn_iff : d.swSwitchedOn = true ↔ Shows d.statusWord .switchedOn := beq_iff_eq

theorem swOperationalEnabled_iff :
    d.swOperationalEnabled = true ↔ Shows d.statusWord .operationEnabled := beq_iff_eq

end States

end ServoDevice

/-- The control word `clear_fault_cycle_run_once` sends to a drive that shows a state. -/
def enableWord : PowerState → Word → Word
  | .fault, _ => CW.faultReset
  | .switchOnDisabled, _ => CW.shutdown
  | .readyToSwitchOn, _ => CW.switchOn
  | .switchedOn, _ | .operationEnabled, _ => CW.enableOperation
  | _, w => w

/-- The control word `disable_cycle_run_once` sends. -/
def disableWord : PowerState → Word → Word
  | .fault, _ => CW.faultReset
  | .readyToSwitchOn, _ => CW.disableVoltage
  | .switchedOn, _ => CW.shutdown
  | .operationEnabled, _ => CW.disableOperation
  | _, w => w

/-- The states in which the drive is told to follow its target. -/
def enables (p : PowerState) : Bool := p = .switchedOn || p = .operationEnabled

namespace ServoDevice

variable {d : ServoDevice} {p : PowerState}

theorem clearFaultOnce_eq (h : Shows d.statusWord p) :
    d.clearFaultOnce =
      { d with
        modesOfOperation := OM.csp
        controlWord := enableWord p d.controlWord
        targetPosition := if enables p then d.positionActualValue else d.targetPosition } := by
  have hs (q : PowerState) : Shows (d.setOperationMode OM.csp).statusWord q ↔ q = p := h.iff_eq
  simp only [clearFaultOnce, Bool.or_eq_true, swFault_iff, swSwitchOnDisabled_iff,
    swReadyToSwitchOn_iff, swSwitchedOn_iff, swOperationalEnabled_iff, hs]
  cases p <;> rfl

theorem disableOnce_eq (h : Shows d.statusWord p) :
    d.disableOnce =
      { d with modesOfOperation := OM.csp, controlWord := disableWord p d.controlWord } := by
  have hs (q : PowerState) : Shows (d.setOperationMode OM.csp).statusWord q ↔ q = p := h.iff_eq
  simp only [disableOnce, swFault_iff, swSwitchOnDisabled_iff, swReadyToSwitchOn_iff,
    swSwitchedOn_iff, swOperationalEnabled_iff, hs]
  cases p <;> rfl

end ServoDevice

end Edm.Ecat
