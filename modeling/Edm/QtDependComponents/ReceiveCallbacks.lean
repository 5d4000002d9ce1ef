import Edm.Lib.Peek
import Edm.Motion.Axis
import Edm.Utils.Crc

/-!
# The callbacks for received messages

The handbox, the servo board on the CAN bus and the Zynq board on UDP are listened to by callbacks that
lay a structure over the bytes received. None of them looks at the length: what a short message lacks is
taken from the memory behind it (`guarded_iff_long_enough`).

`HandboxConverter` also keeps the pointer past the statement that fetched the payload. Whether there is
still a payload then is a matter of `QCanBusFrame::payload`, the parameter `outlives`; that of Qt
returns a copy, which is gone.
-/

namespace Edm

structure QCanBusFrame where
  frameId : ℕ
  extendedFrameFormat : Bool
  payload : List Byte

/-- Little endian. -/
def leNat : List Byte → ℕ
  | [] => 0
  | b :: bs => b.toNat + 256 * leNat bs

/-- A signed integer of as many bytes. -/
def leInt (bs : List Byte) : ℤ := (leNat bs : ℤ).bmod (256 ^ bs.length)

namespace HandboxConverter

/-- `enum id`. -/
inductive Id where
  | startPointmove | stopPointmove | pump | entAuto | pauseAuto | stopAuto | ack
  deriving DecidableEq, Repr

def Id.ofFuncId : ℕ → Option Id
  | 6 => some .startPointmove
  | 4 => some .stopPointmove
  | 10 => some .pump
  | 11 => some .entAuto
  | 12 => some .pauseAuto
  | 13 => some .stopAuto
  | 20 => some .ack
  | _ => none

/-- The call of a callback. -/
inductive Command (K : Type) where
  | startManualPointmove (dir : Axis K) (speedLevel : ℕ) (touchDetectEnable : Bool)
  | stopManualPointmove
  | pauseAuto
  | entAuto
  | stopAuto
  | ack
  | pump (machineio : ℕ)

def funcId (frame : QCanBusFrame) : ℕ := frame.frameId >>> 4 &&& 0xFF

/-- What a frame is taken for. -/
def id (frame : QCanBusFrame) : Option Id :=
  if !frame.extendedFrameFormat then none
  else if funcId frame = 0 ∧ funcId frame = 1 then none
  else Id.ofFuncId (funcId frame)

/-- The bytes a frame has to have. -/
def size (frame : QCanBusFrame) : ℕ :=
  match id frame with
  | some .startPointmove => 7
  | some .pump => 4
  | _ => 0

section Listen

variable {K : Type} [Field K]

def frameStartPointmove : Peek Byte (Command K) := do
  let axisBits ← Peek.at_ 0
  let dirBits ← Peek.at_ 1
  let speedLevel ← Peek.at_ 5
  let st ← Peek.at_ 6
  let dir : Axis K := fun i =>
    if axisBits.getLsbD i then if dirBits.getLsbD i then 1 else -1 else 0
  let speedLevel := if speedLevel.toNat > 3 then 3 else speedLevel.toNat
  pure (.startManualPointmove dir speedLevel (st == 0))

/-- The callback takes a `uint8_t`. -/
def framePump : Peek Byte (Command K) := do
  let machineio ← Peek.cells 0 4
  pure (.pump (leNat machineio % 2 ^ 8))

/-- `_listen_cb`. -/
def listenCb (frame : QCanBusFrame) : Peek Byte (Option (Command K)) :=
  match id frame with
  | some .startPointmove => some <$> frameStartPointmove
  | some .stopPointmove => pure (some .stopManualPointmove)
  | some .pump => some <$> framePump
  | some .entAuto => pure (some .entAuto)
  | some .pauseAuto => pure (some .pauseAuto)
  | some .stopAuto => pure (some .stopAuto)
  | some .ack => pure (some .ack)
  | none => pure none

/-- What the pointer points at after the statement that fetched it. -/
def kept (outlives : Bool) (frame : QCanBusFrame) (memory : ℕ → Byte) : Peek.View Byte :=
  ⟨if outlives then frame.payload else [], memory⟩

theorem listenCb_needs (frame : QCanBusFrame) (m : ℕ → Byte) :
    (listenCb frame : Peek Byte (Option (Command K))).Needs m (size frame) := by
  unfold listenCb size
  cases id frame with
  | none => exact ⟨by simp, by simp⟩
  | some i =>
    cases i with
    | startPointmove => exact ⟨by simp [frameStartPointmove], by simp [frameStartPointmove]⟩
    | pump => exact ⟨by simp [framePump], by simp [framePump]⟩
    | stopPointmove | entAuto | pauseAuto | stopAuto | ack => exact ⟨by simp, by simp⟩

end Listen

end HandboxConverter

/-! ### The servo board on the CAN bus -/

/-- The last data received, as bytes. -/
structure CanReceiveBuffer where
  atServoData : List Byte
  atAdcInfo : List Byte
  atServoDataIsNew : Bool

namespace CanReceiveBuffer

def servodataRxid : ℕ := 0x0231

def adcinfoRxid : ℕ := 0x0232

/-- `_listen_cb`; the build option `newServodata1ms` leaves the frames with the ADC values out. The second
look at the bytes is for the log. -/
def listenCb (newServodata1ms : Bool) (c : CanReceiveBuffer) (frame : QCanBusFrame) :
    Peek Byte CanReceiveBuffer :=
  if frame.frameId = servodataRxid then do
    let data ← Peek.cells 0 8
    let _temp ← Peek.cells 0 8
    pure { c with atServoDataIsNew := true, atServoData := data }
  else if !newServodata1ms && frame.frameId = adcinfoRxid then do
    let data ← Peek.cells 0 8
    let _temp ← Peek.cells 0 8
    pure { c with atAdcInfo := data }
  else pure c

def size (newServodata1ms : Bool) (frame : QCanBusFrame) : ℕ :=
  if frame.frameId = servodataRxid then 8
  else if !newServodata1ms && frame.frameId = adcinfoRxid then 8
  else 0

theorem listenCb_needs (newServodata1ms : Bool) (c : CanReceiveBuffer) (frame : QCanBusFrame)
    (m : ℕ → Byte) : (listenCb newServodata1ms c frame).Needs m (size newServodata1ms frame) := by
  unfold listenCb size
  split
  · exact ⟨by simp, by simp⟩
  · split
    · exact ⟨by simp, by simp⟩
    · exact ⟨by simp, by simp⟩

end CanReceiveBuffer

/-! ### The Zynq board -/

/-- `servo_return_converted_data_t`. -/
structure ServoReturnConvertedData (K : Type) where
  realtimeVoltage : K
  averagedVoltage : K
  servoCalcedSpeedMmMin : K
  touchDetected : Bool

namespace ZynqUdpMessageHolder

variable {K : Type} [Field K] [LinearOrder K]

/-- `_udp_listener_cb`: what is stored. The structure lies behind four bytes. -/
def udpListenerCb : Peek Byte (ServoReturnConvertedData K) := do
  let averagedVoltageTimes10 ← Peek.cells (4 + 2) 2
  let realtimeVoltageTimes10 ← Peek.cells 4 2
  let servoCalcedSpeedMmMinTimes1000 ← Peek.cells (4 + 4) 4
  let averagedVoltage : K := (leInt averagedVoltageTimes10 : K) / 10
  pure
    { averagedVoltage
      realtimeVoltage := (leInt realtimeVoltageTimes10 : K) / 10
      servoCalcedSpeedMmMin := (leInt servoCalcedSpeedMmMinTimes1000 : K) / 1000
      touchDetected := averagedVoltage ≤ 15 / 10 }

def size : ℕ := 4 + 8

theorem udpListenerCb_needs (m : ℕ → Byte) :
    (udpListenerCb : Peek Byte (ServoReturnConvertedData K)).Needs m size := by
  refine ⟨fun i hi => ?_, by simp [udpListenerCb, size]⟩
  simp only [udpListenerCb, Peek.reads_bind, Peek.reads_cells, Peek.reads_pure, List.mem_append,
    List.mem_range'_1, List.not_mem_nil, or_false] at hi
  unfold size
  omega

end ZynqUdpMessageHolder

/-! ### All of them -/

section All

variable {K : Type} [Field K] [LinearOrder K]

/-- Every callback stays inside the message and ignores a short one if and only if the message is not
short, and for the handbox frames that are looked into, if the payload outlives the statement. -/
theorem guarded_iff_long_enough (outlives newServodata1ms : Bool) (frame : QCanBusFrame)
    (memory : ℕ → Byte) (c : CanReceiveBuffer) (datagram : List Byte)
    (cached : ServoReturnConvertedData K) :
    ((HandboxConverter.kept outlives frame memory).Guarded frame.payload.length
        (HandboxConverter.size frame) none
        (HandboxConverter.listenCb frame : Peek Byte (Option (HandboxConverter.Command K))) ↔
      HandboxConverter.size frame ≤ frame.payload.length ∧
        (HandboxConverter.size frame ≠ 0 → outlives = true)) ∧
    (Peek.View.Guarded ⟨frame.payload, memory⟩ frame.payload.length
        (CanReceiveBuffer.size newServodata1ms frame) c (c.listenCb newServodata1ms frame) ↔
      CanReceiveBuffer.size newServodata1ms frame ≤ frame.payload.length) ∧
    (Peek.View.Guarded ⟨datagram, memory⟩ datagram.length ZynqUdpMessageHolder.size cached
        ZynqUdpMessageHolder.udpListenerCb ↔
      ZynqUdpMessageHolder.size ≤ datagram.length) := by
  refine ⟨?_, Peek.View.guarded_iff le_rfl (CanReceiveBuffer.listenCb_needs _ _ _ _),
    Peek.View.guarded_iff le_rfl (ZynqUdpMessageHolder.udpListenerCb_needs _)⟩
  have hneeds := HandboxConverter.listenCb_needs (K := K) frame
    (HandboxConverter.kept outlives frame memory).mem
  have hobject : (HandboxConverter.kept outlives frame memory).object.length ≤
      frame.payload.length := by
    cases outlives with
    | true => exact le_rfl
    | false => exact Nat.zero_le _
  rw [Peek.View.guarded_iff hobject hneeds]
  cases outlives with
  | true =>
    show _ ≤ frame.payload.length ↔ _
    simp
  | false =>
    show _ ≤ 0 ↔ _
    constructor
    · intro hzero
      exact ⟨hzero.trans (Nat.zero_le _), fun hne => absurd (Nat.le_zero.mp hzero) hne⟩
    · rintro ⟨-, hne⟩
      by_contra hpos
      cases hne fun hzero => hpos (Nat.le_of_eq hzero)

end All

/-- Short messages over a memory of zeros, on the machine on which the payload would still be there: two
bytes from the handbox start a move, an empty frame from the servo board is new data, an empty datagram is
a touch. -/
theorem short_messages_obeyed :
    let start : QCanBusFrame := ⟨0x60, true, [1, 1]⟩
    let servoData : QCanBusFrame := ⟨0x0231, false, []⟩
    let zeros : ℕ → Byte := fun _ => 0
    let buffer : CanReceiveBuffer := ⟨[], [], false⟩
    let datagram : ServoReturnConvertedData ℚ :=
      ZynqUdpMessageHolder.udpListenerCb.run (Peek.View.mem ⟨[], zeros⟩)
    ((HandboxConverter.listenCb start : Peek Byte (Option (HandboxConverter.Command ℚ))).run
        (HandboxConverter.kept true start zeros).mem).isSome ∧
      ¬(HandboxConverter.kept true start zeros).Guarded 2 7 none
        (HandboxConverter.listenCb start : Peek Byte (Option (HandboxConverter.Command ℚ))) ∧
      ((buffer.listenCb true servoData).run (Peek.View.mem ⟨[], zeros⟩)).atServoDataIsNew = true ∧
      datagram.touchDetected = true := by
  intro start servoData zeros buffer datagram
  have hsome : ((HandboxConverter.listenCb start :
      Peek Byte (Option (HandboxConverter.Command ℚ))).run
        (HandboxConverter.kept true start zeros).mem).isSome := by
    decide +kernel
  refine ⟨hsome, fun h => ?_, by decide +kernel, by decide +kernel⟩
  rw [h.short (by decide)] at hsome
  cases hsome

end Edm
