import Edm.QtDependComponents.IOController
import Mathlib.Data.Fintype.Prod

/-!
# Decoding the discharge parameters

For the DIMEN power supply a parameter record is decoded into two CAN frames of eight bytes and into the
relays of two IO words. Each step of the decoder writes its own bits. Two facts matter to the code
around it: the heartbeat is in the frames only and can be exchanged in a result (`setPulseCount_decode`),
and the relays are within the masks (`decode_within`).
-/

set_option linter.unusedSectionVars false

namespace Edm

/-- `EleParam_dkd_t`, as far as the power code reads it. -/
structure EleParamDkd where
  ip : BitVec 16
  upperThreshold : Byte
  lowerThreshold : Byte
  pulseOn : Byte
  ma : Byte
  lv : Byte
  pp : Byte
  hp : Byte
  c : Byte
  servoSpeed : Byte
  pl : Byte
  al : Byte
  oc : Byte
  ld : Byte
  servoSensitivity : Byte
  sv : Byte
  pulseOff : Byte
  dn : Byte
  upperIndex : BitVec 16
  deriving DecidableEq

/-- `EleContactorsOut`: the relays, those of the first word and then those of the second. -/
inductive EleContactorOut where
  | v1 | v2 | c (x : Fin 10) | mach | pwon
  | hon | mon | unused5 | pk | rvnm | pk0 | unusedA | ip0 | ip7 | now | unusedE | ip15 | sof
  deriving DecidableEq

namespace EleContactorOut

/-- The number of the output, from 1. -/
def out : EleContactorOut → ℕ
  | .v1 => 2
  | .v2 => 3
  | .c x => 21 + x
  | .mach => 31
  | .pwon => 32
  | .hon => 34
  | .mon => 35
  | .unused5 => 36
  | .pk => 37
  | .rvnm => 39
  | .pk0 => 40
  | .unusedA => 41
  | .ip0 => 42
  | .ip7 => 43
  | .now => 44
  | .unusedE => 45
  | .ip15 => 46
  | .sof => 47

/-- The bit of an output of the first word. -/
def io1 (k : EleContactorOut) : BitVec 32 := 1 <<< (k.out - 1)

/-- The bit of an output of the second word. -/
def io2 (k : EleContactorOut) : BitVec 32 := 1 <<< (k.out - 33)

end EleContactorOut

/-- The two frames of eight bytes. -/
abbrev CanBuffer := Fin 2 × Fin 8 → Byte

structure EleparamDecodeResult where
  canBuffer : CanBuffer
  io1 : BitVec 32
  io2 : BitVec 32
  deriving DecidableEq

structure EleparamDecodeInput where
  eleParam : EleParamDkd
  highpowerFlag : Bool
  machpowerFlag : Bool
  counter : BitVec 16

namespace EleparamDecodeResult

def new : EleparamDecodeResult := ⟨fun _ => 0, 0, 0⟩

def contactorsIo1 : List EleContactorOut :=
  [.v1, .v2, .c 0, .c 1, .c 2, .c 3, .c 4, .c 5, .c 6, .c 7, .c 8, .c 9, .mach]

def contactorsIo2 : List EleContactorOut :=
  [.hon, .mon, .unused5, .pk, .rvnm, .pk0, .unusedA, .ip0, .ip7, .now, .unusedE, .ip15]

/-- `_CalcCanIO1Mask`. -/
def io1Mask : BitVec 32 :=
  contactorsIo1.foldl
    (fun mask k => if k.out = 0 ∨ k.out > 32 then mask else mask ||| k.io1) 0

/-- `_CalcCanIO2Mask`. -/
def io2Mask : BitVec 32 :=
  contactorsIo2.foldl
    (fun mask k => if k.out ≤ 32 ∨ k.out > 64 then mask else mask ||| k.io2) 0

/-- The bytes the checksum is taken over: all but the last. -/
def checkedBytes : List (Fin 2 × Fin 8) :=
  (List.finRange 2).flatMap fun i => ((List.finRange 8).take (8 - i.val)).map fun j => (i, j)

/-- The sum, in `uint16_t`. -/
def endCheck (b : CanBuffer) : BitVec 16 :=
  checkedBytes.foldl (fun sum p => sum + (b p).setWidth 16) 0

/-- The loop of `_canframe_calc_crc` and of `set_pulse_count`. -/
def setEndCheck (b : CanBuffer) : CanBuffer :=
  Function.update b (1, 7) ((endCheck b).setWidth 8)

/-- The heartbeat, low byte first. -/
def setPulse (b : CanBuffer) (count : BitVec 16) : CanBuffer :=
  Function.update (Function.update b (0, 3) (count.setWidth 8)) (0, 4) ((count >>> 8).setWidth 8)

def setPulseCount (r : EleparamDecodeResult) (count : BitVec 16) : EleparamDecodeResult :=
  { r with canBuffer := setEndCheck (setPulse r.canBuffer count) }

end EleparamDecodeResult

namespace EleparamDecoder

open EleparamDecodeResult

section CanFrame

variable (input : EleparamDecodeInput) (b : CanBuffer)

/-- `OR_EQUAL`. -/
def orEqual (p : Fin 2 × Fin 8) (v : Byte) : CanBuffer := Function.update b p (b p ||| v)

/-- `AND_EQUAL`. -/
def andEqual (p : Fin 2 × Fin 8) (v : Byte) : CanBuffer := Function.update b p (b p &&& v)

def canframeFillFixedbytes : CanBuffer :=
  let b := Function.update b (0, 0) 0xEB
  let b := Function.update b (0, 1) 0x90
  let b := Function.update b (0, 2) 0xE9
  Function.update b (0, 5) 0x09

def canframeHandleOn : CanBuffer :=
  let paramOn := input.eleParam.pulseOn
  let pulseOn := paramOn
  let pulseOn := if (pulseOn > 63 ∧ pulseOn < 100) ∨ pulseOn > 107 then 0 else pulseOn
  let pulseOn :=
    if paramOn ≤ 7 then pulseOn &&& 0x3F
    else if paramOn < 64 then pulseOn ||| 0xC0
    else if paramOn ≥ 100 ∧ paramOn ≤ 107 then ((pulseOn - 100) &&& 0xBF) ||| 0x80
    else pulseOn
  let pulseOn :=
    if input.eleParam.ip = 0 ∧ paramOn ≥ 8 then pulseOn ^^^ (1 <<< 7) else pulseOn
  let b := Function.update b (0, 6) pulseOn
  if paramOn > 15 ∧ paramOn < 64 then orEqual b (1, 6) 0x02 else andEqual b (1, 6) 0xFD

def canframeHandleOff : CanBuffer := Function.update b (0, 7) input.eleParam.pulseOff

/-- A shift by nine leaves nothing of `dn` in the byte. -/
def canframeHandleUpAndOn : CanBuffer :=
  let b := Function.update b (1, 0) 0x00
  orEqual b (1, 0) (input.eleParam.dn <<< 9)

def canframeHandleIp : CanBuffer :=
  let ip := input.eleParam.ip
  let ipDecimalPart := ip % 10
  let b := Function.update b (1, 1) ((ip / 10).setWidth 8)
  let b := if ipDecimalPart = 5 then orEqual b (1, 1) 0x80 else andEqual b (1, 1) 0x7F
  let b := andEqual b (1, 2) 0xF0
  if ipDecimalPart = 5 then orEqual b (1, 2) 0x02 else andEqual b (1, 2) 0xFD

def canframeHandleHp : CanBuffer :=
  let hp := input.eleParam.hp
  let hpUnits := hp % 10
  let hpTens := (hp / 10) % 10
  let b := andEqual b (1, 2) 0x0F
  let b := orEqual b (1, 2) (hpUnits <<< 4)
  let b := orEqual b (1, 2) 0x80
  if hpTens = 2 ∨ hpTens = 3 ∨ hpTens = 6 ∨ hpTens = 7 then orEqual b (1, 6) 0x01
  else andEqual b (1, 6) 0xFE

def canframeHandleMa : CanBuffer :=
  orEqual (andEqual b (1, 3) 0xF0) (1, 3) (input.eleParam.ma &&& 0x0F)

def canframeHandleSv : CanBuffer := orEqual (andEqual b (1, 3) 0x0F) (1, 3) 0x50

def canframeHandleAl : CanBuffer := Function.update b (1, 4) input.eleParam.al

def canframeHandleLd : CanBuffer :=
  orEqual (andEqual b (1, 5) 0xF0) (1, 5) (input.eleParam.ld &&& 0x0F)

def canframeHandleOc : CanBuffer :=
  orEqual (andEqual b (1, 5) 0x0F) (1, 5) (input.eleParam.oc <<< 4)

def canframeHandlePp : CanBuffer :=
  let pp := if input.highpowerFlag then input.eleParam.pp else 0
  if pp &&& 0x01 ≠ 0 then orEqual b (1, 6) 0x10 else andEqual b (1, 6) 0xEF

/-- The high voltage: on only with both flags. -/
def canframeHandleMachbit : CanBuffer :=
  if input.highpowerFlag && input.machpowerFlag then orEqual b (1, 6) 0x20 else andEqual b (1, 6) 0xDF

def canframeHandlePulsecounter : CanBuffer := setPulse b input.counter

def canframeCalcCrc : CanBuffer := setEndCheck b

/-- `_fill_can_buffer` up to the heartbeat. The handlers of `lv` and `pl` do nothing. -/
def fillParams : CanBuffer :=
  let b := canframeFillFixedbytes b
  let b := canframeHandleOn input b
  let b := canframeHandleOff input b
  let b := canframeHandleUpAndOn input b
  let b := canframeHandleIp input b
  let b := canframeHandleHp input b
  let b := canframeHandleMa input b
  let b := canframeHandleSv b
  let b := canframeHandleAl input b
  let b := canframeHandleLd input b
  let b := canframeHandleOc input b
  let b := canframeHandlePp input b
  canframeHandleMachbit input b

def fillCanBuffer : CanBuffer :=
  canframeCalcCrc (canframeHandlePulsecounter input (fillParams input b))

end CanFrame

section IoSettings

variable (input : EleparamDecodeInput) (r : EleparamDecodeResult) (enable : Bool)

/-- A bit of a word, set or cleared. -/
def setBit (io bit : BitVec 32) (on : Bool) : BitVec 32 := if on then io ||| bit else io &&& ~~~bit

def setIo1 (k : EleContactorOut) (on : Bool) : EleparamDecodeResult :=
  { r with io1 := setBit r.io1 k.io1 on }

def setIo2 (k : EleContactorOut) (on : Bool) : EleparamDecodeResult :=
  { r with io2 := setBit r.io2 k.io2 on }

/-- `NOW`, `PK` and `IP0` are wired the other way round. -/
def setContactorIoNOW : EleparamDecodeResult := setIo2 r .now !enable

def setContactorIoPK : EleparamDecodeResult := setIo2 r .pk !enable

def setContactorIoMON : EleparamDecodeResult := setIo2 r .mon enable

def setContactorIoHON : EleparamDecodeResult := setIo2 r .hon enable

def setContactorIoIP0 : EleparamDecodeResult := setIo2 r .ip0 !enable

def setContactorIoIP7 : EleparamDecodeResult := setIo2 r .ip7 enable

def setContactorIoIP15 : EleparamDecodeResult := setIo2 r .ip15 enable

def setContactorIoLV1 : EleparamDecodeResult := setIo1 r .v1 enable

def setContactorIoLV2 : EleparamDecodeResult := setIo1 r .v2 enable

def setContactorIoRVNM : EleparamDecodeResult := setIo2 r .rvnm enable

def setContactorIoMACH : EleparamDecodeResult := setIo1 r .mach enable

/-- A number above 9 is taken as 9. -/
def setContactorIoCx (x : ℕ) : EleparamDecodeResult :=
  setIo1 r (.c ⟨min x 9, by omega⟩) enable

def iosettingsHandleNOW : EleparamDecodeResult :=
  let upperIndex := input.eleParam.upperIndex
  if upperIndex = 901 ∨ upperIndex = 902 then setContactorIoNOW r false
  else if input.eleParam.ip > 70 then setContactorIoNOW r true
  else
    let hpTens := (input.eleParam.hp / 10) % 10
    if hpTens < 4 then setContactorIoNOW r true else setContactorIoNOW r false

def iosettingsHandleMONHON : EleparamDecodeResult :=
  let ppTens := (input.eleParam.pp / 10) % 10
  let hpTens := (input.eleParam.hp / 10) % 10
  if ppTens ≠ 1 then setContactorIoHON (setContactorIoMON r false) false
  else if hpTens % 2 = 0 then setContactorIoHON (setContactorIoMON r true) false
  else setContactorIoHON (setContactorIoMON r false) true

def iosettingsHandleIPx : EleparamDecodeResult :=
  let ip := input.eleParam.ip
  let set (ip0 ip7 ip15 : Bool) : EleparamDecodeResult :=
    setContactorIoIP15 (setContactorIoIP7 (setContactorIoIP0 r ip0) ip7) ip15
  if ip = 0 then set false false false
  else if ip ≤ 70 then set true false false
  else if ip ≤ 150 then set true true false
  else set true true true

def iosettingsHandleLVx : EleparamDecodeResult :=
  let lv := input.eleParam.lv
  if lv = 1 then setContactorIoLV2 (setContactorIoLV1 r true) false
  else if lv = 2 then setContactorIoLV2 (setContactorIoLV1 r false) true
  else setContactorIoLV2 (setContactorIoLV1 r false) false

def iosettingsHandlePL : EleparamDecodeResult := setContactorIoRVNM r (input.eleParam.pl ≠ 0)

def iosettingsHandleMACH : EleparamDecodeResult := setContactorIoMACH r input.highpowerFlag

def iosettingsHandlePK : EleparamDecodeResult :=
  let upperIndex := input.eleParam.upperIndex
  if upperIndex = 901 ∨ upperIndex = 902 then setContactorIoPK r false else setContactorIoPK r true

/-- All off, then the one asked for on. -/
def iosettingsHandleCAPx : EleparamDecodeResult :=
  let r := (List.range 10).foldl (fun r i => setContactorIoCx r false i) r
  setContactorIoCx r true input.eleParam.c.toNat

def fillIoSettings : EleparamDecodeResult :=
  let r := iosettingsHandleNOW input r
  let r := iosettingsHandleMONHON input r
  let r := iosettingsHandleIPx input r
  let r := iosettingsHandleLVx input r
  let r := iosettingsHandlePL input r
  let r := iosettingsHandleMACH input r
  let r := iosettingsHandlePK input r
  iosettingsHandleCAPx input r

end IoSettings

def decode (input : EleparamDecodeInput) : EleparamDecodeResult :=
  fillIoSettings input { new with canBuffer := fillCanBuffer input new.canBuffer }

/-! ### The frames -/

section Frames

variable {b : CanBuffer} {count : BitVec 16} {p : Fin 2 × Fin 8}

theorem checkedBytes_ne_last (h : p ∈ checkedBytes) : p ≠ (1, 7) := by
  revert h
  decide +revert

/-- The sum does not depend on the byte it goes to. -/
theorem endCheck_update (v : Byte) : endCheck (Function.update b (1, 7) v) = endCheck b := by
  unfold endCheck
  apply List.foldl_ext
  intro sum p hp
  rw [Function.update_of_ne (checkedBytes_ne_last hp)]

theorem setEndCheck_update (v : Byte) : setEndCheck (Function.update b (1, 7) v) = setEndCheck b := by
  unfold setEndCheck
  rw [endCheck_update, Function.update_idem]

/-- The checksum of a frame that has one. -/
def Checked (b : CanBuffer) : Prop := b (1, 7) = (endCheck b).setWidth 8

theorem setEndCheck_checked (b : CanBuffer) : Checked (setEndCheck b) := by
  unfold Checked setEndCheck
  rw [endCheck_update, Function.update_self]

theorem setEndCheck_of_ne (h : p ≠ (1, 7)) : setEndCheck b p = b p :=
  Function.update_of_ne h _ _

theorem setPulse_of_ne (h3 : p ≠ (0, 3)) (h4 : p ≠ (0, 4)) : setPulse b count p = b p := by
  unfold setPulse
  rw [Function.update_of_ne h4, Function.update_of_ne h3]

/-- The later heartbeat replaces the earlier one. -/
theorem setPulse_setPulse (count' : BitVec 16) :
    setPulse (setPulse b count) count' = setPulse b count' := by
  funext p
  by_cases h4 : p = (0, 4)
  · subst h4
    simp [setPulse]
  · by_cases h3 : p = (0, 3)
    · subst h3
      simp [setPulse]
    · rw [setPulse_of_ne h3 h4, setPulse_of_ne h3 h4, setPulse_of_ne h3 h4]

theorem setPulse_update_last (v : Byte) :
    setPulse (Function.update b (1, 7) v) count = Function.update (setPulse b count) (1, 7) v := by
  have hlow : Function.update (Function.update b (1, 7) v) (0, 3) (count.setWidth 8) =
      Function.update (Function.update b (0, 3) (count.setWidth 8)) (1, 7) v :=
    Function.update_comm (by decide) _ _ _
  unfold setPulse
  rw [hlow]
  exact Function.update_comm (by decide) _ _ _

/-- The heartbeat the frames carry. -/
def pulseOf (b : CanBuffer) : BitVec 16 := b (0, 4) ++ b (0, 3)

theorem pulseOf_setEndCheck : pulseOf (setEndCheck b) = pulseOf b := by
  unfold pulseOf
  rw [setEndCheck_of_ne (by decide), setEndCheck_of_ne (by decide)]

theorem pulseOf_setPulse : pulseOf (setPulse b count) = count := by
  apply BitVec.eq_of_getLsbD_eq
  intro i hi
  simp only [pulseOf, setPulse, Function.update_self, BitVec.getLsbD_append]
  rw [Function.update_of_ne (by decide), Function.update_self]
  by_cases hlow : i < 8
  · simp [hlow]
  · have hadd : 8 + (i - 8) = i := by omega
    simp [hlow, BitVec.getLsbD_setWidth, BitVec.getLsbD_ushiftRight, hadd]
    intro hbit
    omega

/-- The high voltage is enabled. -/
def machbitOf (b : CanBuffer) : Bool := (b (1, 6)).getLsbD 5

theorem machbitOf_setEndCheck : machbitOf (setEndCheck b) = machbitOf b := by
  unfold machbitOf
  rw [setEndCheck_of_ne (by decide)]

theorem machbitOf_setPulse : machbitOf (setPulse b count) = machbitOf b := by
  unfold machbitOf
  rw [setPulse_of_ne (by decide) (by decide)]

theorem machbitOf_canframeHandleMachbit (input : EleparamDecodeInput) :
    machbitOf (canframeHandleMachbit input b) = (input.highpowerFlag && input.machpowerFlag) := by
  unfold canframeHandleMachbit
  cases input.highpowerFlag && input.machpowerFlag with
  | true => simp [machbitOf, orEqual]
  | false => simp [machbitOf, andEqual]

end Frames

/-! ### The relays -/

section Relays

variable (input : EleparamDecodeInput) (r : EleparamDecodeResult) (b : CanBuffer)

/-- The frames are left alone. -/
theorem fillIoSettings_with :
    fillIoSettings input { r with canBuffer := b } = { fillIoSettings input r with canBuffer := b } := by
  have hNOW (r : EleparamDecodeResult) : iosettingsHandleNOW input { r with canBuffer := b } =
      { iosettingsHandleNOW input r with canBuffer := b } := by
    simp only [iosettingsHandleNOW]
    repeat' split
    all_goals rfl
  have hMONHON (r : EleparamDecodeResult) : iosettingsHandleMONHON input { r with canBuffer := b } =
      { iosettingsHandleMONHON input r with canBuffer := b } := by
    simp only [iosettingsHandleMONHON]
    repeat' split
    all_goals rfl
  have hIPx (r : EleparamDecodeResult) : iosettingsHandleIPx input { r with canBuffer := b } =
      { iosettingsHandleIPx input r with canBuffer := b } := by
    simp only [iosettingsHandleIPx]
    repeat' split
    all_goals rfl
  have hLVx (r : EleparamDecodeResult) : iosettingsHandleLVx input { r with canBuffer := b } =
      { iosettingsHandleLVx input r with canBuffer := b } := by
    simp only [iosettingsHandleLVx]
    repeat' split
    all_goals rfl
  have hPK (r : EleparamDecodeResult) : iosettingsHandlePK input { r with canBuffer := b } =
      { iosettingsHandlePK input r with canBuffer := b } := by
    simp only [iosettingsHandlePK]
    split <;> rfl
  have hPL (r : EleparamDecodeResult) : iosettingsHandlePL input { r with canBuffer := b } =
      { iosettingsHandlePL input r with canBuffer := b } := rfl
  have hMACH (r : EleparamDecodeResult) : iosettingsHandleMACH input { r with canBuffer := b } =
      { iosettingsHandleMACH input r with canBuffer := b } := rfl
  have hCAPx (r : EleparamDecodeResult) : iosettingsHandleCAPx input { r with canBuffer := b } =
      { iosettingsHandleCAPx input r with canBuffer := b } := rfl
  simp only [fillIoSettings, hNOW, hMONHON, hIPx, hLVx, hPL, hMACH, hPK, hCAPx]

theorem decode_eq : decode input =
    { fillIoSettings input new with canBuffer := fillCanBuffer input new.canBuffer } :=
  fillIoSettings_with input new _

/-- Every relay that is set is one of the decoder's. -/
structure Within (r : EleparamDecodeResult) : Prop where
  io1 : ∀ i, r.io1.getLsbD i = true → io1Mask.getLsbD i = true
  io2 : ∀ i, r.io2.getLsbD i = true → io2Mask.getLsbD i = true

theorem setBit_within {io bit mask : BitVec 32} (on : Bool)
    (h : ∀ i, io.getLsbD i = true → mask.getLsbD i = true)
    (hbit : bit &&& mask = bit) {i : ℕ} (hi : (setBit io bit on).getLsbD i = true) :
    mask.getLsbD i = true := by
  cases on with
  | true =>
    simp only [setBit, if_true, BitVec.getLsbD_or, Bool.or_eq_true] at hi
    rcases hi with hi | hi
    · exact h i hi
    · rw [← hbit, BitVec.getLsbD_and] at hi
      exact (Bool.and_eq_true _ _ ▸ hi : _ ∧ _).2
  | false =>
    simp only [setBit, Bool.false_eq_true, if_false, BitVec.getLsbD_and, Bool.and_eq_true] at hi
    exact h i hi.1

theorem Within.setIo1 {r : EleparamDecodeResult} (h : Within r) {k : EleContactorOut} (on : Bool)
    (hk : k.io1 &&& io1Mask = k.io1) : Within (setIo1 r k on) :=
  ⟨fun _ => setBit_within on h.io1 hk, h.io2⟩

theorem Within.setIo2 {r : EleparamDecodeResult} (h : Within r) {k : EleContactorOut} (on : Bool)
    (hk : k.io2 &&& io2Mask = k.io2) : Within (setIo2 r k on) :=
  ⟨h.io1, fun _ => setBit_within on h.io2 hk⟩

theorem Within.setContactorIoCx {r : EleparamDecodeResult} (h : Within r) (on : Bool) (x : ℕ) :
    Within (setContactorIoCx r on x) := by
  have hc : ∀ x : Fin 10, (EleContactorOut.c x).io1 &&& io1Mask = (EleContactorOut.c x).io1 := by decide
  exact h.setIo1 on (hc _)

variable {input r}

theorem Within.handleNOW (h : Within r) : Within (iosettingsHandleNOW input r) := by
  simp only [iosettingsHandleNOW]
  repeat' split
  all_goals exact h.setIo2 _ (by decide)

theorem Within.handleMONHON (h : Within r) : Within (iosettingsHandleMONHON input r) := by
  simp only [iosettingsHandleMONHON]
  repeat' split
  all_goals exact (h.setIo2 _ (by decide)).setIo2 _ (by decide)

theorem Within.handleIPx (h : Within r) : Within (iosettingsHandleIPx input r) := by
  simp only [iosettingsHandleIPx]
  repeat' split
  all_goals exact ((h.setIo2 _ (by decide)).setIo2 _ (by decide)).setIo2 _ (by decide)

theorem Within.handleLVx (h : Within r) : Within (iosettingsHandleLVx input r) := by
  simp only [iosettingsHandleLVx]
  repeat' split
  all_goals exact (h.setIo1 _ (by decide)).setIo1 _ (by decide)

theorem Within.handlePL (h : Within r) : Within (iosettingsHandlePL input r) :=
  h.setIo2 _ (by decide)

theorem Within.handleMACH (h : Within r) : Within (iosettingsHandleMACH input r) :=
  h.setIo1 _ (by decide)

theorem Within.handlePK (h : Within r) : Within (iosettingsHandlePK input r) := by
  simp only [iosettingsHandlePK]
  split
  all_goals exact h.setIo2 _ (by decide)

theorem Within.handleCAPx (h : Within r) : Within (iosettingsHandleCAPx input r) := by
  unfold iosettingsHandleCAPx
  refine Within.setContactorIoCx ?_ true _
  induction List.range 10 generalizing r with
  | nil => exact h
  | cons i is ih => exact ih (h.setContactorIoCx false i)

theorem Within.fillIoSettings (h : Within r) : Within (fillIoSettings input r) :=
  h.handleNOW.handleMONHON.handleIPx.handleLVx.handlePL.handleMACH.handlePK.handleCAPx

theorem decode_within : Within (decode input) :=
  Within.fillIoSettings ⟨by simp [new], by simp [new]⟩

end Relays

/-! ### Results -/

section Results

variable (input : EleparamDecodeInput) (count : BitVec 16)

theorem decode_canBuffer : (decode input).canBuffer = fillCanBuffer input new.canBuffer := by
  rw [decode_eq]

/-- The heartbeat of a result can be exchanged for another one. -/
theorem setPulseCount_decode :
    setPulseCount (decode input) count = decode { input with counter := count } := by
  rw [decode_eq, decode_eq]
  simp only [setPulseCount]
  have hframes : setEndCheck (setPulse (fillCanBuffer input new.canBuffer) count) =
      fillCanBuffer { input with counter := count } new.canBuffer := by
    show setEndCheck (setPulse (Function.update _ _ _) count) = _
    rw [setPulse_update_last, setEndCheck_update]
    simp only [canframeHandlePulsecounter, setPulse_setPulse]
    rfl
  rw [hframes]
  rfl

theorem decode_checked : Checked (decode input).canBuffer := by
  rw [decode_canBuffer]
  exact setEndCheck_checked _

theorem pulseOf_decode : pulseOf (decode input).canBuffer = input.counter := by
  rw [decode_canBuffer]
  exact pulseOf_setEndCheck.trans pulseOf_setPulse

theorem machbitOf_decode :
    machbitOf (decode input).canBuffer = (input.highpowerFlag && input.machpowerFlag) := by
  rw [decode_canBuffer]
  exact machbitOf_setEndCheck.trans
    (machbitOf_setPulse.trans (machbitOf_canframeHandleMachbit input))

/-- The relays do not depend on the heartbeat. -/
theorem decode_io_counter :
    (decode { input with counter := count }).io1 = (decode input).io1 ∧
      (decode { input with counter := count }).io2 = (decode input).io2 := by
  rw [decode_eq, decode_eq]
  exact ⟨rfl, rfl⟩

end Results

end EleparamDecoder

end Edm
