import Edm.QtDependComponents.EleparamDecoder
import Mathlib.Data.List.Chain

/-!
# The power controller

`PowerController` keeps a parameter record, two flags and the heartbeat of the power supply. A new record
or flag decodes anew; the heartbeat alone is exchanged in the last result. What is sent is always that
result, and the heartbeat goes on by one with every pair of frames (`Consistent`). The relays of the power
itself are not the decoder's: `set_power_on` writes them, and so may others.
-/

set_option linter.unusedSectionVars false

namespace Edm

open IOController (IoWord)

/-- `upper_servo_settings_t`. -/
structure UpperServoSettings where
  servoSpeed : BitVec 32
  servoSensitivity : BitVec 16
  servoRefVoltage : BitVec 16
  servoVoltageDiffLevel : BitVec 16
  servoRefVoltageLow : BitVec 16
  deriving DecidableEq

/-- `CanIOBoardEleParamsStrc`. -/
structure IoBoardEleParams where
  on : Byte
  off : Byte
  ip : Byte
  pp : Byte
  isFinishingCut : Bool
  deriving DecidableEq

/-- What goes out: the two power frames one after the other, a frame of an IO word, the parameters of the
IO board, and the servo settings in a package for the servo board. -/
inductive PowerMessage where
  | power (frames : CanBuffer)
  | io (frame : IOController.Frame)
  | ioBoardEleParams (params : IoBoardEleParams)
  | servoSettings (settings : UpperServoSettings)

/-- The controller, the IO words it shares with others, and what was sent. `prevServoS` and `lastSendTime`
are static in `_handle_servo_settings`. -/
structure PowerController where
  highpowerOnFlag : Bool := false
  machpowerFlag : Bool := true
  finishingCutFlag : Bool := false
  canframePulseValue : BitVec 16 := 0x9C00
  eleparamInited : Bool := false
  currEleparam : EleParamDkd := ⟨0, 0, 0, 0, 0, 0, 0, 0, 0, 0, 0, 0, 0, 0, 0, 0, 0, 0, 0⟩
  currResult : Option EleparamDecodeResult := none
  prevServoS : UpperServoSettings := ⟨0, 0, 0, 0, 0⟩
  lastSendTime : ℤ := 0
  words : IoWord → BitVec 32 := fun _ => 0
  sent : List PowerMessage := []

namespace PowerController

variable (s : PowerController)

def send (m : PowerMessage) : PowerController := { s with sent := s.sent ++ [m] }

/-- `set_can_machineio_1_withmask` and its like: a frame is sent where the word has changed. -/
def setIoWithmask (c : IOController.Call) : PowerController :=
  let words := c.apply s.words
  let s' := { s with words := words }
  if words c.word = s.words c.word then s'
  else s'.send (.io (IOController.triggerSend c.word (words c.word)))

/-- `trigger_send_current_io`, of the DIMEN supply with the additional IO board. -/
def triggerSendCurrentIo : PowerController :=
  let s := s.send (.io (IOController.triggerSend .machineio1 (s.words .machineio1)))
  let s := s.send (.io (IOController.triggerSend .machineio2 (s.words .machineio2)))
  s.send (.io (IOController.triggerSend .machineioOutput (s.words .machineioOutput)))

def triggerSendCanbuffer (r : EleparamDecodeResult) : PowerController := s.send (.power r.canBuffer)

/-- `_trigger_send_io_value`. -/
def triggerSendIoValue : PowerController :=
  match s.currResult with
  | none => s
  | some r =>
    let s := s.setIoWithmask ⟨.machineio1, r.io1, EleparamDecodeResult.io1Mask⟩
    let s := s.setIoWithmask ⟨.machineio2, r.io2, EleparamDecodeResult.io2Mask⟩
    s.triggerSendCurrentIo

/-- `_handle_servo_settings`; `now` is the clock in seconds. -/
def handleServoSettings (now : ℤ) : PowerController :=
  if !s.eleparamInited then s
  else
    let e := s.currEleparam
    let servoS : UpperServoSettings :=
      ⟨e.servoSpeed.setWidth 32, e.servoSensitivity.setWidth 16, e.sv.setWidth 16,
        e.upperThreshold.setWidth 16, e.lowerThreshold.setWidth 16⟩
    let forced : Bool := now - s.lastSendTime > 3
    let s := if forced then { s with lastSendTime := now } else s
    if forced || servoS ≠ s.prevServoS then
      { s.send (.servoSettings servoS) with prevServoS := servoS }
    else s

/-- The successor of a heartbeat. -/
def nextPulse (pulse : BitVec 16) : BitVec 16 := if pulse + 1 > 0xC3FF then 0x9C00 else pulse + 1

def addCanframePulseValue : PowerController :=
  { s with canframePulseValue := nextPulse s.canframePulseValue }

/-- `_update_eleparam_and_send`. -/
def updateAndSend (now : ℤ) : PowerController :=
  let s := s.addCanframePulseValue
  let r := EleparamDecoder.decode
    ⟨s.currEleparam, s.highpowerOnFlag, s.machpowerFlag, s.canframePulseValue⟩
  let s := { s with currResult := some r }
  let s := s.triggerSendCanbuffer r
  let s := s.triggerSendIoValue
  s.handleServoSettings now

def updateEleparamAndSend (e : EleParamDkd) (now : ℤ) : PowerController :=
  { s with currEleparam := e, eleparamInited := true }.updateAndSend now

/-- The overload without a record. -/
def updateCurrentAndSend (now : ℤ) : PowerController :=
  if !s.eleparamInited then s else s.updateAndSend now

def setHighpowerOn (on : Bool) (now : ℤ) : PowerController :=
  { s with highpowerOnFlag := on }.updateCurrentAndSend now

def setMachbitOn (on : Bool) (now : ℤ) : PowerController :=
  { s with machpowerFlag := on }.updateCurrentAndSend now

def setPowerOn (on : Bool) : PowerController :=
  let pwon := EleContactorOut.pwon.io1
  let sof := EleContactorOut.sof.io2
  let s := s.setIoWithmask ⟨.machineio1, if on then pwon else 0, pwon⟩
  s.setIoWithmask ⟨.machineio2, if on then sof else 0, sof⟩

def setFinishingCutFlag (on : Bool) : PowerController := { s with finishingCutFlag := on }

def triggerSendEleparam (now : ℤ) : PowerController :=
  match s.currResult with
  | none => s
  | some r =>
    let s := s.addCanframePulseValue
    let r := r.setPulseCount s.canframePulseValue
    let s := { s with currResult := some r }
    let s := s.triggerSendCanbuffer r
    s.handleServoSettings now

def triggerSendContactorsIo : PowerController := s.triggerSendIoValue

def triggerSendIoboardEleparam : PowerController :=
  if !s.eleparamInited then s
  else
    let e := s.currEleparam
    s.send (.ioBoardEleParams
      ⟨e.pulseOn, e.pulseOff, e.ip.setWidth 8, e.pp, e.upperIndex = 901 ∨ e.upperIndex = 902⟩)

/-- A call, or another writer of the IO words. -/
inductive Call where
  | setHighpowerOn (on : Bool) (now : ℤ)
  | setMachbitOn (on : Bool) (now : ℤ)
  | setPowerOn (on : Bool)
  | setFinishingCutFlag (on : Bool)
  | updateEleparamAndSend (e : EleParamDkd) (now : ℤ)
  | updateCurrentAndSend (now : ℤ)
  | triggerSendEleparam (now : ℤ)
  | triggerSendContactorsIo
  | triggerSendIoboardEleparam
  | otherWrite (c : IOController.Call)

def step : Call → PowerController
  | .setHighpowerOn on now => s.setHighpowerOn on now
  | .setMachbitOn on now => s.setMachbitOn on now
  | .setPowerOn on => s.setPowerOn on
  | .setFinishingCutFlag on => s.setFinishingCutFlag on
  | .updateEleparamAndSend e now => s.updateEleparamAndSend e now
  | .updateCurrentAndSend now => s.updateCurrentAndSend now
  | .triggerSendEleparam now => s.triggerSendEleparam now
  | .triggerSendContactorsIo => s.triggerSendContactorsIo
  | .triggerSendIoboardEleparam => s.triggerSendIoboardEleparam
  | .otherWrite c => s.setIoWithmask c

def new : PowerController := {}

/-- The bits of a word that are the decoder's. -/
def decoderMask : IoWord → BitVec 32
  | .machineio1 => EleparamDecodeResult.io1Mask
  | .machineio2 => EleparamDecodeResult.io2Mask
  | .machineioOutput => 0

/-- Other writers leave the bits of the decoder alone. -/
def Call.Allowed : Call → Prop
  | .otherWrite c => c.mask &&& decoderMask c.word = 0
  | _ => True

instance : (c : Call) → Decidable c.Allowed
  | .otherWrite c => inferInstanceAs (Decidable (c.mask &&& decoderMask c.word = 0))
  | .setHighpowerOn _ _ | .setMachbitOn _ _ | .setPowerOn _ | .setFinishingCutFlag _
  | .updateEleparamAndSend _ _ | .updateCurrentAndSend _ | .triggerSendEleparam _
  | .triggerSendContactorsIo | .triggerSendIoboardEleparam => isTrue trivial

/-! ### What the parts leave alone -/

/-- What the controller decodes. -/
def input : EleparamDecodeInput :=
  ⟨s.currEleparam, s.highpowerOnFlag, s.machpowerFlag, s.canframePulseValue⟩

/-- The power frames sent. -/
def frames : List CanBuffer :=
  s.sent.filterMap fun m => match m with
    | .power frames => some frames
    | _ => none

/-- Only the words, the servo settings and messages other than power frames may have changed. -/
structure Keeps (s s' : PowerController) : Prop where
  highpower : s'.highpowerOnFlag = s.highpowerOnFlag
  machpower : s'.machpowerFlag = s.machpowerFlag
  pulse : s'.canframePulseValue = s.canframePulseValue
  inited : s'.eleparamInited = s.eleparamInited
  eleparam : s'.currEleparam = s.currEleparam
  result : s'.currResult = s.currResult
  frames : s'.frames = s.frames

theorem Keeps.refl : Keeps s s := ⟨rfl, rfl, rfl, rfl, rfl, rfl, rfl⟩

variable {s}

theorem Keeps.trans {s' s'' : PowerController} (h : Keeps s s') (h' : Keeps s' s'') : Keeps s s'' :=
  ⟨h'.1.trans h.1, h'.2.trans h.2, h'.3.trans h.3, h'.4.trans h.4, h'.5.trans h.5, h'.6.trans h.6,
    h'.7.trans h.7⟩

theorem Keeps.input {s' : PowerController} (h : Keeps s s') : s'.input = s.input := by
  simp only [PowerController.input, h.highpower, h.machpower, h.pulse, h.eleparam]

variable (s)

theorem send_power (r : EleparamDecodeResult) :
    (s.triggerSendCanbuffer r).frames = s.frames ++ [r.canBuffer] := by
  simp [frames, triggerSendCanbuffer, send]

theorem send_keeps {m : PowerMessage} (hm : ∀ b, m ≠ .power b) : Keeps s (s.send m) := by
  refine ⟨rfl, rfl, rfl, rfl, rfl, rfl, ?_⟩
  cases m with
  | power b => exact absurd rfl (hm b)
  | _ => simp [frames, send]

theorem setIoWithmask_keeps (c : IOController.Call) : Keeps s (s.setIoWithmask c) := by
  simp only [setIoWithmask]
  have hwords : Keeps s { s with words := c.apply s.words } := ⟨rfl, rfl, rfl, rfl, rfl, rfl, rfl⟩
  split
  · exact hwords
  · exact hwords.trans (send_keeps _ (by simp))

@[simp] theorem setIoWithmask_words (c : IOController.Call) :
    (s.setIoWithmask c).words = c.apply s.words := by
  simp only [setIoWithmask]
  split <;> rfl

theorem triggerSendCurrentIo_keeps : Keeps s s.triggerSendCurrentIo :=
  ((s.send_keeps (by simp)).trans (send_keeps _ (by simp))).trans (send_keeps _ (by simp))

@[simp] theorem triggerSendCurrentIo_words : s.triggerSendCurrentIo.words = s.words := rfl

theorem handleServoSettings_keeps (now : ℤ) : Keeps s (s.handleServoSettings now) := by
  simp only [handleServoSettings]
  have hkeeps (t : PowerController) (m : UpperServoSettings) :
      Keeps t { t.send (.servoSettings m) with prevServoS := m } :=
    (t.send_keeps (m := .servoSettings m) (by simp)).trans ⟨rfl, rfl, rfl, rfl, rfl, rfl, rfl⟩
  have htime : Keeps s { s with lastSendTime := now } := ⟨rfl, rfl, rfl, rfl, rfl, rfl, rfl⟩
  split
  · exact .refl s
  · split <;> split
    · exact htime.trans (hkeeps _ _)
    · exact htime
    · exact hkeeps _ _
    · exact .refl s

@[simp] theorem handleServoSettings_words (now : ℤ) : (s.handleServoSettings now).words = s.words := by
  simp only [handleServoSettings]
  repeat' split
  all_goals rfl

theorem triggerSendIoValue_keeps : Keeps s s.triggerSendIoValue := by
  unfold triggerSendIoValue
  split
  · exact .refl s
  · exact ((s.setIoWithmask_keeps _).trans (setIoWithmask_keeps _ _)).trans (triggerSendCurrentIo_keeps _)

theorem triggerSendIoValue_words {r : EleparamDecodeResult} (h : s.currResult = some r) :
    s.triggerSendIoValue.words =
      IOController.Call.apply
        (IOController.Call.apply s.words ⟨.machineio1, r.io1, EleparamDecodeResult.io1Mask⟩)
        ⟨.machineio2, r.io2, EleparamDecodeResult.io2Mask⟩ := by
  simp [triggerSendIoValue, h]

/-! ### What a call sends -/

/-- What the words have to carry for a result. -/
def Shown (words : IoWord → BitVec 32) (r : EleparamDecodeResult) : Prop :=
  words .machineio1 &&& EleparamDecodeResult.io1Mask = r.io1 ∧
    words .machineio2 &&& EleparamDecodeResult.io2Mask = r.io2

/-- The record is decoded as it is and with the flags and the heartbeat as they are, and the words show
it; before the first record there is nothing. -/
structure Fresh : Prop where
  before : s.eleparamInited = false → s.currResult = none
  after : s.eleparamInited = true → s.currResult = some (EleparamDecoder.decode s.input) ∧
    Shown s.words (EleparamDecoder.decode s.input)

/-- A pair of frames goes out, with the next heartbeat. -/
structure SendsPair (s s' : PowerController) : Prop where
  inited : s'.eleparamInited = true
  frames : s'.frames = s.frames ++ [(EleparamDecoder.decode s'.input).canBuffer]
  pulse : s'.canframePulseValue = nextPulse s.canframePulseValue

/-- No power frame goes out. -/
structure SendsNone (s s' : PowerController) : Prop where
  frames : s'.frames = s.frames
  pulse : s'.canframePulseValue = s.canframePulseValue

/-- The words that were just written show the result. -/
theorem shown_of_written (words : IoWord → BitVec 32) {r : EleparamDecodeResult}
    (h : EleparamDecoder.Within r) :
    Shown (IOController.Call.apply
        (IOController.Call.apply words ⟨.machineio1, r.io1, EleparamDecodeResult.io1Mask⟩)
        ⟨.machineio2, r.io2, EleparamDecodeResult.io2Mask⟩) r := by
  have hand {io mask : BitVec 32} (hw : ∀ i, io.getLsbD i = true → mask.getLsbD i = true) :
      io &&& mask = io := by
    apply BitVec.eq_of_getLsbD_eq
    intro i hi
    rw [BitVec.getLsbD_and]
    cases hb : io.getLsbD i with
    | true => simp [hw i hb]
    | false => simp
  constructor
  · simp only [IOController.Call.apply]
    rw [Function.update_of_ne (by decide), Function.update_self, IOController.withMask_and_mask]
    exact hand h.io1
  · simp only [IOController.Call.apply]
    rw [Function.update_self, IOController.withMask_and_mask]
    exact hand h.io2

/-- A write outside the masks of the decoder. -/
theorem Shown.apply {words : IoWord → BitVec 32} {r : EleparamDecodeResult} (h : Shown words r)
    {c : IOController.Call} (hc : c.mask &&& decoderMask c.word = 0) : Shown (c.apply words) r := by
  obtain ⟨word, part, mask⟩ := c
  have hother (word' : IoWord) :
      IOController.Call.apply words ⟨word, part, mask⟩ word' &&& decoderMask word' =
        words word' &&& decoderMask word' := by
    by_cases hw : word' = word
    · subst hw
      simp only [IOController.Call.apply, Function.update_self]
      exact IOController.withMask_and_of_disjoint hc
    · simp only [IOController.Call.apply]
      rw [Function.update_of_ne hw]
  exact ⟨(hother .machineio1).trans h.1, (hother .machineio2).trans h.2⟩

variable {s}

theorem updateAndSend_fresh (hinit : s.eleparamInited = true) (now : ℤ) :
    (s.updateAndSend now).Fresh ∧ SendsPair s (s.updateAndSend now) := by
  let s₁ : PowerController := { s.addCanframePulseValue with
    currResult := some (EleparamDecoder.decode s.addCanframePulseValue.input) }
  let s₂ := s₁.triggerSendCanbuffer (EleparamDecoder.decode s.addCanframePulseValue.input)
  have hkeeps : Keeps s₂ (s.updateAndSend now) :=
    s₂.triggerSendIoValue_keeps.trans (handleServoSettings_keeps _ now)
  have hinput : (s.updateAndSend now).input = s₂.input := hkeeps.input
  have hwords : (s.updateAndSend now).words = s₂.triggerSendIoValue.words :=
    handleServoSettings_words _ now
  have hinited : (s.updateAndSend now).eleparamInited = true := hkeeps.inited.trans hinit
  refine ⟨⟨fun h => ?_, fun _ => ⟨?_, ?_⟩⟩, ⟨hinited, ?_, hkeeps.pulse⟩⟩
  · rw [hinited] at h
    cases h
  · rw [hkeeps.result, hinput]
    rfl
  · rw [hwords, hinput, s₂.triggerSendIoValue_words rfl]
    exact shown_of_written _ EleparamDecoder.decode_within
  · rw [hkeeps.frames, hinput]
    exact send_power _ _

theorem updateCurrentAndSend_fresh (h : s.eleparamInited = false → s.currResult = none) (now : ℤ) :
    (s.updateCurrentAndSend now).Fresh ∧
      (SendsNone s (s.updateCurrentAndSend now) ∨ SendsPair s (s.updateCurrentAndSend now)) := by
  unfold updateCurrentAndSend
  cases hinit : s.eleparamInited with
  | false => exact ⟨⟨h, fun hinit' => by simp [hinit] at hinit'⟩, .inl ⟨rfl, rfl⟩⟩
  | true =>
    obtain ⟨hfresh, hpair⟩ := updateAndSend_fresh hinit now
    exact ⟨hfresh, .inr hpair⟩

theorem triggerSendEleparam_fresh (h : s.Fresh) (now : ℤ) :
    (s.triggerSendEleparam now).Fresh ∧
      (SendsNone s (s.triggerSendEleparam now) ∨ SendsPair s (s.triggerSendEleparam now)) := by
  cases hinit : s.eleparamInited with
  | false =>
    have hnone : s.triggerSendEleparam now = s := by
      unfold triggerSendEleparam
      rw [h.before hinit]
    rw [hnone]
    exact ⟨h, .inl ⟨rfl, rfl⟩⟩
  | true =>
    obtain ⟨hresult, hshown⟩ := h.after hinit
    let r := (EleparamDecoder.decode s.input).setPulseCount (nextPulse s.canframePulseValue)
    let s₁ : PowerController :=
      { s.addCanframePulseValue with currResult := some r }.triggerSendCanbuffer r
    have hsome : s.triggerSendEleparam now = s₁.handleServoSettings now := by
      unfold triggerSendEleparam
      rw [hresult]
      rfl
    have hr : r = EleparamDecoder.decode s₁.input :=
      EleparamDecoder.setPulseCount_decode s.input (nextPulse s.canframePulseValue)
    have hkeeps : Keeps s₁ (s.triggerSendEleparam now) := hsome ▸ s₁.handleServoSettings_keeps now
    have hwords : (s.triggerSendEleparam now).words = s.words := by
      rw [hsome, handleServoSettings_words]
      rfl
    have hinited : (s.triggerSendEleparam now).eleparamInited = true := hkeeps.inited.trans hinit
    refine ⟨⟨fun h => ?_, fun _ => ⟨?_, ?_⟩⟩, .inr ⟨hinited, ?_, hkeeps.pulse⟩⟩
    · rw [hinited] at h
      cases h
    · rw [hkeeps.result, hkeeps.input, ← hr]
      rfl
    · rw [hwords, hkeeps.input]
      have hio := EleparamDecoder.decode_io_counter s.input (nextPulse s.canframePulseValue)
      exact ⟨hshown.1.trans hio.1.symm, hshown.2.trans hio.2.symm⟩
    · rw [hkeeps.frames, hkeeps.input, ← hr]
      exact send_power _ _

theorem Fresh.keeps {s' : PowerController} (h : s.Fresh) (hk : Keeps s s')
    (hw : ∀ r, s.currResult = some r → Shown s.words r → Shown s'.words r) : s'.Fresh where
  before hinit := hk.result.trans (h.before (hk.inited.symm.trans hinit))
  after hinit := by
    obtain ⟨hresult, hshown⟩ := h.after (hk.inited.symm.trans hinit)
    rw [hk.result, hk.input]
    exact ⟨hresult, hw _ hresult hshown⟩

theorem Keeps.sendsNone {s' : PowerController} (h : Keeps s s') : SendsNone s s' := ⟨h.frames, h.pulse⟩

theorem setIoWithmask_fresh (h : s.Fresh) {c : IOController.Call}
    (hc : c.mask &&& decoderMask c.word = 0) : (s.setIoWithmask c).Fresh :=
  h.keeps (s.setIoWithmask_keeps c) fun _ _ hshown => by
    rw [setIoWithmask_words]
    exact hshown.apply hc

theorem setPowerOn_fresh (h : s.Fresh) (on : Bool) :
    (s.setPowerOn on).Fresh ∧ Keeps s (s.setPowerOn on) := by
  simp only [setPowerOn]
  refine ⟨setIoWithmask_fresh (setIoWithmask_fresh h ?_) ?_, ?_⟩
  · show EleContactorOut.pwon.io1 &&& EleparamDecodeResult.io1Mask = 0
    decide
  · show EleContactorOut.sof.io2 &&& EleparamDecodeResult.io2Mask = 0
    decide
  · exact (s.setIoWithmask_keeps _).trans (setIoWithmask_keeps _ _)

theorem triggerSendContactorsIo_fresh (h : s.Fresh) : s.triggerSendContactorsIo.Fresh := by
  refine h.keeps s.triggerSendIoValue_keeps fun r hresult hshown => ?_
  rw [triggerSendContactorsIo, s.triggerSendIoValue_words hresult]
  apply shown_of_written
  cases hinit : s.eleparamInited with
  | false => simp [h.before hinit] at hresult
  | true =>
    rw [(h.after hinit).1] at hresult
    cases hresult
    exact EleparamDecoder.decode_within

theorem triggerSendIoboardEleparam_keeps : Keeps s s.triggerSendIoboardEleparam := by
  unfold triggerSendIoboardEleparam
  split
  · exact .refl s
  · exact s.send_keeps (by simp)

/-- What each call does to the frames and to what they are made from. -/
theorem step_fresh (h : s.Fresh) {c : Call} (hc : c.Allowed) :
    (s.step c).Fresh ∧ (SendsNone s (s.step c) ∨ SendsPair s (s.step c)) := by
  cases c with
  | setHighpowerOn on now =>
    obtain ⟨hfresh, hsends⟩ := updateCurrentAndSend_fresh (s := { s with highpowerOnFlag := on }) h.before now
    exact ⟨hfresh, hsends.imp (fun hn => ⟨hn.1, hn.2⟩) fun hp => ⟨hp.1, hp.2, hp.3⟩⟩
  | setMachbitOn on now =>
    obtain ⟨hfresh, hsends⟩ := updateCurrentAndSend_fresh (s := { s with machpowerFlag := on }) h.before now
    exact ⟨hfresh, hsends.imp (fun hn => ⟨hn.1, hn.2⟩) fun hp => ⟨hp.1, hp.2, hp.3⟩⟩
  | setPowerOn on =>
    obtain ⟨hfresh, hkeeps⟩ := setPowerOn_fresh h on
    exact ⟨hfresh, .inl hkeeps.sendsNone⟩
  | setFinishingCutFlag on => exact ⟨⟨h.before, h.after⟩, .inl ⟨rfl, rfl⟩⟩
  | updateEleparamAndSend e now =>
    obtain ⟨hfresh, hpair⟩ :=
      updateAndSend_fresh (s := { s with currEleparam := e, eleparamInited := true }) rfl now
    exact ⟨hfresh, .inr ⟨hpair.1, hpair.2, hpair.3⟩⟩
  | updateCurrentAndSend now => exact updateCurrentAndSend_fresh h.before now
  | triggerSendEleparam now => exact triggerSendEleparam_fresh h now
  | triggerSendContactorsIo =>
    exact ⟨triggerSendContactorsIo_fresh h, .inl s.triggerSendIoValue_keeps.sendsNone⟩
  | triggerSendIoboardEleparam =>
    have hkeeps : Keeps s s.triggerSendIoboardEleparam := triggerSendIoboardEleparam_keeps
    refine ⟨h.keeps hkeeps fun r _ hshown => ?_, .inl hkeeps.sendsNone⟩
    have hwords : s.triggerSendIoboardEleparam.words = s.words := by
      unfold triggerSendIoboardEleparam
      split <;> rfl
    show Shown s.triggerSendIoboardEleparam.words r
    rwa [hwords]
  | otherWrite c =>
    exact ⟨setIoWithmask_fresh h hc, .inl (s.setIoWithmask_keeps c).sendsNone⟩

/-! ### The relays of the power -/

/-- `PWON` in the first word, `SOF` in the second. -/
def IsRelay (word : IoWord) (i : ℕ) : Prop :=
  word = .machineio1 ∧ i = 31 ∨ word = .machineio2 ∧ i = 14

/-- What a call writes to a relay. -/
def relayWritten (word : IoWord) (i : ℕ) : Call → Option Bool
  | .setPowerOn on => some on
  | .otherWrite c =>
    if c.word = word ∧ c.mask.getLsbD i = true then some (c.part.getLsbD i) else none
  | _ => none

section Relays

variable {word : IoWord} {i : ℕ}

theorem apply_relay_of_not_written (words : IoWord → BitVec 32) {c : IOController.Call}
    (h : c.word = word → c.mask.getLsbD i = false) :
    (c.apply words word).getLsbD i = (words word).getLsbD i := by
  by_cases hw : c.word = word
  · subst hw
    simp only [IOController.Call.apply, Function.update_self]
    exact IOController.withMask_outside (h rfl)
  · simp only [IOController.Call.apply]
    rw [Function.update_of_ne (Ne.symm hw)]

theorem apply_relay_of_written (words : IoWord → BitVec 32) {c : IOController.Call} (hw : c.word = word)
    (h : c.mask.getLsbD i = true) : (c.apply words word).getLsbD i = c.part.getLsbD i := by
  subst hw
  simp only [IOController.Call.apply, Function.update_self]
  have hbit := congrArg (fun v : BitVec 32 => v.getLsbD i)
    (IOController.withMask_and_mask (words c.word) c.part c.mask)
  simpa [BitVec.getLsbD_and, h] using hbit

theorem triggerSendIoValue_relay (hr : IsRelay word i) :
    (s.triggerSendIoValue.words word).getLsbD i = (s.words word).getLsbD i := by
  cases hresult : s.currResult with
  | none => simp [triggerSendIoValue, hresult]
  | some r =>
    have hpwon : EleparamDecodeResult.io1Mask.getLsbD 31 = false := by decide
    have hsof : EleparamDecodeResult.io2Mask.getLsbD 14 = false := by decide
    rw [s.triggerSendIoValue_words hresult]
    rcases hr with ⟨rfl, rfl⟩ | ⟨rfl, rfl⟩
    · rw [apply_relay_of_not_written _ (by simp), apply_relay_of_not_written _ fun _ => hpwon]
    · rw [apply_relay_of_not_written _ fun _ => hsof, apply_relay_of_not_written _ (by simp)]

theorem updateAndSend_relay (hr : IsRelay word i) (now : ℤ) :
    ((s.updateAndSend now).words word).getLsbD i = (s.words word).getLsbD i := by
  simp only [updateAndSend, handleServoSettings_words]
  rw [triggerSendIoValue_relay hr]
  rfl

theorem updateCurrentAndSend_relay (hr : IsRelay word i) (now : ℤ) :
    ((s.updateCurrentAndSend now).words word).getLsbD i = (s.words word).getLsbD i := by
  unfold updateCurrentAndSend
  split
  · rfl
  · exact updateAndSend_relay hr now

theorem setPowerOn_relay (hr : IsRelay word i) (on : Bool) :
    ((s.setPowerOn on).words word).getLsbD i = on := by
  have hpwon : EleContactorOut.pwon.io1.getLsbD 31 = true := by decide
  have hsof : EleContactorOut.sof.io2.getLsbD 14 = true := by decide
  simp only [setPowerOn, setIoWithmask_words]
  rcases hr with ⟨rfl, rfl⟩ | ⟨rfl, rfl⟩
  · rw [apply_relay_of_not_written _ (by simp), apply_relay_of_written _ rfl hpwon]
    cases on <;> decide
  · rw [apply_relay_of_written _ rfl hsof]
    cases on <;> decide

theorem step_relay (hr : IsRelay word i) (c : Call) :
    ((s.step c).words word).getLsbD i = (relayWritten word i c).getD ((s.words word).getLsbD i) := by
  cases c with
  | setHighpowerOn on now => exact updateCurrentAndSend_relay hr now
  | setMachbitOn on now => exact updateCurrentAndSend_relay hr now
  | setPowerOn on => exact setPowerOn_relay hr on
  | setFinishingCutFlag on => rfl
  | updateEleparamAndSend e now => exact updateAndSend_relay hr now
  | updateCurrentAndSend now => exact updateCurrentAndSend_relay hr now
  | triggerSendEleparam now =>
    simp only [step, triggerSendEleparam]
    split
    · rfl
    · rw [handleServoSettings_words]
      rfl
  | triggerSendContactorsIo => exact triggerSendIoValue_relay hr
  | triggerSendIoboardEleparam =>
    simp only [step, triggerSendIoboardEleparam]
    split <;> rfl
  | otherWrite c =>
    simp only [step, setIoWithmask_words, relayWritten]
    split
    · rename_i h
      exact apply_relay_of_written _ h.1 h.2
    · rename_i h
      refine apply_relay_of_not_written _ fun hw => ?_
      exact Bool.eq_false_of_not_eq_true fun hmask => h ⟨hw, hmask⟩

end Relays

/-! ### Runs -/

/-- The record, the flag of the high power and that of the machine bit a call sets. -/
def recordGiven : Call → Option EleParamDkd
  | .updateEleparamAndSend e _ => some e
  | _ => none

def highpowerSet : Call → Option Bool
  | .setHighpowerOn on _ => some on
  | _ => none

def machbitSet : Call → Option Bool
  | .setMachbitOn on _ => some on
  | _ => none

/-- A call and the controller's own data: each is set by its calls alone. -/
structure Sets (s : PowerController) (c : Call) (s' : PowerController) : Prop where
  highpower : s'.highpowerOnFlag = (highpowerSet c).getD s.highpowerOnFlag
  machbit : s'.machpowerFlag = (machbitSet c).getD s.machpowerFlag
  record : (if s'.eleparamInited then some s'.currEleparam else none) =
    (recordGiven c).or (if s.eleparamInited then some s.currEleparam else none)

theorem updateAndSend_data (now : ℤ) :
    (s.updateAndSend now).highpowerOnFlag = s.highpowerOnFlag ∧
      (s.updateAndSend now).machpowerFlag = s.machpowerFlag ∧
      (s.updateAndSend now).eleparamInited = s.eleparamInited ∧
      (s.updateAndSend now).currEleparam = s.currEleparam := by
  let s₁ : PowerController := { s.addCanframePulseValue with
    currResult := some (EleparamDecoder.decode s.addCanframePulseValue.input) }
  let s₂ := s₁.triggerSendCanbuffer (EleparamDecoder.decode s.addCanframePulseValue.input)
  have hkeeps : Keeps s₂ (s.updateAndSend now) :=
    s₂.triggerSendIoValue_keeps.trans (handleServoSettings_keeps _ now)
  exact ⟨hkeeps.highpower, hkeeps.machpower, hkeeps.inited, hkeeps.eleparam⟩

theorem updateCurrentAndSend_data (now : ℤ) :
    (s.updateCurrentAndSend now).highpowerOnFlag = s.highpowerOnFlag ∧
      (s.updateCurrentAndSend now).machpowerFlag = s.machpowerFlag ∧
      (s.updateCurrentAndSend now).eleparamInited = s.eleparamInited ∧
      (s.updateCurrentAndSend now).currEleparam = s.currEleparam := by
  unfold updateCurrentAndSend
  split
  · exact ⟨rfl, rfl, rfl, rfl⟩
  · exact updateAndSend_data now

theorem Keeps.sets {s' : PowerController} {c : Call} (h : Keeps s s') (h1 : highpowerSet c = none)
    (h2 : machbitSet c = none) (h3 : recordGiven c = none) : Sets s c s' := by
  refine ⟨?_, ?_, ?_⟩
  · rw [h1]
    exact h.highpower
  · rw [h2]
    exact h.machpower
  · rw [h3, h.inited, h.eleparam]
    rfl

theorem step_sets (c : Call) : Sets s c (s.step c) := by
  cases c with
  | setHighpowerOn on now =>
    obtain ⟨h1, h2, h3, h4⟩ := updateCurrentAndSend_data (s := { s with highpowerOnFlag := on }) now
    exact ⟨h1, h2, by simp only [step, setHighpowerOn, h3, h4]; rfl⟩
  | setMachbitOn on now =>
    obtain ⟨h1, h2, h3, h4⟩ := updateCurrentAndSend_data (s := { s with machpowerFlag := on }) now
    exact ⟨h1, h2, by simp only [step, setMachbitOn, h3, h4]; rfl⟩
  | setPowerOn on =>
    refine Keeps.sets ?_ rfl rfl rfl
    exact (s.setIoWithmask_keeps _).trans (setIoWithmask_keeps _ _)
  | setFinishingCutFlag on => exact ⟨rfl, rfl, rfl⟩
  | updateEleparamAndSend e now =>
    obtain ⟨h1, h2, h3, h4⟩ :=
      updateAndSend_data (s := { s with currEleparam := e, eleparamInited := true }) now
    exact ⟨h1, h2, by simp only [step, updateEleparamAndSend, h3, h4]; rfl⟩
  | updateCurrentAndSend now =>
    obtain ⟨h1, h2, h3, h4⟩ := updateCurrentAndSend_data (s := s) now
    exact ⟨h1, h2, by simp only [step, h3, h4]; rfl⟩
  | triggerSendEleparam now =>
    simp only [step, triggerSendEleparam]
    split
    · exact (Keeps.refl s).sets rfl rfl rfl
    · rename_i r _
      let s₁ : PowerController := { s.addCanframePulseValue with
        currResult := some (r.setPulseCount s.addCanframePulseValue.canframePulseValue) }
      let s₂ := s₁.triggerSendCanbuffer (r.setPulseCount s.addCanframePulseValue.canframePulseValue)
      have hkeeps : Keeps s₂ (s₂.handleServoSettings now) := s₂.handleServoSettings_keeps now
      have hsets := hkeeps.sets (c := .triggerSendEleparam now) rfl rfl rfl
      exact ⟨hsets.1, hsets.2, hsets.3⟩
  | triggerSendContactorsIo => exact s.triggerSendIoValue_keeps.sets rfl rfl rfl
  | triggerSendIoboardEleparam => exact triggerSendIoboardEleparam_keeps.sets rfl rfl rfl
  | otherWrite c => exact (s.setIoWithmask_keeps c).sets rfl rfl rfl

/-- The cyclic successor of a heartbeat between `0x9C00` and `0xC3FF`. -/
def cyclicSucc (pulse : BitVec 16) : BitVec 16 := if pulse = 0xC3FF then 0x9C00 else pulse + 1

def InRange (pulse : BitVec 16) : Prop := 0x9C00 ≤ pulse ∧ pulse ≤ 0xC3FF

theorem nextPulse_of_inRange {pulse : BitVec 16} (h : InRange pulse) :
    nextPulse pulse = cyclicSucc pulse ∧ InRange (nextPulse pulse) := by
  obtain ⟨hlo, hhi⟩ := h
  unfold nextPulse cyclicSucc
  by_cases hmax : pulse = 0xC3FF
  · subst hmax
    unfold InRange
    decide
  · have hlt : pulse.toNat < 50175 := by
      have hle : pulse.toNat ≤ 50175 := hhi
      have hne : pulse.toNat ≠ 50175 := fun h => hmax (BitVec.eq_of_toNat_eq h)
      omega
    have hge : 39936 ≤ pulse.toNat := hlo
    have hadd : (pulse + 1).toNat = pulse.toNat + 1 := by
      rw [BitVec.toNat_add]
      show (pulse.toNat + 1) % 65536 = _
      omega
    have hgt : ¬pulse + 1 > 0xC3FF := by
      show ¬50175 < (pulse + 1).toNat
      omega
    rw [if_neg hgt, if_neg hmax]
    refine ⟨rfl, ?_, ?_⟩
    · show 39936 ≤ (pulse + 1).toNat
      omega
    · show (pulse + 1).toNat ≤ 50175
      omega

/-- What is kept from call to call. -/
structure Inv (calls : List Call) (s : PowerController) : Prop where
  fresh : s.Fresh
  highpower : s.highpowerOnFlag = (Machine.lastSet highpowerSet calls).getD false
  machbit : s.machpowerFlag = (Machine.lastSet machbitSet calls).getD true
  record : (if s.eleparamInited then some s.currEleparam else none) = Machine.lastSet recordGiven calls
  relays : ∀ word i, IsRelay word i →
    (s.words word).getLsbD i = (Machine.lastSet (relayWritten word i) calls).getD false
  pulse : InRange s.canframePulseValue
  last : ∀ b, s.frames.getLast? = some b → EleparamDecoder.pulseOf b = s.canframePulseValue
  unsent : s.eleparamInited = false → s.frames = []

theorem new_inv : Inv [] new where
  fresh := ⟨fun _ => rfl, fun h => by cases h⟩
  highpower := rfl
  machbit := rfl
  record := rfl
  relays word i _ := BitVec.getLsbD_zero
  pulse := by unfold InRange; decide
  last b h := by cases h
  unsent _ := rfl

theorem Inv.step {calls : List Call} (h : Inv calls s) {c : Call} (hc : c.Allowed) :
    Inv (calls ++ [c]) (s.step c) := by
  obtain ⟨hfresh, hsends⟩ := step_fresh h.fresh hc
  have hsets := step_sets (s := s) c
  have hpulse := nextPulse_of_inRange h.pulse
  refine ⟨hfresh, ?_, ?_, ?_, ?_, ?_, ?_, ?_⟩
  · rw [hsets.highpower, h.highpower, Machine.lastSet_append]
    cases highpowerSet c <;> rfl
  · rw [hsets.machbit, h.machbit, Machine.lastSet_append]
    cases machbitSet c <;> rfl
  · rw [hsets.record, h.record, Machine.lastSet_append]
  · intro word i hr
    rw [step_relay hr, h.relays word i hr, Machine.lastSet_append]
    cases relayWritten word i c <;> rfl
  · rcases hsends with hnone | hpair
    · exact hnone.pulse ▸ h.pulse
    · exact hpair.pulse ▸ hpulse.2
  · intro b hb
    rcases hsends with hnone | hpair
    · rw [hnone.pulse]
      exact h.last b (hnone.frames ▸ hb)
    · rw [hpair.frames, List.getLast?_append, List.getLast?_singleton, Option.some_or,
        Option.some.injEq] at hb
      rw [← hb]
      exact EleparamDecoder.pulseOf_decode _
  · intro hinit
    rcases hsends with hnone | hpair
    · rw [hnone.frames]
      refine h.unsent ?_
      have hrecord := hsets.record
      rw [hinit] at hrecord
      cases hinit' : s.eleparamInited with
      | false => rfl
      | true =>
        rw [hinit'] at hrecord
        cases hg : recordGiven c <;> simp [hg] at hrecord
    · rw [hpair.inited] at hinit
      cases hinit

theorem inv_run {calls : List Call} (hc : ∀ c ∈ calls, c.Allowed) :
    Inv calls (Machine.run PowerController.step new calls) := by
  induction calls using List.reverseRecOn with
  | nil => exact new_inv
  | append_singleton calls c ih =>
    have hrun : Machine.run PowerController.step new (calls ++ [c]) =
        (Machine.run PowerController.step new calls).step c := Machine.run_append
    rw [hrun]
    exact (ih fun c' hc' => hc c' (List.mem_append_left _ hc')).step (hc c (by simp))

/-- What holds after the calls. The relays of the power are what was written to them last: by
`set_power_on`, or by another writer. -/
structure Consistent (calls : List Call) (s : PowerController) : Prop where
  highpower : s.highpowerOnFlag = (Machine.lastSet highpowerSet calls).getD false
  machbit : s.machpowerFlag = (Machine.lastSet machbitSet calls).getD true
  decoded : ∀ e, Machine.lastSet recordGiven calls = some e →
    let r := EleparamDecoder.decode ⟨e, s.highpowerOnFlag, s.machpowerFlag, s.canframePulseValue⟩
    s.currResult = some r ∧ Shown s.words r
  relays : ∀ word i, IsRelay word i →
    (s.words word).getLsbD i = (Machine.lastSet (relayWritten word i) calls).getD false
  unsent : Machine.lastSet recordGiven calls = none → s.frames = []

/-- The power frames a call sends: none, or one pair with the high voltage enabled exactly if both flags
are on, the checksum, and the heartbeat after that of the pair before. -/
def SendsGoodPair (s s' : PowerController) : Prop :=
  s'.frames = s.frames ∨ ∃ b, s'.frames = s.frames ++ [b] ∧
    EleparamDecoder.machbitOf b = (s'.highpowerOnFlag && s'.machpowerFlag) ∧
    EleparamDecoder.Checked b ∧ InRange (EleparamDecoder.pulseOf b) ∧
    ∀ b', s.frames.getLast? = some b' →
      EleparamDecoder.pulseOf b = cyclicSucc (EleparamDecoder.pulseOf b')

theorem Inv.consistent {calls : List Call} (h : Inv calls s) : Consistent calls s where
  highpower := h.highpower
  machbit := h.machbit
  decoded e he := by
    have hrecord := h.record
    rw [he] at hrecord
    cases hinit : s.eleparamInited with
    | false => simp [hinit] at hrecord
    | true =>
      simp only [hinit, if_true, Option.some.injEq] at hrecord
      subst hrecord
      exact h.fresh.after hinit
  relays := h.relays
  unsent hnone := by
    have hrecord := h.record
    rw [hnone] at hrecord
    cases hinit : s.eleparamInited with
    | false => exact h.unsent hinit
    | true => simp [hinit] at hrecord

theorem Inv.sendsGoodPair {calls : List Call} (h : Inv calls s) {c : Call} (hc : c.Allowed) :
    SendsGoodPair s (s.step c) := by
  have hpulse := nextPulse_of_inRange h.pulse
  rcases (step_fresh h.fresh hc).2 with hnone | hpair
  · exact .inl hnone.frames
  · have heq : EleparamDecoder.pulseOf (EleparamDecoder.decode (s.step c).input).canBuffer =
        nextPulse s.canframePulseValue := (EleparamDecoder.pulseOf_decode _).trans hpair.pulse
    refine .inr ⟨_, hpair.frames, EleparamDecoder.machbitOf_decode _,
      EleparamDecoder.decode_checked _, heq ▸ hpulse.2, fun b' hb' => ?_⟩
    rw [heq, h.last b' hb']
    exact hpulse.1

/-- Whatever is called since the construction, with other writers that leave the decoder's bits alone. -/
theorem consistent_run (calls : List Call) (hc : ∀ c ∈ calls, c.Allowed) :
    Consistent calls (Machine.run PowerController.step new calls) ∧
      ∀ before c after, calls = before ++ c :: after →
        SendsGoodPair (Machine.run PowerController.step new before)
          (Machine.run PowerController.step new (before ++ [c])) := by
  refine ⟨(inv_run hc).consistent, ?_⟩
  rintro before c after rfl
  have hrun : Machine.run PowerController.step new (before ++ [c]) =
      (Machine.run PowerController.step new before).step c := Machine.run_append
  rw [hrun]
  exact (inv_run fun c' hc' => hc c' (List.mem_append_left _ hc')).sendsGoodPair (hc c (by simp))

/-- A record with a current of 1.5. -/
def sampleParam : EleParamDkd :=
  ⟨15, 80, 60, 20, 3, 1, 11, 20, 4, 5, 0, 40, 2, 3, 100, 60, 30, 9, 100⟩

/-- A machine on its way to work: power on, the record, the discharge, a jump, a pump. -/
def sampleCalls : List Call :=
  [.triggerSendEleparam 0, .setPowerOn true, .updateEleparamAndSend sampleParam 1, .setHighpowerOn true 2,
    .setMachbitOn false 3, .triggerSendEleparam 7, .otherWrite ⟨.machineio2, 0xFFFFFFFF, 1⟩,
    .setMachbitOn true 8, .triggerSendContactorsIo]

theorem consistent_sampleCalls :
    Consistent sampleCalls (Machine.run PowerController.step new sampleCalls) ∧
      ∀ before c after, sampleCalls = before ++ c :: after →
        SendsGoodPair (Machine.run PowerController.step new before)
          (Machine.run PowerController.step new (before ++ [c])) :=
  consistent_run sampleCalls (by decide)

/-- A panel that switches a single output may switch the power off, too. -/
theorem relay_after_other_write :
    let calls := [Call.updateEleparamAndSend sampleParam 0, .setPowerOn true,
      .otherWrite ⟨.machineio1, 0, EleContactorOut.pwon.io1⟩]
    (∀ c ∈ calls, c.Allowed) ∧ Machine.lastSet recordGiven calls = some sampleParam ∧
      Machine.lastSet (fun c => match c with | .setPowerOn on => some on | _ => none) calls = some true ∧
      ((Machine.run PowerController.step new calls).words .machineio1).getLsbD 31 = false := by
  refine ⟨by decide, rfl, rfl, ?_⟩
  rw [(inv_run (by decide)).relays _ _ (.inl ⟨rfl, rfl⟩)]
  decide

end PowerController

end Edm
