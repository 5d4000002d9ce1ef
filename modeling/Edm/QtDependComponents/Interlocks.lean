import Edm.QtDependComponents.EleparamDecoder
import Mathlib.Algebra.BigOperators.Group.Finset.Basic

/-!
# The interlocks of the power supply

What the decoder does to its relays is a table (`relay`): each handler sets the relays that are its own
and leaves the others alone. The interlocks of the hardware are read off that table, and the
checksum is the sum of the other bytes.
-/

namespace Edm

namespace EleparamDecoder

open EleparamDecodeResult

/-! ### Single relays -/

/-- The bit of an output is set. For `NOW`, `PK` and `IP0` that means the relay is open. -/
def isSet (r : EleparamDecodeResult) (k : EleContactorOut) : Bool :=
  if k.out ≤ 32 then r.io1.getLsbD (k.out - 1) else r.io2.getLsbD (k.out - 33)

section Bits

variable {r : EleparamDecodeResult} {j k : EleContactorOut} {on : Bool}

theorem out_bounds (k : EleContactorOut) : 2 ≤ k.out ∧ k.out ≤ 47 := by
  cases k <;> simp [EleContactorOut.out]
  omega

theorem out_injective (h : j.out = k.out) : j = k := by
  cases j <;> cases k <;> simp only [EleContactorOut.out] at h <;>
    first | rfl | omega | exact congrArg _ (Fin.ext (by omega))

theorem getLsbD_setBit (io : BitVec 32) (on : Bool) {n i : ℕ} (hn : n < 32) (hi : i < 32) :
    (setBit io ((1 : BitVec 32) <<< n) on).getLsbD i = if i = n then on else io.getLsbD i := by
  have hbit : ((1 : BitVec 32) <<< n).getLsbD i = decide (i = n) := by
    rw [BitVec.getLsbD_shiftLeft, BitVec.ofNat_eq_ofNat, BitVec.getLsbD_one]
    by_cases h : i = n
    · simp [h, hn]
    · simp [h]
      omega
  cases on with
  | true =>
    rw [setBit, if_pos rfl, BitVec.getLsbD_or, hbit]
    by_cases h : i = n <;> simp [h]
  | false =>
    rw [setBit, if_neg (by simp), BitVec.getLsbD_and, BitVec.getLsbD_not, hbit]
    by_cases h : i = n <;> simp [h, hi]

theorem isSet_setIo1 (hk : k.out ≤ 32) :
    isSet (setIo1 r k on) j = if j = k then on else isSet r j := by
  have hj := out_bounds j
  have hk' := out_bounds k
  unfold isSet
  by_cases h : j.out ≤ 32
  · rw [if_pos h, if_pos h]
    show (setBit r.io1 ((1 : BitVec 32) <<< (k.out - 1)) on).getLsbD _ = _
    rw [getLsbD_setBit _ _ (by omega) (by omega)]
    by_cases hjk : j = k
    · rw [hjk, if_pos rfl, if_pos rfl]
    · rw [if_neg hjk, if_neg fun he => hjk (out_injective (by omega))]
  · rw [if_neg h, if_neg h, if_neg (by rintro rfl; exact h hk)]
    rfl

theorem isSet_setIo2 (hk : 32 < k.out) :
    isSet (setIo2 r k on) j = if j = k then on else isSet r j := by
  have hj := out_bounds j
  have hk' := out_bounds k
  unfold isSet
  by_cases h : j.out ≤ 32
  · rw [if_pos h, if_pos h, if_neg (by rintro rfl; omega)]
    rfl
  · rw [if_neg h, if_neg h]
    show (setBit r.io2 ((1 : BitVec 32) <<< (k.out - 33)) on).getLsbD _ = _
    rw [getLsbD_setBit _ _ (by omega) (by omega)]
    by_cases hjk : j = k
    · rw [hjk, if_pos rfl, if_pos rfl]
    · rw [if_neg hjk, if_neg fun he => hjk (out_injective (by omega))]

end Bits

/-! ### The table of the relays -/

/-- The bit of each output, from the parameters. -/
def relay (input : EleparamDecodeInput) : EleContactorOut → Bool
  | .v1 => input.eleParam.lv = 1
  | .v2 => input.eleParam.lv = 2
  | .c x => x.val = min input.eleParam.c.toNat 9
  | .mach => input.highpowerFlag
  | .hon => (input.eleParam.pp / 10) % 10 = 1 ∧ (input.eleParam.hp / 10) % 10 % 2 ≠ 0
  | .mon => (input.eleParam.pp / 10) % 10 = 1 ∧ (input.eleParam.hp / 10) % 10 % 2 = 0
  | .pk => input.eleParam.upperIndex = 901 ∨ input.eleParam.upperIndex = 902
  | .rvnm => input.eleParam.pl ≠ 0
  | .ip0 => input.eleParam.ip = 0
  | .ip7 => 70 < input.eleParam.ip
  | .ip15 => 150 < input.eleParam.ip
  | .now =>
    (input.eleParam.upperIndex = 901 ∨ input.eleParam.upperIndex = 902) ∨
      ¬70 < input.eleParam.ip ∧ ¬(input.eleParam.hp / 10) % 10 < 4
  | .pwon | .unused5 | .pk0 | .unusedA | .unusedE | .sof => false

section Handlers

variable (input : EleparamDecodeInput) (r : EleparamDecodeResult) (j : EleContactorOut)

@[simp] theorem isSet_setContactorIoNOW (e : Bool) :
    isSet (setContactorIoNOW r e) j = if j = .now then !e else isSet r j :=
  isSet_setIo2 (by decide)

@[simp] theorem isSet_setContactorIoPK (e : Bool) :
    isSet (setContactorIoPK r e) j = if j = .pk then !e else isSet r j :=
  isSet_setIo2 (by decide)

@[simp] theorem isSet_setContactorIoMON (e : Bool) :
    isSet (setContactorIoMON r e) j = if j = .mon then e else isSet r j :=
  isSet_setIo2 (by decide)

@[simp] theorem isSet_setContactorIoHON (e : Bool) :
    isSet (setContactorIoHON r e) j = if j = .hon then e else isSet r j :=
  isSet_setIo2 (by decide)

@[simp] theorem isSet_setContactorIoIP0 (e : Bool) :
    isSet (setContactorIoIP0 r e) j = if j = .ip0 then !e else isSet r j :=
  isSet_setIo2 (by decide)

@[simp] theorem isSet_setContactorIoIP7 (e : Bool) :
    isSet (setContactorIoIP7 r e) j = if j = .ip7 then e else isSet r j :=
  isSet_setIo2 (by decide)

@[simp] theorem isSet_setContactorIoIP15 (e : Bool) :
    isSet (setContactorIoIP15 r e) j = if j = .ip15 then e else isSet r j :=
  isSet_setIo2 (by decide)

@[simp] theorem isSet_setContactorIoLV1 (e : Bool) :
    isSet (setContactorIoLV1 r e) j = if j = .v1 then e else isSet r j :=
  isSet_setIo1 (by decide)

@[simp] theorem isSet_setContactorIoLV2 (e : Bool) :
    isSet (setContactorIoLV2 r e) j = if j = .v2 then e else isSet r j :=
  isSet_setIo1 (by decide)

@[simp] theorem isSet_setContactorIoRVNM (e : Bool) :
    isSet (setContactorIoRVNM r e) j = if j = .rvnm then e else isSet r j :=
  isSet_setIo2 (by decide)

@[simp] theorem isSet_setContactorIoMACH (e : Bool) :
    isSet (setContactorIoMACH r e) j = if j = .mach then e else isSet r j :=
  isSet_setIo1 (by decide)

theorem min_nine_lt (x : ℕ) : min x 9 < 10 := by omega

@[simp] theorem isSet_setContactorIoCx (e : Bool) (x : ℕ) :
    isSet (setContactorIoCx r e x) j =
      if j = .c ⟨min x 9, min_nine_lt x⟩ then e else isSet r j := by
  refine isSet_setIo1 ?_
  show 21 + min x 9 ≤ 32
  omega

theorem isSet_handleNOW : isSet (iosettingsHandleNOW input r) j =
    if j = .now then relay input .now else isSet r j := by
  simp only [iosettingsHandleNOW, relay]
  split_ifs <;> simp_all

theorem isSet_handleMONHON : isSet (iosettingsHandleMONHON input r) j =
    if j = .hon then relay input .hon else if j = .mon then relay input .mon else isSet r j := by
  simp only [iosettingsHandleMONHON, relay]
  split_ifs <;> simp_all

theorem isSet_handleLVx : isSet (iosettingsHandleLVx input r) j =
    if j = .v2 then relay input .v2 else if j = .v1 then relay input .v1 else isSet r j := by
  simp only [iosettingsHandleLVx, relay]
  split_ifs <;> simp_all

theorem isSet_handlePK : isSet (iosettingsHandlePK input r) j =
    if j = .pk then relay input .pk else isSet r j := by
  simp only [iosettingsHandlePK, relay]
  split_ifs <;> simp_all

theorem isSet_handleIPx : isSet (iosettingsHandleIPx input r) j =
    if j = .ip15 then relay input .ip15 else if j = .ip7 then relay input .ip7
    else if j = .ip0 then relay input .ip0 else isSet r j := by
  simp only [iosettingsHandleIPx, relay]
  split_ifs <;> first | (simp_all; done) | (simp_all; bv_omega)

/-- All capacitors are switched off before the one asked for is switched on. -/
theorem isSet_allOff (is : List ℕ) :
    isSet (is.foldl (fun r i => setContactorIoCx r false i) r) j =
      if ∃ i ∈ is, j = .c ⟨min i 9, min_nine_lt i⟩ then false else isSet r j := by
  induction is generalizing r with
  | nil => simp
  | cons i is ih =>
    rw [List.foldl_cons, ih, isSet_setContactorIoCx]
    simp only [List.mem_cons, exists_eq_or_imp]
    by_cases hi : j = .c ⟨min i 9, min_nine_lt i⟩
    · simp only [hi, true_or, if_true, ite_self]
    · simp only [hi, if_false, false_or]

theorem isSet_handleCAPx : isSet (iosettingsHandleCAPx input r) j =
    match j with
    | .c x => relay input (.c x)
    | j => isSet r j := by
  unfold iosettingsHandleCAPx
  simp only [isSet_setContactorIoCx, isSet_allOff]
  cases j with
  | c x =>
    have hoff : ∃ i ∈ List.range 10, EleContactorOut.c x = .c ⟨min i 9, min_nine_lt i⟩ :=
      ⟨x, List.mem_range.mpr x.isLt, congrArg _ (Fin.ext (by show x.val = min x.val 9; omega))⟩
    rw [if_pos hoff]
    simp [relay, Fin.ext_iff]
  | _ => simp

theorem isSet_fillIoSettings (hr : ∀ k, isSet r k = false) :
    isSet (fillIoSettings input r) j = relay input j := by
  unfold fillIoSettings
  rw [isSet_handleCAPx]
  cases j <;>
    simp [isSet_handlePK, iosettingsHandleMACH, iosettingsHandlePL, isSet_handleLVx, isSet_handleIPx,
      isSet_handleMONHON, isSet_handleNOW, hr, relay]

/-- Every relay is as the table says. -/
theorem isSet_decode : isSet (decode input) j = relay input j := by
  have hframes (r : EleparamDecodeResult) (b : CanBuffer) :
      isSet { r with canBuffer := b } j = isSet r j := rfl
  rw [decode_eq, hframes, isSet_fillIoSettings]
  intro k
  unfold isSet new
  split <;> simp

end Handlers

/-! ### The interlocks -/

/-- What the power supply needs of a result. -/
structure Interlocked (r : EleparamDecodeResult) : Prop where
  oneCapacitor : ∃! x : Fin 10, isSet r (.c x) = true
  oneVoltage : ¬(isSet r .v1 = true ∧ isSet r .v2 = true)
  monOrHon : ¬(isSet r .mon = true ∧ isSet r .hon = true)
  ip15 : isSet r .ip15 = true → isSet r .ip7 = true
  /-- The relay `IP0` is closed where its bit is clear. -/
  ip7 : isSet r .ip7 = true → isSet r .ip0 = false
  within : Within r
  checksum : (r.canBuffer (1, 7)).toNat =
    (∑ p ∈ Finset.univ.erase ((1, 7) : Fin 2 × Fin 8), (r.canBuffer p).toNat) % 256

/-- The sum of the bytes in sixteen bits. -/
theorem endCheck_toNat (b : CanBuffer) :
    (endCheck b).toNat = (checkedBytes.map fun p => (b p).toNat).sum % 2 ^ 16 := by
  have hfold (ps : List (Fin 2 × Fin 8)) (c : BitVec 16) :
      (ps.foldl (fun sum p => sum + (b p).setWidth 16) c).toNat =
        (c.toNat + (ps.map fun p => (b p).toNat).sum) % 2 ^ 16 := by
    induction ps generalizing c with
    | nil => simp [Nat.mod_eq_of_lt c.isLt]
    | cons p ps ih =>
      have hp : (b p).toNat < 2 ^ 16 := (b p).isLt.trans (by decide)
      rw [List.foldl_cons, ih, BitVec.toNat_add, BitVec.toNat_setWidth, Nat.mod_eq_of_lt hp,
        List.map_cons, List.sum_cons, Nat.mod_add_mod, add_assoc]
  rw [endCheck, hfold]
  simp

/-- The checksum is the sum of the other bytes. -/
theorem Checked.toNat_eq {b : CanBuffer} (h : Checked b) :
    (b (1, 7)).toNat =
      (∑ p ∈ Finset.univ.erase ((1, 7) : Fin 2 × Fin 8), (b p).toNat) % 256 := by
  have hset : (Finset.univ.erase ((1, 7) : Fin 2 × Fin 8)) = checkedBytes.toFinset := by decide
  have hnodup : checkedBytes.Nodup := by decide
  rw [h, BitVec.toNat_setWidth, endCheck_toNat, hset, List.sum_toFinset _ hnodup]
  exact Nat.mod_mod_of_dvd _ (by decide)

theorem decode_interlocked (input : EleparamDecodeInput) : Interlocked (decode input) := by
  constructor
  case oneCapacitor =>
    refine ⟨⟨min input.eleParam.c.toNat 9, by omega⟩, ?_, fun x hx => ?_⟩
    · simp [isSet_decode, relay]
    · have hx : isSet (decode input) (.c x) = true := hx
      rw [isSet_decode] at hx
      exact Fin.ext (of_decide_eq_true hx)
  case oneVoltage =>
    rw [isSet_decode, isSet_decode]
    rintro ⟨h1, h2⟩
    have h1 : input.eleParam.lv = 1 := of_decide_eq_true h1
    have h2 : input.eleParam.lv = 2 := of_decide_eq_true h2
    rw [h1] at h2
    exact absurd h2 (by decide)
  case monOrHon =>
    rw [isSet_decode, isSet_decode]
    rintro ⟨h1, h2⟩
    exact (of_decide_eq_true h2).2 (of_decide_eq_true h1).2
  case ip15 =>
    rw [isSet_decode, isSet_decode]
    intro h
    have h : 150 < input.eleParam.ip := of_decide_eq_true h
    exact decide_eq_true (by bv_omega : 70 < input.eleParam.ip)
  case ip7 =>
    rw [isSet_decode, isSet_decode]
    intro h
    have h : 70 < input.eleParam.ip := of_decide_eq_true h
    exact decide_eq_false (by bv_omega : ¬input.eleParam.ip = 0)
  case within => exact decode_within
  case checksum => exact (decode_checked input).toNat_eq

/-- The frame that is sent again with another heartbeat is the one decoded with it. -/
theorem heartbeat_exchanged (input : EleparamDecodeInput) (c1 c2 : BitVec 16) :
    setPulseCount (decode { input with counter := c1 }) c2 =
      decode { input with counter := c2 } :=
  setPulseCount_decode _ c2

end EleparamDecoder

end Edm
