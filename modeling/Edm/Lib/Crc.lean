import Mathlib.Data.BitVec

/-!
# Cyclic redundancy checks

A register of `w` bits is shifted left; when a one falls out, the polynomial is added. `byteStep`
feeds eight bits one after another. Programs step a byte at a time with a table of 256 entries:
`tableStep_eq` says that this is the same step when every entry is what `entry` computes, since a
step of the register is linear.

`Crc.Reflected` is the same with the bits in the other order: the register is shifted right, and the
polynomial is written with its bits reversed.
-/

namespace Crc

variable {w : ℕ}

/-- One bit: shift, and add the polynomial when a one falls out. -/
def bitStep (poly x : BitVec w) : BitVec w :=
  if x.msb then (x <<< 1) ^^^ poly else x <<< 1

def bits (poly : BitVec w) : ℕ → BitVec w → BitVec w
  | 0, x => x
  | n + 1, x => bits poly n (bitStep poly x)

/-- A byte in the top eight bits of the register. -/
def top (w : ℕ) (b : BitVec 8) : BitVec w := b.setWidth w <<< (w - 8)

def byteStep (poly crc : BitVec w) (b : BitVec 8) : BitVec w := bits poly 8 (crc ^^^ top w b)

/-- The check of a list of bytes, bit by bit. -/
def check (poly init : BitVec w) (bytes : List (BitVec 8)) : BitVec w :=
  bytes.foldl (byteStep poly) init

/-- What a table has to hold for the byte `b`. -/
def entry (poly : BitVec w) (b : BitVec 8) : BitVec w := bits poly 8 (top w b)

def tableStep (table : BitVec 8 → BitVec w) (crc : BitVec w) (b : BitVec 8) : BitVec w :=
  (crc <<< 8) ^^^ table ((crc >>> (w - 8)).setWidth 8 ^^^ b)

variable (poly : BitVec w)

theorem bitStep_xor (x y : BitVec w) :
    bitStep poly (x ^^^ y) = bitStep poly x ^^^ bitStep poly y := by
  have hsh : (x ^^^ y) <<< 1 = (x <<< 1) ^^^ (y <<< 1) := by
    ext i hi
    by_cases h0 : i = 0 <;> simp [h0, BitVec.getElem_shiftLeft]
  unfold bitStep
  rw [BitVec.msb_xor, hsh]
  cases x.msb <;> cases y.msb
  · rfl
  · simp [BitVec.xor_assoc]
  · simp only [Bool.xor_false, if_true, Bool.false_eq_true, if_false]
    rw [BitVec.xor_assoc, BitVec.xor_comm (y <<< 1), BitVec.xor_assoc]
  · simp only [Bool.xor_true, Bool.not_true, Bool.false_eq_true, if_false, if_true]
    rw [BitVec.xor_assoc, BitVec.xor_comm poly, BitVec.xor_assoc (y <<< 1), BitVec.xor_self,
      BitVec.xor_zero]

theorem bits_xor (n : ℕ) (x y : BitVec w) :
    bits poly n (x ^^^ y) = bits poly n x ^^^ bits poly n y := by
  induction n generalizing x y with
  | zero => rfl
  | succ n ih => rw [bits, bitStep_xor, ih]; rfl

/-- While no one falls out, the polynomial is not added. -/
theorem bits_of_small (n : ℕ) (x : BitVec w) (h : x.toNat * 2 ^ n < 2 ^ w) :
    bits poly n x = x <<< n := by
  induction n generalizing x with
  | zero => simp [bits]
  | succ n ih =>
    have hx : x.toNat * 2 < 2 ^ w := by
      refine lt_of_le_of_lt (Nat.mul_le_mul_left _ ?_) h
      exact Nat.le_self_pow (Nat.succ_ne_zero n) 2
    have hmsb : x.msb = false := by
      rw [BitVec.msb_eq_false_iff_two_mul_lt]
      omega
    have hto : (x <<< 1).toNat = x.toNat * 2 := by
      rw [BitVec.toNat_shiftLeft, Nat.shiftLeft_eq, pow_one, Nat.mod_eq_of_lt hx]
    have hstep : bitStep poly x = x <<< 1 := by simp [bitStep, hmsb]
    rw [bits, hstep, ih _ (by rw [hto, mul_assoc, ← pow_succ']; exact h), ← BitVec.shiftLeft_add,
      Nat.add_comm]

/-- The register with its top byte taken out. -/
theorem split_top (hw : 8 ≤ w) (crc : BitVec w) (b : BitVec 8) :
    crc ^^^ top w b =
      (crc.setWidth (w - 8)).setWidth w ^^^ top w ((crc >>> (w - 8)).setWidth 8 ^^^ b) := by
  ext i hi
  simp only [top, BitVec.getElem_xor, BitVec.getElem_shiftLeft, BitVec.getElem_setWidth,
    BitVec.getLsbD_setWidth, BitVec.getLsbD_xor, BitVec.getLsbD_ushiftRight]
  by_cases h : i < w - 8
  · simp [h, hi]
  · have h8 : i - (w - 8) < 8 := by omega
    simp [h, h8, Nat.add_sub_cancel' (Nat.le_of_not_lt h), BitVec.getLsbD_eq_getElem hi]

theorem bits_low (hw : 8 ≤ w) (crc : BitVec w) :
    bits poly 8 ((crc.setWidth (w - 8)).setWidth w) = crc <<< 8 := by
  have hpow : 2 ^ w = 2 ^ (w - 8) * 2 ^ 8 := by rw [← pow_add]; congr 1; omega
  rw [bits_of_small]
  · ext i hi
    simp only [BitVec.getElem_shiftLeft]
    by_cases h : i < 8
    · simp [h]
    · have h1 : i - 8 < w := by omega
      have h2 : i - 8 < w - 8 := by omega
      simp [h, h1, h2]
  · have hlt : (crc.setWidth (w - 8)).toNat < 2 ^ (w - 8) := (crc.setWidth (w - 8)).isLt
    have hle : ((crc.setWidth (w - 8)).setWidth w).toNat ≤ (crc.setWidth (w - 8)).toNat := by
      rw [BitVec.toNat_setWidth]; exact Nat.mod_le _ _
    rw [hpow]
    exact Nat.mul_lt_mul_of_pos_right (lt_of_le_of_lt hle hlt) (by decide)

/-- A step through a table is eight steps through the bits. -/
theorem tableStep_eq (hw : 8 ≤ w) {table : BitVec 8 → BitVec w}
    (ht : ∀ b, table b = entry poly b) (crc : BitVec w) (b : BitVec 8) :
    tableStep table crc b = byteStep poly crc b := by
  rw [byteStep, split_top hw, bits_xor, bits_low poly hw, tableStep, ht, entry]

theorem foldl_tableStep_eq (hw : 8 ≤ w) {table : BitVec 8 → BitVec w}
    (ht : ∀ b, table b = entry poly b) (crc : BitVec w) (bytes : List (BitVec 8)) :
    bytes.foldl (tableStep table) crc = check poly crc bytes := by
  induction bytes generalizing crc with
  | nil => rfl
  | cons b bs ih => rw [List.foldl_cons, tableStep_eq poly hw ht, ih]; rfl

/-! ### Least significant bit first -/

namespace Reflected

/-- One bit: shift, and add the polynomial when a one falls out. -/
def bitStep (poly x : BitVec w) : BitVec w :=
  if x.getLsbD 0 then (x >>> 1) ^^^ poly else x >>> 1

def bits (poly : BitVec w) : ℕ → BitVec w → BitVec w
  | 0, x => x
  | n + 1, x => bits poly n (bitStep poly x)

def byteStep (poly crc : BitVec w) (b : BitVec 8) : BitVec w := bits poly 8 (crc ^^^ b.setWidth w)

/-- The check of a list of bytes, bit by bit. -/
def check (poly init : BitVec w) (bytes : List (BitVec 8)) : BitVec w :=
  bytes.foldl (byteStep poly) init

/-- What a table has to hold for the byte `b`. -/
def entry (poly : BitVec w) (b : BitVec 8) : BitVec w := bits poly 8 (b.setWidth w)

def tableStep (table : BitVec 8 → BitVec w) (crc : BitVec w) (b : BitVec 8) : BitVec w :=
  (crc >>> 8) ^^^ table ((crc ^^^ b.setWidth w).setWidth 8)

theorem bitStep_xor (x y : BitVec w) :
    bitStep poly (x ^^^ y) = bitStep poly x ^^^ bitStep poly y := by
  unfold bitStep
  rw [BitVec.getLsbD_xor, BitVec.ushiftRight_xor_distrib]
  cases x.getLsbD 0 <;> cases y.getLsbD 0
  · rfl
  · simp [BitVec.xor_assoc]
  · simp only [Bool.xor_false, if_true, Bool.false_eq_true, if_false]
    rw [BitVec.xor_assoc, BitVec.xor_comm (y >>> 1), BitVec.xor_assoc]
  · simp only [Bool.xor_true, Bool.not_true, Bool.false_eq_true, if_false, if_true]
    rw [BitVec.xor_assoc, BitVec.xor_comm poly, BitVec.xor_assoc (y >>> 1), BitVec.xor_self,
      BitVec.xor_zero]

theorem bits_xor (n : ℕ) (x y : BitVec w) :
    bits poly n (x ^^^ y) = bits poly n x ^^^ bits poly n y := by
  induction n generalizing x y with
  | zero => rfl
  | succ n ih => rw [bits, bitStep_xor, ih]; rfl

/-- While no one falls out, the polynomial is not added. -/
theorem bits_of_clear (n : ℕ) (x : BitVec w) (h : ∀ i < n, x.getLsbD i = false) :
    bits poly n x = x >>> n := by
  induction n generalizing x with
  | zero => simp [bits]
  | succ n ih =>
    have hstep : bitStep poly x = x >>> 1 := by simp [bitStep, h 0 (Nat.succ_pos n)]
    have hclear : ∀ i < n, (x >>> 1).getLsbD i = false := by
      intro i hi
      rw [BitVec.getLsbD_ushiftRight]
      exact h (1 + i) (by omega)
    rw [bits, hstep, ih _ hclear, ← BitVec.shiftRight_add, Nat.add_comm]

/-- The register with its low byte taken out. -/
theorem split_low (crc : BitVec w) (b : BitVec 8) :
    crc ^^^ b.setWidth w =
      ((crc >>> 8) <<< 8) ^^^ ((crc ^^^ b.setWidth w).setWidth 8).setWidth w := by
  ext i hi
  simp only [BitVec.getElem_xor, BitVec.getElem_shiftLeft, BitVec.getElem_setWidth,
    BitVec.getLsbD_setWidth, BitVec.getLsbD_xor, BitVec.getElem_ushiftRight]
  by_cases h : i < 8
  · simp [h, hi]
  · simp [h, Nat.add_sub_cancel' (Nat.le_of_not_lt h), BitVec.getLsbD_eq_getElem hi,
      BitVec.getLsbD_of_ge b i (Nat.le_of_not_lt h)]

theorem bits_high (crc : BitVec w) : bits poly 8 ((crc >>> 8) <<< 8) = crc >>> 8 := by
  rw [bits_of_clear]
  · ext i hi
    simp only [BitVec.getElem_ushiftRight, BitVec.getLsbD_shiftLeft]
    by_cases h : 8 + i < w
    · simp [h]
    · simp [h, BitVec.getLsbD_of_ge crc (8 + i) (Nat.le_of_not_lt h)]
  · intro i hi
    simp [BitVec.getLsbD_shiftLeft, hi]

/-- A step through a table is eight steps through the bits. -/
theorem tableStep_eq {table : BitVec 8 → BitVec w} (ht : ∀ b, table b = entry poly b)
    (crc : BitVec w) (b : BitVec 8) : tableStep table crc b = byteStep poly crc b := by
  rw [byteStep, split_low, bits_xor, bits_high, tableStep, ht, entry]

theorem foldl_tableStep_eq {table : BitVec 8 → BitVec w} (ht : ∀ b, table b = entry poly b)
    (crc : BitVec w) (bytes : List (BitVec 8)) :
    bytes.foldl (tableStep table) crc = check poly crc bytes := by
  induction bytes generalizing crc with
  | nil => rfl
  | cons b bs ih => rw [List.foldl_cons, tableStep_eq poly ht, ih]; rfl

end Reflected

end Crc
