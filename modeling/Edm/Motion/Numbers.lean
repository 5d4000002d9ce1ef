import Edm.Motion.Axis

/-!
# Lengths, and the two number fields

The length of a move is positive exactly when its ends differ. `ℝ` is the field of exact positions;
`ℚ` is the one concrete runs are computed in.
-/

set_option linter.unusedSectionVars false

namespace Edm

section Length

variable {K : Type} [Field K]

open MotionUtils

theorem foldl_mul_self (f : Axis K) :
    (List.finRange 6).foldl (fun sum i => sum + f i * f i) 0 = ∑ i, f i * f i := by
  simp [List.finRange, Fin.sum_univ_succ, add_assoc]

variable [LinearOrder K] [RealFns K] {a b : Axis K}

/-- A unit vector times the length is the vector. -/
theorem start_add_unitVector_mul (h : MotionUtils.axisLengthBetween a b ≠ 0) (i : Fin 6) :
    a i + MotionUtils.axisUnitVector a b i * MotionUtils.axisLengthBetween a b = b i := by
  simp only [MotionUtils.axisLengthBetween] at h ⊢
  simp only [MotionUtils.axisUnitVector, MotionUtils.scaleAxis, MotionUtils.axisVector] at h ⊢
  rw [mul_assoc, one_div, inv_mul_cancel₀ h]
  ring

variable [IsStrictOrderedRing K] [LawfulSqrt K]

theorem axisLengthBetween_pos (h : a ≠ b) : 0 < axisLengthBetween a b := by
  obtain ⟨i, hi⟩ := Function.ne_iff.mp h
  refine LawfulSqrt.sqrt_pos ?_
  rw [foldl_mul_self]
  exact Finset.sum_pos' (fun j _ => mul_self_nonneg _)
    ⟨i, Finset.mem_univ i, mul_self_pos.mpr (sub_ne_zero.mpr hi.symm)⟩

@[simp] theorem axisLengthBetween_self : axisLengthBetween a a = 0 := by
  rw [axisLengthBetween, axisLength, foldl_mul_self]
  simp only [axisVector, sub_self, mul_zero, Finset.sum_const_zero, LawfulSqrt.sqrt_zero]

theorem axisLengthBetween_nonneg : 0 ≤ axisLengthBetween a b := by
  by_cases h : a = b
  · rw [h, axisLengthBetween_self]
  · exact (axisLengthBetween_pos h).le

/-- Along a line from `a` the unit vector leads to `b` at its length, also where the two are one. -/
theorem axisUnitVector_mul_length (i : Fin 6) :
    axisUnitVector a b i * axisLengthBetween a b + a i = b i := by
  by_cases h : a = b
  · rw [h, axisLengthBetween_self, mul_zero, zero_add]
  · rw [add_comm]
    exact start_add_unitVector_mul (axisLengthBetween_pos h).ne' i

theorem ne_of_axisLengthBetween_pos (h : 0 < axisLengthBetween a b) : a ≠ b := by
  rintro rfl
  exact absurd h (by simp)

end Length

theorem ratSqrt_pos {q : ℚ} (h : 0 < q) : 0 < ratSqrt q := by
  have hn : 0 < q.num := Rat.num_pos.mpr h
  have hs : 0 < Nat.sqrt (q.num.toNat * q.den * 10 ^ 24) := by
    have : 0 < q.num.toNat := by omega
    exact Nat.sqrt_pos.mpr (Nat.mul_pos (Nat.mul_pos this q.den_pos) (by norm_num))
  have hd := q.den_pos
  rw [ratSqrt, if_neg (by omega)]
  positivity

instance : LawfulSqrt ℚ where
  sqrt_zero := by decide +kernel
  sqrt_pos := ratSqrt_pos

/-- The functions of the source on the real numbers. -/
noncomputable instance : RealFns ℝ where
  sqrt := Real.sqrt
  cbrt x := if 0 ≤ x then x ^ (1 / 3 : ℝ) else -(-x) ^ (1 / 3 : ℝ)
  acos := Real.arccos
  cos := Real.cos

instance : LawfulSqrt ℝ where
  sqrt_zero := Real.sqrt_zero
  sqrt_pos := Real.sqrt_pos.mpr

end Edm
