import Mathlib.Algebra.Order.Floor.Ring
import Mathlib.Tactic.Linarith
import Mathlib.Tactic.Ring

/-!
# Truncation

The integer part of a number, towards zero. It stays between integer bounds, is less than one away,
and of a quotient of integers it leaves a remainder less than the divisor.
-/

namespace Truncation

variable {K : Type*} [Field K] [LinearOrder K] [FloorRing K]

/-- A number without its fractional part. -/
def trunc (x : K) : ℤ := if 0 ≤ x then ⌊x⌋ else ⌈x⌉

variable [IsStrictOrderedRing K] {x : K}

theorem trunc_mem {lo hi : ℤ} (hlo : (lo : K) ≤ x) (hhi : x ≤ hi) :
    lo ≤ trunc x ∧ trunc x ≤ hi := by
  unfold trunc
  split
  · have hfloor : ((⌊x⌋ : ℤ) : K) ≤ hi := (Int.floor_le x).trans hhi
    exact ⟨Int.le_floor.mpr hlo, by exact_mod_cast hfloor⟩
  · have hceil : (lo : K) ≤ ((⌈x⌉ : ℤ) : K) := hlo.trans (Int.le_ceil x)
    exact ⟨by exact_mod_cast hceil, Int.ceil_le.mpr hhi⟩

theorem abs_sub_trunc_lt (x : K) : |x - trunc x| < 1 := by
  unfold trunc
  split
  · have hle := Int.floor_le x
    have hlt := Int.lt_floor_add_one x
    rw [abs_lt]
    constructor <;> linarith
  · have hle := Int.le_ceil x
    have hlt := Int.ceil_lt_add_one x
    rw [abs_lt]
    constructor <;> linarith

/-- What the truncation of a quotient leaves over is less than the divisor. -/
theorem abs_sub_mul_trunc_div_lt (K : Type*) [Field K] [LinearOrder K] [FloorRing K]
    [IsStrictOrderedRing K] (z : ℤ) {n : ℕ} (hn : 0 < n) :
    |z - n * trunc ((z : K) / n)| < n := by
  have hn' : (0 : K) < n := by exact_mod_cast hn
  have hlt := abs_sub_trunc_lt ((z : K) / n)
  have hmul : |(z : K) - n * trunc ((z : K) / n)| < n := by
    calc |(z : K) - n * trunc ((z : K) / n)|
        = n * |(z : K) / n - trunc ((z : K) / n)| := by
          rw [← abs_of_pos hn', ← abs_mul, abs_of_pos hn', mul_sub, mul_div_cancel₀ _ hn'.ne']
      _ < n * 1 := mul_lt_mul_of_pos_left hlt hn'
      _ = n := mul_one _
  exact_mod_cast hmul

end Truncation
