import Edm.Lib.Truncation
import Mathlib.Data.Rat.Floor

/-!
# The long-period averager

`LongPeroidAverager<int32_t>` keeps a running mean, but as an `int32_t`: every push truncates it,
and the next push goes on from what is left. To truncate the mean of `n` values loses at most
`n - 1` of their sum, so the mean is at most `(n - 1) / 2` off (`average_within`), and as much is
lost on a staircase (`staircase_average`). The quotients, `double` in the source, are taken as
exact.
-/

namespace Edm

structure LongPeroidAverager where
  count : ℕ
  latest : Int32
  min : Int32
  max : Int32
  average : Int32
  deriving DecidableEq

namespace LongPeroidAverager

open Truncation

def new : LongPeroidAverager := ⟨0, 0, 0, 0, 0⟩

/-- The running mean with `d` as its value number `count`, in the type of the values again. -/
def nextAverage (count : ℕ) (average d : Int32) : Int32 :=
  Int32.ofInt (trunc
    (((count - 1 : ℕ) : ℚ) / (count : ℚ) * (average.toInt : ℚ) + (d.toInt : ℚ) / (count : ℚ)))

def push (a : LongPeroidAverager) (d : Int32) : LongPeroidAverager :=
  let min := if a.count > 0 then (if d < a.min then d else a.min) else d
  let max := if d > a.max then d else a.max
  { count := a.count + 1
    latest := d
    min := min
    max := max
    average := nextAverage (a.count + 1) a.average d }

def clear (_ : LongPeroidAverager) : LongPeroidAverager := new

/-- The values pushed one after another. -/
def pushAll (a : LongPeroidAverager) (ds : List Int32) : LongPeroidAverager := ds.foldl push a

/-- The mean of the values, exact. -/
def mean (ds : List Int32) : ℚ := ((ds.map Int32.toInt).sum : ℚ) / ds.length

/-! ### The running mean -/

section Mean

/-- A mean of values stays within their type, and a push leaves over less than the count. -/
theorem nextAverage_spec (n : ℕ) (average d : Int32) :
    |(n * average.toInt + d.toInt) - (n + 1) * (nextAverage (n + 1) average d).toInt| ≤ n := by
  have hpos : (0 : ℚ) < n + 1 := by positivity
  have hquot : ((n + 1 - 1 : ℕ) : ℚ) / ((n + 1 : ℕ) : ℚ) * (average.toInt : ℚ) +
      (d.toInt : ℚ) / ((n + 1 : ℕ) : ℚ) =
      ((n * average.toInt + d.toInt : ℤ) : ℚ) / ((n + 1 : ℕ) : ℚ) := by
    push_cast
    ring
  have hrange : (-2 ^ 31 : ℤ) ≤
        trunc (((n * average.toInt + d.toInt : ℤ) : ℚ) / ((n + 1 : ℕ) : ℚ)) ∧
      trunc (((n * average.toInt + d.toInt : ℤ) : ℚ) / ((n + 1 : ℕ) : ℚ)) ≤ 2 ^ 31 - 1 := by
    have ha := average.le_toInt
    have hd := d.le_toInt
    have ha' := average.toInt_lt
    have hd' := d.toInt_lt
    apply trunc_mem
    · rw [le_div_iff₀ (by exact_mod_cast hpos)]
      have hle : (-2 ^ 31 : ℤ) * ((n + 1 : ℕ) : ℤ) ≤ n * average.toInt + d.toInt := by
        push_cast
        nlinarith
      exact_mod_cast hle
    · rw [div_le_iff₀ (by exact_mod_cast hpos)]
      have hle : n * average.toInt + d.toInt ≤ (2 ^ 31 - 1 : ℤ) * ((n + 1 : ℕ) : ℤ) := by
        push_cast
        nlinarith
      exact_mod_cast hle
  have hlt := abs_sub_mul_trunc_div_lt ℚ (n * average.toInt + d.toInt) (Nat.succ_pos n)
  rw [nextAverage, hquot]
  generalize trunc (((n * average.toInt + d.toInt : ℤ) : ℚ) / ((n + 1 : ℕ) : ℚ)) = t at hrange hlt ⊢
  rw [Int32.toInt_ofInt_of_le hrange.1 (by omega)]
  push_cast at hlt
  omega

/-- After `n` values with the sum `S`: what the mean has lost. -/
def Drifts (a : LongPeroidAverager) (S : ℤ) : Prop :=
  2 * |a.count * a.average.toInt - S| ≤ a.count * (a.count - 1)

theorem Drifts.push {a : LongPeroidAverager} {S : ℤ} (h : a.Drifts S) (d : Int32) :
    (a.push d).Drifts (S + d.toInt) := by
  have hnext := nextAverage_spec a.count a.average d
  have hsplit : |((a.count + 1 : ℕ) : ℤ) * (a.push d).average.toInt - (S + d.toInt)| ≤
      a.count + |a.count * a.average.toInt - S| := by
    calc |((a.count + 1 : ℕ) : ℤ) * (a.push d).average.toInt - (S + d.toInt)|
        = |(a.count * a.average.toInt - S) - ((a.count * a.average.toInt + d.toInt) -
            (a.count + 1) * (nextAverage (a.count + 1) a.average d).toInt)| := by
          congr 1
          show ((a.count + 1 : ℕ) : ℤ) * (nextAverage (a.count + 1) a.average d).toInt - _ = _
          push_cast
          ring
      _ ≤ |a.count * a.average.toInt - S| + _ := abs_sub _ _
      _ ≤ a.count + |a.count * a.average.toInt - S| := by linarith
  unfold Drifts at h ⊢
  show 2 * |((a.count + 1 : ℕ) : ℤ) * (a.push d).average.toInt - (S + d.toInt)| ≤
    ((a.count + 1 : ℕ) : ℤ) * (((a.count + 1 : ℕ) : ℤ) - 1)
  push_cast at hsplit ⊢
  nlinarith

theorem pushAll_drifts (ds : List Int32) {a : LongPeroidAverager} {S : ℤ} (h : a.Drifts S) :
    (a.pushAll ds).Drifts (S + (ds.map Int32.toInt).sum) ∧
      (a.pushAll ds).count = a.count + ds.length := by
  induction ds generalizing a S with
  | nil =>
    rw [List.map_nil, List.sum_nil, add_zero]
    exact ⟨h, rfl⟩
  | cons d ds ih =>
    obtain ⟨hdrifts, hcount⟩ := ih (h.push d)
    rw [List.map_cons, List.sum_cons, ← add_assoc]
    refine ⟨hdrifts, hcount.trans ?_⟩
    show a.count + 1 + ds.length = a.count + (ds.length + 1)
    omega

end Mean

/-! ### The extremes -/

section Extremes

/-- The extremes of the values so far: the least one is one of them, the greatest one or zero is the
greatest. -/
structure Bounds (a : LongPeroidAverager) (ds : List Int32) : Prop where
  count : a.count = ds.length
  min : ds ≠ [] → a.min ∈ ds ∧ ∀ d ∈ ds, a.min ≤ d
  max : (a.max = 0 ∨ a.max ∈ ds) ∧ 0 ≤ a.max ∧ ∀ d ∈ ds, d ≤ a.max

theorem new_bounds : new.Bounds [] := by
  refine ⟨rfl, fun h => absurd rfl h, .inl rfl, by decide, fun d hd => ?_⟩
  cases hd

theorem Bounds.push {a : LongPeroidAverager} {ds : List Int32} (h : a.Bounds ds) (d : Int32) :
    (a.push d).Bounds (ds ++ [d]) := by
  refine ⟨?_, fun _ => ?_, ?_⟩
  · show a.count + 1 = (ds ++ [d]).length
    rw [h.count, List.length_append, List.length_singleton]
  · rw [List.forall_mem_append, List.forall_mem_singleton, List.mem_append, List.mem_singleton]
    have hpush : (a.push d).min = if a.count > 0 then (if d < a.min then d else a.min) else d := rfl
    rw [hpush]
    by_cases hcount : a.count > 0
    · rw [h.count] at hcount
      obtain ⟨hin, hleast⟩ := h.min (List.ne_nil_of_length_pos hcount)
      rw [if_pos (h.count ▸ hcount)]
      split
      · rename_i hlt
        exact ⟨.inr rfl,
          fun e he => Int32.le_trans (Int32.le_of_lt hlt) (hleast e he), Int32.le_refl d⟩
      · rename_i hle
        exact ⟨.inl hin, hleast, Int32.not_lt.mp hle⟩
    · have hnil : ds = [] := List.eq_nil_of_length_eq_zero (by rw [← h.count]; omega)
      subst hnil
      rw [if_neg hcount]
      exact ⟨.inr rfl, List.forall_mem_nil _, Int32.le_refl d⟩
  · obtain ⟨hmem, hpos, hmax⟩ := h.max
    rw [List.forall_mem_append, List.forall_mem_singleton, List.mem_append, List.mem_singleton]
    have hpush : (a.push d).max = if d > a.max then d else a.max := rfl
    rw [hpush]
    split
    · rename_i hlt
      exact ⟨.inr (.inr rfl), Int32.le_trans hpos (Int32.le_of_lt hlt),
        fun e he => Int32.le_trans (hmax e he) (Int32.le_of_lt hlt), Int32.le_refl d⟩
    · rename_i hle
      exact ⟨hmem.imp_right .inl, hpos, hmax, Int32.not_lt.mp hle⟩

theorem Bounds.pushAll {a : LongPeroidAverager} {ds : List Int32} (h : a.Bounds ds)
    (es : List Int32) : (a.pushAll es).Bounds (ds ++ es) := by
  induction es generalizing a ds with
  | nil => rwa [List.append_nil]
  | cons e es ih =>
    have hnext := ih (h.push e)
    rwa [List.append_assoc, List.singleton_append] at hnext

end Extremes

/-- After any values pushed since a `clear`: the mean is at most one half off for each value but the
first, the least value is right, and so is the greatest one of values that are not negative. -/
theorem average_within (a : LongPeroidAverager) (ds : List Int32) (hne : ds ≠ []) :
    |((a.clear.pushAll ds).average.toInt : ℚ) - mean ds| ≤ ((ds.length : ℚ) - 1) / 2 ∧
      ((a.clear.pushAll ds).min ∈ ds ∧ ∀ d ∈ ds, (a.clear.pushAll ds).min ≤ d) ∧
      ((∀ d ∈ ds, 0 ≤ d) →
        (a.clear.pushAll ds).max ∈ ds ∧ ∀ d ∈ ds, d ≤ (a.clear.pushAll ds).max) := by
  have hbounds : (a.clear.pushAll ds).Bounds ds := new_bounds.pushAll ds
  have hstart : a.clear.Drifts 0 := by
    show 2 * |((0 : ℕ) : ℤ) * _ - 0| ≤ ((0 : ℕ) : ℤ) * _
    simp
  obtain ⟨hdrifts, hcount⟩ := pushAll_drifts ds hstart
  refine ⟨?_, hbounds.min hne, fun hnonneg => ?_⟩
  · have hlen : (0 : ℚ) < ds.length := by exact_mod_cast List.length_pos_of_ne_nil hne
    have hcount : (a.clear.pushAll ds).count = ds.length := hbounds.count
    rw [Drifts, hcount, zero_add] at hdrifts
    have hcast : 2 * |(ds.length : ℚ) * ((a.clear.pushAll ds).average.toInt : ℚ) -
        ((ds.map Int32.toInt).sum : ℚ)| ≤ ds.length * (ds.length - 1) := by exact_mod_cast hdrifts
    have hmean : ((a.clear.pushAll ds).average.toInt : ℚ) - mean ds =
        (ds.length * ((a.clear.pushAll ds).average.toInt : ℚ) - ((ds.map Int32.toInt).sum : ℚ)) /
          ds.length := by
      rw [mean]
      field_simp
    rw [hmean, abs_div, abs_of_pos hlen, div_le_iff₀ hlen]
    linarith
  · obtain ⟨hmem, -, hmax⟩ := hbounds.max
    refine ⟨hmem.elim (fun hzero => ?_) id, hmax⟩
    -- then all values are zero
    obtain ⟨d, hd⟩ := List.exists_mem_of_ne_nil ds hne
    have hle := hmax d hd
    rw [hzero] at hle ⊢
    rwa [Int32.le_antisymm hle (hnonneg d hd)] at hd

/-- Two values, and their mean half of one off. -/
theorem seven_and_eight_average :
    |(((LongPeroidAverager.new.clear.pushAll [7, 8]).average.toInt : ℚ)) - mean [7, 8]| ≤
      ((([7, 8] : List Int32).length : ℚ) - 1) / 2 :=
  (average_within new [7, 8] (by decide)).1

/-- The mean of 0, 1 and 2 is reported as 0. -/
theorem rising_values_average_zero :
    ¬|((LongPeroidAverager.new.clear.pushAll [0, 1, 2]).average.toInt : ℚ) - mean [0, 1, 2]| <
      1 := by
  decide +kernel

section Staircase

/-- The values 0, 1, 2, … . -/
def staircase (n : ℕ) : List Int32 := (List.range n).map fun i => Int32.ofNat i

theorem staircase_succ (n : ℕ) : staircase (n + 1) = staircase n ++ [Int32.ofNat n] := by
  rw [staircase, List.range_succ, List.map_append]
  rfl

/-- A value less than the count does not move a mean of zero. -/
theorem nextAverage_zero {n : ℕ} (hn : n < 2 ^ 31) : nextAverage (n + 1) 0 (Int32.ofNat n) = 0 := by
  have hpos : (0 : ℚ) < ((n + 1 : ℕ) : ℚ) := by positivity
  have hle : (0 : ℚ) ≤ (n : ℚ) / ((n + 1 : ℕ) : ℚ) := by positivity
  have hlt : (n : ℚ) / ((n + 1 : ℕ) : ℚ) < 1 := by
    rw [div_lt_one hpos]
    exact_mod_cast Nat.lt_succ_self n
  have htrunc : trunc ((n : ℚ) / ((n + 1 : ℕ) : ℚ)) = 0 := by
    rw [trunc, if_pos hle, Int.floor_eq_zero_iff]
    exact ⟨hle, hlt⟩
  have hvalue : ((Int32.ofNat n).toInt : ℚ) = n := by
    rw [Int32.toInt_ofNat_of_lt hn]
    rfl
  have hzero : (((0 : Int32).toInt : ℤ) : ℚ) = 0 := rfl
  rw [nextAverage, hvalue, hzero, mul_zero, zero_add, htrunc]
  rfl

theorem staircase_drifts {n : ℕ} (hn : n ≤ 2 ^ 31) :
    (new.pushAll (staircase n)).count = n ∧ (new.pushAll (staircase n)).average = 0 ∧
      2 * ((staircase n).map Int32.toInt).sum = n * (n - 1) := by
  induction n with
  | zero => exact ⟨rfl, rfl, rfl⟩
  | succ n ih =>
    obtain ⟨hcount, haverage, hsum⟩ := ih (by omega)
    have hpush : new.pushAll (staircase (n + 1)) =
        (new.pushAll (staircase n)).push (Int32.ofNat n) := by
      rw [staircase_succ, pushAll, List.foldl_append]
      rfl
    refine ⟨?_, ?_, ?_⟩
    · rw [hpush]
      show (new.pushAll (staircase n)).count + 1 = n + 1
      rw [hcount]
    · rw [hpush]
      show nextAverage ((new.pushAll (staircase n)).count + 1)
        (new.pushAll (staircase n)).average _ = 0
      rw [hcount, haverage]
      exact nextAverage_zero (by omega)
    · rw [staircase_succ, List.map_append, List.sum_append, List.map_singleton, List.sum_singleton,
        Int32.toInt_ofNat_of_lt (by omega), mul_add, hsum]
      push_cast
      ring

/-- The mean of a staircase is reported as zero, however long it is. -/
theorem staircase_average {n : ℕ} (hpos : 0 < n) (hn : n ≤ 2 ^ 31) :
    (new.pushAll (staircase n)).average = 0 ∧ mean (staircase n) = ((n : ℚ) - 1) / 2 := by
  obtain ⟨-, haverage, hsum⟩ := staircase_drifts hn
  have hn' : (0 : ℚ) < n := by exact_mod_cast hpos
  have hlen : (staircase n).length = n := by simp [staircase]
  have hsum : 2 * (((staircase n).map Int32.toInt).sum : ℚ) = n * (n - 1) := by exact_mod_cast hsum
  refine ⟨haverage, ?_⟩
  rw [mean, hlen, div_eq_div_iff hn'.ne' two_ne_zero]
  linarith

end Staircase

end LongPeroidAverager

end Edm
