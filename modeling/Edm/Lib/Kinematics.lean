import Mathlib.Algebra.Order.BigOperators.Group.List
import Mathlib.Algebra.Order.Field.Basic
import Mathlib.Tactic.FieldSimp
import Mathlib.Tactic.Linarith
import Mathlib.Tactic.Ring

/-!
# Motion in cycles

The running totals of a list of jerks are the accelerations of the cycles, those of the accelerations the
speeds, and the speeds add up to the way gone. A ramp is `n` cycles of a jerk, `m` without, and `n` of the
opposite one: it starts and ends without acceleration, stays between its two speeds and covers their
mean over its cycles.
-/

namespace Kinematics

section Totals

variable {K : Type*} [AddCommMonoid K]

/-- The running totals of `l` that start from `a`. -/
def totals (a : K) : List K → List K
  | [] => []
  | d :: l => (a + d) :: totals (a + d) l

@[simp] theorem totals_nil (a : K) : totals a [] = [] := rfl

@[simp] theorem totals_cons (a d : K) (l : List K) :
    totals a (d :: l) = (a + d) :: totals (a + d) l := rfl

@[simp] theorem length_totals (a : K) (l : List K) : (totals a l).length = l.length := by
  induction l generalizing a with
  | nil => rfl
  | cons d l ih => simp [ih]

theorem totals_append (a : K) (l₁ l₂ : List K) :
    totals a (l₁ ++ l₂) = totals a l₁ ++ totals (a + l₁.sum) l₂ := by
  induction l₁ generalizing a with
  | nil => simp
  | cons d l₁ ih => simp [ih, add_assoc]

/-- A total is what was added up so far. -/
theorem getElem_totals (a : K) (l : List K) (i : ℕ) (h : i < (totals a l).length) :
    (totals a l)[i] = a + (l.take (i + 1)).sum := by
  induction l generalizing a i with
  | nil => simp at h
  | cons d l ih =>
    cases i with
    | zero => simp
    | succ i => simp [ih, add_assoc]

theorem mem_totals_replicate {a d x : K} {n : ℕ} (h : x ∈ totals a (List.replicate n d)) :
    ∃ i, 1 ≤ i ∧ i ≤ n ∧ x = a + i • d := by
  obtain ⟨i, hi, rfl⟩ := List.mem_iff_getElem.mp h
  have hn : i < n := by simpa using hi
  refine ⟨i + 1, by omega, hn, ?_⟩
  rw [getElem_totals, List.take_replicate, List.sum_replicate, min_eq_left (by omega)]

end Totals

/-- Totals seen from above. -/
theorem totals_sub {K : Type*} [AddCommGroup K] (w a : K) (l : List K) :
    totals (w - a) (l.map (-·)) = (totals a l).map (w - ·) := by
  induction l generalizing a with
  | nil => rfl
  | cons d l ih =>
    have hd : w - a + -d = w - (a + d) := by rw [← sub_eq_add_neg, sub_sub]
    rw [List.map_cons, totals_cons, totals_cons, List.map_cons, hd, ih]

section Ordered

variable {K : Type*} [AddCommGroup K] [LinearOrder K] [IsOrderedAddMonoid K] {a x : K} {l : List K}

/-- Additions that are not negative do not lead below the start. -/
theorem le_of_mem_totals (h : ∀ d ∈ l, 0 ≤ d) (hx : x ∈ totals a l) : a ≤ x := by
  induction l generalizing a with
  | nil => simp at hx
  | cons d l ih =>
    have hd : a ≤ a + d := le_add_of_nonneg_right (h d List.mem_cons_self)
    rcases List.mem_cons.mp hx with rfl | hx
    · exact hd
    · exact hd.trans (ih (fun e he => h e (List.mem_cons_of_mem d he)) hx)

/-- Additions that are not positive do not lead below the end. -/
theorem end_le_of_mem_totals (h : ∀ d ∈ l, d ≤ 0) (hx : x ∈ totals a l) : a + l.sum ≤ x := by
  induction l generalizing a with
  | nil => simp at hx
  | cons d l ih =>
    have hl : ∀ e ∈ l, e ≤ 0 := fun e he => h e (List.mem_cons_of_mem d he)
    rw [List.sum_cons, ← add_assoc]
    rcases List.mem_cons.mp hx with rfl | hx
    · have hsum : l.sum ≤ 0 := (List.sum_le_card_nsmul l 0 hl).trans_eq (nsmul_zero _)
      exact add_le_of_nonpos_right hsum
    · exact ih hl hx

end Ordered

section Ramp

variable {K : Type*} [Field K]

@[simp] theorem totals_replicate_zero (a : K) (n : ℕ) :
    totals a (List.replicate n 0) = List.replicate n a := by
  induction n with
  | zero => rfl
  | succ n ih => simp [List.replicate_succ, ih]

/-- `n` cycles of the jerk `j`, `m` without and `n` of the opposite one. -/
def ramp (n m : ℕ) (j : K) : List K :=
  List.replicate n j ++ (List.replicate m 0 ++ List.replicate n (-j))

@[simp] theorem length_ramp (n m : ℕ) (j : K) : (ramp n m j).length = n + (m + n) := by
  simp [ramp]

@[simp] theorem sum_ramp (n m : ℕ) (j : K) : (ramp n m j).sum = 0 := by
  simp [ramp]

/-- The accelerations of a ramp in its three parts. -/
theorem totals_ramp (n m : ℕ) (j : K) :
    totals 0 (ramp n m j) =
      totals 0 (List.replicate n j) ++
        (List.replicate m (n * j) ++ totals (n * j) (List.replicate n (-j))) := by
  simp [ramp, totals_append]

theorem map_neg_ramp (n m : ℕ) (j : K) : (ramp n m j).map (-·) = ramp n m (-j) := by
  simp [ramp]

/-- A ramp sums up its jerks one by one. -/
theorem sum_take_succ_ramp (n m c : ℕ) (j : K) :
    ((ramp n m j).take (c + 1)).sum = ((ramp n m j).take c).sum +
      if c < n then j else if c < n + m then 0 else if c < n + m + n then -j else 0 := by
  have hget : (ramp n m j)[c]?.getD 0 =
      if c < n then j else if c < n + m then 0 else if c < n + m + n then -j else 0 := by
    simp only [ramp, List.getElem?_append, List.length_replicate, List.getElem?_replicate]
    split_ifs <;> first | rfl | omega
  rw [← hget, List.take_add_one, List.sum_append]
  cases (ramp n m j)[c]? <;> simp

theorem sum_take_ramp_of_le {n m c : ℕ} {j : K} (h : n + m + n ≤ c) :
    ((ramp n m j).take c).sum = 0 := by
  rw [List.take_of_length_le (by rw [length_ramp]; omega), sum_ramp]

variable [CharZero K]

/-- The sum of the totals of equal additions. -/
theorem sum_totals_replicate (a d : K) (n : ℕ) :
    (totals a (List.replicate n d)).sum = n * a + d * (n * (n + 1) / 2) := by
  induction n generalizing a with
  | zero => simp
  | succ n ih =>
    rw [List.replicate_succ, totals_cons, List.sum_cons, ih]
    push_cast
    ring

/-- The same once more. -/
theorem sum_totals_totals_replicate (v a d : K) (n : ℕ) :
    (totals v (totals a (List.replicate n d))).sum =
      n * v + a * (n * (n + 1) / 2) + d * (n * (n + 1) * (n + 2) / 6) := by
  induction n generalizing a v with
  | zero => simp
  | succ n ih =>
    rw [List.replicate_succ, totals_cons, totals_cons, List.sum_cons, ih]
    push_cast
    ring

/-- The change of speed of a ramp. -/
theorem sum_totals_ramp (n m : ℕ) (j : K) :
    (totals 0 (ramp n m j)).sum = j * (n * (n + m)) := by
  rw [totals_ramp, List.sum_append, List.sum_append, sum_totals_replicate, sum_totals_replicate,
    List.sum_replicate, nsmul_eq_mul]
  ring

/-- The way of a ramp: the mean of its speeds over its cycles, and the change once. -/
theorem sum_speeds_ramp (v j : K) (n m : ℕ) :
    (totals v (totals 0 (ramp n m j))).sum =
      (v + (v + j * (n * (n + m)))) * (n + 1 / 2 * m) + j * (n * (n + m)) := by
  rw [totals_ramp, totals_append, totals_append, List.sum_append, List.sum_append,
    sum_totals_totals_replicate, sum_totals_totals_replicate, sum_totals_replicate,
    sum_totals_replicate, List.sum_replicate, nsmul_eq_mul]
  ring

variable [LinearOrder K] [IsStrictOrderedRing K] {n m : ℕ} {j x v : K}

/-- An acceleration of a ramp is a multiple of its jerk that is not negative. -/
theorem exists_of_mem_totals_ramp (hx : x ∈ totals 0 (ramp n m j)) : ∃ t, 0 ≤ t ∧ x = t * j := by
  rw [totals_ramp, List.mem_append, List.mem_append] at hx
  rcases hx with hx | hx | hx
  · obtain ⟨i, -, -, rfl⟩ := mem_totals_replicate hx
    exact ⟨i, Nat.cast_nonneg i, by rw [zero_add, nsmul_eq_mul]⟩
  · exact ⟨n, Nat.cast_nonneg n, List.eq_of_mem_replicate hx⟩
  · obtain ⟨i, -, hi, rfl⟩ := mem_totals_replicate hx
    refine ⟨n - i, sub_nonneg.mpr (Nat.cast_le.mpr hi), ?_⟩
    rw [nsmul_eq_mul]
    ring

/-- The speeds of a ramp between two speeds that are not negative. -/
theorem speeds_ramp_nonneg (hv : 0 ≤ v) (hw : 0 ≤ v + j * (n * (n + m)))
    (hx : x ∈ totals v (totals 0 (ramp n m j))) : 0 ≤ x := by
  rcases le_total 0 j with hj | hj
  · refine hv.trans (le_of_mem_totals (fun a ha => ?_) hx)
    obtain ⟨t, ht, rfl⟩ := exists_of_mem_totals_ramp ha
    exact mul_nonneg ht hj
  · rw [← sum_totals_ramp] at hw
    refine hw.trans (end_le_of_mem_totals (fun a ha => ?_) hx)
    obtain ⟨t, ht, rfl⟩ := exists_of_mem_totals_ramp ha
    exact mul_nonpos_of_nonneg_of_nonpos ht hj

/-- The speeds of a ramp between two speeds that are not above `w`. -/
theorem speeds_ramp_le {w : K} (hv : v ≤ w) (hw : v + j * (n * (n + m)) ≤ w)
    (hx : x ∈ totals v (totals 0 (ramp n m j))) : x ≤ w := by
  have hmirror : totals (w - v) (totals 0 (ramp n m (-j))) =
      (totals v (totals 0 (ramp n m j))).map (w - ·) := by
    have haccs := totals_sub 0 0 (ramp n m j)
    simp only [map_neg_ramp, sub_zero, zero_sub] at haccs
    rw [haccs, totals_sub]
  have hmem : w - x ∈ totals (w - v) (totals 0 (ramp n m (-j))) := by
    rw [hmirror]
    exact List.mem_map_of_mem hx
  have hnonneg := speeds_ramp_nonneg (sub_nonneg.mpr hv) (by linarith) hmem
  linarith

/-- No acceleration of a ramp is beyond that of its `n` jerk cycles. -/
theorem abs_sum_take_ramp_le (n m c : ℕ) (j : K) : |((ramp n m j).take c).sum| ≤ n * |j| := by
  have hsum : ((ramp n m j).take c).sum = ((min c n : ℕ) - (min (c - n - m) n : ℕ)) * j := by
    simp only [ramp, List.take_append, List.take_replicate, List.sum_append, List.sum_replicate,
      List.length_replicate, nsmul_eq_mul]
    ring
  have hle : ((min (c - n - m) n : ℕ) : K) ≤ (min c n : ℕ) := by
    exact_mod_cast (by omega : min (c - n - m) n ≤ min c n)
  have hn : ((min c n : ℕ) : K) ≤ n := by exact_mod_cast min_le_right c n
  have h0 : (0 : K) ≤ (min (c - n - m) n : ℕ) := Nat.cast_nonneg _
  rw [hsum, abs_mul, abs_of_nonneg (sub_nonneg.mpr hle)]
  exact mul_le_mul_of_nonneg_right (by linarith) (abs_nonneg j)

end Ramp

end Kinematics
