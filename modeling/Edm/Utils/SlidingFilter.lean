import Edm.Lib.Ring
import Edm.Motion.Axis

/-!
# The sliding filter

`SlidingFilter` keeps the sum and the sum of the squares of the last values of a ring: a value that is
pushed is added, the one it replaces is taken off again. The values are `int32_t`, the sums
`int64_t`, and a square is multiplied out in 32 bits before it is widened: the sum of the squares is
exact as long as no square in the window exceeds 32 bits (`sums_exact_iff`). Overflow wraps, as it
does on the machine.
-/

namespace Edm

structure SlidingFilter where
  data : List Int32
  overflowedLoopback : Bool
  cursor : ℕ
  sum : Int64
  sqSum : Int64
  deriving DecidableEq

namespace SlidingFilter

/-- A size of zero is taken as one. -/
def new (size : ℕ) : SlidingFilter :=
  let size := if size = 0 then 1 else size
  ⟨List.replicate size 0, false, 0, 0, 0⟩

def clear (f : SlidingFilter) : SlidingFilter :=
  { f with overflowedLoopback := false, cursor := 0, sum := 0, sqSum := 0 }

def pushBack (f : SlidingFilter) (newValue : Int32) : SlidingFilter :=
  let oldValue := if f.overflowedLoopback then f.data[f.cursor]?.getD 0 else 0
  let data := f.data.set f.cursor newValue
  let cursor := (f.cursor + 1) % data.length
  let newValue2 := (newValue * newValue).toInt64
  let oldValue2 := (oldValue * oldValue).toInt64
  { data := data
    overflowedLoopback := f.overflowedLoopback || cursor = 0
    cursor := cursor
    sum := f.sum + newValue.toInt64 - oldValue.toInt64
    sqSum := f.sqSum + newValue2 - oldValue2 }

/-- `std::vector::resize`. -/
def resizeData (data : List Int32) (size : ℕ) : List Int32 :=
  data.take size ++ List.replicate (size - data.length) 0

def resize (f : SlidingFilter) (size : ℕ) : SlidingFilter :=
  if size = f.data.length ∨ size = 0 then f
  else { f.clear with data := resizeData f.data size }

section Statistics

variable {K : Type} [Field K]

def average (f : SlidingFilter) : K := (f.sum.toInt : K) / f.data.length

/-- A variance that is negative is cut off. -/
def getStderr [LinearOrder K] [RealFns K] (f : SlidingFilter) : K :=
  let sqAvg := (f.sqSum.toInt : K) / f.data.length
  let avg := (f.sum.toInt : K) / f.data.length
  let d2 := sqAvg - avg * avg
  sqrt (if d2 < 0 then 0 else d2)

end Statistics

inductive Op where
  | pushBack (newValue : Int32)
  | clear
  | resize (size : ℕ)

def step (f : SlidingFilter) : Op → SlidingFilter
  | .pushBack newValue => f.pushBack newValue
  | .clear => f.clear
  | .resize size => f.resize size

/-- What the filter is to average: the values since it was emptied, newest first, and how many of them. -/
structure Pushes where
  window : ℕ
  hist : List Int32

/-- The values in the window. -/
def Pushes.last (p : Pushes) : List ℤ := (p.hist.take p.window).map Int32.toInt

/-- A resize to zero or to the size the window has is ignored, any other one empties the filter. -/
def Pushes.step (p : Pushes) : Op → Pushes
  | .pushBack newValue => { p with hist := newValue :: p.hist }
  | .clear => { p with hist := [] }
  | .resize size => if size = p.window ∨ size = 0 then p else ⟨size, []⟩

/-- A square as it is multiplied out. -/
def sq32 (v : ℤ) : ℤ := (v * v).bmod (2 ^ 32)

/-- The filter `f` after the values `p`. -/
structure Sums (f : SlidingFilter) (p : Pushes) : Prop where
  window : f.data.length = p.window
  window_pos : 0 < p.window
  cursor : f.cursor = p.hist.length % p.window
  overflowed : f.overflowedLoopback = true ↔ p.window ≤ p.hist.length
  holds : Ring.Holds p.window (fun i => f.data[i]?) p.hist
  sum : f.sum.toInt = p.last.sum.bmod (2 ^ 64)
  sqSum : f.sqSum.toInt = ((p.last.map sq32).sum).bmod (2 ^ 64)

section Sums

variable {f : SlidingFilter} {p : Pushes}

/-- An empty filter, whatever its data are. -/
theorem sums_empty (data : List Int32) (hpos : 0 < data.length) :
    Sums ⟨data, false, 0, 0, 0⟩ ⟨data.length, []⟩ := by
  have hnone : Pushes.last ⟨data.length, []⟩ = [] := by simp [Pushes.last]
  refine ⟨rfl, hpos, (Nat.zero_mod _).symm, ?_, Ring.holds_nil, ?_, ?_⟩
  · exact ⟨fun h => absurd h Bool.false_ne_true, fun hle => absurd hpos (not_lt.mpr hle)⟩
  · rw [hnone]
    rfl
  · rw [hnone]
    rfl

theorem sums_new (size : ℕ) : Sums (new size) ⟨if size = 0 then 1 else size, []⟩ := by
  have hempty : Sums _ _ := sums_empty (List.replicate (if size = 0 then 1 else size) 0)
    (by rw [List.length_replicate]; split <;> omega)
  rw [List.length_replicate] at hempty
  exact hempty

theorem Sums.clear (h : Sums f p) : Sums f.clear { p with hist := [] } := by
  have hempty := sums_empty f.data (h.window ▸ h.window_pos)
  rw [h.window] at hempty
  exact hempty

theorem Sums.resize (h : Sums f p) (size : ℕ) : Sums (f.resize size) (p.step (.resize size)) := by
  unfold SlidingFilter.resize
  simp only [Pushes.step, h.window]
  split_ifs with hsame
  · exact h
  · have hlen : (resizeData f.data size).length = size := by
      simp only [resizeData, List.length_append, List.length_take, List.length_replicate]
      omega
    have hempty := sums_empty (resizeData f.data size) (by omega)
    rw [hlen] at hempty
    exact hempty

/-- What a push does to a sum over the window: the new value is added and the old one, if there is one,
taken off. -/
theorem sum_last_push (g : ℤ → ℤ) (p : Pushes) (v : Int32) (hpos : 0 < p.window) :
    ((Pushes.last { p with hist := v :: p.hist }).map g).sum =
      (p.last.map g).sum + g v.toInt -
        if p.window ≤ p.hist.length then ((p.hist[p.window - 1]?.map fun old => g old.toInt).getD 0)
        else 0 := by
  unfold Pushes.last
  split
  · rename_i hfull
    obtain ⟨old, hold, hnew, hlast⟩ := Ring.take_cons_of_le v hpos hfull
    rw [hnew, hlast, hold]
    simp
    ring
  · rename_i hfull
    rw [Ring.take_cons_of_lt v (not_le.mp hfull)]
    simp
    ring

/-- The value a push takes off. -/
def oldValue (f : SlidingFilter) : Int32 :=
  if f.overflowedLoopback then f.data[f.cursor]?.getD 0 else 0

theorem Sums.oldValue (h : Sums f p) (g : ℤ → ℤ) (hg : g 0 = 0) :
    g f.oldValue.toInt =
      if p.window ≤ p.hist.length then ((p.hist[p.window - 1]?.map fun old => g old.toInt).getD 0)
      else 0 := by
  unfold SlidingFilter.oldValue
  by_cases hfull : p.window ≤ p.hist.length
  · have hread := h.holds.oldest h.window_pos hfull
    rw [if_pos (h.overflowed.mpr hfull), if_pos hfull, ← hread, h.cursor]
    cases f.data[p.hist.length % p.window]? with
    | none => exact hg
    | some old => rfl
  · rw [if_neg (mt h.overflowed.mp hfull), if_neg hfull]
    exact hg

theorem Sums.pushBack (h : Sums f p) (v : Int32) :
    Sums (f.pushBack v) { p with hist := v :: p.hist } := by
  have hlt : f.cursor < f.data.length := by
    rw [h.cursor, h.window]
    exact Nat.mod_lt _ h.window_pos
  have hcursor : (f.cursor + 1) % (f.data.set f.cursor v).length =
      (v :: p.hist).length % p.window := by
    rw [List.length_set, h.window, h.cursor, Nat.mod_add_mod]
    rfl
  refine ⟨?_, h.window_pos, hcursor, ?_, ?_, ?_, ?_⟩
  · exact List.length_set.trans h.window
  · -- the window fills up where the cursor comes round for the first time
    show (f.overflowedLoopback || decide ((f.cursor + 1) % (f.data.set f.cursor v).length = 0)) = true ↔
      p.window ≤ (v :: p.hist).length
    rw [hcursor, Bool.or_eq_true, h.overflowed, decide_eq_true_iff, List.length_cons]
    constructor
    · rintro (hle | hzero)
      · omega
      · exact Nat.le_of_dvd (by omega) (Nat.dvd_of_mod_eq_zero hzero)
    · intro hle
      rcases Nat.lt_or_ge p.hist.length p.window with hlt | hge
      · right
        rw [show p.hist.length + 1 = p.window by omega, Nat.mod_self]
      · exact .inl hge
  · have hread := Ring.read_set hlt v
    show Ring.Holds p.window (fun i => (f.data.set f.cursor v)[i]?) (v :: p.hist)
    simp only [h.cursor] at hread ⊢
    rw [hread]
    exact h.holds.push v
  · have hsum := sum_last_push id p v h.window_pos
    rw [← h.oldValue id rfl] at hsum
    simp only [List.map_id, id] at hsum
    show (f.sum + v.toInt64 - f.oldValue.toInt64).toInt = _
    rw [Int64.toInt_sub, Int64.toInt_add, Int32.toInt_toInt64, Int32.toInt_toInt64, h.sum,
      Int.bmod_add_bmod, Int.bmod_sub_bmod, hsum]
  · have hsum := sum_last_push sq32 p v h.window_pos
    rw [← h.oldValue sq32 rfl] at hsum
    show (f.sqSum + (v * v).toInt64 - (f.oldValue * f.oldValue).toInt64).toInt = _
    rw [Int64.toInt_sub, Int64.toInt_add, Int32.toInt_toInt64, Int32.toInt_toInt64, h.sqSum,
      Int.bmod_add_bmod, Int.bmod_sub_bmod, hsum, Int32.toInt_mul, Int32.toInt_mul]
    rfl

theorem Sums.step (h : Sums f p) (op : Op) : Sums (f.step op) (p.step op) := by
  cases op with
  | pushBack v => exact h.pushBack v
  | clear => exact h.clear
  | resize size => exact h.resize size

theorem Sums.run (h : Sums f p) (ops : List Op) :
    Sums (ops.foldl SlidingFilter.step f) (ops.foldl Pushes.step p) := by
  induction ops generalizing f p with
  | nil => exact h
  | cons op ops ih => exact ih (h.step op)

end Sums

/-! ### Exact sums -/

section Exact

/-- A square in 32 bits: never more than the square, and off by a multiple of `2 ^ 32`. -/
theorem sq32_le (v : ℤ) : sq32 v ≤ v * v ∧ -(v * v) ≤ sq32 v := by
  have hlow := Int.le_bmod (x := v * v) (m := 2 ^ 32) (by decide)
  have hhigh := Int.bmod_lt (x := v * v) (m := 2 ^ 32) (by decide)
  have hdiv := Int.bdiv_add_bmod (v * v) (2 ^ 32)
  have hnonneg := mul_self_nonneg v
  unfold sq32
  norm_num at *
  omega

theorem sq32_of_lt {v : ℤ} (h : v * v < 2 ^ 31) : sq32 v = v * v := by
  have hnonneg := mul_self_nonneg v
  exact Int.bmod_eq_of_le (by norm_num; omega) (by norm_num; omega)

theorem sq32_ne {v : ℤ} (h : ¬v * v < 2 ^ 31) : sq32 v < v * v := by
  have hhigh := Int.bmod_lt (x := v * v) (m := 2 ^ 32) (by decide)
  unfold sq32
  norm_num at *
  omega

/-- The squares of the values. -/
def squares (l : List ℤ) : List ℤ := l.map fun v => v * v

theorem sum_sq32_bounds (l : List ℤ) :
    (l.map sq32).sum ≤ (squares l).sum ∧ -(squares l).sum ≤ (l.map sq32).sum := by
  induction l with
  | nil => simp [squares]
  | cons v l ih =>
    have hv := sq32_le v
    simp only [squares, List.map_cons, List.sum_cons] at ih ⊢
    omega

/-- The 32-bit squares add up to the squares only if each of them is one. -/
theorem sum_sq32_eq_iff (l : List ℤ) :
    (l.map sq32).sum = (squares l).sum ↔ ∀ v ∈ l, v * v < 2 ^ 31 := by
  induction l with
  | nil => simp [squares]
  | cons v l ih =>
    have hle := (sum_sq32_bounds l).1
    have hv := (sq32_le v).1
    simp only [squares, List.map_cons, List.sum_cons, List.mem_cons, forall_eq_or_imp] at ih hle ⊢
    rw [← ih]
    constructor
    · intro heq
      refine ⟨?_, by omega⟩
      by_contra hbig
      have := sq32_ne hbig
      omega
    · rintro ⟨hsmall, heq⟩
      rw [sq32_of_lt hsmall, heq]

/-- The sum of the squares in 64 bits is exact if no square exceeds 32 bits and the sum is below
`2 ^ 63`, and only then. -/
theorem bmod_sum_sq32_eq_iff (l : List ℤ) :
    ((l.map sq32).sum).bmod (2 ^ 64) = (squares l).sum ↔
      (∀ v ∈ l, v * v < 2 ^ 31) ∧ (squares l).sum < 2 ^ 63 := by
  rw [← sum_sq32_eq_iff]
  have hle := sum_sq32_bounds l
  have hlow := Int.le_bmod (x := (l.map sq32).sum) (m := 2 ^ 64) (by decide)
  have hhigh := Int.bmod_lt (x := (l.map sq32).sum) (m := 2 ^ 64) (by decide)
  have hdiv := Int.bdiv_add_bmod (l.map sq32).sum (2 ^ 64)
  norm_num at *
  omega

theorem bmod_eq_iff (s : ℤ) : s.bmod (2 ^ 64) = s ↔ -2 ^ 63 ≤ s ∧ s < 2 ^ 63 := by
  have hlow := Int.le_bmod (x := s) (m := 2 ^ 64) (by decide)
  have hhigh := Int.bmod_lt (x := s) (m := 2 ^ 64) (by decide)
  have hdiv := Int.bdiv_add_bmod s (2 ^ 64)
  norm_num at *
  omega

end Exact

/-! ### Mean and variance -/

section Statistics

variable {K : Type} [Field K]

def mean (l : List ℤ) : K := (l.sum : K) / l.length

/-- The variance of the population. -/
def variance (l : List ℤ) : K := (l.map fun v : ℤ => ((v : K) - mean l) ^ 2).sum / l.length

theorem sum_sq_sub (l : List ℤ) (m : K) :
    (l.map fun v : ℤ => ((v : K) - m) ^ 2).sum =
      ((squares l).sum : K) - 2 * m * (l.sum : K) + l.length * m ^ 2 := by
  induction l with
  | nil => simp [squares]
  | cons v l ih =>
    simp only [squares, List.map_cons, List.sum_cons, List.length_cons] at ih ⊢
    rw [ih]
    push_cast
    ring

/-- The variance is the mean of the squares less the square of the mean. -/
theorem variance_eq [CharZero K] {l : List ℤ} (h : l ≠ []) :
    (variance l : K) = ((squares l).sum : K) / l.length - mean l * mean l := by
  have hlen : (l.length : K) ≠ 0 := by
    exact_mod_cast (List.length_pos_iff.mpr h).ne'
  unfold variance
  rw [sum_sq_sub, mean]
  field_simp
  ring

theorem variance_nonneg [LinearOrder K] [IsStrictOrderedRing K] (l : List ℤ) :
    (0 : K) ≤ variance l := by
  refine div_nonneg (List.sum_nonneg fun x hx => ?_) (Nat.cast_nonneg _)
  obtain ⟨v, -, rfl⟩ := List.mem_map.mp hx
  exact sq_nonneg _

variable [LinearOrder K] [IsStrictOrderedRing K] [RealFns K] {f : SlidingFilter} {p : Pushes}

/-- What the filter reports of a full window whose sums are exact. -/
theorem Sums.report (h : Sums f p) (hfull : p.window ≤ p.hist.length)
    (hsum : f.sum.toInt = p.last.sum) (hsq : f.sqSum.toInt = (squares p.last).sum) :
    (f.average : K) = mean p.last ∧ (f.getStderr : K) = sqrt (variance p.last) := by
  have hlen : p.last.length = f.data.length := by
    rw [h.window, Pushes.last, List.length_map, List.length_take, min_eq_left hfull]
  have hne : p.last ≠ [] := by
    rw [← List.length_pos_iff, hlen, h.window]
    exact h.window_pos
  have havg : (f.average : K) = mean p.last := by
    rw [average, mean, hsum, hlen]
  refine ⟨havg, ?_⟩
  have hd2 : (f.sqSum.toInt : K) / f.data.length - f.average * f.average = variance p.last := by
    rw [variance_eq hne, hsq, havg, hlen]
  show sqrt (if (f.sqSum.toInt : K) / f.data.length - f.average * f.average < 0 then 0
    else (f.sqSum.toInt : K) / f.data.length - f.average * f.average) = _
  rw [hd2, if_neg (not_lt.mpr (variance_nonneg _))]

/-- After any calls the sums and what is reported of them are exact if and only if no square in the
window exceeds 32 bits and the exact sums fit into 64. -/
theorem sums_exact_iff (size : ℕ) (ops : List Op) :
    let f := ops.foldl step (new size)
    let p := ops.foldl Pushes.step ⟨if size = 0 then 1 else size, []⟩
    (f.sum.toInt = p.last.sum ∧ f.sqSum.toInt = (squares p.last).sum ∧
      (p.window ≤ p.hist.length →
        (f.average : K) = mean p.last ∧ (f.getStderr : K) = sqrt (variance p.last))) ↔
      (∀ v ∈ p.last, v * v < 2 ^ 31) ∧ (squares p.last).sum < 2 ^ 63 ∧
        -2 ^ 63 ≤ p.last.sum ∧ p.last.sum < 2 ^ 63 := by
  intro f p
  have h : Sums f p := (sums_new size).run ops
  rw [h.sum, h.sqSum, bmod_eq_iff, bmod_sum_sq32_eq_iff]
  constructor
  · rintro ⟨hsum, ⟨hsmall, hsq⟩, -⟩
    exact ⟨hsmall, hsq, hsum⟩
  · rintro ⟨hsmall, hsq, hsum⟩
    refine ⟨hsum, ⟨hsmall, hsq⟩, fun hfull => ?_⟩
    exact h.report hfull (h.sum.trans ((bmod_eq_iff _).mpr hsum))
      (h.sqSum.trans ((bmod_sum_sq32_eq_iff _).mpr ⟨hsmall, hsq⟩))

/-- A window of two that went round once. -/
theorem sums_exact_two :
    let f := [Op.pushBack 7, .pushBack 30, .pushBack 10].foldl step (new 2)
    f.sum.toInt = 40 ∧ f.sqSum.toInt = 1000 ∧ (f.getStderr : ℚ) = sqrt (variance [10, 30]) := by
  have h := (sums_exact_iff (K := ℚ) 2 [.pushBack 7, .pushBack 30, .pushBack 10]).mpr
    (by decide +kernel)
  exact ⟨h.1.trans (by decide +kernel), h.2.1.trans (by decide +kernel),
    (h.2.2 (by decide +kernel)).2.trans (by decide +kernel)⟩

/-- The square of 65536 is zero in 32 bits: two values far apart have no deviation. -/
theorem large_values_lost :
    let f := [Op.pushBack 65536, .pushBack (-65536)].foldl step (new 2)
    let p := [Op.pushBack 65536, .pushBack (-65536)].foldl Pushes.step ⟨2, []⟩
    p.last = [-65536, 65536] ∧ f.sqSum.toInt = 0 ∧ (squares p.last).sum = 8589934592 ∧
      (f.getStderr : ℚ) = 0 ∧ (variance p.last : ℚ) = 4294967296 := by
  decide +kernel

end Statistics

end SlidingFilter

end Edm
