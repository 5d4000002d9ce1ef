import Edm.Lib.Ring
import Mathlib.Algebra.Field.Defs
import Mathlib.Data.Bool.Count
import Mathlib.Data.List.Count

/-!
# The sliding counter

`SlidingCounter<size>` counts the valid ones among the last entries: a ring of bits and two counts that
are kept up to date. The bits are not erased when the counter is emptied; a bit counts once the ring
is full, and by then it has been written again (`Counts`).
-/

namespace Edm

/-- `util::SlidingCounter<size>`: how many of the last results were valid. -/
structure SlidingCounter (size : ℕ) where
  bits : ℕ → Bool
  currentWindowSize : ℕ
  cursor : ℕ
  validCount : ℕ
  invalidCount : ℕ

namespace SlidingCounter

variable {size : ℕ}

def new : SlidingCounter size := ⟨fun _ => false, size, 0, 0, 0⟩

/-- The bits keep their old values. -/
def clear (c : SlidingCounter size) : SlidingCounter size :=
  { c with cursor := 0, validCount := 0, invalidCount := 0 }

def resize (c : SlidingCounter size) (newSize : ℕ) : SlidingCounter size :=
  if newSize = c.currentWindowSize ∨ newSize = 0 then c
  else { c with currentWindowSize := min newSize size }.clear

def full (c : SlidingCounter size) : Bool := c.validCount + c.invalidCount ≥ c.currentWindowSize

/-- Write `valid` at the cursor. -/
def setBit (c : SlidingCounter size) (valid : Bool) : ℕ → Bool :=
  fun i => if i = c.cursor then valid else c.bits i

/-- `push_back_valid` and `push_back_invalid` are its two cases. -/
def pushBack (c : SlidingCounter size) (valid : Bool) : SlidingCounter size :=
  let c' :=
    if !c.full then
      if valid then { c with bits := c.setBit true, validCount := c.validCount + 1 }
      else { c with bits := c.setBit false, invalidCount := c.invalidCount + 1 }
    else if valid && !c.bits c.cursor then
      { c with
        bits := c.setBit true
        validCount := c.validCount + 1
        invalidCount := c.invalidCount - 1 }
    else if !valid && c.bits c.cursor then
      { c with
        bits := c.setBit false
        validCount := c.validCount - 1
        invalidCount := c.invalidCount + 1 }
    else c
  { c' with cursor := (c'.cursor + 1) % c'.currentWindowSize }

def validRate {K : Type} [Field K] (c : SlidingCounter size) : K :=
  (c.validCount : K) / (c.currentWindowSize : K)

inductive Op where
  | pushBackValid
  | pushBackInvalid
  | clear
  | resize (newSize : ℕ)

def step (c : SlidingCounter size) : Op → SlidingCounter size
  | .pushBackValid => c.pushBack true
  | .pushBackInvalid => c.pushBack false
  | .clear => c.clear
  | .resize newSize => c.resize newSize

/-- What the counter is to count: the entries since it was emptied, newest first, and how many of them. -/
structure Pushes where
  window : ℕ
  hist : List Bool

/-- The entries in the window. -/
def Pushes.last (p : Pushes) : List Bool := p.hist.take p.window

/-- A resize to zero or to the size the window has is ignored, any other one empties the counter. -/
def Pushes.step (size : ℕ) (p : Pushes) : Op → Pushes
  | .pushBackValid => { p with hist := true :: p.hist }
  | .pushBackInvalid => { p with hist := false :: p.hist }
  | .clear => { p with hist := [] }
  | .resize newSize =>
    if newSize = p.window ∨ newSize = 0 then p else ⟨min newSize size, []⟩

/-- The counter `c` after the entries `p`. -/
structure Counts (c : SlidingCounter size) (p : Pushes) : Prop where
  window : c.currentWindowSize = p.window
  window_pos : 0 < p.window
  window_le : p.window ≤ size
  cursor : c.cursor = p.hist.length % p.window
  holds : Ring.Holds p.window (fun i => some (c.bits i)) p.hist
  valid : c.validCount = p.last.count true
  invalid : c.invalidCount = p.last.count false

section Counts

variable {c : SlidingCounter size} {p : Pushes}

theorem length_last : p.last.count true + p.last.count false = min p.window p.hist.length := by
  rw [List.count_true_add_count_false]
  exact List.length_take

theorem Counts.full_iff (h : c.Counts p) : c.full = true ↔ p.window ≤ p.hist.length := by
  unfold full
  rw [h.valid, h.invalid, h.window, length_last, decide_eq_true_iff]
  omega

theorem Counts.cursor_lt (h : c.Counts p) : c.cursor < c.currentWindowSize := by
  rw [h.cursor, h.window]
  exact Nat.mod_lt _ h.window_pos

/-- An empty counter, whatever its bits are. -/
theorem counts_empty {bits : ℕ → Bool} {w : ℕ} (hw : 0 < w) (hle : w ≤ size) :
    Counts (⟨bits, w, 0, 0, 0⟩ : SlidingCounter size) ⟨w, []⟩ := by
  have hnone : Pushes.last ⟨w, []⟩ = [] := List.take_nil
  refine ⟨rfl, hw, hle, (Nat.zero_mod w).symm, Ring.holds_nil, ?_, ?_⟩
  · rw [hnone]
    rfl
  · rw [hnone]
    rfl

theorem counts_new (hsize : 0 < size) : (new : SlidingCounter size).Counts ⟨size, []⟩ :=
  counts_empty hsize le_rfl

theorem Counts.clear (h : c.Counts p) : c.clear.Counts { p with hist := [] } := by
  have hempty : Counts (⟨c.bits, p.window, 0, 0, 0⟩ : SlidingCounter size) ⟨p.window, []⟩ :=
    counts_empty h.window_pos h.window_le
  rw [← h.window] at hempty ⊢
  exact hempty

theorem Counts.resize (h : c.Counts p) (hsize : 0 < size) (newSize : ℕ) :
    (c.resize newSize).Counts (p.step size (.resize newSize)) := by
  unfold SlidingCounter.resize
  simp only [Pushes.step, h.window]
  split_ifs with hsame
  · exact h
  · have hpos : 0 < newSize := by omega
    exact counts_empty (Nat.lt_min.mpr ⟨hpos, hsize⟩) (Nat.min_le_right _ _)

/-- The slot under the cursor is written. -/
theorem Counts.holds_push (h : c.Counts p) (v : Bool) :
    Ring.Holds p.window (fun i => some (c.setBit v i)) (v :: p.hist) := by
  have hwrite : (fun i => some (c.setBit v i)) =
      Function.update (fun i => some (c.bits i)) c.cursor (some v) := by
    funext i
    by_cases hi : i = c.cursor
    · rw [hi, Function.update_self, setBit, if_pos rfl]
    · rw [Function.update_of_ne hi, setBit, if_neg hi]
  rw [hwrite, h.cursor]
  exact h.holds.push v

/-- The cursor goes round. -/
theorem Counts.cursor_succ (h : c.Counts p) (v : Bool) :
    (c.cursor + 1) % c.currentWindowSize = (v :: p.hist).length % p.window := by
  rw [h.cursor, h.window, Nat.mod_add_mod]
  rfl

/-- Before the window is full an entry is added to it. -/
theorem Counts.push_of_not_full (h : c.Counts p) (hfull : ¬c.full) (v : Bool) :
    Counts
      ({ c with
        bits := c.setBit v
        validCount := c.validCount + if v then 1 else 0
        invalidCount := c.invalidCount + if v then 0 else 1
        cursor := (c.cursor + 1) % c.currentWindowSize } : SlidingCounter size)
      { p with hist := v :: p.hist } := by
  rw [h.full_iff, not_le] at hfull
  have hlast : Pushes.last ⟨p.window, v :: p.hist⟩ = v :: p.last := Ring.take_cons_of_lt v hfull
  refine ⟨h.window, h.window_pos, h.window_le, h.cursor_succ v, h.holds_push v, ?_, ?_⟩
  · rw [hlast, List.count_cons, ← h.valid]
    cases v <;> rfl
  · rw [hlast, List.count_cons, ← h.invalid]
    cases v <;> rfl

/-- Once it is full the oldest entry is under the cursor. -/
theorem Counts.push_of_full (h : c.Counts p) (hfull : c.full) (v : Bool) :
    Counts
      ({ c with
        bits := c.setBit v
        validCount := c.validCount + (if v then 1 else 0) - if c.bits c.cursor then 1 else 0
        invalidCount := c.invalidCount + (if v then 0 else 1) - if c.bits c.cursor then 0 else 1
        cursor := (c.cursor + 1) % c.currentWindowSize } : SlidingCounter size)
      { p with hist := v :: p.hist } := by
  rw [h.full_iff] at hfull
  obtain ⟨old, hold, hnew, hlast⟩ := Ring.take_cons_of_le v h.window_pos hfull
  have hread : c.bits c.cursor = old := by
    have holdest := h.holds.oldest h.window_pos hfull
    rw [← h.cursor, hold] at holdest
    exact Option.some.inj holdest
  have hvalid : c.validCount = (p.hist.take (p.window - 1)).count true + if old then 1 else 0 := by
    rw [h.valid, Pushes.last, hlast, List.count_append]
    cases old <;> rfl
  have hinvalid : c.invalidCount =
      (p.hist.take (p.window - 1)).count false + if old then 0 else 1 := by
    rw [h.invalid, Pushes.last, hlast, List.count_append]
    cases old <;> rfl
  refine ⟨h.window, h.window_pos, h.window_le, h.cursor_succ v, h.holds_push v, ?_, ?_⟩
  · show _ = ((v :: p.hist).take p.window).count true
    rw [hnew, List.count_cons, hvalid, hread]
    cases v <;> cases old <;> simp
  · show _ = ((v :: p.hist).take p.window).count false
    rw [hnew, List.count_cons, hinvalid, hread]
    cases v <;> cases old <;> simp

/-- A slot that holds the bit already need not be written. -/
theorem setBit_same {v : Bool} (h : c.bits c.cursor = v) : c.setBit v = c.bits := by
  funext i
  unfold setBit
  split
  · rename_i hi
    rw [hi, h]
  · rfl

theorem Counts.pushBack (h : c.Counts p) (v : Bool) :
    (c.pushBack v).Counts { p with hist := v :: p.hist } := by
  unfold SlidingCounter.pushBack
  by_cases hfull : c.full
  · have hnext := h.push_of_full hfull v
    cases hread : c.bits c.cursor with
    | true =>
      cases v with
      | true => simpa [hfull, hread, setBit_same hread] using hnext
      | false => simpa [hfull, hread] using hnext
    | false =>
      cases v with
      | true => simpa [hfull, hread] using hnext
      | false => simpa [hfull, hread, setBit_same hread] using hnext
  · have hnext := h.push_of_not_full hfull v
    cases v with
    | true => simpa [hfull] using hnext
    | false => simpa [hfull] using hnext

theorem Counts.step (h : c.Counts p) (hsize : 0 < size) (op : Op) :
    (c.step op).Counts (p.step size op) := by
  cases op with
  | pushBackValid => exact h.pushBack true
  | pushBackInvalid => exact h.pushBack false
  | clear => exact h.clear
  | resize newSize => exact h.resize hsize newSize

/-- After any calls the counter counts. -/
theorem Counts.run (h : c.Counts p) (hsize : 0 < size) (ops : List Op) :
    (ops.foldl SlidingCounter.step c).Counts (ops.foldl (Pushes.step size) p) := by
  induction ops generalizing c p with
  | nil => exact h
  | cons op ops ih => exact ih (h.step hsize op)

/-- The counts are those of the last entries, whatever was called before. -/
theorem counts_last_pushes (hsize : 0 < size) (ops : List Op) :
    let c := ops.foldl step (new : SlidingCounter size)
    let p := ops.foldl (Pushes.step size) ⟨size, []⟩
    c.validCount = p.last.count true ∧
      c.validCount + c.invalidCount = min p.window p.hist.length ∧
      c.currentWindowSize = p.window ∧ c.currentWindowSize ≤ size ∧
      c.cursor < c.currentWindowSize := by
  intro c p
  have h : c.Counts p := (counts_new hsize).run hsize ops
  refine ⟨h.valid, ?_, h.window, h.window ▸ h.window_le, h.cursor_lt⟩
  rw [h.valid, h.invalid, length_last]

/-- A window of three that is resized to two while it is full. -/
theorem counts_last_pushes_resized :
    0 < 3 ∧
      let c := [.pushBackValid, .pushBackInvalid, .pushBackValid, .resize 2, .pushBackInvalid,
        .pushBackValid, .pushBackValid].foldl step (new : SlidingCounter 3)
      c.validCount = 2 ∧ c.cursor = 1 := by
  have h := counts_last_pushes (by decide : 0 < 3) [.pushBackValid, .pushBackInvalid,
    .pushBackValid, .resize 2, .pushBackInvalid, .pushBackValid, .pushBackValid]
  exact ⟨by decide, h.1.trans (by decide), by decide⟩

end Counts

end SlidingCounter

end Edm
