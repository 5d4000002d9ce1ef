import Mathlib.Data.Nat.ModEq
import Mathlib.Logic.Function.Basic

/-!
# Rings

A ring of `w` slots keeps the newest values that were written into it one after another: the value number
`i` goes to the slot `i % w`. Slots that were not written since the ring was emptied may hold anything.
Histories have the newest value first, so the window of a ring is a prefix of the history.
-/

namespace Ring

variable {α : Type*}

/-- The slots `read` of a ring of `w` slots after the history `hist`. -/
def Holds (w : ℕ) (read : ℕ → Option α) (hist : List α) : Prop :=
  ∀ j < hist.length, j < w → read ((hist.length - 1 - j) % w) = hist[j]?

variable {w : ℕ} {read : ℕ → Option α} {hist : List α}

theorem holds_nil : Holds w read [] := by
  intro j hj
  simp at hj

/-- A value is written over the oldest one. -/
theorem Holds.push (h : Holds w read hist) (v : α) :
    Holds w (Function.update read (hist.length % w) (some v)) (v :: hist) := by
  intro j hj hjw
  cases j with
  | zero => simp
  | succ j =>
    have hlen : j < hist.length := by simpa using hj
    have hidx : (v :: hist).length - 1 - (j + 1) = hist.length - 1 - j := by
      simp only [List.length_cons]
      omega
    have hne : (hist.length - 1 - j) % w ≠ hist.length % w := by
      -- the slots are `j + 1` apart, which is less than a round
      intro heq
      have hdvd : w ∣ hist.length - (hist.length - 1 - j) :=
        (Nat.modEq_iff_dvd' (by omega)).mp heq
      rw [show hist.length - (hist.length - 1 - j) = j + 1 by omega] at hdvd
      exact absurd (Nat.le_of_dvd (Nat.succ_pos j) hdvd) (by omega)
    rw [hidx, Function.update_of_ne hne, h j hlen (by omega)]
    rfl

/-- The slot that is written next holds the oldest value of a full window. -/
theorem Holds.oldest (h : Holds w read hist) (hw : 0 < w) (hfull : w ≤ hist.length) :
    read (hist.length % w) = hist[w - 1]? := by
  have hidx : (hist.length - 1 - (w - 1)) % w = hist.length % w := by
    rw [show hist.length - 1 - (w - 1) = hist.length - w by omega]
    exact (Nat.mod_eq_sub_mod hfull).symm
  rw [← hidx]
  exact h (w - 1) (by omega) (by omega)

/-- The slots of a list that is written in one place. -/
theorem read_set {data : List α} {i : ℕ} (h : i < data.length) (v : α) :
    (fun k => (data.set i v)[k]?) = Function.update (fun k => data[k]?) i (some v) := by
  funext k
  by_cases hk : k = i
  · subst hk
    rw [Function.update_self, List.getElem?_set_self h]
  · rw [Function.update_of_ne hk, List.getElem?_set_ne (Ne.symm hk)]

/-! ### The window -/

/-- A window that is not full grows. -/
theorem take_cons_of_lt (v : α) (h : hist.length < w) :
    (v :: hist).take w = v :: hist.take w := by
  have hlen : (v :: hist).length ≤ w := h
  rw [List.take_of_length_le hlen, List.take_of_length_le (Nat.le_of_lt h)]

/-- A full window loses its oldest value. -/
theorem take_cons_of_le (v : α) (hw : 0 < w) (h : w ≤ hist.length) :
    ∃ old, hist[w - 1]? = some old ∧ (v :: hist).take w = v :: hist.take (w - 1) ∧
      hist.take w = hist.take (w - 1) ++ [old] := by
  have hlt : w - 1 < hist.length := by omega
  refine ⟨hist[w - 1], List.getElem?_eq_getElem hlt, ?_, ?_⟩
  · cases w with
    | zero => omega
    | succ n => rfl
  · have htake := List.take_append_getElem hlt
    rw [Nat.sub_add_cancel hw] at htake
    exact htake.symm

theorem length_window : (hist.take w).length = min w hist.length := List.length_take

end Ring
