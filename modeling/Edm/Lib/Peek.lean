import Mathlib.Data.List.Basic

/-!
# Programs that look at memory through a pointer

`Peek` is a program over the cells behind a pointer, with the offsets it reads. A `View` is what such a
pointer points at: cells that belong to the object, then whatever else is in memory. A program that
stays inside does not depend on the latter (`run_eq_of_inside`), and one that reads up to some offset
stays inside if and only if the object is that long (`guarded_iff`).
-/

inductive Peek (β α : Type) where
  | done (a : α)
  | cell (i : ℕ) (next : β → Peek β α)

namespace Peek

variable {β α γ : Type}

/-- The result over the memory `m`. -/
def run (m : ℕ → β) : Peek β α → α
  | done a => a
  | cell i next => (next (m i)).run m

/-- The offsets read, in order. -/
def reads (m : ℕ → β) : Peek β α → List ℕ
  | done _ => []
  | cell i next => i :: (next (m i)).reads m

def bind : Peek β α → (α → Peek β γ) → Peek β γ
  | done a, f => f a
  | cell i next, f => cell i fun b => (next b).bind f

instance : Monad (Peek β) where
  pure := done
  bind := bind

/-- `p[i]` -/
def at_ (i : ℕ) : Peek β β := cell i done

/-- `n` cells from `offset` on. -/
def cells (offset : ℕ) : ℕ → Peek β (List β)
  | 0 => pure []
  | n + 1 => do
    let b ← at_ offset
    let bs ← cells (offset + 1) n
    pure (b :: bs)

variable {m m' : ℕ → β}

@[simp] theorem run_pure (a : α) : run m (pure a : Peek β α) = a := rfl

@[simp] theorem reads_pure (a : α) : reads m (pure a : Peek β α) = [] := rfl

@[simp] theorem run_at (i : ℕ) : run m (at_ i) = m i := rfl

@[simp] theorem reads_at (i : ℕ) : reads m (at_ i) = [i] := rfl

@[simp] theorem run_bind (p : Peek β α) (f : α → Peek β γ) :
    run m (p >>= f) = run m (f (run m p)) := by
  induction p with
  | done a => rfl
  | cell i next ih => exact ih (m i)

@[simp] theorem reads_bind (p : Peek β α) (f : α → Peek β γ) :
    reads m (p >>= f) = reads m p ++ reads m (f (run m p)) := by
  induction p with
  | done a => rfl
  | cell i next ih => exact congrArg (i :: ·) (ih (m i))

@[simp] theorem run_map (f : α → γ) (p : Peek β α) : run m (f <$> p) = f (run m p) :=
  run_bind p _

@[simp] theorem reads_map (f : α → γ) (p : Peek β α) : reads m (f <$> p) = reads m p := by
  show reads m (p >>= fun a => pure (f a)) = _
  rw [reads_bind, reads_pure, List.append_nil]

@[simp] theorem reads_cells (offset n : ℕ) :
    reads m (cells offset n : Peek β (List β)) = List.range' offset n := by
  induction n generalizing offset with
  | zero => rfl
  | succ n ih =>
    rw [cells, reads_bind, reads_bind, reads_at, ih, reads_pure, List.append_nil, List.range'_succ]
    rfl

/-- The result depends on the cells that are read. -/
theorem run_congr {p : Peek β α} (h : ∀ i ∈ reads m p, m i = m' i) : run m p = run m' p := by
  induction p with
  | done a => rfl
  | cell i next ih =>
    have hi : m i = m' i := h i List.mem_cons_self
    show run m (next (m i)) = run m' (next (m' i))
    rw [← hi]
    exact ih (m i) fun j hj => h j (List.mem_cons_of_mem i hj)

/-- The offsets read are below `size`, and the last of them is read. -/
structure Needs (m : ℕ → β) (p : Peek β α) (size : ℕ) : Prop where
  below : ∀ i ∈ reads m p, i < size
  last : 0 < size → size - 1 ∈ reads m p

/-- The cells of an object, and what lies behind them in memory. -/
structure View (β : Type) where
  object : List β
  behind : ℕ → β

namespace View

variable {v : View β}

def mem (v : View β) (i : ℕ) : β := v.object.getD i (v.behind i)

def Inside (v : View β) (p : Peek β α) : Prop := ∀ i ∈ p.reads v.mem, i < v.object.length

/-- A program that stays inside does not depend on what lies behind the object. -/
theorem run_eq_of_inside {p : Peek β α} (h : v.Inside p) (behind' : ℕ → β) :
    p.run v.mem = p.run (mem ⟨v.object, behind'⟩) := by
  refine Peek.run_congr fun i hi => ?_
  have hlt := h i hi
  simp [mem, List.getD_eq_getElem?_getD, hlt]

/-- A program that was given a message of `length` cells reads nothing else, and its result is `s` where
the message is shorter than `size`. -/
structure Guarded (v : View β) (length size : ℕ) (s : α) (p : Peek β α) : Prop where
  inside : v.Inside p
  short : length < size → p.run v.mem = s

theorem guarded_iff {length size : ℕ} {s : α} {p : Peek β α}
    (hlength : v.object.length ≤ length) (hneeds : p.Needs v.mem size) :
    v.Guarded length size s p ↔ size ≤ v.object.length := by
  constructor
  · intro h
    rcases Nat.eq_zero_or_pos size with rfl | hpos
    · exact Nat.zero_le _
    · have := h.inside _ (hneeds.last hpos)
      omega
  · intro hsize
    exact ⟨fun i hi => Nat.lt_of_lt_of_le (hneeds.below i hi) hsize, fun hshort => by omega⟩

end View

end Peek
