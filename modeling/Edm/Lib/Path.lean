import Mathlib.Data.List.Basic

/-!
# Paths recorded on a stack

A move leads from one point to another. `IsPath p segs q` says that the moves of `segs`, newest
first, lead from `p` to `q` without a gap: the oldest starts at `p`, each ends where the next
newer one starts, and the newest ends at `q`. Walking the stack back, one move at a time from its
end to its start, therefore ends at `p`.
-/

namespace Path

/-- A move that carries further data `δ` besides its two ends. -/
structure Segment (α δ : Type*) where
  start : α
  stop : α
  data : δ

variable {α δ : Type*}

/-- The moves of the stack, newest first, lead from `p` to `q`. -/
def IsPath (p : α) : List (Segment α δ) → α → Prop
  | [], q => q = p
  | seg :: segs, q => q = seg.stop ∧ IsPath p segs seg.start

@[simp] theorem isPath_nil {p q : α} : IsPath (δ := δ) p [] q ↔ q = p := Iff.rfl

@[simp] theorem isPath_cons {p q : α} {seg : Segment α δ} {segs : List (Segment α δ)} :
    IsPath p (seg :: segs) q ↔ q = seg.stop ∧ IsPath p segs seg.start := Iff.rfl

theorem IsPath.push {p q : α} {segs : List (Segment α δ)} (h : IsPath p segs q) (r : α) (d : δ) :
    IsPath p (⟨q, r, d⟩ :: segs) r := ⟨rfl, h⟩

end Path
