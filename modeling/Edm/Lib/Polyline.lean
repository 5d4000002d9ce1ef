import Mathlib.Analysis.Convex.Segment
import Mathlib.Data.List.Infix

/-!
# Polylines

A list of points stands for the polyline through them: a position is on it if it lies between two
neighbours of the list.
-/

namespace Polyline

variable {𝕜 E : Type*} [Semiring 𝕜] [PartialOrder 𝕜] [AddCommMonoid E] [Module 𝕜 E]

/-- The position `x` lies between two neighbours of `ps`. -/
def On (𝕜 : Type*) [Semiring 𝕜] [PartialOrder 𝕜] [Module 𝕜 E] (ps : List E) (x : E) : Prop :=
  ∃ p q, [p, q] <:+: ps ∧ x ∈ segment 𝕜 p q

variable {ps qs : List E} {p q x : E}

theorem On.mono (h : On 𝕜 ps x) (hi : ps <:+: qs) : On 𝕜 qs x := by
  obtain ⟨p, q, hpq, hx⟩ := h
  exact ⟨p, q, hpq.trans hi, hx⟩

theorem On.cons (h : On 𝕜 ps x) (p : E) : On 𝕜 (p :: ps) x :=
  h.mono (List.suffix_cons p ps).isInfix

/-- A polyline is its first edge and the rest. -/
theorem on_cons_cons : On 𝕜 (p :: q :: ps) x ↔ x ∈ segment 𝕜 p q ∨ On 𝕜 (q :: ps) x := by
  constructor
  · rintro ⟨a, b, hab, hx⟩
    rcases List.infix_cons_iff.mp hab with hpre | hin
    · obtain ⟨ha, hpre'⟩ := List.cons_prefix_cons.mp hpre
      obtain ⟨hb, -⟩ := List.cons_prefix_cons.mp hpre'
      exact .inl (ha ▸ hb ▸ hx)
    · exact .inr ⟨a, b, hin, hx⟩
  · rintro (hx | h)
    · exact ⟨p, q, List.IsPrefix.isInfix ⟨ps, rfl⟩, hx⟩
    · exact h.cons p

end Polyline
