import Edm.Lib.Run
import Mathlib.Algebra.Order.Floor.Ring
import Mathlib.Tactic.Linarith

/-!
# Progress of a deterministic machine

A machine is fed an endless sequence of actions. `LeadsTo step A P Q` says that from every state of
`P` a state of `Q` is reached, whatever the actions are as long as each meets `A`. The rules: one
step, chains and cases; a measure that each step lowers (`of_measure`), for numbers of an ordered
field by at least a fixed amount (`of_lowering`); a machine that is carried along by another until
something else happens (`carry`), and one that is part of another (`map`).
-/

namespace Machine

variable {σ τ α : Type*}

/-- The run on the first `n` of an endless sequence of actions. -/
def runFirst (step : σ → α → σ) (s : σ) (as : ℕ → α) (n : ℕ) : σ :=
  run step s ((List.range n).map as)

/-- From `s`, whatever actions meeting `A` come, a state of `Q` is reached. -/
def Reaches (step : σ → α → σ) (A : α → Prop) (s : σ) (Q : σ → Prop) : Prop :=
  ∀ as : ℕ → α, (∀ n, A (as n)) → ∃ n, Q (runFirst step s as n)

/-- From every state of `P` a state of `Q` is reached. -/
def LeadsTo (step : σ → α → σ) (A : α → Prop) (P Q : σ → Prop) : Prop :=
  ∀ s, P s → Reaches step A s Q

variable {step : σ → α → σ} {A : α → Prop} {P P' Q Q' R : σ → Prop} {s : σ} {as : ℕ → α} {m n : ℕ}

theorem runFirst_succ :
    runFirst step s as (n + 1) = runFirst step (step s (as 0)) (fun k => as (k + 1)) n := by
  simp only [runFirst, List.range_succ_eq_map, List.map_cons, List.map_map, run_cons]
  rfl

theorem runFirst_add :
    runFirst step s as (m + n) = runFirst step (runFirst step s as m) (fun k => as (m + k)) n := by
  simp only [runFirst, List.range_add, List.map_append, List.map_map, run_append]
  rfl

theorem Reaches.now (h : Q s) : Reaches step A s Q := fun _ _ => ⟨0, h⟩

theorem Reaches.next (h : ∀ a, A a → Reaches step A (step s a) Q) : Reaches step A s Q := by
  intro as has
  obtain ⟨n, hn⟩ := h (as 0) (has 0) (fun k => as (k + 1)) fun k => has _
  exact ⟨n + 1, by rwa [runFirst_succ]⟩

theorem Reaches.mono (h : Reaches step A s Q) (hQ : ∀ s, Q s → Q' s) : Reaches step A s Q' := by
  intro as has
  obtain ⟨n, hn⟩ := h as has
  exact ⟨n, hQ _ hn⟩

theorem Reaches.trans (h : Reaches step A s P) (hPQ : LeadsTo step A P Q) :
    Reaches step A s Q := by
  intro as has
  obtain ⟨m, hm⟩ := h as has
  obtain ⟨n, hn⟩ := hPQ _ hm (fun k => as (m + k)) fun k => has _
  exact ⟨m + n, by rwa [runFirst_add]⟩

theorem LeadsTo.of_step (h : ∀ s a, P s → A a → Q (step s a)) : LeadsTo step A P Q :=
  fun s hs => .next fun a ha => .now (h s a hs ha)

theorem LeadsTo.trans (hPQ : LeadsTo step A P Q) (hQR : LeadsTo step A Q R) :
    LeadsTo step A P R :=
  fun s hs => (hPQ s hs).trans hQR

/-- A measure that each step lowers, unless it leads to `Q`. -/
theorem LeadsTo.of_measure {β : Type*} [LT β] [WellFoundedLT β] {μ : σ → β}
    (hstep : ∀ s a, P s → A a → Q (step s a) ∨ P (step s a) ∧ μ (step s a) < μ s) :
    LeadsTo step A P Q := by
  intro s hs
  induction hb : μ s using WellFoundedLT.induction generalizing s with
  | ind b ih =>
    refine .next fun a ha => ?_
    rcases hstep s a hs ha with hQ | ⟨hP, hlt⟩
    · exact .now hQ
    · exact ih _ (hb ▸ hlt) _ hP rfl

/-- A number that each step lowers by at least `δ` and keeps from falling below zero, unless it
leads to `Q`. -/
theorem LeadsTo.of_lowering {K : Type*} [Field K] [LinearOrder K] [IsStrictOrderedRing K]
    [FloorRing K] {f : σ → K} {δ : K} (hδ : 0 < δ)
    (hstep : ∀ s a, P s → A a →
      Q (step s a) ∨ P (step s a) ∧ 0 ≤ f (step s a) ∧ f (step s a) + δ ≤ f s) :
    LeadsTo step A P Q := by
  refine of_measure (μ := fun s => ⌊f s / δ⌋.toNat) fun s a hs ha => ?_
  refine (hstep s a hs ha).imp_right fun ⟨hP, hpos, hlow⟩ => ⟨hP, ?_⟩
  have h0 : 0 ≤ ⌊f (step s a) / δ⌋ := Int.floor_nonneg.mpr (div_nonneg hpos hδ.le)
  have h1 : ⌊f (step s a) / δ⌋ + 1 ≤ ⌊f s / δ⌋ := by
    rw [← Int.floor_add_one]
    refine Int.floor_le_floor ?_
    rw [div_add_one hδ.ne', div_le_div_iff_of_pos_right hδ]
    exact hlow
  omega

/-- A machine whose steps are matched by those of another, until it gets to `R`, is carried along
to where the other one gets. -/
theorem LeadsTo.carry {step' : τ → α → τ} {W : τ → σ → Prop} {R : τ → Prop}
    (h : LeadsTo step A P Q)
    (hstep : ∀ t s a, W t s → A a → R (step' t a) ∨ W (step' t a) (step s a)) :
    LeadsTo step' A (fun t => ∃ s, W t s ∧ P s) (fun t => R t ∨ ∃ s, W t s ∧ Q s) := by
  rintro t ⟨s, hW, hs⟩ as has
  obtain ⟨n, hn⟩ := h s hs as has
  clear hs
  induction n generalizing t s as with
  | zero => exact ⟨0, .inr ⟨s, hW, hn⟩⟩
  | succ n ih =>
    rcases hstep t s (as 0) hW (has 0) with hR | hW'
    · exact ⟨1, .inl hR⟩
    · rw [runFirst_succ] at hn
      obtain ⟨k, hk⟩ := ih _ _ hW' _ (fun k => has _) hn
      exact ⟨k + 1, by rwa [runFirst_succ]⟩

/-- A machine that is part of another gets there as it gets alone. -/
theorem LeadsTo.map (h : LeadsTo step A P Q) (step' : τ → α → τ) (f : σ → τ)
    (hf : ∀ s a, step' (f s) a = f (step s a)) :
    LeadsTo step' A (fun t => ∃ s, t = f s ∧ P s) (fun t => ∃ s, t = f s ∧ Q s) := by
  have hcarry : LeadsTo step' A (fun t => ∃ s, t = f s ∧ P s)
      (fun t => False ∨ ∃ s, t = f s ∧ Q s) := by
    refine h.carry ?_
    rintro t s a rfl -
    exact .inr (hf s a)
  intro t ht
  exact (hcarry t ht).mono fun _ h => h.resolve_left id

end Machine
