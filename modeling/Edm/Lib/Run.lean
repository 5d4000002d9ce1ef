import Mathlib.Data.List.Basic

/-!
# Runs of a deterministic machine

A machine is a step function `σ → α → σ`; a run feeds it a list of actions. `AllSteps step C s as`
says that every step of the run from `s` on `as` is taken in a state that satisfies `C` with the
action it is about to perform. `AllSteps.invariant` is the induction every safety result uses: a
property kept by the steps that meet `C` holds at the end of every run whose steps all meet `C`.
Runs are closed under prefixes (`AllSteps.left`), so "at the end of every run" is "in every state
reached".
-/

namespace Machine

variable {σ α : Type*}

/-- The state after the actions `as`. -/
def run (step : σ → α → σ) : σ → List α → σ
  | s, [] => s
  | s, a :: as => run step (step s a) as

/-- Every step of the run meets `C`. -/
def AllSteps (step : σ → α → σ) (C : σ → α → Prop) : σ → List α → Prop
  | _, [] => True
  | s, a :: as => C s a ∧ AllSteps step C (step s a) as

section Basic

variable {step : σ → α → σ} {C D : σ → α → Prop} {s : σ} {as bs : List α}

@[simp] theorem run_nil : run step s [] = s := rfl

@[simp] theorem run_cons {a : α} : run step s (a :: as) = run step (step s a) as := rfl

theorem run_append : run step s (as ++ bs) = run step (run step s as) bs := by
  induction as generalizing s with
  | nil => rfl
  | cons a as ih => exact ih

@[simp] theorem allSteps_nil : AllSteps step C s [] := trivial

@[simp] theorem allSteps_cons {a : α} :
    AllSteps step C s (a :: as) ↔ C s a ∧ AllSteps step C (step s a) as := Iff.rfl

theorem allSteps_append :
    AllSteps step C s (as ++ bs) ↔ AllSteps step C s as ∧ AllSteps step C (run step s as) bs := by
  induction as generalizing s with
  | nil => simp
  | cons a as ih => simp [ih, and_assoc]

/-- Runs whose steps meet `C` are closed under prefixes. -/
theorem AllSteps.left (h : AllSteps step C s (as ++ bs)) : AllSteps step C s as :=
  (allSteps_append.mp h).1

theorem AllSteps.mono (hCD : ∀ s a, C s a → D s a) (h : AllSteps step C s as) :
    AllSteps step D s as := by
  induction as generalizing s with
  | nil => trivial
  | cons a as ih => exact ⟨hCD _ _ h.1, ih h.2⟩

theorem AllSteps.and (hC : AllSteps step C s as) (hD : AllSteps step D s as) :
    AllSteps step (fun s a => C s a ∧ D s a) s as := by
  induction as generalizing s with
  | nil => trivial
  | cons a as ih => exact ⟨⟨hC.1, hD.1⟩, ih hC.2 hD.2⟩

theorem allSteps_of_forall (h : ∀ s a, C s a) : AllSteps step C s as := by
  induction as generalizing s with
  | nil => trivial
  | cons a as ih => exact ⟨h _ _, ih⟩

instance AllSteps.decidable [∀ s a, Decidable (C s a)] :
    ∀ s as, Decidable (AllSteps step C s as)
  | _, [] => isTrue trivial
  | s, a :: as => @instDecidableAnd _ _ _ (AllSteps.decidable (step s a) as)

end Basic

section Invariants

variable {step : σ → α → σ} {C : σ → α → Prop} {I : σ → Prop}

/-- A property kept by the steps that meet `C` holds after every run whose steps meet `C`. -/
theorem AllSteps.invariant (hstep : ∀ s a, I s → C s a → I (step s a)) {s : σ} {as : List α}
    (h : I s) (hC : AllSteps step C s as) : I (run step s as) := by
  induction as generalizing s with
  | nil => exact h
  | cons a as ih => exact ih (hstep _ _ h hC.1) hC.2

/-- A property every step keeps holds after every run. -/
theorem run_invariant (hstep : ∀ s a, I s → I (step s a)) {s : σ} (h : I s) (as : List α) :
    I (run step s as) :=
  AllSteps.invariant (fun s a hs _ => hstep s a hs) h (allSteps_of_forall (fun _ _ => trivial))

/-- Where a step from `I` stays in `I` exactly if it meets `C`, a run stays in `I` throughout
exactly if all its steps meet `C`. -/
theorem allSteps_iff (hstep : ∀ s a, I s → (I (step s a) ↔ C s a)) {s : σ} (h : I s)
    (as : List α) : (∀ bs, bs <+: as → I (run step s bs)) ↔ AllSteps step C s as := by
  induction as generalizing s with
  | nil => simp [h]
  | cons a as ih =>
    constructor
    · intro hall
      have hnext : I (step s a) := hall [a] (List.prefix_append [a] as)
      refine ⟨(hstep s a h).mp hnext, (ih hnext).mp fun bs hbs => ?_⟩
      exact hall (a :: bs) (List.cons_prefix_cons.mpr ⟨rfl, hbs⟩)
    · rintro ⟨hC, hrest⟩ bs hbs
      cases bs with
      | nil => exact h
      | cons b bs =>
        obtain ⟨rfl, htail⟩ := List.cons_prefix_cons.mp hbs
        exact (ih ((hstep s b h).mpr hC)).mpr hrest bs htail

/-- An invariant of the run may be used to discharge the condition of its steps. -/
theorem AllSteps.strengthen {D : σ → α → Prop} (hstep : ∀ s a, I s → C s a → I (step s a))
    (hD : ∀ s a, I s → C s a → D s a) {s : σ} {as : List α} (h : I s)
    (hC : AllSteps step C s as) : AllSteps step D s as := by
  induction as generalizing s with
  | nil => trivial
  | cons a as ih => exact ⟨hD _ _ h hC.1, ih (hstep _ _ h hC.1) hC.2⟩

/-- What holds after a run and is only brought about by steps `D` held at the start, or such a step
was taken. -/
theorem AllSteps.exists_step {P : σ → Prop} {D : σ → α → Prop}
    (hstep : ∀ s a, I s → C s a → I (step s a)) (hP : ∀ s a, I s → C s a → P (step s a) → P s ∨ D s a)
    {s : σ} {as : List α} (h : I s) (hC : AllSteps step C s as) (hend : P (run step s as)) :
    P s ∨ ∃ before a after, as = before ++ a :: after ∧ D (run step s before) a := by
  induction as generalizing s with
  | nil => exact .inl hend
  | cons a as ih =>
    rcases ih (hstep _ _ h hC.1) hC.2 hend with hnext | ⟨before, b, after, rfl, hD⟩
    · refine (hP _ _ h hC.1 hnext).imp_right fun hD => ⟨[], a, as, rfl, hD⟩
    · exact .inr ⟨a :: before, b, after, rfl, hD⟩

end Invariants

section Progress

/-- How many steps of the run are of the kind `p`. -/
def stepsWhere (step : σ → α → σ) (p : σ → α → Bool) : σ → List α → ℕ
  | _, [] => 0
  | s, a :: as => (p s a).toNat + stepsWhere step p (step s a) as

variable {step : σ → α → σ} {C : σ → α → Prop} {I : σ → Prop} {p : σ → α → Bool} {μ : σ → ℕ}

/-- A measure that no step raises and every step of a kind lowers bounds the number of these. -/
theorem AllSteps.measure_add_stepsWhere_le (hstep : ∀ s a, I s → C s a → I (step s a))
    (hμ : ∀ s a, I s → C s a → μ (step s a) + (p s a).toNat ≤ μ s) {s : σ} {as : List α} (h : I s)
    (hC : AllSteps step C s as) : μ (run step s as) + stepsWhere step p s as ≤ μ s := by
  induction as generalizing s with
  | nil => exact Nat.le_refl _
  | cons a as ih =>
    have hnext := ih (hstep _ _ h hC.1) hC.2
    have hfirst := hμ _ _ h hC.1
    simp only [run_cons, stepsWhere]
    omega

/-- An action that lowers the measure until it leads to `Q` leads there if it is repeated. -/
theorem exists_replicate_of_measure {Q : σ → Prop} {a : α}
    (hstep : ∀ s, I s → Q (step s a) ∧ 0 < μ s ∨ I (step s a) ∧ μ (step s a) < μ s) {s : σ}
    (h : I s) : ∃ k ≤ μ s, Q (run step s (List.replicate k a)) := by
  induction hn : μ s using Nat.strongRecOn generalizing s with
  | ind n ih =>
    rcases hstep s h with ⟨hQ, hpos⟩ | ⟨hI, hlt⟩
    · exact ⟨1, by omega, hQ⟩
    · obtain ⟨k, hk, hQ⟩ := ih _ (hn ▸ hlt) hI rfl
      exact ⟨k + 1, by omega, hQ⟩

end Progress

section History

variable {β : Type*}

/-- The last value that the elements of a history set. -/
def lastSet (f : α → Option β) (as : List α) : Option β := (as.filterMap f).getLast?

theorem lastSet_append (f : α → Option β) (as : List α) (a : α) :
    lastSet f (as ++ [a]) = (f a).or (lastSet f as) := by
  unfold lastSet
  rw [List.filterMap_append]
  cases h : f a with
  | none => simp [h]
  | some b => simp [h]

end History

section Simulation

variable {τ β : Type*} {step : σ → α → σ} {astep : τ → β → τ} {C : σ → α → Prop}

/-- If each step that meets `C` is matched by a list of abstract steps, so is each such run. -/
theorem AllSteps.simulation {R : σ → τ → Prop} {A : σ → α → List β}
    (hstep : ∀ s t a, R s t → C s a → R (step s a) (run astep t (A s a))) :
    ∀ {s t} {as : List α}, R s t → AllSteps step C s as →
      ∃ bs, R (run step s as) (run astep t bs) := by
  intro s t as h hC
  induction as generalizing s t with
  | nil => exact ⟨[], h⟩
  | cons a as ih =>
    obtain ⟨bs, hbs⟩ := ih (hstep s t a h hC.1) hC.2
    exact ⟨A s a ++ bs, by rw [run_append]; exact hbs⟩

end Simulation

end Machine
