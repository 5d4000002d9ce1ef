import Edm.Lib.Run

/-!
# Events in the runs of a machine

When an event occurs (`AllSteps.countdown`: a bound that runs down until it does), and what it
leaves behind (`AllSteps.last_change`: a value that nothing else changes).
-/

namespace Machine

variable {σ α β : Type*} {step : σ → α → σ} {C : σ → α → Prop}

theorem allSteps_of_mem {P : α → Prop} {s : σ} {as : List α} (h : ∀ a ∈ as, P a) :
    AllSteps step (fun _ a => P a) s as := by
  induction as generalizing s with
  | nil => trivial
  | cons a as ih => exact ⟨h a List.mem_cons_self, ih fun b hb => h b (List.mem_cons_of_mem a hb)⟩

/-- A bound that every step lowers, unless `Q` happens in it: `Q` happens in time. -/
theorem AllSteps.countdown {I : ℕ → σ → Prop} {Q : σ → α → Prop}
    (hstep : ∀ n s a, I n s → C s a → Q s a ∨ 0 < n ∧ I (n - 1) (step s a)) {n : ℕ} {s : σ}
    {as : List α} (h : I n s) (hC : AllSteps step C s as) (hlen : n < as.length) :
    ∃ before a after, as = before ++ a :: after ∧ before.length ≤ n ∧
      AllSteps step (fun s a => (∃ m, I m s) ∧ C s a) s (before ++ [a]) ∧
      Q (run step s before) a := by
  induction as generalizing n s with
  | nil => exact absurd hlen (Nat.not_lt_zero n)
  | cons a as ih =>
    rcases hstep n s a h hC.1 with hQ | ⟨hpos, hnext⟩
    · exact ⟨[], a, as, rfl, Nat.zero_le n, ⟨⟨⟨n, h⟩, hC.1⟩, trivial⟩, hQ⟩
    · rw [List.length_cons] at hlen
      obtain ⟨before, b, after, rfl, hle, hall, hQ⟩ := ih hnext hC.2 (by omega)
      refine ⟨a :: before, b, after, rfl, ?_, ⟨⟨⟨n, h⟩, hC.1⟩, hall⟩, hQ⟩
      rw [List.length_cons]
      omega

/-- A value that only the event `E` changes, and then to `g`, is what the last event made of it. -/
theorem AllSteps.last_change {E : σ → α → Prop} {f : σ → β} {g : σ → α → β}
    (hkeeps : ∀ s a, C s a → ¬E s a → f (step s a) = f s)
    (hsets : ∀ s a, C s a → E s a → f (step s a) = g s a) {s : σ} {as : List α}
    (hC : AllSteps step C s as) :
    AllSteps step (fun s a => ¬E s a) s as ∧ f (run step s as) = f s ∨
      ∃ before a after, as = before ++ a :: after ∧ E (run step s before) a ∧
        AllSteps step (fun s a => ¬E s a) (run step s (before ++ [a])) after ∧
        f (run step s as) = g (run step s before) a := by
  induction as generalizing s with
  | nil => exact .inl ⟨trivial, rfl⟩
  | cons a as ih =>
    rcases ih hC.2 with ⟨hno, hf⟩ | ⟨before, b, after, rfl, hE, hno, hf⟩
    · by_cases hE : E s a
      · exact .inr ⟨[], a, as, rfl, hE, hno, hf.trans (hsets s a hC.1 hE)⟩
      · exact .inl ⟨⟨hE, hno⟩, hf.trans (hkeeps s a hC.1 hE)⟩
    · exact .inr ⟨a :: before, b, after, rfl, hE, hno, hf⟩

end Machine
