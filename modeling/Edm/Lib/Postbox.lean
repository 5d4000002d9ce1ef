import Edm.Lib.Run

/-!
# A register beside a queue

A writer stores values in a register and queues events, each with a copy of the value of its time. A
reader takes the next event with its copy; only if it finds none it loads the register. Each of
these is one step, in any order. Values are told by their numbers.

The reader goes back to an older value exactly where a load passed over an event that was queued
after the reader had looked (`forward_iff`); if nothing is queued between the two halves of a look,
it never goes back (`shown_le_of_undisturbed`).
-/

structure Postbox where
  newest : ℕ
  queue : List ℕ
  shown : ℕ
  /-- The reader found no event, and has yet to load the register. -/
  waiting : Bool

namespace Postbox

inductive Action where
  | store
  /-- As many events as find room. -/
  | push (k : ℕ)
  | take
  | load

def new : Postbox := ⟨0, [], 0, false⟩

def step (p : Postbox) : Action → Postbox
  | .store => { p with newest := p.newest + 1 }
  | .push k => { p with queue := p.queue ++ List.replicate k p.newest }
  | .take =>
    if p.waiting then p
    else
      match p.queue with
      | [] => { p with waiting := true }
      | x :: q => { p with queue := q, shown := x }
  | .load => if p.waiting then { p with shown := p.newest, waiting := false } else p

/-- Events are queued in the order of the values they carry. -/
structure Ordered (p : Postbox) : Prop where
  sorted : p.queue.Pairwise (· ≤ ·)
  queue_le : ∀ x ∈ p.queue, x ≤ p.newest
  shown_le : p.shown ≤ p.newest

/-- No event is waiting that is older than what is shown. -/
def UpToDate (p : Postbox) : Prop := ∀ x ∈ p.queue, p.shown ≤ x

/-- The reader loads the register past an older event. -/
def Overtakes (p : Postbox) (a : Action) : Prop :=
  a = .load ∧ p.waiting = true ∧ ∃ x ∈ p.queue, x < p.newest

variable {p : Postbox} {a : Action}

/-- What a look for an event comes to. -/
theorem take_cases (p : Postbox) :
    p.waiting = true ∧ p.step .take = p ∨
      p.waiting = false ∧ p.queue = [] ∧ p.step .take = { p with waiting := true } ∨
      ∃ x q, p.waiting = false ∧ p.queue = x :: q ∧
        p.step .take = { p with queue := q, shown := x } := by
  cases hw : p.waiting <;> cases hq : p.queue <;> simp [step, hw, hq]

theorem new_ordered : new.Ordered := ⟨List.Pairwise.nil, nofun, Nat.le_refl _⟩

theorem new_upToDate : new.UpToDate := nofun

theorem Ordered.step (h : p.Ordered) (a : Action) : (p.step a).Ordered := by
  obtain ⟨hsorted, hqueue, hshown⟩ := h
  cases a with
  | store =>
    exact ⟨hsorted, fun x hx => Nat.le_succ_of_le (hqueue x hx), Nat.le_succ_of_le hshown⟩
  | push k =>
    refine ⟨?_, fun x hx => ?_, hshown⟩
    · refine List.pairwise_append.mpr ⟨hsorted, ?_, fun x hx y hy => ?_⟩
      · exact List.pairwise_replicate.mpr (.inr (Nat.le_refl _))
      · rw [List.eq_of_mem_replicate hy]
        exact hqueue x hx
    · rcases List.mem_append.mp hx with hx | hx
      · exact hqueue x hx
      · exact Nat.le_of_eq (List.eq_of_mem_replicate hx)
  | take =>
    rcases p.take_cases with ⟨-, hnext⟩ | ⟨-, -, hnext⟩ | ⟨x, q, -, hq, hnext⟩
    · rw [hnext]
      exact ⟨hsorted, hqueue, hshown⟩
    · rw [hnext]
      exact ⟨hsorted, hqueue, hshown⟩
    · rw [hq] at hsorted hqueue
      rw [hnext]
      exact ⟨hsorted.of_cons, fun y hy => hqueue y (List.mem_cons_of_mem x hy),
        hqueue x List.mem_cons_self⟩
  | load =>
    unfold Postbox.step
    dsimp only
    split
    · exact ⟨hsorted, hqueue, Nat.le_refl _⟩
    · exact ⟨hsorted, hqueue, hshown⟩

/-- A step takes the reader back exactly where it takes an event older than what it shows. -/
theorem shown_lt_iff (h : p.Ordered) :
    (p.step a).shown < p.shown ↔
      a = .take ∧ p.waiting = false ∧ ∃ x q, p.queue = x :: q ∧ x < p.shown := by
  have hshown := h.shown_le
  cases a with
  | store | push => simp [step]
  | take =>
    cases hw : p.waiting <;> cases hq : p.queue <;> simp [step, hw, hq]
  | load =>
    cases hw : p.waiting
    · simp [step, hw]
    · simp [step, hw]
      omega

theorem UpToDate.shown_le (hu : p.UpToDate) (h : p.Ordered) : p.shown ≤ (p.step a).shown := by
  rw [← Nat.not_lt, shown_lt_iff h]
  rintro ⟨-, -, x, q, hq, hlt⟩
  have hle := hu x (hq ▸ List.mem_cons_self)
  omega

/-- Only a load that overtakes an event leaves an older one waiting. -/
theorem UpToDate.step_iff (hu : p.UpToDate) (h : p.Ordered) :
    (p.step a).UpToDate ↔ ¬p.Overtakes a := by
  have hno (hne : a ≠ .load) (hnext : (p.step a).UpToDate) :
      (p.step a).UpToDate ↔ ¬p.Overtakes a := iff_of_true hnext fun ho => hne ho.1
  cases a with
  | store => exact hno nofun hu
  | push k =>
    refine hno nofun fun x hx => ?_
    rcases List.mem_append.mp hx with hx | hx
    · exact hu x hx
    · rw [List.eq_of_mem_replicate hx]
      exact h.shown_le
  | take =>
    refine hno nofun ?_
    rcases p.take_cases with ⟨-, hnext⟩ | ⟨-, -, hnext⟩ | ⟨x, q, -, hq, hnext⟩
    · rw [hnext]
      exact hu
    · rw [hnext]
      exact hu
    · rw [hnext]
      exact (List.pairwise_cons.mp (hq ▸ h.sorted)).1
  | load =>
    cases hw : p.waiting with
    | false =>
      have hsame : p.step .load = p := by simp [step, hw]
      rw [hsame]
      refine iff_of_true hu fun ho => ?_
      simp [Overtakes, hw] at ho
    | true =>
      have hload : p.step .load = { p with shown := p.newest, waiting := false } := by
        simp [step, hw]
      rw [hload]
      simp [UpToDate, Overtakes, hw]

/-- Nothing is queued while the reader waits. -/
def Undisturbed (p : Postbox) (a : Action) : Prop := p.waiting = true → ∀ k, a = .push k → k = 0

/-- A reader that is not disturbed finds the queue as empty as it left it. -/
theorem Undisturbed.waiting_step (ha : p.Undisturbed a) (hw : p.waiting = true → p.queue = []) :
    (p.step a).waiting = true → (p.step a).queue = [] := by
  cases a with
  | store => exact hw
  | push k =>
    intro hwaiting
    have hk : k = 0 := ha hwaiting k rfl
    have hempty : p.queue = [] := hw hwaiting
    simp [step, hempty, hk]
  | take =>
    rcases p.take_cases with ⟨-, hnext⟩ | ⟨-, hq, hnext⟩ | ⟨x, q, hidle, -, hnext⟩
    · rw [hnext]
      exact hw
    · exact fun _ => hnext ▸ hq
    · intro hwaiting
      rw [hnext] at hwaiting
      exact absurd (hidle.symm.trans hwaiting) Bool.false_ne_true
  | load =>
    cases hwaiting : p.waiting <;> simp [step, hwaiting]

/-! ### Machines with a postbox -/

section

variable {σ α : Type*} {mstep : σ → α → σ} {view : σ → Postbox} {act : σ → α → Action} {s₀ : σ}
  (hact : ∀ s a, view (mstep s a) = (view s).step (act s a)) (hnew : view s₀ = new)

include hact hnew

theorem ordered_run (as : List α) : (view (Machine.run mstep s₀ as)).Ordered := by
  refine Machine.run_invariant (I := fun s => (view s).Ordered) (fun s a hs => ?_) ?_ as
  · rw [hact]
    exact hs.step _
  · rw [hnew]
    exact new_ordered

/-- Along a run no older event is ever left waiting, so that no look goes back, exactly if no load
overtakes an event. -/
theorem forward_iff (as : List α) :
    (∀ bs, bs <+: as → (view (Machine.run mstep s₀ bs)).UpToDate) ↔
      Machine.AllSteps mstep (fun s a => ¬(view s).Overtakes (act s a)) s₀ as := by
  have hstart : (view s₀).Ordered ∧ (view s₀).UpToDate := by
    rw [hnew]
    exact ⟨new_ordered, new_upToDate⟩
  rw [← Machine.allSteps_iff (I := fun s => (view s).Ordered ∧ (view s).UpToDate)
    (fun s a hs => by rw [hact, and_iff_right (hs.1.step _), hs.2.step_iff hs.1]) hstart as]
  refine forall₂_congr fun bs _ => ?_
  rw [and_iff_right (ordered_run hact hnew bs)]

theorem shown_le_of_undisturbed {as : List α}
    (h : Machine.AllSteps mstep (fun s a => (view s).Undisturbed (act s a)) s₀ as) :
    Machine.AllSteps mstep (fun s a => (view s).shown ≤ (view (mstep s a)).shown) s₀ as := by
  refine h.strengthen
    (I := fun s => (view s).Ordered ∧ (view s).UpToDate ∧
      ((view s).waiting = true → (view s).queue = []))
    (fun s a hs ha => ?_) (fun s a hs _ => ?_) ?_
  · obtain ⟨hp, hu, hw⟩ := hs
    have hovertakes : ¬(view s).Overtakes (act s a) := by
      rintro ⟨-, hwaiting, x, hx, -⟩
      rw [hw hwaiting] at hx
      cases hx
    rw [hact]
    exact ⟨hp.step _, (hu.step_iff hp).mpr hovertakes, ha.waiting_step hw⟩
  · rw [hact]
    exact hs.2.1.shown_le hs.1
  · rw [hnew]
    exact ⟨new_ordered, new_upToDate, nofun⟩

end

end Postbox
