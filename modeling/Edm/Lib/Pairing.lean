import Mathlib.Data.List.Basic
import Mathlib.Data.List.Count

/-!
# Opening and closing events in a history

A history lists events, newest first. `Paired o c es atRest` says that between two openings `o` there
is exactly one closing `c`, and, if the system is at rest, exactly one since the last opening.
`scan` decides it while the history grows: it holds whether the last opening is still open and fails
on a second opening or an unmatched closing.
-/

namespace Pairing

variable {α : Type*} [DecidableEq α]

/-- Every opening is closed exactly once before the next one and, at rest, up to now. -/
def Paired (o c : α) (es : List α) (atRest : Prop) : Prop :=
  (∀ l₁ l₂ l₃, es = l₁ ++ o :: (l₂ ++ o :: l₃) → o ∉ l₂ → l₂.count c = 1) ∧
  (atRest → ∀ l₁ l₂, es = l₁ ++ o :: l₂ → o ∉ l₁ → l₁.count c = 1)

/-- Whether the last opening is still open; `none` once openings and closings do not alternate. -/
def scan (o c : α) : List α → Option Bool
  | [] => some false
  | e :: es =>
    match scan o c es with
    | none => none
    | some isOpen =>
      if e = o then (if isOpen then none else some true)
      else if e = c then (if isOpen then some false else none)
      else some isOpen

variable {o c e : α} {es l₁ l₂ : List α} {b : Bool}

@[simp] theorem scan_nil : scan o c [] = some false := rfl

theorem scan_open (h : scan o c es = some false) : scan o c (o :: es) = some true := by
  simp [scan, h]

theorem scan_close (hoc : c ≠ o) (h : scan o c es = some true) :
    scan o c (c :: es) = some false := by
  simp [scan, h, hoc]

theorem scan_other (ho : e ≠ o) (hc : e ≠ c) : scan o c (e :: es) = scan o c es := by
  simp only [scan, ho, hc, if_false]
  cases scan o c es <;> rfl

theorem scan_eq_none_of_append (h : scan o c l₂ = none) : scan o c (l₁ ++ l₂) = none := by
  induction l₁ with
  | nil => exact h
  | cons e l ih => simp [scan, ih]

/-- An opening finds everything before it closed. -/
theorem scan_of_open_append (h : scan o c (l₁ ++ o :: l₂) = some b) : scan o c l₂ = some false := by
  cases h₂ : scan o c l₂ with
  | none => simp [scan_eq_none_of_append, scan, h₂] at h
  | some b₂ =>
    cases b₂ with
    | false => rfl
    | true => simp [scan_eq_none_of_append, scan, h₂] at h

/-- Since the last opening there is one closing if it is closed now, and none otherwise. -/
theorem count_of_scan (h : scan o c (l₁ ++ o :: l₂) = some b) (ho : o ∉ l₁) :
    l₁.count c = if b then 0 else 1 := by
  induction l₁ generalizing b with
  | nil =>
    have h₂ : scan o c l₂ = some false := scan_of_open_append h
    simp [scan, h₂] at h
    simp [← h]
  | cons e l ih =>
    have hel : e ≠ o ∧ o ∉ l := ⟨fun h => ho (by simp [h]), fun h => ho (by simp [h])⟩
    simp only [List.cons_append, scan, hel.1, if_false] at h
    cases hl : scan o c (l ++ o :: l₂) with
    | none => simp [hl] at h
    | some b' =>
      have hcount := ih hl hel.2
      simp only [hl] at h
      by_cases hec : e = c
      · cases b' with
        | false => simp [hec] at h
        | true => simp_all
      · simp only [hec, if_false, Option.some.injEq] at h
        rw [List.count_cons_of_ne (by simpa using hec), hcount, h]

/-- The scan decides the pairing. -/
theorem paired_of_scan (h : scan o c es = some b) {atRest : Prop}
    (hb : atRest → b = false) : Paired o c es atRest := by
  refine ⟨fun l₁ l₂ l₃ hes ho => ?_, fun hr l₁ l₂ hes ho => ?_⟩
  · subst hes
    simpa using count_of_scan (scan_of_open_append h) ho
  · subst hes
    simpa [hb hr] using count_of_scan h ho

end Pairing
