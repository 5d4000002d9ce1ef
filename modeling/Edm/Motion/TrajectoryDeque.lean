import Edm.Motion.Lines

/-!
# The chain as a deque

The source keeps the segments of a `TrajectoryList` in a deque, and the current one as an iterator
into it. `TrajectoryDeque` is written this way; to read or to go outside the deque gives no result.
It walks as the chain does (`toDeque_runOnce`), so the iterator stays inside, and the position along
the path is one number (`position`) that a step changes by its increment, cut at the ends of the
current segment (`walks_path`).
-/

set_option linter.unusedSectionVars false

namespace Edm

/-- `TrajectoryList`: `segements_` and, as an index, `curr_segement_iter_`. -/
structure TrajectoryDeque (K : Type) where
  segements : List (TrajectoryLinearSegement K)
  currIter : ℕ

variable {K : Type} [Field K] [LinearOrder K] [RealFns K]

namespace TrajectoryDeque

/-- The constructor throws on an empty deque. -/
def new (segements : List (TrajectoryLinearSegement K)) : Option (TrajectoryDeque K) :=
  if segements.isEmpty then none else some ⟨segements, 0⟩

def atEndSegement (d : TrajectoryDeque K) : Bool := d.currIter + 1 == d.segements.length
def atStartSegement (d : TrajectoryDeque K) : Bool := d.currIter == 0

/-- `*curr_segement_iter_`. -/
def currSegement (d : TrajectoryDeque K) : Option (TrajectoryLinearSegement K) :=
  d.segements[d.currIter]?

def atEnd (d : TrajectoryDeque K) : Bool := d.atEndSegement && d.currSegement.any (·.atEnd)

def runOnce (d : TrajectoryDeque K) (inc : K) : Option (TrajectoryDeque K) :=
  -- logged as an error, nothing moves
  if d.segements.isEmpty then some d
  else do
    let l ← d.currSegement
    let d := { d with segements := d.segements.set d.currIter (l.runOnce inc) }
    if inc > 0 then
      if (l.runOnce inc).atEnd && !d.atEndSegement then
        let next ← d.segements[d.currIter + 1]?
        return ⟨d.segements.set (d.currIter + 1) next.setAtStart, d.currIter + 1⟩
      else return d
    else if inc < 0 then
      if (l.runOnce inc).atStart && !d.atStartSegement then
        let prev ← d.segements[d.currIter - 1]?
        return ⟨d.segements.set (d.currIter - 1) prev.setAtEnd, d.currIter - 1⟩
      else return d
    else return d

/-- One `run_once` for each increment. -/
def run (d : TrajectoryDeque K) (incs : List K) : Option (TrajectoryDeque K) :=
  incs.foldlM runOnce d

/-! ### The position along the path -/

/-- The length of the whole path. -/
def length (d : TrajectoryDeque K) : K := (d.segements.map (·.totalLength)).sum

/-- The length gone: the segments before the current one and what is gone of it. -/
def position (d : TrajectoryDeque K) : K :=
  ((d.segements.take d.currIter).map (·.totalLength)).sum + d.currSegement.elim 0 (·.currLength)

/-- The path itself, which no step changes. -/
def ends (d : TrajectoryDeque K) : List (Axis K × Axis K) :=
  d.segements.map fun l => (l.startPos, l.endPos)

end TrajectoryDeque

/-- The increment, cut where it would leave the segment. -/
def TrajectoryLinearSegement.cut (l : TrajectoryLinearSegement K) (inc : K) : K :=
  max (-l.currLength) (min inc (l.totalLength - l.currLength))

namespace TrajectoryDeque

/-- Everything before the current segment is covered, nothing after it is. -/
structure InOrder (d : TrajectoryDeque K) : Prop where
  index : d.currIter < d.segements.length
  within : ∀ l ∈ d.segements, 0 ≤ l.currLength ∧ l.currLength ≤ l.totalLength
  before : ∀ i < d.currIter, ∀ l, d.segements[i]? = some l →
    l.currLength = l.totalLength ∧ l.currPos = l.endPos
  after : ∀ i, d.currIter < i → ∀ l, d.segements[i]? = some l →
    l.currLength = 0 ∧ l.currPos = l.startPos
  position : 0 ≤ d.position ∧ d.position ≤ d.length
  atEnd : d.atEnd ↔ d.position = d.length

/-- From `d` to `d'` the position changes by the increment, cut at the border of the current
segment, and the axes move by as much in the direction of that segment. -/
def MovesBy (inc : K) (d d' : TrajectoryDeque K) : Prop :=
  ∃ l l', d.currSegement = some l ∧ d'.currSegement = some l' ∧
    d'.position = d.position + l.cut inc ∧
    ∀ i, l'.currPos i = l.currPos i + l.unitVector i * l.cut inc

end TrajectoryDeque

/-! ### The chain in a deque -/

namespace TrajectoryList

open TrajectoryLinearSegement

def toDeque (t : TrajectoryList K) : TrajectoryDeque K := ⟨t.all, t.before.length⟩

variable (t : TrajectoryList K) {inc : K}

@[simp] theorem toDeque_currSegement : t.toDeque.currSegement = some t.curr := by
  simp [toDeque, TrajectoryDeque.currSegement, all]

@[simp] theorem toDeque_atEndSegement : t.toDeque.atEndSegement = t.atEndSegement := by
  simp only [toDeque, TrajectoryDeque.atEndSegement, all, atEndSegement]
  cases t.after <;> simp

@[simp] theorem toDeque_atStartSegement : t.toDeque.atStartSegement = t.atStartSegement := by
  simp only [toDeque, TrajectoryDeque.atStartSegement, atStartSegement]
  cases t.before <;> simp

theorem toDeque_atEnd : t.toDeque.atEnd = t.atEnd := by
  simp [TrajectoryDeque.atEnd, atEnd]

/-- Writing back the current segment. -/
theorem set_curr (l : TrajectoryLinearSegement K) :
    t.all.set t.before.length l = all { t with curr := l } := by
  simp [all]

/-- The deque does what the chain does. -/
theorem toDeque_runOnce (inc : K) : t.toDeque.runOnce inc = some (t.runOnce inc).toDeque := by
  have hne : t.toDeque.segements.isEmpty = false := by simp [toDeque, all]
  have hset : { t.toDeque with
      segements := t.toDeque.segements.set t.toDeque.currIter (t.curr.runOnce inc) } =
      toDeque { t with curr := t.curr.runOnce inc } := by
    simp only [toDeque, set_curr]
  rw [TrajectoryDeque.runOnce, hne]
  simp only [toDeque_currSegement, Option.bind_eq_bind, Option.bind_some, hset,
    Bool.false_eq_true, if_false, toDeque_atEndSegement, toDeque_atStartSegement,
    TrajectoryList.runOnce]
  by_cases hpos : inc > 0
  · simp only [if_pos hpos]
    by_cases hend : (t.curr.runOnce inc).atEnd
    · simp only [hend, if_true, Bool.true_and]
      cases hafter : t.after with
      | nil => simp [atEndSegement]
      | cons next rest => simp [atEndSegement, hafter, toDeque, all]
    · simp [hend]
  · simp only [if_neg hpos]
    by_cases hneg : inc < 0
    · simp only [if_pos hneg]
      by_cases hst : (t.curr.runOnce inc).atStart
      · simp only [hst, if_true, Bool.true_and]
        cases hbefore : t.before with
        | nil => simp [atStartSegement]
        | cons prev rest => simp [atStartSegement, hbefore, toDeque, all]
      · simp [hst]
    · simp [hneg]

/-! ### What is covered -/

/-- The segments before the current one stand at their ends, those after it at their starts. -/
structure Covered (t : TrajectoryList K) : Prop extends Linked t where
  positive : ∀ l ∈ t.all, 0 < l.totalLength
  done : ∀ l ∈ t.before, l.currLength = l.totalLength ∧ l.currPos = l.endPos
  fresh : ∀ l ∈ t.after, l.currLength = 0 ∧ l.currPos = l.startPos

/-- The length gone. -/
def position : K := (t.before.map (·.totalLength)).sum + t.curr.currLength

variable {t}

theorem toDeque_position : t.toDeque.position = t.position := by
  simp [TrajectoryDeque.position, position, toDeque, all, TrajectoryDeque.currSegement]

theorem toDeque_length : t.toDeque.length =
    (t.before.map (·.totalLength)).sum + t.curr.totalLength + (t.after.map (·.totalLength)).sum := by
  simp [TrajectoryDeque.length, toDeque, all, add_assoc]

theorem toDeque_ends_runOnce (inc : K) : (t.runOnce inc).toDeque.ends = t.toDeque.ends :=
  map_all_runOnce (fun _ _ => rfl) (fun _ => rfl) (fun _ => rfl) t inc

variable [IsStrictOrderedRing K]

theorem sum_totalLength_nonneg {ls : List (TrajectoryLinearSegement K)}
    (h : ∀ l ∈ ls, 0 < l.totalLength) : 0 ≤ (ls.map (·.totalLength)).sum := by
  apply List.sum_nonneg
  intro x hx
  obtain ⟨l, hl, rfl⟩ := List.mem_map.mp hx
  exact (h l hl).le

variable [LawfulSqrt K]

/-- The new length is the old one and the cut increment. -/
theorem validate_eq_cut {l : TrajectoryLinearSegement K} (h : l.OnLine) (inc : K) :
    l.validate (l.currLength + inc) = l.currLength + l.cut inc := by
  have h0 := h.nonneg
  have h1 := h.le_total
  unfold validate cut
  split
  · rename_i hgt
    rw [min_eq_right (by linarith), max_eq_right (by linarith)]
    ring
  · rename_i hle
    rw [min_eq_left (by linarith)]
    split
    · rw [max_eq_left (by linarith)]
      ring
    · rw [max_eq_right (by linarith)]

theorem Covered.runOnce (h : t.Covered) (inc : K) : (t.runOnce inc).Covered := by
  have hlinked := (h.toLinked.runOnce inc).1
  have hcurr := h.curr.runOnce inc
  have hmap : (t.runOnce inc).all.map (·.totalLength) = t.all.map (·.totalLength) :=
    map_all_runOnce (fun _ _ => rfl) (fun _ => rfl) (fun _ => rfl) t inc
  have hpositive : ∀ l ∈ (t.runOnce inc).all, 0 < l.totalLength := by
    rw [← List.forall_mem_map (P := (0 < ·)), hmap, List.forall_mem_map]
    exact h.positive
  rcases runOnce_cases t inc with heq | ⟨next, rest, hn, hend, heq⟩ | ⟨prev, rest, hp, hst, heq⟩ <;>
    rw [heq] at hlinked hpositive ⊢
  · exact ⟨hlinked, hpositive, h.done, h.fresh⟩
  · refine ⟨hlinked, hpositive, ?_, fun l hl => h.fresh l (hn ▸ List.mem_cons_of_mem next hl)⟩
    intro l hl
    rcases List.mem_cons.mp hl with rfl | hl
    · exact ⟨hcurr.currLength_of_atEnd hend, hcurr.eq_endPos hend⟩
    · exact h.done l hl
  · refine ⟨hlinked, hpositive, fun l hl => h.done l (hp ▸ List.mem_cons_of_mem prev hl), ?_⟩
    intro l hl
    rcases List.mem_cons.mp hl with rfl | hl
    · exact ⟨hcurr.currLength_of_atStart hst, hcurr.eq_startPos hst⟩
    · exact h.fresh l hl

/-- A step changes the position by the cut increment, also where it enters a neighbour. -/
theorem Covered.position_runOnce (h : t.Covered) (inc : K) :
    (t.runOnce inc).position = t.position + t.curr.cut inc := by
  have hcurr := h.curr.runOnce inc
  have hlen : (t.curr.runOnce inc).currLength = t.curr.currLength + t.curr.cut inc :=
    validate_eq_cut h.curr inc
  rcases runOnce_cases t inc with heq | ⟨next, rest, hn, hend, heq⟩ | ⟨prev, rest, hp, hst, heq⟩ <;>
    rw [heq]
  · simp only [position, hlen]
    ring
  · have hlength := hcurr.currLength_of_atEnd hend
    simp only [position, List.map_cons, List.sum_cons, ← hlength, hlen, setAtStart]
    ring
  · have hlength := hcurr.currLength_of_atStart hst
    simp only [position, hp, List.map_cons, List.sum_cons, setAtEnd]
    linarith

/-- The end is reported exactly when the whole length is gone. -/
theorem Covered.atEnd_iff (h : t.Covered) : t.atEnd ↔ t.position = t.toDeque.length := by
  have hle := h.curr.le_total
  rw [toDeque_length, position, atEnd, atEndSegement]
  cases hafter : t.after with
  | nil =>
    simp only [List.isEmpty_nil, Bool.true_and, List.map_nil, List.sum_nil, add_zero,
      add_right_inj, TrajectoryLinearSegement.atEnd, ge_iff_le, decide_eq_true_eq]
    exact ⟨fun hge => le_antisymm hle hge, fun heq => heq.ge⟩
  | cons next rest =>
    have hnext : 0 < next.totalLength := h.positive next (by simp [all, hafter])
    have hrest : 0 ≤ (rest.map (·.totalLength)).sum :=
      sum_totalLength_nonneg fun l hl => h.positive l (by simp [all, hafter, hl])
    simp only [List.isEmpty_cons, Bool.false_and, Bool.false_eq_true, false_iff, List.map_cons,
      List.sum_cons]
    intro heq
    linarith

theorem Covered.inOrder (h : t.Covered) : t.toDeque.InOrder where
  index := by simp [toDeque, all]
  within l hl := by
    have hl : l ∈ t.before.reverse ++ t.curr :: t.after := hl
    have htotal := (h.positive l hl).le
    rcases List.mem_append.mp hl with hl | hl
    · rw [(h.done l (List.mem_reverse.mp hl)).1]
      exact ⟨htotal, le_rfl⟩
    · rcases List.mem_cons.mp hl with rfl | hl
      · exact ⟨h.curr.nonneg, h.curr.le_total⟩
      · rw [(h.fresh l hl).1]
        exact ⟨le_rfl, htotal⟩
  before i hi l hl := by
    have hi : i < t.before.reverse.length := by simpa [toDeque] using hi
    have hl : (t.before.reverse ++ t.curr :: t.after)[i]? = some l := hl
    rw [List.getElem?_append_left hi] at hl
    exact h.done l (List.mem_reverse.mp (List.mem_of_getElem? hl))
  after i hi l hl := by
    have hi : t.before.reverse.length < i := by simpa [toDeque] using hi
    have hl : (t.before.reverse ++ t.curr :: t.after)[i]? = some l := hl
    obtain ⟨k, hk⟩ : ∃ k, i - t.before.reverse.length = k + 1 :=
      Nat.exists_eq_add_one.mpr (by omega)
    rw [List.getElem?_append_right hi.le, hk, List.getElem?_cons_succ] at hl
    exact h.fresh l (List.mem_of_getElem? hl)
  position := by
    have hbefore : 0 ≤ (t.before.map (·.totalLength)).sum :=
      sum_totalLength_nonneg fun l hl => h.positive l (by simp [all, hl])
    have hafter : 0 ≤ (t.after.map (·.totalLength)).sum :=
      sum_totalLength_nonneg fun l hl => h.positive l (by simp [all, hl])
    have h0 := h.curr.nonneg
    have h1 := h.curr.le_total
    rw [toDeque_position, toDeque_length, position]
    constructor <;> linarith
  atEnd := by rw [toDeque_atEnd, toDeque_position]; exact h.atEnd_iff

theorem Covered.movesBy (h : t.Covered) (inc : K) :
    TrajectoryDeque.MovesBy inc t.toDeque (t.runOnce inc).toDeque := by
  refine ⟨t.curr, (t.runOnce inc).curr, by simp, by simp, ?_, fun i => ?_⟩
  · rw [toDeque_position, toDeque_position]
    exact h.position_runOnce inc
  · have hmove := (h.toLinked.runOnce inc).2 i
    rw [validate_eq_cut h.curr, add_sub_cancel_left] at hmove
    exact hmove

/-- A list of fresh segments, each from where the last one ends. -/
theorem new_covered {l : TrajectoryLinearSegement K} {ls : List (TrajectoryLinearSegement K)}
    (hnew : ∀ l' ∈ l :: ls, l' = .new l'.startPos l'.endPos ∧ l'.totalLength ≠ 0)
    (hchain : List.IsChain (fun l n => l.endPos = n.startPos) (l :: ls)) :
    Covered ⟨[], l, ls⟩ where
  curr := by
    rw [(hnew l (List.mem_cons_self ..)).1]
    exact new_onLine _ _
  after := hchain
  before := .singleton _
  proper l' hl' := by
    rw [(hnew l' (List.mem_cons_of_mem _ hl')).1]
    exact (new_onLine _ _).toProper
  positive l' hl' := by
    obtain ⟨heq, hne⟩ := hnew l' hl'
    refine lt_of_le_of_ne ?_ hne.symm
    rw [heq]
    exact axisLengthBetween_nonneg
  done l' hl' := absurd hl' List.not_mem_nil
  fresh l' hl' := by
    rw [(hnew l' (List.mem_cons_of_mem _ hl')).1]
    exact ⟨rfl, rfl⟩

end TrajectoryList

/-! ### Runs -/

namespace TrajectoryDeque

variable [IsStrictOrderedRing K] [LawfulSqrt K]

/-- Every run stays a covered chain of the same segments. -/
theorem run_covered {t : TrajectoryList K} (h : t.Covered) (incs : List K) :
    ∃ t' : TrajectoryList K, t'.Covered ∧ t'.toDeque.ends = t.toDeque.ends ∧
      t.toDeque.run incs = some t'.toDeque := by
  induction incs generalizing t with
  | nil => exact ⟨t, h, rfl, rfl⟩
  | cons inc incs ih =>
    obtain ⟨t', hcovered, hends, hrun⟩ := ih (h.runOnce inc)
    refine ⟨t', hcovered, hends.trans (TrajectoryList.toDeque_ends_runOnce inc), ?_⟩
    rw [run, List.foldlM_cons, TrajectoryList.toDeque_runOnce]
    exact hrun

/-- From a list of fresh segments that join on, every run of increments stays in the deque, walks
the segments in order, and each further step moves by its increment within the current segment. -/
theorem walks_path {segements : List (TrajectoryLinearSegement K)} (hne : segements ≠ [])
    (hnew : ∀ l ∈ segements, l = .new l.startPos l.endPos ∧ l.totalLength ≠ 0)
    (hchain : List.IsChain (fun l n => l.endPos = n.startPos) segements) (incs : List K) :
    ∃ d₀ d, new segements = some d₀ ∧ d₀.run incs = some d ∧ d.ends = d₀.ends ∧ d.InOrder ∧
      ∀ inc, ∃ d', d.runOnce inc = some d' ∧ MovesBy inc d d' := by
  cases segements with
  | nil => exact absurd rfl hne
  | cons l ls =>
    obtain ⟨t, hcovered, hends, hrun⟩ := run_covered (TrajectoryList.new_covered hnew hchain) incs
    refine ⟨_, t.toDeque, rfl, hrun, hends, hcovered.inOrder, fun inc => ?_⟩
    exact ⟨_, t.toDeque_runOnce inc, hcovered.movesBy inc⟩

/-- Two sides of a square, walked past the corner and back. -/
def squareSides : List (TrajectoryLinearSegement ℚ) :=
  [.new (fun _ => 0) (fun i => if i = 0 then 3 else 0),
   .new (fun i => if i = 0 then 3 else 0) (fun i => if i < 2 then 3 else 0)]

theorem squareSides_walked :
    ∃ d₀ d, new squareSides = some d₀ ∧ d₀.run [2, 2, 1, -2, -1] = some d ∧ d.ends = d₀.ends ∧
      d.InOrder ∧ ∀ inc, ∃ d', d.runOnce inc = some d' ∧ MovesBy inc d d' := by
  refine walks_path (by simp [squareSides]) ?_ ?_ _
  · intro l hl
    rcases List.mem_cons.mp hl with rfl | hl
    · exact ⟨rfl, by decide +kernel⟩
    · rw [List.mem_singleton.mp hl]
      exact ⟨rfl, by decide +kernel⟩
  · exact List.isChain_cons_cons.mpr ⟨rfl, .singleton _⟩

end TrajectoryDeque

end Edm
