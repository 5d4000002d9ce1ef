import Edm.Motion.Numbers
import Edm.Motion.Tasks

/-!
# Positions on lines

A trajectory segment recomputes its position from its length in every step. `OnLine` says that the
two belong together and the length is within the segment; each step then moves the position by the
difference of the lengths (`runOnce_currPos`). In a chain each segment ends where the next one starts
(`Linked`), so passing from one to the other does not move.
-/

set_option linter.unusedSectionVars false

namespace Edm

variable {K : Type} [Field K] [LinearOrder K] [RealFns K]

namespace TrajectoryLinearSegement

/-- The data computed when the segment is built. -/
structure Proper (l : TrajectoryLinearSegement K) : Prop where
  unitVector : l.unitVector = MotionUtils.axisUnitVector l.startPos l.endPos
  totalLength : l.totalLength = MotionUtils.axisLengthBetween l.startPos l.endPos

/-- The segment stands at its current length. -/
structure OnLine (l : TrajectoryLinearSegement K) : Prop extends Proper l where
  nonneg : 0 ≤ l.currLength
  le_total : l.currLength ≤ l.totalLength
  currPos : ∀ i, l.currPos i = l.unitVector i * l.currLength + l.startPos i

variable {l : TrajectoryLinearSegement K} {length inc : K}

theorem validate_of_mem (h0 : 0 ≤ length) (h1 : length ≤ l.totalLength) :
    l.validate length = length := by
  unfold validate
  rw [if_neg (not_lt.mpr h1)]
  split
  · rename_i hle
    exact le_antisymm h0 hle
  · rfl

variable [IsStrictOrderedRing K] [LawfulSqrt K]

theorem Proper.total_nonneg (h : l.Proper) : 0 ≤ l.totalLength :=
  h.totalLength ▸ axisLengthBetween_nonneg

theorem Proper.validate_mem (h : l.Proper) (length : K) :
    0 ≤ l.validate length ∧ l.validate length ≤ l.totalLength := by
  have := h.total_nonneg
  unfold validate
  split
  · exact ⟨this, le_rfl⟩
  · split
    · exact ⟨le_rfl, this⟩
    · constructor <;> linarith

theorem Proper.setCurrLength (h : l.Proper) (length : K) : (l.setCurrLength length).OnLine where
  unitVector := h.unitVector
  totalLength := h.totalLength
  nonneg := (h.validate_mem length).1
  le_total := (h.validate_mem length).2
  currPos i := by
    show _ = l.unitVector i * l.validate length + l.startPos i
    rw [h.unitVector]
    rfl

theorem OnLine.runOnce (h : l.OnLine) (inc : K) : (l.runOnce inc).OnLine :=
  h.toProper.setCurrLength _

/-- A step moves the position by the difference of the lengths. -/
theorem OnLine.setCurrLength_currPos (h : l.OnLine) (length : K) (i : Fin 6) :
    (l.setCurrLength length).currPos i =
      l.currPos i + l.unitVector i * (l.validate length - l.currLength) := by
  have h' := (h.toProper.setCurrLength length).currPos i
  have hc := h.currPos i
  simp only [TrajectoryLinearSegement.setCurrLength] at h' ⊢
  rw [h', hc]
  ring

theorem new_onLine (startPos endPos : Axis K) : (new startPos endPos).OnLine where
  unitVector := rfl
  totalLength := rfl
  nonneg := le_rfl
  le_total := axisLengthBetween_nonneg
  currPos i := by simp [new]

theorem Proper.setAtStart (h : l.Proper) : l.setAtStart.OnLine where
  unitVector := h.unitVector
  totalLength := h.totalLength
  nonneg := le_rfl
  le_total := h.total_nonneg
  currPos i := by simp [TrajectoryLinearSegement.setAtStart]

theorem Proper.setAtEnd (h : l.Proper) : l.setAtEnd.OnLine where
  unitVector := h.unitVector
  totalLength := h.totalLength
  nonneg := h.total_nonneg
  le_total := le_rfl
  currPos i := by
    show l.endPos i = l.unitVector i * l.totalLength + l.startPos i
    rw [h.unitVector, h.totalLength, axisUnitVector_mul_length]

theorem OnLine.currLength_of_atEnd (h : l.OnLine) (he : l.atEnd) :
    l.currLength = l.totalLength :=
  le_antisymm h.le_total (by simpa [atEnd] using he)

theorem OnLine.currLength_of_atStart (h : l.OnLine) (hs : l.atStart) : l.currLength = 0 :=
  le_antisymm (by simpa [atStart] using hs) h.nonneg

theorem OnLine.eq_endPos (h : l.OnLine) (he : l.atEnd) : l.currPos = l.endPos := by
  funext i
  rw [h.currPos, h.currLength_of_atEnd he, h.unitVector, h.totalLength, axisUnitVector_mul_length]

theorem OnLine.eq_startPos (h : l.OnLine) (hs : l.atStart) : l.currPos = l.startPos := by
  funext i
  rw [h.currPos, h.currLength_of_atStart hs, mul_zero, zero_add]

end TrajectoryLinearSegement

namespace TrajectoryList

open TrajectoryLinearSegement

/-- Each segment of the chain ends where the next one starts, and the current one stands on its
line. -/
structure Linked (t : TrajectoryList K) : Prop where
  curr : t.curr.OnLine
  after : List.IsChain (fun l n => l.endPos = n.startPos) (t.curr :: t.after)
  before : List.IsChain (fun l p => p.endPos = l.startPos) (t.curr :: t.before)
  proper : ∀ l ∈ t.before ++ t.after, l.Proper

variable {t : TrajectoryList K}

/-- A step stays in the current segment, or enters a neighbour at the end it has reached. -/
theorem runOnce_cases (t : TrajectoryList K) (inc : K) :
    t.runOnce inc = { t with curr := t.curr.runOnce inc } ∨
    (∃ next rest, t.after = next :: rest ∧ (t.curr.runOnce inc).atEnd ∧
      t.runOnce inc = ⟨t.curr.runOnce inc :: t.before, next.setAtStart, rest⟩) ∨
    (∃ prev rest, t.before = prev :: rest ∧ (t.curr.runOnce inc).atStart ∧
      t.runOnce inc = ⟨rest, prev.setAtEnd, t.curr.runOnce inc :: t.after⟩) := by
  simp only [TrajectoryList.runOnce]
  split
  · split
    · rename_i hend
      split
      · exact .inl rfl
      · rename_i next rest heq
        exact .inr (.inl ⟨next, rest, heq, hend, rfl⟩)
    · exact .inl rfl
  · split
    · split
      · rename_i hst
        split
        · exact .inl rfl
        · rename_i prev rest heq
          exact .inr (.inr ⟨prev, rest, heq, hst, rfl⟩)
      · exact .inl rfl
    · exact .inl rfl

/-- What no motion of a segment changes is the same along the chain after a step. -/
theorem map_all_runOnce {α : Type*} {g : TrajectoryLinearSegement K → α}
    (hrun : ∀ l inc, g (l.runOnce inc) = g l) (hstart : ∀ l, g l.setAtStart = g l)
    (hend : ∀ l, g l.setAtEnd = g l) (t : TrajectoryList K) (inc : K) :
    (t.runOnce inc).all.map g = t.all.map g := by
  rcases runOnce_cases t inc with heq | ⟨next, rest, hn, -, heq⟩ | ⟨prev, rest, hp, -, heq⟩ <;>
    rw [heq]
  · simp [all, hrun]
  · simp [all, hn, hrun, hstart]
  · simp [all, hp, hrun, hend]

variable {l l' : TrajectoryLinearSegement K} {ls : List (TrajectoryLinearSegement K)}

/-- A chain does not depend on where its first segment stands. -/
theorem isChain_after (h : List.IsChain (fun l n => l.endPos = n.startPos) (l :: ls))
    (he : l'.endPos = l.endPos) :
    List.IsChain (fun l n => l.endPos = n.startPos) (l' :: ls) := by
  cases ls with
  | nil => exact .singleton _
  | cons n ls =>
    rw [List.isChain_cons_cons] at h ⊢
    exact ⟨he.trans h.1, h.2⟩

theorem isChain_before (h : List.IsChain (fun l p => p.endPos = l.startPos) (l :: ls))
    (hs : l'.startPos = l.startPos) :
    List.IsChain (fun l p => p.endPos = l.startPos) (l' :: ls) := by
  cases ls with
  | nil => exact .singleton _
  | cons p ls =>
    rw [List.isChain_cons_cons] at h ⊢
    exact ⟨h.1.trans hs.symm, h.2⟩

variable [IsStrictOrderedRing K] [LawfulSqrt K]

/-- A step moves along the current segment; entering a neighbour does not move. -/
theorem Linked.runOnce (h : t.Linked) (inc : K) :
    (t.runOnce inc).Linked ∧ ∀ i, (t.runOnce inc).currCmdAxis i =
      t.currCmdAxis i + t.curr.unitVector i *
        (t.curr.validate (t.curr.currLength + inc) - t.curr.currLength) := by
  have hcurr := h.curr.runOnce inc
  have hpos := h.curr.setCurrLength_currPos (t.curr.currLength + inc)
  have hafter : List.IsChain (fun l n => l.endPos = n.startPos) (t.curr.runOnce inc :: t.after) :=
    isChain_after h.after rfl
  have hbefore : List.IsChain (fun l p => p.endPos = l.startPos) (t.curr.runOnce inc :: t.before) :=
    isChain_before h.before rfl
  rcases runOnce_cases t inc with heq | ⟨next, rest, hn, hend, heq⟩ | ⟨prev, rest, hp, hst, heq⟩
  · rw [heq]
    exact ⟨⟨hcurr, hafter, hbefore, h.proper⟩, hpos⟩
  · rw [hn] at hafter
    have hnext : next.Proper := h.proper next (by simp [hn])
    have hlink := (List.isChain_cons_cons.mp hafter).1
    rw [heq]
    refine ⟨⟨hnext.setAtStart, ?_, ?_, ?_⟩, fun i => ?_⟩
    · exact isChain_after (List.isChain_cons_cons.mp hafter).2 rfl
    · exact List.isChain_cons_cons.mpr ⟨hlink, hbefore⟩
    · intro l hl
      simp only [List.cons_append, List.mem_cons, List.mem_append] at hl
      rcases hl with rfl | hl | hl
      · exact hcurr.toProper
      · exact h.proper l (by simp [hl])
      · exact h.proper l (by simp [hn, hl])
    · show next.startPos i = _
      rw [← hlink, ← hcurr.eq_endPos hend]
      exact hpos i
  · rw [hp] at hbefore
    have hprev : prev.Proper := h.proper prev (by simp [hp])
    have hlink := (List.isChain_cons_cons.mp hbefore).1
    rw [heq]
    refine ⟨⟨hprev.setAtEnd, ?_, ?_, ?_⟩, fun i => ?_⟩
    · exact List.isChain_cons_cons.mpr ⟨hlink, hafter⟩
    · exact isChain_before (List.isChain_cons_cons.mp hbefore).2 rfl
    · intro l hl
      simp only [List.mem_append, List.mem_cons] at hl
      rcases hl with hl | rfl | hl
      · exact h.proper l (by simp [hp, hl])
      · exact hcurr.toProper
      · exact h.proper l (by simp [hl])
    · show prev.endPos i = _
      rw [hlink, ← hcurr.eq_startPos hst]
      exact hpos i

/-- The chain of a group starts where the axes stand. -/
theorem segements_linked {items : List (G01GroupItem K)} {firstPos : Axis K}
    {seg : TrajectoryLinearSegement K} {rest : List (TrajectoryLinearSegement K)}
    (h : G01GroupAutoTask.segements firstPos items = seg :: rest) :
    seg.startPos = firstPos ∧ seg.currPos = firstPos ∧
      List.IsChain (fun l n => l.endPos = n.startPos) (seg :: rest) ∧
      ∀ l ∈ seg :: rest, l.OnLine := by
  induction items generalizing firstPos seg rest with
  | nil => simp [G01GroupAutoTask.segements] at h
  | cons item items ih =>
    simp only [G01GroupAutoTask.segements, List.cons.injEq] at h
    obtain ⟨rfl, rfl⟩ := h
    refine ⟨rfl, rfl, ?_, ?_⟩
    · cases hs : G01GroupAutoTask.segements (fun i => firstPos i + item.incs i) items with
      | nil => exact .singleton _
      | cons n ls =>
        obtain ⟨hstart, _, hchain, _⟩ := ih hs
        exact List.isChain_cons_cons.mpr ⟨hstart.symm, hchain⟩
    · intro l hl
      rcases List.mem_cons.mp hl with rfl | hl
      · exact new_onLine _ _
      · cases hs : G01GroupAutoTask.segements (fun i => firstPos i + item.incs i) items with
        | nil => simp [hs] at hl
        | cons n ls => exact (ih hs).2.2.2 l (hs ▸ hl)

end TrajectoryList

end Edm
