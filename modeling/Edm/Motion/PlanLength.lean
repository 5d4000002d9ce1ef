import Edm.Motion.Moveruntime

/-!
# A plan covers its length

The cycles of a plan are whole numbers, so the increments of its phases miss the planned length a
little; the last cycle makes up the difference. A plan of at least one cycle therefore covers exactly
its length once it is played to the end (`OnPlan`). A plan without cycles is made in one case only,
when the entry, cruise and exit speed count as equal and the length is less than one cycle of cruising
(`NoPhases`).
-/

set_option linter.unusedSectionVars false

namespace Edm

namespace Moveruntime

variable {K : Type} [Field K] [LinearOrder K]

section Cycles

/-- At least one jerk cycle, and no phase of a negative number of cycles. -/
def Proper (r : Ramp K) : Prop := 1 ≤ r.jerkN ∧ 0 ≤ r.accN

/-- No phase of a negative number of cycles. -/
def NonNeg (r : Ramp K) : Prop := 0 ≤ r.jerkN ∧ 0 ≤ r.accN

/-- `total_N` of a plan with these phases. -/
def cycles (f : Profile K) : ℤ :=
  f.entry.jerkN + f.entry.accN + f.entry.jerkN + f.n4 + f.exit.jerkN + f.exit.accN + f.exit.jerkN

/-- The exit speed a plan is made for. -/
def exitSpeed (p : MoveRuntimePlanSpeedInput K) : K := if p.exitV ≤ 0 then 2 else p.exitV

/-- Nothing to accelerate and less than one cycle to cruise. -/
def NoPhases (T : K) (p : MoveRuntimePlanSpeedInput K) (s : K) : Prop :=
  |p.entryV - p.cruiseV| < speedEps ∧ |exitSpeed p - p.cruiseV| < speedEps ∧ s < p.cruiseV * T

instance (T : K) (p : MoveRuntimePlanSpeedInput K) (s : K) : Decidable (NoPhases T p s) :=
  inferInstanceAs (Decidable (_ ∧ _ ∧ _))

variable [FloorRing K] [RealFns K] {T v0 v1 a j s : K} {nacc : ℤ} {p : MoveRuntimePlanSpeedInput K}

theorem one_le_clampNacc (n : ℕ) : 1 ≤ clampNacc n := by
  unfold clampNacc
  split
  · omega
  · split <;> omega

theorem rampOf_proper {n m : ℤ} (hn : 1 ≤ n) (hm : 0 ≤ m) : Proper (rampOf T v0 v1 n m) := ⟨hn, hm⟩

theorem rampOf_atLeastTwo (n : ℤ) : Proper (rampOf T v0 v1 (if n < 2 then 2 else n) 0) := by
  refine rampOf_proper ?_ le_rfl
  split <;> omega

theorem rampByAcc_proper (hn : 1 ≤ nacc) : Proper (rampByAcc T nacc v0 v1 a j) := by
  simp only [rampByAcc]
  split
  · exact rampOf_atLeastTwo _
  · exact rampOf_proper hn (by omega)

theorem rampByLen_proper (hn : 1 ≤ nacc) : Proper (rampByLen T nacc v0 v1 s) := by
  simp only [rampByLen]
  split
  · exact rampOf_atLeastTwo _
  · exact rampOf_proper hn (by omega)

variable [IsStrictOrderedRing K]

theorem rampReduced_proper (hT : 0 < T) (hn : 1 ≤ nacc) {vi ai s123 : K} :
    Proper (rampReduced T nacc vi ai s123).1 := by
  simp only [rampReduced]
  split
  · exact rampOf_atLeastTwo _
  · rename_i hd
    exact rampOf_proper hn (Int.floor_nonneg.mpr (div_nonneg (not_lt.mp hd) hT.le))

/-- The ramp of a plan from `v0` to `v1`: proper, or none at all without an acceleration. -/
theorem ramp_cases (hn : 1 ≤ nacc) (a j : K) :
    let r := if |a| > 0 then rampByAcc T nacc v0 v1 a j else Ramp.none j
    (a ≠ 0 ∧ Proper r) ∨ (a = 0 ∧ r = Ramp.none j) := by
  intro r
  simp only [r]
  split
  · rename_i ha
    exact .inl ⟨abs_pos.mp ha, rampByAcc_proper hn⟩
  · rename_i ha
    exact .inr ⟨not_not.mp (mt abs_pos.mpr ha), rfl⟩

theorem accFromTo_eq_zero {v w : K} (ha : p.acc0 ≠ 0) (hd : p.dec0 ≠ 0) (h : accFromTo p v w = 0) :
    |v - w| < speedEps := by
  unfold accFromTo at h
  split at h
  · assumption
  · split at h
    · exact absurd h ha
    · exact absurd h hd

/-- The cruise phase of a plan without ramps. -/
theorem one_le_cruise (hT : 0 < T) {vc : K} (hv : 0 < vc) (hs : vc * T ≤ s) : 1 ≤ ⌊s / vc / T⌋ := by
  rw [Int.le_floor, Int.cast_one, le_div_iff₀ hT, le_div_iff₀ hv]
  linarith [mul_comm vc T]

theorem Proper.nonNeg {r : Ramp K} (h : Proper r) : NonNeg r := ⟨by have := h.1; omega, h.2⟩

theorem none_nonNeg : NonNeg (Ramp.none j) := ⟨le_rfl, le_rfl⟩

theorem one_le_cycles {f : Profile K} (he : NonNeg f.entry) (hx : NonNeg f.exit) (hn : 0 ≤ f.n4)
    (h : Proper f.entry ∨ Proper f.exit ∨ 1 ≤ f.n4) : 1 ≤ cycles f := by
  obtain ⟨he1, he2⟩ := he
  obtain ⟨hx1, hx2⟩ := hx
  unfold cycles
  rcases h with ⟨h1, _⟩ | ⟨h1, _⟩ | h1 <;> omega

theorem one_le_cycles_profileShort {vi vo si2o acc ai ao : K} {entry exit : Ramp K} (hT : 0 < T)
    (hn : 1 ≤ nacc) (he : NonNeg entry) (hx : NonNeg exit) (h : Proper entry ∨ Proper exit) :
    1 ≤ cycles (profileShort T nacc vi vo s si2o acc ai ao entry exit) := by
  simp only [profileShort]
  split_ifs
  all_goals first
    | exact one_le_cycles (rampByLen_proper hn).nonNeg none_nonNeg le_rfl
        (.inl (rampByLen_proper hn))
    | exact one_le_cycles (rampReduced_proper hT hn).nonNeg (rampByLen_proper hn).nonNeg le_rfl
        (.inl (rampReduced_proper hT hn))
    | exact one_le_cycles he hx le_rfl (h.imp_right .inl)

/-- A plan has at least one cycle unless it has no phases. -/
theorem one_le_cycles_profile (hT : 0 < T) (hv : 0 < p.cruiseV) (ha : p.acc0 ≠ 0)
    (hd : p.dec0 ≠ 0) (hp : ¬NoPhases T p s) : 1 ≤ cycles (profile T p s) := by
  unfold profile
  extract_lets nacc d0 vc vi vo acc si2o ai ao entry exit n4 s4
  have hn : 1 ≤ nacc := one_le_clampNacc p.nacc
  split
  · exact one_le_cycles (rampByLen_proper hn).nonNeg none_nonNeg le_rfl (.inl (rampByLen_proper hn))
  have hentry : (ai ≠ 0 ∧ Proper entry) ∨ (ai = 0 ∧ entry = Ramp.none _) := ramp_cases hn ai _
  have hexit : (ao ≠ 0 ∧ Proper exit) ∨ (ao = 0 ∧ exit = Ramp.none _) := ramp_cases hn ao _
  have he : NonNeg entry := by
    rcases hentry with ⟨_, h⟩ | ⟨_, h⟩
    · exact h.nonNeg
    · exact h ▸ none_nonNeg
  have hx : NonNeg exit := by
    rcases hexit with ⟨_, h⟩ | ⟨_, h⟩
    · exact h.nonNeg
    · exact h ▸ none_nonNeg
  -- without ramps the whole length is cruised, at least one cycle of it
  have hcruise (hi : ai = 0) (ho : ao = 0) : 1 ≤ n4 := by
    have hes : entry.s = 0 := by
      rcases hentry with ⟨h, _⟩ | ⟨_, h⟩
      · exact absurd hi h
      · rw [h, Ramp.none]
    have hxs : exit.s = 0 := by
      rcases hexit with ⟨h, _⟩ | ⟨_, h⟩
      · exact absurd ho h
      · rw [h, Ramp.none]
    have hvi : |vi - vc| < speedEps := accFromTo_eq_zero ha hd hi
    have hvo : |vo - vc| < speedEps := by
      by_contra hvo
      simp only [ao, hvo, if_false] at ho
      split at ho
      · exact hd ho
      · exact ha ho
    have hlen : vc * T ≤ s := by
      by_contra hlen
      exact hp ⟨hvi, hvo, not_le.mp hlen⟩
    simpa only [n4, hes, hxs, sub_zero] using one_le_cruise hT hv hlen
  split
  · rename_i hs4
    refine one_le_cycles_profileShort hT hn he hx ?_
    rcases hentry with ⟨_, h⟩ | ⟨hi, _⟩
    · exact .inl h
    · rcases hexit with ⟨_, h⟩ | ⟨ho, _⟩
      · exact .inr h
      · have hn4 : (0 : K) ≤ n4 := by exact_mod_cast (by have := hcruise hi ho; omega : (0 : ℤ) ≤ n4)
        exact absurd hs4 (not_lt.mpr (by positivity))
  · rename_i hs4
    have hn4 : 0 ≤ n4 := by
      by_contra hneg
      have hneg : (n4 : K) < 0 := by exact_mod_cast not_le.mp hneg
      exact hs4 (mul_neg_of_neg_of_pos (mul_neg_of_pos_of_neg hv hneg) hT)
    refine one_le_cycles he hx hn4 ?_
    rcases hentry with ⟨_, h⟩ | ⟨hi, _⟩
    · exact .inl h
    · rcases hexit with ⟨_, h⟩ | ⟨ho, _⟩
      · exact .inr (.inl h)
      · exact .inr (.inr (hcruise hi ho))

/-- From rest there is always something to accelerate: the planner never brings a move to rest. -/
theorem not_noPhases_of_rest (he : p.entryV = 0) (hx : p.exitV ≤ 0) : ¬NoPhases T p s := by
  rintro ⟨h1, h2, -⟩
  rw [he, zero_sub, abs_neg] at h1
  rw [exitSpeed, if_pos hx] at h2
  have h3 := (abs_lt.mp h1).2
  have h4 := (abs_lt.mp h2).2
  have h5 : (speedEps : K) < 1 := by
    rw [speedEps, div_lt_one (by positivity)]
    norm_num
  linarith

end Cycles

section Cycle

/-- A plan under way: the current length is what the cycles so far have recorded, and the planned
length once all of them have run. -/
structure OnPlan (m : Moveruntime K) : Prop where
  one_le_totalN : 1 ≤ m.impl.totalN
  recorded : m.impl.currentN < m.impl.totalN →
    m.currentLength = m.impl.recordIntermediateE + m.impl.recordIntermediateP
  covered : m.impl.totalN ≤ m.impl.currentN → m.currentLength = m.impl.length

variable {m : Moveruntime K}

theorem Impl.stepP_record (r : Impl K) :
    r.stepP.recordIntermediateE = r.recordIntermediateE ∧
    r.stepP.recordIntermediateP = r.recordIntermediateP ∧
    r.stepP.length = r.length ∧ r.stepP.currentN = r.currentN ∧ r.stepP.totalN = r.totalN := by
  unfold Impl.stepP
  split_ifs <;> exact ⟨rfl, rfl, rfl, rfl, rfl⟩

@[simp] theorem Impl.cycle_currentN (r : Impl K) : r.cycle.currentN = r.currentN + 1 := by
  simp [Impl.cycle, r.stepP_record]

@[simp] theorem Impl.cycle_totalN (r : Impl K) : r.cycle.totalN = r.totalN := by
  simp [Impl.cycle, r.stepP_record]

@[simp] theorem Impl.cycle_length (r : Impl K) : r.cycle.length = r.length := by
  simp [Impl.cycle, r.stepP_record]

/-- The increment of a cycle is what the records grow by; the last one leads to the length. -/
theorem Impl.cycle_intermediate (r : Impl K) :
    r.recordIntermediateE + r.recordIntermediateP + r.cycle.intermediate =
      if r.currentN + 1 = r.totalN then r.length
      else r.cycle.recordIntermediateE + r.cycle.recordIntermediateP := by
  obtain ⟨h1, h2, h3, h4, h5⟩ := r.stepP_record
  simp only [Impl.cycle, h1, h2, h3, h4, h5]
  split <;> ring

/-- The planner after a cycle has gone on by the increment. -/
theorem runOnce_currentLength : m.runOnce.1.currentLength = m.currentLength + m.runOnce.2 := by
  unfold runOnce
  split_ifs
  · simp
  · rfl
  · rfl

/-- The cycle that finds a plan over returns no increment. -/
theorem runOnce_of_isOver (h : m.runOnce.1.isOver) : m.runOnce.2 = 0 := by
  unfold runOnce at h ⊢
  split_ifs at h ⊢ with h1
  · rfl
  · cases hs : m.state <;> simp_all [isOver, isRunning]
  · rfl

/-- A plan is found over only when it is covered. -/
theorem OnPlan.covered_of_isOver (h : m.OnPlan) (hr : m.state = .running)
    (ho : m.runOnce.1.isOver) : m.currentLength = m.impl.length := by
  unfold runOnce at ho
  rw [if_neg (by simp [hr])] at ho
  split_ifs at ho with h1
  · simp [isOver, isRunning, hr] at ho
  · exact h.covered (not_lt.mp h1)

theorem runOnce_length : m.runOnce.1.impl.length = m.impl.length := by
  unfold runOnce
  split_ifs <;> simp

theorem OnPlan.runOnce (h : m.OnPlan) : m.runOnce.1.OnPlan := by
  unfold Moveruntime.runOnce
  split_ifs with hr hn
  · exact h
  · have hi := m.impl.cycle_intermediate
    rw [← h.recorded hn] at hi
    refine ⟨by simpa using h.one_le_totalN, fun hlt => ?_, fun hle => ?_⟩
    · simp only [Impl.cycle_currentN, Impl.cycle_totalN] at hlt
      rwa [if_neg (by omega)] at hi
    · simp only [Impl.cycle_currentN, Impl.cycle_totalN] at hle
      rwa [if_pos (by omega), ← m.impl.cycle_length] at hi
  · exact ⟨h.one_le_totalN, fun hlt => by simpa using h.recorded hlt,
      fun hle => by simpa using h.covered hle⟩

end Cycle

section Plan

variable [FloorRing K] [RealFns K] [Settings] [IsStrictOrderedRing K]
  {p : MoveRuntimePlanSpeedInput K} {s : K}

theorem cycleT_pos : 0 < (cycleT : K) := by
  have := Settings.motionCycleUs_pos
  unfold cycleT
  positivity

/-- A fresh plan with phases is on its way. -/
theorem onPlan_of_plan {m : Moveruntime K} (hv : 0 < p.cruiseV) (ha : p.acc0 ≠ 0)
    (hd : p.dec0 ≠ 0) (hp : ¬NoPhases cycleT p s) (hm : plan p s = some m) :
    m.OnPlan ∧ m.state = .running ∧ m.currentLength = 0 ∧ m.impl.length = s := by
  unfold plan at hm
  split at hm
  · cases hm
  · cases hm
    have hone := one_le_cycles_profile cycleT_pos hv ha hd hp
    refine ⟨⟨hone, fun _ => ?_, fun hle => ?_⟩, rfl, rfl, rfl⟩
    · exact (add_zero 0).symm
    · simp only [Impl.ofProfile] at hle
      unfold cycles at hone
      omega

end Plan

end Moveruntime

end Edm
