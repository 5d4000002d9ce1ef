import Edm.Lib.Kinematics
import Edm.Motion.PlanLength

/-!
# The cycles of a plan

A plan is played back cycle by cycle: two ramps with a cruise between them, and the correction that spreads
the rest. `Schedule` lists what the cycles of a plan contribute, `Impl.AtCycle` says where in its
schedule the planner stands. If no contribution is negative and together they do not exceed the
length, every increment is at least zero (`Schedule.Sound`).
-/

set_option linter.unusedSectionVars false

namespace Edm

namespace Moveruntime

open Kinematics

/-- The cycles of a plan: `n1 n2 n1` of the entry, `n4` of the cruise, `n5 n6 n5` of the exit, the first
speed and correction, and what is added to them. -/
structure Schedule (K : Type) where
  n1 : ℕ
  n2 : ℕ
  n4 : ℕ
  n5 : ℕ
  n6 : ℕ
  speed : K
  j1 : K
  j5 : K
  rest : K
  a13 : K
  a57 : K

namespace Schedule

variable {K : Type} [Field K] (S : Schedule K)

/-- The cycles of the entry. -/
def entryN : ℕ := S.n1 + S.n2 + S.n1

def exitN : ℕ := S.n5 + S.n6 + S.n5

def total : ℕ := S.entryN + S.n4 + S.exitN

def jerks : List K :=
  ramp S.n1 S.n2 S.j1 ++ (List.replicate S.n4 0 ++ ramp S.n5 S.n6 S.j5)

def accs : List K := totals 0 S.jerks

/-- The planned increments. -/
def speeds : List K := totals S.speed S.accs

/-- What is added to the correction before the cycle `c`. -/
def restStep (c : ℕ) : K :=
  if c < S.entryN then if 0 < c then S.a13 else 0
  else if c < S.entryN + S.n4 then 0
  else S.a57

def restSteps : List K := (List.range (S.total - 1)).map S.restStep

/-- The corrections; the last cycle has none. -/
def rests : List K := totals S.rest S.restSteps

@[simp] theorem length_jerks : S.jerks.length = S.total := by
  simp only [jerks, total, entryN, exitN, List.length_append, length_ramp, List.length_replicate]
  omega

@[simp] theorem length_accs : S.accs.length = S.total := by simp [accs]

@[simp] theorem length_speeds : S.speeds.length = S.total := by simp [speeds]

@[simp] theorem length_rests : S.rests.length = S.total - 1 := by simp [rests, restSteps]

/-- The jerks so far are those of the entry and of the exit. -/
theorem sum_take_jerks (c : ℕ) :
    (S.jerks.take c).sum = ((ramp S.n1 S.n2 S.j1).take c).sum +
      ((ramp S.n5 S.n6 S.j5).take (c - (S.entryN + S.n4))).sum := by
  rw [jerks, List.take_append, List.take_append, List.sum_append, List.sum_append]
  simp only [length_ramp, List.length_replicate, List.take_replicate, List.sum_replicate, smul_zero,
    zero_add]
  congr 3
  unfold entryN
  omega

variable {S} {c : ℕ}

/-- The next speed. -/
theorem sum_take_accs_succ (h : c < S.total) :
    (S.accs.take (c + 1)).sum = (S.accs.take c).sum + (S.jerks.take (c + 1)).sum := by
  have hc : c < S.accs.length := by simpa using h
  rw [List.sum_take_succ _ _ hc]
  congr 1
  simp only [accs, getElem_totals, zero_add]

theorem sum_take_speeds_succ (h : c < S.total) :
    (S.speeds.take (c + 1)).sum =
      (S.speeds.take c).sum + (S.speed + (S.accs.take (c + 1)).sum) := by
  have hc : c < S.speeds.length := by simpa using h
  rw [List.sum_take_succ _ _ hc]
  congr 1
  simp only [speeds, getElem_totals]

theorem sum_take_restSteps_succ (h : c + 1 < S.total) :
    (S.restSteps.take (c + 1)).sum = (S.restSteps.take c).sum + S.restStep c := by
  have hc : c < S.restSteps.length := by
    simp only [restSteps, List.length_map, List.length_range]
    omega
  rw [List.sum_take_succ _ _ hc]
  congr 1
  simp only [restSteps, List.getElem_map, List.getElem_range]

theorem sum_take_rests_succ (h : c + 1 < S.total) :
    (S.rests.take (c + 1)).sum =
      (S.rests.take c).sum + (S.rest + (S.restSteps.take (c + 1)).sum) := by
  have hc : c < S.rests.length := by
    rw [length_rests]
    omega
  rw [List.sum_take_succ _ _ hc]
  congr 1
  simp only [rests, getElem_totals]

end Schedule

variable {K : Type} [Field K] [LinearOrder K] {S : Schedule K} {c : ℕ}

/-- The planner stands before the cycle `c` of its schedule. -/
structure Impl.AtCycle (S : Schedule K) (c : ℕ) (r : Impl K) : Prop where
  N1 : r.N1 = S.n1
  N2 : r.N2 = S.n2
  N3 : r.N3 = S.n1
  N4 : r.N4 = S.n4
  N5 : r.N5 = S.n5
  N6 : r.N6 = S.n6
  N7 : r.N7 = S.n5
  totalN : r.totalN = S.total
  j1 : r.j1 = S.j1
  j3 : r.j3 = -S.j1
  j5 : r.j5 = S.j5
  j7 : r.j7 = -S.j5
  a13 : r.a13 = S.a13
  a57 : r.a57 = S.a57
  currentN : r.currentN = c
  entryAcc : r.entryAcc = ((ramp S.n1 S.n2 S.j1).take c).sum
  exitAcc : r.exitAcc = ((ramp S.n5 S.n6 S.j5).take (c - (S.entryN + S.n4))).sum
  intermediateP : r.intermediateP = S.speed + (S.accs.take c).sum
  recordP : r.recordIntermediateP = (S.speeds.take c).sum
  intermediateE : c < S.total → r.intermediateE = S.rest + (S.restSteps.take c).sum
  recordE : r.recordIntermediateE = (S.rests.take c).sum

namespace Impl.AtCycle

variable {r : Impl K}

/-- The planned part of a cycle. -/
theorem stepP (h : r.AtCycle S c) (hc : c < S.total) :
    r.stepP.entryAcc = ((ramp S.n1 S.n2 S.j1).take (c + 1)).sum ∧
      r.stepP.exitAcc = ((ramp S.n5 S.n6 S.j5).take (c + 1 - (S.entryN + S.n4))).sum ∧
      r.stepP.intermediateP = r.intermediateP + (S.jerks.take (c + 1)).sum := by
  have hentry := sum_take_succ_ramp S.n1 S.n2 c S.j1
  have hjerks := S.sum_take_jerks (c + 1)
  have hN : S.entryN = S.n1 + S.n2 + S.n1 := rfl
  have hX : S.exitN = S.n5 + S.n6 + S.n5 := rfl
  have htotal : S.total = S.entryN + S.n4 + S.exitN := rfl
  rcases lt_or_ge c (S.entryN + S.n4) with hlow | hhigh
  · -- the exit has not begun
    have hx : ((ramp S.n5 S.n6 S.j5).take (c + 1 - (S.entryN + S.n4))).sum = 0 := by
      rw [Nat.sub_eq_zero_of_le (by omega)]
      rfl
    have hx' : r.exitAcc = 0 := by
      rw [h.exitAcc, Nat.sub_eq_zero_of_le (by omega)]
      rfl
    rw [hjerks, hx, hentry, ← h.entryAcc, add_zero]
    unfold Impl.stepP
    simp only [h.N1, h.N2, h.N3, h.N4, h.currentN, h.j1, h.j3]
    rcases lt_or_ge c S.entryN with hc' | hc'
    · split_ifs <;> first | omega | simp [hx']
    · -- the acceleration of the entry is gone
      have hdone : r.entryAcc = 0 := by
        rw [h.entryAcc]
        exact sum_take_ramp_of_le hc'
      split_ifs <;> first | omega | simp [hx', hdone]
  · -- the exit
    have hdone : ((ramp S.n1 S.n2 S.j1).take (c + 1)).sum = 0 := sum_take_ramp_of_le (by omega)
    have hdone' : r.entryAcc = 0 := by
      rw [h.entryAcc]
      exact sum_take_ramp_of_le (by omega)
    have hexit := sum_take_succ_ramp S.n5 S.n6 (c - (S.entryN + S.n4)) S.j5
    rw [← Nat.sub_add_comm hhigh] at hexit
    rw [hjerks, hdone, hexit, ← h.exitAcc, zero_add]
    unfold Impl.stepP
    simp only [h.N1, h.N2, h.N3, h.N4, h.N5, h.N6, h.currentN, h.j5, h.j7]
    split_ifs <;> first | omega | simp [hdone']

/-- The correction of a cycle; the last one has none. -/
theorem nextE (h : r.AtCycle S c) (hc : c < S.total) :
    r.nextE = if c + 1 = S.total then 0 else S.rest + (S.restSteps.take (c + 1)).sum := by
  have hN : S.entryN = S.n1 + S.n2 + S.n1 := rfl
  unfold Impl.nextE
  simp only [h.N1, h.N2, h.N3, h.N4, h.totalN, h.currentN, h.a13, h.a57]
  by_cases hlast : c + 1 = S.total
  · rw [if_pos (by omega), if_pos hlast]
  · rw [if_neg (by omega), if_neg hlast, Schedule.sum_take_restSteps_succ (by omega), ← add_assoc,
      ← h.intermediateE hc]
    unfold Schedule.restStep
    split_ifs <;> first | rfl | omega

theorem cycle (h : r.AtCycle S c) (hc : c < S.total) : r.cycle.AtCycle S (c + 1) := by
  obtain ⟨hentry, hexit, hspeed⟩ := h.stepP hc
  have hrest := h.nextE hc
  have hp : r.stepP.intermediateP = S.speed + (S.accs.take (c + 1)).sum := by
    rw [hspeed, h.intermediateP, Schedule.sum_take_accs_succ hc, add_assoc]
  obtain ⟨hrecE, hrecP, -, hn, htotal⟩ := r.stepP_record
  have hkept : r.stepP.N1 = r.N1 ∧ r.stepP.N2 = r.N2 ∧ r.stepP.N3 = r.N3 ∧ r.stepP.N4 = r.N4 ∧
      r.stepP.N5 = r.N5 ∧ r.stepP.N6 = r.N6 ∧ r.stepP.N7 = r.N7 ∧ r.stepP.j1 = r.j1 ∧
      r.stepP.j3 = r.j3 ∧ r.stepP.j5 = r.j5 ∧ r.stepP.j7 = r.j7 ∧ r.stepP.a13 = r.a13 ∧
      r.stepP.a57 = r.a57 := by
    unfold Impl.stepP
    split_ifs <;> simp
  obtain ⟨k1, k2, k3, k4, k5, k6, k7, l1, l3, l5, l7, m1, m5⟩ := hkept
  refine ⟨k1.trans h.N1, k2.trans h.N2, k3.trans h.N3, k4.trans h.N4, k5.trans h.N5, k6.trans h.N6,
    k7.trans h.N7, htotal.trans h.totalN, l1.trans h.j1, l3.trans h.j3, l5.trans h.j5, l7.trans h.j7,
    m1.trans h.a13, m5.trans h.a57, ?_, hentry, hexit, hp, ?_, fun hlt => ?_, ?_⟩
  · rw [Impl.cycle_currentN, h.currentN]
    rfl
  · show r.stepP.recordIntermediateP + r.stepP.intermediateP = _
    rw [hrecP, h.recordP, hp, Schedule.sum_take_speeds_succ hc]
  · show r.nextE = _
    rw [hrest, if_neg (by omega)]
  · show r.stepP.recordIntermediateE + r.nextE = _
    rw [hrecE, h.recordE, hrest]
    split
    · -- all corrections are recorded
      rw [add_zero, List.take_of_length_le (by simp; omega), List.take_of_length_le (by simp; omega)]
    · rw [Schedule.sum_take_rests_succ (by omega)]

/-- The increment of a cycle: its speed and correction; the last one leads to the length. -/
theorem cycle_intermediate (h : r.AtCycle S c) (hc : c < S.total) :
    r.cycle.intermediate =
      if c + 1 = S.total then r.length - ((S.speeds.take c).sum + S.rests.sum)
      else (S.speed + (S.accs.take (c + 1)).sum) + (S.rest + (S.restSteps.take (c + 1)).sum) := by
  have hsum := r.cycle_intermediate
  have hnext := h.cycle hc
  rw [h.recordE, h.recordP, h.currentN, h.totalN, hnext.recordE, hnext.recordP] at hsum
  split_ifs at hsum ⊢ with h1 h2 h2
  · rw [← hsum, List.take_of_length_le (by simp; omega)]
    ring
  · omega
  · omega
  · rw [Schedule.sum_take_speeds_succ hc, Schedule.sum_take_rests_succ (by omega)] at hsum
    linear_combination hsum

end Impl.AtCycle

/-- Contributions that are not negative, together not more than the length. -/
structure Schedule.Sound [IsStrictOrderedRing K] (S : Schedule K) (s : K) : Prop where
  speeds : ∀ v ∈ S.speeds, 0 ≤ v
  rests : ∀ e ∈ S.rests, 0 ≤ e
  sum_le : S.speeds.sum + S.rests.sum ≤ s

/-- The length gone before the cycle `c`. -/
def Schedule.gone (S : Schedule K) (c : ℕ) : K := (S.speeds.take c).sum + (S.rests.take c).sum

/-- No increment is negative: each cycle but the last adds its speed and correction, and what is left for
the last one is not negative. -/
structure Schedule.Forward (S : Schedule K) (s : K) : Prop where
  cycles : ∀ c, c + 1 < S.total →
    0 ≤ (S.speed + (S.accs.take (c + 1)).sum) + (S.rest + (S.restSteps.take (c + 1)).sum)
  last : 0 < S.total → S.speeds.sum + S.rests.sum ≤ s + (S.speed + S.accs.sum)

section Sound

variable [IsStrictOrderedRing K] {r : Impl K} {s : K}

/-- A cycle goes on by its speed and correction. -/
theorem Schedule.gone_succ (h : c + 1 < S.total) :
    S.gone (c + 1) = S.gone c +
      ((S.speed + (S.accs.take (c + 1)).sum) + (S.rest + (S.restSteps.take (c + 1)).sum)) := by
  unfold gone
  rw [sum_take_speeds_succ (by omega), sum_take_rests_succ h]
  ring

/-- Before the last cycle only its speed is missing. -/
theorem Schedule.gone_last (h : c + 1 = S.total) :
    S.gone c + (S.speed + S.accs.sum) = S.speeds.sum + S.rests.sum := by
  have hspeeds := sum_take_speeds_succ (S := S) (c := c) (by omega)
  have hall : S.speeds.take (c + 1) = S.speeds := List.take_of_length_le (by simp; omega)
  have haccs : S.accs.take (c + 1) = S.accs := List.take_of_length_le (by simp; omega)
  have hrests : S.rests.take c = S.rests := List.take_of_length_le (by simp; omega)
  rw [hall, haccs] at hspeeds
  rw [gone, hrests, hspeeds]
  ring

/-- A schedule that goes forward is never past its end. -/
theorem Schedule.Forward.gone_le (h : S.Forward s) (hc : c < S.total) : S.gone c ≤ s := by
  -- from the last cycle backwards
  induction hd : S.total - (c + 1) generalizing c with
  | zero =>
    have hend := gone_last (S := S) (c := c) (by omega)
    have hlast := h.last (by omega)
    linarith
  | succ d ih =>
    have hnext := ih (c := c + 1) (by omega) (by omega)
    have hstep := h.cycles c (by omega)
    rw [gone_succ (by omega)] at hnext
    linarith

/-- The speed after `c + 1` cycles is one of the speeds. -/
theorem Schedule.speed_mem (h : c < S.total) : S.speed + (S.accs.take (c + 1)).sum ∈ S.speeds := by
  refine List.mem_iff_getElem.mpr ⟨c, by simpa using h, ?_⟩
  simp only [speeds, getElem_totals]

theorem Schedule.rest_mem (h : c + 1 < S.total) :
    S.rest + (S.restSteps.take (c + 1)).sum ∈ S.rests := by
  refine List.mem_iff_getElem.mpr ⟨c, by rw [length_rests]; omega, ?_⟩
  simp only [rests, getElem_totals]

/-- Contributions that are not negative, where the last speed makes up for what they exceed the length. -/
theorem Schedule.forward_of_nonneg (hspeeds : ∀ v ∈ S.speeds, 0 ≤ v) (hrests : ∀ e ∈ S.rests, 0 ≤ e)
    (hlast : 0 < S.total → S.speeds.sum + S.rests.sum ≤ s + (S.speed + S.accs.sum)) : S.Forward s :=
  ⟨fun _ hc => add_nonneg (hspeeds _ (speed_mem (by omega))) (hrests _ (rest_mem hc)), hlast⟩

/-- Contributions that are not negative and do not exceed the length go forward. -/
theorem Schedule.Sound.forward (h : S.Sound s) : S.Forward s := by
  refine forward_of_nonneg h.speeds h.rests fun hpos => ?_
  have hend := h.speeds _ (speed_mem (S := S) (c := S.total - 1) (by omega))
  rw [List.take_of_length_le (by simp; omega)] at hend
  have hle := h.sum_le
  linarith

/-- No increment of a schedule that goes forward is negative. -/
theorem Impl.AtCycle.increment_nonneg (h : r.AtCycle S c) (hc : c < S.total)
    (hs : S.Forward r.length) : 0 ≤ r.cycle.intermediate := by
  rw [h.cycle_intermediate hc]
  split_ifs with hlast
  · -- what the others leave of the length
    have hrests : S.rests.take c = S.rests := List.take_of_length_le (by simp; omega)
    have hle := hs.gone_le hc
    rw [Schedule.gone, hrests] at hle
    linarith
  · exact hs.cycles c (by omega)

end Sound

/-! ### The schedule of a profile -/

section OfProfile

variable {T vi s v0 v1 v2 v3 : K} {f : Profile K}

/-- The schedule of the phases `f`. -/
def Schedule.ofProfile (T vi s : K) (f : Profile K) : Schedule K :=
  { n1 := f.entry.jerkN.toNat
    n2 := f.entry.accN.toNat
    n4 := f.n4.toNat
    n5 := f.exit.jerkN.toNat
    n6 := f.exit.accN.toNat
    speed := vi * T
    j1 := f.entry.j * (T * T * T)
    j5 := f.exit.j * (T * T * T)
    rest := (Impl.ofProfile T vi s f).intermediateE
    a13 := (Impl.ofProfile T vi s f).a13
    a57 := (Impl.ofProfile T vi s f).a57 }

theorem Impl.ofProfile_atCycle (he : NonNeg f.entry) (hx : NonNeg f.exit) (hn : 0 ≤ f.n4) :
    (Impl.ofProfile T vi s f).AtCycle (.ofProfile T vi s f) 0 := by
  obtain ⟨he1, he2⟩ := he
  obtain ⟨hx1, hx2⟩ := hx
  have htotal : f.entry.jerkN + f.entry.accN + f.entry.jerkN + f.n4 + f.exit.jerkN + f.exit.accN +
      f.exit.jerkN = ((Schedule.ofProfile T vi s f).total : ℤ) := by
    simp only [Schedule.total, Schedule.entryN, Schedule.exitN, Schedule.ofProfile]
    omega
  constructor
  case N1 | N3 => exact (Int.toNat_of_nonneg he1).symm
  case N2 => exact (Int.toNat_of_nonneg he2).symm
  case N4 => exact (Int.toNat_of_nonneg hn).symm
  case N5 | N7 => exact (Int.toNat_of_nonneg hx1).symm
  case N6 => exact (Int.toNat_of_nonneg hx2).symm
  case totalN => exact htotal
  case j3 | j7 => exact neg_mul _ _
  case currentN => rfl
  all_goals simp [Impl.ofProfile, Schedule.ofProfile]

/-- The ramp leads from the speed `v0` to `v1`: its jerks make the difference and its length is the way of
its cycles. -/
structure Leads (T v0 v1 : K) (r : Ramp K) : Prop where
  nonNeg : NonNeg r
  bare : r.jerkN = 0 → r.accN = 0
  change : r.j * (T * T * T) * (r.jerkN * (r.jerkN + r.accN)) = (v1 - v0) * T
  length : r.s = ((v0 + v1) * (r.jerkN + 1 / 2 * r.accN) + (v1 - v0)) * T

theorem leads_none {j v : K} : Leads T v v (Ramp.none j) := by
  refine ⟨⟨le_rfl, le_rfl⟩, fun _ => rfl, ?_, ?_⟩ <;> simp [Ramp.none]

variable [IsStrictOrderedRing K]

theorem leads_rampOf {n m : ℤ} (hT : 0 < T) (hn : 1 ≤ n) (hm : 0 ≤ m) :
    Leads T v0 v1 (rampOf T v0 v1 n m) := by
  have hn' : (0 : K) < n := by exact_mod_cast hn
  have hm' : (0 : K) ≤ m := by exact_mod_cast hm
  have hne : (rampOf T v0 v1 n m).jerkN = 0 → (rampOf T v0 v1 n m).accN = 0 := fun h => by
    have h : n = 0 := h
    omega
  refine ⟨⟨by show 0 ≤ n; omega, hm⟩, hne, ?_, ?_⟩
  · show (v1 - v0) / (n * T) / (n * T + m * T) * (T * T * T) * (n * (n + m)) = (v1 - v0) * T
    have hsum : (n : K) + m ≠ 0 := by linarith
    rw [← add_mul]
    field_simp
  · show targetLengthIod v0 v1 (n * T) (m * T) T = ((v0 + v1) * (n + 1 / 2 * m) + (v1 - v0)) * T
    unfold targetLengthIod
    ring

/-- The speeds of a schedule whose ramps fit together add up to the lengths of its phases. -/
theorem sum_speeds_ofProfile (he : Leads T vi v1 f.entry) (hx : Leads T v1 v2 f.exit)
    (hn : 0 ≤ f.n4) :
    (Schedule.ofProfile T vi s f).speeds.sum = f.entry.s + v1 * f.n4 * T + f.exit.s := by
  have hcast {z : ℤ} (h : 0 ≤ z) : ((z.toNat : ℕ) : K) = z := by
    exact_mod_cast congrArg (Int.cast (R := K)) (Int.toNat_of_nonneg h)
  have h1 := he.change
  have h2 := hx.change
  rw [← hcast he.nonNeg.1, ← hcast he.nonNeg.2] at h1
  rw [← hcast hx.nonNeg.1, ← hcast hx.nonNeg.2] at h2
  unfold Schedule.speeds Schedule.accs Schedule.jerks
  simp only [Schedule.ofProfile]
  rw [totals_append, totals_append, totals_append, totals_append, List.sum_append, List.sum_append]
  simp only [sum_ramp, totals_replicate_zero, List.sum_replicate, smul_zero, add_zero,
    sum_totals_ramp, sum_speeds_ramp, h1, h2, nsmul_eq_mul]
  rw [hcast he.nonNeg.1, hcast he.nonNeg.2, hcast hx.nonNeg.1, hcast hx.nonNeg.2, hcast hn, he.length,
    hx.length]
  ring

/-- A speed is one of the entry, of the cruise or of the exit. -/
theorem mem_speeds_ofProfile (he : Leads T vi v1 f.entry) {v : K}
    (hv : v ∈ (Schedule.ofProfile T vi s f).speeds) :
    v ∈ totals (vi * T) (totals 0
        (ramp f.entry.jerkN.toNat f.entry.accN.toNat (f.entry.j * (T * T * T)))) ∨
      v = v1 * T ∨
      v ∈ totals (v1 * T) (totals 0
        (ramp f.exit.jerkN.toNat f.exit.accN.toNat (f.exit.j * (T * T * T)))) := by
  have hcast {z : ℤ} (h : 0 ≤ z) : ((z.toNat : ℕ) : K) = z := by
    exact_mod_cast congrArg (Int.cast (R := K)) (Int.toNat_of_nonneg h)
  have hentry := he.change
  rw [← hcast he.nonNeg.1, ← hcast he.nonNeg.2] at hentry
  have hcruise : vi * T + (v1 - vi) * T = v1 * T := by ring
  unfold Schedule.speeds Schedule.accs Schedule.jerks at hv
  simp only [Schedule.ofProfile] at hv
  rw [totals_append, totals_append, totals_append, totals_append, List.mem_append,
    List.mem_append] at hv
  simp only [sum_ramp, totals_replicate_zero, List.sum_replicate, smul_zero, add_zero,
    sum_totals_ramp, hentry, hcruise] at hv
  exact hv.imp_right (Or.imp_left List.eq_of_mem_replicate)

/-- The speeds a ramp starts and ends with. -/
theorem Leads.ends {r : Ramp K} (h : Leads T v0 v1 r) :
    v0 * T + r.j * (T * T * T) *
      ((r.jerkN.toNat : ℕ) * ((r.jerkN.toNat : ℕ) + (r.accN.toNat : ℕ))) = v1 * T := by
  have hcast {z : ℤ} (h : 0 ≤ z) : ((z.toNat : ℕ) : K) = z := by
    exact_mod_cast congrArg (Int.cast (R := K)) (Int.toNat_of_nonneg h)
  rw [hcast h.nonNeg.1, hcast h.nonNeg.2, h.change]
  ring

/-- Between speeds that are not negative no speed is. -/
theorem speeds_ofProfile_nonneg (hT : 0 ≤ T) (he : Leads T vi v1 f.entry)
    (hx : Leads T v1 v2 f.exit) (h0 : 0 ≤ vi) (h1 : 0 ≤ v1) (h2 : 0 ≤ v2) {v : K}
    (hv : v ∈ (Schedule.ofProfile T vi s f).speeds) : 0 ≤ v := by
  rcases mem_speeds_ofProfile he hv with hv | rfl | hv
  · refine speeds_ramp_nonneg (mul_nonneg h0 hT) ?_ hv
    rw [he.ends]
    exact mul_nonneg h1 hT
  · exact mul_nonneg h1 hT
  · refine speeds_ramp_nonneg (mul_nonneg h1 hT) ?_ hv
    rw [hx.ends]
    exact mul_nonneg h2 hT

/-- Between speeds that are not above `top` no speed is. -/
theorem speeds_ofProfile_le {top : K} (hT : 0 ≤ T) (he : Leads T vi v1 f.entry)
    (hx : Leads T v1 v2 f.exit) (h0 : vi ≤ top) (h1 : v1 ≤ top) (h2 : v2 ≤ top) {v : K}
    (hv : v ∈ (Schedule.ofProfile T vi s f).speeds) : v ≤ top * T := by
  rcases mem_speeds_ofProfile he hv with hv | rfl | hv
  · refine speeds_ramp_le (mul_le_mul_of_nonneg_right h0 hT) ?_ hv
    rw [he.ends]
    exact mul_le_mul_of_nonneg_right h1 hT
  · exact mul_le_mul_of_nonneg_right h1 hT
  · refine speeds_ramp_le (mul_le_mul_of_nonneg_right h1 hT) ?_ hv
    rw [hx.ends]
    exact mul_le_mul_of_nonneg_right h2 hT

/-! ### The corrections -/

/-- Without a slope every correction is the first one. -/
theorem rests_flat (h13 : S.a13 = 0) (h57 : S.a57 = 0) :
    S.rests = List.replicate (S.total - 1) S.rest := by
  have hsteps : S.restSteps = List.replicate (S.total - 1) 0 := by
    refine List.eq_replicate_iff.mpr ⟨by simp [Schedule.restSteps], fun d hd => ?_⟩
    obtain ⟨c, -, rfl⟩ := List.mem_map.mp hd
    simp [Schedule.restStep, h13, h57]
  rw [Schedule.rests, hsteps, totals_replicate_zero]

/-- With ramps on both sides the correction rises over the entry and falls over the exit. -/
theorem restSteps_both (he : 1 ≤ S.entryN) (hx : 1 ≤ S.exitN) :
    S.restSteps = List.replicate 1 0 ++ (List.replicate (S.entryN - 1) S.a13 ++
      (List.replicate S.n4 0 ++ List.replicate (S.exitN - 1) S.a57)) := by
  have htotal : S.total = S.entryN + S.n4 + S.exitN := rfl
  refine List.ext_getElem? fun c => ?_
  simp only [Schedule.restSteps, List.getElem?_map, List.getElem?_append, List.length_replicate,
    List.getElem?_replicate]
  rcases lt_or_ge c (S.total - 1) with hc | hc
  · rw [List.getElem?_range hc, Option.map_some]
    unfold Schedule.restStep
    split_ifs <;> first | rfl | omega
  · rw [List.getElem?_eq_none (by simpa using hc), Option.map_none]
    split_ifs <;> first | rfl | omega

/-- The corrections rise from zero to `u` and fall back to zero. -/
theorem rests_both (he : 2 ≤ S.entryN) (hx : 2 ≤ S.exitN) (h0 : S.rest = 0) {u : K}
    (h13 : (S.entryN - 1) * S.a13 = u) (h57 : (S.exitN - 1) * S.a57 = -u) :
    (∀ e ∈ S.rests, ∃ t : K, 0 ≤ t ∧ t ≤ 1 ∧ e = t * u) ∧
      S.rests.sum = u * (S.entryN + 2 * S.n4 + S.exitN - 2) / 2 := by
  have hA : ((S.entryN - 1 : ℕ) : K) = S.entryN - 1 := by
    rw [Nat.cast_sub (by omega), Nat.cast_one]
  have hB : ((S.exitN - 1 : ℕ) : K) = S.exitN - 1 := by
    rw [Nat.cast_sub (by omega), Nat.cast_one]
  have hA0 : (0 : K) < S.entryN - 1 := by
    rw [← hA]
    exact_mod_cast (by omega : 0 < S.entryN - 1)
  have hB0 : (0 : K) < S.exitN - 1 := by
    rw [← hB]
    exact_mod_cast (by omega : 0 < S.exitN - 1)
  rw [Schedule.rests, restSteps_both (by omega) (by omega), totals_append, totals_append,
    totals_append, h0]
  simp only [List.replicate_one, totals_cons, totals_nil, add_zero, List.sum_cons, List.sum_nil,
    List.sum_replicate, nsmul_eq_mul, hA, h13, zero_add, mul_zero, totals_replicate_zero]
  constructor
  · intro e hmem
    simp only [List.mem_append, List.mem_singleton] at hmem
    rcases hmem with rfl | hmem | hmem | hmem
    · exact ⟨0, le_rfl, zero_le_one, (zero_mul u).symm⟩
    · obtain ⟨i, -, hi, rfl⟩ := mem_totals_replicate hmem
      have hi : (i : K) ≤ S.entryN - 1 := hA ▸ Nat.cast_le.mpr hi
      refine ⟨i / (S.entryN - 1), div_nonneg i.cast_nonneg hA0.le, (div_le_one hA0).mpr hi, ?_⟩
      rw [← h13, zero_add, nsmul_eq_mul, ← mul_assoc, div_mul_cancel₀ _ hA0.ne']
    · exact ⟨1, zero_le_one, le_rfl, (List.eq_of_mem_replicate hmem).trans (one_mul u).symm⟩
    · obtain ⟨i, -, hi, rfl⟩ := mem_totals_replicate hmem
      have hi : (i : K) ≤ S.exitN - 1 := hB ▸ Nat.cast_le.mpr hi
      refine ⟨1 - i / (S.exitN - 1), sub_nonneg.mpr ((div_le_one hB0).mpr hi),
        sub_le_self _ (div_nonneg i.cast_nonneg hB0.le), ?_⟩
      have hu : u = (S.exitN - 1) * -S.a57 := by linarith
      rw [sub_mul, one_mul, nsmul_eq_mul, sub_eq_add_neg]
      congr 1
      rw [hu, ← mul_assoc, div_mul_cancel₀ _ hB0.ne', mul_neg, neg_neg]
  · simp only [List.sum_append, List.sum_cons, List.sum_nil, sum_totals_replicate, List.sum_replicate,
      nsmul_eq_mul, hA, hB]
    linear_combination (S.entryN / 2 : K) * h13 + (S.exitN / 2 : K) * h57

/-- How the rest `s0` is spread: with ramps on both sides by slopes to and from `u`, else evenly. -/
inductive Schedule.Spreads (S : Schedule K) (s0 : K) : Prop where
  | both (u : K) (hentry : 2 ≤ S.entryN) (hexit : 2 ≤ S.exitN) (hrest : S.rest = 0)
      (hu : u * (S.entryN + 2 * S.n4 + S.exitN - 2) = 2 * s0)
      (h13 : (S.entryN - 1) * S.a13 = u) (h57 : (S.exitN - 1) * S.a57 = -u)
  | flat (h13 : S.a13 = 0) (h57 : S.a57 = 0) (hrest : S.rest = s0 / ((S.total : ℤ) - 1 : ℤ))

theorem spreads_ofProfile (vi s : K) (hT : 0 < T) (he : Leads T v0 v1 f.entry)
    (hx : Leads T v2 v3 f.exit) (hn : 0 ≤ f.n4) :
    (Schedule.ofProfile T vi s f).Spreads (s - f.entry.s - f.s4 - f.exit.s) := by
  obtain ⟨he1, he2⟩ := he.nonNeg
  obtain ⟨hx1, hx2⟩ := hx.nonNeg
  have hA : ((Schedule.ofProfile T vi s f).entryN : ℤ) =
      f.entry.jerkN + f.entry.accN + f.entry.jerkN := by
    simp only [Schedule.entryN, Schedule.ofProfile]
    omega
  have hB : ((Schedule.ofProfile T vi s f).exitN : ℤ) =
      f.exit.jerkN + f.exit.accN + f.exit.jerkN := by
    simp only [Schedule.exitN, Schedule.ofProfile]
    omega
  have hC : ((Schedule.ofProfile T vi s f).n4 : ℤ) = f.n4 := Int.toNat_of_nonneg hn
  have htotal : (Schedule.ofProfile T vi s f).total = (Schedule.ofProfile T vi s f).entryN +
      (Schedule.ofProfile T vi s f).n4 + (Schedule.ofProfile T vi s f).exitN := rfl
  by_cases hboth : f.entry.jerkN > 0 ∧ f.exit.jerkN > 0
  · obtain ⟨h1, h5⟩ := hboth
    have h0' : (Schedule.ofProfile T vi s f).rest = 0 := by
      simp [Schedule.ofProfile, Impl.ofProfile, h1, h5]
    have hd : (0 : K) < (Schedule.ofProfile T vi s f).entryN +
        2 * (Schedule.ofProfile T vi s f).n4 + (Schedule.ofProfile T vi s f).exitN - 2 := by
      exact_mod_cast (by omega : (0 : ℤ) < (Schedule.ofProfile T vi s f).entryN +
        2 * (Schedule.ofProfile T vi s f).n4 + (Schedule.ofProfile T vi s f).exitN - 2)
    have hA1 : (0 : K) < (Schedule.ofProfile T vi s f).entryN - 1 := by
      exact_mod_cast (by omega : (0 : ℤ) < (Schedule.ofProfile T vi s f).entryN - 1)
    have hB1 : (0 : K) < (Schedule.ofProfile T vi s f).exitN - 1 := by
      exact_mod_cast (by omega : (0 : ℤ) < (Schedule.ofProfile T vi s f).exitN - 1)
    have h13 : (Schedule.ofProfile T vi s f).a13 = 2 * (s - f.entry.s - f.s4 - f.exit.s) /
        (f.n4 + f.entry.jerkN + f.entry.accN + f.entry.jerkN + f.n4 + f.exit.jerkN + f.exit.accN +
          f.exit.jerkN - 2 : ℤ) / T /
        ((f.entry.jerkN + f.entry.accN + f.entry.jerkN - 1 : ℤ) * T) * T * T := by
      simp [Schedule.ofProfile, Impl.ofProfile, h1, h5]
    have h57 : (Schedule.ofProfile T vi s f).a57 = -1 * (2 * (s - f.entry.s - f.s4 - f.exit.s) /
        (f.n4 + f.entry.jerkN + f.entry.accN + f.entry.jerkN + f.n4 + f.exit.jerkN + f.exit.accN +
          f.exit.jerkN - 2 : ℤ) / T) /
        ((f.exit.jerkN + f.exit.accN + f.exit.jerkN - 1 : ℤ) * T) * T * T := by
      simp [Schedule.ofProfile, Impl.ofProfile, h1, h5]
    have hcd : ((f.n4 + f.entry.jerkN + f.entry.accN + f.entry.jerkN + f.n4 + f.exit.jerkN +
        f.exit.accN + f.exit.jerkN - 2 : ℤ) : K) = (Schedule.ofProfile T vi s f).entryN +
          2 * (Schedule.ofProfile T vi s f).n4 + (Schedule.ofProfile T vi s f).exitN - 2 := by
      exact_mod_cast congrArg (Int.cast (R := K)) (by omega : f.n4 + f.entry.jerkN + f.entry.accN +
        f.entry.jerkN + f.n4 + f.exit.jerkN + f.exit.accN + f.exit.jerkN - 2 =
        (Schedule.ofProfile T vi s f).entryN + 2 * (Schedule.ofProfile T vi s f).n4 +
          (Schedule.ofProfile T vi s f).exitN - 2)
    have hca : ((f.entry.jerkN + f.entry.accN + f.entry.jerkN - 1 : ℤ) : K) =
        (Schedule.ofProfile T vi s f).entryN - 1 := by
      exact_mod_cast congrArg (Int.cast (R := K)) (by omega : f.entry.jerkN + f.entry.accN +
        f.entry.jerkN - 1 = ((Schedule.ofProfile T vi s f).entryN : ℤ) - 1)
    have hcb : ((f.exit.jerkN + f.exit.accN + f.exit.jerkN - 1 : ℤ) : K) =
        (Schedule.ofProfile T vi s f).exitN - 1 := by
      exact_mod_cast congrArg (Int.cast (R := K)) (by omega : f.exit.jerkN + f.exit.accN +
        f.exit.jerkN - 1 = ((Schedule.ofProfile T vi s f).exitN : ℤ) - 1)
    rw [hcd, hca] at h13
    rw [hcd, hcb] at h57
    generalize Schedule.ofProfile T vi s f = S at *
    generalize s - f.entry.s - f.s4 - f.exit.s = s0 at *
    exact .both (2 * s0 / (S.entryN + 2 * S.n4 + S.exitN - 2)) (by omega) (by omega) h0'
      (div_mul_cancel₀ _ hd.ne') (by rw [h13]; field_simp) (by rw [h57]; field_simp)
  · have h13 : (Schedule.ofProfile T vi s f).a13 = 0 := by
      simp [Schedule.ofProfile, Impl.ofProfile, hboth]
    have h57 : (Schedule.ofProfile T vi s f).a57 = 0 := by
      simp [Schedule.ofProfile, Impl.ofProfile, hboth]
    refine .flat h13 h57 ?_
    have hde := he.bare
    have hdx := hx.bare
    show (Impl.ofProfile T vi s f).intermediateE = _
    unfold Impl.ofProfile
    simp only [hboth, if_false]
    split_ifs <;> rw [div_mul_cancel₀ _ hT.ne'] <;> congr 2 <;> omega

/-- A correction is a part of the rest, two parts of `total - 2` at most. -/
theorem Schedule.Spreads.exists_of_mem_rests {s0 e : K} (h : S.Spreads s0) (he : e ∈ S.rests) :
    ∃ t : K, 0 ≤ t ∧ t * (S.total - 2) ≤ 2 ∧ e = t * s0 := by
  have htotal : (S.total : K) = S.entryN + S.n4 + S.exitN := by
    exact_mod_cast congrArg (Nat.cast (R := K)) (rfl : S.total = S.entryN + S.n4 + S.exitN)
  cases h with
  | both u hentry hexit hrest hu h13 h57 =>
    have hn4 : (0 : K) ≤ S.n4 := Nat.cast_nonneg _
    have hd : (0 : K) < S.entryN + 2 * S.n4 + S.exitN - 2 := by
      exact_mod_cast (by omega : (0 : ℤ) < S.entryN + 2 * S.n4 + S.exitN - 2)
    obtain ⟨t, ht0, ht1, rfl⟩ := (rests_both hentry hexit hrest h13 h57).1 e he
    have hle : t * (S.total - 2) ≤ S.entryN + 2 * S.n4 + S.exitN - 2 := by
      have h2 : (0 : K) ≤ S.total - 2 := by
        have h4 : 2 ≤ S.total := by
          unfold Schedule.total
          omega
        exact sub_nonneg.mpr (by exact_mod_cast h4)
      refine (mul_le_of_le_one_left h2 ht1).trans ?_
      linarith
    refine ⟨t * 2 / (S.entryN + 2 * S.n4 + S.exitN - 2), div_nonneg (by linarith) hd.le, ?_, ?_⟩
    · rw [div_mul_eq_mul_div, div_le_iff₀ hd]
      linarith
    · rw [div_mul_eq_mul_div, eq_div_iff hd.ne', mul_assoc, hu]
      ring
  | flat h13 h57 hrest =>
    rw [rests_flat h13 h57] at he
    obtain ⟨hlen, rfl⟩ := List.mem_replicate.mp he
    have hpos : (0 : K) < ((S.total : ℤ) - 1 : ℤ) := by
      exact_mod_cast (by omega : (0 : ℤ) < (S.total : ℤ) - 1)
    refine ⟨1 / ((S.total : ℤ) - 1 : ℤ), (one_div_pos.mpr hpos).le, ?_, ?_⟩
    · rw [one_div_mul_eq_div, div_le_iff₀ hpos]
      push_cast at hpos ⊢
      linarith
    · rw [hrest, one_div_mul_eq_div]

/-- The corrections of more than one cycle make up the rest. -/
theorem Schedule.Spreads.sum_rests {s0 : K} (h : S.Spreads s0) (h2 : 2 ≤ S.total) :
    S.rests.sum = s0 := by
  cases h with
  | both u hentry hexit hrest hu h13 h57 =>
    rw [(rests_both hentry hexit hrest h13 h57).2, hu, mul_div_cancel_left₀ _ two_ne_zero]
  | flat h13 h57 hrest =>
    have hcast : ((S.total - 1 : ℕ) : K) = ((S.total : ℤ) - 1 : ℤ) := by
      rw [← Int.cast_natCast]
      congr 1
      omega
    have hne : ((S.total - 1 : ℕ) : K) ≠ 0 := by exact_mod_cast (by omega : S.total - 1 ≠ 0)
    rw [rests_flat h13 h57, List.sum_replicate, nsmul_eq_mul, hrest, ← hcast,
      mul_div_cancel₀ _ hne]

/-- A rest that is not negative is spread over corrections that are not. -/
theorem rests_ofProfile (vi : K) (hT : 0 < T) (he : Leads T v0 v1 f.entry) (hx : Leads T v2 v3 f.exit)
    (hn : 0 ≤ f.n4) (h0 : 0 ≤ s - f.entry.s - f.s4 - f.exit.s) :
    (∀ e ∈ (Schedule.ofProfile T vi s f).rests, 0 ≤ e) ∧
      (Schedule.ofProfile T vi s f).rests.sum ≤ s - f.entry.s - f.s4 - f.exit.s := by
  have hspread := spreads_ofProfile vi s hT he hx hn
  refine ⟨fun e hmem => ?_, ?_⟩
  · obtain ⟨t, ht, -, rfl⟩ := hspread.exists_of_mem_rests hmem
    exact mul_nonneg ht h0
  · rcases lt_or_ge (Schedule.ofProfile T vi s f).total 2 with hlt | hge
    · have hnil : (Schedule.ofProfile T vi s f).rests = [] :=
        List.eq_nil_of_length_eq_zero (by rw [Schedule.length_rests]; omega)
      rw [hnil, List.sum_nil]
      exact h0
    · exact (hspread.sum_rests hge).le

end OfProfile

end Moveruntime

end Edm
