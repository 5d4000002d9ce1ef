import Edm.Motion.PlanDomain
import Edm.Motion.PlanSteps

/-!
# Where a plan goes forward

Every ramp has at least two jerk cycles. Where a ramp stretched over a length has to take them though the
length is less (`TooShort`), the rest `s0` is negative and is taken back from all cycles: the plan may
go past its end and back. `Fits` says of the input of a plan that this does not happen. A second way
is a cruise at a speed that only counts as equal to the planned one, a third an acceleration that counts
as zero.
-/

set_option linter.unusedSectionVars false

namespace Edm

namespace Moveruntime

open Kinematics

variable {K : Type} [Field K] [LinearOrder K]

section Ramps

/-- `rampByLen` takes its two jerk cycles though they are longer than the length. -/
def TooShort (T : K) (nacc : ℤ) (v0 v1 s : K) : Prop :=
  s - (v1 - v0) * T < (v0 + v1) * (nacc + 1 / 2) * T ∧ s - (v1 - v0) * T < (v0 + v1) * 2 * T

/-- A length so much too short that a plan of this ramp alone goes back. -/
def TooShortAlone (T : K) (nacc : ℤ) (v0 v1 s : K) : Prop :=
  TooShort T nacc v0 v1 s ∧ s < (if v1 < v0 then v0 else (9 * v1 - 5 * v0) / 4) * T

variable [FloorRing K] [RealFns K] [IsStrictOrderedRing K] {T v0 v1 a j s : K} {nacc : ℤ}

theorem rampByAcc_leads (hT : 0 < T) (hn : 1 ≤ nacc) :
    Leads T v0 v1 (rampByAcc T nacc v0 v1 a j) := by
  unfold rampByAcc
  extract_lets d0 n2
  split
  · exact leads_rampOf hT (by split <;> omega) le_rfl
  · exact leads_rampOf hT hn (by omega)

theorem rampByLen_leads (hT : 0 < T) (hn : 1 ≤ nacc) :
    Leads T v0 v1 (rampByLen T nacc v0 v1 s) := by
  unfold rampByLen
  extract_lets d0 n2
  split
  · exact leads_rampOf hT (by split <;> omega) le_rfl
  · exact leads_rampOf hT hn (by omega)

theorem rampReduced_leads (hT : 0 < T) (hn : 1 ≤ nacc) {vi ai s123 : K} :
    Leads T vi (reducedSpeed T nacc vi ai s123) (rampReduced T nacc vi ai s123).1 := by
  rw [rampReduced_eq, reducedSpeed]
  split
  · exact leads_rampOf hT (by split <;> omega) le_rfl
  · rename_i hd2
    exact leads_rampOf hT hn (Int.floor_nonneg.mpr (div_nonneg (not_lt.mp hd2) hT.le))

/-- A ramp over a length is not longer, or it is the shortest one. -/
theorem rampByLen_cases (nacc : ℤ) (s : K) (hT : 0 < T) (hv : 0 < v0 + v1) :
    (rampByLen T nacc v0 v1 s).s ≤ s ∨
      TooShort T nacc v0 v1 s ∧ rampByLen T nacc v0 v1 s = rampOf T v0 v1 2 0 := by
  have hv' : 0 < v1 + v0 := by linarith
  have hlen (n m : ℤ) : (rampOf T v0 v1 n m).s =
      (v0 + v1) * (n + 1 / 2 * m) * T + (v1 - v0) * T := by
    show (v0 + v1) * (n * T + 1 / 2 * (m * T)) + (v1 - v0) * T = _
    ring
  unfold rampByLen
  extract_lets d0 n2 d1 n1
  split
  · rename_i h2
    by_cases h1 : n1 < 2
    · refine .inr ⟨⟨?_, ?_⟩, by rw [if_pos h1]⟩
      · have h2 : n2 < 1 := h2
        rw [Int.floor_lt, Int.cast_one, div_lt_iff₀ hT, div_lt_iff₀ (by norm_num),
          div_lt_iff₀ hv'] at h2
        have hd0 : d0 = nacc * T := rfl
        rw [hd0] at h2
        linarith
      · rw [Int.floor_lt, div_lt_iff₀ hT, div_lt_iff₀ hv'] at h1
        push_cast at h1
        linarith
    · left
      have hn1 : (n1 : K) ≤ d1 / T := Int.floor_le _
      rw [le_div_iff₀ hT, le_div_iff₀ hv'] at hn1
      rw [if_neg h1, hlen]
      push_cast
      linarith
  · left
    have hn2 : (n2 : K) ≤ _ := Int.floor_le _
    rw [le_div_iff₀ hT, le_div_iff₀ (by norm_num), le_div_iff₀ hv'] at hn2
    have hd0 : d0 = nacc * T := rfl
    rw [hd0] at hn2
    rw [hlen]
    linarith

end Ramps

section Schedules

variable [IsStrictOrderedRing K] {T vi s v0 v1 v2 v3 : K} {f : Profile K}

/-- The speeds change by what the ramps change them. -/
theorem sum_accs_ofProfile (he : Leads T v0 v1 f.entry) (hx : Leads T v2 v3 f.exit) :
    (Schedule.ofProfile T vi s f).accs.sum = (v1 - v0) * T + (v3 - v2) * T := by
  have hcast {z : ℤ} (h : 0 ≤ z) : ((z.toNat : ℕ) : K) = z := by
    exact_mod_cast congrArg (Int.cast (R := K)) (Int.toNat_of_nonneg h)
  have hentry := he.change
  have hexit := hx.change
  rw [← hcast he.nonNeg.1, ← hcast he.nonNeg.2] at hentry
  rw [← hcast hx.nonNeg.1, ← hcast hx.nonNeg.2] at hexit
  unfold Schedule.accs Schedule.jerks
  simp only [Schedule.ofProfile]
  rw [totals_append, totals_append, List.sum_append, List.sum_append]
  simp only [sum_ramp, totals_replicate_zero, List.sum_replicate, smul_zero, add_zero,
    sum_totals_ramp, hentry, hexit, zero_add]

/-- Two ramps with a cruise between them that are not longer than the length. -/
theorem sound_ofProfile (hT : 0 < T) (he : Leads T vi v1 f.entry) (hx : Leads T v1 v2 f.exit)
    (h0 : 0 ≤ vi) (h1 : 0 ≤ v1) (h2 : 0 ≤ v2) (hn : 0 ≤ f.n4) (hs4 : f.s4 = v1 * f.n4 * T)
    (hrest : 0 ≤ s - f.entry.s - f.s4 - f.exit.s) : (Schedule.ofProfile T vi s f).Sound s := by
  obtain ⟨hnonneg, hsum⟩ := rests_ofProfile vi hT he hx hn hrest
  refine ⟨fun v hv => speeds_ofProfile_nonneg hT.le he hx h0 h1 h2 hv, hnonneg, ?_⟩
  rw [sum_speeds_ofProfile he hx hn, ← hs4]
  linarith

/-- Four cycles, two of a jerk and two of the opposite one, with one correction for all but the last. -/
theorem forward_of_four {S : Schedule K} {j : K} (htotal : S.total = 4)
    (hjerks : S.jerks = [j, j, -j, -j]) (h13 : S.a13 = 0) (h57 : S.a57 = 0)
    (hfirst : 0 ≤ S.speed + j + S.rest) (hthird : 0 ≤ S.speed + 4 * j + S.rest)
    (hsum : 3 * S.speed + 8 * j + 3 * S.rest ≤ s) : S.Forward s := by
  have haccs : S.accs = [j, 2 * j, j, 0] := by
    rw [Schedule.accs, hjerks]
    simp only [totals_cons, totals_nil, zero_add, add_neg_cancel_right, add_neg_cancel, two_mul]
  have hspeeds : S.speeds =
      [S.speed + j, S.speed + 3 * j, S.speed + 4 * j, S.speed + 4 * j] := by
    rw [Schedule.speeds, haccs]
    simp only [totals_cons, totals_nil, List.cons.injEq, true_and, and_true]
    refine ⟨?_, ?_, ?_⟩ <;> ring
  have hrests : S.rests = List.replicate 3 S.rest := by
    rw [rests_flat h13 h57, htotal]
  have hstep (c : ℕ) : (S.restSteps.take c).sum = 0 := by
    refine List.sum_eq_zero fun d hd => ?_
    obtain ⟨i, -, rfl⟩ := List.mem_map.mp (List.mem_of_mem_take hd)
    simp [Schedule.restStep, h13, h57]
  constructor
  · intro c hc
    rw [hstep, haccs]
    have hc : c < 3 := by omega
    interval_cases c <;> simp <;> linarith
  · intro _
    rw [hspeeds, hrests, haccs]
    simp only [List.sum_cons, List.sum_nil, List.sum_replicate, nsmul_eq_mul]
    push_cast
    linarith

/-- The shortest ramp alone goes forward down to a length of one cycle at the entry speed, or of a mean of
both speeds. -/
theorem forward_of_shortest (hT : 0 < T) (h0 : 0 ≤ v0) (h1 : 0 < v1)
    (hs : (if v1 < v0 then v0 else (9 * v1 - 5 * v0) / 4) * T ≤ s) :
    (Schedule.ofProfile T v0 s ⟨rampOf T v0 v1 2 0, 0, 0, Ramp.none 0⟩).Forward s := by
  let f : Profile K := ⟨rampOf T v0 v1 2 0, 0, 0, Ramp.none 0⟩
  have he : Leads T v0 v1 f.entry := leads_rampOf hT (by norm_num) le_rfl
  have hlen : f.entry.s = (v0 + 3 * v1) * T := by
    rw [he.length]
    show ((v0 + v1) * ((2 : ℤ) + 1 / 2 * (0 : ℤ)) + (v1 - v0)) * T = _
    push_cast
    ring
  have hj : (Schedule.ofProfile T v0 s f).j1 = (v1 - v0) * T / 4 := by
    have hchange := he.change
    have hn : (f.entry.jerkN : K) * (f.entry.jerkN + f.entry.accN) = 4 := by
      show ((2 : ℤ) : K) * ((2 : ℤ) + (0 : ℤ)) = 4
      norm_num
    rw [hn] at hchange
    rw [eq_div_iff four_ne_zero, ← hchange]
    rfl
  have hrest : (Schedule.ofProfile T v0 s f).rest = (s - (v0 + 3 * v1) * T) / 3 := by
    have hrest : (Schedule.ofProfile T v0 s f).rest =
        (s - f.entry.s - 0 - 0) / ((2 + 0 + 2 + 0 - 1 : ℤ) : K) / T * T := by
      simp [Schedule.ofProfile, Impl.ofProfile, f, rampOf, Ramp.none]
    rw [hrest, div_mul_cancel₀ _ hT.ne', hlen, sub_zero, sub_zero]
    norm_num
  have hspeed : (Schedule.ofProfile T v0 s f).speed = v0 * T := rfl
  have h0T := mul_nonneg h0 hT.le
  have h1T := mul_pos h1 hT
  show (Schedule.ofProfile T v0 s f).Forward s
  refine forward_of_four (j := (Schedule.ofProfile T v0 s f).j1) rfl rfl ?_ ?_ ?_ ?_ ?_
  · simp [Schedule.ofProfile, Impl.ofProfile, f, Ramp.none]
  · simp [Schedule.ofProfile, Impl.ofProfile, f, Ramp.none]
  all_goals rw [hspeed, hj, hrest]
  · split_ifs at hs with hlt
    · have hlt := mul_lt_mul_of_pos_right hlt hT
      linarith
    · linarith
  · split_ifs at hs with hlt
    · linarith
    · have hle := mul_le_mul_of_nonneg_right (not_lt.mp hlt) hT.le
      linarith
  · linarith

/-- A cruise at `vi` where the plan has `vc`: the difference adds up over the cycles, and the last one has
to make up for it. -/
theorem forward_of_drift {vc vo : K} {n4 : ℤ} {entry exit : Ramp K} (hT : 0 < T)
    (he : Leads T vi vi entry) (hes : entry.s = 0) (hx : Leads T vc vo exit) (h0 : 0 ≤ vi)
    (hn : 0 ≤ n4) (hend : 0 ≤ vi + (vo - vc))
    (hdrift : (vi - vc) * (n4 + 2 * exit.jerkN + exit.accN) ≤ vi + (vo - vc))
    (hrest : 0 ≤ s - entry.s - vc * n4 * T - exit.s) :
    (Schedule.ofProfile T vi s ⟨entry, n4, vc * n4 * T, exit⟩).Forward s := by
  let f : Profile K := ⟨entry, n4, vc * n4 * T, exit⟩
  -- the exit as it is gone through, from `vi` on
  let gone : Ramp K := { exit with s := exit.s + (vi - vc) * (2 * exit.jerkN + exit.accN) * T }
  have hgone : Leads T vi (vi + (vo - vc)) gone := by
    refine ⟨hx.nonNeg, hx.bare, ?_, ?_⟩
    · show exit.j * (T * T * T) * (exit.jerkN * (exit.jerkN + exit.accN)) = _
      rw [hx.change]
      ring
    · show exit.s + (vi - vc) * (2 * exit.jerkN + exit.accN) * T =
        ((vi + (vi + (vo - vc))) * (exit.jerkN + 1 / 2 * exit.accN) + (vi + (vo - vc) - vi)) * T
      rw [hx.length]
      ring
  let f' : Profile K := ⟨entry, n4, vc * n4 * T, gone⟩
  have hspeeds : (Schedule.ofProfile T vi s f).speeds = (Schedule.ofProfile T vi s f').speeds := rfl
  have hspeed : (Schedule.ofProfile T vi s f).speed = vi * T := rfl
  have haccs : (Schedule.ofProfile T vi s f).accs.sum = (vi - vi) * T + (vo - vc) * T :=
    sum_accs_ofProfile he hx
  have hsum : (Schedule.ofProfile T vi s f').speeds.sum = entry.s + vi * n4 * T + gone.s :=
    sum_speeds_ofProfile he hgone hn
  obtain ⟨hnonneg, hrests⟩ := rests_ofProfile (f := f) vi hT he hx hn hrest
  have hv (v : K) (hmem : v ∈ (Schedule.ofProfile T vi s f).speeds) : 0 ≤ v :=
    speeds_ofProfile_nonneg hT.le he hgone h0 h0 hend (hspeeds ▸ hmem)
  show (Schedule.ofProfile T vi s f).Forward s
  refine Schedule.forward_of_nonneg hv hnonneg fun _ => ?_
  have hgs : gone.s = exit.s + (vi - vc) * (2 * exit.jerkN + exit.accN) * T := rfl
  have hmul := mul_le_mul_of_nonneg_right hdrift hT.le
  rw [hspeeds, hsum, hspeed, haccs, hgs, hes]
  have hrests : (Schedule.ofProfile T vi s f).rests.sum ≤ s - entry.s - vc * n4 * T - exit.s := hrests
  rw [hes] at hrests
  linarith

end Schedules

/-! ### Plans -/

section Plans

variable [FloorRing K] [RealFns K]

/-- The ramps to and from the cruise speed are longer than the length. -/
def RampsTooLong (T : K) (p : MoveRuntimePlanSpeedInput K) (s : K) : Prop :=
  directLength T p < s ∧ p.cruiseV * cruiseN T p s * T < 0

/-- The whole plan is one ramp. -/
def PlansOneRamp (T : K) (p : MoveRuntimePlanSpeedInput K) (s : K) : Prop :=
  s ≤ directLength T p ∨ RampsTooLong T p s ∧ OneSided p

/-- The plan is two ramps over a reduced speed. -/
def PlansReduced (T : K) (p : MoveRuntimePlanSpeedInput K) (s : K) : Prop :=
  RampsTooLong T p s ∧ ¬OneSided p ∧ Opposite p

/-- The plan keeps two ramps that are too long: one acceleration is zero and the other one counts as
zero. -/
def PlansTooLong (T : K) (p : MoveRuntimePlanSpeedInput K) (s : K) : Prop :=
  RampsTooLong T p s ∧ ¬OneSided p ∧ ¬Opposite p

/-- The plan cruises between two ramps. -/
def PlansCruise (T : K) (p : MoveRuntimePlanSpeedInput K) (s : K) : Prop :=
  directLength T p < s ∧ 0 ≤ p.cruiseV * cruiseN T p s * T

/-- The speed a cruise ends with that is entered with `entryV` in place of `cruiseV`. -/
def driftedEnd (p : MoveRuntimePlanSpeedInput K) : K :=
  p.entryV + (if |exitSpeed p - p.cruiseV| < speedEps then 0 else exitSpeed p - p.cruiseV)

/-- An entry speed that counts as the cruise speed keeps the cruise within what the last cycle can make up
for. -/
def DriftFits (T : K) (p : MoveRuntimePlanSpeedInput K) (s : K) : Prop :=
  p.entryV = p.cruiseV ∨
    0 ≤ driftedEnd p ∧ (p.entryV - p.cruiseV) *
      (cruiseN T p s + 2 * (exitRamp T p).jerkN + (exitRamp T p).accN) ≤ driftedEnd p

/-- The length fits the plan made for it. -/
structure Fits (T : K) (p : MoveRuntimePlanSpeedInput K) (s : K) : Prop where
  oneRamp : PlansOneRamp T p s → ¬TooShortAlone T (planNacc p) p.entryV (exitSpeed p) s
  reduced : PlansReduced T p s → (entryAcc p < 0 → ReducedRootsExist T p s) ∧
    ¬TooShort T (planNacc p) (reducedRamp T p s).2 (exitSpeed p) (s - (reducedRamp T p s).1.s)
  planned : ¬PlansTooLong T p s
  cruise : PlansCruise T p s → |p.entryV - p.cruiseV| < speedEps → DriftFits T p s

variable [IsStrictOrderedRing K] {T s : K} {p : MoveRuntimePlanSpeedInput K}

/-- The entry leads to the cruise speed, or there is none. -/
theorem entryRamp_leads (hT : 0 < T) (ha : p.acc0 ≠ 0) (hd : p.dec0 ≠ 0) :
    Leads T p.entryV p.cruiseV (entryRamp T p) ∨
      |p.entryV - p.cruiseV| < speedEps ∧ (entryRamp T p).s = 0 ∧
        Leads T p.entryV p.entryV (entryRamp T p) := by
  unfold entryRamp
  split
  · exact .inl (rampByAcc_leads hT (one_le_clampNacc _))
  · rename_i hnot
    have hzero : entryAcc p = 0 := not_not.mp (mt abs_pos.mpr hnot)
    exact .inr ⟨accFromTo_eq_zero ha hd hzero, rfl, leads_none⟩

/-- The exit leads from the cruise speed to the exit speed, or stays at it where the two count as equal. -/
theorem exitRamp_leads (hT : 0 < T) (ha : p.acc0 ≠ 0) (hd : p.dec0 ≠ 0) :
    Leads T p.cruiseV (p.cruiseV + (if |exitSpeed p - p.cruiseV| < speedEps then 0
      else exitSpeed p - p.cruiseV)) (exitRamp T p) := by
  unfold exitRamp
  by_cases hacc : |exitAcc p| > 0
  · have hne : ¬|exitSpeed p - p.cruiseV| < speedEps := by
      intro heps
      have hzero : exitAcc p = 0 := if_pos heps
      exact abs_pos.mp hacc hzero
    rw [if_pos hacc, if_neg hne, add_sub_cancel]
    exact rampByAcc_leads hT (one_le_clampNacc _)
  · have hzero : accFromTo p p.cruiseV (exitSpeed p) = 0 := by
      rw [← exitAcc_eq]
      exact not_not.mp (mt abs_pos.mpr hacc)
    have heps : |exitSpeed p - p.cruiseV| < speedEps := by
      rw [abs_sub_comm]
      exact accFromTo_eq_zero ha hd hzero
    rw [if_neg hacc, if_pos heps, add_zero]
    exact leads_none

/-- A plan of one ramp. -/
theorem forward_oneRamp {nacc : ℤ} {v0 v1 : K} (hT : 0 < T) (hn : 1 ≤ nacc) (h0 : 0 ≤ v0)
    (h1 : 0 < v1) (hs : ¬TooShortAlone T nacc v0 v1 s) :
    (Schedule.ofProfile T v0 s ⟨rampByLen T nacc v0 v1 s, 0, 0, Ramp.none 0⟩).Forward s := by
  rcases rampByLen_cases nacc s hT (by linarith : 0 < v0 + v1) with hle | ⟨hshort, heq⟩
  · refine (sound_ofProfile hT (rampByLen_leads hT hn) (leads_none (v := v1)) h0 h1.le h1.le le_rfl
      ?_ ?_).forward
    · simp
    · show 0 ≤ s - (rampByLen T nacc v0 v1 s).s - 0 - 0
      linarith
  · rw [heq]
    exact forward_of_shortest hT h0 h1 (not_lt.mp fun hlt => hs ⟨hshort, hlt⟩)

/-- A plan over a reduced speed. -/
theorem forward_reduced (hT : 0 < T) (hvi : 0 ≤ p.entryV) (hvc : 0 ≤ (reducedRamp T p s).2)
    (hs : ¬TooShort T (planNacc p) (reducedRamp T p s).2 (exitSpeed p) (s - (reducedRamp T p s).1.s)) :
    (Schedule.ofProfile T p.entryV s ⟨(reducedRamp T p s).1, 0, 0, rampByLen T (planNacc p)
      (reducedRamp T p s).2 (exitSpeed p) (s - (reducedRamp T p s).1.s)⟩).Forward s := by
  have hn : 1 ≤ planNacc p := one_le_clampNacc _
  have hvo : 0 < exitSpeed p := exitSpeed_pos
  have he : Leads T p.entryV (reducedRamp T p s).2 (reducedRamp T p s).1 := by
    have hspeed : (reducedRamp T p s).2 = reducedSpeed T (planNacc p) p.entryV (entryAcc p)
      (reducedLength T p s) := rampReduced_speed _ _ _ _ _
    rw [hspeed]
    exact rampReduced_leads hT hn
  have hle := (rampByLen_cases (planNacc p) (s - (reducedRamp T p s).1.s) hT
    (by linarith : 0 < (reducedRamp T p s).2 + exitSpeed p)).resolve_right fun h => hs h.1
  refine (sound_ofProfile hT he (rampByLen_leads hT hn) hvi hvc hvo.le le_rfl ?_ ?_).forward
  · simp
  · show 0 ≤ s - (reducedRamp T p s).1.s - 0 - _
    rw [sub_zero]
    exact sub_nonneg.mpr hle

/-- A plan that cruises. -/
theorem forward_cruise (hT : 0 < T) (ha : p.acc0 ≠ 0) (hd : p.dec0 ≠ 0) (hv : 0 < p.cruiseV)
    (hvi : 0 ≤ p.entryV) (h4 : 0 ≤ p.cruiseV * cruiseN T p s * T)
    (hs : |p.entryV - p.cruiseV| < speedEps → DriftFits T p s) :
    (Schedule.ofProfile T p.entryV s
      ⟨entryRamp T p, cruiseN T p s, p.cruiseV * cruiseN T p s * T, exitRamp T p⟩).Forward s := by
  have hn4 : 0 ≤ cruiseN T p s := cruiseN_nonneg hT hv h4
  have hrest : 0 ≤ s - (entryRamp T p).s - p.cruiseV * cruiseN T p s * T - (exitRamp T p).s := by
    have hfloor : (cruiseN T p s : K) ≤
        (s - (entryRamp T p).s - (exitRamp T p).s) / p.cruiseV / T := Int.floor_le _
    rw [le_div_iff₀ hT, le_div_iff₀ hv] at hfloor
    linarith
  have hx := exitRamp_leads (T := T) hT ha hd
  have hend : 0 ≤ p.cruiseV + (if |exitSpeed p - p.cruiseV| < speedEps then 0
      else exitSpeed p - p.cruiseV) := by
    split
    · linarith
    · linarith [exitSpeed_pos (p := p)]
  rcases entryRamp_leads (T := T) hT ha hd with he | ⟨heps, hes, he⟩
  · exact (sound_ofProfile hT he hx hvi hv.le hend hn4 rfl hrest).forward
  · rcases hs heps with heq | ⟨hend', hdrift⟩
    · rw [heq] at he ⊢
      exact (sound_ofProfile hT he hx hv.le hv.le hend hn4 rfl hrest).forward
    · have hchange : p.entryV + (p.cruiseV + (if |exitSpeed p - p.cruiseV| < speedEps then 0
          else exitSpeed p - p.cruiseV) - p.cruiseV) = driftedEnd p := by
        rw [add_sub_cancel_left]
        rfl
      refine forward_of_drift hT he hes hx hvi hn4 ?_ ?_ hrest <;> rw [hchange]
      · exact hend'
      · exact hdrift

/-- A plan whose length fits goes forward. -/
theorem forward_of_fits (hT : 0 < T) (ha : p.acc0 ≠ 0) (hd : p.dec0 ≠ 0) (hv : 0 < p.cruiseV)
    (hvi : 0 ≤ p.entryV) (hpos : Opposite p → 0 ≤ (reducedRamp T p s).2) (hf : Fits T p s) :
    (Schedule.ofProfile T p.entryV s (profile T p s)).Forward s := by
  have hn : 1 ≤ planNacc p := one_le_clampNacc _
  rw [profile_eq]
  split
  · rename_i hs
    exact forward_oneRamp hT hn hvi exitSpeed_pos (hf.oneRamp (.inl hs))
  · rename_i hs
    have hs := not_le.mp hs
    split
    · rename_i h4
      rcases profileShort_forms (T := T) (s := s) (p := p) with ⟨hone, h⟩ | ⟨hone, hopp, h⟩ |
        ⟨hone, hopp, -⟩
      · rw [h]
        exact forward_oneRamp hT hn hvi exitSpeed_pos (hf.oneRamp (.inr ⟨⟨hs, h4⟩, hone⟩))
      · rw [h]
        exact forward_reduced hT hvi (hpos hopp) (hf.reduced ⟨⟨hs, h4⟩, hone, hopp⟩).2
      · exact absurd ⟨⟨hs, h4⟩, hone, hopp⟩ hf.planned
    · rename_i h4
      exact forward_cruise hT ha hd hv hvi (not_lt.mp h4) (hf.cruise ⟨hs, not_lt.mp h4⟩)

/-- A move that cruises all the way at its entry speed fits any length. -/
theorem fits_of_cruisesOnly [LawfulSqrt K] (hT : 0 < T) (ha : p.acc0 ≠ 0) (hd : p.dec0 ≠ 0) (hv : 0 < p.cruiseV)
    (hs : 0 < s) (h : CruisesOnly T p s) (heq : p.entryV = p.cruiseV) : Fits T p s := by
  obtain ⟨hlt, hi, ho⟩ := h
  obtain ⟨-, hes, -⟩ := (entryRamp_cases (T := T) hd ha).resolve_left fun h => h.2 hi
  obtain ⟨-, hxs, -⟩ := (exitRamp_cases (T := T) hd ha).resolve_left fun h => h.2 ho
  have hfits : ¬RampsTooLong T p s := by
    intro hlong
    have hn4 : 0 ≤ cruiseN T p s := by
      rw [cruiseN, hes, hxs, sub_zero, sub_zero]
      exact Int.floor_nonneg.mpr (by positivity)
    have hn4 : (0 : K) ≤ cruiseN T p s := by exact_mod_cast hn4
    exact absurd hlong.2 (not_lt.mpr (by positivity))
  exact ⟨fun hone => absurd hone (not_or.mpr ⟨not_le.mpr hlt, fun h => hfits h.1⟩),
    fun h => absurd h.1 hfits, fun h => hfits h.1, fun _ _ => .inl heq⟩

end Plans

end Moveruntime

end Edm
