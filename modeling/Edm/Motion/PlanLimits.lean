import Edm.Motion.PlanFits

/-!
# The limits of a plan

The ramps of a plan are rounded down to whole cycles, so they change the speed a little faster than
the acceleration they are made with, and the rest of the length that is left over is spread over all
cycles, so a cycle is a little faster than planned. Both stay within a part of the number of cycles
(`speeds_limited`, `accelerations_limited`), and the last cycle has the exit speed.
-/

set_option linter.unusedSectionVars false

namespace Edm

namespace Moveruntime

open Kinematics

section Cycles

variable {K : Type} [Field K] [LinearOrder K] {S : Schedule K} {m : Moveruntime K}

/-- A plan is played back cycle by cycle and stays where it ends. -/
theorem played_atCycle (hat : m.impl.AtCycle S 0) (hr : m.state = .running) (n : ℕ) :
    (m.played n).impl.AtCycle S (min n S.total) ∧ (n ≤ S.total → (m.played n).state = .running) ∧
      (m.played n).impl.length = m.impl.length := by
  induction n with
  | zero => exact ⟨by simpa [played] using hat, fun _ => hr, rfl⟩
  | succ n ih =>
    obtain ⟨hcycle, hrun, hlen⟩ := ih
    rw [played_succ]
    refine ⟨?_, ?_, runOnce_length.trans hlen⟩
    all_goals unfold runOnce
    · split_ifs with hover hlt
      · have hge : S.total < n := by
          by_contra hle
          rw [hrun (not_lt.mp hle)] at hover
          cases hover
        rwa [show min (n + 1) S.total = min n S.total by omega]
      · have hlt : min n S.total < S.total := by
          rw [hcycle.currentN, hcycle.totalN] at hlt
          exact_mod_cast hlt
        have hnext := hcycle.cycle hlt
        rwa [show min (n + 1) S.total = min n S.total + 1 by omega]
      · have hge : S.total ≤ min n S.total := by
          rw [hcycle.currentN, hcycle.totalN] at hlt
          exact_mod_cast not_lt.mp hlt
        rw [show min (n + 1) S.total = min n S.total by omega]
        obtain ⟨⟩ := hcycle
        constructor <;> assumption
    · intro hn
      have hrun := hrun (by omega)
      have hlt : (m.played n).impl.currentN < (m.played n).impl.totalN := by
        rw [hcycle.currentN, hcycle.totalN]
        exact_mod_cast (by omega : min n S.total < S.total)
      rw [if_neg (by simp [hrun]), if_pos hlt]
      exact hrun

/-- The increment of a cycle that is played back. -/
theorem played_increment (hat : m.impl.AtCycle S 0) (hr : m.state = .running) {n : ℕ}
    (hn : n < S.total) :
    (m.played n).runOnce.2 =
      if n + 1 = S.total then m.impl.length - ((S.speeds.take n).sum + S.rests.sum)
      else (S.speed + (S.accs.take (n + 1)).sum) + (S.rest + (S.restSteps.take (n + 1)).sum) := by
  obtain ⟨hcycle, hrun, hlen⟩ := played_atCycle hat hr n
  rw [min_eq_left hn.le] at hcycle
  have hlt : (m.played n).impl.currentN < (m.played n).impl.totalN := by
    rw [hcycle.currentN, hcycle.totalN]
    exact_mod_cast hn
  rw [← hlen, ← hcycle.cycle_intermediate hn]
  unfold runOnce
  rw [if_neg (by simp [hrun hn.le]), if_pos hlt]

end Cycles

section Speeds

variable {K : Type} [Field K] [LinearOrder K] [IsStrictOrderedRing K] {T vi v1 v2 s top b : K}
  {f : Profile K} {S : Schedule K} {n : ℕ}

/-- A cycle is faster than the fastest planned speed by a part of the rest at most. -/
theorem increment_le (hS : S = Schedule.ofProfile T vi s f) (hT : 0 < T)
    (he : Leads T vi v1 f.entry) (hx : Leads T v1 v2 f.exit) (hn4 : 0 ≤ f.n4) (h0 : vi ≤ top)
    (h1 : v1 ≤ top) (h2 : v2 ≤ top) (hb : 0 ≤ b) (hrest : s - f.entry.s - f.s4 - f.exit.s ≤ b)
    (hn : n + 1 < S.total) :
    ((S.speed + (S.accs.take (n + 1)).sum) + (S.rest + (S.restSteps.take (n + 1)).sum) - top * T) *
      (S.total - 2) ≤ 2 * b := by
  subst hS
  have hspeed : (Schedule.ofProfile T vi s f).speed +
      ((Schedule.ofProfile T vi s f).accs.take (n + 1)).sum ≤ top * T :=
    speeds_ofProfile_le hT.le he hx h0 h1 h2 (Schedule.speed_mem (by omega))
  obtain ⟨t, ht0, ht2, ht⟩ := (spreads_ofProfile vi s hT he hx hn4).exists_of_mem_rests
    (Schedule.rest_mem hn)
  generalize Schedule.ofProfile T vi s f = S at *
  have hN : (0 : K) ≤ S.total - 2 := by
    exact sub_nonneg.mpr (by exact_mod_cast (by omega : 2 ≤ S.total))
  have hpart : (S.rest + (S.restSteps.take (n + 1)).sum) * (S.total - 2) ≤ 2 * b := by
    rw [ht]
    calc t * (s - f.entry.s - f.s4 - f.exit.s) * (S.total - 2)
        ≤ t * b * (S.total - 2) :=
          mul_le_mul_of_nonneg_right (mul_le_mul_of_nonneg_left hrest ht0) hN
      _ = t * (S.total - 2) * b := by ring
      _ ≤ 2 * b := mul_le_mul_of_nonneg_right ht2 hb
  have hplanned := mul_nonpos_of_nonpos_of_nonneg (sub_nonpos.mpr hspeed) hN
  linarith

/-- The last cycle of a plan has the speed its exit leads to. -/
theorem last_increment (hS : S = Schedule.ofProfile T vi s f) (hT : 0 < T)
    (he : Leads T vi v1 f.entry) (hx : Leads T v1 v2 f.exit) (hn4 : 0 ≤ f.n4)
    (hs4 : f.s4 = v1 * f.n4 * T) (hn : n + 1 = S.total) (h2 : 2 ≤ S.total) :
    s - ((S.speeds.take n).sum + S.rests.sum) = v2 * T := by
  subst hS
  have hrests := (spreads_ofProfile vi s hT he hx hn4).sum_rests h2
  have hspeeds := sum_speeds_ofProfile (s := s) he hx hn4
  have haccs : (Schedule.ofProfile T vi s f).accs.sum = (v1 - vi) * T + (v2 - v1) * T :=
    sum_accs_ofProfile he hx
  have hspeed : (Schedule.ofProfile T vi s f).speed = vi * T := rfl
  generalize Schedule.ofProfile T vi s f = S at *
  have hlast := Schedule.gone_last hn
  have hall : S.rests.take n = S.rests := List.take_of_length_le (by simp; omega)
  rw [Schedule.gone, hall] at hlast
  linarith

end Speeds

section Plans

variable {K : Type} [Field K] [LinearOrder K] [FloorRing K] [RealFns K]

/-- `top` is not below a speed that the plan starts with, leads over or ends with. -/
structure SpeedsUpTo (T : K) (p : MoveRuntimePlanSpeedInput K) (s top : K) : Prop where
  entry : p.entryV ≤ top
  exit : exitSpeed p ≤ top
  cruise : PlansCruise T p s ∨ PlansTooLong T p s → p.cruiseV ≤ top
  reduced : PlansReduced T p s → (reducedRamp T p s).2 ≤ top

/-- The phases lead over the speed `v1` to `v2`, all of them up to `top`, and leave a rest that is
less than two cycles of it. -/
structure LeadsOver (T vi s top : K) (f : Profile K) (v1 v2 : K) : Prop where
  entry : Leads T vi v1 f.entry
  exit : Leads T v1 v2 f.exit
  n4 : 0 ≤ f.n4
  s4 : f.s4 = v1 * f.n4 * T
  middle_le : v1 ≤ top
  end_le : v2 ≤ top
  rest_le : s - f.entry.s - f.s4 - f.exit.s ≤ 2 * (top * T)

variable [IsStrictOrderedRing K] {T s top v0 v1 : K} {p : MoveRuntimePlanSpeedInput K} {nacc : ℤ}

/-- A ramp over a length leaves less than one cycle at the sum of its speeds. -/
theorem rampByLen_rest_le (nacc : ℤ) (s : K) (hT : 0 < T) (hv : 0 < v0 + v1) :
    s - (rampByLen T nacc v0 v1 s).s ≤ (v0 + v1) * T := by
  have hv' : 0 < v1 + v0 := by linarith
  have hlen (n m : ℤ) : (rampOf T v0 v1 n m).s =
      (v0 + v1) * (n + 1 / 2 * m) * T + (v1 - v0) * T := by
    show (v0 + v1) * (n * T + 1 / 2 * (m * T)) + (v1 - v0) * T = _
    ring
  unfold rampByLen
  extract_lets d0 n2 d1 n1
  split
  · have hn1 : d1 / T < n1 + 1 := Int.lt_floor_add_one _
    have hle : (n1 : K) ≤ (if n1 < 2 then 2 else n1 : ℤ) := by
      exact_mod_cast (by split <;> omega : n1 ≤ if n1 < 2 then 2 else n1)
    rw [div_lt_iff₀ hT, div_lt_iff₀ hv'] at hn1
    rw [hlen, Int.cast_zero, mul_zero, add_zero]
    have hmul := mul_le_mul_of_nonneg_right (mul_le_mul_of_nonneg_left hle hv.le) hT.le
    linarith
  · have hn2 : _ < (n2 : K) + 1 := Int.lt_floor_add_one _
    have hd0 : d0 = nacc * T := rfl
    rw [div_lt_iff₀ hT, div_lt_iff₀ (by norm_num), div_lt_iff₀ hv', hd0] at hn2
    rw [hlen]
    have hpos := mul_pos hv hT
    linarith

/-- A plan of one ramp. -/
theorem leadsOver_oneRamp (hT : 0 < T) (hn : 1 ≤ nacc) (h0 : 0 ≤ v0) (h1 : 0 < v1)
    (h0top : v0 ≤ top) (h1top : v1 ≤ top) :
    LeadsOver T v0 s top ⟨rampByLen T nacc v0 v1 s, 0, 0, Ramp.none 0⟩ v1 v1 := by
  refine ⟨rampByLen_leads hT hn, leads_none, le_rfl, by simp, h1top, h1top, ?_⟩
  have hrest := rampByLen_rest_le nacc s hT (by linarith : 0 < v0 + v1)
  have hsum : (v0 + v1) * T ≤ 2 * (top * T) := by
    rw [← mul_assoc]
    exact mul_le_mul_of_nonneg_right (by linarith) hT.le
  show s - (rampByLen T nacc v0 v1 s).s - 0 - 0 ≤ _
  linarith

/-- The speeds of a plan, whatever its shape. -/
theorem profile_leadsOver (hT : 0 < T) (ha : p.acc0 ≠ 0) (hd : p.dec0 ≠ 0) (hv : 0 < p.cruiseV)
    (hvi : 0 ≤ p.entryV) (hdrift : |p.entryV - p.cruiseV| < speedEps → p.entryV = p.cruiseV)
    (hred : PlansReduced T p s → 0 ≤ (reducedRamp T p s).2) (htop : SpeedsUpTo T p s top) :
    ∃ v1 v2, LeadsOver T p.entryV s top (profile T p s) v1 v2 ∧ |v2 - exitSpeed p| < speedEps := by
  have hn : 1 ≤ planNacc p := one_le_clampNacc _
  have hvo : 0 < exitSpeed p := exitSpeed_pos
  have hsame : |exitSpeed p - exitSpeed p| < speedEps := by
    rw [sub_self, abs_zero]
    exact speedEps_pos
  have hentry : Leads T p.entryV p.cruiseV (entryRamp T p) := by
    rcases entryRamp_leads (T := T) hT ha hd with he | ⟨heps, -, he⟩
    · exact he
    · rwa [← hdrift heps]
  -- where the exit speed counts as the cruise speed the plan ends with that
  obtain ⟨v2, hexit, hv2, hv2top⟩ : ∃ v2, Leads T p.cruiseV v2 (exitRamp T p) ∧
      |v2 - exitSpeed p| < speedEps ∧ (p.cruiseV ≤ top → v2 ≤ top) := by
    refine ⟨_, exitRamp_leads hT ha hd, ?_, ?_⟩
    · split
      · rename_i heps
        rwa [add_zero, abs_sub_comm]
      · rwa [add_sub_cancel]
    · intro hle
      split
      · rwa [add_zero]
      · rw [add_sub_cancel]
        exact htop.exit
  rw [profile_eq]
  split
  · exact ⟨_, _, leadsOver_oneRamp hT hn hvi hvo htop.entry htop.exit, hsame⟩
  · rename_i hs
    have hs := not_le.mp hs
    split
    · rename_i h4
      rcases profileShort_forms (T := T) (s := s) (p := p) with ⟨hone, h⟩ | ⟨hone, hopp, h⟩ |
        ⟨hone, hopp, h⟩
      · rw [h]
        exact ⟨_, _, leadsOver_oneRamp hT hn hvi hvo htop.entry htop.exit, hsame⟩
      · rw [h]
        have hplan : PlansReduced T p s := ⟨⟨hs, h4⟩, hone, hopp⟩
        have hfirst : Leads T p.entryV (reducedRamp T p s).2 (reducedRamp T p s).1 := by
          have hspeed : (reducedRamp T p s).2 = reducedSpeed T (planNacc p) p.entryV (entryAcc p)
            (reducedLength T p s) := rampReduced_speed _ _ _ _ _
          rw [hspeed]
          exact rampReduced_leads hT hn
        have hover := leadsOver_oneRamp (s := s - (reducedRamp T p s).1.s) hT hn (hred hplan) hvo
          (htop.reduced hplan) htop.exit
        refine ⟨_, _, ⟨hfirst, hover.entry, le_rfl, by simp, htop.reduced hplan, htop.exit, ?_⟩,
          hsame⟩
        have hrest := hover.rest_le
        simp only [Ramp.none] at hrest ⊢
        linarith
      · rw [h]
        have htop' := htop.cruise (.inr ⟨⟨hs, h4⟩, hone, hopp⟩)
        refine ⟨_, _, ⟨hentry, hexit, le_rfl, by simp, htop', hv2top htop', ?_⟩, hv2⟩
        have hneg : cruiseN T p s < 0 := by
          by_contra hge
          have hge : (0 : K) ≤ cruiseN T p s := by exact_mod_cast not_lt.mp hge
          exact absurd h4 (not_lt.mpr (by positivity))
        rw [cruiseN, Int.floor_lt, Int.cast_zero, div_lt_iff₀ hT, div_lt_iff₀ hv, zero_mul,
          zero_mul] at hneg
        have hpos : 0 ≤ top * T := mul_nonneg (hv.le.trans htop') hT.le
        show s - (entryRamp T p).s - 0 - (exitRamp T p).s ≤ _
        linarith
    · rename_i h4
      have h4 := not_lt.mp h4
      have htop' := htop.cruise (.inl ⟨hs, h4⟩)
      refine ⟨_, _, ⟨hentry, hexit, cruiseN_nonneg hT hv h4, rfl, htop', hv2top htop', ?_⟩, hv2⟩
      have hfloor : _ < (cruiseN T p s : K) + 1 := Int.lt_floor_add_one _
      rw [div_lt_iff₀ hT, div_lt_iff₀ hv] at hfloor
      have hle := mul_le_mul_of_nonneg_right htop' hT.le
      have hpos : 0 ≤ top * T := mul_nonneg (hv.le.trans htop') hT.le
      show s - (entryRamp T p).s - p.cruiseV * cruiseN T p s * T - (exitRamp T p).s ≤ _
      linarith

variable {vi v2 : K} {f : Profile K} {S : Schedule K} {m : Moveruntime K} {n : ℕ}

/-- No cycle is faster than the fastest planned speed by more than four parts in `N - 2`. -/
theorem LeadsOver.increment_le (h : LeadsOver T vi s top f v1 v2)
    (hS : Schedule.ofProfile T vi s f = S) (hT : 0 < T) (hvi : vi ≤ top) (htop : 0 ≤ top)
    (hat : m.impl.AtCycle S 0) (hr : m.state = .running) (hlen : m.impl.length = s)
    (hn : n < S.total) (h2 : 2 < S.total) :
    (m.played n).runOnce.2 ≤ top * T * (1 + 4 / (S.total - 2)) := by
  have h2' : (0 : K) < S.total - 2 := sub_pos.mpr (by exact_mod_cast h2)
  have hb : 0 ≤ 2 * (top * T) := mul_nonneg zero_le_two (mul_nonneg htop hT.le)
  have hinc := played_increment hat hr hn
  split_ifs at hinc with hlast
  · rw [hinc, hlen, last_increment hS.symm hT h.entry h.exit h.n4 h.s4 hlast h2.le]
    have hend := mul_le_mul_of_nonneg_right h.end_le hT.le
    refine hend.trans (le_mul_of_one_le_right (by linarith) ?_)
    exact le_add_of_nonneg_right (div_nonneg zero_le_four h2'.le)
  · have hle := Moveruntime.increment_le hS.symm hT h.entry h.exit h.n4 hvi h.middle_le h.end_le hb
      h.rest_le (by omega : n + 1 < S.total)
    rw [← hinc, ← le_div_iff₀ h2'] at hle
    calc (m.played n).runOnce.2 ≤ top * T + 2 * (2 * (top * T)) / (S.total - 2) := by linarith
      _ = top * T * (1 + 4 / (S.total - 2)) := by ring

variable [Settings]

/-- A fresh plan stands before its first cycle. -/
theorem atCycle_of_plan (hm : plan p s = some m) (he : NonNeg (profile cycleT p s).entry)
    (hx : NonNeg (profile cycleT p s).exit) (hn : 0 ≤ (profile cycleT p s).n4) :
    m.impl.AtCycle (.ofProfile cycleT p.entryV s (profile cycleT p s)) 0 ∧ m.state = .running ∧
      m.impl.length = s := by
  have hs : 0 < s := by
    by_contra hs
    rw [plan_eq_none.mpr (not_lt.mp hs)] at hm
    cases hm
  rw [plan_of_pos hs] at hm
  obtain rfl := Option.some.inj hm
  exact ⟨Impl.ofProfile_atCycle he hx hn, rfl, rfl⟩

end Plans

section Sample

attribute [local instance] Sample.settings

open Sample (speedParam)

end Sample

/-! ### Accelerations -/

section Accelerations

variable {T v0 v1 a s : ℝ} {nacc : ℤ} {n : ℕ} {p : MoveRuntimePlanSpeedInput ℝ}

/-- The cycles of a ramp are at most one less than its acceleration takes for the change of speed.
-/
theorem rampByAcc_change_le (hT : 0 < T) (hn : 1 ≤ nacc) (ha : a ≠ 0) (hax : 0 ≤ (v1 - v0) / a) :
    let r := rampByAcc T nacc v0 v1 a (a / jerk2acc nacc T)
    |v1 - v0| ≤ |a| * ((r.jerkN + r.accN + 1) * T) := by
  intro r
  obtain ⟨x, hx⟩ : ∃ x, (v1 - v0) / a = x := ⟨_, rfl⟩
  have hv : v1 - v0 = a * x := by rw [← hx, mul_div_cancel₀ _ ha]
  have hx0 : 0 ≤ x := hx ▸ hax
  have hnacc : (1 : ℝ) ≤ nacc := by exact_mod_cast hn
  suffices hle : x ≤ (r.jerkN + r.accN + 1) * T by
    rw [hv, abs_mul, abs_of_nonneg hx0]
    exact mul_le_mul_of_nonneg_left hle (abs_nonneg a)
  have hd : (v1 - v0 - a * jerk2acc nacc T) / a = x - nacc * T := by
    rw [hv, ← mul_sub, mul_div_cancel_left₀ _ ha, jerk2acc]
  have hsq : (v1 - v0) / (a / jerk2acc nacc T) = x * (nacc * T) := by
    rw [← hx, jerk2acc]
    field_simp
  simp only [r]
  unfold rampByAcc
  extract_lets d0 n2 n1
  split
  · rename_i h2
    -- the ramp has `k` jerk cycles on each side
    obtain ⟨k, hk⟩ : ∃ k, (if n1 < 2 then 2 else n1) = k := ⟨_, rfl⟩
    have hk1 : n1 ≤ k ∧ 2 ≤ k := by omega
    rw [hk]
    show x ≤ ((k : ℝ) + ((0 : ℤ) : ℝ) + 1) * T
    have hk0 : (0 : ℝ) < k := by exact_mod_cast (by omega : 0 < k)
    have h2 : n2 < 1 := h2
    rw [Int.floor_lt, Int.cast_one, div_lt_iff₀ hT, hd] at h2
    rw [Int.cast_zero, add_zero]
    rcases le_or_gt nacc k with hle | hgt
    · have hle : (nacc : ℝ) ≤ k := by exact_mod_cast hle
      have hmul := mul_le_mul_of_nonneg_right hle hT.le
      linarith
    · have hgt : (k : ℝ) + 1 ≤ nacc := by exact_mod_cast hgt
      have hfloor : Real.sqrt (x * (nacc * T)) / T < n1 + 1 := hsq ▸ Int.lt_floor_add_one _
      have hk1 : (n1 : ℝ) ≤ k := by exact_mod_cast hk1.1
      have hroot : Real.sqrt (x * (nacc * T)) < (k + 1) * T := by
        rw [div_lt_iff₀ hT] at hfloor
        exact hfloor.trans_le (mul_le_mul_of_nonneg_right (by linarith) hT.le)
      rw [Real.sqrt_lt' (by positivity)] at hroot
      -- `x * nacc * T` is less than `(k + 1) ^ 2 * T ^ 2`, and `k + 1` at most `nacc`
      have hbound : x * (nacc * T) ≤ (k + 1) * T * (nacc * T) := by
        refine hroot.le.trans ?_
        rw [sq]
        exact mul_le_mul_of_nonneg_left (mul_le_mul_of_nonneg_right hgt hT.le) (by positivity)
      exact le_of_mul_le_mul_right hbound (by positivity)
  · show x ≤ ((nacc : ℝ) + (n2 : ℝ) + 1) * T
    have hfloor : _ < (n2 : ℝ) + 1 := Int.lt_floor_add_one _
    rw [div_lt_iff₀ hT, hd] at hfloor
    linarith

/-- The acceleration of a ramp that takes one cycle less than it should. -/
theorem Leads.acc_le {r : Ramp ℝ} (h : Leads T v0 v1 r) (hT : 0 < T)
    (hchange : |v1 - v0| ≤ |a| * ((r.jerkN + r.accN + 1) * T)) :
    (r.jerkN.toNat : ℝ) * |r.j * (T * T * T)| ≤
      |a| * (T * T) * (1 + 1 / (r.jerkN + r.accN)) := by
  obtain ⟨hN, hM⟩ := h.nonNeg
  have hcast : ((r.jerkN.toNat : ℕ) : ℝ) = r.jerkN := by
    exact_mod_cast congrArg (Int.cast (R := ℝ)) (Int.toNat_of_nonneg hN)
  have hM : (0 : ℝ) ≤ r.accN := by exact_mod_cast hM
  rcases hN.eq_or_lt with hzero | hpos
  · have hN : (0 : ℝ) ≤ r.jerkN := by exact_mod_cast hN
    rw [← hzero, Int.toNat_zero, Nat.cast_zero, zero_mul]
    positivity
  · have hpos : (0 : ℝ) < r.jerkN := by exact_mod_cast hpos
    have hsum : (0 : ℝ) < r.jerkN + r.accN := by linarith
    have habs : |r.j * (T * T * T)| * (r.jerkN * (r.jerkN + r.accN)) = |v1 - v0| * T := by
      have hchange := congrArg abs h.change
      rwa [abs_mul, abs_mul (v1 - v0), abs_of_pos hT, abs_of_pos (mul_pos hpos hsum)] at hchange
    rw [hcast]
    refine le_of_mul_le_mul_right ?_ hsum
    calc (r.jerkN : ℝ) * |r.j * (T * T * T)| * (r.jerkN + r.accN)
        = |r.j * (T * T * T)| * (r.jerkN * (r.jerkN + r.accN)) := by ring
      _ = |v1 - v0| * T := habs
      _ ≤ |a| * ((r.jerkN + r.accN + 1) * T) * T := mul_le_mul_of_nonneg_right hchange hT.le
      _ = |a| * (T * T) * (1 + 1 / (r.jerkN + r.accN)) * (r.jerkN + r.accN) := by
        field_simp

/-- The acceleration of the ramp a plan makes between two speeds. -/
theorem planned_acc_le (ha : 0 < p.acc0) (hd : p.dec0 < 0) (hT : 0 < T) (v w j : ℝ)
    (hj : j = accFromTo p v w / jerk2acc (planNacc p) T) :
    let r := if |accFromTo p v w| > 0 then rampByAcc T (planNacc p) v w (accFromTo p v w) j
      else Ramp.none j
    (r.jerkN.toNat : ℝ) * |r.j * (T * T * T)| ≤
      |accFromTo p v w| * (T * T) * (1 + 1 / (r.jerkN + r.accN)) := by
  intro r
  have hn : 1 ≤ planNacc p := one_le_clampNacc _
  simp only [r]
  split
  · rename_i hpos
    have hne : accFromTo p v w ≠ 0 := abs_pos.mp hpos
    have hax : 0 ≤ (w - v) / accFromTo p v w := by
      rcases accFromTo_cases ha hd v w with ⟨h0, -⟩ | ⟨h0, hvw, -⟩ | ⟨h0, hvw, -⟩
      · exact absurd h0 hne
      · exact div_nonneg (by linarith) h0.le
      · exact div_nonneg_of_nonpos (by linarith) h0.le
    rw [hj]
    exact (rampByAcc_leads hT hn).acc_le hT (rampByAcc_change_le hT hn hne hax)
  · rw [Ramp.none, Int.toNat_zero, Nat.cast_zero, zero_mul]
    positivity

variable [Settings] {m : Moveruntime ℝ}

end Accelerations

section Sample

attribute [local instance] Sample.settings

/-- A move that is entered with half of its speed and left with all of it. -/
def approach : MoveRuntimePlanSpeedInput ℝ := ⟨6250, -6250, 1000, 500, 1000, 1⟩

/-- Its entry takes eighty-one cycles, the rest of a hundred is cruised. -/
theorem approach_cruises : PlansCruise cycleT approach 100 := by
  have hexit : exitSpeed approach = 1000 := by norm_num [exitSpeed, approach]
  have hacc : accFromTo approach 500 1000 = 6250 := by
    norm_num [accFromTo, approach, speedEps]
  have hnacc : planNacc approach = 1 := by norm_num [planNacc, clampNacc, approach]
  have hramp (j : ℝ) : rampByAcc cycleT 1 500 1000 6250 j = rampOf cycleT 500 1000 1 79 := by
    unfold rampByAcc
    extract_lets d0 n2 n1
    have hn2 : n2 = 79 := by
      simp only [n2, d0, cycleT_eq, jerk2acc]
      norm_num
    rw [if_neg (by omega), hn2]
  have hlen : (rampOf (cycleT : ℝ) 500 1000 1 79).s = 245 / 4 := by
    norm_num [rampOf, targetLengthIod, jerk2acc, cycleT_eq]
  have hdirect : directLength cycleT approach = 245 / 4 := by
    have hdirect : directAcc approach = 6250 := by rw [directAcc, hexit]; exact hacc
    rw [directLength, hdirect, hnacc, hexit, if_pos (by norm_num)]
    exact (congrArg Ramp.s (hramp _)).trans hlen
  have hentry : (entryRamp cycleT approach).s = 245 / 4 := by
    have hentry : entryAcc approach = 6250 := hacc
    rw [entryRamp, hentry, hnacc, if_pos (by norm_num)]
    exact (congrArg Ramp.s (hramp _)).trans hlen
  have hleave : (exitRamp cycleT approach).s = 0 := by
    have hleave : exitAcc approach = 0 := by
      rw [exitAcc, hexit, if_pos]
      norm_num [approach, speedEps]
    rw [exitRamp, hleave, if_neg (by norm_num), Ramp.none]
  have hn4 : cruiseN cycleT approach 100 = 38 := by
    rw [cruiseN, hentry, hleave, cycleT_eq]
    norm_num [approach, Int.floor_eq_iff]
  refine ⟨?_, ?_⟩
  · rw [hdirect]
    norm_num
  · rw [hn4, cycleT_eq]
    norm_num [approach]

end Sample

end Moveruntime

end Edm
