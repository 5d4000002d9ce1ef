import Mathlib.Data.Int.ModEq
import Mathlib.Algebra.Order.Ring.Int
import Mathlib.Algebra.Order.Group.Abs
import Mathlib.Tactic.Linarith

/-!
# The master clock

With the IgH driver the time base of the motion thread follows the clock of the first drive. A cycle takes
the difference of the two (`syncDistributedClocks`), normalises it to the nearest cycle boundary and
moves the time base by an average drift and one nanosecond towards the boundary (`updateMasterClock`).

The remainder of the normalisation truncates: differences below minus half a cycle leave the range it
aims at.
-/

namespace Edm

namespace MasterClock

def int32 (x : ℤ) : ℤ := x.bmod (2 ^ 32)

def int64 (x : ℤ) : ℤ := x.bmod (2 ^ 64)

/-- The settings: `cycletime_ns_`, a number of microseconds, and `dc_filter_cnt`, which is divided by. -/
structure DcSettings where
  cycletimeNs : ℤ
  cycletimeNs_pos : 0 < cycletimeNs
  cycletimeNs_lt : cycletimeNs < 2 ^ 32
  cycletimeNs_even : 2 ∣ cycletimeNs
  dcFilterCnt : ℤ
  dcFilterCnt_ne : dcFilterCnt ≠ 0

end MasterClock

structure MasterClock where
  systimeBaseNs : ℤ
  dcDiffNs : ℤ
  prevDcDiffNs : ℤ
  dcDiffTotalNs : ℤ
  dcDeltaTotalNs : ℤ
  dcAdjustNs : ℤ
  dcFilterIdx : ℤ
  deriving DecidableEq, Repr

namespace MasterClock

def new (systimeBaseNs : ℤ) : MasterClock := ⟨systimeBaseNs, 0, 0, 0, 0, 0, 0⟩

/-- `_sync_distributed_clocks`: the system time cut to `uint32_t`, and the reference clock. -/
def syncDistributedClocks (c : MasterClock) (systimeNs refTime : ℕ) : MasterClock :=
  { c with dcDiffNs := int32 ((systimeNs : ℤ) - refTime) }

/-- The time difference normalised, in `int64_t`. -/
def normalise (cycletimeNs dcDiffNs : ℤ) : ℤ :=
  (dcDiffNs + cycletimeNs.tdiv 2).tmod cycletimeNs - cycletimeNs.tdiv 2

/-- `limit crazy numbers` -/
def limit (dcAdjustNs : ℤ) : ℤ :=
  if dcAdjustNs < -1000 then -1000 else if dcAdjustNs > 1000 then 1000 else dcAdjustNs

/-- The filter, at the end of its window. -/
def filter (st : DcSettings) (c : MasterClock) : MasterClock :=
  if c.dcFilterIdx ≥ st.dcFilterCnt then
    let dcAdjustNs := int64
      (c.dcAdjustNs + (c.dcDeltaTotalNs + st.dcFilterCnt.tdiv 2).tdiv st.dcFilterCnt)
    let dcAdjustNs := int64 (dcAdjustNs + (c.dcDiffTotalNs.tdiv st.dcFilterCnt).sign)
    { c with
      dcAdjustNs := limit dcAdjustNs
      dcDiffTotalNs := 0
      dcDeltaTotalNs := 0
      dcFilterIdx := 0 }
  else c

/-- `_update_master_clock`. -/
def updateMasterClock (st : DcSettings) (c : MasterClock) : MasterClock :=
  let delta := int32 (c.dcDiffNs - c.prevDcDiffNs)
  let c := { c with prevDcDiffNs := c.dcDiffNs }
  let c := { c with dcDiffNs := int32 (normalise st.cycletimeNs c.dcDiffNs) }
  let c := { c with
    dcDiffTotalNs := int64 (c.dcDiffTotalNs + c.dcDiffNs)
    dcDeltaTotalNs := int64 (c.dcDeltaTotalNs + delta)
    dcFilterIdx := int32 (c.dcFilterIdx + 1) }
  let c := c.filter st
  { c with systimeBaseNs := int64 (c.systimeBaseNs + (c.dcAdjustNs + c.dcDiffNs.sign)) }

inductive Op where
  | sync (systimeNs refTime : ℕ)
  | update

def step (st : DcSettings) (c : MasterClock) : Op → MasterClock
  | .sync systimeNs refTime => c.syncDistributedClocks systimeNs refTime
  | .update => c.updateMasterClock st

/-! ### The normalised difference -/

section Normalise

variable {st : DcSettings} {x : ℤ}

theorem DcSettings.half (st : DcSettings) :
    2 * st.cycletimeNs.tdiv 2 = st.cycletimeNs ∧ 0 < st.cycletimeNs.tdiv 2 := by
  have hpos := st.cycletimeNs_pos
  have heven := st.cycletimeNs_even
  rw [Int.tdiv_eq_ediv_of_nonneg hpos.le]
  omega

theorem int32_of_mem (hmin : -2 ^ 31 ≤ x) (hmax : x < 2 ^ 31) : int32 x = x := by
  unfold int32
  rw [Int.bmod_def]
  omega

theorem int32_mem (x : ℤ) : -2 ^ 31 ≤ int32 x ∧ int32 x < 2 ^ 31 := by
  unfold int32
  rw [Int.bmod_def]
  omega

theorem tmod_le {a c : ℤ} (ha : 0 ≤ a) (hc : 0 < c) : a.tmod c ≤ a := by
  have hsplit := Int.mul_tdiv_add_tmod a c
  have hquot : 0 ≤ c * a.tdiv c := Int.mul_nonneg hc.le (Int.tdiv_nonneg ha hc.le)
  omega

theorem normalise_modEq (st : DcSettings) (x : ℤ) :
    normalise st.cycletimeNs x ≡ x [ZMOD st.cycletimeNs] := by
  unfold normalise
  rw [Int.modEq_iff_dvd]
  refine ⟨(x + st.cycletimeNs.tdiv 2).tdiv st.cycletimeNs, ?_⟩
  have hsplit := Int.mul_tdiv_add_tmod (x + st.cycletimeNs.tdiv 2) st.cycletimeNs
  linarith

/-- From minus half a cycle on the remainder is the one meant. -/
theorem normalise_mem (h : 0 ≤ x + st.cycletimeNs / 2) :
    -(st.cycletimeNs / 2) ≤ normalise st.cycletimeNs x ∧
      normalise st.cycletimeNs x < st.cycletimeNs / 2 := by
  obtain ⟨hhalf, -⟩ := st.half
  have heq : st.cycletimeNs.tdiv 2 = st.cycletimeNs / 2 := by omega
  have hnonneg := Int.tmod_nonneg st.cycletimeNs h
  have hlt := Int.tmod_lt_of_pos (x + st.cycletimeNs / 2) st.cycletimeNs_pos
  unfold normalise
  rw [heq]
  omega

/-- The result fits into `int32_t`. -/
theorem int32_normalise (hmin : -2 ^ 31 ≤ x) (hmax : x < 2 ^ 31) :
    int32 (normalise st.cycletimeNs x) = normalise st.cycletimeNs x := by
  obtain ⟨hhalf, hpos⟩ := st.half
  have hlt := st.cycletimeNs_lt
  unfold normalise
  apply int32_of_mem
  · rcases Int.le_total 0 (x + st.cycletimeNs.tdiv 2) with h | h
    · have := Int.tmod_nonneg st.cycletimeNs h
      omega
    · -- towards zero: not below the difference
      have hneg := Int.tmod_nonneg st.cycletimeNs (Int.neg_nonneg_of_nonpos h)
      have hle := tmod_le (Int.neg_nonneg_of_nonpos h) st.cycletimeNs_pos
      rw [Int.neg_tmod] at hneg hle
      omega
  · rcases Int.le_total 0 (x + st.cycletimeNs.tdiv 2) with h | h
    · have := tmod_le h st.cycletimeNs_pos
      omega
    · have hneg := Int.tmod_nonneg st.cycletimeNs (Int.neg_nonneg_of_nonpos h)
      rw [Int.neg_tmod] at hneg
      omega

/-- What lies within half a cycle of a boundary is nearest to it. -/
theorem abs_le_of_modEq {d c h : ℤ} (hc : c = 2 * h) (hmin : -h ≤ d) (hmax : d < h)
    (hmod : d ≡ x [ZMOD c]) (k : ℤ) : |d| ≤ |x - k * c| := by
  obtain ⟨m, hm⟩ := Int.modEq_iff_dvd.mp hmod
  have hx : x - k * c = d + (m - k) * c := by linarith
  rw [hx]
  rcases lt_trichotomy (m - k) 0 with hneg | hzero | hpos
  · have hfar : (m - k) * c ≤ -1 * c := by
      apply Int.mul_le_mul_of_nonneg_right <;> omega
    rw [abs_of_nonpos (show d + (m - k) * c ≤ 0 by omega)]
    exact abs_le.mpr ⟨by omega, by omega⟩
  · rw [hzero, zero_mul, add_zero]
  · have hfar : 1 * c ≤ (m - k) * c := by
      apply Int.mul_le_mul_of_nonneg_right <;> omega
    rw [abs_of_nonneg (show 0 ≤ d + (m - k) * c by omega)]
    exact abs_le.mpr ⟨by omega, by omega⟩

end Normalise

/-! ### Runs -/

section Runs

variable {st : DcSettings} {c : MasterClock}

/-- What every call keeps. -/
structure Kept (c : MasterClock) : Prop where
  diff : -2 ^ 31 ≤ c.dcDiffNs ∧ c.dcDiffNs < 2 ^ 31
  adjust : -1000 ≤ c.dcAdjustNs ∧ c.dcAdjustNs ≤ 1000

theorem limit_mem (x : ℤ) : -1000 ≤ limit x ∧ limit x ≤ 1000 := by
  unfold limit
  split_ifs <;> omega

theorem filter_adjust (h : -1000 ≤ c.dcAdjustNs ∧ c.dcAdjustNs ≤ 1000) :
    -1000 ≤ (c.filter st).dcAdjustNs ∧ (c.filter st).dcAdjustNs ≤ 1000 := by
  unfold filter
  split
  · exact limit_mem _
  · exact h

theorem filter_keeps : (c.filter st).dcDiffNs = c.dcDiffNs ∧
    (c.filter st).systimeBaseNs = c.systimeBaseNs := by
  unfold filter
  split <;> exact ⟨rfl, rfl⟩

theorem updateMasterClock_dcDiffNs (h : c.Kept) :
    (c.updateMasterClock st).dcDiffNs = normalise st.cycletimeNs c.dcDiffNs := by
  unfold updateMasterClock
  dsimp only
  rw [filter_keeps.1]
  exact int32_normalise h.diff.1 h.diff.2

theorem updateMasterClock_adjust (h : c.Kept) :
    -1000 ≤ (c.updateMasterClock st).dcAdjustNs ∧ (c.updateMasterClock st).dcAdjustNs ≤ 1000 := by
  unfold updateMasterClock
  dsimp only
  exact filter_adjust h.adjust

/-- The correction of the time base. -/
theorem updateMasterClock_systimeBaseNs :
    (c.updateMasterClock st).systimeBaseNs = int64 (c.systimeBaseNs +
      ((c.updateMasterClock st).dcAdjustNs + (c.updateMasterClock st).dcDiffNs.sign)) := by
  unfold updateMasterClock
  dsimp only
  rw [filter_keeps.2]

theorem Kept.step (h : c.Kept) (op : Op) : (c.step st op).Kept := by
  cases op with
  | sync systimeNs refTime => exact ⟨int32_mem _, h.adjust⟩
  | update =>
    refine ⟨?_, updateMasterClock_adjust h⟩
    show _ ≤ (c.updateMasterClock st).dcDiffNs ∧ (c.updateMasterClock st).dcDiffNs < _
    rw [updateMasterClock_dcDiffNs h, ← int32_normalise h.diff.1 h.diff.2]
    exact int32_mem _

theorem kept_run (st : DcSettings) (base : ℤ) (ops : List Op) :
    (ops.foldl (MasterClock.step st) (new base)).Kept := by
  suffices h : ∀ c : MasterClock, c.Kept → (ops.foldl (MasterClock.step st) c).Kept from
    h _ ⟨show -2 ^ 31 ≤ (0 : ℤ) ∧ (0 : ℤ) < 2 ^ 31 by decide,
      show -1000 ≤ (0 : ℤ) ∧ (0 : ℤ) ≤ 1000 by decide⟩
  induction ops with
  | nil => exact fun c h => h
  | cons op ops ih => exact fun c h => ih _ (h.step op)

/-- An update in whatever state a run has reached: the difference keeps its residue, and is brought to
the nearest boundary from minus half a cycle on; the adjustment is limited; the time base moves by the
adjustment and by one towards the boundary. -/
theorem update_in_run (st : DcSettings) (base : ℤ) (ops : List Op) :
    let c := ops.foldl (step st) (new base)
    let c' := c.updateMasterClock st
    c'.dcDiffNs ≡ c.dcDiffNs [ZMOD st.cycletimeNs] ∧
      (0 ≤ c.dcDiffNs + st.cycletimeNs / 2 →
        -(st.cycletimeNs / 2) ≤ c'.dcDiffNs ∧ c'.dcDiffNs < st.cycletimeNs / 2 ∧
          ∀ k, |c'.dcDiffNs| ≤ |c.dcDiffNs - k * st.cycletimeNs|) ∧
      -1000 ≤ c'.dcAdjustNs ∧ c'.dcAdjustNs ≤ 1000 ∧
      c'.systimeBaseNs = int64 (c.systimeBaseNs + (c'.dcAdjustNs + c'.dcDiffNs.sign)) := by
  intro c c'
  have h : c.Kept := kept_run st base ops
  have hdiff : c'.dcDiffNs = normalise st.cycletimeNs c.dcDiffNs := updateMasterClock_dcDiffNs h
  have hmod : c'.dcDiffNs ≡ c.dcDiffNs [ZMOD st.cycletimeNs] := hdiff ▸ normalise_modEq st c.dcDiffNs
  obtain ⟨hlow, hhigh⟩ : -1000 ≤ c'.dcAdjustNs ∧ c'.dcAdjustNs ≤ 1000 := updateMasterClock_adjust h
  refine ⟨hmod, fun hphase => ?_, hlow, hhigh, updateMasterClock_systimeBaseNs⟩
  have heven := st.cycletimeNs_even
  obtain ⟨hmin, hmax⟩ := normalise_mem hphase
  rw [← hdiff] at hmin hmax
  exact ⟨hmin, hmax, abs_le_of_modEq (by omega) hmin hmax hmod⟩

end Runs

/-- A cycle of a millisecond, a filter over two cycles. -/
def everySecond : DcSettings :=
  ⟨1000000, by decide, by decide, by decide, 2, by decide⟩

/-- A difference of -0.6 cycles is left as it is. And after two cycles with a difference of five nanoseconds
the average moves the time base up by three while it is a nanosecond behind its boundary. -/
theorem update_not_towards_boundary :
    let late := [Op.sync 0 600000].foldl (step everySecond) (new 0)
    let drifting :=
      [Op.sync 5 0, .update, .sync 5 0, .update, .sync 0 1].foldl (step everySecond) (new 0)
    (late.updateMasterClock everySecond).dcDiffNs = -600000 ∧
      (drifting.updateMasterClock everySecond).dcDiffNs = -1 ∧
      (drifting.updateMasterClock everySecond).systimeBaseNs = drifting.systimeBaseNs + 3 := by
  decide

end MasterClock

end Edm
