import Edm.Lib.Run
import Edm.Motion.MasterClock
import Edm.Utils.LongPeroidAverager

/-!
# The period of the motion thread

The thread sleeps until `wakeup_systime_ns_`, a time on a scale of its own that goes on by one cycle
at a time; `systime_base_ns_` takes it to the monotonic clock. The base follows the clock of the
drives (`MasterClock`) and is moved up by the whole delay where a cycle came late by more than a
period.

So a thread that is held up does not make up for it: whatever the delays, it is to be woken next at
most a period after it last was, and before that only by the correction of a cycle; and it never
gets ahead of its period (`wake_up_in_run`).
-/

namespace Edm

open MasterClock (int64 DcSettings)

/-- An integer as `uint64_t`. -/
def uint64 (x : ℤ) : ℤ := x % 2 ^ 64

structure WakeUp where
  clock : MasterClock
  wakeupSystimeNs : ℤ
  latencyAverager : LongPeroidAverager
  latencyWarningCount : UInt32

namespace WakeUp

/-- `_get_systime_ns` at a reading of the monotonic clock. -/
def getSystimeNs (w : WakeUp) (nowNs : ℕ) : ℤ :=
  if int64 nowNs ≥ w.clock.systimeBaseNs then int64 (int64 nowNs - w.clock.systimeBaseNs) else 0

/-- `_system2mono`; its argument becomes a `uint64_t`. -/
def system2mono (w : WakeUp) (systimeNs : ℤ) : ℤ :=
  let systimeNs := uint64 systimeNs
  if w.clock.systimeBaseNs < 0 ∧ uint64 (-w.clock.systimeBaseNs) > systimeNs then 0
  else int64 (systimeNs + w.clock.systimeBaseNs)

/-- When the thread is to be woken. -/
def wakeupMonoNs (w : WakeUp) : ℤ := w.system2mono w.wakeupSystimeNs

/-- `_wait_peroid`, after the sleep. The latency is unsigned. `ready` tells whether the thread runs
and its drives are ready. -/
def waitPeroid (st : DcSettings) (w : WakeUp) (ready : Bool) (nowNs : ℕ) : WakeUp :=
  let latency := uint64 (nowNs - w.wakeupMonoNs)
  let w :=
    if latency > 0 then
      let w := { w with
        latencyAverager := w.latencyAverager.push (Int32.ofInt latency)
        latencyWarningCount :=
          if latency > 100000 && ready then w.latencyWarningCount + 1 else w.latencyWarningCount }
      if latency > st.cycletimeNs then
        let base := int64 (w.clock.systimeBaseNs + latency)
        { w with clock := { w.clock with systimeBaseNs := base } }
      else w
    else w
  { w with wakeupSystimeNs := int64 (w.wakeupSystimeNs + st.cycletimeNs) }

/-- What a cycle reads. -/
structure CycleTimes where
  /-- The monotonic clock after the sleep. -/
  nowNs : ℕ
  ready : Bool
  /-- The system time and the reference clock, where the cycle sends a frame. -/
  sync : Option (ℕ × ℕ)
  /-- The monotonic clock when the drives are found operational, which starts the period anew. -/
  opReachedNs : Option ℕ

/-- The start of `_run`. -/
def start (st : DcSettings) (nowNs : ℕ) : WakeUp :=
  let w : WakeUp := ⟨.new 0, 0, .new, 0⟩
  { w with wakeupSystimeNs := int64 (w.getSystimeNs nowNs + 100 * st.cycletimeNs) }

/-- `_sync_distributed_clocks` and `_update_master_clock`. -/
def syncClock (st : DcSettings) (w : WakeUp) : Option (ℕ × ℕ) → WakeUp
  | none => w
  | some (systimeNs, refTime) =>
    { w with clock := (w.clock.syncDistributedClocks systimeNs refTime).updateMasterClock st }

/-- The end of `EcatConnectedWaitingForOP`. -/
def opReached (st : DcSettings) (w : WakeUp) : Option ℕ → WakeUp
  | none => w
  | some nowNs => { w with wakeupSystimeNs := int64 (w.getSystimeNs nowNs + st.cycletimeNs) }

def cycle (st : DcSettings) (w : WakeUp) (a : CycleTimes) : WakeUp :=
  ((w.waitPeroid st a.ready a.nowNs).syncClock st a.sync).opReached st a.opReachedNs

variable {st : DcSettings} {w : WakeUp} {a : CycleTimes}

theorem int64_of_mem {x : ℤ} (hmin : -2 ^ 63 ≤ x) (hmax : x < 2 ^ 63) : int64 x = x := by
  unfold int64
  rw [Int.bmod_def]
  omega

theorem uint64_of_mem {x : ℤ} (hmin : 0 ≤ x) (hmax : x < 2 ^ 64) : uint64 x = x := by
  unfold uint64
  omega

/-- When the thread is to be woken, as long as nothing wraps around. -/
def dueNs (w : WakeUp) : ℤ := w.wakeupSystimeNs + w.clock.systimeBaseNs

/-- The scale is well within its type, and the thread is due within `early` before and `late` after.
-/
structure Due (st : DcSettings) (early late : ℤ) (w : WakeUp) : Prop where
  kept : w.clock.Kept
  wakeup_ge : st.cycletimeNs ≤ w.wakeupSystimeNs
  base_ge : 0 ≤ w.wakeupSystimeNs + 2 * w.clock.systimeBaseNs
  due_ge : early ≤ w.dueNs
  due_le : w.dueNs ≤ late

theorem Due.wakeupMonoNs {early late : ℤ} (h : w.Due st early late) (hlate : late < 2 ^ 62) :
    w.wakeupMonoNs = w.dueNs := by
  obtain ⟨-, hwakeup, hbase, -, hdue⟩ := h
  have hpos := st.cycletimeNs_pos
  unfold dueNs at hdue
  have harg : uint64 w.wakeupSystimeNs = w.wakeupSystimeNs := uint64_of_mem (by omega) (by omega)
  unfold WakeUp.wakeupMonoNs system2mono
  rw [harg, if_neg]
  · exact int64_of_mem (by omega) (by omega)
  · rintro ⟨hneg, hgt⟩
    rw [uint64_of_mem (by omega) (by omega)] at hgt
    omega

/-- The sleep leaves the base behind the clock, and the thread due within a period. -/
theorem Due.waitPeroid {early late : ℤ} (h : w.Due st early late) {nowNs : ℕ} (ready : Bool)
    (hlate : late < 2 ^ 61 + 2 ^ 33) (hwoken : w.wakeupMonoNs ≤ nowNs) (hnow : nowNs < 2 ^ 61) :
    (w.waitPeroid st ready nowNs).clock.Kept ∧
      st.cycletimeNs ≤ (w.waitPeroid st ready nowNs).wakeupSystimeNs ∧
      st.cycletimeNs ≤ (w.waitPeroid st ready nowNs).wakeupSystimeNs +
        2 * (w.waitPeroid st ready nowNs).clock.systimeBaseNs ∧
      (w.waitPeroid st ready nowNs).clock.systimeBaseNs + st.cycletimeNs ≤ nowNs ∧
      nowNs ≤ (w.waitPeroid st ready nowNs).dueNs ∧
      (w.waitPeroid st ready nowNs).dueNs ≤ nowNs + st.cycletimeNs ∧
      w.dueNs + st.cycletimeNs ≤ (w.waitPeroid st ready nowNs).dueNs := by
  have hmono := h.wakeupMonoNs (by omega)
  obtain ⟨hkept, hwakeup, hbase, -, hdue⟩ := h
  have hpos := st.cycletimeNs_pos
  have hlt := st.cycletimeNs_lt
  rw [hmono] at hwoken
  unfold dueNs at hwoken hdue hmono
  have hlatency : uint64 (nowNs - w.wakeupMonoNs) =
      nowNs - (w.wakeupSystimeNs + w.clock.systimeBaseNs) := by
    rw [hmono]
    exact uint64_of_mem (by omega) (by omega)
  have hnext : int64 (w.wakeupSystimeNs + st.cycletimeNs) = w.wakeupSystimeNs + st.cycletimeNs :=
    int64_of_mem (by omega) (by omega)
  have hmoved : int64 (w.clock.systimeBaseNs +
      (nowNs - (w.wakeupSystimeNs + w.clock.systimeBaseNs))) = nowNs - w.wakeupSystimeNs := by
    rw [int64_of_mem (by omega) (by omega)]
    omega
  unfold WakeUp.waitPeroid dueNs
  simp only [hlatency]
  by_cases hsome : nowNs - (w.wakeupSystimeNs + w.clock.systimeBaseNs) > 0
  · simp only [hsome, if_true]
    by_cases hlong : nowNs - (w.wakeupSystimeNs + w.clock.systimeBaseNs) > st.cycletimeNs
    · simp only [hlong, if_true, hmoved]
      exact ⟨⟨hkept.diff, hkept.adjust⟩, by omega, by omega, by omega, by omega, by omega, by omega⟩
    · simp only [hlong, if_false]
      exact ⟨hkept, by omega, by omega, by omega, by omega, by omega, by omega⟩
  · simp only [hsome, if_false]
    exact ⟨hkept, by omega, by omega, by omega, by omega, by omega, by omega⟩

/-- The correction of a cycle. -/
theorem syncClock_spec (st : DcSettings) (h : w.clock.Kept) (sync : Option (ℕ × ℕ))
    (hbase : -2 ^ 62 ≤ w.clock.systimeBaseNs ∧ w.clock.systimeBaseNs < 2 ^ 62) :
    (w.syncClock st sync).clock.Kept ∧
      (w.syncClock st sync).wakeupSystimeNs = w.wakeupSystimeNs ∧
      w.clock.systimeBaseNs - 1001 ≤ (w.syncClock st sync).clock.systimeBaseNs ∧
      (w.syncClock st sync).clock.systimeBaseNs ≤ w.clock.systimeBaseNs + 1001 := by
  cases sync with
  | none =>
    have hsame : (w.syncClock st none).clock.systimeBaseNs = w.clock.systimeBaseNs := rfl
    exact ⟨h, rfl, by omega, by omega⟩
  | some times =>
    obtain ⟨systimeNs, refTime⟩ := times
    have hsynced : (w.clock.step st (.sync systimeNs refTime)).Kept := h.step _
    have hupdated : ((w.clock.syncDistributedClocks systimeNs refTime).updateMasterClock st).Kept :=
      hsynced.step .update
    have hcorrection :
        ((w.clock.syncDistributedClocks systimeNs refTime).updateMasterClock st).systimeBaseNs =
          int64 ((w.clock.syncDistributedClocks systimeNs refTime).systimeBaseNs + _) :=
      MasterClock.updateMasterClock_systimeBaseNs
    have hsame : (w.clock.syncDistributedClocks systimeNs refTime).systimeBaseNs =
        w.clock.systimeBaseNs := rfl
    refine ⟨hupdated, rfl, ?_⟩
    show w.clock.systimeBaseNs - 1001 ≤
        ((w.clock.syncDistributedClocks systimeNs refTime).updateMasterClock st).systimeBaseNs ∧
      ((w.clock.syncDistributedClocks systimeNs refTime).updateMasterClock st).systimeBaseNs ≤
        w.clock.systimeBaseNs + 1001
    generalize (w.clock.syncDistributedClocks systimeNs refTime).updateMasterClock st = c
      at hupdated hcorrection
    have hadjust := hupdated.adjust
    have hsign : -1 ≤ c.dcDiffNs.sign ∧ c.dcDiffNs.sign ≤ 1 := by
      rcases Int.sign_trichotomy c.dcDiffNs with hs | hs | hs <;> omega
    rw [hcorrection, hsame, int64_of_mem (by omega) (by omega)]
    omega

/-- The last reading of the clock in the cycle. -/
def CycleTimes.lastNs (a : CycleTimes) : ℕ := a.opReachedNs.getD a.nowNs

/-- The thread was not woken before its time, and the clock reads forward. -/
structure Woken (w : WakeUp) (a : CycleTimes) : Prop where
  notBefore : w.wakeupMonoNs ≤ a.nowNs
  forward : a.nowNs ≤ a.lastNs
  lastNs_lt : a.lastNs < 2 ^ 61

theorem getSystimeNs_of_le {nowNs : ℕ} (hnow : nowNs < 2 ^ 61)
    (hbase : w.clock.systimeBaseNs ≤ nowNs) (hmin : -2 ^ 62 ≤ w.clock.systimeBaseNs) :
    w.getSystimeNs nowNs = nowNs - w.clock.systimeBaseNs := by
  unfold getSystimeNs
  rw [int64_of_mem (by omega) (by omega), if_pos hbase]
  exact int64_of_mem (by omega) (by omega)

theorem opReached_some (st : DcSettings) {nowNs : ℕ} (hnow : nowNs < 2 ^ 61)
    (hbase : w.clock.systimeBaseNs ≤ nowNs) (hmin : -2 ^ 62 ≤ w.clock.systimeBaseNs) :
    (w.opReached st (some nowNs)).clock = w.clock ∧
      (w.opReached st (some nowNs)).wakeupSystimeNs =
        nowNs - w.clock.systimeBaseNs + st.cycletimeNs := by
  have hlt := st.cycletimeNs_lt
  have hpos := st.cycletimeNs_pos
  have hmem : -2 ^ 63 ≤ nowNs - w.clock.systimeBaseNs + st.cycletimeNs ∧
      nowNs - w.clock.systimeBaseNs + st.cycletimeNs < 2 ^ 63 := by omega
  simp only [opReached, getSystimeNs_of_le hnow hbase hmin, true_and]
  exact int64_of_mem hmem.1 hmem.2

/-- One cycle: where the thread is due next, and how far this is from where it was due. -/
theorem Due.cycle {early late : ℤ} (hT : 4000 ≤ st.cycletimeNs) (h : w.Due st early late)
    (hlate : late < 2 ^ 61 + 2 ^ 33) (ha : w.Woken a) :
    (w.cycle st a).Due st (a.lastNs - 1001) (a.lastNs + st.cycletimeNs + 1001) ∧
      w.dueNs + (st.cycletimeNs - 1001) ≤ (w.cycle st a).dueNs := by
  obtain ⟨hwoken, hforward, hlast⟩ := ha
  obtain ⟨hkept, hwakeup, hscale, hbehind, hdue, hdue', hgone⟩ :=
    h.waitPeroid a.ready hlate hwoken (by omega)
  have hlt := st.cycletimeNs_lt
  unfold WakeUp.cycle
  generalize w.waitPeroid st a.ready a.nowNs = waited
    at hkept hwakeup hscale hbehind hdue hdue' hgone ⊢
  unfold dueNs at hdue hdue' hgone ⊢
  obtain ⟨hkept', hsame, hmin, hmax⟩ :=
    syncClock_spec st hkept a.sync ⟨by omega, by omega⟩
  generalize waited.syncClock st a.sync = synced at hkept' hsame hmin hmax ⊢
  cases hop : a.opReachedNs with
  | none =>
    have hnow : a.lastNs = a.nowNs := by rw [CycleTimes.lastNs, hop]; rfl
    have hkeeps : synced.opReached st none = synced := rfl
    rw [hkeeps, hnow]
    refine ⟨⟨hkept', by omega, by omega, ?_, ?_⟩, by omega⟩
    · unfold dueNs
      omega
    · unfold dueNs
      omega
  | some nowNs =>
    have hnow : a.lastNs = nowNs := by rw [CycleTimes.lastNs, hop]; rfl
    rw [hnow] at hforward hlast ⊢
    have hbase : synced.clock.systimeBaseNs ≤ nowNs ∧ -2 ^ 62 ≤ synced.clock.systimeBaseNs := by
      omega
    obtain ⟨hclock, hnext⟩ := opReached_some st (by omega) hbase.1 hbase.2
    rw [← hclock] at hkept'
    refine ⟨⟨hkept', ?_, ?_, ?_, ?_⟩, ?_⟩
    all_goals
      try unfold dueNs
      try rw [hclock]
      rw [hnext]
      clear hnext hclock hkept'
      omega

theorem start_due (hT : 4000 ≤ st.cycletimeNs) {nowNs : ℕ} (hnow : nowNs < 2 ^ 60) :
    (start st nowNs).Due st (nowNs + 100 * st.cycletimeNs) (nowNs + 100 * st.cycletimeNs) := by
  have hlt := st.cycletimeNs_lt
  have hmem : -2 ^ 63 ≤ nowNs + 100 * st.cycletimeNs ∧ nowNs + 100 * st.cycletimeNs < 2 ^ 63 := by
    omega
  have hsystime : (⟨.new 0, 0, .new, 0⟩ : WakeUp).getSystimeNs nowNs = nowNs - 0 :=
    getSystimeNs_of_le (w := ⟨.new 0, 0, .new, 0⟩) (by omega) (Int.natCast_nonneg nowNs) (by decide)
  have hwakeup : (start st nowNs).wakeupSystimeNs = nowNs + 100 * st.cycletimeNs := by
    simp only [start, hsystime, Int.sub_zero]
    exact int64_of_mem hmem.1 hmem.2
  have hbase : (start st nowNs).clock = .new 0 := rfl
  have hzero : (MasterClock.new 0).systimeBaseNs = 0 := rfl
  have hkept : (MasterClock.new 0).Kept := MasterClock.kept_run st 0 []
  refine ⟨hbase ▸ hkept, ?_, ?_, ?_, ?_⟩
  all_goals
    try unfold dueNs
    try rw [hbase, hzero]
    rw [hwakeup]
    omega

/-- From one cycle to the next that is looked at, each cycle in between takes its period. -/
theorem due_run (hT : 4000 ≤ st.cycletimeNs) {early late : ℤ} (h : w.Due st early late)
    (hlate : late < 2 ^ 61 + 2 ^ 33) {as : List CycleTimes}
    (has : Machine.AllSteps (cycle st) Woken w as) :
    (∃ early late, (Machine.run (cycle st) w as).Due st early late ∧ late < 2 ^ 61 + 2 ^ 33) ∧
      w.dueNs + as.length * (st.cycletimeNs - 1001) ≤ (Machine.run (cycle st) w as).dueNs := by
  induction as generalizing w early late with
  | nil => exact ⟨⟨early, late, h, hlate⟩, by simp⟩
  | cons a as ih =>
    obtain ⟨hnext, hgone⟩ := h.cycle hT hlate has.1
    have hlt := st.cycletimeNs_lt
    have hlast := has.1.lastNs_lt
    obtain ⟨hend, hsum⟩ := ih hnext (by omega) has.2
    refine ⟨hend, ?_⟩
    rw [List.length_cons, Machine.run_cons]
    push_cast
    rw [add_mul, one_mul]
    omega

/-- In every run of a period of at least four microseconds, in which no sleep ends early and the
clock reads less than seventy years: after each cycle the thread is to be woken at most a correction
before and at most a period and a correction after it last read the clock, however late it was; and
any number of cycles after it take as many periods, less the corrections: delays are never made up
for. -/
theorem wake_up_in_run (st : DcSettings) (hT : 4000 ≤ st.cycletimeNs) {firstNs : ℕ}
    (hfirst : firstNs < 2 ^ 60) {as before after : List CycleTimes}
    (h : Machine.AllSteps (cycle st) Woken (start st firstNs) as)
    (hsplit : as = before ++ a :: after) :
    (a.lastNs - 1001 ≤ (Machine.run (cycle st) (start st firstNs) (before ++ [a])).wakeupMonoNs ∧
      (Machine.run (cycle st) (start st firstNs) (before ++ [a])).wakeupMonoNs ≤
        a.lastNs + st.cycletimeNs + 1001) ∧
      ∀ between b rest, after = between ++ b :: rest →
        (a.lastNs : ℤ) + between.length * (st.cycletimeNs - 1001) - 1001 ≤ b.nowNs := by
  subst hsplit
  have hlt := st.cycletimeNs_lt
  obtain ⟨hbefore, ha, hafter⟩ := Machine.allSteps_append.mp h
  obtain ⟨⟨early, late, hdue, hlate⟩, -⟩ := due_run hT (start_due hT hfirst) (by omega) hbefore
  obtain ⟨hnext, -⟩ := hdue.cycle hT hlate ha
  have hlast := ha.lastNs_lt
  rw [Machine.run_append, Machine.run_cons, Machine.run_nil]
  refine ⟨?_, fun between b rest hrest => ?_⟩
  · rw [hnext.wakeupMonoNs (by omega)]
    exact ⟨hnext.due_ge, hnext.due_le⟩
  · subst hrest
    obtain ⟨hbetween, hb, -⟩ := Machine.allSteps_append.mp hafter
    obtain ⟨⟨early', late', hdue', hlate'⟩, hsum⟩ := due_run hT hnext (by omega) hbetween
    have hwoken := hb.notBefore
    rw [hdue'.wakeupMonoNs (by omega)] at hwoken
    have hge := hnext.due_ge
    linarith

/-- A cycle that comes three periods late, and the next. -/
def lateCycles : List CycleTimes := [⟨103000000, true, none, none⟩, ⟨104000000, true, none, none⟩]

theorem late_cycle_due :
    (103000000 - 1001 ≤
        (Machine.run (cycle MasterClock.everySecond) (start MasterClock.everySecond 0)
          (lateCycles.take 1)).wakeupMonoNs ∧
      (Machine.run (cycle MasterClock.everySecond) (start MasterClock.everySecond 0)
          (lateCycles.take 1)).wakeupMonoNs ≤ 103000000 + 1000000 + 1001) := by
  have hwoken : Machine.AllSteps (cycle MasterClock.everySecond) Woken
      (start MasterClock.everySecond 0) lateCycles :=
    ⟨⟨by decide, by decide, by decide⟩, ⟨by decide +kernel, by decide, by decide⟩, trivial⟩
  have hsplit : lateCycles = [] ++ ⟨103000000, true, none, none⟩ :: lateCycles.drop 1 := rfl
  exact (wake_up_in_run MasterClock.everySecond (by decide) (by decide) hwoken hsplit).1

end WakeUp

end Edm
