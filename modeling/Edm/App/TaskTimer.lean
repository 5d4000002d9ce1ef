import Edm.Lib.Run
import Mathlib.Data.Int.Interval

/-!
# The timer of a node

`TaskTimer` measures how long a node has run, pauses not counted. The finished intervals are in a
buffer, the one under way is added when the time is asked for; the clock is a parameter of every
call. What is measured is stated without the buffer: the ticks at which the timer was running
(`runningTicks`). The two agree at any moment (`elapsedTime_eq`). A reset forgets what was
measured, like a restart.
-/

namespace Edm

inductive TaskTimer.State where
  | idle | running | paused | stopped
  deriving DecidableEq, Repr

/-- Times are ticks of `system_clock`. -/
structure TaskTimer where
  state : TaskTimer.State
  totalStartTime : ℤ
  startTime : ℤ
  endTime : ℤ
  elapsedTimeBuffer : ℤ
  deriving DecidableEq, Repr

namespace TaskTimer

def reset (t : TaskTimer) : TaskTimer := { t with elapsedTimeBuffer := 0, state := .idle }

def new : TaskTimer := reset ⟨.idle, 0, 0, 0, 0⟩

def restart (t : TaskTimer) (now : ℤ) : TaskTimer :=
  { t.reset with startTime := now, totalStartTime := now, state := .running }

def stop (t : TaskTimer) (now : ℤ) : TaskTimer :=
  match t.state with
  | .running =>
    { t with
      endTime := now
      state := .stopped
      elapsedTimeBuffer := t.elapsedTimeBuffer + (now - t.startTime) }
  | .paused => { t with endTime := now, state := .stopped }
  | .idle => { t with endTime := now, startTime := now, totalStartTime := now, state := .stopped }
  | .stopped => t

def pause (t : TaskTimer) (now : ℤ) : TaskTimer :=
  match t.state with
  | .running =>
    { t with
      elapsedTimeBuffer := t.elapsedTimeBuffer + (now - t.startTime)
      state := .paused }
  | _ => t

def resume (t : TaskTimer) (now : ℤ) : TaskTimer :=
  match t.state with
  | .paused => { t with startTime := now, state := .running }
  | _ => t

def elapsedTime (t : TaskTimer) (now : ℤ) : ℤ :=
  match t.state with
  | .running => t.elapsedTimeBuffer + (now - t.startTime)
  | .paused | .stopped => t.elapsedTimeBuffer
  | .idle => 0

inductive Op where
  | restart | pause | resume | stop | reset
  deriving DecidableEq, Repr

/-- A call at a time of the clock. -/
structure Call where
  now : ℤ
  op : Op
  deriving DecidableEq, Repr

def step (t : TaskTimer) (c : Call) : TaskTimer :=
  match c.op with
  | .restart => t.restart c.now
  | .pause => t.pause c.now
  | .resume => t.resume c.now
  | .stop => t.stop c.now
  | .reset => t.reset

/-- The timer after the calls. -/
def after (calls : List Call) : TaskTimer := Machine.run step new calls

/-- The clock of the calls never goes backward, and reads `now` last. -/
def ClockForward (calls : List Call) (now : ℤ) : Prop :=
  (calls.map Call.now ++ [now]).Pairwise (· ≤ ·)

/-- The calls that start a measurement anew. -/
def Call.begins (c : Call) : Bool := c.op = .restart || c.op = .reset

/-- When the measurement shown at `now` began. -/
def begun (calls : List Call) (now : ℤ) : ℤ :=
  ((calls.filter Call.begins).map Call.now).getLast?.getD now

/-- The state of the timer at the tick `τ`. -/
def stateAt (calls : List Call) (τ : ℤ) : State := (after (calls.filter (·.now ≤ τ))).state

/-- The order of the ticks, computable whatever else is imported. -/
local instance : Preorder ℤ := Int.instLinearOrder.toPreorder

/-- The ticks up to `now`, since the measurement began, at which the timer was running. -/
def runningTicks (calls : List Call) (now : ℤ) : Finset ℤ :=
  (Finset.Ico (begun calls now) now).filter fun τ => stateAt calls τ = .running

/-! ### The clock of the calls -/

section Clock

variable {calls : List Call} {c : Call} {now : ℤ}

theorem ClockForward.le (h : ClockForward calls now) : ∀ c ∈ calls, c.now ≤ now := by
  intro c hc
  have hlast := (List.pairwise_append.mp h).2.2 c.now (List.mem_map_of_mem hc)
  exact hlast now (List.mem_singleton.mpr rfl)

theorem ClockForward.init (h : ClockForward (calls ++ [c]) now) : ClockForward calls c.now := by
  unfold ClockForward at h ⊢
  rw [List.map_append, List.map_singleton] at h
  exact (List.pairwise_append.mp h).1

theorem after_append : after (calls ++ [c]) = (after calls).step c := by
  unfold after
  rw [Machine.run_append]
  rfl

/-- From the last call on the timer is in the state it was left in. -/
theorem stateAt_of_le (h : ∀ c ∈ calls, c.now ≤ now) : stateAt calls now = (after calls).state := by
  unfold stateAt
  rw [List.filter_eq_self.mpr fun c hc => decide_eq_true (h c hc)]

/-- A call does not reach back. -/
theorem stateAt_append (h : now < c.now) : stateAt (calls ++ [c]) now = stateAt calls now := by
  unfold stateAt
  rw [List.filter_append, List.filter_singleton, decide_eq_false (not_le.mpr h), cond_false,
    List.append_nil]

theorem begun_append_of_begins (h : c.begins = true) : begun (calls ++ [c]) now = c.now := by
  unfold begun
  rw [List.filter_append, List.filter_singleton, h, cond_true, List.map_append, List.map_singleton,
    List.getLast?_concat]
  rfl

theorem begun_append_of_not_begins (h : c.begins = false) :
    begun (calls ++ [c]) now = begun calls now := by
  unfold begun
  rw [List.filter_append, List.filter_singleton, h, cond_false, List.append_nil]

end Clock

/-! ### A call, and the time up to the next one -/

section Step

variable {t : TaskTimer} {c : Call}

/-- Nothing is measured before a restart. -/
def Rested (t : TaskTimer) : Prop := t.state = .idle → t.elapsedTimeBuffer = 0

theorem Rested.step (h : t.Rested) (c : Call) : (t.step c).Rested := by
  unfold TaskTimer.step
  cases c.op with
  | restart => exact fun hs => absurd hs (by simp [restart])
  | reset => exact fun _ => rfl
  | pause =>
    unfold TaskTimer.pause
    cases hs : t.state with
    | running => exact fun hs' => absurd hs' (by simp)
    | _ => exact h
  | resume =>
    unfold TaskTimer.resume
    cases hs : t.state with
    | paused => exact fun hs' => absurd hs' (by simp)
    | _ => exact h
  | stop =>
    unfold TaskTimer.stop
    cases hs : t.state with
    | stopped => exact h
    | _ => exact fun hs' => absurd hs' (by simp)

theorem after_rested (calls : List Call) : (after calls).Rested := by
  refine Machine.run_invariant (I := Rested) (fun _ c h => h.step c) ?_ calls
  exact fun _ => rfl

/-- A call does not change the time measured, unless it begins a measurement. -/
theorem Rested.elapsedTime_step (h : t.Rested) (c : Call) :
    (t.step c).elapsedTime c.now = if c.begins then 0 else t.elapsedTime c.now := by
  unfold TaskTimer.step Call.begins
  cases c.op with
  | restart => simp [restart, elapsedTime, reset]
  | reset => simp [elapsedTime, reset]
  | pause => cases hs : t.state <;> simp [TaskTimer.pause, elapsedTime, hs]
  | resume => cases hs : t.state <;> simp [TaskTimer.resume, elapsedTime, hs]
  | stop =>
    cases hs : t.state with
    | idle => simpa [TaskTimer.stop, elapsedTime, hs] using h hs
    | _ => simp [TaskTimer.stop, elapsedTime, hs]

/-- Between calls the time measured goes on while the timer is running. -/
theorem elapsedTime_later (t : TaskTimer) (now later : ℤ) :
    t.elapsedTime later =
      t.elapsedTime now + if t.state = .running then later - now else 0 := by
  cases hs : t.state with
  | running =>
    simp only [elapsedTime, hs, if_true]
    omega
  | _ => simp [elapsedTime, hs]

/-- A timer runs only once it was restarted. -/
theorem step_not_running (h : t.state = .idle ∨ t.state = .stopped) (hc : c.begins = false) :
    (t.step c).state = .idle ∨ (t.step c).state = .stopped := by
  unfold TaskTimer.step
  unfold Call.begins at hc
  cases hop : c.op with
  | restart | reset => simp [hop] at hc
  | _ => rcases h with h | h <;> simp [TaskTimer.pause, TaskTimer.resume, TaskTimer.stop, h]

end Step

/-! ### The ticks -/

section Ticks

variable {calls : List Call} {c : Call} {now later : ℤ}

theorem after_not_running (h : calls.filter Call.begins = []) :
    (after calls).state = .idle ∨ (after calls).state = .stopped := by
  induction calls using List.reverseRecOn with
  | nil => exact .inl rfl
  | append_singleton calls c ih =>
    rw [List.filter_append, List.append_eq_nil_iff] at h
    rw [after_append]
    refine step_not_running (ih h.1) ?_
    cases hc : c.begins with
    | false => rfl
    | true => simp [hc] at h

/-- Up to a call that begins no measurement the ticks are those before it. -/
theorem runningTicks_append :
    runningTicks (calls ++ [c]) c.now = if c.begins then ∅ else runningTicks calls c.now := by
  unfold runningTicks
  split
  · rename_i hc
    rw [begun_append_of_begins hc, Finset.Ico_self, Finset.filter_empty]
  · rename_i hc
    rw [begun_append_of_not_begins (Bool.eq_false_of_not_eq_true hc)]
    refine Finset.filter_congr fun τ hτ => ?_
    rw [stateAt_append (Finset.mem_Ico.mp hτ).2]

/-- Between calls each tick counts while the timer is running. -/
theorem card_runningTicks_later (h : ∀ c ∈ calls, c.now ≤ now) (hle : now ≤ later) :
    ((runningTicks calls later).card : ℤ) =
      (runningTicks calls now).card +
        if (after calls).state = .running then later - now else 0 := by
  by_cases hbegins : calls.filter Call.begins = []
  · have hnot : (after calls).state ≠ .running := by
      rcases after_not_running hbegins with hs | hs <;> simp [hs]
    have hempty (x : ℤ) : runningTicks calls x = ∅ := by
      rw [runningTicks, begun, hbegins]
      simp
    rw [hempty, hempty, if_neg hnot, add_zero]
  · obtain ⟨b, hb, hfrom⟩ : ∃ b ≤ now, ∀ x, begun calls x = b := by
      have hne : (calls.filter Call.begins).map Call.now ≠ [] := by simpa using hbegins
      refine ⟨((calls.filter Call.begins).map Call.now).getLast hne, ?_, fun x => ?_⟩
      · obtain ⟨c, hc, heq⟩ := List.mem_map.mp (List.getLast_mem hne)
        exact heq ▸ h c (List.mem_of_mem_filter hc)
      · rw [begun, List.getLast?_eq_some_getLast hne, Option.getD_some]
    have hsplit : runningTicks calls later = runningTicks calls now ∪
        (Finset.Ico now later).filter fun τ => stateAt calls τ = .running := by
      rw [runningTicks, runningTicks, hfrom, hfrom, ← Finset.filter_union,
        Finset.Ico_union_Ico_eq_Ico hb hle]
    have hdisjoint : Disjoint (runningTicks calls now)
        ((Finset.Ico now later).filter fun τ => stateAt calls τ = .running) := by
      rw [runningTicks, hfrom]
      exact Finset.disjoint_filter_filter (Finset.Ico_disjoint_Ico_consecutive b now later)
    have hnew : (Finset.Ico now later).filter (fun τ => stateAt calls τ = .running) =
        if (after calls).state = .running then Finset.Ico now later else ∅ := by
      have hstate (τ : ℤ) (hτ : τ ∈ Finset.Ico now later) : stateAt calls τ = (after calls).state :=
        stateAt_of_le fun c hc => (h c hc).trans (Finset.mem_Ico.mp hτ).1
      split
      · rename_i hrun
        exact Finset.filter_true_of_mem fun τ hτ => (hstate τ hτ).trans hrun
      · rename_i hrun
        exact Finset.filter_false_of_mem fun τ hτ hτ' => hrun ((hstate τ hτ).symm.trans hτ')
    rw [hsplit, Finset.card_union_of_disjoint hdisjoint, hnew]
    push_cast
    split
    · rw [Int.card_Ico, Int.toNat_of_nonneg (sub_nonneg.mpr hle)]
    · rfl

/-- At any moment the timer shows the number of ticks at which it was running since its measurement
began. -/
theorem elapsedTime_eq (hclock : ClockForward calls now) :
    (after calls).elapsedTime now = (runningTicks calls now).card := by
  induction calls using List.reverseRecOn generalizing now with
  | nil => simp [after, elapsedTime, new, reset, runningTicks, begun]
  | append_singleton calls c ih =>
    have hle := hclock.le c (by simp)
    have hcalls : ∀ x ∈ calls ++ [c], x.now ≤ c.now := by
      rw [List.forall_mem_append, List.forall_mem_singleton]
      exact ⟨hclock.init.le, le_rfl⟩
    rw [elapsedTime_later _ c.now, card_runningTicks_later hcalls hle, runningTicks_append,
      after_append, (after_rested calls).elapsedTime_step, ih hclock.init]
    split <;> simp

end Ticks

/-! ### After a stop -/

section Stopped

theorem stop_stopped (t : TaskTimer) (now : ℤ) : (t.stop now).state = .stopped := by
  cases hs : t.state <;> simp [TaskTimer.stop, hs]

/-- A timer that is stopped stays as it is until it is restarted or reset. -/
theorem step_of_stopped {t : TaskTimer} {c : Call} (h : t.state = .stopped)
    (hc : c.begins = false) : t.step c = t := by
  unfold TaskTimer.step
  unfold Call.begins at hc
  cases hop : c.op with
  | restart | reset => simp [hop] at hc
  | _ => simp [TaskTimer.pause, TaskTimer.resume, TaskTimer.stop, h]

theorem run_of_stopped {t : TaskTimer} (h : t.state = .stopped) (later : List Call)
    (hlater : ∀ c ∈ later, c.begins = false) : Machine.run step t later = t := by
  induction later with
  | nil => rfl
  | cons c later ih =>
    obtain ⟨hc, hrest⟩ := List.forall_mem_cons.mp hlater
    rw [Machine.run_cons, step_of_stopped h hc]
    exact ih hrest

/-- After a stop the timer shows what it showed when it was stopped, until it is restarted or
reset. -/
theorem elapsedTime_stopped (before later : List Call) (moment now : ℤ)
    (hlater : ∀ c ∈ later, c.begins = false) :
    (after (before ++ ⟨moment, .stop⟩ :: later)).elapsedTime now =
      (after before).elapsedTime moment := by
  have hstep := (after_rested before).elapsedTime_step ⟨moment, .stop⟩
  have hstopped : ((after before).step ⟨moment, .stop⟩).state = .stopped := stop_stopped _ _
  have hrun : after (before ++ ⟨moment, .stop⟩ :: later) = (after before).step ⟨moment, .stop⟩ := by
    unfold after
    rw [Machine.run_append, Machine.run_cons]
    exact run_of_stopped hstopped later hlater
  rw [hrun, elapsedTime_later _ moment, hstopped, if_neg (by simp), add_zero, hstep]
  rfl

end Stopped

/-- At any moment the timer shows the number of ticks at which it was running since it was last
restarted or reset; a timer that is stopped shows that of the moment of its stop. -/
theorem elapsedTime_exact (calls : List Call) (now : ℤ) (hclock : ClockForward calls now) :
    (after calls).elapsedTime now = (runningTicks calls now).card ∧
      ∀ before moment later, calls = before ++ ⟨moment, .stop⟩ :: later →
        (∀ c ∈ later, c.begins = false) →
        (after calls).elapsedTime now = (runningTicks before moment).card := by
  refine ⟨elapsedTime_eq hclock, fun before moment later hcalls hlater => ?_⟩
  subst hcalls
  have hbefore : ClockForward before moment := by
    refine List.Pairwise.sublist ?_ hclock
    rw [List.map_append, List.map_cons, List.append_assoc, List.cons_append]
    exact (List.singleton_sublist.mpr (List.mem_cons_self ..)).append_left _
  rw [elapsedTime_stopped before later moment now hlater, elapsedTime_eq hbefore]

/-- Paused from 5 to 7 and stopped at 9, a timer started at 0 shows 7 at 12. -/
theorem paused_timer_exact :
    let calls : List Call := [⟨0, .restart⟩, ⟨5, .pause⟩, ⟨7, .resume⟩, ⟨9, .stop⟩]
    (after calls).elapsedTime 12 = 7 ∧ (runningTicks calls 12).card = 7 := by
  intro calls
  have h := (elapsedTime_exact calls 12 (by unfold ClockForward; decide)).1
  have hseven : (after calls).elapsedTime 12 = 7 := by decide
  exact ⟨hseven, by exact_mod_cast h.symm.trans hseven⟩

/-- The ticks since the last restart, whether the timer was reset meanwhile or not. -/
def ticksSinceRestart (calls : List Call) (now : ℤ) : Finset ℤ :=
  (Finset.Ico (((calls.filter fun c => c.op = .restart).map Call.now).getLast?.getD now) now).filter
    fun τ => stateAt calls τ = .running

/-- A timer that is reset shows nothing of the five ticks since its restart. -/
theorem reset_timer_shows_nothing :
    ¬((after [⟨0, .restart⟩, ⟨5, .reset⟩]).elapsedTime 5 =
      (ticksSinceRestart [⟨0, .restart⟩, ⟨5, .reset⟩] 5).card) := by
  decide

end TaskTimer

end Edm
