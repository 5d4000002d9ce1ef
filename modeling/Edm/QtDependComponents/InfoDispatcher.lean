import Edm.Lib.Postbox
import Edm.Motion.SignalDelivery

/-!
# The info the rest of the program sees

At the end of a cycle the motion thread stores its info and queues the signals of the cycle, each
with a copy of it. The timer of `InfoDispatcher` takes one signal with its copy; only if there is
none it loads the info. The two halves of a tick are steps of their own: the thread may go on
between them.
-/

set_option linter.unusedSectionVars false

namespace Edm

structure InfoDispatcher (K : Type) where
  infoCache : MotionInfo K
  /-- The signals passed on to the rest of the program. -/
  emitted : List MotionSignalType

/-- `_handle_signal_callback`. -/
def InfoDispatcher.handleSignalCallback {K : Type} (d : InfoDispatcher K)
    (signal : MotionSignal K) : InfoDispatcher K :=
  ⟨signal.info, d.emitted ++ [signal.type]⟩

/-- The motion thread and the dispatcher. `infos` and `numbers` are not in the source: the infos
stored so far, and which of them is shown and which the queued signals carry. -/
structure DispatchSystem (K : Type) where
  thread : MotionThread K
  dispatcher : InfoDispatcher K
  /-- `_info_get_timer_slot` found no signal, and has yet to load the info. -/
  loading : Bool
  infos : List (MotionInfo K)
  numbers : Postbox

namespace DispatchSystem

variable {K : Type} [Field K] [LinearOrder K] [FloorRing K] [RealFns K] [Settings]

/-- The steps of a cycle of the thread, and the two halves of a tick. -/
inductive Action (K : Type) where
  | work (inp : ThreadInput K) (cmd : Option (MotionCommand K))
  | copyInfoCache (inp : ThreadInput K)
  | pushSignal (type : MotionSignalType)
  | resetAll
  | consumeOne
  | loadAtInfoCache

def new : DispatchSystem K :=
  let t : MotionThread K := .new
  ⟨t, ⟨t.infoCache, []⟩, false, [t.infoCache], .new⟩

/-- The step as one of register and queue. -/
def number (s : DispatchSystem K) : Action K → Postbox.Action
  | .work _ _ | .resetAll => .push 0
  | .copyInfoCache _ => .store
  | .pushSignal _ =>
    .push (if s.thread.motionSignalQueue.length < MotionThread.signalQueueCapacity then 1 else 0)
  | .consumeOne => .take
  | .loadAtInfoCache => .load

/-- The step in the source. -/
def act (s : DispatchSystem K) : Action K → DispatchSystem K
  | .work inp cmd => { s with thread := (s.thread.threadCycleWork inp).afterCommand inp cmd }
  | .copyInfoCache inp =>
    let t := s.thread.copyInfoCache inp
    { s with thread := t, infos := s.infos ++ [t.infoCache] }
  | .pushSignal type =>
    let queue := MotionThread.pushSignal s.thread.motionSignalQueue ⟨type, s.thread.infoCache⟩
    { s with thread := { s.thread with motionSignalQueue := queue } }
  | .resetAll =>
    let m := s.thread.motionStateMachine
    let sh := { m.shared with signalBuffer := m.shared.signalBuffer.resetAll }
    { s with thread := { s.thread with motionStateMachine := { m with shared := sh } } }
  | .consumeOne =>
    if s.loading then s
    else
      match s.thread.motionSignalQueue with
      | [] => { s with loading := true }
      | signal :: queue =>
        { s with
          thread := { s.thread with motionSignalQueue := queue }
          dispatcher := s.dispatcher.handleSignalCallback signal }
  | .loadAtInfoCache =>
    if s.loading then
      { s with
        dispatcher := { s.dispatcher with infoCache := s.thread.infoCache }
        loading := false }
    else s

def step (s : DispatchSystem K) (a : Action K) : DispatchSystem K :=
  { s.act a with numbers := s.numbers.step (s.number a) }

/-- The steps of a cycle. -/
def cycleActions (t : MotionThread K) (inp : ThreadInput K) (cmd : Option (MotionCommand K)) :
    List (Action K) :=
  let t := (t.threadCycleWork inp).afterCommand inp cmd
  let b := t.motionStateMachine.shared.signalBuffer
  [.work inp cmd, .copyInfoCache inp] ++
    (if b.hasSignal then (MotionThread.signalTypes.filter b.signalsArr).map .pushSignal else []) ++
    [.resetAll]

variable {s : DispatchSystem K} {a : Action K}

theorem run_pushSignals (types : List MotionSignalType) :
    (Machine.run step s (types.map .pushSignal)).thread =
      { s.thread with
        motionSignalQueue := (types.map (⟨·, s.thread.infoCache⟩)).foldl MotionThread.pushSignal
          s.thread.motionSignalQueue } := by
  induction types generalizing s with
  | nil => rfl
  | cons type types ih =>
    simp only [List.map_cons, Machine.run_cons, List.foldl_cons]
    rw [ih]
    rfl

/-- A cycle of the thread is a run of these steps. -/
theorem run_cycleActions (s : DispatchSystem K) (inp : ThreadInput K)
    (cmd : Option (MotionCommand K)) :
    (Machine.run step s (cycleActions s.thread inp cmd)).thread =
      (s.thread.threadCycle inp cmd).1 := by
  rw [MotionThread.threadCycle_fst, cycleActions, Machine.run_append, Machine.run_append]
  set t := (s.thread.threadCycleWork inp).afterCommand inp cmd with ht
  have hstored : (Machine.run step s [.work inp cmd, .copyInfoCache inp]).thread =
      t.copyInfoCache inp := rfl
  generalize Machine.run step s [.work inp cmd, .copyInfoCache inp] = stored at hstored
  have hpushed : (Machine.run step stored
      (if t.motionStateMachine.shared.signalBuffer.hasSignal then
        (MotionThread.signalTypes.filter t.motionStateMachine.shared.signalBuffer.signalsArr).map
          .pushSignal else [])).thread =
      { t.copyInfoCache inp with
        motionSignalQueue :=
          (MotionThread.pendingSignals t.motionStateMachine.shared.signalBuffer
            (t.copyInfoCache inp).infoCache).foldl MotionThread.pushSignal
              (t.copyInfoCache inp).motionSignalQueue } := by
    unfold MotionThread.pendingSignals
    split
    · rw [run_pushSignals, hstored]
    · exact hstored
  simp only [Machine.run_cons, Machine.run_nil]
  show (DispatchSystem.act _ .resetAll).thread = _
  simp only [act, hpushed]
  rfl

/-- Only the copy at the end of a cycle touches the info. -/
theorem work_infoCache (t : MotionThread K) (inp : ThreadInput K) (cmd : Option (MotionCommand K)) :
    ((t.threadCycleWork inp).afterCommand inp cmd).infoCache = t.infoCache := by
  have hwork : (t.threadCycleWork inp).infoCache = t.infoCache := by
    unfold MotionThread.threadCycleWork
    split
    · rfl
    · simp only [MotionThread.threadstateRunning]
      repeat' split
      all_goals rfl
    · unfold MotionThread.threadstateStopping
      repeat' split
      all_goals rfl
    · rfl
  rw [← hwork]
  cases cmd with
  | none => rfl
  | some cmd =>
    simp only [MotionThread.afterCommand]
    cases cmd with
    | settingTestVOffset i type value =>
      simp only [MotionThread.handleCommand]
      split
      · rfl
      · cases type <;> rfl
    | _ =>
      simp only [MotionThread.handleCommand, MotionThread.onlyDrill]
      repeat' split
      all_goals rfl

/-- The numbers are those of the infos. -/
structure Tracks (s : DispatchSystem K) : Prop where
  loading : s.numbers.waiting = s.loading
  newest : s.infos.length = s.numbers.newest + 1
  stored : s.infos[s.numbers.newest]? = some s.thread.infoCache
  shown : s.infos[s.numbers.shown]? = some s.dispatcher.infoCache
  queue : List.Forall₂ (fun signal n => s.infos[n]? = some signal.info)
    s.thread.motionSignalQueue s.numbers.queue

theorem numbers_step (s : DispatchSystem K) (a : Action K) :
    (s.step a).numbers = s.numbers.step (s.number a) := rfl

theorem new_tracks : (new : DispatchSystem K).Tracks := ⟨rfl, rfl, rfl, rfl, .nil⟩

theorem Tracks.step (h : s.Tracks) (a : Action K) : (s.step a).Tracks := by
  obtain ⟨hloading, hnewest, hstored, hshown, hqueue⟩ := h
  cases a with
  | work inp cmd =>
    refine ⟨hloading, hnewest, ?_, hshown, ?_⟩
    · exact hstored.trans (congrArg some (work_infoCache s.thread inp cmd).symm)
    · show List.Forall₂ _ ((s.thread.threadCycleWork inp).afterCommand inp cmd).motionSignalQueue
        (s.numbers.queue ++ [])
      rw [MotionThread.afterCommand_queue, MotionThread.threadCycleWork_queue, List.append_nil]
      exact hqueue
  | resetAll =>
    refine ⟨hloading, hnewest, hstored, hshown, ?_⟩
    show List.Forall₂ _ s.thread.motionSignalQueue (s.numbers.queue ++ [])
    rw [List.append_nil]
    exact hqueue
  | copyInfoCache inp =>
    have hold {n : ℕ} {i : MotionInfo K} (hi : s.infos[n]? = some i) :
        (s.infos ++ [(s.thread.copyInfoCache inp).infoCache])[n]? = some i :=
      (List.getElem?_append_left (List.getElem?_eq_some_iff.mp hi).1).trans hi
    refine ⟨hloading, ?_, ?_, hold hshown, hqueue.imp fun _ _ => hold⟩
    · show (s.infos ++ [_]).length = s.numbers.newest + 1 + 1
      rw [List.length_append, hnewest]
      rfl
    · show (s.infos ++ [_])[s.numbers.newest + 1]? = _
      rw [← hnewest, List.getElem?_concat_length]
      rfl
  | pushSignal type =>
    refine ⟨hloading, hnewest, hstored, hshown, ?_⟩
    show List.Forall₂ _ (MotionThread.pushSignal s.thread.motionSignalQueue _)
      (s.numbers.queue ++ List.replicate _ s.numbers.newest)
    unfold MotionThread.pushSignal
    split
    · exact List.rel_append hqueue (.cons hstored .nil)
    · rw [List.replicate_zero, List.append_nil]
      exact hqueue
  | consumeOne =>
    cases hl : s.loading with
    | true =>
      have hsame : s.step .consumeOne = s := by
        have hact : s.act .consumeOne = s := by simp [act, hl]
        have hnumber : s.numbers.step .take = s.numbers := by simp [Postbox.step, hloading, hl]
        show { s.act .consumeOne with numbers := s.numbers.step .take } = s
        rw [hact, hnumber]
      rw [hsame]
      exact ⟨hloading, hnewest, hstored, hshown, hqueue⟩
    | false =>
      rw [hl] at hloading
      cases hq : s.thread.motionSignalQueue with
      | nil =>
        rw [hq, List.forall₂_nil_left_iff] at hqueue
        have hnext : s.step .consumeOne =
            { s with loading := true, numbers := { s.numbers with waiting := true } } := by
          simp [DispatchSystem.step, act, number, Postbox.step, hloading, hl, hq, hqueue]
        rw [hnext]
        refine ⟨rfl, hnewest, hstored, hshown, ?_⟩
        rw [hq, hqueue]
        exact .nil
      | cons signal queue =>
        rw [hq, List.forall₂_cons_left_iff] at hqueue
        obtain ⟨n, numbers, hn, hrest, hnumbers⟩ := hqueue
        have hnext : s.step .consumeOne =
            { s with
              thread := { s.thread with motionSignalQueue := queue }
              dispatcher := s.dispatcher.handleSignalCallback signal
              numbers := { s.numbers with queue := numbers, shown := n } } := by
          simp [DispatchSystem.step, act, number, Postbox.step, hloading, hl, hq, hnumbers]
        rw [hnext]
        exact ⟨hloading.trans hl.symm, hnewest, hstored, hn, hrest⟩
  | loadAtInfoCache =>
    cases hl : s.loading with
    | false =>
      have hsame : s.step .loadAtInfoCache = s := by
        have hact : s.act .loadAtInfoCache = s := by simp [act, hl]
        have hnumber : s.numbers.step .load = s.numbers := by simp [Postbox.step, hloading, hl]
        show { s.act .loadAtInfoCache with numbers := s.numbers.step .load } = s
        rw [hact, hnumber]
      rw [hsame]
      exact ⟨hloading, hnewest, hstored, hshown, hqueue⟩
    | true =>
      have hnext : s.step .loadAtInfoCache =
          { s with
            dispatcher := { s.dispatcher with infoCache := s.thread.infoCache }
            loading := false
            numbers := { s.numbers with shown := s.numbers.newest, waiting := false } } := by
        simp [DispatchSystem.step, act, number, Postbox.step, hloading, hl]
      rw [hnext]
      exact ⟨rfl, hnewest, hstored, hstored, hqueue⟩

theorem run_tracks (as : List (Action K)) : (Machine.run step new as).Tracks :=
  Machine.run_invariant (fun _ a h => h.step a) new_tracks as

/-- The tick goes back: it takes a signal with an info older than the one shown. -/
def GoesBack (s : DispatchSystem K) (a : Action K) : Prop :=
  (s.step a).numbers.shown < s.numbers.shown

/-- An older signal is waiting, so that the next tick goes back. -/
def Behind (s : DispatchSystem K) : Prop := ∃ n ∈ s.numbers.queue, n < s.numbers.shown

/-- The tick loads the info past a signal that carries an older one. -/
def Overtakes (s : DispatchSystem K) (a : Action K) : Prop :=
  a = .loadAtInfoCache ∧ s.loading = true ∧ ∃ n ∈ s.numbers.queue, n + 1 < s.infos.length

theorem number_eq_load : s.number a = .load ↔ a = .loadAtInfoCache := by
  cases a <;> simp [number]

theorem number_eq_take : s.number a = .take ↔ a = .consumeOne := by
  cases a <;> simp [number]

theorem Tracks.overtakes_iff (h : s.Tracks) :
    s.numbers.Overtakes (s.number a) ↔ s.Overtakes a := by
  unfold Postbox.Overtakes Overtakes
  rw [number_eq_load, h.loading, h.newest]
  simp only [Nat.add_lt_add_iff_right]

theorem upToDate_iff : s.numbers.UpToDate ↔ ¬s.Behind := by
  simp only [Postbox.UpToDate, Behind, not_exists, not_and, not_lt]

/-- In every interleaving: what is shown, and what each queued signal carries, is an info the thread
stored (`Tracks`). A tick goes back in time only where it takes a signal that the tick before loaded
past; this happens along a run exactly if some tick loads the info past an older signal; and if the
thread queues no signal between the two halves of a tick, no tick ever goes back. -/
theorem info_goes_forward (as : List (Action K)) :
    (Machine.run step new as).Tracks ∧
      (∀ a, (Machine.run step new as).GoesBack a → a = .consumeOne ∧
        (Machine.run step new as).Behind) ∧
      ((∀ bs, bs <+: as → ¬(Machine.run step (new : DispatchSystem K) bs).Behind) ↔
        Machine.AllSteps step (fun s a => ¬s.Overtakes a) (new : DispatchSystem K) as) ∧
      (Machine.AllSteps step (fun s a => s.loading = true → ∀ type, a ≠ .pushSignal type) new as →
        Machine.AllSteps step (fun s a => ¬s.GoesBack a) (new : DispatchSystem K) as) := by
  refine ⟨run_tracks as, fun a ha => ?_, ?_, fun h => ?_⟩
  · have hordered :=
      Postbox.ordered_run numbers_step (rfl : (new : DispatchSystem K).numbers = _) as
    obtain ⟨htake, -, x, q, hq, hlt⟩ := (Postbox.shown_lt_iff hordered).mp ha
    exact ⟨number_eq_take.mp htake, x, hq ▸ List.mem_cons_self, hlt⟩
  · have hiff := Postbox.forward_iff numbers_step (rfl : (new : DispatchSystem K).numbers = _) as
    simp only [upToDate_iff] at hiff
    rw [hiff]
    constructor
    · exact fun hall => hall.strengthen (I := Tracks) (fun s a hs _ => hs.step a)
        (fun s a hs ha => mt hs.overtakes_iff.mpr ha) new_tracks
    · exact fun hall => hall.strengthen (I := Tracks) (fun s a hs _ => hs.step a)
        (fun s a hs ha => mt hs.overtakes_iff.mp ha) new_tracks
  · have hundisturbed : Machine.AllSteps step
        (fun s a => s.numbers.Undisturbed (s.number a)) (new : DispatchSystem K) as := by
      refine h.strengthen (I := Tracks) (fun s a hs _ => hs.step a) (fun s a hs ha hw k hk => ?_)
        new_tracks
      have hnone := ha (hs.loading.symm.trans hw)
      cases a with
      | pushSignal type => exact absurd rfl (hnone type)
      | work | resetAll => cases hk; rfl
      | _ => cases hk
    exact (Postbox.shown_le_of_undisturbed numbers_step rfl hundisturbed).mono
      fun s a hle => Nat.not_lt.mpr hle

/-- A task starts, and a cycle later the thread stores its info again, while a tick has found no
signal and has yet to load: the next tick shows the info of the start. -/
example (inp : ThreadInput K) :
    (Machine.run step (new : DispatchSystem K)
      [.consumeOne, .pushSignal .autoStarted, .copyInfoCache inp, .loadAtInfoCache]).GoesBack
        .consumeOne := by
  show (0 : ℕ) < 1
  exact Nat.one_pos

end DispatchSystem

end Edm
