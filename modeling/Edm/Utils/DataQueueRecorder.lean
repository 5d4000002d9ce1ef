import Edm.Lib.Run
import Edm.Utils.Crc

/-!
# Recording to a file

`DataQueueRecorder` takes items from a producer thread and writes them to a file from a thread of its
own, through a cache. A step of the model is a section under the mutex, or one access outside of it;
a step that is not enabled leaves the state as it is.

The writer leaves its loop as soon as it sees the stop flag, whatever is still in the queue, and
before that it takes an item that was pushed after the stop as readily as one from before. The
destructor sets the flag without the mutex and may find the writer about to block. The file is what
was recorded in every run in which none of this happens (`file_is_recording`).
-/

set_option linter.unusedSectionVars false

namespace Edm

namespace DataQueueRecorder

/-- Where `_run` stands. -/
inductive Writer (D : Type) where
  | notStarted
  | entry
  | loopTest
  | lock
  /-- With the mutex, before the predicate of `wait`. -/
  | check
  | toWait
  | blocked
  | fetch
  | unlock (fetchedData : Option D)
  /-- The item goes into the cache. -/
  | store (fetchedData : Option D)
  | exitTest
  | closing
  | finishing
  | finished
  deriving DecidableEq

/-- Where the producer thread stands between its calls and within them. -/
inductive Producer (D : Type) where
  | idle
  /-- `push_data` has found the recorder running, and goes for the mutex. -/
  | pushing (data : D)
  | joining
  | destroyFlagged
  | destroyJoining
  | destroyed
  deriving DecidableEq

/-- The recorder and its two threads. `recording` and `recorded` are what the producer has asked for:
the items of the calls since the last start that succeeded, up to the stop. -/
structure State (D : Type) where
  runningFlag : Bool
  stopFlag : Bool
  dataQueue : List D
  dataCache : List D
  file : List Byte
  writer : Writer D
  producer : Producer D
  recording : Bool
  recorded : List D

inductive Action (D : Type) where
  | writer
  | spuriousWakeup
  /-- `opens`: whether the file can be opened. -/
  | startRecord (opens : Bool)
  | pushData (data : D)
  | enqueue
  | stopRecord (waitForStopped : Bool)
  | join
  | destroy
  | destroyNotify
  | destroyJoin

variable {D : Type}

def new : State D where
  runningFlag := false
  stopFlag := false
  dataQueue := []
  dataCache := []
  file := []
  writer := .notStarted
  producer := .idle
  recording := false
  recorded := []

namespace Writer

/-- The writer has the mutex. -/
def holds : Writer D → Bool
  | .check | .toWait | .fetch | .unlock _ => true
  | _ => false

/-- `join` returns. -/
def isOver : Writer D → Bool
  | .notStarted | .finished => true
  | _ => false

end Writer

namespace State

variable (raw : D → List Byte) (cacheSize : ℕ)

def notifyAll (s : State D) : State D :=
  match s.writer with
  | .blocked => { s with writer := .lock }
  | _ => s

/-- `_flush_cache`. -/
def flushCache (s : State D) : State D :=
  { s with file := s.file ++ s.dataCache.flatMap raw, dataCache := [] }

def store (s : State D) (data : D) : State D :=
  let s := { s with dataCache := s.dataCache ++ [data] }
  if s.dataCache.length ≥ cacheSize then s.flushCache raw else s

def writerStep (s : State D) : State D :=
  match s.writer with
  | .notStarted => s
  | .entry => { s with runningFlag := true, writer := .loopTest }
  | .loopTest => if s.stopFlag then { s with writer := .closing } else { s with writer := .lock }
  | .lock => { s with writer := .check }
  | .check =>
    if s.stopFlag || !s.dataQueue.isEmpty then { s with writer := .fetch }
    else { s with writer := .toWait }
  | .toWait => { s with writer := .blocked }
  | .blocked => s
  | .fetch =>
    match s.dataQueue with
    | [] => { s with writer := .unlock none }
    | data :: rest => { s with dataQueue := rest, writer := .unlock (some data) }
  | .unlock fetchedData => { s with writer := .store fetchedData }
  | .store (some data) => { s.store raw cacheSize data with writer := .exitTest }
  | .store none => { s with writer := .exitTest }
  | .exitTest => if s.stopFlag then { s with writer := .closing } else { s with writer := .loopTest }
  | .closing => { s.flushCache raw with writer := .finishing }
  | .finishing => { s with runningFlag := false, writer := .finished }
  | .finished => s

/-- The producer is between calls and can take the mutex. -/
def mayEnter (s : State D) : Bool := (s.producer matches .idle) && !s.writer.holds

/-- Starting while the recorder runs is refused. Else the last thread is joined, which is over. -/
def startRecord (s : State D) (opens : Bool) : State D :=
  if s.mayEnter && !s.runningFlag && opens then
    { s with
      file := []
      dataCache := []
      dataQueue := []
      stopFlag := false
      writer := .entry
      runningFlag := true
      recording := true
      recorded := [] }
  else s

/-- The test at the head of `push_data` and `emplace`, outside of the mutex. -/
def pushData (s : State D) (data : D) : State D :=
  match s.producer with
  | .idle =>
    { s with
      producer := if s.runningFlag then .pushing data else .idle
      recorded := if s.recording then s.recorded ++ [data] else s.recorded }
  | _ => s

def enqueue (s : State D) : State D :=
  match s.producer with
  | .pushing data =>
    if s.writer.holds then s
    else notifyAll { s with dataQueue := s.dataQueue ++ [data], producer := .idle }
  | _ => s

def stopRecord (s : State D) (waitForStopped : Bool) : State D :=
  if s.mayEnter then
    notifyAll { s with
      stopFlag := true
      recording := false
      producer := if waitForStopped then .joining else .idle }
  else s

def join (s : State D) : State D :=
  match s.producer with
  | .joining => if s.writer.isOver then { s with producer := .idle } else s
  | _ => s

/-- The destructor writes the flag without the mutex. -/
def destroy (s : State D) : State D :=
  match s.producer with
  | .idle => { s with stopFlag := true, recording := false, producer := .destroyFlagged }
  | _ => s

def destroyNotify (s : State D) : State D :=
  match s.producer with
  | .destroyFlagged => notifyAll { s with producer := .destroyJoining }
  | _ => s

def destroyJoin (s : State D) : State D :=
  match s.producer with
  | .destroyJoining => if s.writer.isOver then { s with producer := .destroyed } else s
  | _ => s

def step (s : State D) : Action D → State D
  | .writer => s.writerStep raw cacheSize
  | .spuriousWakeup => s.notifyAll
  | .startRecord opens => s.startRecord opens
  | .pushData data => s.pushData data
  | .enqueue => s.enqueue
  | .stopRecord waitForStopped => s.stopRecord waitForStopped
  | .join => s.join
  | .destroy => s.destroy
  | .destroyNotify => s.destroyNotify
  | .destroyJoin => s.destroyJoin

/-! ### What is asked of the recorder -/

/-- The file of a recording that is over holds what was pushed between its start and its stop, and
no stop leaves the writer blocked. -/
structure Records (s : State D) : Prop where
  file : s.writer = .finished → s.file = s.recorded.flatMap raw
  awake : s.writer = .blocked → s.stopFlag → s.producer = .destroyFlagged

end State

/-- How many items the writer still takes once the stop flag is set. -/
def Writer.mayTake : Writer D → ℕ
  | .lock | .check | .toWait | .blocked | .fetch => 1
  | _ => 0

/-- The item that is out of the queue and not yet in the cache. -/
def Writer.inHand : Writer D → List D
  | .unlock (some data) | .store (some data) => [data]
  | _ => []

@[simp] theorem Writer.inHand_store (fetchedData : Option D) :
    (Writer.store fetchedData).inHand = (Writer.unlock fetchedData).inHand := by
  cases fetchedData <;> rfl

/-- The item on its way into the queue. -/
def Producer.inFlight : Producer D → List D
  | .pushing data => [data]
  | _ => []

namespace State

variable (raw : D → List Byte)

/-- A recording is stopped with no more in the queue than the writer goes on to take, nothing
enters an empty queue while the writer of a stopped recording is about to take something, and the
destructor does not notify between the test of the predicate and the wait. -/
def Timely (s : State D) : Action D → Prop
  | .stopRecord _ => s.mayEnter → s.recording → s.dataQueue.length ≤ s.writer.mayTake
  | .destroy => s.producer = .idle → s.recording → s.dataQueue.length ≤ s.writer.mayTake
  | .enqueue => s.producer.inFlight ≠ [] →
    s.recording ∨ s.writer ≠ .lock ∨ s.dataQueue ≠ []
  | .destroyNotify => s.producer = .destroyFlagged → s.writer ≠ .toWait
  | _ => True

/-! ### What timely runs keep -/

/-- What the writer will take: all there is while the recording lasts, then one item or none. -/
def toCome (s : State D) : List D :=
  if s.recording then s.dataQueue ++ s.producer.inFlight
  else s.dataQueue.take s.writer.mayTake

structure Inv (s : State D) : Prop where
  account : s.recorded.flatMap raw =
    s.file ++ (s.dataCache ++ s.writer.inHand ++ s.toCome).flatMap raw
  running : s.runningFlag = false → s.writer.isOver
  recording : s.recording → s.stopFlag = false ∧ s.runningFlag
  stopped : s.recording = false → s.writer.isOver = false → s.stopFlag
  waiting : s.writer = .toWait ∨ s.writer = .blocked → s.stopFlag → s.producer = .destroyFlagged
  closed : s.writer = .finishing ∨ s.writer = .finished → s.recording = false ∧ s.dataCache = []
  closing : s.writer = .closing → s.recording = false

variable {raw} {cacheSize : ℕ} {s : State D}

theorem new_inv : (new : State D).Inv raw where
  account := rfl
  running _ := rfl
  recording h := by cases h
  stopped _ h := by cases h
  waiting h := by rcases h with h | h <;> cases h
  closed h := by rcases h with h | h <;> cases h
  closing h := by cases h

theorem Inv.records (h : s.Inv raw) : s.Records raw where
  file hw := by
    obtain ⟨hrec, hcache⟩ := h.closed (.inr hw)
    have haccount := h.account
    simp only [toCome, hcache, hw, hrec, Writer.mayTake] at haccount
    simpa [Writer.inHand] using haccount.symm
  awake hw := h.waiting (.inr hw)

/-- A stop flag that is set has ended the recording. -/
theorem Inv.not_recording (h : s.Inv raw) (hstop : s.stopFlag) : s.recording = false := by
  cases hrec : s.recording with
  | false => rfl
  | true =>
    rw [(h.recording hrec).1] at hstop
    cases hstop

theorem Inv.notifyAll (h : s.Inv raw) : s.notifyAll.Inv raw := by
  unfold State.notifyAll
  split
  · rename_i hw
    have haccount := h.account
    have hrunning := h.running
    have hstopped := h.stopped
    rw [toCome, hw] at haccount
    rw [hw] at hrunning hstopped
    exact ⟨haccount, hrunning, h.recording, hstopped, by simp, by simp, by simp⟩
  · exact h

theorem Inv.writerStep (h : s.Inv raw) : (s.writerStep raw cacheSize).Inv raw := by
  have haccount := h.account
  have hrunning := h.running
  have hstopped := h.stopped
  have hwaiting := h.waiting
  have hclosed := h.closed
  have hclosing := h.closing
  unfold State.writerStep
  split <;> rename_i hw <;> rw [toCome, hw] at haccount <;>
    rw [hw] at hrunning hstopped hwaiting hclosed hclosing
  · exact h
  · exact ⟨haccount, by simp, fun hr => ⟨(h.recording hr).1, rfl⟩, hstopped, by simp, by simp,
      by simp⟩
  · split
    · rename_i hstop
      exact ⟨haccount, hrunning, h.recording, hstopped, by simp, by simp,
        fun _ => h.not_recording hstop⟩
    · rename_i hstop
      have hrec : s.recording = true := by
        by_contra hrec
        exact hstop (hstopped (by simpa using hrec) rfl)
      refine ⟨?_, hrunning, h.recording, hstopped, by simp, by simp, by simp⟩
      simp only [hrec, if_true, Writer.inHand] at haccount
      simpa only [toCome, hrec, if_true, Writer.inHand] using haccount
  · exact ⟨haccount, hrunning, h.recording, hstopped, by simp, by simp, by simp⟩
  · split
    · exact ⟨haccount, hrunning, h.recording, hstopped, by simp, by simp, by simp⟩
    · rename_i hcond
      refine ⟨haccount, hrunning, h.recording, hstopped, fun _ hstop => ?_, by simp, by simp⟩
      have hstop : s.stopFlag = true := hstop
      simp [hstop] at hcond
  · exact ⟨haccount, hrunning, h.recording, hstopped, fun _ => hwaiting (.inl rfl), by simp,
      by simp⟩
  · exact h
  · split
    · rename_i hempty
      refine ⟨?_, hrunning, h.recording, hstopped, by simp, by simp, by simp⟩
      simpa [toCome, hempty, Writer.inHand] using haccount
    · rename_i data rest hcons
      refine ⟨?_, hrunning, h.recording, hstopped, by simp, by simp, by simp⟩
      rw [haccount]
      cases hrec : s.recording <;>
        simp [toCome, hcons, Writer.inHand, Writer.mayTake]
  · rw [← Writer.inHand_store] at haccount
    exact ⟨haccount, hrunning, h.recording, hstopped, by simp, by simp, by simp⟩
  · rename_i data
    simp only [store]
    split
    · refine ⟨?_, hrunning, h.recording, hstopped, by simp, by simp, by simp⟩
      simpa [toCome, flushCache, Writer.inHand, Writer.mayTake] using haccount
    · refine ⟨?_, hrunning, h.recording, hstopped, by simp, by simp, by simp⟩
      simpa [toCome, Writer.inHand, Writer.mayTake] using haccount
  · exact ⟨haccount, hrunning, h.recording, hstopped, by simp, by simp, by simp⟩
  · split
    · rename_i hstop
      exact ⟨haccount, hrunning, h.recording, hstopped, by simp, by simp,
        fun _ => h.not_recording hstop⟩
    · exact ⟨haccount, hrunning, h.recording, hstopped, by simp, by simp, by simp⟩
  · have hrec := hclosing rfl
    refine ⟨?_, hrunning, h.recording, hstopped, by simp, fun _ => ⟨hrec, rfl⟩, by simp⟩
    simpa [toCome, hrec, flushCache, Writer.inHand, Writer.mayTake] using haccount
  · have hover := hclosed (.inl rfl)
    refine ⟨haccount, fun _ => rfl, fun hr => ?_, by simp [Writer.isOver], by simp,
      fun _ => hover, by simp⟩
    have hr : s.recording = true := hr
    rw [hover.1] at hr
    cases hr
  · exact h

theorem Inv.startRecord (h : s.Inv raw) (opens : Bool) : (s.startRecord opens).Inv raw := by
  unfold State.startRecord
  split
  · rename_i hcond
    have hidle : s.producer = .idle := by
      simp only [mayEnter, Bool.and_eq_true] at hcond
      have hp := hcond.1.1.1
      split at hp
      · assumption
      · cases hp
    refine ⟨?_, by simp, fun _ => ⟨rfl, rfl⟩, by simp, by simp, by simp, by simp⟩
    simp [toCome, hidle, Writer.inHand, Producer.inFlight]
  · exact h

theorem Inv.pushData (h : s.Inv raw) (data : D) : (s.pushData data).Inv raw := by
  unfold State.pushData
  split
  · rename_i hp
    have haccount := h.account
    rw [toCome, hp] at haccount
    refine ⟨?_, h.running, h.recording, h.stopped, fun hw hstop => ?_, h.closed, h.closing⟩
    · cases hrec : s.recording with
      | false =>
        simp only [hrec] at haccount
        simpa [toCome, hrec] using haccount
      | true =>
        simp only [hrec, if_true] at haccount
        simp [toCome, (h.recording hrec).2, Producer.inFlight, haccount]
    · have hw := h.waiting hw hstop
      simp [hp] at hw
  · exact h

theorem Inv.enqueue (h : s.Inv raw) (ht : s.Timely .enqueue) : s.enqueue.Inv raw := by
  unfold State.enqueue
  split
  · rename_i data hp
    split
    · exact h
    · rename_i hholds
      have haccount := h.account
      rw [toCome, hp] at haccount
      have hnot_waiting : s.writer = .toWait ∨ s.writer = .blocked → s.stopFlag → False := by
        intro hw hstop
        have hw := h.waiting hw hstop
        simp [hp] at hw
      refine Inv.notifyAll ⟨?_, h.running, h.recording, h.stopped,
        fun hw hstop => (hnot_waiting hw hstop).elim, h.closed, h.closing⟩
      cases hrec : s.recording with
      | true =>
        simp only [hrec, if_true] at haccount
        simp [toCome, Producer.inFlight, haccount]
      | false =>
        have htake : (s.dataQueue ++ [data]).take s.writer.mayTake =
            s.dataQueue.take s.writer.mayTake := by
          cases hw : s.writer with
          | lock =>
            -- behind the item the writer is about to take
            have hne : s.dataQueue ≠ [] := by
              rcases ht (by simp [hp, Producer.inFlight]) with ht | ht | ht
              · simp [hrec] at ht
              · exact absurd hw ht
              · exact ht
            obtain ⟨x, xs, hx⟩ := List.exists_cons_of_ne_nil hne
            simp [hx, Writer.mayTake]
          | blocked => exact (hnot_waiting (.inr hw) (h.stopped hrec (by rw [hw]; rfl))).elim
          | check | toWait | fetch => simp [hw, Writer.holds] at hholds
          | _ => rfl
        simp only [hrec, Bool.false_eq_true, if_false] at haccount
        simpa [toCome, htake] using haccount
  · exact h

/-- What the writer goes on to take is all that is left. -/
theorem Inv.account_of_stop (h : s.Inv raw) (hidle : s.producer = .idle)
    (hle : s.recording → s.dataQueue.length ≤ s.writer.mayTake) :
    s.recorded.flatMap raw = s.file ++
      (s.dataCache ++ s.writer.inHand ++ s.dataQueue.take s.writer.mayTake).flatMap raw := by
  have haccount := h.account
  rw [toCome, hidle] at haccount
  cases hrec : s.recording with
  | false => simpa [hrec] using haccount
  | true =>
    rw [List.take_of_length_le (hle hrec)]
    simpa [hrec, Producer.inFlight] using haccount

theorem mayEnter_iff : s.mayEnter ↔ s.producer = .idle ∧ s.writer.holds = false := by
  unfold mayEnter
  cases s.producer <;> simp

theorem Inv.stopRecord (h : s.Inv raw) {wait : Bool} (ht : s.Timely (.stopRecord wait)) :
    (s.stopRecord wait).Inv raw := by
  unfold State.stopRecord
  split
  · rename_i henter
    obtain ⟨hidle, hholds⟩ := mayEnter_iff.mp henter
    have haccount := h.account_of_stop hidle (ht henter)
    have hrunning := h.running
    unfold State.notifyAll
    split
    · rename_i hw
      have hw : s.writer = .blocked := hw
      rw [hw] at haccount hrunning
      exact ⟨haccount, hrunning, by simp, fun _ _ => rfl, by simp, by simp, by simp⟩
    · rename_i hw
      have hw : s.writer ≠ .blocked := hw
      refine ⟨haccount, hrunning, by simp, fun _ _ => rfl, fun hwait => ?_,
        fun hc => ⟨rfl, (h.closed hc).2⟩, fun _ => rfl⟩
      rcases hwait with hwait | hwait
      · have hwait : s.writer = .toWait := hwait
        simp [hwait, Writer.holds] at hholds
      · exact absurd hwait hw
  · exact h

theorem Inv.destroy (h : s.Inv raw) (ht : s.Timely .destroy) : s.destroy.Inv raw := by
  unfold State.destroy
  split
  · rename_i hidle
    have haccount := h.account_of_stop hidle (ht hidle)
    exact ⟨haccount, h.running, by simp, fun _ _ => rfl, fun _ _ => rfl,
      fun hc => ⟨rfl, (h.closed hc).2⟩, fun _ => rfl⟩
  · exact h

/-- A producer that is between two of its own steps and not in `push_data` counts for nothing. -/
theorem Inv.withProducer (h : s.Inv raw) {p : Producer D} (hs : s.producer.inFlight = [])
    (hp : p.inFlight = []) (hwait : s.writer = .toWait ∨ s.writer = .blocked → s.stopFlag →
      p = .destroyFlagged) : Inv raw { s with producer := p } := by
  have haccount := h.account
  rw [toCome, hs] at haccount
  refine ⟨?_, h.running, h.recording, h.stopped, hwait, h.closed, h.closing⟩
  rw [toCome, hp]
  exact haccount

theorem Inv.step (h : s.Inv raw) {a : Action D} (ht : s.Timely a) :
    (s.step raw cacheSize a).Inv raw := by
  cases a with
  | writer => exact h.writerStep
  | spuriousWakeup => exact h.notifyAll
  | startRecord opens => exact h.startRecord opens
  | pushData data => exact h.pushData data
  | enqueue => exact h.enqueue ht
  | stopRecord wait => exact h.stopRecord ht
  | join =>
    simp only [State.step, State.join]
    split
    · rename_i hp
      split
      · rename_i hover
        refine h.withProducer (by rw [hp]; rfl) rfl fun hw => ?_
        rcases hw with hw | hw <;> simp [hw, Writer.isOver] at hover
      · exact h
    · exact h
  | destroy => exact h.destroy ht
  | destroyNotify =>
    simp only [State.step, State.destroyNotify]
    split
    · rename_i hp
      have haccount := h.account
      have hrunning := h.running
      have hstopped := h.stopped
      have hcome : s.producer.inFlight = Producer.destroyJoining.inFlight := by rw [hp]; rfl
      rw [toCome, hcome] at haccount
      unfold State.notifyAll
      split
      · rename_i hw
        have hw : s.writer = .blocked := hw
        rw [hw] at haccount hrunning hstopped
        exact ⟨haccount, hrunning, h.recording, hstopped, by simp, by simp, by simp⟩
      · rename_i hw
        refine ⟨haccount, hrunning, h.recording, hstopped, fun hwait => ?_, h.closed, h.closing⟩
        rcases hwait with hwait | hwait
        · exact absurd hwait (ht hp)
        · exact absurd hwait hw
    · exact h
  | destroyJoin =>
    simp only [State.step, State.destroyJoin]
    split
    · rename_i hp
      split
      · rename_i hover
        refine h.withProducer (by rw [hp]; rfl) rfl fun hw => ?_
        rcases hw with hw | hw <;> simp [hw, Writer.isOver] at hover
      · exact h
    · exact h

end State

/-- In every run in which each recording is stopped and followed in time, the file of a recording
that is over holds what was pushed between its start and its stop, once and in order, and every
stop wakes the writer. -/
theorem file_is_recording (raw : D → List Byte) (cacheSize : ℕ) (as : List (Action D))
    (h : Machine.AllSteps (State.step raw cacheSize) State.Timely new as) :
    (Machine.run (State.step raw cacheSize) new as).Records raw :=
  (Machine.AllSteps.invariant (I := State.Inv raw) (fun _ _ hs ht => hs.step ht) State.new_inv
    h).records

instance State.decidableTimely [DecidableEq D] (s : State D) :
    ∀ a : Action D, Decidable (s.Timely a)
  | .stopRecord _ => inferInstanceAs (Decidable (_ → _ → _ ≤ _))
  | .destroy => inferInstanceAs (Decidable (_ → _ → _ ≤ _))
  | .enqueue => inferInstanceAs (Decidable (_ → _ ∨ _ ∨ _))
  | .destroyNotify => inferInstanceAs (Decidable (_ → s.writer ≠ .toWait))
  | .writer | .spuriousWakeup | .startRecord _ | .pushData _ | .join | .destroyJoin =>
    isTrue trivial

/-- One item, stopped after it is in the cache. -/
def oneItem : List (Action Byte) :=
  [.startRecord true, .pushData 7, .enqueue] ++ List.replicate 8 .writer ++ [.stopRecord true] ++
    List.replicate 4 .writer ++ [.join]

theorem oneItem_recorded :
    (Machine.run (State.step (fun b => [b]) 1000) new oneItem).Records fun b => [b] :=
  file_is_recording (fun b => [b]) 1000 oneItem (by decide +kernel)

/-- Two items, stopped before the writer has taken the first one. -/
def stoppedAtOnce : List (Action Byte) :=
  [.startRecord true, .pushData 7, .enqueue, .pushData 8, .enqueue, .stopRecord true] ++
    List.replicate 4 .writer ++ [.join]

/-- Nothing, stopped while the writer waits, and an item pushed before the writer has the mutex. -/
def pushedAfterStop : List (Action Byte) :=
  [.startRecord true] ++ List.replicate 5 .writer ++ [.stopRecord false, .pushData 7, .enqueue] ++
    List.replicate 8 .writer

/-- A stop loses what is in the queue, and what is pushed after it can get into the file. -/
theorem stop_loses_and_admits :
    ¬(Machine.run (State.step (fun b => [b]) 1000) new stoppedAtOnce).Records (fun b => [b]) ∧
      ¬(Machine.run (State.step (fun b => [b]) 1000) new pushedAfterStop).Records fun b => [b] := by
  constructor
  · intro h
    have hfile := h.file (by decide +kernel)
    revert hfile
    decide +kernel
  · intro h
    have hfile := h.file (by decide +kernel)
    revert hfile
    decide +kernel

end DataQueueRecorder

end Edm
