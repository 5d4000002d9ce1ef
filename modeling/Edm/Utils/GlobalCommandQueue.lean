import Edm.Lib.Run
import Mathlib.Data.List.Infix
import Mathlib.Logic.Function.Basic

/-!
# The global command queue

Any thread pushes commands under the mutex, the worker thread pops them under the mutex and runs them
outside of it, and the destructor sets the exit flag and notifies, both without the mutex, and joins.
A step of the model is one access: taking the mutex, testing the predicate, blocking, writing the
flag, notifying. A step that is not enabled leaves the state as it is.

Commands run in the order of the queue in every run. The exit flag breaks the rest: set while the
worker has tested its predicate and not yet blocked it wakes no one, and once it is set the worker
runs one more command at most (`works`).
-/

set_option linter.unusedSectionVars false

namespace Edm

namespace GlobalCommandQueue

/-- Where `_run` stands. -/
inductive Worker (C : Type) where
  | lock
  /-- With the mutex, before the predicate of `wait`. -/
  | check
  /-- The predicate was false. The mutex is released by blocking. -/
  | toWait
  | blocked
  /-- The predicate was true. -/
  | fetch
  | unlock (fetchedCmd : Option C)
  | run (fetchedCmd : Option C)
  /-- Before the test of the exit flag at the end of the loop. -/
  | exitTest
  | exited
  deriving DecidableEq

/-- Where a call of `push_command` stands. -/
inductive Pusher (C : Type) where
  | idle
  | locked (cmd : C)
  | pushed
  | notified
  deriving DecidableEq

inductive Destructor where
  | notCalled
  | flagged
  | joining
  | joined
  deriving DecidableEq

inductive Owner (ι : Type) where
  | worker
  | pusher (i : ι)
  deriving DecidableEq

/-- The queue and its threads. `pushed`, `pushedBefore` (before the destructor) and `ran` are what
has happened so far. -/
structure State (ι C : Type) where
  mutex : Option (Owner ι)
  threadExitFlag : Bool
  commandQueue : List C
  worker : Worker C
  pushers : ι → Pusher C
  destructor : Destructor
  pushed : List C
  pushedBefore : List C
  ran : List C

inductive Action (ι C : Type) where
  | worker
  | spuriousWakeup
  | pushLock (i : ι) (cmd : C)
  | push (i : ι)
  | pushNotify (i : ι)
  | pushUnlock (i : ι)
  | destroyFlag
  | destroyNotify
  | destroyJoin

variable {ι C : Type}

/-- The worker thread is started by the constructor. -/
def new : State ι C where
  mutex := none
  threadExitFlag := false
  commandQueue := []
  worker := .lock
  pushers _ := .idle
  destructor := .notCalled
  pushed := []
  pushedBefore := []
  ran := []

namespace State

/-- A blocked worker wakes up, and has to take the mutex again. -/
def notifyAll (s : State ι C) : State ι C :=
  match s.worker with
  | .blocked => { s with worker := .lock }
  | _ => s

def workerStep (s : State ι C) : State ι C :=
  match s.worker with
  | .lock => if s.mutex.isNone then { s with mutex := some .worker, worker := .check } else s
  | .check =>
    if s.threadExitFlag || !s.commandQueue.isEmpty then { s with worker := .fetch }
    else { s with worker := .toWait }
  | .toWait => { s with mutex := none, worker := .blocked }
  | .blocked => s
  | .fetch =>
    match s.commandQueue with
    | [] => { s with worker := .unlock none }
    | cmd :: rest => { s with commandQueue := rest, worker := .unlock (some cmd) }
  | .unlock fetchedCmd => { s with mutex := none, worker := .run fetchedCmd }
  | .run (some cmd) => { s with ran := s.ran ++ [cmd], worker := .exitTest }
  | .run none => { s with worker := .exitTest }
  | .exitTest => if s.threadExitFlag then { s with worker := .exited } else { s with worker := .lock }
  | .exited => s

variable [DecidableEq ι]

def pushLock (s : State ι C) (i : ι) (cmd : C) : State ι C :=
  match s.mutex, s.pushers i with
  | none, .idle =>
    { s with mutex := some (.pusher i), pushers := Function.update s.pushers i (.locked cmd) }
  | _, _ => s

def push (s : State ι C) (i : ι) : State ι C :=
  match s.pushers i with
  | .locked cmd =>
    { s with
      commandQueue := s.commandQueue ++ [cmd]
      pushers := Function.update s.pushers i .pushed
      pushed := s.pushed ++ [cmd]
      pushedBefore := match s.destructor with
        | .notCalled => s.pushedBefore ++ [cmd]
        | _ => s.pushedBefore }
  | _ => s

def pushNotify (s : State ι C) (i : ι) : State ι C :=
  match s.pushers i with
  | .pushed => notifyAll { s with pushers := Function.update s.pushers i .notified }
  | _ => s

def pushUnlock (s : State ι C) (i : ι) : State ι C :=
  match s.pushers i with
  | .notified => { s with mutex := none, pushers := Function.update s.pushers i .idle }
  | _ => s

def destroyFlag (s : State ι C) : State ι C :=
  match s.destructor with
  | .notCalled => { s with threadExitFlag := true, destructor := .flagged }
  | _ => s

def destroyNotify (s : State ι C) : State ι C :=
  match s.destructor with
  | .flagged => notifyAll { s with destructor := .joining }
  | _ => s

def destroyJoin (s : State ι C) : State ι C :=
  match s.destructor, s.worker with
  | .joining, .exited => { s with destructor := .joined }
  | _, _ => s

def step (s : State ι C) : Action ι C → State ι C
  | .worker => s.workerStep
  | .spuriousWakeup => s.notifyAll
  | .pushLock i cmd => s.pushLock i cmd
  | .push i => s.push i
  | .pushNotify i => s.pushNotify i
  | .pushUnlock i => s.pushUnlock i
  | .destroyFlag => s.destroyFlag
  | .destroyNotify => s.destroyNotify
  | .destroyJoin => s.destroyJoin

end State

/-! ### What is asked of the queue -/

namespace Worker

/-- The worker has the mutex. -/
def holds : Worker C → Bool
  | .check | .toWait | .fetch | .unlock _ => true
  | _ => false

/-- The command that is popped and not yet run. -/
def inHand : Worker C → List C
  | .unlock (some cmd) | .run (some cmd) => [cmd]
  | _ => []

/-- How many commands the worker may still run once the exit flag is set. -/
def mayRun : Worker C → ℕ
  | .unlock none | .run none | .exitTest | .exited => 0
  | _ => 1

@[simp] theorem inHand_run (cmd : Option C) : (run cmd).inHand = (unlock cmd).inHand := by
  cases cmd <;> rfl

/-- A bound for the steps to the next time the worker pops, blocks or exits. -/
def effort (threadExitFlag : Bool) : Worker C → ℕ
  | .lock => if threadExitFlag then 6 else 4
  | .check => if threadExitFlag then 5 else 3
  | .fetch => if threadExitFlag then 4 else 2
  | .unlock _ => if threadExitFlag then 3 else 7
  | .run _ => if threadExitFlag then 2 else 6
  | .exitTest => if threadExitFlag then 1 else 5
  | .toWait => 1
  | .blocked => 0
  | .exited => 0

end Worker

def Pusher.effort : Pusher C → ℕ
  | .idle => 0
  | .locked _ => 15
  | .pushed => 8
  | .notified => 1

def Destructor.effort : Destructor → ℕ
  | .flagged => 8
  | .joining => 1
  | _ => 0

/-- The steps of what has begun: no new call, and no wake-up without a notification. -/
def Action.goesOn : Action ι C → Bool
  | .worker | .push _ | .pushNotify _ | .pushUnlock _ | .destroyNotify | .destroyJoin => true
  | _ => false

namespace State

def NotificationPending (s : State ι C) : Prop :=
  s.destructor = .flagged ∨ ∃ i, s.pushers i = .pushed

/-- A bound for the steps of what has begun. -/
def effort (s : State ι C) : ℕ :=
  6 * s.commandQueue.length + s.worker.effort s.threadExitFlag + s.destructor.effort +
    match s.mutex with
    | some (.pusher i) => (s.pushers i).effort
    | _ => 0

variable [DecidableEq ι]

/-- Nothing that has begun goes on. -/
def Quiet (s : State ι C) : Prop := ∀ a : Action ι C, a.goesOn → s.step a = s

/-- The four parts: commands run once and in their order, whatever has begun comes to an end, at
the end all commands pushed before the destructor have run, and the exit flag finds no worker
blocked with no notification on its way. -/
structure Works (s : State ι C) : Prop where
  fifo : s.ran <+: s.pushed
  ends : ∀ a : Action ι C, a.goesOn → s.step a = s ∨ (s.step a).effort < s.effort
  complete : s.Quiet → s.pushedBefore <+: s.ran
  awake : ¬(s.threadExitFlag ∧ s.worker = .blocked ∧ ¬s.NotificationPending)

/-- The destructor does not notify between the test of the predicate and the wait, and it sets the
flag with no more commands about than the worker goes on to run. -/
def Timely (s : State ι C) : Action ι C → Prop
  | .destroyFlag => s.destructor = .notCalled →
    s.commandQueue.length + s.worker.inHand.length ≤ s.worker.mayRun
  | .destroyNotify => s.destructor = .flagged → s.worker ≠ .toWait
  | _ => True

/-! ### What every run keeps -/

structure Inv (s : State ι C) : Prop where
  worker_owns : s.mutex = some .worker ↔ s.worker.holds
  pusher_owns : ∀ i, s.mutex = some (.pusher i) ↔ s.pushers i ≠ .idle
  flag : s.threadExitFlag ↔ s.destructor ≠ .notCalled
  queued : s.pushed = s.ran ++ s.worker.inHand ++ s.commandQueue
  waiting : s.worker = .toWait → s.commandQueue = []
  blocked : s.worker = .blocked → s.commandQueue = [] ∨ ∃ i, s.pushers i = .pushed
  fetching : s.worker = .fetch → s.threadExitFlag ∨ s.commandQueue ≠ []
  exited : s.worker = .exited → s.threadExitFlag
  before : s.destructor = .notCalled → s.pushedBefore = s.pushed
  before_pushed : s.pushedBefore <+: s.pushed

variable {s : State ι C}

theorem new_inv : (new : State ι C).Inv where
  worker_owns := by simp [new, Worker.holds]
  pusher_owns i := by simp [new]
  flag := by simp [new]
  queued := rfl
  waiting _ := rfl
  blocked _ := .inl rfl
  fetching h := by cases h
  exited h := by cases h
  before _ := rfl
  before_pushed := List.prefix_rfl

theorem Inv.workerStep (h : s.Inv) : s.workerStep.Inv := by
  have hinv := h
  obtain ⟨hw, hp, hf, hq, hwait, hblock, hfetch, hexit, hb, hbp⟩ := h
  unfold State.workerStep
  split <;> rename_i hpc <;> rw [hpc] at hw hq
  · split
    · rename_i hm
      have hm : s.mutex = none := by simpa using hm
      constructor <;> simp_all [Worker.holds, Worker.inHand]
    · exact hinv
  · split <;> constructor <;> simp_all [Worker.holds, Worker.inHand]
  · constructor <;> simp_all [Worker.holds, Worker.inHand]
  · exact hinv
  · split <;> constructor <;> simp_all [Worker.holds, Worker.inHand]
  · rw [← Worker.inHand_run] at hq
    constructor <;> simp_all [Worker.holds]
  · constructor <;> simp_all [Worker.holds, Worker.inHand]
  · constructor <;> simp_all [Worker.holds, Worker.inHand]
  · split <;> constructor <;> simp_all [Worker.holds, Worker.inHand]
  · exact hinv

theorem Inv.notifyAll (h : s.Inv) : s.notifyAll.Inv := by
  have hinv := h
  obtain ⟨hw, hp, hf, hq, hwait, hblock, hfetch, hexit, hb, hbp⟩ := h
  unfold State.notifyAll
  split
  · constructor <;> simp_all [Worker.holds, Worker.inHand]
  · exact hinv

/-- Only the owner of the mutex is in a call. -/
theorem Inv.idle_of_ne (h : s.Inv) {i j : ι} (hi : s.pushers i ≠ .idle) (hj : j ≠ i) :
    s.pushers j = .idle := by
  by_contra hne
  have hmj := (h.pusher_owns j).mpr hne
  rw [(h.pusher_owns i).mpr hi] at hmj
  cases hmj
  exact hj rfl

theorem Inv.not_holds (h : s.Inv) (hm : s.mutex ≠ some .worker) : s.worker.holds = false :=
  Bool.eq_false_iff.mpr fun hholds => hm (h.worker_owns.mpr hholds)

theorem Inv.pushLock (h : s.Inv) (i : ι) (cmd : C) : (s.pushLock i cmd).Inv := by
  unfold State.pushLock
  split
  · rename_i hm hi
    have hidle : ∀ j, s.pushers j = .idle := fun j => by
      by_contra hne
      have := (h.pusher_owns j).mpr hne
      simp [hm] at this
    have hholds := h.not_holds (by simp [hm])
    refine { h with worker_owns := ?_, pusher_owns := fun j => ?_, blocked := fun hb => ?_ }
    · simp [hholds]
    · by_cases hj : j = i
      · simp [hj]
      · simp [hj, Ne.symm hj, hidle j]
    · refine (h.blocked hb).imp_right fun ⟨j, hj⟩ => ?_
      simp [hidle j] at hj
  · exact h

theorem Inv.push (h : s.Inv) (i : ι) : (s.push i).Inv := by
  unfold State.push
  split
  · rename_i cmd hi
    have hne : s.pushers i ≠ .idle := by simp [hi]
    have hm := (h.pusher_owns i).mpr hne
    have hholds := h.not_holds (by simp [hm])
    constructor
    · exact h.worker_owns
    · intro j
      by_cases hj : j = i
      · simp [hj, hm]
      · simp [hj, h.pusher_owns j]
    · exact h.flag
    · simp [h.queued]
    · intro hw
      have hw : s.worker = .toWait := hw
      rw [hw] at hholds
      cases hholds
    · exact fun _ => .inr ⟨i, by simp⟩
    · exact fun _ => .inr (by simp)
    · exact h.exited
    · intro hd
      simp only at hd
      simp [hd, h.before hd]
    · simp only
      split
      · rename_i hd
        rw [h.before hd]
      · exact h.before_pushed.trans (List.prefix_append _ _)
  · exact h

theorem Inv.pushNotify (h : s.Inv) (i : ι) : (s.pushNotify i).Inv := by
  unfold State.pushNotify
  split
  · rename_i hi
    have hpushers : ∀ j, s.mutex = some (.pusher j) ↔
        Function.update s.pushers i .notified j ≠ .idle := by
      intro j
      by_cases hj : j = i
      · simp [hj, h.pusher_owns i, hi]
      · simp [hj, h.pusher_owns j]
    unfold State.notifyAll
    split
    · rename_i hw
      have hw : s.worker = .blocked := hw
      have howns := h.worker_owns
      have hqueued := h.queued
      rw [hw] at howns hqueued
      exact ⟨howns, hpushers, h.flag, hqueued, nofun, nofun, nofun, nofun, h.before,
        h.before_pushed⟩
    · rename_i hw
      exact ⟨h.worker_owns, hpushers, h.flag, h.queued, h.waiting, fun hb => absurd hb hw,
        h.fetching, h.exited, h.before, h.before_pushed⟩
  · exact h

theorem Inv.pushUnlock (h : s.Inv) (i : ι) : (s.pushUnlock i).Inv := by
  unfold State.pushUnlock
  split
  · rename_i hi
    have hm := (h.pusher_owns i).mpr (by simp [hi])
    have hidle : ∀ j ≠ i, s.pushers j = .idle := fun j hj => h.idle_of_ne (by simp [hi]) hj
    have hholds := h.not_holds (by simp [hm])
    refine { h with worker_owns := ?_, pusher_owns := fun j => ?_, blocked := fun hb => ?_ }
    · simp [hholds]
    · by_cases hj : j = i
      · simp [hj]
      · simp [hj, hidle j hj]
    · refine (h.blocked hb).imp_right fun ⟨j, hj⟩ => ?_
      by_cases hji : j = i
      · simp [hji, hi] at hj
      · simp [hidle j hji] at hj
  · exact h

theorem Inv.destroyFlag (h : s.Inv) : s.destroyFlag.Inv := by
  unfold State.destroyFlag
  split
  · rename_i hd
    exact ⟨h.worker_owns, h.pusher_owns, by simp, h.queued, h.waiting, h.blocked,
      fun _ => .inl rfl, fun _ => rfl, nofun, h.before_pushed⟩
  · exact h

theorem Inv.destroyNotify (h : s.Inv) : s.destroyNotify.Inv := by
  unfold State.destroyNotify
  split
  · rename_i hd
    have hflag := h.flag
    rw [hd] at hflag
    exact Inv.notifyAll ⟨h.worker_owns, h.pusher_owns, hflag.trans (by simp), h.queued, h.waiting,
      h.blocked, h.fetching, h.exited, nofun, h.before_pushed⟩
  · exact h

theorem Inv.destroyJoin (h : s.Inv) : s.destroyJoin.Inv := by
  unfold State.destroyJoin
  split
  · rename_i hd _
    have hflag := h.flag
    rw [hd] at hflag
    exact ⟨h.worker_owns, h.pusher_owns, hflag.trans (by simp), h.queued, h.waiting, h.blocked,
      h.fetching, h.exited, nofun, h.before_pushed⟩
  · exact h

theorem Inv.step (h : s.Inv) (a : Action ι C) : (s.step a).Inv := by
  cases a with
  | worker => exact h.workerStep
  | spuriousWakeup => exact h.notifyAll
  | pushLock i cmd => exact h.pushLock i cmd
  | push i => exact h.push i
  | pushNotify i => exact h.pushNotify i
  | pushUnlock i => exact h.pushUnlock i
  | destroyFlag => exact h.destroyFlag
  | destroyNotify => exact h.destroyNotify
  | destroyJoin => exact h.destroyJoin

/-! ### What has begun comes to an end -/

@[simp] theorem notifyAll_mutex : s.notifyAll.mutex = s.mutex := by
  unfold State.notifyAll
  split <;> rfl

@[simp] theorem notifyAll_pushers : s.notifyAll.pushers = s.pushers := by
  unfold State.notifyAll
  split <;> rfl

/-- A notification costs at most one more round of the worker. -/
theorem notifyAll_effort : s.notifyAll.effort ≤ s.effort + 6 := by
  unfold State.notifyAll
  split
  · rename_i hw
    simp only [effort, hw, Worker.effort]
    split <;> omega
  · omega

/-- The worker gets on, unless it waits for the mutex, is blocked or has exited. -/
theorem Inv.workerStep_effort (h : s.Inv) :
    s.workerStep.effort < s.effort ∨ s.workerStep = s ∧
      (s.worker = .lock ∧ s.mutex ≠ none ∨ s.worker = .blocked ∨ s.worker = .exited) := by
  have howns := h.worker_owns
  have hfetch := h.fetching
  unfold State.workerStep
  split <;> rename_i hpc <;> rw [hpc] at howns
  · split
    · rename_i hm
      have hm : s.mutex = none := by simpa using hm
      left
      simp only [effort, hpc, hm, Worker.effort]
      split <;> omega
    · rename_i hm
      exact .inr ⟨rfl, .inl ⟨hpc, by simpa using hm⟩⟩
  · split
    · left
      simp only [effort, hpc, Worker.effort]
      split <;> omega
    · rename_i hcond
      have hflag : s.threadExitFlag = false := by
        cases hf : s.threadExitFlag <;> simp [hf] at hcond ⊢
      left
      simp only [effort, hpc, hflag, Worker.effort]
      simp
  · have hm := howns.mpr rfl
    left
    simp only [effort, hpc, hm, Worker.effort]
    omega
  · exact .inr ⟨rfl, .inr (.inl hpc)⟩
  · left
    split
    · rename_i hempty
      have hflag : s.threadExitFlag := (hfetch hpc).resolve_right (by simp [hempty])
      simp only [effort, hpc, hflag, Worker.effort]
      simp
    · rename_i hcons
      simp only [effort, hpc, hcons, Worker.effort, List.length_cons]
      split <;> omega
  · have hm := howns.mpr rfl
    left
    simp only [effort, hpc, hm, Worker.effort]
    split <;> omega
  · left
    simp only [effort, hpc, Worker.effort]
    split <;> omega
  · left
    simp only [effort, hpc, Worker.effort]
    split <;> omega
  · left
    split
    · rename_i hflag
      simp only [effort, hpc, hflag, Worker.effort]
      simp
    · rename_i hflag
      simp only [effort, hpc, hflag, Worker.effort]
      simp
  · exact .inr ⟨rfl, .inr (.inr hpc)⟩

/-- Whatever has begun does a step less with each step. -/
theorem Inv.ends (h : s.Inv) (a : Action ι C) (ha : a.goesOn) :
    s.step a = s ∨ (s.step a).effort < s.effort := by
  cases a with
  | worker => exact h.workerStep_effort.symm.imp_left And.left
  | push i =>
    simp only [State.step, State.push]
    split
    · rename_i cmd hi
      have hm := (h.pusher_owns i).mpr (by simp [hi])
      right
      simp only [effort, hm, Function.update_self, hi, Pusher.effort, List.length_append,
        List.length_cons, List.length_nil]
      omega
    · exact .inl rfl
  | pushNotify i =>
    simp only [State.step, State.pushNotify]
    split
    · rename_i hi
      have hm := (h.pusher_owns i).mpr (by simp [hi])
      right
      refine lt_of_le_of_lt notifyAll_effort ?_
      simp only [effort, hm, Function.update_self, hi, Pusher.effort]
      omega
    · exact .inl rfl
  | pushUnlock i =>
    simp only [State.step, State.pushUnlock]
    split
    · rename_i hi
      have hm := (h.pusher_owns i).mpr (by simp [hi])
      right
      simp only [effort, hm, hi, Pusher.effort]
      omega
    · exact .inl rfl
  | destroyNotify =>
    simp only [State.step, State.destroyNotify]
    split
    · rename_i hd
      right
      refine lt_of_le_of_lt notifyAll_effort ?_
      simp only [effort, hd, Destructor.effort]
      omega
    · exact .inl rfl
  | destroyJoin =>
    simp only [State.step, State.destroyJoin]
    split
    · rename_i hd _
      right
      simp only [effort, hd, Destructor.effort]
      omega
    · exact .inl rfl
  | _ => cases ha

/-- In the end the worker has exited, or it is blocked and nobody is about to notify. -/
theorem Inv.worker_of_quiet (h : s.Inv) (hq : s.Quiet) :
    s.worker = .exited ∨ s.worker = .blocked ∧ ¬s.NotificationPending := by
  have hidle : ∀ i, s.pushers i = .idle := by
    intro i
    cases hi : s.pushers i with
    | idle => rfl
    | locked cmd =>
      have hstep := congrArg (fun t => t.pushers i) (hq (.push i) rfl)
      simp [State.step, State.push, hi] at hstep
    | pushed =>
      have hstep := congrArg (fun t => t.pushers i) (hq (.pushNotify i) rfl)
      simp [State.step, State.pushNotify, hi] at hstep
    | notified =>
      have hstep := congrArg (fun t => t.pushers i) (hq (.pushUnlock i) rfl)
      simp [State.step, State.pushUnlock, hi] at hstep
  have hpending : ¬s.NotificationPending := by
    rintro (hd | ⟨i, hi⟩)
    · have hstep := congrArg (fun t => t.destructor) (hq .destroyNotify rfl)
      simp only [State.step, State.destroyNotify, hd, State.notifyAll] at hstep
      split at hstep <;> cases hstep
    · rw [hidle i] at hi
      cases hi
  have hstuck : s.workerStep = s := hq .worker rfl
  rcases h.workerStep_effort with hlt | ⟨-, ⟨hlock, hm⟩ | hw | hw⟩
  · rw [hstuck] at hlt
    exact absurd hlt (lt_irrefl _)
  · cases ho : s.mutex with
    | none => exact absurd ho hm
    | some o =>
      cases o with
      | worker =>
        have howns := h.worker_owns.mp ho
        rw [hlock] at howns
        cases howns
      | pusher i => exact absurd (hidle i) ((h.pusher_owns i).mp ho)
  · exact .inr ⟨hw, hpending⟩
  · exact .inl hw

/-- Once the destructor has joined, nothing goes on. -/
theorem quiet_of_joined (hd : s.destructor = .joined) (hw : s.worker = .exited)
    (hi : ∀ i, s.pushers i = .idle) : s.Quiet := by
  intro a ha
  cases a with
  | worker => simp only [State.step, State.workerStep, hw]
  | push i => simp only [State.step, State.push, hi]
  | pushNotify i => simp only [State.step, State.pushNotify, hi]
  | pushUnlock i => simp only [State.step, State.pushUnlock, hi]
  | destroyNotify => simp only [State.step, State.destroyNotify, hd]
  | destroyJoin => simp only [State.step, State.destroyJoin, hd]
  | _ => cases ha

/-! ### What timely runs keep -/

/-- No worker waits for a notification that the destructor has already given, and the worker still
runs what was pushed before the destructor. -/
structure OnTime (s : State ι C) : Prop where
  waits : s.worker = .toWait ∨ s.worker = .blocked →
    s.destructor = .notCalled ∨ s.destructor = .flagged
  enough : s.destructor ≠ .notCalled → s.pushedBefore.length ≤ s.ran.length + s.worker.mayRun

theorem OnTime.workerStep (hinv : s.Inv) (h : s.OnTime) : s.workerStep.OnTime := by
  have hqueued := hinv.queued
  have hflag := hinv.flag
  have hlen := hinv.before_pushed.length_le
  have henough := h.enough
  have hwaits := h.waits
  unfold State.workerStep
  split <;> rename_i hpc <;> rw [hpc] at henough hwaits hqueued
  · split
    · exact ⟨by simp, henough⟩
    · exact h
  · split
    · exact ⟨by simp, henough⟩
    · rename_i hcond
      refine ⟨fun _ => .inl ?_, henough⟩
      by_contra hd
      have := hflag.mpr hd
      simp [this] at hcond
  · exact ⟨fun _ => hwaits (.inl rfl), henough⟩
  · exact h
  · split
    · rename_i hempty
      refine ⟨by simp, fun _ => ?_⟩
      simp only [hempty, Worker.inHand, List.append_nil] at hqueued
      simp only [← hqueued]
      omega
    · exact ⟨by simp, henough⟩
  · refine ⟨by simp, fun hd => le_trans (henough hd) ?_⟩
    rename_i cmd
    cases cmd <;> simp [Worker.mayRun]
  · refine ⟨by simp, fun hd => le_trans (henough hd) ?_⟩
    simp [Worker.mayRun]
  · exact ⟨by simp, henough⟩
  · split
    · exact ⟨by simp, henough⟩
    · rename_i hnf
      refine ⟨by simp, fun hd => absurd (hflag.mpr hd) hnf⟩
  · exact h

theorem OnTime.notifyAll (h : s.OnTime) : s.notifyAll.OnTime := by
  unfold State.notifyAll
  split
  · rename_i hw
    have henough := h.enough
    rw [hw] at henough
    exact ⟨by simp, henough⟩
  · exact h

theorem OnTime.step (hinv : s.Inv) (h : s.OnTime) {a : Action ι C} (ht : s.Timely a) :
    (s.step a).OnTime := by
  cases a with
  | worker => exact h.workerStep hinv
  | spuriousWakeup => exact h.notifyAll
  | pushLock i cmd =>
    simp only [State.step, State.pushLock]
    split
    · exact ⟨h.waits, h.enough⟩
    · exact h
  | push i =>
    simp only [State.step, State.push]
    split
    · refine ⟨h.waits, fun hd => ?_⟩
      have hd : s.destructor ≠ .notCalled := hd
      simp only
      exact h.enough hd
    · exact h
  | pushNotify i =>
    simp only [State.step, State.pushNotify]
    split
    · exact OnTime.notifyAll ⟨h.waits, h.enough⟩
    · exact h
  | pushUnlock i =>
    simp only [State.step, State.pushUnlock]
    split
    · exact ⟨h.waits, h.enough⟩
    · exact h
  | destroyFlag =>
    simp only [State.step, State.destroyFlag]
    split
    · rename_i hd
      refine ⟨fun _ => .inr rfl, fun _ => ?_⟩
      have hq := congrArg List.length hinv.queued
      have hbound : s.commandQueue.length + s.worker.inHand.length ≤ s.worker.mayRun := ht hd
      simp only [List.length_append] at hq
      show s.pushedBefore.length ≤ s.ran.length + s.worker.mayRun
      rw [hinv.before hd]
      omega
    · exact h
  | destroyNotify =>
    simp only [State.step, State.destroyNotify]
    split
    · rename_i hd
      have henough := h.enough
      rw [hd] at henough
      unfold State.notifyAll
      split
      · rename_i hw
        have hw : s.worker = .blocked := hw
        rw [hw] at henough
        exact ⟨by simp, fun _ => henough (by simp)⟩
      · rename_i hw
        refine ⟨fun hwait => ?_, fun _ => henough (by simp)⟩
        rcases hwait with hwait | hwait
        · exact absurd hwait (ht hd)
        · exact absurd hwait hw
    · exact h
  | destroyJoin =>
    simp only [State.step, State.destroyJoin]
    split
    · rename_i hd hw
      have henough := h.enough
      rw [hd] at henough
      exact ⟨by simp [hw], fun _ => henough (by simp)⟩
    · exact h

theorem OnTime.meets (hinv : s.Inv) (h : s.OnTime) : s.Works where
  fifo := by
    rw [hinv.queued, List.append_assoc]
    exact List.prefix_append _ _
  ends a ha := hinv.ends a ha
  complete hq := by
    have hran : s.ran <+: s.pushed := by
      rw [hinv.queued, List.append_assoc]
      exact List.prefix_append _ _
    refine List.prefix_of_prefix_length_le hinv.before_pushed hran ?_
    rcases hinv.worker_of_quiet hq with hw | ⟨hw, hpending⟩
    · have hd := hinv.flag.mp (hinv.exited hw)
      have henough := h.enough hd
      rwa [hw] at henough
    · have hempty := (hinv.blocked hw).resolve_right fun hp => hpending (.inr hp)
      have hqueued := hinv.queued
      rw [hw, hempty] at hqueued
      have hlen := hinv.before_pushed.length_le
      rw [hqueued] at hlen
      simpa [Worker.inHand] using hlen
  awake := by
    rintro ⟨hflag, hw, hpending⟩
    rcases h.waits (.inr hw) with hd | hd
    · exact absurd hd (hinv.flag.mp hflag)
    · exact hpending (.inl hd)

end State

/-- In every run in which the destructor sets the flag and notifies in time, the queue works. -/
theorem works [DecidableEq ι] (as : List (Action ι C))
    (h : Machine.AllSteps State.step State.Timely new as) :
    (Machine.run State.step new as).Works := by
  have hrun := Machine.AllSteps.invariant (I := fun s : State ι C => s.Inv ∧ s.OnTime)
    (fun s a hs ht => ⟨hs.1.step a, hs.2.step hs.1 ht⟩)
    ⟨State.new_inv, by simp [new], by simp [new]⟩ h
  exact hrun.2.meets hrun.1

instance State.decidableTimely [DecidableEq C] (s : State ι C) :
    ∀ a : Action ι C, Decidable (s.Timely a)
  | .destroyFlag => inferInstanceAs (Decidable (_ → _ ≤ _))
  | .destroyNotify => inferInstanceAs (Decidable (_ → s.worker ≠ .toWait))
  | .worker | .spuriousWakeup | .pushLock _ _ | .push _ | .pushNotify _ | .pushUnlock _
  | .destroyJoin => isTrue trivial

/-- One call of `push_command` by the one thread there is. -/
def pushCommand (cmd : ℕ) : List (Action Unit ℕ) :=
  [.pushLock () cmd, .push (), .pushNotify (), .pushUnlock ()]

/-- The command is run before the destructor is called. -/
def timelyExit : List (Action Unit ℕ) :=
  pushCommand 7 ++ List.replicate 6 .worker ++ [.destroyFlag, .destroyNotify] ++
    List.replicate 6 .worker ++ [.destroyJoin]

theorem timelyExit_works : (Machine.run State.step new timelyExit).Works :=
  works timelyExit (by decide +kernel)

/-- The worker tests the predicate, the destructor sets the flag and notifies, the worker blocks. -/
def wakeupLost : List (Action Unit ℕ) :=
  [.worker, .worker, .destroyFlag, .destroyNotify, .worker]

/-- Two commands wait when the destructor sets the flag. -/
def commandsLeft : List (Action Unit ℕ) :=
  pushCommand 7 ++ pushCommand 8 ++ [.destroyFlag, .destroyNotify] ++ List.replicate 6 .worker ++
    [.destroyJoin]

/-- The destructor can leave the worker blocked for good, and commands in the queue. -/
theorem destructor_comes_too_soon :
    ¬(Machine.run State.step new wakeupLost).Works ∧
      ¬(Machine.run State.step new commandsLeft).Works := by
  constructor
  · intro h
    refine h.awake ⟨rfl, rfl, ?_⟩
    rintro (hd | ⟨i, hi⟩)
    · cases hd
    · cases hi
  · intro h
    have hprefix := h.complete (State.quiet_of_joined rfl rfl fun _ => rfl)
    revert hprefix
    decide +kernel

end GlobalCommandQueue

end Edm
