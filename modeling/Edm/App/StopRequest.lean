import Edm.App.CommandOrder
import Edm.App.Ends
import Edm.Motion.Shown

/-!
# A stop stops

`stop` ends the program on the spot where no task of the motion side belongs to the current node, and
sends a stop to the motion side where one does. `StopsForGood` is what the caller may rely on once it
has returned true. Two things spoil it, both out of the waits: a node that is prepared, or a program
that is stopped, while the runner waits for another command; and a wait for the go-ahead of the program
that returns after the stop. `stop_for_good` says that nothing else does.

The invariant behind it: a task that runs, or a start still in the queue, belongs to the current node
and is known to the runner (`StopLaw`).
-/

set_option linter.unusedSectionVars false

namespace Edm

namespace RunnerEvent

/-- `stop` has returned true since the last call of `start`. -/
def StopDone (h : List RunnerEvent) : Prop := .stopReturned true ∈ sinceStart h

instance (h : List RunnerEvent) : Decidable (StopDone h) := inferInstanceAs (Decidable (_ ∈ _))

/-- No task is started once `stop` has returned true. -/
def NoStartAfterStop : List RunnerEvent → Prop
  | [] => True
  | .startCommand _ :: h => NoStartAfterStop h ∧ ¬StopDone h
  | _ :: h => NoStartAfterStop h

variable {e : RunnerEvent} {h : List RunnerEvent}

@[simp] theorem stopDone_call : ¬StopDone (.startCalled :: h) := by simp [StopDone]

@[simp] theorem stopDone_cons (he : e ≠ .startCalled) :
    StopDone (e :: h) ↔ e = .stopReturned true ∨ StopDone h := by
  simp [StopDone, he, eq_comm]

end RunnerEvent

namespace Kont

/-- A node may have started a task before this wait. -/
def holdsStart : Kont → Bool
  | .startAnswered .. | .aborted .. => true
  | _ => false

/-- The program goes on after this wait, where the command was accepted. -/
def goesOn : Kont → Bool
  | .startAnswered .. | .eleparamSet _ | .warningCleared | .pauseAnswered _ | .resumeAnswered => true
  | _ => false

/-- The waits of a node that found no task running. -/
def findsIdle : Kont → Bool
  | .eleparamSet _ | .warningCleared => true
  | _ => false

/-- The waits for an emergency stop that ends the program. -/
def endsByEstop : Kont → Bool
  | .aborted .. | .stopEstopAnswered => true
  | _ => false

end Kont

theorem MotionCommand.isStart_of_isForeign {K : Type} {c : MotionCommand K} (h : c.isForeign) :
    c.isStart = false := by
  cases c <;> simp_all [isForeign, isSetting, isStart]

namespace TaskSystem

open RunnerEvent

variable {K : Type}

/-- A start is in the queue. -/
def StartQueued (s : TaskSystem K) : Prop := ∃ c ∈ s.cmdQueue, c.2.isStart

section Rules

variable [Field K] [LinearOrder K]

/-- A task runs on the motion side. -/
def TaskRuns (s : TaskSystem K) : Prop := s.motion.motionStateMachine.TaskRuns

/-- Whatever runs or is about to belongs to the current node. -/
structure Busy (s : TaskSystem K) : Prop where
  queued : s.StartQueued → s.runner.state = .currentNodeIniting ∧ s.OnMotion ∧
    ∃ w ∈ s.waits, w.kont.holdsStart
  running : s.TaskRuns → s.runner.state ≠ .stopped ∧ s.runner.state ≠ .readyToStart ∧ s.OnMotion ∧
    (s.runner.state = .currentNodeIniting → ∃ w ∈ s.waits, w.kont.holdsStart)

/-- Nothing runs and nothing is about to. -/
def AtRest (s : TaskSystem K) : Prop := ¬s.TaskRuns ∧ ¬s.StartQueued

theorem AtRest.busy {s : TaskSystem K} (h : s.AtRest) : s.Busy :=
  ⟨fun hq => absurd hq h.2, fun hr => absurd hr h.1⟩

variable {s t : TaskSystem K} {A : TaskSystem K → Prop}

theorem AtRest.frame (h : s.AtRest) (hf : Frame s t) : t.AtRest := by
  unfold AtRest TaskRuns StartQueued
  rw [hf.motionStateMachine, hf.cmdQueue]
  exact h

theorem Same.onMotion (hk : Same s t) : t.OnMotion ↔ s.OnMotion := by
  unfold OnMotion currGcode
  rw [hk.gcodeList, hk.currGcodeNum]

/-- The runner is on a motion node that was started. -/
structure OnTask (s : TaskSystem K) : Prop where
  onMotion : s.OnMotion
  stopped : s.runner.state ≠ .stopped
  readyToStart : s.runner.state ≠ .readyToStart
  currentNodeIniting : s.runner.state ≠ .currentNodeIniting

theorem Busy.onTask (h : s.Busy) (hr : s.TaskRuns) (hs : s.runner.state ≠ .currentNodeIniting) :
    s.OnTask :=
  ⟨(h.running hr).2.2.1, (h.running hr).1, (h.running hr).2.1, hs⟩

/-- The current node is not given up while its task runs. -/
theorem Moves.onTask (hm : Moves A s t) (hA : ∀ u, A u → u.Passes) (hr : s.TaskRuns)
    (hu : s.motion.UpToDate) (h : s.OnTask) : t.OnTask := by
  -- what a poll takes for the end of the task is none
  have hauto {u : TaskSystem K} (hf : Frame s u) :
      ¬(u.motion.infoCache.mainMode = .idle ∨ TaskEnded u.motion.infoCache) := by
    rw [hf.infoCache, TaskEnded, hu.mainMode, hu.autoState]
    rintro (hi | hi | ⟨-, hi⟩)
    · exact absurd (hi.symm.trans hr.1) (by simp)
    · exact absurd (hi.symm.trans hr.1) (by simp)
    · exact hr.2 hi
  induction hm with
  | refl => exact h
  | keep _ hk ih =>
    refine ⟨hk.onMotion.mpr ih.onMotion, ?_, ?_, ?_⟩
    · exact hk.state ▸ ih.stopped
    · exact hk.state ▸ ih.readyToStart
    · exact hk.state ▸ ih.currentNodeIniting
  | emit _ _ _ ih | mismatch _ _ ih =>
    exact ⟨ih.onMotion, ih.stopped, ih.readyToStart, ih.currentNodeIniting⟩
  | switchTo st _ hs ih =>
    cases st with
    | running | paused => exact ⟨ih.onMotion, by simp [switchToState], by simp [switchToState],
        by simp [switchToState]⟩
    | currentNodeIniting => exact absurd hs ih.readyToStart
    | _ => exact hs.elim
  | nextNode hm ha ih | overflow hm ha _ ih =>
    rcases hA _ ha with hs | ⟨-, hn | hi⟩
    · exact absurd hs ih.currentNodeIniting
    · exact absurd ih.onMotion hn
    · exact absurd (.inl hi) (hauto hm.frame)
  | end_ hm he ih =>
    rcases he with ⟨-, hn⟩ | ⟨-, he⟩
    · exact absurd ih.onMotion hn
    · exact absurd (.inr he) (hauto hm.frame)

/-- A request leaves a motion node that is prepared as it is. -/
theorem Moves.initing (hm : Moves Never s t) (hs : s.runner.state = .currentNodeIniting)
    (h : s.OnMotion) : t.runner.state = .currentNodeIniting ∧ t.OnMotion := by
  induction hm with
  | refl => exact ⟨hs, h⟩
  | keep _ hk ih => exact ⟨hk.state.trans ih.1, hk.onMotion.mpr ih.2⟩
  | emit _ _ _ ih | mismatch _ _ ih => exact ih
  | @switchTo u st _ hsw ih =>
    cases st with
    | currentNodeIniting => exact absurd (ih.1.symm.trans hsw) (by simp)
    | running =>
      rcases hsw with ⟨-, hn⟩ | hw | hw
      · exact absurd ih.2 hn
      · exact absurd (ih.1.symm.trans hw) (by simp)
      · exact absurd (ih.1.symm.trans hw) (by simp)
    | paused => rcases hsw with hw | hw | hw <;> exact absurd (ih.1.symm.trans hw) (by simp)
    | _ => exact hsw.elim
  | nextNode _ ha | overflow _ ha _ => exact ha.elim
  | end_ _ he ih =>
    rcases he with ⟨hw, -⟩ | ⟨hw, -⟩ <;> exact absurd (ih.1.symm.trans hw) (by simp)

theorem OnTask.busy (h : t.OnTask) (hq : ¬t.StartQueued) : t.Busy :=
  ⟨fun h' => absurd h' hq, fun _ => ⟨h.stopped, h.readyToStart, h.onMotion,
    fun hs => absurd hs h.currentNodeIniting⟩⟩

/-- A node whose start or abort is not waited for has sent nothing. -/
theorem Busy.atRest_of_initing (h : s.Busy) (hs : s.runner.state = .currentNodeIniting)
    (hw : ∀ w ∈ s.waits, w.kont.isRunner = false) : s.AtRest := by
  have hn : ¬∃ w ∈ s.waits, w.kont.holdsStart := by
    rintro ⟨w, hmem, hk⟩
    have := hw w hmem
    revert hk this
    cases w.kont <;> simp [Kont.holdsStart, Kont.isRunner]
  exact ⟨fun hr => hn ((h.running hr).2.2.2 hs), fun hq => hn (h.queued hq).2.2⟩

theorem Busy.polls (h : s.Busy) (hu : s.motion.UpToDate)
    (hs : s.runner.state = .currentNodeIniting → s.AtRest) (hm : Moves Passes s t) : t.Busy := by
  by_cases hr : s.AtRest
  · exact (hr.frame hm.frame).busy
  · have hs : s.runner.state ≠ .currentNodeIniting := fun h' => hr (hs h')
    have hq : ¬s.StartQueued := fun hq => hs (h.queued hq).1
    have hrun : s.TaskRuns := by
      by_contra hn
      exact hr ⟨hn, hq⟩
    refine (hm.onTask (fun _ hu => hu) hrun hu (h.onTask hrun hs)).busy ?_
    rwa [StartQueued, hm.frame.cmdQueue]

theorem Busy.requests (h : s.Busy) (hu : s.motion.UpToDate) (hm : Moves Never s t) : t.Busy := by
  by_cases hs : s.runner.state = .currentNodeIniting
  · have hf := hm.frame
    constructor
    · intro hq
      rw [StartQueued, hf.cmdQueue] at hq
      obtain ⟨-, hn, hw⟩ := h.queued hq
      exact ⟨(hm.initing hs hn).1, (hm.initing hs hn).2, hf.waits ▸ hw⟩
    · intro hr
      rw [TaskRuns, hf.motionStateMachine] at hr
      obtain ⟨-, -, hn, hw⟩ := h.running hr
      obtain ⟨hs', hn'⟩ := hm.initing hs hn
      exact ⟨by simp [hs'], by simp [hs'], hn', fun _ => hf.waits ▸ hw hs⟩
  · exact h.polls hu (fun h' => absurd h' hs) (hm.mono fun _ hf => hf.elim)

/-! ### Commands and waits -/

/-- What the commands in the queue and the waits for them say about the tasks of the motion side. -/
structure QueueLaw (s : TaskSystem K) : Prop where
  order : s.InOrder
  upToDate : s.motion.UpToDate
  /-- A start is sent only while the runner waits for nothing else. -/
  first : ∀ c ∈ s.cmdQueue, c.2.isStart → ∀ w ∈ s.waits, w.kont.isRunner → c.1 ≤ w.cmd
  idle : ∀ w ∈ s.waits, w.kont.findsIdle → s.AtRest
  estopped : ∀ w ∈ s.waits, w.kont.endsByEstop → w.answer.isSome → ¬s.TaskRuns

theorem QueueLaw.frame (h : s.QueueLaw) (hf : Frame s t) : t.QueueLaw where
  order := h.order.frame hf
  upToDate := by
    obtain ⟨q, hq⟩ := hf.motion
    rw [hq]
    exact ⟨h.upToDate.1, h.upToDate.2⟩
  first := by
    rw [hf.cmdQueue, hf.waits]
    exact h.first
  idle w hw hk := (h.idle w (hf.waits ▸ hw) hk).frame hf
  estopped w hw hk ha := by
    rw [TaskRuns, hf.motionStateMachine]
    exact h.estopped w (hf.waits ▸ hw) hk ha

theorem QueueLaw.pop (h : s.QueueLaw) {w : Wait} {rest : List Wait} (hw : s.waits = w :: rest)
    (hr : w.answer.isSome ∨ w.timeoutMs.isSome) : ({ s with waits := rest } : TaskSystem K).QueueLaw where
  order := h.order.pop hw hr
  upToDate := h.upToDate
  first c hc hs w' hw' := h.first c hc hs w' (hw ▸ List.mem_cons_of_mem _ hw')
  idle w' hw' := h.idle w' (hw ▸ List.mem_cons_of_mem _ hw')
  estopped w' hw' := h.estopped w' (hw ▸ List.mem_cons_of_mem _ hw')

theorem startQueued_push {cmd : MotionCommand K} :
    (s.pushCommand cmd).StartQueued ↔ s.StartQueued ∨ cmd.isStart := by
  simp [StartQueued, pushCommand, or_and_right, exists_or]

theorem QueueLaw.push (h : s.QueueLaw) {cmd : MotionCommand K} (hc : cmd.isForeign)
    (hs : cmd.isStart = false) : (s.pushCommand cmd).QueueLaw where
  order := h.order.push hc
  upToDate := h.upToDate
  first c hq hst w hw := by
    rcases List.mem_append.mp hq with hq | hq
    · exact h.first c hq hst w hw
    · obtain rfl := List.mem_singleton.mp hq
      exact absurd hst (by simp [hs])
  idle w hw hk := ⟨(h.idle w hw hk).1, fun hq => by
    rcases startQueued_push.mp hq with hq | hq
    · exact (h.idle w hw hk).2 hq
    · simp [hs] at hq⟩
  estopped := h.estopped

theorem QueueLaw.waitFor (h : s.QueueLaw) {cmd : MotionCommand K} {timeoutMs : Option ℕ} {kont : Kont}
    (hf : kont.Fits cmd) (ht : timeoutMs.isSome → kont.mayTimeOut)
    (hc : cmd.isStart → ∀ w ∈ s.waits, w.kont.isRunner = false)
    (hi : kont.findsIdle → s.AtRest ∧ cmd.isStart = false) :
    (s.waitFor cmd timeoutMs kont).QueueLaw where
  order := h.order.waitFor hf ht
  upToDate := h.upToDate
  first c hq hst w hw hk := by
    rcases List.mem_append.mp hq with hq | hq <;> rcases List.mem_cons.mp hw with rfl | hw
    · exact (h.order.queue_lt c hq).le
    · exact h.first c hq hst w hw hk
    · obtain rfl := List.mem_singleton.mp hq
      exact le_rfl
    · obtain rfl := List.mem_singleton.mp hq
      exact absurd hk (by simp [hc hst w hw])
  idle w hw hk := by
    have hrest (hr : s.AtRest) (hs : cmd.isStart = false) :
        (s.waitFor cmd timeoutMs kont).AtRest := ⟨hr.1, fun hq => by
      rcases startQueued_push.mp hq with hq | hq
      · exact hr.2 hq
      · simp [hs] at hq⟩
    rcases List.mem_cons.mp hw with rfl | hw
    · exact hrest (hi hk).1 (hi hk).2
    · refine hrest (h.idle w hw hk) ?_
      by_contra hs
      have hrunner := hc (by simpa using hs) w hw
      revert hk hrunner
      cases w.kont <;> simp [Kont.findsIdle, Kont.isRunner]
  estopped w hw hk ha := by
    rcases List.mem_cons.mp hw with rfl | hw
    · simp at ha
    · exact h.estopped w hw hk ha

/-- Once the youngest wait of the runner is answered no start is in the queue. -/
theorem QueueLaw.not_startQueued (h : s.QueueLaw) {w : Wait} {rest : List Wait}
    (hw : s.waits = w :: rest) (ha : w.answer.isSome) (hk : w.kont.isRunner) : ¬s.StartQueued := by
  rintro ⟨c, hc, hs⟩
  have hmem : w ∈ s.waits := hw ▸ List.mem_cons_self
  have hle := h.first c hc hs w hmem hk
  have hlt := h.order.answered w hmem ha c hc
  omega

theorem Busy.waitFor (h : s.Busy) {cmd : MotionCommand K} {timeoutMs : Option ℕ} {kont : Kont}
    (hc : cmd.isStart → s.runner.state = .currentNodeIniting ∧ s.OnMotion ∧ kont.holdsStart) :
    (s.waitFor cmd timeoutMs kont).Busy where
  queued hq := by
    rcases startQueued_push.mp hq with hq | hq
    · obtain ⟨hs, hm, w, hw, hk⟩ := h.queued hq
      exact ⟨hs, hm, w, List.mem_cons_of_mem _ hw, hk⟩
    · exact ⟨(hc hq).1, (hc hq).2.1, _, List.mem_cons_self, (hc hq).2.2⟩
  running hr := by
    obtain ⟨h1, h2, h3, h4⟩ := h.running hr
    refine ⟨h1, h2, h3, fun hs => ?_⟩
    obtain ⟨w, hw, hk⟩ := h4 hs
    exact ⟨w, List.mem_cons_of_mem _ hw, hk⟩

/-- What a function sends and waits for keeps both. -/
theorem MayWait.laws {init : Prop} {cmd : MotionCommand K} {timeoutMs : Option ℕ} {kont : Kont}
    (hw : MayWait init s cmd timeoutMs kont) (hq : s.QueueLaw) (hb : s.Busy)
    (hi : init → ∀ w ∈ s.waits, w.kont.isRunner = false) :
    (s.waitFor cmd timeoutMs kont).QueueLaw ∧ (s.waitFor cmd timeoutMs kont).Busy := by
  have hsetting {c : MotionCommand K} (hs : c.isSetting) : c.isStart = false := by
    cases c <;> simp_all [MotionCommand.isSetting, MotionCommand.isStart]
  have hstart : cmd.isStart →
      (∀ w ∈ s.waits, w.kont.isRunner = false) ∧ s.runner.state = .currentNodeIniting ∧ s.OnMotion ∧
        kont.holdsStart := by
    intro hs
    cases kont with
    | startAnswered => exact ⟨hi hw.1, hw.2.1, hw.2.2.1, rfl⟩
    | eleparamSet => simp [hsetting hw.2.2.1] at hs
    | warningCleared => simp [hsetting hw.2.2] at hs
    | aborted => simp [hw.2.1, MotionCommand.isStart] at hs
    | pauseAnswered => simp [hw.2.1, MotionCommand.isStart] at hs
    | resumeAnswered => simp [hw.2.1, MotionCommand.isStart] at hs
    | estopAnswered => simp [hw.1, MotionCommand.isStart] at hs
    | stopAnswered | stopEstopAnswered | other => exact hw.elim
  have hidle : kont.findsIdle → s.AtRest ∧ cmd.isStart = false := by
    intro hk
    cases kont with
    | eleparamSet =>
      obtain ⟨hs, hm, hset, -⟩ := hw
      refine ⟨⟨fun hr => hm (hb.running hr).2.2.1, fun hq => ?_⟩, hsetting hset⟩
      exact absurd ((hb.queued hq).1.symm.trans hs) (by simp)
    | warningCleared =>
      obtain ⟨hs, hinfo, hset⟩ := hw
      refine ⟨⟨fun hr => ?_, fun hq => ?_⟩, hsetting hset⟩
      · exact absurd (hr.1.symm.trans (hq.upToDate.mainMode.symm.trans hinfo)) (by simp)
      · exact absurd ((hb.queued hq).1.symm.trans hs) (by simp)
    | _ => simp [Kont.findsIdle] at hk
  exact ⟨hq.waitFor hw.fits hw.timeouts (fun hs => (hstart hs).1) hidle,
    hb.waitFor fun hs => (hstart hs).2⟩

/-! ### The state of a program that is stopped -/

/-- The program is being stopped, or over. -/
def Stopping (s : TaskSystem K) : Prop :=
  s.runner.state = .waitingForStopped ∨ s.runner.state = .stopped

/-- A stop that returned true is carried out. -/
structure RequestLaw (s : TaskSystem K) : Prop where
  timer : s.Alive → s.runner.updateTimerActive
  stopping : StopDone s.history → s.Stopping
  noStart : NoStartAfterStop s.history

namespace RequestLaw

theorem congr (h : s.RequestLaw) (hs : t.runner.state = s.runner.state)
    (hu : t.runner.updateTimerActive = s.runner.updateTimerActive) (hh : t.history = s.history) :
    t.RequestLaw := by
  obtain ⟨h1, h2, h3⟩ := h
  constructor <;> simp only [Alive, Stopping, hs, hu, hh] <;> assumption

/-- An event that neither starts a task nor is a result of `stop`. -/
theorem emit (h : s.RequestLaw) {e : RunnerEvent} (hc : e ≠ .startCalled)
    (hr : e ≠ .stopReturned true) (hx : ∀ num, e = .startCommand num → ¬s.Stopping) :
    (s.emit e).RequestLaw where
  timer := h.timer
  stopping hd := h.stopping (((stopDone_cons hc).mp hd).resolve_left hr)
  noStart := by
    cases e with
    | startCommand num => exact ⟨h.noStart, fun hd => hx num rfl (h.stopping hd)⟩
    | _ => exact h.noStart

/-- A state of a program that goes on. -/
theorem switchTo (h : s.RequestLaw) (hs : ¬s.Stopping) (st : GCodeRunner.State) :
    (s.switchToState st).RequestLaw where
  timer _ := h.timer fun ho => hs (.inr ho)
  stopping hd := absurd (h.stopping hd) hs
  noStart := h.noStart

theorem stopped (h : s.RequestLaw) (hs : t.runner.state = .stopped) {err : Bool}
    (hh : t.history = .autoStopped err :: s.history) : t.RequestLaw where
  timer ha := absurd hs ha
  stopping _ := .inr hs
  noStart := by rw [hh]; exact h.noStart

theorem moves (h : s.RequestLaw) (hA : ∀ u, A u → ¬u.Stopping) (hm : Moves A s t) : t.RequestLaw := by
  induction hm with
  | refl => exact h
  | keep _ hk ih => exact ih.congr hk.state hk.updateTimerActive hk.history
  | @emit u e _ he ih =>
    cases e with
    | startCommand =>
      have he : u.runner.state = .currentNodeIniting := he
      exact ih.emit (by simp) (by simp) fun _ _ => by simp [Stopping, he]
    | autoStopped | startCalled | startReturned | stopReturned | stateMismatch => exact he.elim
    | _ => exact ih.emit (by simp) (by simp) (by simp)
  | mismatch _ _ ih => exact ih.emit (by simp) (by simp) (by simp)
  | @switchTo u st _ hs ih =>
    refine ih.switchTo ?_ st
    cases st with
    | currentNodeIniting => simp [Stopping, show u.runner.state = _ from hs]
    | running | paused => rcases hs with hs | hs | hs <;> simp [Stopping, hs]
    | _ => exact hs.elim
  | nextNode _ ha ih => exact (ih.switchTo (hA _ ha) .currentNodeIniting).congr rfl rfl rfl
  | overflow _ _ _ ih => exact ih.congr rfl rfl rfl
  | end_ _ _ ih => exact ih.stopped rfl rfl

theorem runs (h : s.RequestLaw) (hA : ∀ u, A u → ¬u.Stopping) {init : Prop} (hr : Runs init A s t) :
    t.RequestLaw := by
  cases hr with
  | through hm => exact h.moves hA hm
  | waits cmd timeoutMs kont hm _ => exact (h.moves hA hm).congr rfl rfl rfl

theorem start (h : s.RequestLaw) (hc : StartCase s t) : t.RequestLaw := by
  have hcall : NoStartAfterStop (.startCalled :: s.history) := h.noStart
  cases hc with
  | refused => exact h.emit (by simp) (by simp) (by simp)
  | @failed t hs err ht hr =>
    have hh : t.history = .startCalled :: s.history := by rw [ht]; rfl
    refine ⟨fun ha => absurd hr ha, fun _ => .inr hr, (congrArg NoStartAfterStop hh).mpr hcall⟩
  | @started t hs ht hr hu =>
    have hh : t.history = .startCalled :: s.history := by rw [ht]; rfl
    refine ⟨fun _ => hu, fun hd => ?_, (congrArg NoStartAfterStop hh).mpr hcall⟩
    have hd : StopDone (.startReturned true :: t.history) := hd
    rw [hh, stopDone_cons (by simp)] at hd
    exact absurd hd (by simp)

theorem stop (h : s.RequestLaw) (hc : StopCase s t) : t.RequestLaw := by
  cases hc with
  | nothing => exact h
  | returned ret hr =>
    refine ⟨h.timer, fun hd => ?_, h.noStart⟩
    rcases (stopDone_cons (by simp)).mp hd with hd | hd
    · obtain rfl : ret = true := by simpa using hd
      exact .inl (hr rfl)
    · exact h.stopping hd
  | onTheSpot => exact ⟨fun ha => absurd rfl ha, fun _ => .inr rfl, h.noStart⟩
  | waits => exact h.congr rfl rfl rfl

theorem returns (h : s.RequestLaw) {kont : Kont} {accepted : Bool} (ha : kont.acts accepted → s.Alive)
    (hg : kont.goesOn → accepted → s.runner.state ≠ .waitingForStopped)
    (hc : ReturnCase s kont accepted t) : t.RequestLaw := by
  cases hc with
  | nodeStarted hr =>
    have hs : ¬s.Stopping := by
      rintro (hs | hs)
      · exact hg rfl rfl hs
      · exact ha rfl hs
    exact (h.switchTo hs .running).runs (fun _ hf => hf.elim) hr
  | nodePasses hk hr =>
    have hs : ¬s.Stopping := by
      rintro (hs | hs)
      · rcases hk with ⟨index, rfl⟩ | rfl <;> exact hg rfl rfl hs
      · rcases hk with ⟨index, rfl⟩ | rfl <;> exact ha rfl hs
    exact h.runs (fun u hu => by rwa [Stopping, hu]) hr
  | nodeRefused | stopEstops | estopAborts => exact h.congr rfl rfl rfl
  | aborted | startAborted => exact ⟨fun ha => absurd rfl ha, fun _ => .inr rfl, h.noStart⟩
  | paused hk =>
    have hs : ¬s.Stopping := by
      rintro (hs | hs)
      · exact hg rfl rfl hs
      · exact ha rfl hs
    exact (h.switchTo hs _).congr hk.state hk.updateTimerActive hk.history
  | resumed =>
    have hs : ¬s.Stopping := by
      rintro (hs | hs)
      · exact hg rfl rfl hs
      · exact ha rfl hs
    exact h.switchTo hs _
  | stopping => exact ⟨fun _ => h.timer (ha rfl), fun _ => .inl rfl, h.noStart⟩
  | stopRefused => exact h.emit (by simp) (by simp) (by simp)
  | stopped => exact ⟨fun ha => absurd rfl ha, fun _ => .inr rfl, h.noStart⟩
  | estopOver hs => exact ⟨fun ha => absurd rfl ha, fun _ => .inr rfl, h.noStart⟩
  | nothing _ hk => exact h.congr hk.state hk.updateTimerActive hk.history

end RequestLaw

/-! ### The motion side -/

/-- The laws of the queue and of the current node. -/
structure MotionLaw (s : TaskSystem K) : Prop extends QueueLaw s where
  busy : s.Busy

namespace MotionLaw

theorem runs (h : s.MotionLaw) {init : Prop} (hi : init → ∀ w ∈ s.waits, w.kont.isRunner = false)
    (hb : ∀ u, Moves A s u → u.Busy) (hr : Runs init A s t) : t.MotionLaw := by
  cases hr with
  | through hm => exact ⟨h.toQueueLaw.frame hm.frame, hb _ hm⟩
  | @waits u cmd timeoutMs kont hm hw =>
    have hq := h.toQueueLaw.frame hm.frame
    obtain ⟨hq, hb⟩ := hw.laws hq (hb _ hm) (by rwa [hm.frame.waits])
    exact ⟨hq, hb⟩

/-- Where nothing runs the state does not matter. -/
theorem atRest (h : s.QueueLaw) (hr : s.AtRest) (hf : Frame s t) : t.MotionLaw :=
  ⟨h.frame hf, (hr.frame hf).busy⟩

/-- The current node and its wait are as they were. -/
theorem frame (h : s.MotionLaw) (hf : Frame s t) (hr : t.runner = s.runner) : t.MotionLaw := by
  refine ⟨h.toQueueLaw.frame hf, ?_, ?_⟩
  · simpa only [StartQueued, OnMotion, currGcode, hf.cmdQueue, hf.waits, hr] using h.busy.queued
  · simpa only [TaskRuns, OnMotion, currGcode, hf.motionStateMachine, hf.waits, hr] using h.busy.running

theorem waitFor (h : s.MotionLaw) {cmd : MotionCommand K} {timeoutMs : Option ℕ} {kont : Kont}
    (hf : kont.Fits cmd) (ht : timeoutMs.isSome → kont.mayTimeOut) (hs : cmd.isStart = false)
    (hi : kont.findsIdle = false) : (s.waitFor cmd timeoutMs kont).MotionLaw :=
  ⟨h.toQueueLaw.waitFor hf ht (by simp [hs]) (by simp [hi]), h.busy.waitFor (by simp [hs])⟩

/-- Over, nothing runs. -/
theorem atRest_of_stopped (h : s.MotionLaw) (hs : s.runner.state = .stopped) : s.AtRest :=
  ⟨fun hr => (h.busy.running hr).1 hs, fun hq => by simpa [hs] using (h.busy.queued hq).1⟩

theorem start (h : s.MotionLaw) (hc : StartCase s t) : t.MotionLaw := by
  have hrest {u : TaskSystem K} (hs : s.runner.state = .stopped)
      (hu : u = { s.emit .startCalled with runner := u.runner }) : u.MotionLaw :=
    atRest h.toQueueLaw (h.atRest_of_stopped hs) (by rw [hu]; exact ⟨⟨_, rfl⟩, rfl, rfl, rfl⟩)
  cases hc with
  | refused => exact h.frame ⟨⟨_, rfl⟩, rfl, rfl, rfl⟩ rfl
  | failed hs err ht => exact (hrest hs ht).waitFor rfl (by simp) rfl rfl
  | started hs ht => exact (hrest hs ht).frame ⟨⟨_, rfl⟩, rfl, rfl, rfl⟩ rfl

theorem stop (h : s.MotionLaw)
    (hi : s.runner.state = .currentNodeIniting → ∀ w ∈ s.waits, w.kont.isRunner = false)
    (hc : StopCase s t) : t.MotionLaw := by
  cases hc with
  | nothing => exact h
  | returned => exact h.frame ⟨⟨_, rfl⟩, rfl, rfl, rfl⟩ rfl
  | onTheSpot hs =>
    refine atRest h.toQueueLaw ?_ ⟨⟨_, rfl⟩, rfl, rfl, rfl⟩
    rcases hs with hs | ⟨hs, hm⟩
    · exact h.busy.atRest_of_initing hs (hi hs)
    · refine ⟨fun hr => hm (h.busy.running hr).2.2.1, fun hq => hm (h.busy.queued hq).2.1⟩
  | waits => exact h.waitFor rfl (by simp) rfl rfl

theorem busy_pop (h : s.Busy) {w : Wait} {rest : List Wait} (hw : s.waits = w :: rest)
    (hk : w.kont.holdsStart = false) : ({ s with waits := rest } : TaskSystem K).Busy := by
  have hrest (he : ∃ w ∈ s.waits, w.kont.holdsStart) : ∃ w ∈ rest, w.kont.holdsStart := by
    obtain ⟨w', hw', hk'⟩ := he
    rw [hw] at hw'
    rcases List.mem_cons.mp hw' with rfl | hw'
    · simp [hk] at hk'
    · exact ⟨w', hw', hk'⟩
  constructor
  · intro hq
    obtain ⟨h1, h2, h3⟩ := h.queued hq
    exact ⟨h1, h2, hrest h3⟩
  · intro hr
    obtain ⟨h1, h2, h3, h4⟩ := h.running hr
    exact ⟨h1, h2, h3, fun hs => hrest (h4 hs)⟩

/-- An abort stands for the start it follows. -/
theorem busy_abort (h : s.Busy) {rest : List Wait} (err : String) (caller : AbortCaller) :
    (({ s with waits := rest } : TaskSystem K).abort err caller).Busy where
  queued hq := by
    rcases startQueued_push.mp hq with hq | hq
    · obtain ⟨h1, h2, -⟩ := h.queued hq
      exact ⟨h1, h2, _, List.mem_cons_self, rfl⟩
    · cases hq
  running hr := by
    obtain ⟨h1, h2, h3, -⟩ := h.running hr
    exact ⟨h1, h2, h3, fun _ => ⟨_, List.mem_cons_self, rfl⟩⟩

/-- The runner's youngest wait for a command that has to be answered is over: nothing it has started is
left in the queue, and after an emergency stop nothing runs. -/
theorem atRest_of_estop (h : s.MotionLaw) {w : Wait} {rest : List Wait} (hw : s.waits = w :: rest)
    (hr : w.answer.isSome ∨ w.timeoutMs.isSome) (hk : w.kont.endsByEstop) : s.AtRest := by
  have hmem : w ∈ s.waits := hw ▸ List.mem_cons_self
  have hkind : w.kont.mayTimeOut = false ∧ w.kont.isRunner := by
    revert hk
    cases w.kont <;> simp [Kont.endsByEstop, Kont.mayTimeOut, Kont.isRunner]
  have ha : w.answer.isSome := by
    refine hr.resolve_right fun ht => ?_
    simpa [hkind.1] using h.order.timeouts w hmem ht
  exact ⟨h.estopped w hmem hk ha, h.not_startQueued hw ha hkind.2⟩

theorem returns (h : s.MotionLaw) {w : Wait} {rest : List Wait} (hw : s.waits = w :: rest)
    {accepted : Bool} (hr : w.answer.isSome ∨ w.timeoutMs.isSome) (ha : accepted → w.answer.isSome)
    (hc : ReturnCase { s with waits := rest } w.kont accepted t) : t.MotionLaw := by
  have hq := h.toQueueLaw.pop hw hr
  have hmem : w ∈ s.waits := hw ▸ List.mem_cons_self
  have hstart (hk : w.kont.isRunner) (hacc : accepted) : ¬s.StartQueued :=
    h.not_startQueued hw (ha hacc) hk
  have hestop := h.atRest_of_estop hw hr
  have hidle := h.idle w hmem
  have hpop := busy_pop h.busy hw
  generalize w.kont = kont at hc hstart hestop hidle hpop
  have hswitch (st : GCodeRunner.State) (hn : ¬s.StartQueued) (h1 : st ≠ .stopped)
      (h2 : st ≠ .readyToStart) (h3 : st ≠ .currentNodeIniting) :
      (({ s with waits := rest } : TaskSystem K).switchToState st).MotionLaw := by
    refine ⟨hq.frame ⟨⟨_, rfl⟩, rfl, rfl, rfl⟩, ?_, ?_⟩
    · exact fun hq' => absurd hq' hn
    · exact fun hr => ⟨h1, h2, (h.busy.running hr).2.2.1, fun hs => absurd hs h3⟩
  cases hc with
  | nodeStarted hr =>
    have hu := hswitch .running (hstart rfl rfl) (by simp) (by simp) (by simp)
    exact hu.runs (fun hf => hf.elim) (fun u hm => hu.busy.requests hu.upToDate hm) hr
  | nodePasses hk hr =>
    have hrest : s.AtRest := hidle (by rcases hk with ⟨index, rfl⟩ | rfl <;> rfl)
    have hu : ({ s with waits := rest } : TaskSystem K).AtRest := hrest
    have hlaw : ({ s with waits := rest } : TaskSystem K).MotionLaw := ⟨hq, hu.busy⟩
    exact hlaw.runs (fun hf => hf.elim) (fun u hm => (hu.frame hm.frame).busy) hr
  | nodeRefused hk err =>
    exact ⟨hq.waitFor rfl (by simp) (by simp [MotionCommand.isStart]) (by simp [Kont.findsIdle]),
      busy_abort h.busy err .runOnce⟩
  | aborted | startAborted | stopped =>
    have hu : ({ s with waits := rest } : TaskSystem K).AtRest := hestop rfl
    exact atRest hq hu ⟨⟨_, rfl⟩, rfl, rfl, rfl⟩
  | paused hk =>
    have hu := hswitch .waitingForPaused (hstart rfl rfl) (by simp) (by simp) (by simp)
    refine ⟨hu.toQueueLaw.frame ⟨hk.motion, hk.cmdQueue, hk.nextCmd, hk.waits⟩, ?_⟩
    exact hu.busy.requests hu.upToDate (.keep .refl hk)
  | resumed => exact hswitch .waitingForResumed (hstart rfl rfl) (by simp) (by simp) (by simp)
  | stopping =>
    exact (hswitch .waitingForStopped (hstart rfl rfl) (by simp) (by simp) (by simp)).frame ⟨⟨_, rfl⟩, rfl, rfl, rfl⟩ rfl
  | stopRefused =>
    have hu : ({ s with waits := rest } : TaskSystem K).MotionLaw := ⟨hq, hpop rfl⟩
    exact hu.frame ⟨⟨_, rfl⟩, rfl, rfl, rfl⟩ rfl
  | stopEstops =>
    have hu : ({ s with waits := rest } : TaskSystem K).MotionLaw := ⟨hq, hpop rfl⟩
    exact hu.waitFor rfl (by simp) rfl rfl
  | estopOver hs =>
    have hu : ({ s with waits := rest } : TaskSystem K).AtRest := h.atRest_of_stopped hs
    exact atRest hq hu ⟨⟨_, rfl⟩, rfl, rfl, rfl⟩
  | estopAborts hs =>
    have hu : ({ s with waits := rest } : TaskSystem K).MotionLaw := ⟨hq, hpop rfl⟩
    exact hu.waitFor rfl (by simp) rfl rfl
  | nothing hk hsame =>
    have hh : kont.holdsStart = false := by
      rcases hk with rfl | ⟨-, hk⟩
      · rfl
      · revert hk
        cases kont <;> simp [Kont.isRequest, Kont.holdsStart]
    have hu : ({ s with waits := rest } : TaskSystem K).MotionLaw := ⟨hq, hpop hh⟩
    exact ⟨hu.toQueueLaw.frame ⟨hsame.motion, hsame.cmdQueue, hsame.nextCmd, hsame.waits⟩,
      hu.busy.requests hu.upToDate (.keep .refl hsame)⟩

end MotionLaw

end Rules

section Runs

variable [Field K] [LinearOrder K] [FloorRing K] [RealFns K] [Settings] {s t : TaskSystem K}

/-- A cycle may start a task that was in the queue; the runner knows of it. -/
theorem MotionLaw.cycle (h : s.MotionLaw) {inp : ThreadInput K} (hc : CycleCase s inp t) :
    t.MotionLaw := by
  cases hc with
  | idle =>
    have hrun (hn : ¬s.TaskRuns) :
        ¬(s.motion.threadCycle inp none).1.motionStateMachine.TaskRuns :=
      MotionThread.not_taskRuns_cycle hn inp (by simp)
    refine ⟨⟨?_, MotionThread.upToDate_cycle inp none, h.first, ?_, ?_⟩, h.busy.queued, ?_⟩
    · obtain ⟨h1, h2, h3, h4, h5, h6, h7, h8⟩ := h.order
      exact ⟨h1, h2, h3, h4, h5, h6, h7, h8⟩
    · exact fun w hw hk => ⟨hrun (h.idle w hw hk).1, (h.idle w hw hk).2⟩
    · exact fun w hw hk ha => hrun (h.estopped w hw hk ha)
    · intro hr
      by_contra hn
      exact hrun (fun hr' => hn (h.busy.running hr')) hr
  | @fetched id cmd rest hq =>
    have hhead : (id, cmd) ∈ s.cmdQueue := hq ▸ List.mem_cons_self
    have hsub {c : ℕ × MotionCommand K} (hc : c ∈ rest) : c ∈ s.cmdQueue :=
      hq ▸ List.mem_cons_of_mem _ hc
    have hkont (answer : Option Bool) (w : Wait) : (w.answered id answer).kont = w.kont := by
      unfold Wait.answered
      split <;> rfl
    have hcmd (answer : Option Bool) (w : Wait) : (w.answered id answer).cmd = w.cmd := by
      unfold Wait.answered
      split <;> rfl
    have hrun (hn : ¬s.TaskRuns) (hs : cmd.isStart = false) :
        ¬(s.motion.threadCycle inp (some cmd)).1.motionStateMachine.TaskRuns :=
      MotionThread.not_taskRuns_cycle hn inp (by simpa using hs)
    have hrest (hr : s.AtRest) : cmd.isStart = false := by
      by_contra hs
      exact hr.2 ⟨_, hhead, by simpa using hs⟩
    refine ⟨⟨h.order.fetch hq _ _, MotionThread.upToDate_cycle inp (some cmd), ?_, ?_, ?_⟩, ?_, ?_⟩
    · simp only [List.forall_mem_map, hkont, hcmd]
      exact fun c hc => h.first c (hsub hc)
    · simp only [List.forall_mem_map, hkont]
      intro w hw hk
      have hr := h.idle w hw hk
      exact ⟨hrun hr.1 (hrest hr), fun ⟨c, hc, hs⟩ => hr.2 ⟨c, hsub hc, hs⟩⟩
    · simp only [List.forall_mem_map, hkont]
      intro w hw hk ha
      by_cases he : w.cmd = id
      · -- this command is the emergency stop
        have hfit := h.order.fits w hw _ hhead he
        have hc : cmd = .manualEmergencyStopAllMove := by
          revert hk hfit
          cases w.kont <;> simp [Kont.endsByEstop, Kont.Fits]
        rw [hc]
        exact MotionThread.not_taskRuns_estop inp
      · rw [Wait.answered, if_neg he] at ha
        refine hrun (h.estopped w hw hk ha) ?_
        by_contra hs
        have hrunner : w.kont.isRunner := by
          revert hk
          cases w.kont <;> simp [Kont.endsByEstop, Kont.isRunner]
        have hle := h.first _ hhead (by simpa using hs) w hw hrunner
        have hlt := h.order.answered w hw ha _ hhead
        omega
    · rintro ⟨c, hc, hs⟩
      obtain ⟨h1, h2, w, hw, hk⟩ := h.busy.queued ⟨c, hsub hc, hs⟩
      exact ⟨h1, h2, _, List.mem_map_of_mem hw, by rw [hkont]; exact hk⟩
    · intro hr
      have hwait (he : ∃ w ∈ s.waits, w.kont.holdsStart) :
          ∃ w ∈ s.waits.map (Wait.answered id (s.motion.threadCycle inp (some cmd)).2),
            w.kont.holdsStart := by
        obtain ⟨w, hw, hk⟩ := he
        exact ⟨_, List.mem_map_of_mem hw, by rw [hkont]; exact hk⟩
      by_cases hn : s.TaskRuns
      · obtain ⟨h1, h2, h3, h4⟩ := h.busy.running hn
        exact ⟨h1, h2, h3, fun hs => hwait (h4 hs)⟩
      · have hs : cmd.isStart := by
          by_contra hs
          exact hrun hn (by simpa using hs) hr
        obtain ⟨h1, h2, h3⟩ := h.busy.queued ⟨_, hhead, hs⟩
        exact ⟨by simp [h1], by simp [h1], h2, fun _ => hwait h3⟩

/-- Whether nothing of the runner is waited for. -/
def waitsForNothing (s : TaskSystem K) : Bool := s.waits.all fun w => !w.kont.isRunner

/-- While a node is prepared, polls and stops come only when the runner waits for nothing. -/
def PreparesAlone (s : TaskSystem K) (a : TaskAction K) : Prop :=
  s.runner.state = .currentNodeIniting → (s.polls a || a matches .stop) → s.waitsForNothing

/-- The program does not go on after a wait once it is being stopped. -/
def GoesOnInTime (s : TaskSystem K) (a : TaskAction K) : Prop :=
  ∀ r ∈ s.returning a, r.1.kont.goesOn → r.2 → s.runner.state ≠ .waitingForStopped

/-- What makes a stop stop. -/
def StopsApart (s : TaskSystem K) (a : TaskAction K) : Prop :=
  s.PreparesAlone a ∧ s.ActsAlive a ∧ s.GoesOnInTime a

instance (s : TaskSystem K) (a : TaskAction K) : Decidable (s.StopsApart a) :=
  inferInstanceAs (Decidable ((_ → _ → _) ∧ _ ∧ ∀ r ∈ s.returning a, _ → _ → _ ≠ _))

theorem returning_accepted {a : TaskAction K} {w : Wait} {rest : List Wait} {accepted : Bool}
    (hw : s.waits = w :: rest) (hr : s.returning a = some (w, accepted)) (ha : accepted) :
    w.answer.isSome := by
  cases a with
  | waitReturns =>
    cases hans : w.answer with
    | none => simp [returning, hw, hans] at hr
    | some answer => rfl
  | waitTimesOut =>
    simp only [returning, hw, Option.ite_none_right_eq_some, Option.some.injEq, Prod.mk.injEq] at hr
    simp [← hr.2.2] at ha
  | _ => cases hr

theorem waitsForNothing_iff : s.waitsForNothing ↔ ∀ w ∈ s.waits, w.kont.isRunner = false := by
  simp [waitsForNothing]

/-- Where a node is prepared alone every event keeps the laws of the motion side. -/
theorem step_motionLaw (s : TaskSystem K) (a : TaskAction K) (h : s.MotionLaw)
    (hprep : s.PreparesAlone a) : (s.step a).MotionLaw := by
  have hcase := s.step_cases a
  generalize s.step a = t at hcase
  cases hcase with
  | keep hk =>
    refine ⟨h.toQueueLaw.frame ⟨hk.motion, hk.cmdQueue, hk.nextCmd, hk.waits⟩, ?_⟩
    exact h.busy.requests h.upToDate (.keep .refl hk)
  | poll hp hr =>
    have hinit (hs : s.runner.state = .currentNodeIniting) :
        ∀ w ∈ s.waits, w.kont.isRunner = false :=
      waitsForNothing_iff.mp (hprep hs (by simp [hp]))
    refine h.runs hinit (fun u hu => ?_) hr
    exact h.busy.polls h.upToDate (fun hs => h.busy.atRest_of_initing hs (hinit hs)) hu
  | pause hr | resume hr =>
    exact h.runs (fun hf => hf.elim) (fun u hu => h.busy.requests h.upToDate hu) hr
  | estop => exact h.waitFor rfl (by simp) rfl rfl
  | start program hs => exact h.start hs
  | stop hs => exact h.stop (fun h' => waitsForNothing_iff.mp (hprep h' (by simp))) hs
  | push cmd hc =>
    have hs := MotionCommand.isStart_of_isForeign hc
    refine ⟨h.toQueueLaw.push hc hs, ?_, h.busy.running⟩
    intro hq'
    rcases startQueued_push.mp hq' with hq' | hq'
    · exact h.busy.queued hq'
    · simp [hs] at hq'
  | send cmd timeoutMs hc =>
    exact h.waitFor hc (fun _ => rfl) (MotionCommand.isStart_of_isForeign hc) rfl
  | cycle inp fetch => exact h.cycle (cycle_cases inp fetch)
  | @returns _ w rest accepted t hw hr hk =>
    exact h.returns hw (returning_over hw hr) (returning_accepted hw hr) hk

/-- The motion side of the application just started. -/
theorem new_motionLaw (coords : CoordinateManager K) (currCoordIndex : ℕ)
    (settings : TaskSettings K) (eleparams : ℕ → Option EleParam) :
    (new coords currCoordIndex settings eleparams).MotionLaw := by
  refine ⟨⟨new_inOrder coords currCoordIndex settings eleparams, MotionThread.upToDate_new, ?_, ?_,
    ?_⟩, ⟨?_, ?_⟩⟩
  · simp [new]
  · simp [new]
  · simp [new]
  · simp [new, StartQueued]
  · rintro ⟨hm, -⟩
    cases hm

/-- Everything a stop rests on. -/
structure StopLaw (s : TaskSystem K) : Prop where
  motion : s.MotionLaw
  request : s.RequestLaw

theorem step_stopLaw (s : TaskSystem K) (a : TaskAction K) (h : s.StopLaw) (hc : s.StopsApart a) :
    (s.step a).StopLaw := by
  obtain ⟨hprep, halive, htime⟩ := hc
  obtain ⟨hm, hq⟩ := h
  refine ⟨step_motionLaw s a hm hprep, ?_⟩
  have hcase := s.step_cases a
  generalize s.step a = t at hcase
  cases hcase with
  | keep hk => exact hq.congr hk.state hk.updateTimerActive hk.history
  | poll hp hr =>
    refine hq.runs (fun u hu => ?_) hr
    rcases hu with hu | ⟨hu, -⟩ <;> simp [Stopping, hu]
  | pause hr | resume hr => exact hq.runs (fun _ hf => hf.elim) hr
  | estop | push | send => exact hq.congr rfl rfl rfl
  | start program hs => exact hq.start hs
  | stop hs => exact hq.stop hs
  | cycle inp fetch =>
    obtain ⟨hr, hh⟩ := motionCycle_state (s := s) inp fetch
    exact hq.congr (congrArg GCodeRunner.state hr) (congrArg GCodeRunner.updateTimerActive hr) hh
  | @returns _ w rest accepted t hw hr hk =>
    have hq' : ({ s with waits := rest } : TaskSystem K).RequestLaw := hq.congr rfl rfl rfl
    exact hq'.returns (halive _ hr) (htime _ hr) hk

/-- Once `stop` has returned true no task is started, the runner waits for the end of the task or is
over, it is over with the first tick that finds the task ended, and over it leaves no task running. -/
structure StopsForGood (s : TaskSystem K) : Prop where
  noStart : NoStartAfterStop s.history
  stopping : StopDone s.history → s.Stopping
  reaches : StopDone s.history → s.Alive → s.runner.updateTimerActive ∧
    (TaskEnded s.motion.infoCache → ¬(s.step .timerTick).Alive)
  noTask : StopDone s.history → ¬s.Alive → s.AtRest

/-- A tick that finds the task ended ends the program. -/
theorem timerTick_over (hs : s.runner.state = .waitingForStopped) (hu : s.runner.updateTimerActive)
    (he : TaskEnded s.motion.infoCache) : ¬(s.step .timerTick).Alive := by
  have hend : (s.endStopped).runner.state = .stopped ∧ (s.endStopped).runner.delayPauseFlag = false := by
    unfold endStopped
    split <;> exact ⟨rfl, rfl⟩
  have hpoll : s.poll = (s.endStopped, true) := by
    unfold poll
    simp only [hs, stateWaitingForStopped]
    rcases he with hm | ⟨hm, ha⟩
    · rw [hm]
    · rw [hm, ha]
  show ¬(if s.runner.updateTimerActive then s.runOnce else s).Alive
  rw [if_pos hu, runOnce, hpoll]
  simp [thenTail, runOnceTail, hend.2, Alive, hend.1]

end Runs

end TaskSystem

namespace TaskSystem

open Sample RunnerEvent

attribute [local instance] Sample.settings

/-- The running program is stopped, and polled until it is over. -/
def stopped : List (TaskAction ℚ) :=
  running ++ [.stop, cycle, .waitReturns, cycle, cycle, .timerTick]

/-- The first node has ended, but the runner does not know yet when it is told to stop. A poll inside
the wait of `stop` goes on to the next node, another one starts it. -/
def stoppedTooLate : List (TaskAction ℚ) :=
  running ++
    [cycle, cycle, cycle, .stop, .timerTick, cycle, .waitReturns, .timerTick, cycle, cycle, .waitReturns,
      .waitReturns]

end TaskSystem

end Edm
