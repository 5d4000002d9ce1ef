import Edm.App.StopRequest

/-!
# What was executed, and what is waited for

A node is initialised, its task is started or it is run, and the next one is current. The events
emitted since the program was started tell what was done (`trace`), and `Recorded` says that it was
done in order, each node once.

A wait of the runner knows how far the current node is (`Needs`), and which states the runner may
get to meanwhile (`allows`); where no wait holds the node, the state of the runner tells (`Stands`).
`NodeLaw` is all of this. Here is what a single move does to it.
-/

set_option linter.unusedSectionVars false

namespace Edm

namespace RunnerEvent

/-- What was executed since the last call of `start`, the last first. -/
def trace (h : List RunnerEvent) : List RunnerEvent := (sinceStart h).filter executes

/-- The nodes initialised, the nodes whose task was started, the nodes run. -/
def inits (h : List RunnerEvent) : List ℕ :=
  (trace h).filterMap fun
    | .initNode num => some num
    | _ => none

def starts (h : List RunnerEvent) : List ℕ :=
  (trace h).filterMap fun
    | .startCommand num => some num
    | _ => none

def runs (h : List RunnerEvent) : List ℕ :=
  (trace h).filterMap fun
    | .runNode num => some num
    | _ => none

variable {e : RunnerEvent} {h : List RunnerEvent} {num : ℕ}

theorem trace_call : trace (.startCalled :: h) = [] := rfl

theorem trace_cons (hc : e ≠ .startCalled) :
    trace (e :: h) = if e.executes then e :: trace h else trace h := by
  rw [trace, sinceStart_cons hc, List.filter_cons]
  rfl

theorem trace_of_not_executes (he : e.executes = false) (hc : e ≠ .startCalled) :
    trace (e :: h) = trace h := by
  rw [trace_cons hc, if_neg (by simp [he])]

@[simp] theorem inits_initNode : inits (.initNode num :: h) = num :: inits h := by
  simp [inits, trace_cons, executes]

@[simp] theorem inits_startCommand : inits (.startCommand num :: h) = inits h := by
  simp [inits, trace_cons, executes]

@[simp] theorem inits_runNode : inits (.runNode num :: h) = inits h := by
  simp [inits, trace_cons, executes]

@[simp] theorem starts_initNode : starts (.initNode num :: h) = starts h := by
  simp [starts, trace_cons, executes]

@[simp] theorem starts_startCommand : starts (.startCommand num :: h) = num :: starts h := by
  simp [starts, trace_cons, executes]

@[simp] theorem starts_runNode : starts (.runNode num :: h) = starts h := by
  simp [starts, trace_cons, executes]

@[simp] theorem runs_initNode : runs (.initNode num :: h) = runs h := by
  simp [runs, trace_cons, executes]

@[simp] theorem runs_startCommand : runs (.startCommand num :: h) = runs h := by
  simp [runs, trace_cons, executes]

@[simp] theorem runs_runNode : runs (.runNode num :: h) = num :: runs h := by
  simp [runs, trace_cons, executes]

end RunnerEvent

namespace Kont

/-- The waits in which the current node is under way, or given up. -/
def holdsNode : Kont → Bool
  | .startAnswered .. | .eleparamSet _ | .warningCleared | .aborted .. => true
  | _ => false

/-- The waits after which the program is taken up, where the command was accepted. -/
def takesUp : Kont → Bool
  | .startAnswered .. | .eleparamSet _ | .warningCleared | .resumeAnswered => true
  | _ => false

def isStartWait : Kont → Bool
  | .startAnswered .. => true
  | _ => false

/-- The waits that may begin while the start of a node is waited for. -/
def insideStart : Kont → Bool
  | .startAnswered .. | .aborted .. | .estopAnswered | .other => true
  | _ => false

/-- The states the runner may be in during the wait. -/
def allows : Kont → GCodeRunner.State → Bool
  | .startAnswered .., st => st = .currentNodeIniting ∨ st = .stopped
  | .eleparamSet _, st | .warningCleared, st =>
    st ≠ .currentNodeIniting ∧ st ≠ .readyToStart ∧ st ≠ .waitingForResumed
  | .resumeAnswered, st =>
    st = .paused ∨ st = .waitingForPaused ∨ st = .waitingForStopped ∨ st = .stopped
  | _, _ => true

variable {kont : Kont}

theorem allows_of_not_takesUp (h : kont.takesUp = false) (st : GCodeRunner.State) :
    kont.allows st := by
  revert h
  cases kont <;> simp [takesUp, allows]

theorem isRunner_of_holdsNode (h : kont.holdsNode) : kont.isRunner := by
  revert h
  cases kont <;> simp [holdsNode, isRunner]

theorem isRunner_of_takesUp (h : kont.takesUp) : kont.isRunner := by
  revert h
  cases kont <;> simp [takesUp, isRunner]

theorem insideStart_of_not_isRunner (h : kont.isRunner = false) : kont.insideStart := by
  revert h
  cases kont <;> simp [isRunner, insideStart]

theorem allows_stopped : kont.allows .stopped := by cases kont <;> rfl

/-- Once the node is started it may be paused or stopped in every wait. -/
theorem allows_waiting (h : kont.isStartWait = false) :
    kont.allows .paused ∧ kont.allows .waitingForPaused ∧ kont.allows .waitingForStopped := by
  revert h
  cases kont <;> simp [isStartWait, allows]

theorem allows_running (h : kont.isStartWait = false) (hr : kont ≠ .resumeAnswered) :
    kont.allows .running := by
  revert h hr
  cases kont <;> simp [isStartWait, allows]

end Kont

namespace TaskSystem

open RunnerEvent

variable {K : Type}

instance (s : TaskSystem K) : Decidable s.OnMotion :=
  decidable_of_iff (s.currGcode.any GCodeTask.isMotionTask = true)
    (by simp [OnMotion, Option.any_eq_true])

/-! ### How far the current node is -/

/-- It is not initialised yet. -/
def Fresh (s : TaskSystem K) : Prop := s.runner.currGcodeNum ∉ inits s.history

/-- It is a motion node whose task was started. -/
def Sent (s : TaskSystem K) : Prop := s.OnMotion ∧ s.runner.currGcodeNum ∈ starts s.history

/-- It is initialised and not yet run. -/
def Ready (s : TaskSystem K) : Prop :=
  s.runner.currGcodeNum ∈ inits s.history ∧ s.runner.currGcodeNum ∉ runs s.history

/-- There is one, and it was executed. -/
def Executed (s : TaskSystem K) : Prop :=
  ∃ g, s.currGcode = some g ∧
    s.runner.currGcodeNum ∈ if g.isMotionTask then starts s.history else runs s.history

/-- A wait is under way that holds the current node. -/
def Blocked (s : TaskSystem K) : Prop := ∃ w ∈ s.waits, w.kont.holdsNode

/-- The program is taken up after a wait that is under way. -/
def TakenUp (s : TaskSystem K) : Prop := ∃ w ∈ s.waits, w.kont.takesUp

instance (s : TaskSystem K) : Decidable s.Blocked := inferInstanceAs (Decidable (∃ w ∈ s.waits, _))

instance (s : TaskSystem K) : Decidable s.TakenUp := inferInstanceAs (Decidable (∃ w ∈ s.waits, _))

/-- How far the node of a wait is. -/
def Needs (s : TaskSystem K) : Kont → Prop
  | .startAnswered .. | .resumeAnswered => s.Sent
  | .eleparamSet _ | .warningCleared => s.Executed
  | _ => True

/-- How far the current node is, by the state of the runner. -/
def Stands (s : TaskSystem K) : Prop :=
  match s.runner.state with
  | .readyToStart => s.Fresh
  | .currentNodeIniting => s.Blocked ∨ s.Fresh
  | .running | .paused => (s.OnMotion → s.Sent) ∧ (¬s.OnMotion → s.Blocked ∨ s.Ready)
  | .waitingForResumed => s.Sent
  | .waitingForPaused | .waitingForStopped | .stopped => True

/-- What the events tell: the nodes up to the current one were reached one after another, the task
of a motion node was started at most once, and any other node was run at most once. -/
structure Recorded (s : TaskSystem K) : Prop where
  reached : inits s.history = (List.range s.runner.currGcodeNum).reverse ∨
    inits s.history = (List.range (s.runner.currGcodeNum + 1)).reverse
  started : (starts s.history).Nodup
  startedReached : ∀ num ∈ starts s.history, num ∈ inits s.history
  runReached : ∀ num ∈ runs s.history, num ∈ inits s.history
  performed : ∀ num g, s.runner.gcodeList[num]? = some g → g.isMotionTask = false →
    (runs s.history).count num ≤ 1

theorem Recorded.congr {s t : TaskSystem K} (h : s.Recorded)
    (hl : t.runner.gcodeList = s.runner.gcodeList)
    (hn : t.runner.currGcodeNum = s.runner.currGcodeNum) (hh : trace t.history = trace s.history) :
    t.Recorded := by
  obtain ⟨h1, h2, h3, h4, h5⟩ := h
  unfold inits starts runs at *
  constructor <;> simp only [inits, starts, runs, hl, hn, hh] <;> assumption

/-- Nothing that the record or the waits depend on has changed. -/
structure SameNode (s t : TaskSystem K) : Prop where
  frame : Frame s t
  gcodeList : t.runner.gcodeList = s.runner.gcodeList
  currGcodeNum : t.runner.currGcodeNum = s.runner.currGcodeNum
  trace : trace t.history = trace s.history

namespace SameNode

variable {s t u : TaskSystem K}

theorem same (hk : Same s t) : SameNode s t :=
  ⟨⟨hk.motion, hk.cmdQueue, hk.nextCmd, hk.waits⟩, hk.gcodeList, hk.currGcodeNum,
    by rw [hk.history]⟩

theorem emit (s : TaskSystem K) {e : RunnerEvent} (he : e.executes = false)
    (hc : e ≠ .startCalled) : SameNode s (s.emit e) :=
  ⟨⟨⟨_, rfl⟩, rfl, rfl, rfl⟩, rfl, rfl, trace_of_not_executes he hc⟩

theorem switchTo (s : TaskSystem K) (st : GCodeRunner.State) : SameNode s (s.switchToState st) :=
  ⟨⟨⟨_, rfl⟩, rfl, rfl, rfl⟩, rfl, rfl, rfl⟩

theorem setDelayPauseFlag (s : TaskSystem K) (flag : Bool) :
    SameNode s (s.setDelayPauseFlag flag) :=
  ⟨⟨⟨_, rfl⟩, rfl, rfl, rfl⟩, rfl, rfl, rfl⟩

theorem trans (h : SameNode s t) (h' : SameNode t u) : SameNode s u := by
  refine ⟨⟨?_, ?_, ?_, ?_⟩, ?_, ?_, ?_⟩
  · obtain ⟨q, hq⟩ := h.frame.motion
    obtain ⟨q', hq'⟩ := h'.frame.motion
    exact ⟨q', by rw [hq', hq]⟩
  · exact h'.frame.cmdQueue.trans h.frame.cmdQueue
  · exact h'.frame.nextCmd.trans h.frame.nextCmd
  · exact h'.frame.waits.trans h.frame.waits
  · exact h'.gcodeList.trans h.gcodeList
  · exact h'.currGcodeNum.trans h.currGcodeNum
  · exact h'.trace.trans h.trace

theorem inits (h : SameNode s t) : inits t.history = inits s.history := by
  rw [RunnerEvent.inits, h.trace, RunnerEvent.inits]

theorem starts (h : SameNode s t) : starts t.history = starts s.history := by
  rw [RunnerEvent.starts, h.trace, RunnerEvent.starts]

theorem runs (h : SameNode s t) : runs t.history = runs s.history := by
  rw [RunnerEvent.runs, h.trace, RunnerEvent.runs]

theorem currGcode (h : SameNode s t) : t.currGcode = s.currGcode := by
  rw [TaskSystem.currGcode, h.gcodeList, h.currGcodeNum, TaskSystem.currGcode]

theorem onMotion (h : SameNode s t) : t.OnMotion ↔ s.OnMotion := by
  rw [OnMotion, h.currGcode, OnMotion]

theorem fresh (h : SameNode s t) : t.Fresh ↔ s.Fresh := by
  rw [Fresh, h.currGcodeNum, h.inits, Fresh]

theorem sent (h : SameNode s t) : t.Sent ↔ s.Sent := by
  rw [Sent, h.onMotion, h.currGcodeNum, h.starts, Sent]

theorem ready (h : SameNode s t) : t.Ready ↔ s.Ready := by
  rw [Ready, h.currGcodeNum, h.inits, h.runs, Ready]

theorem executed (h : SameNode s t) : t.Executed ↔ s.Executed := by
  rw [Executed, h.currGcode, h.currGcodeNum, h.starts, h.runs, Executed]

theorem blocked (h : SameNode s t) : t.Blocked ↔ s.Blocked := by
  rw [Blocked, h.frame.waits, Blocked]

theorem takenUp (h : SameNode s t) : t.TakenUp ↔ s.TakenUp := by
  rw [TakenUp, h.frame.waits, TakenUp]

theorem needs (h : SameNode s t) (kont : Kont) : t.Needs kont ↔ s.Needs kont := by
  cases kont with
  | startAnswered | resumeAnswered => exact h.sent
  | eleparamSet | warningCleared => exact h.executed
  | _ => exact Iff.rfl

theorem stands (h : SameNode s t) (hs : t.runner.state = s.runner.state) : t.Stands ↔ s.Stands := by
  simp only [Stands, hs, h.fresh, h.onMotion, h.sent, h.blocked, h.ready]

theorem recorded (h : SameNode s t) (hr : s.Recorded) : t.Recorded :=
  hr.congr h.gcodeList h.currGcodeNum h.trace

end SameNode

namespace Recorded

variable {s : TaskSystem K}

/-- A node that was reached is the last one of the record. -/
theorem inits_eq (h : s.Recorded) (hn : s.runner.currGcodeNum ∈ inits s.history) :
    inits s.history = (List.range (s.runner.currGcodeNum + 1)).reverse := by
  refine h.reached.resolve_left fun hi => ?_
  rw [hi, List.mem_reverse, List.mem_range] at hn
  exact lt_irrefl _ hn

theorem inits_of_fresh (h : s.Recorded) (hf : s.Fresh) :
    inits s.history = (List.range s.runner.currGcodeNum).reverse := by
  refine h.reached.resolve_right fun hi => hf ?_
  rw [hi, List.mem_reverse, List.mem_range]
  exact Nat.lt_succ_self _

/-- The current node is reached. -/
theorem enter (h : s.Recorded) (hf : s.Fresh) :
    (s.emit (.initNode s.runner.currGcodeNum)).Recorded where
  reached := by
    refine .inr ?_
    show inits (.initNode _ :: s.history) = _
    rw [inits_initNode, h.inits_of_fresh hf, List.range_succ, List.reverse_append]
    rfl
  started := by simpa only [TaskSystem.emit, starts_initNode] using h.started
  startedReached num hn := by
    simp only [TaskSystem.emit, starts_initNode, inits_initNode] at hn ⊢
    exact List.mem_cons_of_mem _ (h.startedReached num hn)
  runReached num hn := by
    simp only [TaskSystem.emit, runs_initNode, inits_initNode] at hn ⊢
    exact List.mem_cons_of_mem _ (h.runReached num hn)
  performed := by simpa only [TaskSystem.emit, runs_initNode] using h.performed

/-- The task of the current node is started. -/
theorem start (h : s.Recorded) (hn : s.runner.currGcodeNum ∈ inits s.history)
    (hs : s.runner.currGcodeNum ∉ starts s.history) :
    (s.emit (.startCommand s.runner.currGcodeNum)).Recorded where
  reached := by simpa only [TaskSystem.emit, inits_startCommand] using h.reached
  started := by
    simp only [TaskSystem.emit, starts_startCommand]
    exact List.nodup_cons.mpr ⟨hs, h.started⟩
  startedReached num hm := by
    simp only [TaskSystem.emit, starts_startCommand, inits_startCommand] at hm ⊢
    rcases List.mem_cons.mp hm with rfl | hm
    · exact hn
    · exact h.startedReached num hm
  runReached := by
    simpa only [TaskSystem.emit, runs_startCommand, inits_startCommand] using h.runReached
  performed := by simpa only [TaskSystem.emit, runs_startCommand] using h.performed

/-- The current node is run: a motion node, or another for the first time. -/
theorem run (h : s.Recorded) (hn : s.runner.currGcodeNum ∈ inits s.history)
    (hr : s.OnMotion ∨ s.runner.currGcodeNum ∉ runs s.history) :
    (s.emit (.runNode s.runner.currGcodeNum)).Recorded where
  reached := by simpa only [TaskSystem.emit, inits_runNode] using h.reached
  started := by simpa only [TaskSystem.emit, starts_runNode] using h.started
  startedReached := by
    simpa only [TaskSystem.emit, starts_runNode, inits_runNode] using h.startedReached
  runReached num hm := by
    simp only [TaskSystem.emit, runs_runNode, inits_runNode] at hm ⊢
    rcases List.mem_cons.mp hm with rfl | hm
    · exact hn
    · exact h.runReached num hm
  performed num g hg hm := by
    simp only [TaskSystem.emit, runs_runNode]
    by_cases he : num = s.runner.currGcodeNum
    · subst he
      have hnew : s.runner.currGcodeNum ∉ runs s.history := by
        refine hr.resolve_left ?_
        rintro ⟨g', hg', hm'⟩
        rw [currGcode, show s.runner.gcodeList[s.runner.currGcodeNum]? = some g from hg] at hg'
        cases hg'
        simp [hm] at hm'
      rw [List.count_cons_self, List.count_eq_zero_of_not_mem hnew]
    · rw [List.count_cons_of_ne (Ne.symm he)]
      exact h.performed num g hg hm

end Recorded

/-! ### The laws of nodes and waits -/

section Laws

variable [Field K] [LinearOrder K]

/-- The record, and the waits. -/
structure NodeWaits (s : TaskSystem K) : Prop extends Recorded s where
  /-- What runs or is about to was started for the current node. -/
  own : s.TaskRuns ∨ s.StartQueued → s.runner.currGcodeNum ∈ starts s.history
  single : s.waits.countP (·.kont.takesUp) ≤ 1
  inside : ∀ w ∈ s.waits, w.kont.isStartWait → ∀ w' ∈ s.waits, w'.kont.insideStart
  allows : ∀ w ∈ s.waits, w.kont.allows s.runner.state
  needs : ∀ w ∈ s.waits, s.Needs w.kont

structure NodeLaw (s : TaskSystem K) : Prop extends NodeWaits s where
  stands : s.Stands

variable {s t : TaskSystem K}

theorem AtRest.own (h : s.AtRest) {p : Prop} : s.TaskRuns ∨ s.StartQueued → p :=
  fun hr => hr.elim (fun hr => absurd hr h.1) fun hq => absurd hq h.2

namespace NodeWaits

theorem same (h : s.NodeWaits) (hn : SameNode s t)
    (ha : ∀ w ∈ s.waits, w.kont.allows t.runner.state) : t.NodeWaits where
  toRecorded := hn.recorded h.toRecorded
  own hr := by
    rw [hn.currGcodeNum, hn.starts]
    refine h.own (hr.imp (fun hr => ?_) fun hq => ?_)
    · rwa [TaskRuns, hn.frame.motionStateMachine] at hr
    · rwa [StartQueued, hn.frame.cmdQueue] at hq
  single := by
    rw [hn.frame.waits]
    exact h.single
  inside := by
    rw [hn.frame.waits]
    exact h.inside
  allows := by
    rw [hn.frame.waits]
    exact ha
  needs w hw := (hn.needs w.kont).mpr (h.needs w (hn.frame.waits ▸ hw))

/-- Over, all that is left is the record. -/
theorem stopped (h : s.NodeWaits) (hn : SameNode s t) (hs : t.runner.state = .stopped) :
    t.NodeLaw := by
  refine ⟨h.same hn fun w _ => ?_, ?_⟩
  · rw [hs]
    exact Kont.allows_stopped
  · simp only [Stands, hs]

theorem pop (h : s.NodeWaits) {w : Wait} {rest : List Wait} (hw : s.waits = w :: rest) :
    ({ s with waits := rest } : TaskSystem K).NodeWaits where
  toRecorded := h.toRecorded.congr rfl rfl rfl
  own := h.own
  single := by
    refine le_trans ?_ h.single
    rw [hw, List.countP_cons]
    exact Nat.le_add_right _ _
  inside w₁ h₁ hk w₂ h₂ :=
    h.inside w₁ (hw ▸ List.mem_cons_of_mem _ h₁) hk w₂ (hw ▸ List.mem_cons_of_mem _ h₂)
  allows w' hw' := h.allows w' (hw ▸ List.mem_cons_of_mem _ hw')
  needs w' hw' := h.needs w' (hw ▸ List.mem_cons_of_mem _ hw')

/-- After the wait that takes up the program there is no other. -/
theorem not_takenUp (h : s.NodeWaits) {w : Wait} {rest : List Wait} (hw : s.waits = w :: rest)
    (hk : w.kont.takesUp) : ¬({ s with waits := rest } : TaskSystem K).TakenUp := by
  have hsingle := h.single
  rw [hw, List.countP_cons_of_pos (by simpa using hk)] at hsingle
  rintro ⟨w', hw', hk'⟩
  have hpos : 0 < rest.countP (·.kont.takesUp) := List.countP_pos_iff.mpr ⟨w', hw', hk'⟩
  omega

/-- A wait that begins. -/
theorem waitFor (h : s.NodeWaits) {cmd : MotionCommand K} {timeoutMs : Option ℕ} {kont : Kont}
    (hc : cmd.isStart → s.runner.currGcodeNum ∈ starts s.history)
    (hk : kont.takesUp → ¬s.TakenUp) (hi : kont.isStartWait → ∀ w ∈ s.waits, w.kont.insideStart)
    (hin : ∀ w ∈ s.waits, w.kont.isStartWait → kont.insideStart)
    (ha : kont.allows s.runner.state) (hn : s.Needs kont) :
    (s.waitFor cmd timeoutMs kont).NodeWaits where
  toRecorded := h.toRecorded.congr rfl rfl rfl
  own hr := by
    refine hr.elim (fun hr => h.own (.inl hr)) fun hq => ?_
    exact (startQueued_push.mp hq).elim (fun hq => h.own (.inr hq)) hc
  single := by
    show (⟨s.nextCmd, timeoutMs, kont, none⟩ :: s.waits).countP (·.kont.takesUp) ≤ 1
    by_cases hup : kont.takesUp
    · rw [List.countP_cons_of_pos (by simpa using hup)]
      have hnone : s.waits.countP (·.kont.takesUp) = 0 := by
        refine List.countP_eq_zero.mpr fun w hw hk' => hk hup ⟨w, hw, hk'⟩
      omega
    · rw [List.countP_cons_of_neg (by simpa using hup)]
      exact h.single
  inside w₁ h₁ hk₁ w₂ h₂ := by
    rcases List.mem_cons.mp h₁ with rfl | h₁ <;> rcases List.mem_cons.mp h₂ with rfl | h₂
    · revert hk₁
      cases kont <;> simp [Kont.isStartWait, Kont.insideStart]
    · exact hi hk₁ w₂ h₂
    · exact hin w₁ h₁ hk₁
    · exact h.inside w₁ h₁ hk₁ w₂ h₂
  allows w hw := by
    rcases List.mem_cons.mp hw with rfl | hw
    · exact ha
    · exact h.allows w hw
  needs w hw := by
    rcases List.mem_cons.mp hw with rfl | hw
    · exact hn
    · exact h.needs w hw

/-- Where the start of a node is waited for, the node is prepared or the program over. -/
theorem not_startWait (h : s.NodeWaits) (hi : s.runner.state ≠ .currentNodeIniting)
    (ha : s.Alive) : ∀ w ∈ s.waits, w.kont.isStartWait = false := by
  intro w hw
  have hall := h.allows w hw
  revert hall
  cases w.kont <;> simp [Kont.isStartWait, Kont.allows]
  exact ⟨hi, ha⟩

end NodeWaits

theorem stands_initing (hs : s.runner.state = .currentNodeIniting) (h : s.Blocked ∨ s.Fresh) :
    s.Stands := by
  unfold Stands
  rw [hs]
  exact h

theorem stands_running (hs : s.runner.state = .running)
    (h : (s.OnMotion → s.Sent) ∧ (¬s.OnMotion → s.Blocked ∨ s.Ready)) : s.Stands := by
  unfold Stands
  rw [hs]
  exact h

/-- How far the node is does not depend on the waits, but for the one that holds it. -/
theorem Stands.congr (h : s.Stands) (hr : t.runner = s.runner) (hh : t.history = s.history)
    (hb : s.Blocked → t.Blocked) : t.Stands := by
  unfold Stands Fresh Sent Ready OnMotion currGcode at *
  rw [hr, hh]
  cases hs : s.runner.state with
  | currentNodeIniting =>
    rw [hs] at h
    exact h.imp_left hb
  | running | paused =>
    rw [hs] at h
    exact ⟨h.1, fun hn => (h.2 hn).imp_left hb⟩
  | _ =>
    rw [hs] at h
    exact h

theorem Stands.waitFor {cmd : MotionCommand K} {timeoutMs : Option ℕ} {kont : Kont} (h : s.Stands) :
    (s.waitFor cmd timeoutMs kont).Stands := by
  refine h.congr rfl rfl ?_
  rintro ⟨w, hw, hk⟩
  exact ⟨w, List.mem_cons_of_mem _ hw, hk⟩

namespace NodeLaw

theorem same (h : s.NodeLaw) (hn : SameNode s t) (hs : t.runner.state = s.runner.state) :
    t.NodeLaw :=
  ⟨h.toNodeWaits.same hn fun w hw => hs ▸ h.allows w hw, (hn.stands hs).mpr h.stands⟩

/-- The runner is in another state, on the same node. -/
theorem switchTo (h : s.NodeWaits) {st : GCodeRunner.State} (ha : ∀ w ∈ s.waits, w.kont.allows st)
    (hs : (s.switchToState st).Stands) : (s.switchToState st).NodeLaw :=
  ⟨h.same (.switchTo s st) ha, hs⟩

theorem emit (h : s.NodeLaw) {e : RunnerEvent} (he : e.executes = false) (hc : e ≠ .startCalled) :
    (s.emit e).NodeLaw := h.same (.emit s he hc) rfl

/-- A wait that does not take up the program, and may begin while a start is waited for. -/
theorem waitFor (h : s.NodeLaw) {cmd : MotionCommand K} {timeoutMs : Option ℕ} {kont : Kont}
    (hc : cmd.isStart = false) (hk : kont.takesUp = false)
    (hin : ∀ w ∈ s.waits, w.kont.isStartWait → kont.insideStart) :
    (s.waitFor cmd timeoutMs kont).NodeLaw := by
  have hstart : kont.isStartWait = false := by
    revert hk
    cases kont <;> simp [Kont.takesUp, Kont.isStartWait]
  refine ⟨h.toNodeWaits.waitFor (by simp [hc]) (by simp [hk]) (by simp [hstart]) hin ?_ ?_, ?_⟩
  · revert hk
    cases kont <;> simp [Kont.takesUp, Kont.allows]
  · revert hk
    cases kont <;> simp [Kont.takesUp, Needs]
  · exact h.stands.waitFor

theorem abort (h : s.NodeLaw) (err : String) (caller : AbortCaller) :
    (s.abort err caller).NodeLaw :=
  h.waitFor rfl rfl fun _ _ _ => rfl

end NodeLaw

end Laws

end TaskSystem

end Edm
