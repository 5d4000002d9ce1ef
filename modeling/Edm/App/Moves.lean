import Edm.App.TaskSystem
import Edm.Motion.ThreadCases

/-!
# What an event can do to the runner

Every function of the runner is a sequence of a few moves: it emits, it switches the state, it goes on
in the program, it ends the run. `Moves` says which of them are possible in which state. A function that
sends a command waits for it, and what it does up to there is all it does: `Runs` is moves with at most
one wait at their end. Polls and requests are `Runs` (`runOnce_runs`, `pause_runs`, `resume_runs`,
`estop_runs`); the results about the runner are proved from these, not from its functions.
-/

set_option linter.unusedSectionVars false

namespace Edm

variable {K : Type}

namespace TaskSystem

/-- The current node is a motion node. -/
def OnMotion (s : TaskSystem K) : Prop := ∃ g, s.currGcode = some g ∧ g.isMotionTask

/-- The motion side shows that a task that is stopped has ended. -/
def TaskEnded (i : MotionInfo K) : Prop :=
  i.mainMode = .idle ∨ i.mainMode = .auto ∧ i.autoState = .stopped

/-- A poll in one of the waiting states finds the motion side in a state that does not fit. -/
def Mismatch (s : TaskSystem K) : Prop :=
  let i := s.motion.infoCache
  match s.runner.state with
  | .waitingForPaused => ¬(i.mainMode = .auto ∧ (i.autoState = .paused ∨ i.autoState = .pausing))
  | .waitingForResumed =>
    i.mainMode = .manual ∨ i.mainMode = .auto ∧ i.autoState = .pausing
  | .waitingForStopped =>
    ¬(TaskEnded i ∨ i.mainMode = .auto ∧ i.autoState = .stopping)
  | _ => False

/-- Which events are emitted in which state, other than ends, calls and mismatches. -/
def MayEmit (st : GCodeRunner.State) : RunnerEvent → Prop
  | .initNode _ | .startCommand _ => st = .currentNodeIniting
  | .runNode _ => st = .running
  | .autoStopped _ | .startCalled | .startReturned _ | .stopReturned _ | .stateMismatch => False
  | _ => True

/-- Which states a function switches to, other than by going on in the program or an end. -/
def MaySwitch (s : TaskSystem K) : GCodeRunner.State → Prop
  | .currentNodeIniting => s.runner.state = .readyToStart
  | .running =>
    s.runner.state = .currentNodeIniting ∧ ¬s.OnMotion ∨ s.runner.state = .waitingForResumed ∨
      s.runner.state = .paused
  | .paused =>
    s.runner.state = .running ∨ s.runner.state = .waitingForResumed ∨
      s.runner.state = .waitingForPaused
  | _ => False

/-- Which commands are waited for, and for how long. A node is started only where `init` holds. -/
def MayWait (init : Prop) (s : TaskSystem K) (cmd : MotionCommand K)
    (timeoutMs : Option ℕ) : Kont → Prop
  | .startAnswered .. =>
    init ∧ s.runner.state = .currentNodeIniting ∧ s.OnMotion ∧ cmd.isStart
  | .eleparamSet _ =>
    s.runner.state = .running ∧ ¬s.OnMotion ∧ cmd.isSetting ∧ timeoutMs = none
  | .warningCleared =>
    s.runner.state = .running ∧ s.motion.infoCache.mainMode = .idle ∧ cmd.isSetting
  | .aborted _ caller =>
    caller ≠ .start ∧ cmd = .manualEmergencyStopAllMove ∧ timeoutMs = none
  | .pauseAnswered _ =>
    (s.runner.state = .running ∨ s.runner.state = .waitingForResumed) ∧ cmd = .autoPause ∧
      timeoutMs = none
  | .resumeAnswered => s.runner.state = .paused ∧ cmd = .autoResume ∧ timeoutMs = none
  | .estopAnswered => cmd = .manualEmergencyStopAllMove ∧ timeoutMs = none
  | .stopAnswered _ | .stopEstopAnswered | .other => False

/-- Nothing the results look at has changed; signals may have been consumed. -/
structure Same (s t : TaskSystem K) : Prop where
  state : t.runner.state = s.runner.state
  gcodeList : t.runner.gcodeList = s.runner.gcodeList
  currGcodeNum : t.runner.currGcodeNum = s.runner.currGcodeNum
  updateTimerActive : t.runner.updateTimerActive = s.runner.updateTimerActive
  motion : ∃ q, t.motion = { s.motion with motionSignalQueue := q }
  cmdQueue : t.cmdQueue = s.cmdQueue
  nextCmd : t.nextCmd = s.nextCmd
  waits : t.waits = s.waits
  history : t.history = s.history

theorem Same.refl (s : TaskSystem K) : Same s s :=
  ⟨rfl, rfl, rfl, rfl, ⟨_, rfl⟩, rfl, rfl, rfl, rfl⟩

/-- The next node is current. -/
def nextNum (s : TaskSystem K) : TaskSystem K :=
  { s with runner := { s.runner with currGcodeNum := s.runner.currGcodeNum + 1 } }

/-- From `s` to the system after a sequence of moves. The program goes on only where `A` allows it. -/
inductive Moves (A : TaskSystem K → Prop) (s : TaskSystem K) : TaskSystem K → Prop where
  | refl : Moves A s s
  | keep {t t' : TaskSystem K} (h : Moves A s t) (hk : Same t t') : Moves A s t'
  | emit {t : TaskSystem K} (e : RunnerEvent) (h : Moves A s t) (he : MayEmit t.runner.state e) :
      Moves A s (t.emit e)
  | mismatch {t : TaskSystem K} (h : Moves A s t) (hm : t.Mismatch) : Moves A s (t.emit .stateMismatch)
  | switchTo {t : TaskSystem K} (st : GCodeRunner.State) (h : Moves A s t) (hs : t.MaySwitch st) :
      Moves A s (t.switchToState st)
  | nextNode {t : TaskSystem K} (h : Moves A s t) (ha : A t) :
      Moves A s (t.nextNum.switchToState .currentNodeIniting)
  /-- Behind the last node; an abort follows. -/
  | overflow {t : TaskSystem K} (h : Moves A s t) (ha : A t)
      (hl : t.runner.gcodeList.length ≤ t.runner.currGcodeNum + 1) : Moves A s t.nextNum
  | end_ {t : TaskSystem K} (h : Moves A s t)
      (he : t.runner.state = .running ∧ ¬t.OnMotion ∨
        t.runner.state = .waitingForStopped ∧ TaskEnded t.motion.infoCache) :
      Moves A s t.end_

/-- A function of the runner, up to its end or its first wait. -/
inductive Runs (init : Prop) (A : TaskSystem K → Prop) (s : TaskSystem K) : TaskSystem K → Prop where
  | through {t : TaskSystem K} (h : Moves A s t) : Runs init A s t
  | waits {t : TaskSystem K} (cmd : MotionCommand K) (timeoutMs : Option ℕ) (kont : Kont)
      (h : Moves A s t) (hw : MayWait init t cmd timeoutMs kont) :
      Runs init A s (t.waitFor cmd timeoutMs kont)

/-- A function that other functions call. -/
inductive Flows (init : Prop) (A : TaskSystem K → Prop) (s : TaskSystem K) : Flow K → Prop where
  | through {t : TaskSystem K} (h : Moves A s t) : Flows init A s (t, true)
  | waits {t : TaskSystem K} (cmd : MotionCommand K) (timeoutMs : Option ℕ) (kont : Kont)
      (h : Moves A s t) (hw : MayWait init t cmd timeoutMs kont) :
      Flows init A s (t.waitFor cmd timeoutMs kont, false)

/-- A poll goes on in the program while it prepares a node, and once the current one is over. -/
def Passes (s : TaskSystem K) : Prop :=
  s.runner.state = .currentNodeIniting ∨
    s.runner.state = .running ∧ (¬s.OnMotion ∨ s.motion.infoCache.mainMode = .idle)

/-- A request does not go on in the program. -/
def Never (_ : TaskSystem K) : Prop := False

section Rules

variable {A : TaskSystem K → Prop} {s t u : TaskSystem K}

theorem Moves.trans (h : Moves A s t) (h' : Moves A t u) : Moves A s u := by
  induction h' with
  | refl => exact h
  | keep _ hk ih => exact .keep ih hk
  | emit e _ he ih => exact .emit e ih he
  | mismatch _ hm ih => exact .mismatch ih hm
  | switchTo st _ hs ih => exact .switchTo st ih hs
  | nextNode _ ha ih => exact .nextNode ih ha
  | overflow _ ha hl ih => exact .overflow ih ha hl
  | end_ _ he ih => exact .end_ ih he

theorem Moves.mono {B : TaskSystem K → Prop} (hAB : ∀ t, A t → B t) (h : Moves A s t) :
    Moves B s t := by
  induction h with
  | refl => exact .refl
  | keep _ hk ih => exact .keep ih hk
  | emit e _ he ih => exact .emit e ih he
  | mismatch _ hm ih => exact .mismatch ih hm
  | switchTo st _ hs ih => exact .switchTo st ih hs
  | nextNode _ ha ih => exact .nextNode ih (hAB _ ha)
  | overflow _ ha hl ih => exact .overflow ih (hAB _ ha) hl
  | end_ _ he ih => exact .end_ ih he

/-- Moves do not touch the motion side, the commands or the waits. -/
structure Frame (s t : TaskSystem K) : Prop where
  motion : ∃ q, t.motion = { s.motion with motionSignalQueue := q }
  cmdQueue : t.cmdQueue = s.cmdQueue
  nextCmd : t.nextCmd = s.nextCmd
  waits : t.waits = s.waits

theorem Moves.frame (h : Moves A s t) : Frame s t := by
  induction h with
  | refl => exact ⟨⟨_, rfl⟩, rfl, rfl, rfl⟩
  | keep _ hk ih =>
    obtain ⟨q, hq⟩ := hk.motion
    obtain ⟨q', hq'⟩ := ih.motion
    refine ⟨⟨q, ?_⟩, hk.cmdQueue.trans ih.cmdQueue, hk.nextCmd.trans ih.nextCmd,
      hk.waits.trans ih.waits⟩
    rw [hq, hq']
  | emit _ _ _ ih | mismatch _ _ ih | switchTo _ _ _ ih | nextNode _ _ ih | overflow _ _ _ ih
  | end_ _ _ ih => exact ⟨ih.motion, ih.cmdQueue, ih.nextCmd, ih.waits⟩

theorem Frame.infoCache (h : Frame s t) : t.motion.infoCache = s.motion.infoCache := by
  obtain ⟨q, hq⟩ := h.motion
  rw [hq]

theorem Frame.motionStateMachine (h : Frame s t) :
    t.motion.motionStateMachine = s.motion.motionStateMachine := by
  obtain ⟨q, hq⟩ := h.motion
  rw [hq]

theorem Moves.keepDelayPauseFlag (flag : Bool) (h : Moves A s t) :
    Moves A s (t.setDelayPauseFlag flag) :=
  .keep h ⟨rfl, rfl, rfl, rfl, ⟨_, rfl⟩, rfl, rfl, rfl, rfl⟩

theorem Moves.drillRecordData (start : Bool) (h : Moves A s t) :
    Moves A s (t.drillRecordData start) := by
  unfold TaskSystem.drillRecordData
  split
  · exact .emit _ h trivial
  · exact h

theorem Flows.abort {init : Prop} {err : String} {caller : AbortCaller} (h : Moves A s t)
    (hc : caller ≠ .start) : Flows init A s (t.abort err caller, false) :=
  .waits _ _ _ h ⟨hc, rfl, rfl⟩

theorem Flows.after {init : Prop} {f : Flow K} (h : Moves A s t) (h' : Flows init A t f) :
    Flows init A s f := by
  cases h' with
  | through h' => exact .through (h.trans h')
  | waits cmd timeoutMs kont h' hw => exact .waits cmd timeoutMs kont (h.trans h') hw

end Rules

section Functions

variable {init : Prop} {A : TaskSystem K → Prop} {s : TaskSystem K} {g : GCodeTask K} [Settings]

theorem drillRecordData_state (start : Bool) :
    (s.drillRecordData start).runner = s.runner ∧
      (s.drillRecordData start).motion = s.motion := by
  unfold drillRecordData
  split <;> exact ⟨rfl, rfl⟩

theorem stopRecording_state :
    (s.stopRecording g).runner = s.runner ∧ (s.stopRecording g).motion = s.motion := by
  unfold stopRecording
  split
  · split
    · exact drillRecordData_state false
    · exact ⟨rfl, rfl⟩
  · exact ⟨rfl, rfl⟩

theorem stopRecording_moves : Moves A s (s.stopRecording g) := by
  unfold stopRecording
  split
  · split
    · exact Moves.refl.drillRecordData false
    · exact .refl
  · exact .refl

/-- `A` looks at nothing but the state, the node and the motion side. -/
def Local (A : TaskSystem K → Prop) : Prop :=
  ∀ s t : TaskSystem K, t.runner = s.runner → t.motion = s.motion → A s → A t

theorem passes_local : Local (Passes (K := K)) := by
  intro s t hr hm h
  simpa only [Passes, OnMotion, currGcode, hr, hm] using h

/-- `A` lets a poll go on from every node but the end of the program. -/
structure LetsPass (A : TaskSystem K → Prop) : Prop where
  isLocal : Local A
  passes : ∀ {s : TaskSystem K} {g : GCodeTask K}, s.currGcode = some g → g.node ≠ .programEnd →
    s.Passes → A s

theorem passes_letsPass : LetsPass (Passes (K := K)) := ⟨passes_local, fun _ _ h => h⟩

theorem checkToNextGcode_flows (hl : Local A) (hA : A s) : Flows init A s (s.checkToNextGcode g) := by
  obtain ⟨hr, hm⟩ := stopRecording_state (s := s) (g := g)
  have hA := hl s _ hr hm hA
  unfold checkToNextGcode
  dsimp only
  split
  · rename_i hl
    exact Flows.abort (.overflow stopRecording_moves hA hl) (by simp)
  · exact .through (.keep (.nextNode stopRecording_moves hA)
      ⟨rfl, rfl, rfl, rfl, ⟨_, rfl⟩, rfl, rfl, rfl, rfl⟩)

theorem nextGcode_flows (hl : Local A) (hA : A s) : Flows init A s s.nextGcode := by
  unfold nextGcode
  split
  · exact .through .refl
  · exact checkToNextGcode_flows hl hA

/-- `pause` has a result, or waits. -/
theorem pause_cases (caller : PauseCaller) :
    (∃ t ret, s.pause caller = (t, some ret) ∧ Moves A s t) ∨
      s.pause caller = (s.waitFor .autoPause none (.pauseAnswered caller), none) ∧
        ∀ init, MayWait init s .autoPause none (.pauseAnswered caller) := by
  unfold pause
  split
  · exact .inl ⟨s, false, rfl, .refl⟩
  · split
    · exact .inl ⟨s, false, rfl, .refl⟩
    · cases hs : s.runner.state with
      | waitingForResumed =>
        dsimp only
        split
        · exact .inl ⟨_, true, rfl, .emit _ (.switchTo _ .refl (.inr (.inl hs))) trivial⟩
        · exact .inr ⟨rfl, fun _ => ⟨.inr hs, rfl, rfl⟩⟩
      | running =>
        dsimp only
        split
        · exact .inl ⟨_, true, rfl, .emit _ (.switchTo _ .refl (.inl hs)) trivial⟩
        · exact .inr ⟨rfl, fun _ => ⟨.inl hs, rfl, rfl⟩⟩
      | currentNodeIniting => exact .inl ⟨_, false, rfl, Moves.refl.keepDelayPauseFlag true⟩
      | waitingForPaused | paused => exact .inl ⟨s, true, rfl, .refl⟩
      | waitingForStopped | stopped | readyToStart => exact .inl ⟨s, false, rfl, .refl⟩

theorem pause_runs (caller : PauseCaller) : Runs init A s (s.pause caller).1 := by
  obtain ⟨t, ret, h, hm⟩ | ⟨h, hw⟩ := pause_cases (A := A) (s := s) caller
  · rw [h]
    exact .through hm
  · rw [h]
    exact .waits _ _ _ .refl (hw _)

theorem thenTail_runs {f : Flow K} (h : Flows init A s f) : Runs init A s (thenTail f) := by
  cases h with
  | @through t h =>
    show Runs init A s t.runOnceTail
    unfold runOnceTail
    split
    · obtain ⟨u, ret, hp, hm⟩ | ⟨hp, hw⟩ := pause_cases (A := A) (s := t) .runOnce
      · rw [hp]
        cases ret with
        | true => exact .through ((h.trans hm).keepDelayPauseFlag false)
        | false => exact .through (h.trans hm)
      · rw [hp]
        exact .waits _ _ _ h (hw _)
    · exact .through h
  | waits cmd timeoutMs kont h hw => exact .waits cmd timeoutMs kont h hw

theorem resume_runs : Runs init A s s.resume := by
  unfold resume
  split
  · exact .through .refl
  · split
    · exact .through .refl
    · split
      · rename_i hs
        split
        · exact .through (.emit _ (.switchTo _ .refl (.inr (.inr hs))) trivial)
        · exact .waits _ _ _ .refl ⟨hs, rfl, rfl⟩
      · exact .through .refl

theorem estop_runs : Runs init A s s.estop := .waits _ _ _ .refl ⟨rfl, rfl⟩

end Functions

section Polls

variable [Field K] [LinearOrder K] [FloorRing K] [RealFns K] [Settings] {init : Prop}
  {A : TaskSystem K → Prop} {s : TaskSystem K} {g : GCodeTask K}

theorem prepare_send_isStart {st : TaskSettings K} {cm : CoordinateManager K} {pos : Axis K}
    {node : GCodeNode K} {cmd : MotionCommand K} {timeoutMs : Option ℕ} {err : String}
    (h : GCodeRunner.prepare st cm pos node = .send cmd timeoutMs err) : cmd.isStart := by
  cases node with
  | g00Motion =>
    simp only [GCodeRunner.prepare, GCodeRunner.prepareG00] at h
    split at h
    · cases h
    · split at h
      · cases h
      · split at h
        · cases h
        · split at h <;> cases h
          rfl
  | g01Motion =>
    simp only [GCodeRunner.prepare, GCodeRunner.prepareG01] at h
    split at h
    · cases h
    · split at h
      · cases h
      · split at h
        · cases h
        · split at h <;> cases h
          rfl
  | delay => cases h; rfl
  | pauseCommand => cases h; rfl
  | drillMotion =>
    simp only [GCodeRunner.prepare, GCodeRunner.prepareDrill] at h
    split at h
    · cases h
    · split at h <;> cases h
      rfl
  | g01GroupMotion =>
    simp only [GCodeRunner.prepare] at h
    split at h <;> cases h
    rfl
  | _ => cases h

/-- A function of the runner that goes on to the next node of a poll. -/
theorem checkToNextGcode_polls (hA : LetsPass A) (hp : s.Passes) (hg : s.currGcode = some g)
    (hn : g.node ≠ .programEnd) : Flows init A s (s.checkToNextGcode g) :=
  checkToNextGcode_flows hA.isLocal (hA.passes hg hn hp)

theorem ne_programEnd_of_isMotionTask (hm : g.isMotionTask) : g.node ≠ .programEnd := by
  intro hn
  simp [GCodeTask.isMotionTask, hn] at hm

theorem not_onMotion (hg : s.currGcode = some g) (hm : g.isMotionTask = false) : ¬s.OnMotion := by
  rintro ⟨g', hg', hm'⟩
  rw [hg] at hg'
  cases hg'
  simp [hm] at hm'

theorem stateCurrentNodeIniting_flows {info : MotionInfo K} (hA : LetsPass A)
    (hs : s.runner.state = .currentNodeIniting) :
    Flows (s.runner.state = .currentNodeIniting) A s (s.stateCurrentNodeIniting info) := by
  unfold stateCurrentNodeIniting
  split
  · exact .through .refl
  · rename_i g hg
    have h : Moves A s ((s.emit (.initNode s.runner.currGcodeNum)).emit
        (.autogcodeSwitchedToLine g.lineNumber)) := .emit _ (.emit _ .refl hs) trivial
    dsimp only
    split
    · rename_i hm
      exact .through (.switchTo _ h (.inl ⟨hs, not_onMotion (s := s) hg (by simpa using hm)⟩))
    · rename_i hm
      have hm : g.isMotionTask := by simpa using hm
      split
      · exact Flows.abort h (by simp)
      · exact Flows.after h
          (checkToNextGcode_polls hA (.inl hs) hg (ne_programEnd_of_isMotionTask hm))
      · exact .through h
      · rename_i hsend
        exact .waits _ _ _ (.emit _ h hs)
          ⟨hs, hs, ⟨g, hg, hm⟩, prepare_send_isStart hsend⟩

theorem stateRunningNonMotion_flows {info : MotionInfo K} (hA : LetsPass A)
    (hs : s.runner.state = .running) (hg : s.currGcode = some g) (hm : ¬s.OnMotion) :
    Flows init A s (s.stateRunningNonMotion info g) := by
  have hp : s.Passes := .inr ⟨hs, .inl hm⟩
  unfold stateRunningNonMotion
  split
  · exact .through (.end_ .refl (.inl ⟨hs, hm⟩))
  · rename_i index hnode
    split
    · exact Flows.abort .refl (by simp)
    · have h : Moves A s { s.emit (.switchCoordindex (uint32 index)) with
          currCoordIndex := uint32 index } :=
        .keep (.emit (.switchCoordindex (uint32 index)) .refl trivial)
          ⟨rfl, rfl, rfl, rfl, ⟨_, rfl⟩, rfl, rfl, rfl, rfl⟩
      exact Flows.after h (checkToNextGcode_polls hA hp hg (by simp [hnode]))
  · split
    · exact Flows.abort .refl (by simp)
    · exact .waits _ _ _ .refl ⟨hs, hm, rfl, rfl⟩
  · rename_i hnode
    split
    · exact Flows.abort .refl (by simp)
    · dsimp only
      split
      · exact Flows.abort .refl (by simp)
      · rename_i cm _
        have h : Moves A s { s.emit .coordOffsetChanged with coords := cm } :=
          .keep (.emit .coordOffsetChanged .refl trivial)
            ⟨rfl, rfl, rfl, rfl, ⟨_, rfl⟩, rfl, rfl, rfl, rfl⟩
        exact Flows.after h (checkToNextGcode_polls hA hp hg (by simp [hnode]))
  · rename_i hnode
    exact checkToNextGcode_polls hA hp hg (by simp [hnode])
  · rename_i hnode
    exact checkToNextGcode_polls hA hp hg (by simp [hnode])
  · exact .through .refl

theorem stateRunningIdle_flows {info : MotionInfo K} (hA : LetsPass A)
    (hs : s.runner.state = .running) (hi : s.motion.infoCache.mainMode = .idle)
    (hg : s.currGcode = some g) (hn : g.node ≠ .programEnd) :
    Flows init A s (s.stateRunningIdle info g) := by
  have hnext : Flows init A s (s.checkToNextGcode g) :=
    checkToNextGcode_polls hA (.inr ⟨hs, .inr hi⟩) hg hn
  unfold stateRunningIdle
  split
  · split
    · exact hnext
    · split
      · exact .waits _ _ _ .refl ⟨hs, hi, rfl⟩
      · exact Flows.abort .refl (by simp)
  · exact hnext

theorem showSubLine_moves (info : MotionInfo K) :
    Moves A s (s.showSubLine info g) ∧ (s.showSubLine info g).runner = s.runner ∧
      (s.showSubLine info g).motion = s.motion := by
  unfold showSubLine
  split
  · exact ⟨.emit _ .refl trivial, rfl, rfl⟩
  · exact ⟨.refl, rfl, rfl⟩

theorem stateRunning_flows (hA : LetsPass A) (hs : s.runner.state = .running) :
    Flows init A s (s.stateRunning s.motion.infoCache) := by
  unfold stateRunning
  split
  · exact .through .refl
  · rename_i g hg
    have h : Moves A s (s.emit (.runNode s.runner.currGcodeNum)) := .emit _ .refl hs
    dsimp only
    split
    · rename_i hm
      exact Flows.after h
        (stateRunningNonMotion_flows hA hs hg (not_onMotion (s := s) hg (by simpa using hm)))
    · rename_i hmotion
      have hn : g.node ≠ .programEnd := ne_programEnd_of_isMotionTask (by simpa using hmotion)
      obtain ⟨hm, hr, hmot⟩ := showSubLine_moves (A := A)
        (s := s.emit (.runNode s.runner.currGcodeNum)) (g := g) s.motion.infoCache
      have hrun := (congrArg GCodeRunner.state hr).trans hs
      have h := h.trans hm
      split
      · split
        · exact .through (.emit _ ((Moves.switchTo .paused h (.inl hrun)).keepDelayPauseFlag false) trivial)
        · exact .through h
      · rename_i hi
        refine Flows.after h (stateRunningIdle_flows hA hrun (by rw [hmot]; exact hi) ?_ hn)
        rw [currGcode, hr]
        exact hg
      · exact Flows.abort h (by simp)

theorem mismatch_flows {err : String} (hm : s.Mismatch) : Flows init A s (s.mismatch err) :=
  Flows.abort (.mismatch .refl hm) (by simp)

theorem stateWaitingForPaused_flows (hs : s.runner.state = .waitingForPaused) :
    Flows init A s (s.stateWaitingForPaused s.motion.infoCache) := by
  unfold stateWaitingForPaused
  split
  · rename_i hmode
    split
    · exact .through (.emit _ ((Moves.switchTo .paused .refl (.inr (.inr hs))).keepDelayPauseFlag false)
        trivial)
    · exact .through .refl
    · rename_i h1 h2
      exact mismatch_flows (by simpa [Mismatch, hs, hmode] using ⟨h1, h2⟩)
  · rename_i hmode
    exact mismatch_flows (by simp [Mismatch, hs, hmode])
  · rename_i hmode
    exact mismatch_flows (by simp [Mismatch, hs, hmode])

theorem stateWaitingForResumed_flows (hs : s.runner.state = .waitingForResumed) :
    Flows init A s (s.stateWaitingForResumed s.motion.infoCache) := by
  have hrun : Flows init A s ((s.switchToState .running).emit .autoResumed, true) :=
    .through (.emit _ (.switchTo _ .refl (.inr (.inl hs))) trivial)
  unfold stateWaitingForResumed
  split
  · rename_i hmode
    cases hst : s.motion.infoCache.autoState with
    | pausing => exact mismatch_flows (by simp [Mismatch, hs, hmode, hst])
    | paused | resuming => exact .through .refl
    | _ => exact hrun
  · exact hrun
  · rename_i hmode
    exact mismatch_flows (by simp [Mismatch, hs, hmode])

theorem endStopped_moves (hs : s.runner.state = .waitingForStopped)
    (he : TaskEnded s.motion.infoCache) : Moves A s s.endStopped := by
  unfold endStopped
  split
  · exact .end_ .refl (.inr ⟨hs, he⟩)
  · obtain ⟨hr, hm⟩ := stopRecording_state (s := s) (g := ‹_›)
    exact .end_ stopRecording_moves (.inr ⟨by rw [hr, hs], by rwa [hm]⟩)

theorem stateWaitingForStopped_flows (hs : s.runner.state = .waitingForStopped) :
    Flows init A s (s.stateWaitingForStopped s.motion.infoCache) := by
  unfold stateWaitingForStopped
  split
  · rename_i hmode
    split
    · exact .through .refl
    · rename_i hst
      exact .through (endStopped_moves hs (.inr ⟨hmode, hst⟩))
    · rename_i h1 h2
      exact mismatch_flows (by simpa [Mismatch, TaskEnded, hs, hmode] using ⟨h2, h1⟩)
  · rename_i hmode
    exact .through (endStopped_moves hs (.inl hmode))
  · rename_i hmode
    exact mismatch_flows (by simp [Mismatch, TaskEnded, hs, hmode])

theorem poll_flows (hA : LetsPass A) :
    Flows (s.runner.state = .currentNodeIniting) A s s.poll := by
  unfold poll
  dsimp only
  split
  · rename_i hs
    exact .through (.emit _ (.switchTo _ .refl hs) trivial)
  · exact stateCurrentNodeIniting_flows hA ‹_›
  · exact stateRunning_flows hA ‹_›
  · exact stateWaitingForPaused_flows ‹_›
  · exact .through .refl
  · exact stateWaitingForResumed_flows ‹_›
  · exact stateWaitingForStopped_flows ‹_›
  · exact .through .refl

/-- Everything a poll can do. -/
theorem runOnce_runs : Runs (s.runner.state = .currentNodeIniting) Passes s s.runOnce :=
  thenTail_runs (poll_flows passes_letsPass)

end Polls

end TaskSystem

end Edm
