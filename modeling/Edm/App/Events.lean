import Edm.App.Moves

/-!
# The events of the application

`StepCase` lists what an event can be: a poll or a request, which are `Runs`; a start or a stop; a
command of the rest of the application; a cycle of the motion thread; the return of the innermost wait.
`ReturnCase` lists what follows a wait. Invariants of runs are proved over these lists.
-/

set_option linter.unusedSectionVars false

namespace Edm

variable {K : Type}

namespace Kont

/-- The waits of the runner, the others being waits of the rest of the application. -/
def isRunner : Kont → Bool
  | .other => false
  | _ => true

/-- The waits for a command of the current node. -/
def isNode : Kont → Bool
  | .startAnswered .. | .eleparamSet _ | .warningCleared => true
  | _ => false

/-- The waits of a request after which nothing happens where it is refused. -/
def isRequest : Kont → Bool
  | .pauseAnswered _ | .resumeAnswered | .estopAnswered => true
  | _ => false

/-- With this answer the runner goes on in the program, changes its state or ends the run. A command of
a node that is refused does not: it leads to an abort, which waits anew. -/
def acts : Kont → Bool → Bool
  | .startAnswered .., accepted | .eleparamSet _, accepted | .warningCleared, accepted
  | .pauseAnswered _, accepted | .resumeAnswered, accepted | .stopAnswered _, accepted => accepted
  | .aborted _ caller, _ => caller ≠ .start
  | .stopEstopAnswered, _ => true
  | .estopAnswered, _ | .other, _ => false

end Kont

namespace MotionCommand

/-- The commands of the application outside the runner: settings and manual moves. -/
def isForeign (cmd : MotionCommand K) : Bool :=
  cmd.isSetting ||
    match cmd with
    | .manualStartPointMove .. | .manualStopPointMove _ => true
    | _ => false

end MotionCommand

namespace TaskSystem

/-- The signals `_run_once` is connected to. -/
def isAutoSignal (signal : MotionSignal K) : Bool :=
  match signal.type with
  | .autoPaused | .autoResumed | .autoStopped => true
  | _ => false

/-- The event calls `_run_once`. -/
def polls (s : TaskSystem K) : TaskAction K → Bool
  | .timerTick => s.runner.updateTimerActive
  | .singleShot => s.singleShots ≠ 0
  | .dispatch => s.motion.motionSignalQueue.head?.any isAutoSignal
  | _ => false

/-- The wait that ends in the event, and whether its command was accepted. -/
def returning (s : TaskSystem K) (a : TaskAction K) : Option (Wait × Bool) :=
  match a, s.waits with
  | .waitReturns, w :: _ => w.answer.map (w, ·)
  | .waitTimesOut, w :: _ =>
    if w.timeoutMs.isSome && w.answer.isNone then some (w, false) else none
  | _, _ => none

/-- The runner is not over. -/
def Alive (s : TaskSystem K) : Prop := s.runner.state ≠ .stopped

/-- What `start` does. -/
inductive StartCase (s : TaskSystem K) : TaskSystem K → Prop where
  | refused (hs : s.runner.state ≠ .stopped) : StartCase s (s.emit (.startReturned false))
  | failed {t : TaskSystem K} (hs : s.runner.state = .stopped) (err : String)
      (ht : t = { s.emit .startCalled with runner := t.runner }) (hr : t.runner.state = .stopped) :
      StartCase s (t.abort err .start)
  | started {t : TaskSystem K} (hs : s.runner.state = .stopped)
      (ht : t = { s.emit .startCalled with runner := t.runner })
      (hr : t.runner.state = .readyToStart) (hu : t.runner.updateTimerActive) :
      StartCase s (t.emit (.startReturned true))

/-- What `stop` does. -/
inductive StopCase (s : TaskSystem K) : TaskSystem K → Prop where
  | nothing : StopCase s s
  | returned (ret : Bool) (hr : ret = true → s.runner.state = .waitingForStopped) :
      StopCase s (s.emit (.stopReturned ret))
  | onTheSpot
      (hs : s.runner.state = .currentNodeIniting ∨
        (s.runner.state = .running ∨ s.runner.state = .paused ∨
          s.runner.state = .waitingForResumed) ∧ ¬s.OnMotion) :
      StopCase s (s.end_.emit (.stopReturned true))
  | waits (waitingForPaused : Bool)
      (hs : s.runner.state = .running ∨ s.runner.state = .paused ∨
        s.runner.state = .waitingForResumed ∨ s.runner.state = .waitingForPaused) :
      StopCase s (s.waitFor (.autoStop false) none (.stopAnswered waitingForPaused))

/-- What follows a wait for a command that was accepted or not. -/
inductive ReturnCase (s : TaskSystem K) : Kont → Bool → TaskSystem K → Prop where
  | nodeStarted {err : String} {drill : Bool} {t : TaskSystem K}
      (h : Runs False Never (s.switchToState .running) t) : ReturnCase s (.startAnswered err drill) true t
  | nodePasses {kont : Kont} {t : TaskSystem K}
      (hk : (∃ index, kont = .eleparamSet index) ∨ kont = .warningCleared)
      (h : Runs False (·.runner.state = s.runner.state) s t) : ReturnCase s kont true t
  | nodeRefused {kont : Kont} (hk : kont.isNode) (err : String) :
      ReturnCase s kont false (s.abort err .runOnce)
  | aborted {err : String} {caller : AbortCaller} (accepted : Bool) (hc : caller ≠ .start) :
      ReturnCase s (.aborted err caller) accepted (s.aborted err)
  | startAborted {err : String} (accepted : Bool) :
      ReturnCase s (.aborted err .start) accepted ((s.aborted err).emit (.startReturned false))
  | paused {caller : PauseCaller} {t : TaskSystem K}
      (h : Same (s.switchToState .waitingForPaused) t) : ReturnCase s (.pauseAnswered caller) true t
  | resumed : ReturnCase s .resumeAnswered true (s.switchToState .waitingForResumed)
  | stopping (waitingForPaused : Bool) :
      ReturnCase s (.stopAnswered waitingForPaused) true
        ((s.switchToState .waitingForStopped).emit (.stopReturned true))
  | stopRefused : ReturnCase s (.stopAnswered true) false (s.emit (.stopReturned false))
  | stopEstops :
      ReturnCase s (.stopAnswered false) false
        (s.waitFor .manualEmergencyStopAllMove none .stopEstopAnswered)
  | stopped (accepted : Bool) :
      ReturnCase s .stopEstopAnswered accepted (s.end_.emit (.stopReturned true))
  | estopOver (hs : s.runner.state = .stopped) : ReturnCase s .estopAnswered true s.resetState
  | estopAborts (hs : s.runner.state ≠ .stopped) :
      ReturnCase s .estopAnswered true (s.abort "ESTOP" .estop)
  | nothing {kont : Kont} {accepted : Bool} {t : TaskSystem K}
      (hk : kont = .other ∨ accepted = false ∧ kont.isRequest) (h : Same s t) :
      ReturnCase s kont accepted t

section Cases

variable [Settings] {A : TaskSystem K → Prop} {s : TaskSystem K}

theorem start_cases (program : Program K) : StartCase s (s.start program) := by
  unfold start
  split
  · rename_i hs
    exact .refused (by simpa [isOver] using hs)
  · rename_i hs
    have hs : s.runner.state = .stopped := by simpa [isOver] using hs
    dsimp only
    split
    · exact .failed hs _ rfl hs
    · exact .started (t := { s.emit .startCalled with runner := _ }) hs rfl rfl rfl

theorem stop_cases : StopCase s s.stop := by
  unfold stop
  split
  · exact .returned false (by simp)
  · rename_i hover
    have hover : s.runner.state ≠ .stopped := by simpa [isOver] using hover
    split
    · exact .nothing
    · rename_i g hg
      have hm : (!g.isMotionTask) = true → ¬s.OnMotion := by
        rintro hm ⟨g', hg', hm'⟩
        rw [hg] at hg'
        cases hg'
        simp [hm'] at hm
      cases hs : s.runner.state with
      | waitingForResumed =>
        dsimp only
        split
        · exact .onTheSpot (.inr ⟨.inr (.inr hs), hm ‹_›⟩)
        · exact .waits false (.inr (.inr (.inl hs)))
      | paused =>
        dsimp only
        split
        · exact .onTheSpot (.inr ⟨.inr (.inl hs), hm ‹_›⟩)
        · exact .waits false (.inr (.inl hs))
      | running =>
        dsimp only
        split
        · exact .onTheSpot (.inr ⟨.inl hs, hm ‹_›⟩)
        · exact .waits false (.inl hs)
      | currentNodeIniting => exact .onTheSpot (.inl hs)
      | waitingForStopped => exact .returned true fun _ => hs
      | stopped => exact absurd hs hover
      | readyToStart => exact .returned false (by simp)
      | waitingForPaused => exact .waits true (.inr (.inr (.inr hs)))

/-- The start of a node is counted as made before the recording is. -/
theorem switchToState_drillRecordData (st : GCodeRunner.State) (start : Bool) :
    (s.drillRecordData start).switchToState st = (s.switchToState st).drillRecordData start := by
  unfold drillRecordData
  split
  · rename_i h
    rw [if_pos (by exact h)]
    rfl
  · rename_i h
    rw [if_neg (by exact h)]

theorem startAnswered_case (err : String) (drill accepted : Bool) :
    ReturnCase s (.startAnswered err drill) accepted
      (thenTail (s.startAnswered err drill accepted)) := by
  cases accepted with
  | false => exact .nodeRefused rfl err
  | true =>
    refine .nodeStarted (thenTail_runs (.through ?_))
    cases drill with
    | false => exact .refl
    | true =>
      show Moves Never _ ((s.drillRecordData true).switchToState .running)
      rw [switchToState_drillRecordData]
      exact Moves.refl.drillRecordData true

theorem nextGcode_case {kont : Kont}
    (hk : (∃ index, kont = .eleparamSet index) ∨ kont = .warningCleared) :
    ReturnCase s kont true (thenTail s.nextGcode) :=
  .nodePasses hk (thenTail_runs (nextGcode_flows (fun _ _ hr _ h => hr ▸ h) rfl))

/-- `aborted` leaves no delayed pause to the end of `_run_once`. -/
theorem runOnceTail_aborted (err : String) : (s.aborted err).runOnceTail = s.aborted err := by
  simp [runOnceTail, aborted, resetState, emit]

theorem pauseAnswered_case (caller : PauseCaller) (accepted : Bool) :
    ReturnCase s (.pauseAnswered caller) accepted (s.pauseAnswered caller accepted) := by
  cases accepted with
  | false => exact .nothing (.inr ⟨rfl, rfl⟩) ⟨rfl, rfl, rfl, rfl, ⟨_, rfl⟩, rfl, rfl, rfl, rfl⟩
  | true => cases caller <;> exact .paused ⟨rfl, rfl, rfl, rfl, ⟨_, rfl⟩, rfl, rfl, rfl, rfl⟩

theorem estopAnswered_case (accepted : Bool) :
    ReturnCase s .estopAnswered accepted (s.estopAnswered accepted) := by
  cases accepted with
  | false => exact .nothing (.inr ⟨rfl, rfl⟩) (.refl s)
  | true =>
    unfold estopAnswered
    by_cases h : s.runner.state = .stopped
    · simpa [isOver, h] using ReturnCase.estopOver h
    · simpa [isOver, h] using ReturnCase.estopAborts h

end Cases

section Steps

variable [Field K] [LinearOrder K] [FloorRing K] [RealFns K] [Settings] {s : TaskSystem K}

theorem resumeKont_cases (kont : Kont) (accepted : Bool) :
    ReturnCase s kont accepted (s.resumeKont accepted kont) := by
  cases kont with
  | startAnswered err drill => exact startAnswered_case err drill accepted
  | eleparamSet index =>
    cases accepted with
    | false => exact .nodeRefused rfl _
    | true => exact nextGcode_case (.inl ⟨index, rfl⟩)
  | warningCleared =>
    cases accepted with
    | false => exact .nodeRefused rfl _
    | true => exact nextGcode_case (.inr rfl)
  | aborted err caller =>
    cases caller with
    | runOnce =>
      show ReturnCase s _ _ (s.aborted err).runOnceTail
      rw [runOnceTail_aborted]
      exact .aborted accepted (by simp)
    | start => exact .startAborted accepted
    | estop => exact .aborted accepted (by simp)
  | pauseAnswered caller => exact pauseAnswered_case caller accepted
  | resumeAnswered =>
    cases accepted with
    | false => exact .nothing (.inr ⟨rfl, rfl⟩) (.refl s)
    | true => exact .resumed
  | stopAnswered waitingForPaused =>
    cases accepted with
    | true => exact .stopping waitingForPaused
    | false =>
      cases waitingForPaused with
      | true => exact .stopRefused
      | false => exact .stopEstops
  | stopEstopAnswered => exact .stopped accepted
  | estopAnswered => exact estopAnswered_case accepted
  | other => exact .nothing (.inl rfl) (.refl s)

/-- What an event can be. -/
inductive StepCase (s : TaskSystem K) : TaskAction K → TaskSystem K → Prop where
  | keep {a : TaskAction K} {t : TaskSystem K} (h : Same s t) : StepCase s a t
  | poll {a : TaskAction K} {t : TaskSystem K} (hp : s.polls a) (h : Runs (s.runner.state = .currentNodeIniting) Passes s t) :
      StepCase s a t
  | pause {t : TaskSystem K} (h : Runs False Never s t) : StepCase s .pause t
  | resume {t : TaskSystem K} (h : Runs False Never s t) : StepCase s .resume t
  | estop : StepCase s .estop s.estop
  | start (program : Program K) {t : TaskSystem K} (h : StartCase s t) :
      StepCase s (.start program) t
  | stop {t : TaskSystem K} (h : StopCase s t) : StepCase s .stop t
  | push {a : TaskAction K} (cmd : MotionCommand K) (hc : cmd.isForeign) :
      StepCase s a (s.pushCommand cmd)
  | send {a : TaskAction K} (cmd : MotionCommand K) (timeoutMs : Option ℕ) (hc : cmd.isForeign) :
      StepCase s a (s.waitFor cmd timeoutMs .other)
  | cycle (inp : ThreadInput K) (fetch : Bool) :
      StepCase s (.motionCycle inp fetch) (s.motionCycle inp fetch)
  | returns {a : TaskAction K} {w : Wait} {rest : List Wait} {accepted : Bool} {t : TaskSystem K}
      (hw : s.waits = w :: rest) (hr : s.returning a = some (w, accepted))
      (h : ReturnCase { s with waits := rest } w.kont accepted t) : StepCase s a t

/-- What has changed is nothing the runner looks at. -/
theorem Runs.after {init : Prop} {A : TaskSystem K → Prop} {t u : TaskSystem K} (hk : Same s t)
    (h : Runs init A t u) : Runs init A s u := by
  cases h with
  | through h => exact .through (Moves.trans (.keep .refl hk) h)
  | waits cmd timeoutMs kont h hw =>
    exact .waits cmd timeoutMs kont (Moves.trans (.keep .refl hk) h) hw

theorem Same.polls {t : TaskSystem K} (hk : Same s t) :
    Runs (s.runner.state = .currentNodeIniting) Passes s t.runOnce :=
  .after hk (hk.state ▸ runOnce_runs)

theorem dispatch_case : StepCase s .dispatch s.dispatch := by
  unfold dispatch
  cases hq : s.motion.motionSignalQueue with
  | nil => exact .keep (.refl s)
  | cons signal rest =>
    have hk : Same s { s with motion := { s.motion with motionSignalQueue := rest } } :=
      ⟨rfl, rfl, rfl, rfl, ⟨_, rfl⟩, rfl, rfl, rfl, rfl⟩
    have hp : s.polls .dispatch = isAutoSignal signal := by simp [polls, hq]
    dsimp only
    cases ht : signal.type with
    | autoPaused | autoResumed | autoStopped =>
      exact .poll (by simp [hp, isAutoSignal, ht]) hk.polls
    | _ => exact .keep hk

theorem returns_case {a : TaskAction K} {w : Wait} {rest : List Wait} {accepted : Bool}
    (hw : s.waits = w :: rest) (hr : s.returning a = some (w, accepted)) :
    StepCase s a (s.leaveWait w rest accepted) :=
  .returns hw hr (resumeKont_cases w.kont accepted)

theorem step_cases (a : TaskAction K) : StepCase s a (s.step a) := by
  cases a with
  | timerTick =>
    show StepCase s _ (if s.runner.updateTimerActive then s.runOnce else s)
    split
    · exact .poll ‹_› runOnce_runs
    · exact .keep (.refl s)
  | singleShot =>
    show StepCase s _ (if s.singleShots = 0 then s else _)
    split
    · exact .keep (.refl s)
    · rename_i h
      have hk : Same s { s with singleShots := s.singleShots - 1 } :=
        ⟨rfl, rfl, rfl, rfl, ⟨_, rfl⟩, rfl, rfl, rfl, rfl⟩
      exact .poll (by simpa [polls] using h) hk.polls
  | dispatch => exact dispatch_case
  | start program => exact .start program (start_cases program)
  | pause => exact .pause (pause_runs .user)
  | resume => exact .resume resume_runs
  | stop => exact .stop stop_cases
  | estop => exact .estop
  | startPointmove endPos sp touch =>
    show StepCase s _ (if _ then s.waitFor _ (some 200) .other else s)
    split
    · exact .send _ _ rfl
    · exact .keep (.refl s)
  | stopPointmove => exact .send _ _ rfl
  | setting cmd =>
    show StepCase s _ (if cmd.isSetting then s.pushCommand cmd else s)
    split
    · rename_i hc
      exact .push cmd (by simp [MotionCommand.isForeign, hc])
    · exact .keep (.refl s)
  | settingWaited cmd timeoutMs =>
    show StepCase s _ (if cmd.isSetting then s.waitFor cmd timeoutMs .other else s)
    split
    · rename_i hc
      exact .send cmd timeoutMs (by simp [MotionCommand.isForeign, hc])
    · exact .keep (.refl s)
  | changeSettings settings eleparams =>
    exact .keep ⟨rfl, rfl, rfl, rfl, ⟨_, rfl⟩, rfl, rfl, rfl, rfl⟩
  | changeCoords coords currCoordIndex =>
    exact .keep ⟨rfl, rfl, rfl, rfl, ⟨_, rfl⟩, rfl, rfl, rfl, rfl⟩
  | motionCycle inp fetch => exact .cycle inp fetch
  | waitReturns =>
    cases hw : s.waits with
    | nil =>
      simp only [step, hw]
      exact .keep (.refl s)
    | cons w rest =>
      cases ha : w.answer with
      | none =>
        simp only [step, hw, ha]
        exact .keep (.refl s)
      | some accepted =>
        simp only [step, hw, ha]
        exact returns_case hw (by simp [returning, hw, ha])
  | waitTimesOut =>
    cases hw : s.waits with
    | nil =>
      simp only [step, hw]
      exact .keep (.refl s)
    | cons w rest =>
      simp only [step, hw]
      split
      · rename_i ht
        exact returns_case hw (by simp only [returning, hw, ht, if_true])
      · exact .keep (.refl s)

end Steps

end TaskSystem

end Edm
