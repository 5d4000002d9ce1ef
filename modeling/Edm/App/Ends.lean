import Edm.Lib.Run
import Edm.App.Events
import Edm.Motion.PowerOff

/-!
# The end of a program

Every way to an end emits `sig_auto_stopped`. `EndsOnce` reads the events emitted so far: an end comes
after a call of `start` and is the first since, and no node is executed after it. What spoils this is a
wait: while a function of the runner waits, others may end the program, and the function goes on
regardless once its command is answered. `ends_once` says that nothing else does.
-/

set_option linter.unusedSectionVars false

namespace Edm

namespace RunnerEvent

def isEnd : RunnerEvent → Bool
  | .autoStopped _ => true
  | _ => false

/-- A node is initialised, run, or its task started. -/
def executes : RunnerEvent → Bool
  | .initNode _ | .runNode _ | .startCommand _ => true
  | _ => false

/-- The events since the last call of `start`, the newest first. -/
def sinceStart (h : List RunnerEvent) : List RunnerEvent := h.takeWhile (· ≠ .startCalled)

/-- How often the program ended since. -/
def ends (h : List RunnerEvent) : ℕ := (sinceStart h).countP isEnd

/-- That call of `start` has returned true. -/
def Started (h : List RunnerEvent) : Prop := .startReturned true ∈ sinceStart h

/-- Every end follows a call of `start` and no other end since, and no node is executed after an end. -/
def EndsOnce : List RunnerEvent → Prop
  | [] => True
  | e :: h =>
    EndsOnce h ∧ (e.isEnd → .startCalled ∈ h ∧ ends h = 0) ∧ (e.executes → ends h = 0)

instance (h : List RunnerEvent) : Decidable (Started h) := inferInstanceAs (Decidable (_ ∈ _))

instance : (h : List RunnerEvent) → Decidable (EndsOnce h)
  | [] => isTrue trivial
  | _ :: h => @instDecidableAnd _ _ (instDecidableEndsOnce h) inferInstance

variable {e : RunnerEvent} {h : List RunnerEvent}

@[simp] theorem sinceStart_call : sinceStart (.startCalled :: h) = [] := rfl

@[simp] theorem sinceStart_cons (he : e ≠ .startCalled) : sinceStart (e :: h) = e :: sinceStart h := by
  simp [sinceStart, he]

@[simp] theorem ends_call : ends (.startCalled :: h) = 0 := rfl

@[simp] theorem ends_cons (he : e ≠ .startCalled) :
    ends (e :: h) = ends h + if e.isEnd then 1 else 0 := by
  simp [ends, he, List.countP_cons]

@[simp] theorem started_call : ¬Started (.startCalled :: h) := by simp [Started]

@[simp] theorem started_cons (he : e ≠ .startCalled) :
    Started (e :: h) ↔ e = .startReturned true ∨ Started h := by
  simp [Started, he, eq_comm]

end RunnerEvent

namespace Kont

/-- The wait of an abort out of `start`. -/
def isStartAbort : Kont → Bool
  | .aborted _ .start => true
  | _ => false

end Kont

namespace TaskSystem

open RunnerEvent

variable {K : Type}

/-- The calls of `start` that wait in an abort. -/
def startAborts (s : TaskSystem K) : ℕ := s.waits.countP (·.kont.isStartAbort)

instance (s : TaskSystem K) : Decidable s.Alive := inferInstanceAs (Decidable (_ ≠ _))

/-- What follows a wait does not act on a runner that is over. -/
def ActsAlive (s : TaskSystem K) (a : TaskAction K) : Prop :=
  ∀ r ∈ s.returning a, r.1.kont.acts r.2 → s.Alive

instance (s : TaskSystem K) (a : TaskAction K) : Decidable (s.ActsAlive a) :=
  inferInstanceAs (Decidable (∀ r ∈ s.returning a, r.1.kont.acts r.2 → s.Alive))

/-- `start` is not called while an earlier call of it waits in an abort. -/
def StartsApart (s : TaskSystem K) : TaskAction K → Prop
  | .start _ => s.startAborts = 0
  | _ => True

instance (s : TaskSystem K) : (a : TaskAction K) → Decidable (s.StartsApart a)
  | .start _ => inferInstanceAs (Decidable (_ = _))
  | .timerTick | .singleShot | .dispatch | .pause | .resume | .stop | .estop | .startPointmove ..
  | .stopPointmove | .setting _ | .settingWaited .. | .changeSettings .. | .changeCoords ..
  | .motionCycle .. | .waitReturns | .waitTimesOut => isTrue trivial

/-- The state of the runner and the events agree on how the program stands. -/
structure EndLaw (s : TaskSystem K) : Prop where
  once : EndsOnce s.history
  alive : s.Alive → .startCalled ∈ s.history ∧ ends s.history = 0 ∧ s.startAborts = 0
  ended : ¬s.Alive → Started s.history → ends s.history = 1
  aborting : s.startAborts ≠ 0 → .startCalled ∈ s.history ∧ ends s.history = 0 ∧
    ¬Started s.history
  single : s.startAborts ≤ 1

namespace EndLaw

variable {s t : TaskSystem K} {A : TaskSystem K → Prop}

theorem congr (h : s.EndLaw) (hs : t.runner.state = s.runner.state) (hh : t.history = s.history)
    (hw : t.startAborts = s.startAborts) : t.EndLaw := by
  obtain ⟨h1, h2, h3, h4, h5⟩ := h
  constructor <;> simp only [Alive, hs, hh, hw] <;> assumption

theorem same (h : s.EndLaw) (hk : Same s t) : t.EndLaw :=
  h.congr hk.state hk.history (by simp only [startAborts, hk.waits])

/-- While the runner is not over its state does not matter. -/
theorem switchTo (h : s.EndLaw) (ha : s.Alive) {st : GCodeRunner.State} (hst : st ≠ .stopped) :
    (s.switchToState st).EndLaw where
  once := h.once
  alive _ := h.alive ha
  ended hn := absurd hst hn
  aborting := h.aborting
  single := h.single

/-- An event that is no end, no call and no result of `start`. -/
theorem emit (h : s.EndLaw) {e : RunnerEvent} (he : e.isEnd = false) (hc : e ≠ .startCalled)
    (hr : e ≠ .startReturned true) (hx : e.executes → s.Alive) : (s.emit e).EndLaw := by
  have hends : ends (e :: s.history) = ends s.history := by simp [hc, he]
  have hstart : Started (e :: s.history) ↔ Started s.history := by simp [hc, hr]
  have hmem : .startCalled ∈ e :: s.history ↔ .startCalled ∈ s.history := by
    simp [List.mem_cons, hc.symm]
  refine ⟨⟨h.once, by simp [he], fun hx' => (h.alive (hx hx')).2.1⟩, ?_, ?_, ?_, h.single⟩
  · intro ha
    exact ⟨hmem.mpr (h.alive ha).1, hends.trans (h.alive ha).2.1, (h.alive ha).2.2⟩
  · intro ha hs
    exact hends.trans (h.ended ha (hstart.mp hs))
  · intro hw
    obtain ⟨hm, he', hs'⟩ := h.aborting hw
    exact ⟨hmem.mpr hm, hends.trans he', fun hs => hs' (hstart.mp hs)⟩

/-- An end of a program that is not over. -/
theorem stopped (h : s.EndLaw) (ha : s.Alive) (err : Bool) (ht : t.history = .autoStopped err :: s.history)
    (hs : ¬t.Alive) (hw : t.startAborts = s.startAborts) : t.EndLaw := by
  obtain ⟨hm, he, h0⟩ := h.alive ha
  have hends : ends t.history = 1 := by simp [ht, he, isEnd]
  refine ⟨?_, fun h' => absurd h' hs, fun _ _ => hends, fun h' => absurd (hw.trans h0) h', ?_⟩
  · rw [ht]
    exact ⟨h.once, fun _ => ⟨hm, he⟩, by simp [executes]⟩
  · omega

theorem waitFor (h : s.EndLaw) {cmd : MotionCommand K} {timeoutMs : Option ℕ} {kont : Kont}
    (hk : kont.isStartAbort = false) : (s.waitFor cmd timeoutMs kont).EndLaw :=
  h.congr rfl rfl (by simp [startAborts, TaskSystem.waitFor, hk])

theorem moves (h : s.EndLaw) (hA : ∀ u, A u → u.Alive) (hm : Moves A s t) : t.EndLaw := by
  induction hm with
  | refl => exact h
  | keep _ hk ih => exact ih.same hk
  | @emit u e _ he ih =>
    cases e with
    | initNode | runNode | startCommand =>
      exact ih.emit rfl (by simp) (by simp) fun _ => by simp [Alive, show u.runner.state = _ from he]
    | autoStopped | startCalled | startReturned | stopReturned | stateMismatch => exact he.elim
    | _ => exact ih.emit rfl (by simp) (by simp) (by simp [executes])
  | mismatch _ _ ih => exact ih.emit rfl (by simp) (by simp) (by simp [executes])
  | @switchTo u st _ hs ih =>
    cases st with
    | currentNodeIniting => exact ih.switchTo (by simp [Alive, show u.runner.state = _ from hs]) (by simp)
    | running =>
      refine ih.switchTo ?_ (by simp)
      rcases hs with ⟨hs, _⟩ | hs | hs <;> simp [Alive, hs]
    | paused =>
      refine ih.switchTo ?_ (by simp)
      rcases hs with hs | hs | hs <;> simp [Alive, hs]
    | _ => exact hs.elim
  | nextNode _ ha ih => exact (ih.switchTo (hA _ ha) (by simp)).congr rfl rfl rfl
  | overflow _ _ _ ih => exact ih.congr rfl rfl rfl
  | @end_ u _ he ih =>
    refine ih.stopped ?_ false rfl (by simp [Alive, TaskSystem.end_, resetState, TaskSystem.emit]) rfl
    rcases he with ⟨hs, _⟩ | ⟨hs, _⟩ <;> simp [Alive, hs]

theorem runs (h : s.EndLaw) (hA : ∀ u, A u → u.Alive) {init : Prop} (hr : Runs init A s t) : t.EndLaw := by
  cases hr with
  | through hm => exact h.moves hA hm
  | waits cmd timeoutMs kont hm hw =>
    refine (h.moves hA hm).waitFor ?_
    cases kont with
    | aborted err caller =>
      cases caller with
      | start => exact absurd rfl hw.1
      | _ => rfl
    | _ => rfl

theorem start (h : s.EndLaw) (h0 : s.startAborts = 0) (hc : StartCase s t) : t.EndLaw := by
  cases hc with
  | refused hs => exact h.emit rfl (by simp) (by simp) (by simp [executes])
  | @failed t hs err ht hr =>
    have hh : t.history = .startCalled :: s.history := by rw [ht]; rfl
    have hw : (t.abort err .start).startAborts = 1 := by
      have ht0 : t.startAborts = 0 := by rw [ht]; exact h0
      show (⟨_, none, .aborted err .start, none⟩ :: t.waits).countP (·.kont.isStartAbort) = 1
      rw [List.countP_cons_of_pos rfl]
      exact congrArg (· + 1) ht0
    have hcall : EndsOnce (.startCalled :: s.history) :=
      ⟨h.once, by simp [isEnd], by simp [executes]⟩
    refine ⟨?_, fun ha => absurd hr ha, fun _ h' => ?_, fun _ => ?_, hw.le⟩
    · exact (congrArg EndsOnce hh).mpr hcall
    · exact absurd ((congrArg Started hh).mp h') started_call
    · show _ ∈ t.history ∧ ends t.history = 0 ∧ ¬Started t.history
      simp [hh]
  | @started t hs ht hr hu =>
    have hh : t.history = .startCalled :: s.history := by rw [ht]; rfl
    have hw : (t.emit (.startReturned true)).startAborts = 0 := by
      have : t.waits = s.waits := by rw [ht]; rfl
      simpa [startAborts, TaskSystem.emit, this] using h0
    have hcall : EndsOnce (.startCalled :: s.history) :=
      ⟨h.once, by simp [isEnd], by simp [executes]⟩
    refine ⟨?_, fun _ => ?_, fun ha => ?_, fun h' => absurd hw h', by omega⟩
    · refine ⟨(congrArg EndsOnce hh).mpr hcall, by simp [isEnd], by simp [executes]⟩
    · refine ⟨?_, ?_, hw⟩
      · simp [TaskSystem.emit, hh]
      · simp [TaskSystem.emit, hh, isEnd]
    · exact absurd (by simp [Alive, TaskSystem.emit, hr]) ha

theorem stop (h : s.EndLaw) (hc : StopCase s t) : t.EndLaw := by
  cases hc with
  | nothing => exact h
  | returned ret hr => exact h.emit rfl (by simp) (by simp) (by simp [executes])
  | onTheSpot hs =>
    have ha : s.Alive := by
      rcases hs with hs | ⟨hs | hs | hs, _⟩ <;> simp [Alive, hs]
    have hend : s.end_.EndLaw := h.stopped ha false rfl
      (by simp [Alive, TaskSystem.end_, resetState, TaskSystem.emit]) rfl
    exact hend.emit rfl (by simp) (by simp) (by simp [executes])
  | waits waitingForPaused hs => exact h.waitFor rfl

/-- What follows a wait of another kind than that of an abort out of `start`. -/
theorem goesOn (h : s.EndLaw) {kont : Kont} {accepted : Bool} (hk : kont.isStartAbort = false)
    (ha : kont.acts accepted → s.Alive) (hc : ReturnCase s kont accepted t) : t.EndLaw := by
  cases hc with
  | nodeStarted hr =>
    exact (h.switchTo (ha rfl) (by simp)).runs (fun _ hf => hf.elim) hr
  | nodePasses hk hr =>
    have ha : s.Alive := ha (by rcases hk with ⟨index, rfl⟩ | rfl <;> rfl)
    exact h.runs (fun _ hu => by rwa [Alive, hu]) hr
  | nodeRefused => exact h.waitFor rfl
  | @aborted err caller _ hc =>
    exact h.stopped (ha (by simpa [Kont.acts] using hc)) true rfl
      (by simp [Alive, TaskSystem.aborted, resetState, TaskSystem.emit]) rfl
  | startAborted => exact absurd hk (by simp [Kont.isStartAbort])
  | paused hs => exact (h.switchTo (ha rfl) (by simp)).same hs
  | resumed => exact h.switchTo (ha rfl) (by simp)
  | stopping =>
    exact (h.switchTo (ha rfl) (by simp)).emit rfl (by simp) (by simp) (by simp [executes])
  | stopRefused => exact h.emit rfl (by simp) (by simp) (by simp [executes])
  | stopEstops => exact h.waitFor rfl
  | stopped =>
    have hend : s.end_.EndLaw := h.stopped (ha rfl) false rfl
      (by simp [Alive, TaskSystem.end_, resetState, TaskSystem.emit]) rfl
    exact hend.emit rfl (by simp) (by simp) (by simp [executes])
  | estopOver hs => exact h.congr hs.symm rfl rfl
  | estopAborts => exact h.waitFor rfl
  | nothing _ hs => exact h.same hs

/-- The abort out of `start` ends the call: it has found the runner over and leaves it so. -/
theorem startAborted (h : s.EndLaw) {w : Wait} {rest : List Wait} (hw : s.waits = w :: rest)
    (hk : w.kont.isStartAbort) {accepted : Bool}
    (hc : ReturnCase { s with waits := rest } w.kont accepted t) : t.EndLaw := by
  have hcount : s.startAborts = ({ s with waits := rest } : TaskSystem K).startAborts + 1 := by
    simp [startAborts, hw, hk]
  have hsingle := h.single
  have h0 : ({ s with waits := rest } : TaskSystem K).startAborts = 0 := by omega
  obtain ⟨hm, he, hn⟩ := h.aborting (by omega)
  obtain ⟨err, hkont⟩ : ∃ err, w.kont = .aborted err .start := by
    revert hk
    rcases w with ⟨cmd, timeoutMs, kont, answer⟩
    cases kont with
    | aborted err caller => cases caller <;> simp [Kont.isStartAbort]
    | _ => simp [Kont.isStartAbort]
  rw [hkont] at hc
  cases hc with
  | startAborted =>
    have hends : ends (.startReturned false :: .autoStopped true :: s.history) = 1 := by
      simp [he, isEnd]
    refine ⟨⟨⟨h.once, fun _ => ⟨hm, he⟩, by simp [executes]⟩, by simp [isEnd], by simp [executes]⟩,
      fun ha => absurd rfl ha, fun _ _ => hends, fun h' => absurd h0 h', h0.le.trans (by omega)⟩
  | nodeRefused hk => simp [Kont.isNode] at hk
  | aborted _ hc => exact absurd rfl hc
  | nodePasses hk => rcases hk with ⟨index, hk⟩ | hk <;> cases hk
  | nothing hk => simp [Kont.isRequest] at hk

theorem returns (h : s.EndLaw) {w : Wait} {rest : List Wait} (hw : s.waits = w :: rest)
    {accepted : Bool} (ha : w.kont.acts accepted → s.Alive)
    (hc : ReturnCase { s with waits := rest } w.kont accepted t) : t.EndLaw := by
  by_cases hk : w.kont.isStartAbort
  · exact h.startAborted hw hk hc
  · have h' : ({ s with waits := rest } : TaskSystem K).EndLaw :=
      h.congr rfl rfl (by simp [startAborts, hw, hk])
    exact h'.goesOn (by simpa using hk) ha hc

end EndLaw

section Runs

variable [Field K] [LinearOrder K] [FloorRing K] [RealFns K] [Settings] {s : TaskSystem K}

/-- Answers do not change what is waited for. -/
theorem startAborts_motionCycle (inp : ThreadInput K) (fetch : Bool) :
    (s.motionCycle inp fetch).startAborts = s.startAborts := by
  have hmap (id : ℕ) (answer : Option Bool) :
      (s.waits.map (Wait.answered id answer)).countP (·.kont.isStartAbort) =
        s.waits.countP (·.kont.isStartAbort) := by
    rw [List.countP_map]
    refine List.countP_congr fun w _ => ?_
    simp only [Function.comp, Wait.answered]
    split <;> rfl
  unfold motionCycle
  split
  · split
    · exact hmap _ _
    · rfl
  · rfl

theorem motionCycle_state (inp : ThreadInput K) (fetch : Bool) :
    (s.motionCycle inp fetch).runner = s.runner ∧
      (s.motionCycle inp fetch).history = s.history := by
  unfold motionCycle
  split
  · split <;> exact ⟨rfl, rfl⟩
  · exact ⟨rfl, rfl⟩

/-- What makes the law of ends hold: waits that act find the runner alive, and `start` does not nest. -/
def EndsApart (s : TaskSystem K) (a : TaskAction K) : Prop := s.ActsAlive a ∧ s.StartsApart a

instance (s : TaskSystem K) (a : TaskAction K) : Decidable (s.EndsApart a) :=
  inferInstanceAs (Decidable (_ ∧ _))

theorem step_endLaw (s : TaskSystem K) (a : TaskAction K) (h : s.EndLaw) (hc : s.EndsApart a) :
    (s.step a).EndLaw := by
  have hcase := s.step_cases a
  generalize s.step a = t at hcase
  cases hcase with
  | keep hk => exact h.same hk
  | poll hp hr => exact h.runs (fun u hu => by rcases hu with hu | ⟨hu, _⟩ <;> simp [Alive, hu]) hr
  | pause hr | resume hr => exact h.runs (fun _ hu => hu.elim) hr
  | estop => exact h.waitFor rfl
  | start program hs => exact h.start hc.2 hs
  | stop hs => exact h.stop hs
  | push cmd => exact h.congr rfl rfl rfl
  | send cmd timeoutMs => exact h.waitFor rfl
  | cycle inp fetch =>
    obtain ⟨hr, hh⟩ := motionCycle_state (s := s) inp fetch
    exact h.congr (congrArg GCodeRunner.state hr) hh (startAborts_motionCycle inp fetch)
  | returns hw hr hk => exact h.returns hw (fun ha => hc.1 _ hr ha) hk

/-- The law of ends: every end follows a call of `start` with no other end since, no node is executed
after an end, and once `start` has returned true the program has ended if and only if the runner is
over. -/
def ProgramEndsOnce (s : TaskSystem K) : Prop :=
  EndsOnce s.history ∧
    (Started s.history → (s.runner.state = .stopped ↔ ends s.history = 1))

instance (s : TaskSystem K) : Decidable s.ProgramEndsOnce := inferInstanceAs (Decidable (_ ∧ _))

/-- In every run in which what follows a wait acts on a runner that is not over, and `start` is not
called inside an abort of an earlier call, the law of ends holds. -/
theorem ends_once (coords : CoordinateManager K) (currCoordIndex : ℕ) (settings : TaskSettings K)
    (eleparams : ℕ → Option EleParam) (actions : List (TaskAction K))
    (hc : Machine.AllSteps step EndsApart (new coords currCoordIndex settings eleparams) actions) :
    (Machine.run step (new coords currCoordIndex settings eleparams) actions).ProgramEndsOnce := by
  have hnew : (new coords currCoordIndex settings eleparams).EndLaw :=
    ⟨trivial, fun h => absurd rfl h, fun _ h => absurd h (by simp [new, Started, sinceStart]),
      fun h => absurd rfl h, Nat.zero_le _⟩
  have h := Machine.AllSteps.invariant step_endLaw hnew hc
  refine ⟨h.once, fun hs => ?_⟩
  constructor
  · intro hover
    exact h.ended (by simpa [Alive] using hover) hs
  · intro hends
    by_contra hover
    have := (h.alive hover).2.1
    omega

end Runs

end TaskSystem

namespace Sample

/-- One coordinate system, without an offset. -/
def coords : CoordinateManager ℚ :=
  ⟨0, fun index => if index = 54 then some 0 else none, ⟨fun _ => 1000000, fun _ => -1000000⟩⟩

def taskSettings : TaskSettings ℚ := ⟨1, 1000000, 1, 30, false⟩

attribute [local instance] Sample.settings

/-- The application just started. -/
abbrev app : TaskSystem ℚ := .new coords 54 taskSettings fun _ => none

/-- A cycle in which nothing is amiss. -/
def cycle : TaskAction ℚ := .motionCycle MotionThread.goodInput true

/-- The drives are connected and get ready. -/
def boot : List (TaskAction ℚ) :=
  [.setting .settingTriggerEcatConnect, cycle, cycle, cycle, cycle, cycle, cycle]

def task (node : GCodeNode ℚ) : GCodeTask ℚ := ⟨1, "", [], node⟩

/-- A program that waits twice. -/
def delays : Program ℚ :=
  ⟨[task (.delay (1 / 1000)), task (.delay (1 / 1000)), task .programEnd], by simp⟩

/-- A move in a coordinate system there is not. -/
def astray : Program ℚ :=
  ⟨[task (.g00Motion false false 100 55 .absoluteMode fun _ => some 1), task .programEnd], by simp⟩

/-- The program is started and its first node runs. -/
def running : List (TaskAction ℚ) :=
  boot ++ [.start delays, .timerTick, .timerTick, cycle, .waitReturns]

end Sample

namespace TaskSystem

open Sample

attribute [local instance] Sample.settings

/-- The program runs to its end. -/
def toTheEnd : List (TaskAction ℚ) :=
  running ++
    [cycle, cycle, cycle, .timerTick, .timerTick, cycle, .waitReturns, cycle, cycle, cycle, .timerTick,
      .timerTick, .timerTick]

theorem toTheEnd_ends_once :
    let s := Machine.run step app toTheEnd
    s.ProgramEndsOnce ∧ s.runner.state = .stopped ∧ RunnerEvent.ends s.history = 1 :=
  ⟨ends_once _ _ _ _ toTheEnd (by decide +kernel), by decide +kernel,
    by decide +kernel⟩

/-- A poll while an abort waits aborts once more, and both end the program. -/
theorem abort_inside_abort_ends_twice :
    ¬(Machine.run step app
      (boot ++ [.start astray, .timerTick, .timerTick, .timerTick, cycle, cycle, .waitReturns,
        .waitReturns])).ProgramEndsOnce := by
  decide +kernel

end TaskSystem

end Edm
