import Edm.App.Ends
import Edm.App.ProgramFormat

/-!
# The index of the current node

`gcode_list_[curr_gcode_num_]` is taken by every poll but the first, in every request and behind some
of the waits; `gcode_list_.back()` in `start`. The index is behind the list where there is no list yet,
and where a function that has waited for its command goes on from the last node, to which another has
gone meanwhile. Elsewhere every access is in range (`accesses_in_range`).
-/

set_option linter.unusedSectionVars false

namespace Edm

variable {K : Type}

namespace Kont

/-- The runner goes on in the program or in its states. -/
def carriesOn : Kont → Bool → Bool
  | .startAnswered .., accepted | .eleparamSet _, accepted | .warningCleared, accepted
  | .pauseAnswered _, accepted | .resumeAnswered, accepted | .stopAnswered _, accepted => accepted
  | _, _ => false

/-- The current node is over. -/
def passes : Kont → Bool → Bool
  | .eleparamSet _, accepted | .warningCleared, accepted => accepted
  | _, _ => false

end Kont

def GCodeTask.isProgramEnd (g : GCodeTask K) : Bool :=
  match g.node with
  | .programEnd => true
  | _ => false

namespace TaskSystem

/-- There is a current node. -/
def InRange (s : TaskSystem K) : Prop := s.runner.currGcodeNum < s.runner.gcodeList.length

/-- And one behind it. -/
def HasNext (s : TaskSystem K) : Prop := s.runner.currGcodeNum + 1 < s.runner.gcodeList.length

/-- What `start` makes sure of. -/
def EndsProgram (s : TaskSystem K) : Prop :=
  s.runner.gcodeList.getLast?.any GCodeTask.isProgramEnd = true

instance (s : TaskSystem K) : Decidable s.InRange := inferInstanceAs (Decidable (_ < _))

instance (s : TaskSystem K) : Decidable s.HasNext := inferInstanceAs (Decidable (_ < _))

instance (s : TaskSystem K) : Decidable s.EndsProgram := inferInstanceAs (Decidable (_ = _))

/-! ### The accesses -/

section Accesses

/-- `pause`, `resume` and `stop` take the current node of a runner that is not over. -/
def RequestAccess (s : TaskSystem K) : Prop := s.Alive → s.InRange

/-- The end of `_run_once`, once the functions it called are through. -/
def TailAccess (f : Flow K) : Prop :=
  f.2 = true → f.1.runner.delayPauseFlag = true → f.1.RequestAccess

/-- The state in which an event calls `_run_once`. -/
def polled (s : TaskSystem K) : TaskAction K → Option (TaskSystem K)
  | .timerTick => if s.runner.updateTimerActive then some s else none
  | .singleShot => if s.singleShots = 0 then none else some { s with singleShots := s.singleShots - 1 }
  | .dispatch =>
    match s.motion.motionSignalQueue with
    | [] => none
    | signal :: rest =>
      if isAutoSignal signal then
        some { s with motion := { s.motion with motionSignalQueue := rest } }
      else none
  | _ => none

/-- The state in which a function goes on after its wait. -/
def leftWait (s : TaskSystem K) : TaskSystem K := { s with waits := s.waits.tail }

instance (s : TaskSystem K) : Decidable s.RequestAccess := inferInstanceAs (Decidable (_ → _))

instance (f : Flow K) : Decidable (TailAccess f) := inferInstanceAs (Decidable (_ → _ → _))

variable [Field K] [LinearOrder K] [FloorRing K] [RealFns K] [Settings]

/-- `_run_once`: in all states but the first the current node is taken, also where the runner is
over. What goes on to the next node takes it once more. -/
def PollAccess (s : TaskSystem K) : Prop :=
  (s.runner.state ≠ .readyToStart → s.InRange) ∧ TailAccess s.poll

/-- Behind a wait the current node is taken where it is over. -/
def KontAccess (s : TaskSystem K) (accepted : Bool) : Kont → Prop
  | .startAnswered err drill => TailAccess (s.startAnswered err drill accepted)
  | .eleparamSet _ | .warningCleared => accepted = true → s.InRange ∧ TailAccess s.nextGcode
  | .aborted err .runOnce => TailAccess (s.aborted err, true)
  | _ => True

instance (s : TaskSystem K) : Decidable s.PollAccess := inferInstanceAs (Decidable (_ ∧ _))

instance (s : TaskSystem K) (accepted : Bool) :
    (kont : Kont) → Decidable (s.KontAccess accepted kont)
  | .startAnswered err drill =>
    inferInstanceAs (Decidable (TailAccess (s.startAnswered err drill accepted)))
  | .eleparamSet _ | .warningCleared =>
    inferInstanceAs (Decidable (accepted = true → s.InRange ∧ TailAccess s.nextGcode))
  | .aborted err .runOnce => inferInstanceAs (Decidable (TailAccess (s.aborted err, true)))
  | .aborted _ .start | .aborted _ .estop | .pauseAnswered _ | .resumeAnswered | .stopAnswered _
  | .stopEstopAnswered | .estopAnswered | .other => isTrue trivial

end Accesses

end TaskSystem

/-- A request that looks at the current node. -/
def TaskAction.isRequest : TaskAction K → Bool
  | .pause | .resume | .stop => true
  | _ => false

/-- An event, where `start` may be given any list. -/
inductive ListAction (K : Type) where
  | start (gcodeList : List (GCodeTask K))
  | event (a : TaskAction K)

namespace TaskSystem

section Steps

variable [Field K] [LinearOrder K] [FloorRing K] [RealFns K] [Settings]

/-- `start`. Of an empty list it takes the last node: what follows is undefined, here nothing. -/
def startList (s : TaskSystem K) : List (GCodeTask K) → TaskSystem K
  | g :: gs => s.start ⟨g :: gs, by simp⟩
  | [] =>
    if !s.isOver then s.emit (.startReturned false)
    else
      let s := s.emit .startCalled
      { s with runner := { s.runner with gcodeList := [], currGcodeNum := 0 } }

def listStep (s : TaskSystem K) : ListAction K → TaskSystem K
  | .start gcodeList => s.startList gcodeList
  | .event a => s.step a

/-- The accesses of an event are in range, and `back()` is taken of a list that is not empty. -/
def AccessInRange (s : TaskSystem K) : ListAction K → Prop
  | .start gcodeList => ¬s.Alive → gcodeList ≠ []
  | .event a =>
    (∀ t ∈ s.polled a, t.PollAccess) ∧
      (∀ r ∈ s.returning a, s.leftWait.KontAccess r.2 r.1.kont) ∧
      (a.isRequest = true → s.RequestAccess)

/-- And the index does not leave the list. -/
def SafeAccess (s : TaskSystem K) (a : ListAction K) : Prop :=
  s.AccessInRange a ∧ ((s.listStep a).runner.gcodeList ≠ [] → (s.listStep a).InRange)

/-- What keeps the index in range: `start` is given a list that is not empty, there is a list before
the first poll, and what follows a wait goes on in a program that `start` has checked, and from a node
that is not the last one. -/
def IndexKept (s : TaskSystem K) : ListAction K → Prop
  | .start gcodeList => ¬s.Alive → gcodeList ≠ []
  | .event a =>
    (∀ t ∈ s.polled a, t.runner.gcodeList ≠ []) ∧
      ∀ r ∈ s.returning a, (r.1.kont.carriesOn r.2 = true → s.EndsProgram) ∧
        (r.1.kont.passes r.2 = true → s.HasNext)

instance (s : TaskSystem K) : (a : ListAction K) → Decidable (s.AccessInRange a)
  | .start gcodeList => inferInstanceAs (Decidable (¬s.Alive → gcodeList ≠ []))
  | .event _ => inferInstanceAs (Decidable (_ ∧ _ ∧ (_ → _)))

instance (s : TaskSystem K) (a : ListAction K) : Decidable (s.SafeAccess a) :=
  inferInstanceAs (Decidable (_ ∧ (_ → _)))

instance (s : TaskSystem K) : (a : ListAction K) → Decidable (s.IndexKept a)
  | .start gcodeList => inferInstanceAs (Decidable (¬s.Alive → gcodeList ≠ []))
  | .event _ => inferInstanceAs (Decidable (_ ∧ _))

end Steps

/-! ### The index -/

/-- Where there is a list the index is in range, and a program that runs has been checked. -/
structure IndexLaw (s : TaskSystem K) : Prop where
  inRange : s.runner.gcodeList ≠ [] → s.InRange
  checked : s.Alive → s.EndsProgram

namespace IndexLaw

variable {s t : TaskSystem K}

theorem congr (h : s.IndexLaw) (hl : t.runner.gcodeList = s.runner.gcodeList)
    (hn : t.runner.currGcodeNum = s.runner.currGcodeNum)
    (hs : t.Alive → s.Alive ∨ s.EndsProgram) : t.IndexLaw := by
  constructor
  · intro hne
    rw [InRange, hl, hn]
    exact h.inRange (hl ▸ hne)
  · intro ha
    rw [EndsProgram, hl]
    exact (hs ha).elim h.checked id

theorem same (h : s.IndexLaw) (hk : Same s t) : t.IndexLaw :=
  h.congr hk.gcodeList hk.currGcodeNum fun ha => .inl (by rwa [Alive, ← hk.state])

theorem runner_eq (h : s.IndexLaw) (hr : t.runner = s.runner) : t.IndexLaw :=
  h.congr (by rw [hr]) (by rw [hr]) fun ha => .inl (by rwa [Alive, ← hr])

theorem requestAccess (h : s.IndexLaw) : s.RequestAccess := by
  intro ha
  refine h.inRange fun hnil => ?_
  have hend := h.checked ha
  simp [EndsProgram, hnil] at hend

theorem tailAccess {f : Flow K} (h : f.1.IndexLaw) : TailAccess f := fun _ _ => h.requestAccess

end IndexLaw

/-- Going on to the next node of a program that runs finds one. -/
def Goes (s : TaskSystem K) : Prop := s.EndsProgram → s.HasNext

theorem goes_local : Local (Goes (K := K)) := by
  intro s t hr _ h
  simpa only [Goes, EndsProgram, HasNext, hr] using h

/-- Behind a node that does not end the program there is another. -/
theorem hasNext_of_node {s : TaskSystem K} {g : GCodeTask K} (hg : s.currGcode = some g)
    (hn : g.node ≠ .programEnd) : s.Goes := by
  intro hend
  obtain ⟨hlt, -⟩ := List.getElem?_eq_some_iff.mp hg
  by_contra hno
  have hnum : s.runner.currGcodeNum = s.runner.gcodeList.length - 1 := by
    unfold HasNext at hno
    omega
  have hlast : s.runner.gcodeList.getLast? = some g := by
    rw [List.getLast?_eq_getElem?, ← hnum]
    exact hg
  rw [EndsProgram, hlast, Option.any_some] at hend
  rcases g with ⟨lineNumber, gcodeStr, options, node⟩
  cases node with
  | programEnd => exact hn rfl
  | _ => simp [GCodeTask.isProgramEnd] at hend

theorem goes_letsPass : LetsPass (fun s : TaskSystem K => s.Alive ∧ s.Goes) where
  isLocal s t hr hm h := ⟨by rw [Alive, hr]; exact h.1, goes_local s t hr hm h.2⟩
  passes hg hn hp := by
    refine ⟨?_, hasNext_of_node hg hn⟩
    rcases hp with hs | ⟨hs, -⟩ <;> simp [Alive, hs]

namespace IndexLaw

variable {s t : TaskSystem K} {A : TaskSystem K → Prop}

theorem moves (h : s.IndexLaw) (hA : ∀ u, A u → (u.Alive ∨ u.EndsProgram) ∧ u.Goes)
    (hm : Moves A s t) : t.IndexLaw := by
  induction hm with
  | refl => exact h
  | keep _ hk ih => exact ih.same hk
  | emit | mismatch => rename_i ih; exact ih.runner_eq rfl
  | @switchTo u st _ hs ih =>
    refine ih.congr rfl rfl fun _ => .inl ?_
    cases st with
    | currentNodeIniting => simp [Alive, show u.runner.state = _ from hs]
    | running => rcases hs with ⟨hs, -⟩ | hs | hs <;> simp [Alive, hs]
    | paused => rcases hs with hs | hs | hs <;> simp [Alive, hs]
    | _ => exact hs.elim
  | @nextNode u _ ha ih =>
    obtain ⟨hu, hg⟩ := hA u ha
    have hend := hu.elim ih.checked id
    exact ⟨fun _ => hg hend, fun _ => hend⟩
  | @overflow u _ ha _ ih =>
    obtain ⟨hu, hg⟩ := hA u ha
    have hend := hu.elim ih.checked id
    exact ⟨fun _ => hg hend, fun _ => hend⟩
  | @end_ u _ _ ih => exact ih.congr rfl rfl fun ha => absurd rfl ha

theorem flows (h : s.IndexLaw) (hA : ∀ u, A u → (u.Alive ∨ u.EndsProgram) ∧ u.Goes)
    {init : Prop} {f : Flow K} (hf : Flows init A s f) : f.1.IndexLaw := by
  cases hf with
  | through hm => exact h.moves hA hm
  | waits _ _ _ hm _ => exact (h.moves hA hm).runner_eq rfl

theorem runs (h : s.IndexLaw) (hA : ∀ u, A u → (u.Alive ∨ u.EndsProgram) ∧ u.Goes)
    {init : Prop} (hr : Runs init A s t) : t.IndexLaw := by
  cases hr with
  | through hm => exact h.moves hA hm
  | waits _ _ _ hm _ => exact (h.moves hA hm).runner_eq rfl

theorem requests (h : s.IndexLaw) {init : Prop} (hr : Runs init Never s t) : t.IndexLaw :=
  h.runs (fun _ hu => hu.elim) hr

section Steps

variable [Field K] [LinearOrder K] [FloorRing K] [RealFns K] [Settings]

theorem thenTail {f : Flow K} (h : f.1.IndexLaw) : (thenTail f).IndexLaw := by
  obtain ⟨t, through⟩ := f
  cases through with
  | false => exact h
  | true =>
    have hruns : Runs False Never t (TaskSystem.thenTail (t, true)) := thenTail_runs (.through .refl)
    exact h.requests hruns

/-- A poll, with its accesses. -/
theorem poll (h : s.IndexLaw) (hne : s.runner.gcodeList ≠ []) :
    s.PollAccess ∧ s.runOnce.IndexLaw := by
  have hpoll : s.poll.1.IndexLaw :=
    h.flows (fun u hu => ⟨.inl hu.1, hu.2⟩) (poll_flows (s := s) goes_letsPass)
  exact ⟨⟨fun _ => h.inRange hne, hpoll.tailAccess⟩, hpoll.thenTail⟩

/-- The current node of a checked program is over. -/
theorem nextGcode (h : s.IndexLaw) (he : s.EndsProgram) (hn : s.HasNext) : s.nextGcode.1.IndexLaw := by
  have hl : Local fun u : TaskSystem K => u.EndsProgram ∧ u.HasNext := by
    intro u v hr _ hu
    simpa only [EndsProgram, HasNext, hr] using hu
  have hflow : Flows False _ s s.nextGcode := nextGcode_flows hl ⟨he, hn⟩
  exact h.flows (fun u hu => ⟨.inr hu.1, fun _ => hu.2⟩) hflow

/-- The runner of a checked program takes whatever state. -/
theorem switchTo (h : s.IndexLaw) (he : s.EndsProgram) (st : GCodeRunner.State) :
    (s.switchToState st).IndexLaw := h.congr rfl rfl fun _ => .inr he

theorem nodePasses (h : s.IndexLaw) (accepted : Bool) (err : String)
    (he : accepted = true → s.EndsProgram) (hn : accepted = true → s.HasNext) :
    (accepted = true → s.InRange ∧ TailAccess s.nextGcode) ∧
      (TaskSystem.thenTail
        (if accepted then s.nextGcode else (s.abort err .runOnce, false))).IndexLaw := by
  cases accepted with
  | false => exact ⟨by simp, h.runner_eq rfl⟩
  | true =>
    have hnext := h.nextGcode (he rfl) (hn rfl)
    exact ⟨fun _ => ⟨Nat.lt_of_succ_lt (hn rfl), hnext.tailAccess⟩, hnext.thenTail⟩

/-- What follows a wait, with its accesses. -/
theorem resumeKont (h : s.IndexLaw) {kont : Kont} {accepted : Bool}
    (he : kont.carriesOn accepted = true → s.EndsProgram)
    (hn : kont.passes accepted = true → s.HasNext) :
    s.KontAccess accepted kont ∧ (s.resumeKont accepted kont).IndexLaw := by
  cases kont with
  | startAnswered err drill =>
    have hstart : (s.startAnswered err drill accepted).1.IndexLaw := by
      cases accepted with
      | false => exact h.runner_eq rfl
      | true =>
        have hswitch := h.switchTo (he rfl) .running
        cases drill with
        | false => exact hswitch
        | true =>
          refine hswitch.runner_eq ?_
          have hrunner := (drillRecordData_state (s := s) true).1
          show { (s.drillRecordData true).runner with state := GCodeRunner.State.running } =
            { s.runner with state := .running }
          rw [hrunner]
    exact ⟨hstart.tailAccess, hstart.thenTail⟩
  | eleparamSet index => exact h.nodePasses accepted _ he hn
  | warningCleared => exact h.nodePasses accepted _ he hn
  | aborted err caller =>
    have hover : (s.aborted err).IndexLaw := h.congr rfl rfl fun ha => absurd rfl ha
    cases caller with
    | runOnce => exact ⟨hover.tailAccess, hover.thenTail (f := (s.aborted err, true))⟩
    | start => exact ⟨trivial, hover.runner_eq rfl⟩
    | estop => exact ⟨trivial, hover⟩
  | pauseAnswered caller =>
    refine ⟨trivial, ?_⟩
    cases accepted with
    | false => exact h.congr rfl rfl .inl
    | true => cases caller <;> exact h.congr rfl rfl fun _ => .inr (he rfl)
  | resumeAnswered =>
    refine ⟨trivial, ?_⟩
    cases accepted with
    | false => exact h
    | true => exact h.switchTo (he rfl) .waitingForResumed
  | stopAnswered waitingForPaused =>
    refine ⟨trivial, ?_⟩
    cases accepted with
    | false => cases waitingForPaused <;> exact h.runner_eq rfl
    | true => exact (h.switchTo (he rfl) .waitingForStopped).runner_eq rfl
  | stopEstopAnswered => exact ⟨trivial, h.congr rfl rfl fun ha => absurd rfl ha⟩
  | estopAnswered =>
    refine ⟨trivial, ?_⟩
    show (s.estopAnswered accepted).IndexLaw
    unfold estopAnswered
    split
    · exact h
    · split
      · exact h.congr rfl rfl fun ha => absurd rfl ha
      · exact h.runner_eq rfl
  | other => exact ⟨trivial, h⟩

end Steps

end IndexLaw

/-! ### Runs -/

section Runs

variable [Field K] [LinearOrder K] [FloorRing K] [RealFns K] [Settings] {s : TaskSystem K}

/-- Going on aborts for an overflow exactly where it leaves the index behind the list. -/
theorem checkToNextGcode_overflow_iff (s : TaskSystem K) (g : GCodeTask K) :
    (s.checkToNextGcode g).2 = false ↔ ¬(s.checkToNextGcode g).1.InRange := by
  unfold checkToNextGcode
  dsimp only
  split
  · rename_i hge
    exact iff_of_true rfl (not_lt.mpr hge)
  · rename_i hlt
    refine iff_of_false (by simp) (not_not.mpr ?_)
    exact not_le.mp hlt

theorem endsProgram_of_check (h : s.checkGcodeListAtFirst = none) : s.EndsProgram := by
  have hlast := (Option.or_eq_none_iff.mp h).2
  unfold EndsProgram
  split at hlast
  · rename_i heq
    rw [heq]
    rfl
  · cases hlast

namespace IndexLaw

theorem start (h : s.IndexLaw) (program : Program K) : (s.start program).IndexLaw := by
  unfold TaskSystem.start
  split
  · exact h.runner_eq rfl
  · rename_i hover
    have hpos : 0 < program.tasks.length := List.length_pos_iff.mpr program.ne
    dsimp only
    split
    · have hstopped : s.runner.state = .stopped := by simpa [isOver] using hover
      exact ⟨fun _ => hpos, fun ha => absurd hstopped ha⟩
    · rename_i hcheck
      exact ⟨fun _ => hpos, fun _ => endsProgram_of_check hcheck⟩

theorem startList (h : s.IndexLaw) {gcodeList : List (GCodeTask K)}
    (hne : ¬s.Alive → gcodeList ≠ []) : (s.startList gcodeList).IndexLaw := by
  cases gcodeList with
  | cons g gs => exact h.start _
  | nil =>
    have ha : s.Alive := by
      by_contra ha
      exact hne ha rfl
    have hover : s.isOver = false := by simpa [isOver, Alive] using ha
    simp only [TaskSystem.startList, hover]
    exact h.runner_eq rfl

end IndexLaw

theorem step_polled {a : TaskAction K} {t : TaskSystem K} (h : s.polled a = some t) :
    s.step a = t.runOnce ∧ t.runner = s.runner ∧ s.returning a = none ∧ a.isRequest = false := by
  cases a with
  | timerTick =>
    simp only [polled] at h
    split at h
    · rename_i hact
      obtain rfl := Option.some.inj h
      exact ⟨if_pos hact, rfl, rfl, rfl⟩
    · cases h
  | singleShot =>
    simp only [polled] at h
    split at h
    · cases h
    · rename_i hshots
      obtain rfl := Option.some.inj h
      exact ⟨if_neg hshots, rfl, rfl, rfl⟩
  | dispatch =>
    simp only [polled] at h
    split at h
    · cases h
    · rename_i signal rest hq
      split at h
      · rename_i hauto
        obtain rfl := Option.some.inj h
        refine ⟨?_, rfl, rfl, rfl⟩
        simp only [step, TaskSystem.dispatch, hq]
        revert hauto
        unfold isAutoSignal
        cases signal.type <;> simp
      · cases h
  | _ => cases h

theorem step_returning {a : TaskAction K} {w : Wait} {accepted : Bool}
    (h : s.returning a = some (w, accepted)) :
    s.step a = s.leftWait.resumeKont accepted w.kont ∧ s.polled a = none ∧ a.isRequest = false := by
  cases a with
  | waitReturns =>
    cases hw : s.waits with
    | nil => simp [returning, hw] at h
    | cons w' rest =>
      cases ha : w'.answer with
      | none => simp [returning, hw, ha] at h
      | some accepted' =>
        simp only [returning, hw, ha, Option.map_some, Option.some.injEq, Prod.mk.injEq] at h
        obtain ⟨rfl, rfl⟩ := h
        refine ⟨?_, rfl, rfl⟩
        simp only [step, hw, ha, leaveWait, leftWait, List.tail_cons]
  | waitTimesOut =>
    cases hw : s.waits with
    | nil => simp [returning, hw] at h
    | cons w' rest =>
      simp only [returning, hw] at h
      split at h
      · rename_i ht
        simp only [Option.some.injEq, Prod.mk.injEq] at h
        obtain ⟨rfl, rfl⟩ := h
        refine ⟨?_, rfl, rfl⟩
        simp only [step, hw, ht, if_true, leaveWait, leftWait, List.tail_cons]
      · cases h
  | _ => simp [returning] at h

theorem polls_eq (a : TaskAction K) : s.polls a = (s.polled a).isSome := by
  cases a with
  | timerTick =>
    simp only [polls, polled]
    split <;> simp_all
  | singleShot =>
    simp only [polls, polled]
    split <;> simp_all
  | dispatch =>
    simp only [polls, polled]
    cases s.motion.motionSignalQueue with
    | nil => rfl
    | cons signal rest =>
      simp only [List.head?_cons, Option.any_some]
      split <;> simp_all
  | _ => rfl

/-- The events that neither poll nor end a wait. -/
theorem IndexLaw.others (h : s.IndexLaw) {a : TaskAction K} (hp : s.polled a = none)
    (hr : s.returning a = none) : (s.step a).IndexLaw := by
  have hcase := s.step_cases a
  generalize ht : s.step a = t at hcase
  cases hcase with
  | keep hk => exact h.same hk
  | poll hpoll => simp [polls_eq, hp] at hpoll
  | pause hruns | resume hruns => exact h.requests hruns
  | estop | push | send => exact h.runner_eq rfl
  | start program =>
    rw [← ht]
    exact h.start program
  | stop hs =>
    cases hs with
    | nothing => exact h
    | returned => exact h.runner_eq rfl
    | onTheSpot => exact h.congr rfl rfl fun ha => absurd rfl ha
    | waits => exact h.runner_eq rfl
  | cycle inp fetch => exact h.runner_eq (motionCycle_state inp fetch).1
  | returns _ hret => simp [hr] at hret

/-- An event keeps the index, and its accesses are in range. -/
theorem IndexLaw.listStep (h : s.IndexLaw) (a : ListAction K) (hc : s.IndexKept a) :
    s.AccessInRange a ∧ (s.listStep a).IndexLaw := by
  cases a with
  | start gcodeList => exact ⟨hc, h.startList hc⟩
  | event a =>
    obtain ⟨hpoll, hret⟩ := hc
    cases hp : s.polled a with
    | some t =>
      obtain ⟨hstep, hrun, hr, hreq⟩ := step_polled hp
      obtain ⟨hacc, hlaw⟩ := (h.runner_eq hrun).poll (hpoll t hp)
      refine ⟨⟨?_, by simp [hr], by simp [hreq]⟩, ?_⟩
      · intro u hu
        rw [hp] at hu
        exact Option.some.inj hu ▸ hacc
      · show (s.step a).IndexLaw
        rw [hstep]
        exact hlaw
    | none =>
      cases hr : s.returning a with
      | some r =>
        obtain ⟨w, accepted⟩ := r
        obtain ⟨hstep, -, hreq⟩ := step_returning hr
        obtain ⟨he, hn⟩ := hret _ hr
        have hleft : s.leftWait.IndexLaw := h.runner_eq rfl
        obtain ⟨hacc, hlaw⟩ := hleft.resumeKont he hn
        refine ⟨⟨by simp [hp], ?_, by simp [hreq]⟩, ?_⟩
        · intro r hr'
          rw [hr] at hr'
          exact Option.some.inj hr' ▸ hacc
        · show (s.step a).IndexLaw
          rw [hstep]
          exact hlaw
      | none =>
        exact ⟨⟨by simp [hp], by simp [hr], fun _ => h.requestAccess⟩, h.others hp hr⟩

/-- In every run that keeps the index, from the start of the application on, every access of every
event is in range, `back()` is taken of no empty list, and no event leaves the index behind the list,
which is the one thing that `_check_to_next_gcode` aborts for. -/
theorem accesses_in_range (coords : CoordinateManager K) (currCoordIndex : ℕ)
    (settings : TaskSettings K) (eleparams : ℕ → Option EleParam) (actions : List (ListAction K))
    (hc : Machine.AllSteps listStep IndexKept (new coords currCoordIndex settings eleparams) actions) :
    Machine.AllSteps listStep SafeAccess (new coords currCoordIndex settings eleparams) actions ∧
      ∀ (s : TaskSystem K) (g : GCodeTask K),
        (s.checkToNextGcode g).2 = false ↔ ¬(s.checkToNextGcode g).1.InRange := by
  have hnew : (new coords currCoordIndex settings eleparams).IndexLaw :=
    ⟨fun hne => absurd rfl hne, fun ha => absurd rfl ha⟩
  refine ⟨Machine.AllSteps.strengthen ?_ ?_ hnew hc, checkToNextGcode_overflow_iff⟩
  · exact fun s a h hk => (h.listStep a hk).2
  · exact fun s a h hk => ⟨(h.listStep a hk).1, (h.listStep a hk).2.inRange⟩

end Runs

open Sample

attribute [local instance] Sample.settings

theorem toTheEnd_in_range :
    Machine.AllSteps listStep SafeAccess app (toTheEnd.map .event) :=
  (accesses_in_range _ _ _ _ (toTheEnd.map .event) (by decide +kernel)).1

end TaskSystem

namespace Sample

attribute [local instance] Sample.settings

/-- An electrical parameter is set, and that is all. -/
def setsParam : List (GCodeTask ℚ) := [task (.eleparamSet 1), task .programEnd]

/-- The application with a parameter in its data base. -/
def appWithParam : TaskSystem ℚ := .new coords 54 taskSettings fun _ => some ⟨1, 1, 1⟩

/-- A poll inside the wait for the parameter sets it once more. -/
def setTwice : List (ListAction ℚ) :=
  boot.map .event ++ [.start setsParam] ++
    [.timerTick, .timerTick, .timerTick, .timerTick, cycle, cycle, .waitReturns, .waitReturns].map
      .event

/-- A program of one drilling command. -/
def drillOnly : Json ℚ := .array [.object [("CommandType", .string "DrillMotionCommand")]]

end Sample

namespace TaskSystem

open Sample

attribute [local instance] Sample.settings

/-- An accepted program gets behind its last node: it is aborted for an overflow, and the next poll is
out of range. And where the build ignores drilling commands the converter makes an empty list, of which
`start` takes the last node. -/
theorem index_leaves_list :
    (let s := Machine.run listStep appWithParam setTwice;
      RunnerEvent.startReturned true ∈ s.history ∧ s.runner.currGcodeNum = 2 ∧ s.runner.gcodeList.length = 2 ∧
        s.waits.head?.map (·.kont) = some (.aborted "_check_to_next_gcode: gcode overflow" .runOnce) ∧
        ¬s.SafeAccess (.event .timerTick)) ∧
      GCodeTaskConverter.makeGCodeTaskListFromJson exactReader drillOnly = some [] ∧
        ¬app.SafeAccess (.start []) := by
  refine ⟨by decide +kernel, ?_, by decide +kernel⟩
  rfl

end TaskSystem

end Edm
