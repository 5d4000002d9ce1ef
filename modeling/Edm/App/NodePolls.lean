import Edm.App.NodeRecord

/-!
# How the runner keeps the record

The functions of the runner, one after another. A request leaves the current node as it is (`Stays`);
a poll may leave it for the next one, once it is over (`Proceeds`). What follows a wait finds the node
as the wait knows it.
-/

set_option linter.unusedSectionVars false

namespace Edm

namespace TaskSystem

open RunnerEvent

variable {K : Type} [Field K] [LinearOrder K] {s t : TaskSystem K}

/-! ### The next node -/

theorem needs_of_not_takesUp {kont : Kont} (h : kont.takesUp = false) : s.Needs kont := by
  revert h
  cases kont <;> simp [Kont.takesUp, Needs]

theorem takesUp_eq_false (h : ¬s.TakenUp) : ∀ w ∈ s.waits, w.kont.takesUp = false := by
  intro w hw
  by_contra hk
  exact h ⟨w, hw, by simpa using hk⟩

/-- The node behind one that was reached is not. -/
theorem Recorded.next (h : s.Recorded) (hn : s.runner.currGcodeNum ∈ inits s.history) :
    s.nextNum.Recorded ∧ s.nextNum.Fresh := by
  have hinits := h.inits_eq hn
  refine ⟨⟨.inl hinits, h.started, h.startedReached, h.runReached, h.performed⟩, ?_⟩
  show s.runner.currGcodeNum + 1 ∉ inits s.history
  rw [hinits, List.mem_reverse, List.mem_range]
  exact lt_irrefl _

/-- Where nothing takes up the program and nothing runs, the waits know nothing of the node. -/
theorem NodeWaits.next (h : s.NodeWaits) (hr : s.AtRest) (ht : ¬s.TakenUp)
    (hn : s.runner.currGcodeNum ∈ inits s.history) : s.nextNum.NodeWaits where
  toRecorded := (h.toRecorded.next hn).1
  own := AtRest.own (s := s) hr
  single := h.single
  inside := h.inside
  allows w hw := Kont.allows_of_not_takesUp (takesUp_eq_false ht w hw) _
  needs w hw := needs_of_not_takesUp (takesUp_eq_false ht w hw)

theorem not_onMotion_of_ge (h : s.runner.gcodeList.length ≤ s.runner.currGcodeNum) :
    ¬s.OnMotion := by
  rintro ⟨g, hg, -⟩
  have hnone : s.currGcode = none := List.getElem?_eq_none h
  rw [hnone] at hg
  cases hg

section Functions

variable [FloorRing K] [RealFns K] [Settings] {g : GCodeTask K}

theorem SameNode.stopRecording : SameNode s (s.stopRecording g) := by
  have hd : SameNode s (s.drillRecordData false) := by
    unfold drillRecordData
    split
    · exact .emit s rfl (by simp)
    · exact .same (.refl s)
  unfold TaskSystem.stopRecording
  split
  · split
    · exact hd
    · exact .same (.refl s)
  · exact .same (.refl s)

/-- The current node is left. -/
theorem NodeWaits.checkToNextGcode (h : s.NodeWaits) (hr : s.AtRest) (ht : ¬s.TakenUp)
    (hn : s.runner.currGcodeNum ∈ inits s.history) (hs : s.runner.state ≠ .waitingForResumed) :
    (s.checkToNextGcode g).1.NodeLaw ∧
      (s.checkToNextGcode g).1.runner.currGcodeNum = s.runner.currGcodeNum + 1 ∧
      trace (s.checkToNextGcode g).1.history = trace s.history := by
  have hsame : SameNode s (s.stopRecording g) := .stopRecording
  have hstate : (s.stopRecording g).runner = s.runner := stopRecording_state.1
  have hu : (s.stopRecording g).NodeWaits := h.same hsame fun w hw => by
    rw [hstate]
    exact h.allows w hw
  have hn' : (s.stopRecording g).runner.currGcodeNum ∈ inits (s.stopRecording g).history := by
    rw [hsame.currGcodeNum, hsame.inits]
    exact hn
  have ht' : ¬(s.stopRecording g).TakenUp := fun hk => ht (hsame.takenUp.mp hk)
  have hnext := hu.next (hr.frame hsame.frame) ht' hn'
  have hfresh := (hu.toRecorded.next hn').2
  have hnum : (s.stopRecording g).nextNum.runner.currGcodeNum = s.runner.currGcodeNum + 1 :=
    congrArg (· + 1) hsame.currGcodeNum
  unfold TaskSystem.checkToNextGcode
  dsimp only
  split
  · rename_i hge
    refine ⟨⟨?_, ?_⟩, hnum, hsame.trace⟩
    · exact hnext.waitFor (by simp [MotionCommand.isStart]) (by simp [Kont.takesUp])
        (by simp [Kont.isStartWait]) (fun _ _ _ => rfl) rfl trivial
    · -- behind the last node, with the abort to come
      have hblocked : ((s.stopRecording g).nextNum.abort "_check_to_next_gcode: gcode overflow"
          .runOnce).Blocked := ⟨_, List.mem_cons_self, rfl⟩
      have hmotion : ¬((s.stopRecording g).nextNum.abort "_check_to_next_gcode: gcode overflow"
          .runOnce).OnMotion := not_onMotion_of_ge (s := (s.stopRecording g).nextNum) hge
      have hst : ((s.stopRecording g).nextNum.abort "_check_to_next_gcode: gcode overflow"
          .runOnce).runner.state = s.runner.state := by
        show (s.stopRecording g).runner.state = s.runner.state
        rw [hstate]
      show Stands ((s.stopRecording g).nextNum.abort _ _)
      unfold Stands
      rw [hst]
      cases hst' : s.runner.state with
      | readyToStart => exact hfresh
      | currentNodeIniting => exact .inl hblocked
      | running | paused => exact ⟨fun hm => absurd hm hmotion, fun _ => .inl hblocked⟩
      | waitingForResumed => exact absurd hst' hs
      | _ => trivial
  · have hlaw : ((s.stopRecording g).nextNum.switchToState .currentNodeIniting).NodeLaw := by
      refine NodeLaw.switchTo hnext (fun w hw => ?_) (.inr hfresh)
      exact Kont.allows_of_not_takesUp (takesUp_eq_false ht' w hw) _
    exact ⟨hlaw.same (.same ⟨rfl, rfl, rfl, rfl, ⟨_, rfl⟩, rfl, rfl, rfl, rfl⟩) rfl, hnum,
      hsame.trace⟩

/-! ### Requests -/

/-- The current node and the record stay as they are. -/
structure Stays (s t : TaskSystem K) : Prop where
  law : t.NodeLaw
  num : t.runner.currGcodeNum = s.runner.currGcodeNum
  trace : trace t.history = trace s.history

/-- A motion node was started, or another is held by a wait or to be run. -/
theorem NodeLaw.goesOn (h : s.NodeLaw)
    (hs : s.runner.state = .running ∨ s.runner.state = .paused ∨
      s.runner.state = .waitingForResumed) :
    (s.OnMotion → s.Sent) ∧ (¬s.OnMotion → s.Blocked ∨ s.Ready) := by
  have hstands := h.stands
  rcases hs with hs | hs | hs
  · simpa only [Stands, hs] using hstands
  · simpa only [Stands, hs] using hstands
  · have hsent : s.Sent := by simpa only [Stands, hs] using hstands
    exact ⟨fun _ => hsent, fun hm => absurd hsent.1 hm⟩

/-- The program is paused, by a request or a poll. -/
theorem NodeLaw.paused (h : s.NodeLaw)
    (hs : s.runner.state = .running ∨ s.runner.state = .waitingForResumed ∨
      s.runner.state = .waitingForPaused)
    (hgoes : (s.OnMotion → s.Sent) ∧ (¬s.OnMotion → s.Blocked ∨ s.Ready)) :
    Stays s ((s.switchToState .paused).emit .autoPaused) ∧
      Stays s (((s.switchToState .paused).setDelayPauseFlag false).emit .autoPaused) := by
  have hstart : ∀ w ∈ s.waits, w.kont.isStartWait = false :=
    h.not_startWait (by rcases hs with hs | hs | hs <;> simp [hs])
      (by rcases hs with hs | hs | hs <;> simp [Alive, hs])
  have hpaused : (s.switchToState .paused).NodeLaw :=
    .switchTo h.toNodeWaits (fun w hw => (Kont.allows_waiting (hstart w hw)).1) hgoes
  exact ⟨⟨hpaused.emit rfl (by simp), rfl, rfl⟩,
    ⟨(hpaused.same (.setDelayPauseFlag _ false) rfl).emit rfl (by simp), rfl, rfl⟩⟩

theorem NodeLaw.pause (h : s.NodeLaw) (caller : PauseCaller) : Stays s (s.pause caller).1 := by
  have hsame : Stays s s := ⟨h, rfl, rfl⟩
  have hwait (hs : s.runner.state = .running ∨ s.runner.state = .waitingForResumed) :
      Stays s (s.waitFor .autoPause none (.pauseAnswered caller)) := by
    refine ⟨h.waitFor rfl rfl fun w hw hk => ?_, rfl, rfl⟩
    have hstart := h.not_startWait (by rcases hs with hs | hs <;> simp [hs])
      (by rcases hs with hs | hs <;> simp [Alive, hs]) w hw
    simp [hstart] at hk
  unfold TaskSystem.pause
  split
  · exact hsame
  · split
    · exact hsame
    · cases hs : s.runner.state with
      | waitingForResumed | running =>
        dsimp only
        split
        · exact (h.paused (by simp [hs]) (h.goesOn (by simp [hs]))).1
        · exact hwait (by simp [hs])
      | currentNodeIniting =>
        exact ⟨h.same (.setDelayPauseFlag s true) rfl, rfl, rfl⟩
      | _ => exact hsame

theorem NodeLaw.runOnceTail (h : s.NodeLaw) : Stays s s.runOnceTail := by
  unfold TaskSystem.runOnceTail
  split
  · have hp := h.pause .runOnce
    generalize s.pause .runOnce = res at hp
    split
    · exact ⟨hp.law.same (.setDelayPauseFlag _ false) rfl, hp.num, hp.trace⟩
    · exact hp
  · exact ⟨h, rfl, rfl⟩

theorem thenTail_stays {f : Flow K} (h : f.1.NodeLaw) : Stays f.1 (thenTail f) := by
  unfold thenTail
  split
  · exact h.runOnceTail
  · exact ⟨h, rfl, rfl⟩

/-- A node that is no motion node goes on with the program. -/
theorem NodeLaw.resume (h : s.NodeLaw) (ht : s.OnMotion → ¬s.TakenUp) : Stays s s.resume := by
  have hsame : Stays s s := ⟨h, rfl, rfl⟩
  unfold TaskSystem.resume
  split
  · exact hsame
  · split
    · exact hsame
    · rename_i g hg
      split
      · rename_i hs
        have hgoes := h.goesOn (.inr (.inl hs))
        have hstart := h.not_startWait (by simp [hs]) (by simp [Alive, hs])
        split
        · rename_i hm
          have hm : ¬s.OnMotion := not_onMotion hg (by simpa using hm)
          refine ⟨NodeLaw.emit (.switchTo h.toNodeWaits (fun w hw => ?_) ?_) rfl (by simp), rfl,
            rfl⟩
          · refine Kont.allows_running (hstart w hw) fun hk => hm ?_
            have hneeds := h.needs w hw
            rw [hk] at hneeds
            exact hneeds.1
          · exact hgoes
        · rename_i hm
          have hm : s.OnMotion := ⟨g, hg, by simpa using hm⟩
          refine ⟨⟨?_, h.stands.waitFor⟩, rfl, rfl⟩
          refine h.toNodeWaits.waitFor (by simp [MotionCommand.isStart]) (fun _ => ht hm)
            (by simp [Kont.isStartWait]) (fun w hw hk => ?_) (by simp [Kont.allows, hs])
            (hgoes.1 hm)
          simp [hstart w hw] at hk
      · exact hsame

/-- An end leaves the record as it is. -/
theorem SameNode.ended {err : Bool} (hf : Frame s t) (hl : t.runner.gcodeList = s.runner.gcodeList)
    (hn : t.runner.currGcodeNum = s.runner.currGcodeNum)
    (hh : t.history = .autoStopped err :: s.history) : SameNode s t :=
  ⟨hf, hl, hn, by rw [hh, trace_of_not_executes rfl (by simp)]⟩

theorem NodeLaw.end_ (h : s.NodeWaits) : s.end_.NodeLaw :=
  h.stopped (.ended ⟨⟨_, rfl⟩, rfl, rfl, rfl⟩ rfl rfl rfl) rfl

theorem NodeLaw.stop (h : s.NodeLaw) : Stays s s.stop := by
  have hcase := s.stop_cases
  generalize s.stop = t at hcase
  cases hcase with
  | nothing => exact ⟨h, rfl, rfl⟩
  | returned => exact ⟨h.emit rfl (by simp), rfl, rfl⟩
  | onTheSpot => exact ⟨(NodeLaw.end_ h.toNodeWaits).emit rfl (by simp), rfl, rfl⟩
  | waits _ hs =>
    refine ⟨h.waitFor rfl rfl fun w hw hk => ?_, rfl, rfl⟩
    have hstart := h.not_startWait (by rcases hs with hs | hs | hs | hs <;> simp [hs])
      (by rcases hs with hs | hs | hs | hs <;> simp [Alive, hs]) w hw
    simp [hstart] at hk

/-! ### Polls -/

/-- The node before is over: nothing runs, and it was started or run, unless there was nothing to
do. -/
def LeftDone (s t : TaskSystem K) : Prop :=
  s.AtRest ∧ ∀ g, s.currGcode = some g →
    if g.isMotionTask then
      s.runner.currGcodeNum ∈ starts t.history ∨
        GCodeRunner.prepare s.settings s.coords s.motion.infoCache.currCmdAxisBlu g.node = .next
    else s.runner.currGcodeNum ∈ runs t.history

/-- The node stays current, or the next one is. -/
def Leaves (s t : TaskSystem K) : Prop :=
  t.runner.currGcodeNum = s.runner.currGcodeNum ∨
    t.runner.currGcodeNum = s.runner.currGcodeNum + 1 ∧ s.LeftDone t

structure Proceeds (s t : TaskSystem K) : Prop where
  law : t.NodeLaw
  leaves : s.Leaves t

theorem Leaves.trace (h : s.Leaves t) {u : TaskSystem K}
    (hn : u.runner.currGcodeNum = t.runner.currGcodeNum) (hh : trace u.history = trace t.history) :
    s.Leaves u := by
  unfold Leaves LeftDone starts runs at *
  rwa [hn, hh]

theorem Proceeds.stays {u : TaskSystem K} (h : Proceeds s t) (hk : Stays t u) : Proceeds s u :=
  ⟨hk.law, h.leaves.trace hk.num hk.trace⟩

theorem Stays.proceeds (h : Stays s t) : Proceeds s t := ⟨h.law, .inl h.num⟩

theorem Proceeds.of_same {s' : TaskSystem K} (hk : Same s s') (hset : s'.settings = s.settings)
    (hcoords : s'.coords = s.coords) (h : Proceeds s' t) : Proceeds s t := by
  have hn : SameNode s s' := .same hk
  refine ⟨h.law, ?_⟩
  have hleaves := h.leaves
  have hrest : s'.AtRest → s.AtRest := by
    unfold AtRest TaskRuns StartQueued
    rw [hn.frame.motionStateMachine, hn.frame.cmdQueue]
    exact id
  unfold Leaves LeftDone at *
  rw [hn.currGcodeNum, hn.currGcode, hset, hcoords, hn.frame.infoCache] at hleaves
  exact hleaves.imp_right fun hl => ⟨hl.1, hrest hl.2.1, hl.2.2⟩

theorem starts_subset {e : RunnerEvent} (hc : e ≠ .startCalled) (l : List RunnerEvent) :
    ∀ num ∈ starts l, num ∈ starts (e :: l) := by
  intro num hn
  unfold starts at *
  rw [trace_cons hc]
  split
  · rw [List.mem_filterMap] at *
    obtain ⟨e', he', h⟩ := hn
    exact ⟨e', List.mem_cons_of_mem _ he', h⟩
  · exact hn

theorem runs_subset {e : RunnerEvent} (hc : e ≠ .startCalled) (l : List RunnerEvent) :
    ∀ num ∈ runs l, num ∈ runs (e :: l) := by
  intro num hn
  unfold runs at *
  rw [trace_cons hc]
  split
  · rw [List.mem_filterMap] at *
    obtain ⟨e', he', h⟩ := hn
    exact ⟨e', List.mem_cons_of_mem _ he', h⟩
  · exact hn

/-- What is executed is only added to the record. -/
theorem NodeWaits.execute (h : s.NodeWaits) {e : RunnerEvent} (hc : e ≠ .startCalled)
    (hr : (s.emit e).Recorded) : (s.emit e).NodeWaits where
  toRecorded := hr
  own ho := starts_subset hc _ _ (h.own ho)
  single := h.single
  inside := h.inside
  allows := h.allows
  needs w hw := by
    have hneeds := h.needs w hw
    revert hneeds
    cases w.kont with
    | startAnswered | resumeAnswered => exact fun hn => ⟨hn.1, starts_subset hc _ _ hn.2⟩
    | eleparamSet | warningCleared =>
      rintro ⟨g, hg, hn⟩
      refine ⟨g, hg, ?_⟩
      split at hn
      · rw [if_pos ‹_›]
        exact starts_subset hc _ _ hn
      · rw [if_neg ‹_›]
        exact runs_subset hc _ _ hn
    | _ => exact id

/-- An abort holds the node. -/
theorem NodeWaits.abort (h : s.NodeWaits) (err : String) (caller : AbortCaller)
    (hs : s.runner.state = .currentNodeIniting ∨ s.runner.state = .running ∧ ¬s.OnMotion) :
    (s.abort err caller).NodeLaw := by
  have hblocked : (s.abort err caller).Blocked := ⟨_, List.mem_cons_self, rfl⟩
  refine ⟨?_, ?_⟩
  · exact h.waitFor (by simp [MotionCommand.isStart]) (by simp [Kont.takesUp])
      (by simp [Kont.isStartWait]) (fun _ _ _ => rfl) rfl trivial
  · rcases hs with hs | ⟨hs, hm⟩
    · exact stands_initing hs (.inl hblocked)
    · exact stands_running hs ⟨fun hm' => absurd hm' hm, fun _ => .inl hblocked⟩

/-- A node of a kind the build has. -/
def isKnown (g : GCodeTask K) : Bool := !g.isDrill || Settings.powerZhongguDrill

theorem prepare_ne_unknown {st : TaskSettings K} {cm : CoordinateManager K} {pos : Axis K}
    (hm : g.isMotionTask) (hk : isKnown g) : GCodeRunner.prepare st cm pos g.node ≠ .unknown := by
  intro h
  rcases g with ⟨lineNumber, gcodeStr, options, node⟩
  cases node with
  | g00Motion =>
    simp only [GCodeRunner.prepare, GCodeRunner.prepareG00] at h
    split at h
    · cases h
    · split at h
      · cases h
      · split at h
        · cases h
        · split at h <;> cases h
  | g01Motion =>
    simp only [GCodeRunner.prepare, GCodeRunner.prepareG01] at h
    split at h
    · cases h
    · split at h
      · cases h
      · split at h
        · cases h
        · split at h <;> cases h
  | delay => cases h
  | pauseCommand => cases h
  | drillMotion =>
    have hdrill : Settings.powerZhongguDrill = true := by
      simpa [isKnown, GCodeTask.isDrill] using hk
    simp only [GCodeRunner.prepare, GCodeRunner.prepareDrill, hdrill] at h
    split at h
    · contradiction
    · split at h <;> cases h
  | g01GroupMotion =>
    simp only [GCodeRunner.prepare] at h
    split at h <;> cases h
  | _ => simp [GCodeTask.isMotionTask] at hm

/-- A node is prepared where the runner waits for nothing. -/
theorem NodeLaw.stateCurrentNodeIniting (h : s.NodeLaw) (hm : s.MotionLaw)
    (hs : s.runner.state = .currentNodeIniting) (hw : ∀ w ∈ s.waits, w.kont.isRunner = false)
    (hk : ∀ g ∈ s.currGcode, isKnown g) :
    Proceeds s (s.stateCurrentNodeIniting s.motion.infoCache).1 := by
  have hrest : s.AtRest := hm.busy.atRest_of_initing hs hw
  have hblocked : ¬s.Blocked := by
    rintro ⟨w, hmem, hh⟩
    simpa [hw w hmem] using Kont.isRunner_of_holdsNode hh
  have hup : ¬s.TakenUp := by
    rintro ⟨w, hmem, hh⟩
    simpa [hw w hmem] using Kont.isRunner_of_takesUp hh
  have hfresh : s.Fresh := by
    have hstands := h.stands
    simp only [Stands, hs] at hstands
    exact hstands.resolve_left hblocked
  unfold TaskSystem.stateCurrentNodeIniting
  cases hg : s.currGcode with
  | none => exact ⟨h, .inl rfl⟩
  | some g =>
    have hinit := h.toNodeWaits.execute (by simp) (h.toRecorded.enter hfresh)
    have hn : SameNode (s.emit (.initNode s.runner.currGcodeNum))
        ((s.emit (.initNode s.runner.currGcodeNum)).emit (.autogcodeSwitchedToLine g.lineNumber)) :=
      .emit _ rfl (by simp)
    have hu := hinit.same hn hinit.allows
    set u := (s.emit (.initNode s.runner.currGcodeNum)).emit (.autogcodeSwitchedToLine g.lineNumber)
      with hudef
    have hin : u.runner.currGcodeNum ∈ inits u.history := by
      rw [hn.inits]
      simp [hudef, TaskSystem.emit]
    have hnew : u.runner.currGcodeNum ∉ starts u.history ∧
        u.runner.currGcodeNum ∉ runs u.history := by
      rw [hn.starts, hn.runs]
      simp only [TaskSystem.emit, starts_initNode, runs_initNode]
      exact ⟨fun hc => hfresh (h.startedReached _ hc), fun hc => hfresh (h.runReached _ hc)⟩
    dsimp only
    split
    · rename_i hmotion
      have hmotion : ¬s.OnMotion := not_onMotion hg (by simpa using hmotion)
      refine ⟨.switchTo hu (fun w hmem => ?_) ?_, .inl rfl⟩
      · exact Kont.allows_of_not_takesUp (takesUp_eq_false (s := s) hup w hmem) _
      · exact ⟨fun hc => absurd hc hmotion, fun _ => .inr ⟨hin, hnew.2⟩⟩
    · rename_i hmotion
      have hmotion : g.isMotionTask := by simpa using hmotion
      split
      · exact ⟨hu.abort _ _ (.inl hs), .inl rfl⟩
      · rename_i hprep
        obtain ⟨hlaw, hnum, -⟩ := hu.checkToNextGcode (g := g) hrest hup hin (by
          show s.runner.state ≠ _
          simp [hs])
        refine ⟨hlaw, .inr ⟨hnum, hrest, fun g' hg' => ?_⟩⟩
        rw [hg] at hg'
        cases hg'
        rw [if_pos hmotion]
        exact .inr hprep
      · rename_i hprep
        exact absurd hprep (prepare_ne_unknown hmotion (hk g hg))
      · rename_i cmd timeoutMs err hprep
        have hrec := hu.toRecorded.start hin hnew.1
        have hv := hu.execute (by simp) hrec
        have hsent : (u.emit (.startCommand s.runner.currGcodeNum)).Sent := by
          refine ⟨⟨g, hg, hmotion⟩, ?_⟩
          show s.runner.currGcodeNum ∈ starts (.startCommand s.runner.currGcodeNum :: u.history)
          simp
        refine ⟨⟨?_, ?_⟩, .inl rfl⟩
        · refine hv.waitFor (fun _ => hsent.2) (fun _ => hup) (fun _ w hmem => ?_)
            (fun w hmem _ => rfl) ?_ hsent
          · exact Kont.insideStart_of_not_isRunner (hw w hmem)
          · show decide (s.runner.state = _ ∨ s.runner.state = _) = true
            simp [hs]
        · exact stands_initing hs (.inl ⟨_, List.mem_cons_self, rfl⟩)

/-- A node that is no motion node is run where nothing holds it. -/
theorem NodeWaits.stateRunningNonMotion (h : s.NodeWaits) (hr : s.AtRest) (hup : ¬s.TakenUp)
    (hs : s.runner.state = .running) (hg : s.currGcode = some g) (hm : g.isMotionTask = false)
    (hrun : s.runner.currGcodeNum ∈ runs s.history) (info : MotionInfo K) :
    Proceeds s (s.stateRunningNonMotion info g).1 := by
  have hmotion : ¬s.OnMotion := not_onMotion hg hm
  have hin : s.runner.currGcodeNum ∈ inits s.history := h.runReached _ hrun
  have habort (err : String) : Proceeds s (s.abort err .runOnce) :=
    ⟨h.abort err .runOnce (.inr ⟨hs, hmotion⟩), .inl rfl⟩
  have hnext {u : TaskSystem K} (hn : SameNode s u) (hst : u.runner.state = s.runner.state) :
      Proceeds s (u.checkToNextGcode g).1 := by
    have hu : u.NodeWaits := h.same hn fun w hw => hst ▸ h.allows w hw
    obtain ⟨hlaw, hnum, htrace⟩ := hu.checkToNextGcode (g := g) (hr.frame hn.frame)
      (fun hk => hup (hn.takenUp.mp hk)) (by rw [hn.currGcodeNum, hn.inits]; exact hin)
      (by simp [hst, hs])
    refine ⟨hlaw, .inr ⟨by rw [hnum, hn.currGcodeNum], hr, fun g' hg' => ?_⟩⟩
    rw [hg] at hg'
    cases hg'
    rw [if_neg (by simp [hm]), runs, htrace, hn.trace]
    exact hrun
  unfold TaskSystem.stateRunningNonMotion
  split
  · exact ⟨NodeLaw.end_ h, .inl rfl⟩
  · rename_i index _
    split
    · exact habort _
    · exact hnext ⟨⟨⟨_, rfl⟩, rfl, rfl, rfl⟩, rfl, rfl,
        trace_of_not_executes (e := .switchCoordindex (uint32 index)) rfl (by simp)⟩ rfl
  · split
    · exact habort _
    · refine ⟨⟨?_, ?_⟩, .inl rfl⟩
      · exact h.waitFor (by simp [MotionCommand.isStart]) (fun _ => hup)
          (by simp [Kont.isStartWait])
          (fun w hw hk => by simp [h.not_startWait (by simp [hs]) (by simp [Alive, hs]) w hw] at hk)
          (by simp [Kont.allows, hs]) ⟨g, hg, by rw [if_neg (by simp [hm])]; exact hrun⟩
      · exact stands_running hs
          ⟨fun hc => absurd hc hmotion, fun _ => .inl ⟨_, List.mem_cons_self, rfl⟩⟩
  · split
    · exact habort _
    · dsimp only
      split
      · exact habort _
      · exact hnext ⟨⟨⟨_, rfl⟩, rfl, rfl, rfl⟩, rfl, rfl,
          trace_of_not_executes (e := .coordOffsetChanged) rfl (by simp)⟩ rfl
  · exact hnext (.same (.refl s)) rfl
  · exact hnext (.same (.refl s)) rfl
  · rename_i h1 h2 h3 h4 h5 h6
    exfalso
    rcases g with ⟨lineNumber, gcodeStr, options, node⟩
    cases node <;> simp_all [GCodeTask.isMotionTask]

/-- The task of a motion node is over. -/
theorem NodeLaw.stateRunningIdle (h : s.NodeLaw) (hr : s.AtRest) (hup : ¬s.TakenUp)
    (hs : s.runner.state = .running) (hg : s.currGcode = some g) (hsent : s.Sent)
    (info : MotionInfo K) : Proceeds s (s.stateRunningIdle info g).1 := by
  have hmotion : g.isMotionTask := by
    obtain ⟨g', hg', hm⟩ := hsent.1
    rw [hg] at hg'
    cases hg'
    exact hm
  have hnext : Proceeds s (s.checkToNextGcode g).1 := by
    obtain ⟨hlaw, hnum, htrace⟩ := h.toNodeWaits.checkToNextGcode (g := g) hr hup
      (h.startedReached _ hsent.2) (by simp [hs])
    refine ⟨hlaw, .inr ⟨hnum, hr, fun g' hg' => ?_⟩⟩
    rw [hg] at hg'
    cases hg'
    rw [if_pos hmotion, starts, htrace]
    exact .inl hsent.2
  unfold TaskSystem.stateRunningIdle
  split
  · split
    · exact hnext
    · split
      · refine ⟨⟨?_, h.stands.waitFor⟩, .inl rfl⟩
        exact h.toNodeWaits.waitFor (by simp [MotionCommand.isStart]) (fun _ => hup)
          (by simp [Kont.isStartWait])
          (fun w hw hk => by simp [h.not_startWait (by simp [hs]) (by simp [Alive, hs]) w hw] at hk)
          (by simp [Kont.allows, hs]) ⟨g, hg, by rw [if_pos hmotion]; exact hsent.2⟩
      · exact ⟨h.abort _ _, .inl rfl⟩
  · exact hnext

theorem SameNode.showSubLine (info : MotionInfo K) : SameNode s (s.showSubLine info g) := by
  unfold TaskSystem.showSubLine
  split
  · exact .emit s rfl (by simp)
  · exact .same (.refl s)

/-- In the running state the waits that are left hold nothing. -/
theorem NodeLaw.not_takenUp_of_running (h : s.NodeLaw) (hs : s.runner.state = .running)
    (hb : ¬s.Blocked) : ¬s.TakenUp := by
  rintro ⟨w, hw, hk⟩
  have hheld : w.kont.holdsNode = false := by
    by_contra hheld
    exact hb ⟨w, hw, by simpa using hheld⟩
  have hall := h.allows w hw
  revert hk hheld hall
  rw [hs]
  cases w.kont <;> simp [Kont.takesUp, Kont.holdsNode, Kont.allows]

theorem NodeLaw.stateRunning (h : s.NodeLaw) (hm : s.MotionLaw) (hs : s.runner.state = .running)
    (hb : ¬s.Blocked) : Proceeds s (s.stateRunning s.motion.infoCache).1 := by
  have hup := h.not_takenUp_of_running hs hb
  have hgoes := h.goesOn (.inl hs)
  have hqueue : ¬s.StartQueued := fun hq => by simpa [hs] using (hm.busy.queued hq).1
  unfold TaskSystem.stateRunning
  cases hg : s.currGcode with
  | none => exact ⟨h, .inl rfl⟩
  | some g =>
    have hrec : (s.emit (.runNode s.runner.currGcodeNum)).Recorded := by
      by_cases hmotion : s.OnMotion
      · exact h.toRecorded.run (h.startedReached _ (hgoes.1 hmotion).2) (.inl hmotion)
      · have hready := (hgoes.2 hmotion).resolve_left hb
        exact h.toRecorded.run hready.1 (.inr hready.2)
    have hu := h.toNodeWaits.execute (by simp) hrec
    have hrun : s.runner.currGcodeNum ∈ runs (.runNode s.runner.currGcodeNum :: s.history) := by
      simp
    dsimp only
    split
    · rename_i hmotion
      have hmotion : g.isMotionTask = false := by simpa using hmotion
      have hoff : ¬s.OnMotion := not_onMotion hg hmotion
      have hrest : s.AtRest := ⟨fun hr => hoff (hm.busy.running hr).2.2.1, hqueue⟩
      have hp := hu.stateRunningNonMotion hrest hup hs hg hmotion hrun s.motion.infoCache
      exact ⟨hp.law, hp.leaves⟩
    · rename_i hmotion
      have hon : s.OnMotion := ⟨g, hg, by simpa using hmotion⟩
      have hsent : (s.emit (.runNode s.runner.currGcodeNum)).Sent :=
        ⟨hon, starts_subset (by simp) _ _ (hgoes.1 hon).2⟩
      have hv : (s.emit (.runNode s.runner.currGcodeNum)).NodeLaw :=
        ⟨hu, stands_running hs ⟨fun _ => hsent, fun hc => absurd hon hc⟩⟩
      have hline : SameNode (s.emit (.runNode s.runner.currGcodeNum))
          ((s.emit (.runNode s.runner.currGcodeNum)).showSubLine s.motion.infoCache g) :=
        .showSubLine _
      have hst : ((s.emit (.runNode s.runner.currGcodeNum)).showSubLine s.motion.infoCache g).runner
          = s.runner := by
        unfold TaskSystem.showSubLine
        split <;> rfl
      have hlaw := hv.same hline (by rw [hst]; rfl)
      split
      · split
        · have hrunning := (congrArg GCodeRunner.state hst).trans hs
          have hpause := (hlaw.paused (.inl hrunning) (hlaw.goesOn (.inl hrunning))).2
          exact ⟨hpause.law, .inl (hpause.num.trans (congrArg GCodeRunner.currGcodeNum hst))⟩
        · exact ⟨hlaw, .inl (congrArg GCodeRunner.currGcodeNum hst)⟩
      · rename_i hidle
        have hrest : (s.emit (.runNode s.runner.currGcodeNum)).AtRest :=
          ⟨fun hr => by simpa [hidle] using hm.upToDate.mainMode.trans hr.1, hqueue⟩
        have hsame : ((s.emit (.runNode s.runner.currGcodeNum)).showSubLine s.motion.infoCache
            g).coords = s.coords ∧
          ((s.emit (.runNode s.runner.currGcodeNum)).showSubLine s.motion.infoCache g).settings =
            s.settings := by
          unfold TaskSystem.showSubLine
          split <;> exact ⟨rfl, rfl⟩
        have hp := hlaw.stateRunningIdle (hrest.frame hline.frame)
          (fun hk => hup (hline.takenUp.mp hk)) (by rw [hst]; exact hs)
          (by rw [hline.currGcode]; exact hg) (hline.sent.mpr hsent) s.motion.infoCache
        refine ⟨hp.law, ?_⟩
        have hleaves := hp.leaves
        unfold Leaves LeftDone at hleaves ⊢
        rw [hst, hline.currGcode, hsame.1, hsame.2, hline.frame.infoCache] at hleaves
        exact hleaves.imp_right fun hl => ⟨hl.1, hrest, hl.2.2⟩
      · exact ⟨hlaw.abort _ _, .inl (congrArg GCodeRunner.currGcodeNum hst)⟩

theorem NodeLaw.mismatch (h : s.NodeLaw) (err : String) : Stays s (s.mismatch err).1 :=
  ⟨(h.emit rfl (by simp)).abort err .runOnce, rfl, rfl⟩

/-- What is paused was started for the current node. -/
theorem NodeLaw.stateWaitingForPaused (h : s.NodeLaw) (hm : s.MotionLaw)
    (hs : s.runner.state = .waitingForPaused) :
    Stays s (s.stateWaitingForPaused s.motion.infoCache).1 := by
  unfold TaskSystem.stateWaitingForPaused
  split
  · rename_i hmode
    split
    · rename_i hauto
      have hruns : s.TaskRuns := by
        refine ⟨hm.upToDate.mainMode.symm.trans hmode, ?_⟩
        rw [← hm.upToDate.autoState, hauto]
        simp
      have hsent : s.Sent := ⟨(hm.busy.running hruns).2.2.1, h.own (.inl hruns)⟩
      exact (h.paused (.inr (.inr hs)) ⟨fun _ => hsent, fun hc => absurd hsent.1 hc⟩).2
    · exact ⟨h, rfl, rfl⟩
    · exact h.mismatch _
  · exact h.mismatch _
  · exact h.mismatch _

theorem NodeLaw.stateWaitingForResumed (h : s.NodeLaw) (hs : s.runner.state = .waitingForResumed)
    (info : MotionInfo K) : Stays s (s.stateWaitingForResumed info).1 := by
  have hstart := h.not_startWait (by simp [hs]) (by simp [Alive, hs])
  have hrun : Stays s ((s.switchToState .running).emit .autoResumed) := by
    refine ⟨NodeLaw.emit (.switchTo h.toNodeWaits (fun w hw => ?_) ?_) rfl (by simp), rfl, rfl⟩
    · refine Kont.allows_running (hstart w hw) fun hk => ?_
      have hall := h.allows w hw
      simp [hk, Kont.allows, hs] at hall
    · exact h.goesOn (.inr (.inr hs))
  unfold TaskSystem.stateWaitingForResumed
  split
  · split
    · exact hrun
    · exact hrun
    · exact hrun
    · exact ⟨h, rfl, rfl⟩
    · exact ⟨h, rfl, rfl⟩
    · exact h.mismatch _
  · exact hrun
  · exact h.mismatch _

theorem NodeLaw.stateWaitingForStopped (h : s.NodeLaw) (info : MotionInfo K) :
    Stays s (s.stateWaitingForStopped info).1 := by
  have hend : Stays s s.endStopped := by
    unfold endStopped
    split
    · exact ⟨NodeLaw.end_ h.toNodeWaits, rfl, rfl⟩
    · rename_i g _
      have hn : SameNode s (s.stopRecording g) := .stopRecording
      have hst : (s.stopRecording g).runner = s.runner := stopRecording_state.1
      have hlaw := h.same hn (congrArg GCodeRunner.state hst)
      exact ⟨NodeLaw.end_ hlaw.toNodeWaits, hn.currGcodeNum, hn.trace⟩
  unfold TaskSystem.stateWaitingForStopped
  split
  · split
    · exact ⟨h, rfl, rfl⟩
    · exact hend
    · exact h.mismatch _
  · exact hend
  · exact h.mismatch _

/-- What a poll may find. -/
structure PollsApart (s : TaskSystem K) : Prop where
  initing : s.runner.state = .currentNodeIniting →
    (∀ w ∈ s.waits, w.kont.isRunner = false) ∧ ∀ g ∈ s.currGcode, isKnown g
  running : s.runner.state = .running → ¬s.Blocked

theorem NodeLaw.poll (h : s.NodeLaw) (hm : s.MotionLaw) (hc : s.PollsApart) :
    Proceeds s s.poll.1 := by
  have hsame : Proceeds s s := ⟨h, .inl rfl⟩
  unfold TaskSystem.poll
  dsimp only
  split
  · rename_i hs
    have hfresh : s.Fresh := by simpa only [Stands, hs] using h.stands
    refine ⟨NodeLaw.emit (.switchTo h.toNodeWaits (fun w hw => ?_) ?_) rfl (by simp), .inl rfl⟩
    · have hall := h.allows w hw
      refine Kont.allows_of_not_takesUp ?_ _
      rw [hs] at hall
      revert hall
      cases w.kont <;> simp [Kont.takesUp, Kont.allows]
    · exact .inr hfresh
  · rename_i hs
    exact h.stateCurrentNodeIniting hm hs (hc.initing hs).1 (hc.initing hs).2
  · rename_i hs
    exact h.stateRunning hm hs (hc.running hs)
  · exact (h.stateWaitingForPaused hm ‹_›).proceeds
  · exact hsame
  · exact (h.stateWaitingForResumed ‹_› _).proceeds
  · exact (h.stateWaitingForStopped _).proceeds
  · exact hsame

theorem NodeLaw.runOnce (h : s.NodeLaw) (hm : s.MotionLaw) (hc : s.PollsApart) :
    Proceeds s s.runOnce :=
  (h.poll hm hc).stays (thenTail_stays (h.poll hm hc).law)

/-! ### What follows a wait -/

variable {w : Wait} {rest : List Wait}

/-- Whatever the state, an abort stands for the wait it follows. -/
theorem NodeLaw.abortAfter (h : s.NodeLaw) (hw : s.waits = w :: rest) (err : String)
    (caller : AbortCaller) :
    (({ s with waits := rest } : TaskSystem K).abort err caller).NodeLaw := by
  refine ⟨?_, ?_⟩
  · exact (h.toNodeWaits.pop hw).waitFor (by simp [MotionCommand.isStart]) (by simp [Kont.takesUp])
      (by simp [Kont.isStartWait]) (fun _ _ _ => rfl) rfl trivial
  · exact h.stands.congr rfl rfl fun _ => ⟨_, List.mem_cons_self, rfl⟩

/-- A wait that holds no node leaves everything as it was. -/
theorem NodeLaw.popFree (h : s.NodeLaw) (hw : s.waits = w :: rest) (hk : w.kont.holdsNode = false) :
    ({ s with waits := rest } : TaskSystem K).NodeLaw := by
  refine ⟨h.toNodeWaits.pop hw, h.stands.congr rfl rfl ?_⟩
  rintro ⟨w', hw', hk'⟩
  rw [hw] at hw'
  rcases List.mem_cons.mp hw' with rfl | hw'
  · simp [hk] at hk'
  · exact ⟨w', hw', hk'⟩

/-- The current node is left after its wait. -/
theorem NodeLaw.nodePasses (h : s.NodeLaw) (hw : s.waits = w :: rest)
    (hk : (∃ index, w.kont = .eleparamSet index) ∨ w.kont = .warningCleared) (hr : s.AtRest)
    (accepted : Bool) (err : String) :
    Proceeds s (TaskSystem.thenTail
      (if accepted then ({ s with waits := rest } : TaskSystem K).nextGcode
        else (({ s with waits := rest } : TaskSystem K).abort err .runOnce, false))) := by
  have hmem : w ∈ s.waits := hw ▸ List.mem_cons_self
  have hall : s.runner.state ≠ .waitingForResumed := by
    have hall := h.allows w hmem
    intro hs
    rcases hk with ⟨index, hk⟩ | hk <;> simp [hk, Kont.allows, hs] at hall
  have hneeds : s.Executed := by
    have hneeds := h.needs w hmem
    rcases hk with ⟨index, hk⟩ | hk <;> simpa only [hk, Needs] using hneeds
  have hup : ¬({ s with waits := rest } : TaskSystem K).TakenUp :=
    h.not_takenUp hw (by rcases hk with ⟨index, hk⟩ | hk <;> simp [hk, Kont.takesUp])
  cases accepted with
  | false => exact ⟨h.abortAfter hw err .runOnce, .inl rfl⟩
  | true =>
    obtain ⟨g, hg, hn⟩ := hneeds
    have hin : s.runner.currGcodeNum ∈ inits s.history := by
      split at hn
      · exact h.startedReached _ hn
      · exact h.runReached _ hn
    obtain ⟨hlaw, hnum, htrace⟩ :=
      (h.toNodeWaits.pop hw).checkToNextGcode (g := g) hr hup hin hall
    have hnext : ({ s with waits := rest } : TaskSystem K).nextGcode =
        ({ s with waits := rest } : TaskSystem K).checkToNextGcode g := by
      unfold nextGcode
      rw [show ({ s with waits := rest } : TaskSystem K).currGcode = some g from hg]
    rw [if_pos rfl, hnext]
    refine Proceeds.stays ⟨hlaw, .inr ⟨hnum, hr, fun g' hg' => ?_⟩⟩ (thenTail_stays hlaw)
    rw [hg] at hg'
    cases hg'
    split
    · rw [if_pos ‹_›] at hn
      rw [starts, htrace]
      exact .inl hn
    · rw [if_neg ‹_›] at hn
      rw [runs, htrace]
      exact hn

theorem NodeLaw.resumeKont (h : s.NodeLaw) (hm : s.MotionLaw) (hw : s.waits = w :: rest)
    (accepted : Bool) :
    Proceeds s (({ s with waits := rest } : TaskSystem K).resumeKont accepted w.kont) := by
  have hmem : w ∈ s.waits := hw ▸ List.mem_cons_self
  have hpop := h.toNodeWaits.pop hw
  have hneeds := h.needs w hmem
  have hfree := h.popFree hw
  have hup := h.not_takenUp hw
  have hidle := hm.idle w hmem
  have hpasses := h.nodePasses hw
  -- inside the wait for a start the runner is not paused or stopped
  have hstart (hk : w.kont.insideStart = false) :
      ∀ w' ∈ ({ s with waits := rest } : TaskSystem K).waits, w'.kont.isStartWait = false := by
    intro w' hw'
    by_contra hs
    have := h.inside w' (hw ▸ List.mem_cons_of_mem _ hw') (by simpa using hs) w hmem
    simp [hk] at this
  generalize w.kont = kont at *
  cases kont with
  | startAnswered err drill =>
    cases accepted with
    | false => exact ⟨h.abortAfter hw err .runOnce, .inl rfl⟩
    | true =>
      have hrunning :
          (({ s with waits := rest } : TaskSystem K).switchToState .running).NodeLaw := by
        refine .switchTo hpop (fun w' hw' => ?_) ⟨fun _ => hneeds, fun hc => absurd hneeds.1 hc⟩
        exact Kont.allows_of_not_takesUp (takesUp_eq_false (hup rfl) w' hw') _
      have hstarted : Proceeds s
          (({ s with waits := rest } : TaskSystem K).startAnswered err drill true).1 := by
        cases drill with
        | false => exact ⟨hrunning, .inl rfl⟩
        | true =>
          show Proceeds s (TaskSystem.switchToState
            (({ s with waits := rest } : TaskSystem K).drillRecordData true) .running)
          rw [switchToState_drillRecordData]
          unfold drillRecordData
          split
          · exact ⟨hrunning.emit rfl (by simp), .inl rfl⟩
          · exact ⟨hrunning, .inl rfl⟩
      exact hstarted.stays (thenTail_stays hstarted.law)
  | eleparamSet index => exact hpasses (.inl ⟨index, rfl⟩) (hidle rfl) accepted _
  | warningCleared => exact hpasses (.inr rfl) (hidle rfl) accepted _
  | aborted err caller =>
    have hover : (({ s with waits := rest } : TaskSystem K).aborted err).NodeLaw :=
      hpop.stopped (.ended ⟨⟨_, rfl⟩, rfl, rfl, rfl⟩ rfl rfl rfl) rfl
    cases caller with
    | runOnce =>
      show Proceeds s (({ s with waits := rest } : TaskSystem K).aborted err).runOnceTail
      rw [runOnceTail_aborted]
      exact ⟨hover, .inl rfl⟩
    | start => exact ⟨hover.emit rfl (by simp), .inl rfl⟩
    | estop => exact ⟨hover, .inl rfl⟩
  | pauseAnswered caller =>
    cases accepted with
    | false => exact ⟨(hfree rfl).same (.setDelayPauseFlag _ true) rfl, .inl rfl⟩
    | true =>
      have hpause :
          (({ s with waits := rest } : TaskSystem K).switchToState .waitingForPaused).NodeLaw :=
        .switchTo hpop (fun w' hw' => (Kont.allows_waiting (hstart rfl w' hw')).2.1) trivial
      cases caller with
      | runOnce => exact ⟨hpause.same (.setDelayPauseFlag _ false) rfl, .inl rfl⟩
      | user => exact ⟨hpause, .inl rfl⟩
  | resumeAnswered =>
    cases accepted with
    | false => exact ⟨hfree rfl, .inl rfl⟩
    | true =>
      refine ⟨.switchTo hpop (fun w' hw' => ?_) hneeds, .inl rfl⟩
      exact Kont.allows_of_not_takesUp (takesUp_eq_false (hup rfl) w' hw') _
  | stopAnswered waitingForPaused =>
    cases accepted with
    | true =>
      have hstop :
          (({ s with waits := rest } : TaskSystem K).switchToState .waitingForStopped).NodeLaw :=
        .switchTo hpop (fun w' hw' => (Kont.allows_waiting (hstart rfl w' hw')).2.2) trivial
      exact ⟨hstop.emit rfl (by simp), .inl rfl⟩
    | false =>
      cases waitingForPaused with
      | true => exact ⟨(hfree rfl).emit rfl (by simp), .inl rfl⟩
      | false =>
        refine ⟨(hfree rfl).waitFor rfl rfl fun w' hw' hk' => ?_, .inl rfl⟩
        simp [hstart rfl w' hw'] at hk'
  | stopEstopAnswered => exact ⟨(NodeLaw.end_ hpop).emit rfl (by simp), .inl rfl⟩
  | estopAnswered =>
    show Proceeds s (({ s with waits := rest } : TaskSystem K).estopAnswered accepted)
    unfold estopAnswered
    split
    · exact ⟨hfree rfl, .inl rfl⟩
    · split
      · exact ⟨hpop.stopped ⟨⟨⟨_, rfl⟩, rfl, rfl, rfl⟩, rfl, rfl, rfl⟩ rfl, .inl rfl⟩
      · exact ⟨(hfree rfl).abort _ _, .inl rfl⟩
  | other => exact ⟨hfree rfl, .inl rfl⟩

end Functions

end TaskSystem

end Edm
