import Edm.App.NodeOrder

/-!
# A task that is dropped is not over

The runner takes an idle motion side for the end of the task of the node it runs. An emergency stop
and a loss of the drives reset the motion side to idle as well, with the task not over. What keeps
the runner on its node then is the wait for the emergency stop: nothing looks at the node before the
wait returns, and then the program is ended. `dropped_node_stays` says that polls inside that wait,
the loss of the drives and waits that outlive their program are all that can make the runner go on.
-/

set_option linter.unusedSectionVars false

namespace Edm

variable {K : Type}

def MotionCommand.isEstop : MotionCommand K → Bool
  | .manualEmergencyStopAllMove => true
  | _ => false

namespace Kont

/-- The waits for an emergency stop. -/
def isEstop : Kont → Bool
  | .aborted .. | .stopEstopAnswered | .estopAnswered => true
  | _ => false

theorem isEstop_of_fits {kont : Kont} {cmd : MotionCommand K} (h : kont.Fits cmd)
    (hc : cmd.isEstop) : kont.isEstop := by
  cases kont with
  | aborted | stopEstopAnswered | estopAnswered => rfl
  | _ =>
    revert h hc
    cases cmd <;> simp [Fits, MotionCommand.isEstop, MotionCommand.isStart,
      MotionCommand.isSetting, MotionCommand.isForeign]

end Kont

namespace TaskSystem

section Rules

variable [Field K] [LinearOrder K] {A : TaskSystem K → Prop} {s t : TaskSystem K} {init : Prop}

/-! ### The node that is current -/

theorem OnTask.congr (h : s.OnTask) (hm : s.OnMotion → t.OnMotion)
    (hs : t.runner.state = s.runner.state) : t.OnTask :=
  ⟨hm h.onMotion, hs ▸ h.stopped, hs ▸ h.readyToStart, hs ▸ h.currentNodeIniting⟩

/-- No move brings the runner onto a motion node that is started: that takes an answer. -/
theorem Moves.not_onTask (hm : Moves A s t) (h : ¬s.OnTask) : ¬t.OnTask := by
  induction hm with
  | refl => exact h
  | keep _ hk ih => exact fun ho => ih (ho.congr hk.onMotion.mp hk.state.symm)
  | emit _ _ _ ih | mismatch _ _ ih => exact fun ho => ih (ho.congr id rfl)
  | @switchTo u st _ hs ih =>
    intro ho
    have hu (h1 : u.runner.state ≠ .stopped) (h2 : u.runner.state ≠ .readyToStart)
        (h3 : u.runner.state ≠ .currentNodeIniting) : False := ih ⟨ho.onMotion, h1, h2, h3⟩
    cases st with
    | currentNodeIniting => exact ho.currentNodeIniting rfl
    | running =>
      rcases hs with ⟨-, hn⟩ | hs | hs
      · exact hn ho.onMotion
      · exact hu (by simp [hs]) (by simp [hs]) (by simp [hs])
      · exact hu (by simp [hs]) (by simp [hs]) (by simp [hs])
    | paused =>
      rcases hs with hs | hs | hs <;> exact hu (by simp [hs]) (by simp [hs]) (by simp [hs])
    | _ => exact hs.elim
  | nextNode _ _ _ => exact fun ho => ho.currentNodeIniting rfl
  | overflow _ _ hl _ => exact fun ho => not_onMotion_of_ge hl ho.onMotion
  | end_ _ _ _ => exact fun ho => ho.stopped rfl

/-- The current node stays so. Unless the runner ends it stays on its task. -/
structure StaysOn (s t : TaskSystem K) : Prop where
  currGcode : t.currGcode = s.currGcode
  num : t.runner.currGcodeNum = s.runner.currGcodeNum
  alive : t.Alive → s.Alive
  onTask : s.OnTask → t.Alive → t.OnTask

theorem StaysOn.onMotion (h : StaysOn s t) : t.OnMotion ↔ s.OnMotion := by
  unfold OnMotion
  rw [h.currGcode]

theorem StaysOn.of_state (hg : t.runner.gcodeList = s.runner.gcodeList)
    (hn : t.runner.currGcodeNum = s.runner.currGcodeNum) (hs : t.runner.state = s.runner.state) :
    StaysOn s t := by
  have hcurr : t.currGcode = s.currGcode := by
    unfold TaskSystem.currGcode
    rw [hg, hn]
  refine ⟨hcurr, hn, fun ha => ?_, fun ho _ => ho.congr (fun hm => ?_) hs⟩
  · unfold Alive at *
    rwa [hs] at ha
  · unfold OnMotion at *
    rwa [hcurr]

theorem StaysOn.switchTo (st : GCodeRunner.State) (ha : s.Alive)
    (hs : st ≠ .readyToStart ∧ st ≠ .currentNodeIniting) : StaysOn s (s.switchToState st) :=
  ⟨rfl, rfl, fun _ => ha, fun ho ha' => ⟨ho.onMotion, ha', hs.1, hs.2⟩⟩

theorem StaysOn.ended (hg : t.runner.gcodeList = s.runner.gcodeList)
    (hn : t.runner.currGcodeNum = s.runner.currGcodeNum) (hs : t.runner.state = .stopped) :
    StaysOn s t := by
  refine ⟨?_, hn, fun ha => absurd hs ha, fun _ ha => absurd hs ha⟩
  unfold TaskSystem.currGcode
  rw [hg, hn]

theorem StaysOn.trans {u : TaskSystem K} (h : StaysOn s t) (h' : StaysOn t u) : StaysOn s u :=
  ⟨h'.currGcode.trans h.currGcode, h'.num.trans h.num, fun ha => h.alive (h'.alive ha),
    fun ho ha => h'.onTask (h.onTask ho (h'.alive ha)) ha⟩

theorem Moves.staysOn (hm : Moves Never s t) : StaysOn s t := by
  induction hm with
  | refl => exact .of_state rfl rfl rfl
  | keep _ hk ih => exact ih.trans (.of_state hk.gcodeList hk.currGcodeNum hk.state)
  | emit _ _ _ ih | mismatch _ _ ih => exact ih.trans (.of_state rfl rfl rfl)
  | @switchTo u st _ hs ih =>
    refine ih.trans ?_
    cases st with
    | currentNodeIniting =>
      have hready : u.runner.state = .readyToStart := hs
      exact ⟨rfl, rfl, fun _ => by simp [Alive, hready],
        fun ho _ => absurd hready ho.readyToStart⟩
    | running =>
      refine .switchTo _ ?_ (by simp)
      rcases hs with ⟨hs, -⟩ | hs | hs <;> simp [Alive, hs]
    | paused =>
      refine .switchTo _ ?_ (by simp)
      rcases hs with hs | hs | hs <;> simp [Alive, hs]
    | _ => exact hs.elim
  | nextNode _ ha _ | overflow _ ha _ _ => exact ha.elim
  | end_ _ _ ih => exact ih.trans (.ended rfl rfl rfl)

theorem Runs.staysOn (hr : Runs init Never s t) : StaysOn s t := by
  cases hr with
  | through hm => exact hm.staysOn
  | waits _ _ _ hm => exact hm.staysOn.trans (.of_state rfl rfl rfl)

end Rules

/-! ### The waits that begin -/

/-- The motion node that is run is found idle. -/
def SeesIdle (s : TaskSystem K) : Prop :=
  s.runner.state = .running ∧ s.OnMotion ∧ s.motion.infoCache.mainMode = .idle

/-- A wait that finds the motion side idle begins in a poll of a node that is run: of one without
motion, or of one that is found idle. -/
def MayFindIdle (s : TaskSystem K) : Kont → Prop
  | .eleparamSet _ => s.runner.state = .running ∧ ¬s.OnMotion
  | .warningCleared => s.SeesIdle
  | _ => True

/-- At most one wait begins, of a kind `P` allows. -/
def Adds (P : Kont → Prop) (s t : TaskSystem K) : Prop :=
  t.waits = s.waits ∨ ∃ w, t.waits = w :: s.waits ∧ P w.kont

/-- A function that is not through waits. -/
inductive FlowAdds (P : Kont → Prop) (s : TaskSystem K) : Flow K → Prop where
  | through {t : TaskSystem K} (h : t.waits = s.waits) : FlowAdds P s (t, true)
  | waits {t : TaskSystem K} (w : Wait) (h : t.waits = w :: s.waits) (hk : P w.kont) :
      FlowAdds P s (t, false)

/-- A wait that finds nothing idle. -/
def Plain (kont : Kont) : Prop := kont.findsIdle = false

section Waits

variable {P : Kont → Prop} {s t : TaskSystem K}

theorem Plain.mayFindIdle {kont : Kont} (h : Plain kont) : s.MayFindIdle kont := by
  revert h
  cases kont <;> simp [Plain, Kont.findsIdle, MayFindIdle]

theorem Adds.mono {Q : Kont → Prop} (hPQ : ∀ kont, P kont → Q kont) (h : Adds P s t) :
    Adds Q s t := h.imp_right fun ⟨w, hw, hk⟩ => ⟨w, hw, hPQ _ hk⟩

theorem FlowAdds.abort (hP : ∀ kont, Plain kont → P kont) (h : t.waits = s.waits) (err : String)
    (caller : AbortCaller) : FlowAdds P s (t.abort err caller, false) :=
  .waits ⟨_, none, .aborted err caller, none⟩ (congrArg _ h) (hP _ rfl)

variable [Settings]

theorem pause_adds (caller : PauseCaller) : Adds Plain s (s.pause caller).1 := by
  obtain ⟨t, ret, h, hm⟩ | ⟨h, -⟩ := pause_cases (A := Never) (s := s) caller
  · rw [h]
    exact .inl hm.frame.waits
  · rw [h]
    exact .inr ⟨_, rfl, rfl⟩

theorem resume_adds : Adds Plain s s.resume := by
  unfold resume
  split
  · exact .inl rfl
  · split
    · exact .inl rfl
    · split
      · split
        · exact .inl rfl
        · exact .inr ⟨_, rfl, rfl⟩
      · exact .inl rfl

theorem runOnceTail_adds : Adds Plain s s.runOnceTail := by
  unfold runOnceTail
  split
  · have hp := pause_adds (s := s) .runOnce
    generalize s.pause .runOnce = res at hp
    split
    · exact hp
    · exact hp
  · exact .inl rfl

theorem thenTail_adds {f : Flow K} (hP : ∀ kont, Plain kont → P kont) (h : FlowAdds P s f) :
    Adds P s (thenTail f) := by
  cases h with
  | @through t h =>
    have htail := (runOnceTail_adds (s := t)).mono hP
    unfold Adds at htail
    rwa [h] at htail
  | waits w h hk => exact .inr ⟨w, h, hk⟩

theorem checkToNextGcode_adds (hP : ∀ kont, Plain kont → P kont) (h : t.waits = s.waits)
    (g : GCodeTask K) : FlowAdds P s (t.checkToNextGcode g) := by
  have hstop : (t.stopRecording g).waits = s.waits :=
    (stopRecording_moves (A := Never)).frame.waits.trans h
  unfold checkToNextGcode
  dsimp only
  split
  · exact .abort (t := (t.stopRecording g).nextNum) hP hstop _ .runOnce
  · exact .through hstop

end Waits

section Polls

variable [Field K] [LinearOrder K] [FloorRing K] [RealFns K] [Settings] {s t : TaskSystem K}
  {info : MotionInfo K} {g : GCodeTask K}

theorem stateCurrentNodeIniting_adds :
    FlowAdds s.MayFindIdle s (s.stateCurrentNodeIniting info) := by
  have hP (kont : Kont) (hk : Plain kont) : s.MayFindIdle kont := hk.mayFindIdle
  unfold stateCurrentNodeIniting
  split
  · exact .through rfl
  · dsimp only
    split
    · exact .through rfl
    · split
      · exact .abort hP (by rfl) _ _
      · exact checkToNextGcode_adds hP (by rfl) _
      · exact .through rfl
      · exact .waits _ rfl trivial

theorem stateRunningNonMotion_adds (hs : s.runner.state = .running) (hm : ¬s.OnMotion)
    (hw : t.waits = s.waits) : FlowAdds s.MayFindIdle s (t.stateRunningNonMotion info g) := by
  have hP (kont : Kont) (hk : Plain kont) : s.MayFindIdle kont := hk.mayFindIdle
  unfold stateRunningNonMotion
  split
  · exact .through hw
  · split
    · exact .abort hP hw _ _
    · exact checkToNextGcode_adds hP (by exact hw) _
  · split
    · exact .abort hP hw _ _
    · exact .waits _ (congrArg _ hw) ⟨hs, hm⟩
  · split
    · exact .abort hP hw _ _
    · dsimp only
      split
      · exact .abort hP hw _ _
      · exact checkToNextGcode_adds hP (by exact hw) _
  · exact checkToNextGcode_adds hP hw _
  · exact checkToNextGcode_adds hP hw _
  · exact .through hw

theorem stateRunningIdle_adds (hs : s.runner.state = .running) (hm : s.OnMotion)
    (hi : s.motion.infoCache.mainMode = .idle) (hw : t.waits = s.waits) :
    FlowAdds s.MayFindIdle s (t.stateRunningIdle info g) := by
  have hP (kont : Kont) (hk : Plain kont) : s.MayFindIdle kont := hk.mayFindIdle
  unfold stateRunningIdle
  split
  · split
    · exact checkToNextGcode_adds hP hw _
    · split
      · exact .waits _ (congrArg _ hw) ⟨hs, hm, hi⟩
      · exact .abort hP hw _ _
  · exact checkToNextGcode_adds hP hw _

theorem stateRunning_adds (hs : s.runner.state = .running) :
    FlowAdds s.MayFindIdle s (s.stateRunning s.motion.infoCache) := by
  unfold stateRunning
  split
  · exact .through rfl
  · rename_i g hg
    dsimp only
    split
    · rename_i hm
      exact stateRunningNonMotion_adds hs (not_onMotion hg (by simpa using hm)) rfl
    · rename_i hm
      have hm : s.OnMotion := ⟨g, hg, by simpa using hm⟩
      have hw : ((s.emit (.runNode s.runner.currGcodeNum)).showSubLine s.motion.infoCache g).waits =
          s.waits := (showSubLine_moves (A := Never) s.motion.infoCache).1.frame.waits
      split
      · split
        · exact .through hw
        · exact .through hw
      · exact stateRunningIdle_adds hs hm ‹_› hw
      · exact .abort (fun _ hk => hk.mayFindIdle) hw _ _

theorem mismatch_adds (err : String) : FlowAdds s.MayFindIdle s (s.mismatch err) :=
  .abort (t := s.emit .stateMismatch) (fun _ hk => hk.mayFindIdle) (by rfl) err .runOnce

theorem endStopped_waits : s.endStopped.waits = s.waits := by
  unfold endStopped
  split
  · rfl
  · exact (stopRecording_moves (A := Never)).frame.waits

theorem poll_adds : FlowAdds s.MayFindIdle s s.poll := by
  unfold poll
  dsimp only
  split
  · exact .through rfl
  · exact stateCurrentNodeIniting_adds
  · exact stateRunning_adds ‹_›
  · unfold stateWaitingForPaused
    split
    · split
      · exact .through rfl
      · exact .through rfl
      · exact mismatch_adds _
    · exact mismatch_adds _
    · exact mismatch_adds _
  · exact .through rfl
  · unfold stateWaitingForResumed
    split
    · split
      · exact .through rfl
      · exact .through rfl
      · exact .through rfl
      · exact .through rfl
      · exact .through rfl
      · exact mismatch_adds _
    · exact .through rfl
    · exact mismatch_adds _
  · unfold stateWaitingForStopped
    split
    · split
      · exact .through rfl
      · exact .through endStopped_waits
      · exact mismatch_adds _
    · exact .through endStopped_waits
    · exact mismatch_adds _
  · exact .through rfl

theorem runOnce_adds : Adds s.MayFindIdle s s.runOnce :=
  thenTail_adds (fun _ hk => hk.mayFindIdle) poll_adds

/-- What follows a wait looks at no node. -/
theorem resumeKont_adds (accepted : Bool) (kont : Kont) :
    Adds Plain s (s.resumeKont accepted kont) := by
  have hP (kont : Kont) (hk : Plain kont) : Plain kont := hk
  have hnext : FlowAdds Plain s s.nextGcode := by
    unfold nextGcode
    split
    · exact .through rfl
    · exact checkToNextGcode_adds hP rfl _
  have hrefused (err : String) : FlowAdds Plain s (s.abort err .runOnce, false) :=
    .abort hP rfl err .runOnce
  cases kont with
  | startAnswered err drill =>
    refine thenTail_adds hP ?_
    unfold startAnswered
    split
    · exact hrefused err
    · split
      · exact .through (Moves.refl.drillRecordData (A := Never) true).frame.waits
      · exact .through rfl
  | eleparamSet index =>
    cases accepted with
    | false => exact thenTail_adds hP (hrefused _)
    | true => exact thenTail_adds hP hnext
  | warningCleared =>
    cases accepted with
    | false => exact thenTail_adds hP (hrefused _)
    | true => exact thenTail_adds hP hnext
  | aborted err caller =>
    cases caller with
    | runOnce =>
      show Adds Plain s (s.aborted err).runOnceTail
      rw [runOnceTail_aborted]
      exact .inl rfl
    | _ => exact .inl rfl
  | pauseAnswered caller => cases accepted <;> cases caller <;> exact .inl rfl
  | resumeAnswered => cases accepted <;> exact .inl rfl
  | stopAnswered waitingForPaused =>
    cases accepted with
    | true => exact .inl rfl
    | false => cases waitingForPaused with
      | true => exact .inl rfl
      | false => exact .inr ⟨_, rfl, rfl⟩
  | stopEstopAnswered | other => exact .inl rfl
  | estopAnswered =>
    cases accepted with
    | false => exact .inl rfl
    | true =>
      show Adds Plain s (if s.isOver then s.resetState else s.abort "ESTOP" .estop)
      split
      · exact .inl rfl
      · exact .inr ⟨_, rfl, rfl⟩

end Polls

/-! ### The waits for an emergency stop -/

/-- What is known of an emergency stop that is waited for: it is accepted, no warning is cleared
inside the wait, and until it is answered no node is started while a parameter is set there. -/
structure EstopLaw (s : TaskSystem K) : Prop where
  order : s.InOrder
  pending : ∀ w ∈ s.waits, w.answer = none → ∃ c ∈ s.cmdQueue, c.1 = w.cmd
  accepted : ∀ w ∈ s.waits, w.kont.isEstop → w.answer ≠ some false
  inside : ∀ e ∈ s.waits, e.kont.isEstop → ∀ w ∈ s.waits, e.cmd < w.cmd → w.kont.findsIdle →
    w.kont ≠ .warningCleared ∧ (e.answer = none → ¬s.OnTask)

/-- The wait may begin inside those that are under way. -/
def FitsInside (s : TaskSystem K) (kont : Kont) : Prop :=
  kont.findsIdle → ∀ e ∈ s.waits, e.kont.isEstop → kont ≠ .warningCleared ∧ ¬s.OnTask

theorem Plain.fitsInside {s : TaskSystem K} {kont : Kont} (h : Plain kont) : s.FitsInside kont := by
  intro hk
  rw [h] at hk
  cases hk

namespace EstopLaw

variable [Field K] [LinearOrder K] {A : TaskSystem K → Prop} {s t : TaskSystem K} {init : Prop}

theorem frame (h : s.EstopLaw) (hf : Frame s t) (ho : ¬s.OnTask → ¬t.OnTask) : t.EstopLaw where
  order := h.order.frame hf
  pending := by
    rw [hf.waits, hf.cmdQueue]
    exact h.pending
  accepted := by
    rw [hf.waits]
    exact h.accepted
  inside := by
    rw [hf.waits]
    intro e he hk w hw hlt hi
    exact (h.inside e he hk w hw hlt hi).imp_right fun hn ha => ho (hn ha)

theorem same (h : s.EstopLaw) (hk : Same s t) : t.EstopLaw :=
  h.frame ⟨hk.motion, hk.cmdQueue, hk.nextCmd, hk.waits⟩
    (Moves.keep (A := Never) .refl hk).not_onTask

/-- Where every command that is waited for is answered the node does not matter. -/
theorem acted (h : s.EstopLaw) (ha : ∀ w ∈ s.waits, w.answer ≠ none) (hf : Frame s t) :
    t.EstopLaw where
  order := h.order.frame hf
  pending w hw hn := absurd hn (ha w (hf.waits ▸ hw))
  accepted := by
    rw [hf.waits]
    exact h.accepted
  inside := by
    rw [hf.waits]
    intro e he hk w hw hlt hi
    exact ⟨(h.inside e he hk w hw hlt hi).1, fun hn => absurd hn (ha e he)⟩

theorem push (h : s.EstopLaw) {cmd : MotionCommand K} (hc : cmd.isForeign) :
    (s.pushCommand cmd).EstopLaw where
  order := h.order.push hc
  pending w hw hn := by
    obtain ⟨c, hc, he⟩ := h.pending w hw hn
    exact ⟨c, List.mem_append_left _ hc, he⟩
  accepted := h.accepted
  inside e he hk w hw hlt hi :=
    (h.inside e he hk w hw hlt hi).imp_right fun hn ha ho => hn ha (ho.congr id rfl)

theorem waitFor (h : s.EstopLaw) {cmd : MotionCommand K} {timeoutMs : Option ℕ} {kont : Kont}
    (hf : kont.Fits cmd) (ht : timeoutMs.isSome → kont.mayTimeOut) (hk : s.FitsInside kont) :
    (s.waitFor cmd timeoutMs kont).EstopLaw where
  order := h.order.waitFor hf ht
  pending w hw hn := by
    rcases List.mem_cons.mp hw with rfl | hw
    · exact ⟨_, List.mem_append_right _ (List.mem_singleton_self _), rfl⟩
    · obtain ⟨c, hc, he⟩ := h.pending w hw hn
      exact ⟨c, List.mem_append_left _ hc, he⟩
  accepted w hw he := by
    rcases List.mem_cons.mp hw with rfl | hw
    · simp
    · exact h.accepted w hw he
  inside e he hke w hw hlt hi := by
    have hback (hn : ¬s.OnTask) : ¬(s.waitFor cmd timeoutMs kont).OnTask := fun ho =>
      hn (ho.congr id rfl)
    rcases List.mem_cons.mp he with rfl | he <;> rcases List.mem_cons.mp hw with rfl | hw
    · exact absurd hlt (lt_irrefl _)
    · -- the new wait is inside all others
      have := h.order.waits_lt w hw
      simp only at hlt
      omega
    · exact (hk hi e he hke).imp_right fun hn _ => hback hn
    · exact (h.inside e he hke w hw hlt hi).imp_right fun hn ha => hback (hn ha)

/-- Functions of the runner, where it is known what they wait for. -/
theorem runs (h : s.EstopLaw) (hr : Runs init A s t) (ha : Adds s.FitsInside s t) : t.EstopLaw := by
  cases hr with
  | through hm => exact h.frame hm.frame hm.not_onTask
  | @waits u cmd timeoutMs kont hm hw =>
    refine (h.frame hm.frame hm.not_onTask).waitFor hw.fits hw.timeouts fun hi e he hke => ?_
    have hkont : s.FitsInside kont := by
      rcases ha with ha | ⟨w, ha, hk⟩
      · have hlen := congrArg List.length ha
        simp [TaskSystem.waitFor, hm.frame.waits] at hlen
      · obtain ⟨rfl, -⟩ := List.cons.inj ha
        exact hk
    exact (hkont hi e (hm.frame.waits ▸ he) hke).imp_right hm.not_onTask

theorem pop (h : s.EstopLaw) {w : Wait} {rest : List Wait} (hw : s.waits = w :: rest)
    (hr : w.answer.isSome ∨ w.timeoutMs.isSome) :
    ({ s with waits := rest } : TaskSystem K).EstopLaw := by
  have hsub {w' : Wait} (hw' : w' ∈ rest) : w' ∈ s.waits := hw ▸ List.mem_cons_of_mem _ hw'
  exact ⟨h.order.pop hw hr, fun w' hw' => h.pending w' (hsub hw'),
    fun w' hw' => h.accepted w' (hsub hw'), fun e he hk w' hw' hlt hi =>
      (h.inside e (hsub he) hk w' (hsub hw') hlt hi).imp_right fun hn ha ho =>
        hn ha (ho.congr id rfl)⟩

/-- Commands are answered in order: those that wait below an answered one are answered. -/
theorem answered_below (h : s.EstopLaw) {w : Wait} {rest : List Wait} (hw : s.waits = w :: rest)
    (ha : w.answer.isSome) : ∀ w' ∈ rest, w'.answer ≠ none := by
  intro w' hw' hn
  obtain ⟨c, hc, he⟩ := h.pending w' (hw ▸ List.mem_cons_of_mem _ hw') hn
  have hlt := h.order.answered w (hw ▸ List.mem_cons_self) ha c hc
  have hgt := (List.pairwise_cons.mp (hw ▸ h.order.waits)).1 w' hw'
  omega

theorem returns (h : s.EstopLaw) {kont : Kont} {accepted : Bool}
    (ha : accepted → ∀ w ∈ s.waits, w.answer ≠ none) (hadds : Adds Plain s t)
    (hc : ReturnCase s kont accepted t) : t.EstopLaw := by
  have hplain (kont : Kont) (hk : Plain kont) : s.FitsInside kont := hk.fitsInside
  have hestop {kont' : Kont} (hf : kont'.Fits (.manualEmergencyStopAllMove : MotionCommand K))
      (hk : Plain kont') : (s.waitFor .manualEmergencyStopAllMove none kont').EstopLaw :=
    h.waitFor hf (by simp) hk.fitsInside
  cases hc with
  | nodeStarted hr =>
    have hu : (s.switchToState .running).EstopLaw :=
      h.acted (ha rfl) ⟨⟨_, rfl⟩, rfl, rfl, rfl⟩
    exact hu.runs hr (hadds.mono fun kont hk => hk.fitsInside)
  | nodePasses _ hr => exact h.runs hr (hadds.mono hplain)
  | nodeRefused => exact hestop rfl rfl
  | aborted | startAborted | stopped =>
    exact h.frame ⟨⟨_, rfl⟩, rfl, rfl, rfl⟩ fun _ ho => ho.stopped rfl
  | paused hk =>
    have hu : (s.switchToState .waitingForPaused).EstopLaw :=
      h.acted (ha rfl) ⟨⟨_, rfl⟩, rfl, rfl, rfl⟩
    exact hu.same hk
  | resumed | stopping => exact h.acted (ha rfl) ⟨⟨_, rfl⟩, rfl, rfl, rfl⟩
  | stopRefused => exact h.frame ⟨⟨_, rfl⟩, rfl, rfl, rfl⟩ fun hn ho => hn (ho.congr id rfl)
  | stopEstops => exact hestop rfl rfl
  | estopOver hs => exact h.frame ⟨⟨_, rfl⟩, rfl, rfl, rfl⟩ fun _ ho => ho.stopped rfl
  | estopAborts => exact hestop rfl rfl
  | nothing _ hk => exact h.same hk

theorem start (h : s.EstopLaw) (hc : StartCase s t) : t.EstopLaw := by
  have hframe {u : TaskSystem K} (hu : u = { s.emit .startCalled with runner := u.runner })
      (ho : ¬u.OnTask) : u.EstopLaw :=
    h.frame (by rw [hu]; exact ⟨⟨_, rfl⟩, rfl, rfl, rfl⟩) fun _ => ho
  cases hc with
  | refused => exact h.frame ⟨⟨_, rfl⟩, rfl, rfl, rfl⟩ fun hn ho => hn (ho.congr id rfl)
  | failed hs err ht hr =>
    exact (hframe ht fun ho => ho.stopped hr).waitFor rfl (by simp) (Plain.fitsInside rfl)
  | started hs ht hr =>
    exact (hframe ht fun ho => ho.readyToStart hr).frame ⟨⟨_, rfl⟩, rfl, rfl, rfl⟩
      fun hn ho => hn (ho.congr id rfl)

theorem stop (h : s.EstopLaw) (hc : StopCase s t) : t.EstopLaw := by
  cases hc with
  | nothing => exact h
  | returned => exact h.frame ⟨⟨_, rfl⟩, rfl, rfl, rfl⟩ fun hn ho => hn (ho.congr id rfl)
  | onTheSpot => exact h.frame ⟨⟨_, rfl⟩, rfl, rfl, rfl⟩ fun _ ho => ho.stopped rfl
  | waits => exact h.waitFor rfl (by simp) (Plain.fitsInside rfl)

variable [FloorRing K] [RealFns K] [Settings]

/-- A cycle answers a command; an emergency stop is accepted. -/
theorem cycle (h : s.EstopLaw) {inp : ThreadInput K} (hc : CycleCase s inp t) : t.EstopLaw := by
  cases hc with
  | idle =>
    obtain ⟨⟨h1, h2, h3, h4, h5, h6, h7, h8⟩, hp, ha, hi⟩ := h
    exact ⟨⟨h1, h2, h3, h4, h5, h6, h7, h8⟩, hp, ha, fun e he hk w hw hlt hf =>
      (hi e he hk w hw hlt hf).imp_right fun hn ha ho => hn ha (ho.congr id rfl)⟩
  | @fetched id cmd rest hq =>
    have hkont (answer : Option Bool) (w : Wait) : (w.answered id answer).kont = w.kont := by
      unfold Wait.answered
      split <;> rfl
    have hcmd (answer : Option Bool) (w : Wait) : (w.answered id answer).cmd = w.cmd := by
      unfold Wait.answered
      split <;> rfl
    obtain ⟨ret, hret⟩ : ∃ ret, (s.motion.threadCycle inp (some cmd)).2 = some ret :=
      ⟨_, rfl⟩
    refine ⟨h.order.fetch hq _ _, ?_, ?_, ?_⟩
    · simp only [List.forall_mem_map, hcmd]
      intro w hw hn
      have hne : w.cmd ≠ id := by
        intro he
        simp [Wait.answered, he, hret] at hn
      rw [Wait.answered, if_neg hne] at hn
      obtain ⟨c, hc, he⟩ := h.pending w hw hn
      rw [hq] at hc
      rcases List.mem_cons.mp hc with rfl | hc
      · exact absurd he.symm hne
      · exact ⟨c, hc, he⟩
    · simp only [List.forall_mem_map, hkont]
      intro w hw hk
      by_cases he : w.cmd = id
      · -- the command is the emergency stop, which is never refused
        have hfit := h.order.fits w hw _ (hq ▸ List.mem_cons_self) he
        obtain rfl : cmd = .manualEmergencyStopAllMove := by
          revert hk hfit
          cases w.kont <;> simp [Kont.isEstop, Kont.Fits]
        rw [Wait.answered, if_pos he]
        exact fun hn => by cases hn
      · rw [Wait.answered, if_neg he]
        exact h.accepted w hw hk
    · simp only [List.forall_mem_map, hkont, hcmd]
      intro e he hk w hw hlt hi
      refine (h.inside e he hk w hw hlt hi).imp_right fun hn ha ho =>
        hn ?_ (ho.congr (fun hm => hm) rfl)
      unfold Wait.answered at ha
      split at ha
      · simp [hret] at ha
      · exact ha

end EstopLaw

/-! ### The node whose task was dropped -/

/-- The task of node `num` was dropped, and the node is current. Unless the program is over an
emergency stop is waited for, and inside the wait nothing was taken for the end of a task. -/
structure Dropped (s : TaskSystem K) (num : ℕ) : Prop where
  num : s.runner.currGcodeNum = num
  onMotion : s.OnMotion
  alive : s.Alive → s.OnTask ∧ ∃ e ∈ s.waits, e.kont.isEstop ∧
    ∀ w ∈ s.waits, e.cmd < w.cmd → Plain w.kont

namespace Dropped

variable [Field K] [LinearOrder K] {s t : TaskSystem K} {num : ℕ}

theorem stays (h : s.Dropped num) (hk : StaysOn s t) (ha : Adds Plain s t) : t.Dropped num := by
  refine ⟨hk.num.trans h.num, hk.onMotion.mpr h.onMotion, fun halive => ?_⟩
  obtain ⟨ho, e, he, hke, hin⟩ := h.alive (hk.alive halive)
  refine ⟨hk.onTask ho halive, e, ?_⟩
  rcases ha with hw | ⟨w', hw, hplain⟩
  · rw [hw]
    exact ⟨he, hke, hin⟩
  · rw [hw]
    refine ⟨List.mem_cons_of_mem _ he, hke, fun w hmem hlt => ?_⟩
    rcases List.mem_cons.mp hmem with rfl | hmem
    · exact hplain
    · exact hin w hmem hlt

/-- A wait that ends while the program is not over is none for an emergency stop, or that wait. -/
theorem pop (h : s.Dropped num) {w : Wait} {rest : List Wait} (hw : s.waits = w :: rest)
    (hk : s.Alive → w.kont.isEstop = false) :
    ({ s with waits := rest } : TaskSystem K).Dropped num := by
  refine ⟨h.num, h.onMotion, fun ha => ?_⟩
  obtain ⟨ho, e, he, hke, hin⟩ := h.alive ha
  refine ⟨ho.congr id rfl, e, ?_, hke, fun w' hw' => hin w' (hw ▸ List.mem_cons_of_mem _ hw')⟩
  rw [hw] at he
  rcases List.mem_cons.mp he with rfl | he
  · exact absurd hke (by simp [hk ha])
  · exact he

theorem ended (h : s.Dropped num) (hg : t.runner.gcodeList = s.runner.gcodeList)
    (hn : t.runner.currGcodeNum = s.runner.currGcodeNum) (hs : t.runner.state = .stopped) :
    t.Dropped num := by
  have hk : StaysOn s t := .ended hg hn hs
  exact ⟨hk.num.trans h.num, hk.onMotion.mpr h.onMotion, fun ha => absurd hs ha⟩

/-- What follows a wait. The wait for the emergency stop ends the program, or leads to another. -/
theorem returns (h : s.Dropped num) (hl : s.EstopLaw) {w : Wait} {rest : List Wait}
    {accepted : Bool} (hw : s.waits = w :: rest) (hacts : w.kont.acts accepted → s.Alive)
    (hestop : w.kont.isEstop → accepted)
    (hadds : Adds Plain ({ s with waits := rest } : TaskSystem K) t)
    (hc : ReturnCase { s with waits := rest } w.kont accepted t) : t.Dropped num := by
  have hinside {e : Wait} (he : e ∈ rest) : e.cmd < w.cmd :=
    (List.pairwise_cons.mp (hw ▸ hl.order.waits)).1 e he
  have hpop (hk : w.kont.isEstop = false) : ({ s with waits := rest } : TaskSystem K).Dropped num :=
    h.pop hw fun _ => hk
  have hswitch (hk : w.kont.isEstop = false) (ha : s.Alive) (st : GCodeRunner.State)
      (hs : st ≠ .readyToStart ∧ st ≠ .currentNodeIniting) :
      (({ s with waits := rest } : TaskSystem K).switchToState st).Dropped num :=
    (hpop hk).stays (.switchTo st ha hs) (.inl rfl)
  generalize hkont : w.kont = kont at hc hacts hestop hpop hswitch
  cases hc with
  | nodeStarted hr => exact (hswitch rfl (hacts rfl) _ (by simp)).stays hr.staysOn hadds
  | nodePasses hk hr =>
    -- inside the wait for the emergency stop there is no such wait
    have hfinds : w.kont.findsIdle := by
      rw [hkont]
      rcases hk with ⟨index, rfl⟩ | rfl <;> rfl
    have hnone : w.kont.isEstop = false := by
      rw [hkont]
      rcases hk with ⟨index, rfl⟩ | rfl <;> rfl
    have ha : s.Alive := hacts (by rcases hk with ⟨index, rfl⟩ | rfl <;> rfl)
    obtain ⟨-, e, he, hke, hin⟩ := h.alive ha
    rw [hw] at he
    rcases List.mem_cons.mp he with rfl | he
    · exact absurd hke (by simp [hnone])
    · have hplain := hin w (hw ▸ List.mem_cons_self) (hinside he)
      exact absurd hfinds (by simp [show w.kont.findsIdle = false from hplain])
  | nodeRefused hk =>
    have hnone : kont.isEstop = false := by
      revert hk
      cases kont <;> simp [Kont.isNode, Kont.isEstop]
    exact (hpop hnone).stays (.of_state rfl rfl rfl) hadds
  | aborted | startAborted | stopped | estopOver =>
    exact h.ended rfl rfl rfl
  | paused hk =>
    exact (hswitch rfl (hacts rfl) _ (by simp)).stays
      (.of_state hk.gcodeList hk.currGcodeNum hk.state) hadds
  | resumed => exact hswitch rfl (hacts rfl) _ (by simp)
  | stopping => exact (hswitch rfl (hacts rfl) _ (by simp)).stays (.of_state rfl rfl rfl) hadds
  | stopRefused | stopEstops => exact (hpop rfl).stays (.of_state rfl rfl rfl) hadds
  | estopAborts hs =>
    refine ⟨h.num, h.onMotion, fun ha => ⟨(h.alive ha).1.congr id rfl, _, List.mem_cons_self,
      rfl, fun w' hw' hlt => ?_⟩⟩
    rcases List.mem_cons.mp hw' with rfl | hw'
    · exact absurd hlt (lt_irrefl _)
    · have := hl.order.waits_lt w' (hw ▸ List.mem_cons_of_mem _ hw')
      simp only at hlt
      omega
  | nothing hk hsame =>
    have hnone : kont.isEstop = false := by
      rcases hk with rfl | ⟨rfl, -⟩
      · rfl
      · by_contra hk
        exact absurd (hestop (by simpa using hk)) (by simp)
    exact (hpop hnone).stays (.of_state hsame.gcodeList hsame.currGcodeNum hsame.state) hadds

variable [FloorRing K] [RealFns K] [Settings]

/-- Answers do not change what is waited for. -/
theorem cycle (h : s.Dropped num) {inp : ThreadInput K} (hc : CycleCase s inp t) :
    t.Dropped num := by
  cases hc with
  | idle => exact h.stays (.of_state rfl rfl rfl) (.inl rfl)
  | @fetched id cmd rest hq =>
    have hsame (answer : Option Bool) (w : Wait) :
        (w.answered id answer).kont = w.kont ∧ (w.answered id answer).cmd = w.cmd := by
      unfold Wait.answered
      split <;> exact ⟨rfl, rfl⟩
    refine ⟨h.num, h.onMotion, fun ha => ?_⟩
    obtain ⟨ho, e, he, hke, hin⟩ := h.alive ha
    have hke' (answer : Option Bool) : (e.answered id answer).kont.isEstop := by
      rw [(hsame answer e).1]
      exact hke
    refine ⟨ho.congr (fun hm => hm) rfl, _, List.mem_map_of_mem he, hke' _, ?_⟩
    simp only [List.forall_mem_map, hsame]
    exact hin

end Dropped

section Runs

variable [Field K] [LinearOrder K] [FloorRing K] [RealFns K] [Settings] {s t : TaskSystem K}

instance (s : TaskSystem K) : Decidable s.TaskRuns :=
  inferInstanceAs (Decidable s.motion.motionStateMachine.TaskRuns)

/-- The task of the node that is run is dropped, for the drives were lost or got ready. -/
def LosesTask (s : TaskSystem K) : TaskAction K → Prop
  | .motionCycle inp _ =>
    s.runner.state = .running ∧ s.OnMotion ∧ s.TaskRuns ∧ s.motion.resets inp
  | _ => False

/-- The task of the node that is run is dropped by an emergency stop. -/
def EstopsTask (s : TaskSystem K) : TaskAction K → Prop
  | .motionCycle inp fetch =>
    s.runner.state = .running ∧ s.OnMotion ∧ fetch ∧ s.cmdQueue.head?.any (·.2.isEstop) ∧
      (s.motion.threadCycleWork inp).motionStateMachine.TaskRuns
  | _ => False

/-- A program is started by a runner that is over. -/
def Begins (s : TaskSystem K) : TaskAction K → Prop
  | .start _ => ¬s.Alive
  | _ => False

/-- A node whose task is dropped stays current until a program is started. -/
def DropsKeepNode (s : TaskSystem K) (actions : List (TaskAction K)) : Prop :=
  ∀ before a after, actions = before ++ a :: after →
    (Machine.run step s before).LosesTask a ∨ (Machine.run step s before).EstopsTask a →
    Machine.AllSteps step (fun u b => ¬u.Begins b) ((Machine.run step s before).step a) after →
    (Machine.run step s actions).runner.currGcodeNum =
      (Machine.run step s before).runner.currGcodeNum

/-- An emergency stop is waited for. -/
def AwaitsEstop (s : TaskSystem K) : Prop := ∃ w ∈ s.waits, w.kont.isEstop

/-- While an emergency stop is waited for no poll finds the node that is run idle. -/
def LooksAway (s : TaskSystem K) (a : TaskAction K) : Prop :=
  s.polls a → s.SeesIdle → ¬s.AwaitsEstop

/-- What makes a dropped task none that is over. -/
def DropsApart (s : TaskSystem K) (a : TaskAction K) : Prop :=
  ¬s.LosesTask a ∧ s.LooksAway a ∧ s.ActsAlive a

instance (s : TaskSystem K) : (a : TaskAction K) → Decidable (s.LosesTask a)
  | .motionCycle .. => inferInstanceAs (Decidable (_ ∧ _ ∧ _ ∧ _))
  | .timerTick | .singleShot | .dispatch | .start _ | .pause | .resume | .stop | .estop
  | .startPointmove .. | .stopPointmove | .setting _ | .settingWaited .. | .changeSettings ..
  | .changeCoords .. | .waitReturns | .waitTimesOut => isFalse id

instance (s : TaskSystem K) : (a : TaskAction K) → Decidable (s.EstopsTask a)
  | .motionCycle .. => inferInstanceAs (Decidable (_ ∧ _ ∧ _ ∧ _ ∧ _))
  | .timerTick | .singleShot | .dispatch | .start _ | .pause | .resume | .stop | .estop
  | .startPointmove .. | .stopPointmove | .setting _ | .settingWaited .. | .changeSettings ..
  | .changeCoords .. | .waitReturns | .waitTimesOut => isFalse id

instance (s : TaskSystem K) : (a : TaskAction K) → Decidable (s.Begins a)
  | .start _ => inferInstanceAs (Decidable (¬_))
  | .motionCycle .. | .timerTick | .singleShot | .dispatch | .pause | .resume | .stop | .estop
  | .startPointmove .. | .stopPointmove | .setting _ | .settingWaited .. | .changeSettings ..
  | .changeCoords .. | .waitReturns | .waitTimesOut => isFalse id

instance (s : TaskSystem K) : Decidable s.AwaitsEstop :=
  inferInstanceAs (Decidable (∃ w ∈ s.waits, _))

instance (s : TaskSystem K) : Decidable s.SeesIdle := inferInstanceAs (Decidable (_ ∧ _ ∧ _))

instance (s : TaskSystem K) (a : TaskAction K) : Decidable (s.DropsApart a) :=
  inferInstanceAs (Decidable (¬_ ∧ (_ → _ → ¬_) ∧ _))

/-- A poll that does not pass leaves the node current. -/
theorem runOnce_staysOn (h : ¬s.Passes) : StaysOn s s.runOnce := by
  have hruns {f : Flow K} (hf : Flows False Never s f) : StaysOn s (thenTail f) :=
    (thenTail_runs hf).staysOn
  unfold runOnce poll
  dsimp only
  split
  · rename_i hs
    exact hruns (.through (.emit _ (.switchTo _ .refl hs) trivial))
  · exact absurd (.inl ‹_›) h
  · rename_i hs
    unfold stateRunning
    split
    · exact hruns (.through .refl)
    · rename_i g hg
      have hrun : Moves Never s (s.emit (.runNode s.runner.currGcodeNum)) := .emit _ .refl hs
      dsimp only
      split
      · rename_i hm
        exact absurd (.inr ⟨hs, .inl (not_onMotion hg (by simpa using hm))⟩) h
      · obtain ⟨hm, hr, -⟩ := showSubLine_moves (A := Never)
          (s := s.emit (.runNode s.runner.currGcodeNum)) (g := g) s.motion.infoCache
        have hm := hrun.trans hm
        split
        · split
          · have hstate := (congrArg GCodeRunner.state hr).trans hs
            exact hruns (.through (.emit _
              ((Moves.switchTo .paused hm (.inl hstate)).keepDelayPauseFlag false) trivial))
          · exact hruns (.through hm)
        · exact absurd (.inr ⟨hs, .inr ‹_›⟩) h
        · exact hruns (Flows.abort hm (by simp))
  · exact hruns (stateWaitingForPaused_flows ‹_›)
  · exact hruns (.through .refl)
  · exact hruns (stateWaitingForResumed_flows ‹_›)
  · exact hruns (stateWaitingForStopped_flows ‹_›)
  · exact hruns (.through .refl)

theorem Same.seesIdle (hk : Same s t) : t.SeesIdle ↔ s.SeesIdle := by
  have hf : Frame s t := ⟨hk.motion, hk.cmdQueue, hk.nextCmd, hk.waits⟩
  unfold SeesIdle
  rw [hk.state, hk.onMotion, hf.infoCache]

/-- What a poll waits for fits inside the waits for an emergency stop. -/
theorem runOnce_fitsInside (hc : s.SeesIdle → ¬s.AwaitsEstop) :
    Adds s.FitsInside s s.runOnce := by
  refine runOnce_adds.mono fun kont hk hi e he hke => ?_
  cases kont with
  | eleparamSet => exact ⟨by simp, fun ho => hk.2 ho.onMotion⟩
  | warningCleared => exact absurd ⟨e, he, hke⟩ (hc hk)
  | _ => cases hi

/-- A wait whose command was accepted ends answered, and no emergency stop is refused. -/
theorem EstopLaw.returning (h : s.EstopLaw) {a : TaskAction K} {w : Wait} {rest : List Wait}
    {accepted : Bool} (hw : s.waits = w :: rest) (hr : s.returning a = some (w, accepted)) :
    (accepted → ∀ w' ∈ rest, w'.answer ≠ none) ∧ (w.kont.isEstop → accepted) := by
  refine ⟨fun ha => h.answered_below hw (returning_accepted hw hr ha), fun hk => ?_⟩
  by_contra hn
  have hmem : w ∈ s.waits := hw ▸ List.mem_cons_self
  cases a with
  | waitReturns =>
    simp only [TaskSystem.returning, hw, Option.map_eq_some_iff, Prod.mk.injEq] at hr
    obtain ⟨answer, hans, -, rfl⟩ := hr
    exact h.accepted w hmem hk (by simpa [hn] using hans)
  | waitTimesOut =>
    simp only [TaskSystem.returning, hw, Option.ite_none_right_eq_some, Bool.and_eq_true] at hr
    have htime := h.order.timeouts w hmem hr.1.1
    revert hk htime
    cases w.kont <;> simp [Kont.isEstop, Kont.mayTimeOut]
  | _ => cases hr

theorem returning_adds {a : TaskAction K} {w : Wait} {rest : List Wait} {accepted : Bool}
    (hw : s.waits = w :: rest) (hr : s.returning a = some (w, accepted)) :
    Adds Plain { s with waits := rest } (s.step a) ∧
      ReturnCase { s with waits := rest } w.kont accepted (s.step a) := by
  obtain ⟨hstep, -, -⟩ := step_returning hr
  have hleft : s.leftWait = { s with waits := rest } := by
    rw [leftWait, hw]
    rfl
  rw [hstep, hleft]
  exact ⟨resumeKont_adds accepted w.kont, resumeKont_cases w.kont accepted⟩

theorem step_estopLaw (s : TaskSystem K) (a : TaskAction K) (h : s.EstopLaw) (hc : s.LooksAway a) :
    (s.step a).EstopLaw := by
  cases hp : s.polled a with
  | some u =>
    obtain ⟨hstep, -, -, -⟩ := step_polled hp
    obtain ⟨hk, -, -⟩ := polled_same hp
    have hquiet (hs : u.SeesIdle) : ¬u.AwaitsEstop := by
      unfold AwaitsEstop
      rw [hk.waits]
      exact hc (by simp [polls_eq, hp]) (hk.seesIdle.mp hs)
    rw [hstep]
    exact (h.same hk).runs runOnce_runs (runOnce_fitsInside hquiet)
  | none =>
    cases hr : s.returning a with
    | some r =>
      obtain ⟨w, accepted⟩ := r
      obtain ⟨rest, hw⟩ := returning_waits hr
      obtain ⟨hadds, hcase⟩ := returning_adds hw hr
      exact (h.pop hw (returning_over hw hr)).returns (h.returning hw hr).1 hadds hcase
    | none =>
      have hcase := s.step_cases a
      generalize ht : s.step a = t at hcase
      have hplain {u : TaskSystem K} (ha : Adds Plain s u) : Adds s.FitsInside s u :=
        ha.mono fun _ hk => hk.fitsInside
      cases hcase with
      | keep hk => exact h.same hk
      | poll hpoll => simp [polls_eq, hp] at hpoll
      | pause hrun => exact h.runs hrun (hplain (ht ▸ pause_adds .user))
      | resume hrun => exact h.runs hrun (hplain (ht ▸ resume_adds))
      | estop => exact h.waitFor rfl (by simp) (Plain.fitsInside rfl)
      | start program hs => exact h.start hs
      | stop hs => exact h.stop hs
      | push cmd hcmd => exact h.push hcmd
      | send cmd timeoutMs hcmd => exact h.waitFor hcmd (fun _ => rfl) (Plain.fitsInside rfl)
      | cycle inp fetch => exact h.cycle (cycle_cases inp fetch)
      | returns _ hret => simp [hr] at hret

/-- An emergency stop that drops the task is waited for, and nothing inside the wait was taken for
the end of the task. -/
theorem EstopLaw.drops (h : s.EstopLaw) {a : TaskAction K} (hd : s.EstopsTask a) :
    (s.step a).Dropped s.runner.currGcodeNum := by
  cases a with
  | motionCycle inp fetch =>
    obtain ⟨hs, hm, hfetch, hhead, -⟩ := hd
    obtain ⟨hrun, -⟩ := motionCycle_state (s := s) inp fetch
    have honTask : s.OnTask := ⟨hm, by simp [hs], by simp [hs], by simp [hs]⟩
    have hstay : StaysOn s (s.motionCycle inp fetch) :=
      .of_state (by rw [hrun]) (by rw [hrun]) (by rw [hrun])
    have halive : (s.motionCycle inp fetch).Alive := by simp [Alive, hrun, hs]
    refine ⟨hstay.num, hstay.onMotion.mpr hm, fun _ => ⟨hstay.onTask honTask halive, ?_⟩⟩
    cases hq : s.cmdQueue with
    | nil => simp [hq] at hhead
    | cons c rest =>
      obtain ⟨id, cmd⟩ := c
      have hestop : cmd.isEstop := by simpa [hq] using hhead
      have hmem : (id, cmd) ∈ s.cmdQueue := hq ▸ List.mem_cons_self
      obtain ⟨e, he, hid⟩ : ∃ e ∈ s.waits, e.cmd = id := by
        rcases h.order.owned _ hmem with hst | hf | hown
        · cases cmd <;> simp [MotionCommand.isEstop, MotionCommand.isStart] at hestop hst
        · cases cmd <;> simp [MotionCommand.isEstop, MotionCommand.isForeign,
            MotionCommand.isSetting] at hestop hf
        · exact hown
      have hke := Kont.isEstop_of_fits (h.order.fits e he _ hmem hid) hestop
      have hnone : e.answer = none := by
        by_contra ha
        have hlt := h.order.answered e he (Option.isSome_iff_ne_none.mpr ha) _ hmem
        omega
      have hwaits : (s.motionCycle inp fetch).waits =
          s.waits.map (Wait.answered id (s.motion.threadCycle inp (some cmd)).2) := by
        simp only [TaskSystem.motionCycle, hq]
        rw [if_pos hfetch]
      have hkont (answer : Option Bool) (w : Wait) :
          (w.answered id answer).kont = w.kont ∧ (w.answered id answer).cmd = w.cmd := by
        unfold Wait.answered
        split <;> exact ⟨rfl, rfl⟩
      rw [show s.step (.motionCycle inp fetch) = s.motionCycle inp fetch from rfl, hwaits]
      have hke' (answer : Option Bool) : (e.answered id answer).kont.isEstop := by
        rw [(hkont answer e).1]
        exact hke
      refine ⟨_, List.mem_map_of_mem he, hke' _, ?_⟩
      simp only [List.forall_mem_map, hkont]
      intro w hw hlt
      by_contra hi
      exact (h.inside e he hke w hw hlt (by simpa [Plain] using hi)).2 hnone honTask
  | _ => exact hd.elim

/-- Every event leaves a node whose task was dropped current. -/
theorem step_dropped {num : ℕ} (hl : s.EstopLaw) (h : s.Dropped num) {a : TaskAction K}
    (hc : s.LooksAway a) (hacts : s.ActsAlive a) (hb : ¬s.Begins a) : (s.step a).Dropped num := by
  cases hp : s.polled a with
  | some u =>
    obtain ⟨hstep, -, -, -⟩ := step_polled hp
    obtain ⟨hk, -, -⟩ := polled_same hp
    have hu : u.Dropped num :=
      h.stays (.of_state hk.gcodeList hk.currGcodeNum hk.state) (.inl hk.waits)
    -- the node is neither prepared nor found idle
    have hpasses : ¬u.Passes := by
      intro hpass
      have halive : u.Alive := by rcases hpass with hs | ⟨hs, -⟩ <;> simp [Alive, hs]
      obtain ⟨ho, e, he, hke, -⟩ := hu.alive halive
      rcases hpass with hs | ⟨hs, hn | hi⟩
      · exact ho.currentNodeIniting hs
      · exact hn ho.onMotion
      · exact hc (by simp [polls_eq, hp]) (hk.seesIdle.mp ⟨hs, ho.onMotion, hi⟩)
          ⟨e, hk.waits ▸ he, hke⟩
    have hadds : Adds Plain u u.runOnce := runOnce_adds.mono fun kont hk => by
      cases kont with
      | eleparamSet => exact absurd hu.onMotion hk.2
      | warningCleared => exact absurd (.inr ⟨hk.1, .inr hk.2.2⟩) hpasses
      | _ => rfl
    rw [hstep]
    exact hu.stays (runOnce_staysOn hpasses) hadds
  | none =>
    cases hr : s.returning a with
    | some r =>
      obtain ⟨w, accepted⟩ := r
      obtain ⟨rest, hw⟩ := returning_waits hr
      obtain ⟨hadds, hcase⟩ := returning_adds hw hr
      exact h.returns hl hw (hacts _ hr) (hl.returning hw hr).2 hadds hcase
    | none =>
      have hcase := s.step_cases a
      generalize ht : s.step a = t at hcase
      cases hcase with
      | keep hk => exact h.stays (.of_state hk.gcodeList hk.currGcodeNum hk.state) (.inl hk.waits)
      | poll hpoll => simp [polls_eq, hp] at hpoll
      | pause hrun => exact h.stays hrun.staysOn (ht ▸ pause_adds .user)
      | resume hrun => exact h.stays hrun.staysOn (ht ▸ resume_adds)
      | estop => exact h.stays (.of_state rfl rfl rfl) (.inr ⟨_, rfl, rfl⟩)
      | start program hs =>
        cases hs with
        | refused => exact h.stays (.of_state rfl rfl rfl) (.inl rfl)
        | failed hs | started hs => exact absurd (fun ha => ha hs) hb
      | stop hs =>
        cases hs with
        | nothing => exact h
        | returned => exact h.stays (.of_state rfl rfl rfl) (.inl rfl)
        | onTheSpot => exact h.ended rfl rfl rfl
        | waits => exact h.stays (.of_state rfl rfl rfl) (.inr ⟨_, rfl, rfl⟩)
      | push => exact h.stays (.of_state rfl rfl rfl) (.inl rfl)
      | send => exact h.stays (.of_state rfl rfl rfl) (.inr ⟨_, rfl, rfl⟩)
      | cycle inp fetch => exact h.cycle (cycle_cases inp fetch)
      | returns _ hret => simp [hr] at hret

/-- In every run in which no loss of the drives drops the task of a node that is run, no poll inside
a wait for an emergency stop finds such a node idle, and what follows a wait does not act on a
runner that is over, the runner does not take a task that is dropped for one that is over. -/
theorem dropped_node_stays (coords : CoordinateManager K) (currCoordIndex : ℕ)
    (settings : TaskSettings K) (eleparams : ℕ → Option EleParam) (actions : List (TaskAction K))
    (hc : Machine.AllSteps step DropsApart (new coords currCoordIndex settings eleparams) actions) :
    (new coords currCoordIndex settings eleparams).DropsKeepNode actions := by
  have hnew : (new coords currCoordIndex settings eleparams).EstopLaw :=
    ⟨new_inOrder coords currCoordIndex settings eleparams, by simp [new], by simp [new],
      by simp [new]⟩
  rintro before a after rfl hdrop hno
  obtain ⟨hbefore, hstep, hafter⟩ := Machine.allSteps_append.mp hc
  generalize new coords currCoordIndex settings eleparams = s at hnew hbefore hdrop hno hstep hafter
  have hlaw : (Machine.run step s before).EstopLaw :=
    Machine.AllSteps.invariant (fun s a h hc => step_estopLaw s a h hc.2.1) hnew hbefore
  have hdropped := hlaw.drops (hdrop.resolve_left hstep.1)
  rw [Machine.run_append]
  have hkept := Machine.AllSteps.invariant
    (I := fun s : TaskSystem K => s.EstopLaw ∧ s.Dropped _)
    (fun s a h hc => ⟨step_estopLaw s a h.1 hc.1.2.1,
      step_dropped h.1 h.2 hc.1.2.1 hc.1.2.2 hc.2⟩)
    ⟨step_estopLaw _ _ hlaw hstep.2.1, hdropped⟩ (hafter.and hno)
  exact hkept.2.num

end Runs

open Sample

attribute [local instance] Sample.settings

/-- An emergency stop is asked for while the first node runs, and ends the program. -/
def estopped : List (TaskAction ℚ) := running ++ [.estop, cycle, .waitReturns, cycle, .waitReturns]

theorem estopped_stays :
    app.DropsKeepNode estopped ∧ (Machine.run step app (running ++ [.estop])).EstopsTask cycle ∧
      (Machine.run step app estopped).runner.currGcodeNum = 0 :=
  ⟨dropped_node_stays _ _ _ _ estopped (by decide +kernel), by decide +kernel, by decide +kernel⟩

/-- The emergency stop is performed, and the runner polls before the wait for it returns. -/
def polledInEstop : List (TaskAction ℚ) := running ++ [.estop, cycle, .timerTick, .timerTick, cycle]

/-- The poll takes the delay for over, and the next one starts the second delay. -/
theorem poll_in_estop_goes_on :
    ¬app.DropsKeepNode polledInEstop ∧
      .startCommand 1 ∈ (Machine.run step app polledInEstop).history ∧
      (Machine.run step app polledInEstop).TaskRuns := by
  refine ⟨fun h => ?_, by decide +kernel, by decide +kernel⟩
  have hkept := h (running ++ [.estop]) cycle [.timerTick, .timerTick, cycle]
    (by simp [polledInEstop]) (.inr (by decide +kernel)) (by decide +kernel)
  revert hkept
  decide +kernel

end TaskSystem

end Edm
