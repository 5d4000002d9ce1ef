import Edm.App.NodePolls
import Edm.App.ProgramIndex

/-!
# Every node once

What spoils the order of the nodes is again a wait. A poll while the command of a node is waited for
executes the node once more, and then both of them go on to the next one; and what is taken up after
a wait may be another program. `nodes_once` says that nothing else does.
-/

set_option linter.unusedSectionVars false

namespace Edm

namespace TaskSystem

open RunnerEvent

section Runs

variable {K : Type} [Field K] [LinearOrder K] [FloorRing K] [RealFns K] [Settings]
  {s t : TaskSystem K} {w : Wait}

/-- The waits are answered or not; what runs was sent before. -/
theorem NodeLaw.answered (h : s.NodeLaw) (hr : t.runner = s.runner) (hh : t.history = s.history)
    (hw : t.waits.map (·.kont) = s.waits.map (·.kont))
    (ho : t.TaskRuns ∨ t.StartQueued → s.TaskRuns ∨ s.StartQueued) : t.NodeLaw := by
  have hmem {w : Wait} (hm : w ∈ t.waits) : ∃ w' ∈ s.waits, w'.kont = w.kont :=
    List.mem_map.mp (hw ▸ List.mem_map_of_mem hm)
  have hback {w : Wait} (hm : w ∈ s.waits) : ∃ w' ∈ t.waits, w'.kont = w.kont :=
    List.mem_map.mp (hw ▸ List.mem_map_of_mem hm)
  have hneeds (kont : Kont) (hn : s.Needs kont) : t.Needs kont := by
    revert hn
    unfold Needs Sent Executed OnMotion currGcode
    rw [hr, hh]
    exact id
  refine ⟨⟨h.toRecorded.congr (by rw [hr]) (by rw [hr]) (by rw [hh]), fun hrun => ?_, ?_, ?_, ?_,
    ?_⟩, h.stands.congr hr hh ?_⟩
  · rw [hr, hh]
    exact h.own (ho hrun)
  · have hcount (l : List Wait) :
        l.countP (·.kont.takesUp) = (l.map (·.kont)).countP Kont.takesUp := by
      rw [List.countP_map]
      rfl
    rw [hcount, hw, ← hcount]
    exact h.single
  · intro w₁ h₁ hk w₂ h₂
    obtain ⟨w₁', h₁', he₁⟩ := hmem h₁
    obtain ⟨w₂', h₂', he₂⟩ := hmem h₂
    rw [← he₂]
    exact h.inside w₁' h₁' (by rw [he₁]; exact hk) w₂' h₂'
  · intro w hm
    obtain ⟨w', hm', he⟩ := hmem hm
    rw [← he, hr]
    exact h.allows w' hm'
  · intro w hm
    obtain ⟨w', hm', he⟩ := hmem hm
    rw [← he]
    exact hneeds _ (h.needs w' hm')
  · rintro ⟨w, hm, hk⟩
    obtain ⟨w', hm', he⟩ := hback hm
    exact ⟨w', hm', by rw [he]; exact hk⟩

theorem NodeLaw.cycle (h : s.NodeLaw) {inp : ThreadInput K} (hc : CycleCase s inp t) :
    t.NodeLaw := by
  cases hc with
  | idle =>
    refine h.answered rfl rfl rfl fun ho => ho.imp_left fun hr => ?_
    by_contra hn
    have hnone : ¬(s.motion.threadCycle inp none).1.motionStateMachine.TaskRuns :=
      MotionThread.not_taskRuns_cycle hn inp (by simp)
    exact hnone hr
  | @fetched id cmd rest hq =>
    have hkont (w : Wait) (answer : Option Bool) : (w.answered id answer).kont = w.kont := by
      unfold Wait.answered
      split <;> rfl
    refine h.answered rfl rfl ?_ ?_
    · rw [List.map_map]
      exact List.map_congr_left fun w _ => hkont w _
    · rintro (hr | ⟨c, hc, hs⟩)
      · by_contra hn
        obtain ⟨hruns, hqueue⟩ := not_or.mp hn
        have hstart : cmd.isStart = false := by
          by_contra hs
          exact hqueue ⟨_, hq ▸ List.mem_cons_self, by simpa using hs⟩
        have hnone : ¬(s.motion.threadCycle inp (some cmd)).1.motionStateMachine.TaskRuns :=
          MotionThread.not_taskRuns_cycle hruns inp (by simpa using hstart)
        exact hnone hr
      · exact .inr ⟨c, hq ▸ List.mem_cons_of_mem _ hc, hs⟩

theorem NodeLaw.readyToStart (h : s.NodeLaw) (ht : ¬s.TakenUp) (hf : s.Fresh) :
    ((({ s with runner := { s.runner with updateTimerActive := true } } :
      TaskSystem K).switchToState .readyToStart).emit (.startReturned true)).NodeLaw := by
  have hn : SameNode s { s with runner := { s.runner with updateTimerActive := true } } :=
    ⟨⟨⟨_, rfl⟩, rfl, rfl, rfl⟩, rfl, rfl, rfl⟩
  have hready : (({ s with runner := { s.runner with updateTimerActive := true } } :
      TaskSystem K).switchToState .readyToStart).NodeLaw := by
    refine .switchTo (h.toNodeWaits.same hn h.allows) (fun w hw => ?_) hf
    exact Kont.allows_of_not_takesUp (takesUp_eq_false ht w hw) _
  exact hready.emit rfl (by simp)

/-- The record of a program that was just started is empty. -/
theorem NodeLaw.start (h : s.NodeLaw) (hm : s.MotionLaw) (ht : ¬s.Alive → ¬s.TakenUp)
    (program : Program K) : (s.start program).NodeLaw := by
  unfold TaskSystem.start
  split
  · exact h.emit rfl (by simp)
  · rename_i hs
    have hs : s.runner.state = .stopped := by simpa [isOver] using hs
    have ht : ¬s.TakenUp := ht (by simp [Alive, hs])
    have hbase : ({ s.emit .startCalled with
        runner := { s.runner with gcodeList := program.tasks, currGcodeNum := 0 } } :
          TaskSystem K).NodeLaw := by
      have htrace : trace (.startCalled :: s.history) = [] := trace_call
      refine ⟨⟨⟨.inl ?_, ?_, ?_, ?_, ?_⟩, AtRest.own (s := s) (hm.atRest_of_stopped hs), h.single,
        h.inside, h.allows, fun w hw => needs_of_not_takesUp (takesUp_eq_false ht w hw)⟩, ?_⟩
      · simp [inits, TaskSystem.emit, htrace]
      · simp [starts, TaskSystem.emit, htrace]
      · simp [starts, TaskSystem.emit, htrace]
      · simp [runs, TaskSystem.emit, htrace]
      · simp [runs, TaskSystem.emit, htrace]
      · unfold Stands
        rw [show ({ s.emit .startCalled with
          runner := { s.runner with gcodeList := program.tasks, currGcodeNum := 0 } } :
            TaskSystem K).runner.state = .stopped from hs]
        trivial
    dsimp only
    split
    · exact hbase.abort _ .start
    · refine hbase.readyToStart (fun hk => ht hk) ?_
      show _ ∉ inits (.startCalled :: s.history)
      rw [inits, trace_call]
      simp

/-- The event takes up a program: a start of one, or the resumption of one in a motion node. -/
def TakesUp (s : TaskSystem K) : TaskAction K → Prop
  | .start _ => ¬s.Alive
  | .resume => s.OnMotion
  | _ => False

instance (s : TaskSystem K) : (a : TaskAction K) → Decidable (s.TakesUp a)
  | .start _ => inferInstanceAs (Decidable (¬_))
  | .resume => inferInstanceAs (Decidable s.OnMotion)
  | .timerTick | .singleShot | .dispatch | .pause | .stop | .estop | .startPointmove ..
  | .stopPointmove | .setting _ | .settingWaited .. | .changeSettings .. | .changeCoords ..
  | .motionCycle .. | .waitReturns | .waitTimesOut => isFalse id

/-- What makes every node be executed once: it is prepared alone, and of a kind the build has; no
poll runs it while a wait holds it; and no program is taken up while another is going to be. -/
def NodesApart (s : TaskSystem K) (a : TaskAction K) : Prop :=
  s.PreparesAlone a ∧
    (s.polls a → s.runner.state = .currentNodeIniting → ∀ g ∈ s.currGcode, isKnown g) ∧
    (s.polls a → s.runner.state = .running → ¬s.Blocked) ∧ (s.TakesUp a → ¬s.TakenUp)

instance (s : TaskSystem K) (a : TaskAction K) : Decidable (s.NodesApart a) :=
  inferInstanceAs (Decidable ((_ → _ → _) ∧ (_ → _ → ∀ g ∈ s.currGcode, _) ∧ (_ → _ → _) ∧ (_ → _)))

/-- The nodes are executed in order, each once, and what runs was started for the current one. -/
structure InOrderOnce (s : TaskSystem K) : Prop extends Recorded s where
  own : s.TaskRuns ∨ s.StartQueued → s.Sent

/-- The current node is left for the next one only when it is over. -/
def LeavesDone (s : TaskSystem K) (a : TaskAction K) : Prop :=
  match a with
  | .start _ => True
  | a => s.Leaves (s.step a)

theorem polled_same {a : TaskAction K} (hp : s.polled a = some t) :
    Same s t ∧ t.settings = s.settings ∧ t.coords = s.coords := by
  cases a with
  | timerTick =>
    simp only [polled, Option.ite_none_right_eq_some] at hp
    obtain ⟨-, hp⟩ := hp
    cases hp
    exact ⟨.refl s, rfl, rfl⟩
  | singleShot =>
    simp only [polled, Option.ite_none_left_eq_some] at hp
    obtain ⟨-, hp⟩ := hp
    cases hp
    exact ⟨⟨rfl, rfl, rfl, rfl, ⟨_, rfl⟩, rfl, rfl, rfl, rfl⟩, rfl, rfl⟩
  | dispatch =>
    simp only [polled] at hp
    split at hp
    · cases hp
    · split at hp
      · cases hp
        exact ⟨⟨rfl, rfl, rfl, rfl, ⟨_, rfl⟩, rfl, rfl, rfl, rfl⟩, rfl, rfl⟩
      · cases hp
  | _ => cases hp

theorem returning_waits {a : TaskAction K} {accepted : Bool}
    (hr : s.returning a = some (w, accepted)) : ∃ rest, s.waits = w :: rest := by
  cases a with
  | waitReturns =>
    cases hw : s.waits with
    | nil => simp [returning, hw] at hr
    | cons w' rest =>
      simp only [returning, hw, Option.map_eq_some_iff, Prod.mk.injEq] at hr
      obtain ⟨-, -, rfl, -⟩ := hr
      exact ⟨rest, rfl⟩
  | waitTimesOut =>
    cases hw : s.waits with
    | nil => simp [returning, hw] at hr
    | cons w' rest =>
      simp only [returning, hw, Option.ite_none_right_eq_some, Option.some.injEq,
        Prod.mk.injEq] at hr
      exact ⟨rest, by rw [hr.2.1]⟩
  | _ => simp [returning] at hr

/-- The events that neither poll nor end a wait. -/
theorem NodeLaw.others (h : s.NodeLaw) (hm : s.MotionLaw) {a : TaskAction K}
    (hp : s.polled a = none) (hr : s.returning a = none) (hc : s.TakesUp a → ¬s.TakenUp) :
    (s.step a).NodeLaw ∧ s.LeavesDone a := by
  have hcase := s.step_cases a
  have hstays (hk : Stays s (s.step a)) : (s.step a).NodeLaw ∧ s.LeavesDone a := by
    refine ⟨hk.law, ?_⟩
    cases a with
    | start => trivial
    | _ => exact .inl hk.num
  generalize ht : s.step a = t at hcase hstays
  cases hcase with
  | keep hk => exact hstays ⟨h.same (.same hk) hk.state, hk.currGcodeNum, by rw [hk.history]⟩
  | poll hpoll => simp [polls_eq, hp] at hpoll
  | pause => exact hstays (ht ▸ h.pause .user)
  | resume => exact hstays (ht ▸ h.resume hc)
  | estop => exact hstays ⟨h.waitFor rfl rfl fun _ _ _ => rfl, rfl, rfl⟩
  | start program => exact ⟨ht ▸ h.start hm hc program, trivial⟩
  | stop => exact hstays (ht ▸ h.stop)
  | push cmd hcmd =>
    have hs := MotionCommand.isStart_of_isForeign hcmd
    refine hstays ⟨h.answered rfl rfl rfl fun ho => ho.imp_right fun hq => ?_, rfl, rfl⟩
    simpa [hs] using startQueued_push.mp hq
  | send cmd timeoutMs hcmd =>
    exact hstays
      ⟨h.waitFor (MotionCommand.isStart_of_isForeign hcmd) rfl fun _ _ _ => rfl, rfl, rfl⟩
  | cycle inp fetch =>
    obtain ⟨hrun, hh⟩ := motionCycle_state (s := s) inp fetch
    exact hstays ⟨h.cycle (cycle_cases inp fetch), by rw [hrun], by rw [hh]⟩
  | returns _ hret => simp [hr] at hret

theorem step_nodeLaw (h : s.NodeLaw) (hm : s.MotionLaw) (a : TaskAction K) (hc : s.NodesApart a) :
    (s.step a).NodeLaw ∧ s.LeavesDone a := by
  obtain ⟨hprep, hknown, hblocked, hup⟩ := hc
  have hleaves {u : TaskSystem K} (hu : s.step a = u) (hk : Proceeds s u) :
      (s.step a).NodeLaw ∧ s.LeavesDone a := by
    rw [hu]
    refine ⟨hk.law, ?_⟩
    cases a with
    | start => trivial
    | _ => exact (congrArg s.Leaves hu).mpr hk.leaves
  cases hp : s.polled a with
  | some u =>
    have hpolls : s.polls a := by simp [polls_eq, hp]
    obtain ⟨hstep, -, -, -⟩ := step_polled hp
    obtain ⟨hk, hset, hcoords⟩ := polled_same hp
    have hn : SameNode s u := .same hk
    have hmu : u.MotionLaw := by
      refine ⟨hm.toQueueLaw.frame ⟨hk.motion, hk.cmdQueue, hk.nextCmd, hk.waits⟩, ?_⟩
      exact hm.busy.requests hm.upToDate (.keep .refl hk)
    refine hleaves hstep (.of_same hk hset hcoords ?_)
    refine (h.same hn hk.state).runOnce hmu ⟨fun hs => ?_, fun hs => ?_⟩
    · rw [hk.state] at hs
      rw [hk.waits, hn.currGcode]
      exact ⟨waitsForNothing_iff.mp (hprep hs (by simp [hpolls])), hknown hpolls hs⟩
    · rw [hn.blocked]
      exact hblocked hpolls (hk.state ▸ hs)
  | none =>
    cases hr : s.returning a with
    | some r =>
      obtain ⟨w, accepted⟩ := r
      obtain ⟨hstep, -, -⟩ := step_returning hr
      obtain ⟨rest, hw⟩ := returning_waits hr
      refine hleaves hstep ?_
      have hleft : s.leftWait = { s with waits := rest } := by rw [leftWait, hw]; rfl
      rw [hleft]
      exact h.resumeKont hm hw accepted
    | none => exact h.others hm hp hr hup

/-- In every run in which each node is prepared and run apart from the waits that hold it, and no
program is taken up inside such a wait, the nodes are executed in order, each once, and each is left
only when it is over. -/
theorem nodes_once (coords : CoordinateManager K) (currCoordIndex : ℕ) (settings : TaskSettings K)
    (eleparams : ℕ → Option EleParam) (actions : List (TaskAction K))
    (hc : Machine.AllSteps step NodesApart (new coords currCoordIndex settings eleparams) actions) :
    (Machine.run step (new coords currCoordIndex settings eleparams) actions).InOrderOnce ∧
      Machine.AllSteps step LeavesDone (new coords currCoordIndex settings eleparams) actions := by
  have hnew : (new coords currCoordIndex settings eleparams).NodeLaw ∧
      (new coords currCoordIndex settings eleparams).MotionLaw := by
    refine ⟨⟨⟨⟨.inl rfl, ?_, ?_, ?_, ?_⟩, ?_, ?_, ?_, ?_, ?_⟩, trivial⟩,
      new_motionLaw coords currCoordIndex settings eleparams⟩
    · exact List.nodup_nil
    · simp [new, starts, trace, sinceStart]
    · simp [new, runs, trace, sinceStart]
    · simp [new]
    · rintro (⟨hmode, -⟩ | ⟨c, hc, -⟩)
      · cases hmode
      · simp [new] at hc
    · simp [new]
    · simp [new]
    · simp [new]
    · simp [new]
  have hstep (s : TaskSystem K) (a : TaskAction K) (h : s.NodeLaw ∧ s.MotionLaw)
      (hc : s.NodesApart a) : (s.step a).NodeLaw ∧ (s.step a).MotionLaw :=
    ⟨(step_nodeLaw h.1 h.2 a hc).1, step_motionLaw s a h.2 hc.1⟩
  obtain ⟨hlaw, hmotion⟩ := Machine.AllSteps.invariant hstep hnew hc
  refine ⟨⟨hlaw.toRecorded, fun ho => ⟨?_, hlaw.own ho⟩⟩, ?_⟩
  · exact ho.elim (fun hr => (hmotion.busy.running hr).2.2.1) fun hq => (hmotion.busy.queued hq).2.1
  · exact Machine.AllSteps.strengthen hstep (fun s a h hc => (step_nodeLaw h.1 h.2 a hc).2) hnew hc

end Runs

open Sample

attribute [local instance] Sample.settings

theorem toTheEnd_nodes_once :
    (Machine.run step app toTheEnd).InOrderOnce ∧ Machine.AllSteps step LeavesDone app toTheEnd :=
  nodes_once _ _ _ _ toTheEnd (by decide +kernel)

/-- A parameter is set, and a delay follows. -/
def paramThenDelay : Program ℚ :=
  ⟨[task (.eleparamSet 1), task (.delay (1 / 1000)), task .programEnd], by simp⟩

/-- A poll inside the wait for the parameter. -/
def paramTwice : List (TaskAction ℚ) :=
  boot ++
    [.start paramThenDelay, .timerTick, .timerTick, .timerTick, .timerTick, cycle, cycle,
      .waitReturns, .waitReturns]

/-- A poll inside the wait for the start of the first delay. -/
def startTwice : List (TaskAction ℚ) :=
  boot ++ [.start delays, .timerTick, .timerTick, .timerTick]

/-- The parameter is set twice and the delay passed over; the first delay is started twice. -/
theorem nested_poll_repeats_node :
    (let s := Machine.run step appWithParam paramTwice;
      runs s.history = [0, 0] ∧ inits s.history = [0] ∧ s.runner.currGcodeNum = 2 ∧
        ¬s.InOrderOnce) ∧
      (let s := Machine.run step app startTwice; starts s.history = [0, 0] ∧ ¬s.InOrderOnce) := by
  refine ⟨⟨by decide +kernel, by decide +kernel, by decide +kernel, fun h => ?_⟩, by decide +kernel,
    fun h => ?_⟩
  · have hreached := h.reached
    revert hreached
    decide +kernel
  · have hstarted := h.started
    revert hstarted
    decide +kernel

end TaskSystem

end Edm
