import Edm.Motion.Requests
import Edm.Motion.Signals

/-!
# Accepted commands take effect

The state machine hands every cycle of its automatic mode to the task runner, so the ways of the
runner are the machine's, until the runner is stopped and the machine goes idle. With the end of a
manual move this makes: no command the machine accepts leaves it between two modes for ever
(`commands_take_effect`).
-/

set_option linter.unusedSectionVars false

namespace Edm

open Machine (LeadsTo Reaches)

namespace MotionStateMachine

section

variable {K : Type} [Field K] [LinearOrder K] [FloorRing K] [RealFns K] [Settings]
  [IsStrictOrderedRing K] [LawfulSqrt K]

/-- The command gives no move without a deceleration. -/
def Command.Brakes : Command K → Prop
  | .start ts => ts.Brakes
  | .startManualPointmove sp _ => sp.dec0 < 0
  | _ => True

/-- The machine is enabled, its runner in order, and its manual move on its way or over. -/
structure Orderly (m : MotionStateMachine K) : Prop where
  enabled : m.enabled = true
  consistent : m.autoTaskRunner.Consistent m.shared
  orderly : m.autoTaskRunner.Orderly
  manual : m.mainMode = .manual → m.pmHandler.Unhalted ∨ m.pmHandler.state = .stopping

variable {m : MotionStateMachine K} {c : Command K} {inp : CycleInput K} {imm : Bool} {δ : K}

theorem ready_orderly (sh : MotionShared K) : (ready sh).Orderly where
  enabled := rfl
  consistent := .ofTask rfl rfl (fun _ h => by simp [ready, new, reset, AutoTaskRunner.reset] at h)
    rfl (by simp [ready, new, reset, AutoTaskRunner.reset])
  orderly :=
    { endable := fun _ h => by simp [ready, new, reset, AutoTaskRunner.reset] at h
      fits := fun _ hn => absurd rfl hn
      steady := PauseMoveController.new_steady.init }
  manual h := by simp [ready, new, reset] at h

/-- Only shared data other than a fault changes. -/
theorem Orderly.shared (h : m.Orderly) {sh : MotionShared K} (hf : sh.fault = m.shared.fault) :
    ({ m with shared := sh }).Orderly :=
  ⟨h.enabled, h.consistent.shared hf, h.orderly, h.manual⟩

theorem Orderly.start (h : m.Orderly) {ts : TaskStart K} (hb : ts.Brakes) :
    (m.start ts).1.Orderly := by
  have hf : (ts.build m.shared).2.fault = m.shared.fault := (AutoTask.build_quiet ts).fault
  rw [start_eq]
  split
  · exact h
  · simp only [startAuto]
    split
    · exact h.shared hf
    · rename_i ho
      have ho := Bool.eq_false_of_not_eq_true ho
      exact
        { enabled := h.enabled
          consistent := (h.consistent.restartTask (AutoTask.build_sound ho)).shared hf
          orderly := h.orderly.restartTask (AutoTask.build_endable hb ho)
          manual := fun hm => by simp at hm }

theorem Orderly.pauseAuto (h : m.Orderly) : m.pauseAuto.1.Orderly := by
  unfold MotionStateMachine.pauseAuto
  split
  · exact h
  · exact ⟨h.enabled, h.consistent.pause, h.orderly.pause, h.manual⟩

theorem Orderly.resumeAuto (h : m.Orderly) : m.resumeAuto.1.Orderly := by
  unfold MotionStateMachine.resumeAuto
  split
  · exact h
  · exact ⟨h.enabled, h.consistent.resume, h.orderly.resume, h.manual⟩

theorem Orderly.stopAuto (h : m.Orderly) : (m.stopAuto imm).1.Orderly := by
  unfold MotionStateMachine.stopAuto
  split
  · exact h
  · exact ⟨h.enabled, h.consistent.stop imm, h.orderly.stop, h.manual⟩

theorem Orderly.startManualPointmove (h : m.Orderly) {sp : MoveRuntimePlanSpeedInput K}
    (hsp : m.mainMode = .auto → sp.dec0 < 0) (target : Axis K) :
    (m.startManualPointmove sp target).1.Orderly := by
  unfold MotionStateMachine.startManualPointmove
  cases hm : m.mainMode with
  | idle =>
    simp only
    split
    · rename_i hr
      exact ⟨h.enabled, h.consistent.shared rfl, h.orderly,
        fun _ => .inl (.inl (PointMoveHandler.start_running hr))⟩
    · exact ⟨h.enabled, h.consistent, h.orderly, fun h' => by simp at h'⟩
  | manual => exact h
  | auto =>
    exact ⟨h.enabled, h.consistent.startManualPointmove sp _ target,
      h.orderly.startManualPointmove (hsp hm) _ target, fun h' => by simp at h'⟩

theorem Orderly.stopManualPointmove (h : m.Orderly) : (m.stopManualPointmove imm).1.Orderly := by
  unfold MotionStateMachine.stopManualPointmove
  cases hm : m.mainMode with
  | idle => exact h
  | manual =>
    refine ⟨h.enabled, h.consistent, h.orderly, fun _ => ?_⟩
    rcases m.pmHandler.mrtWrapper.stop_state imm with hs | hs | ⟨_, hs⟩
    · exact .inr hs
    · exact .inl (.inr (PointMoveHandler.isOver_iff.mpr (.inl hs)))
    · exact .inl (.inr (PointMoveHandler.isOver_iff.mpr (.inr hs)))
  | auto =>
    exact ⟨h.enabled, h.consistent.stopManualPointmove imm, h.orderly.stopManualPointmove,
      fun h' => by simp at h'⟩

/-- A cycle of a manual move: it ends, or the move goes on. -/
theorem Orderly.manual_cases (h : m.Orderly) (hm : m.mainMode = .manual) (inp : CycleInput K) :
    (m.runOnce inp).Orderly ∧
      ((m.runOnce inp).mainMode = .idle ∨
        (m.runOnce inp).mainMode = .manual ∧
          (m.runOnce inp).pmHandler.cyclesLeft < m.pmHandler.cyclesLeft) := by
  have hrun : m.runOnce inp = m.mainmodeManual inp := by
    simp [MotionStateMachine.runOnce, h.enabled, hm]
  rw [hrun]
  unfold mainmodeManual
  split
  · exact ⟨⟨h.enabled, h.consistent.shared rfl, h.orderly, fun h' => by simp at h'⟩, .inl rfl⟩
  · rename_i ho
    simp only
    split
    · exact ⟨⟨h.enabled, h.consistent.shared rfl, h.orderly, fun h' => by simp at h'⟩, .inl rfl⟩
    · have hplays : m.pmHandler.state = .running ∨ m.pmHandler.state = .stopping :=
        (h.manual hm).imp_left fun hu => hu.resolve_right ho
      refine ⟨⟨h.enabled, h.consistent.shared rfl, h.orderly, fun _ => ?_⟩, .inr ⟨hm, ?_⟩⟩
      · rcases hplays with hs | hs
        · exact .inl (PointMoveHandler.Unhalted.runOnce_unhalted (.inl hs))
        · rcases m.pmHandler.runOnce_state with h' | ⟨hr, _⟩ | ⟨hr, _⟩ | ⟨_, h'⟩
          · exact .inr (h'.trans hs)
          · simp [hr] at hs
          · simp [hr] at hs
          · exact .inl (.inr (PointMoveHandler.isOver_iff.mpr (.inl h')))
      · exact (PointMoveHandler.runOnce_cyclesLeft (hplays.imp_right .inr)).2

theorem Orderly.runOnce (h : m.Orderly) (inp : CycleInput K) : (m.runOnce inp).Orderly := by
  cases hm : m.mainMode with
  | idle =>
    have hrun : m.runOnce inp = { m with shared := m.shared.setDetectEnable false } := by
      simp [MotionStateMachine.runOnce, h.enabled, hm]
    rw [hrun]
    exact h.shared rfl
  | manual => exact (h.manual_cases hm inp).1
  | auto =>
    have hrun : m.runOnce inp = m.mainmodeAuto inp := by
      simp [MotionStateMachine.runOnce, h.enabled, hm]
    rw [hrun]
    refine ⟨h.enabled, h.consistent.runOnce inp, h.orderly.runOnce h.consistent, fun h' => ?_⟩
    simp only [mainmodeAuto, hm] at h'
    split at h' <;> simp at h'

/-- Every command and every cycle keeps the order. -/
theorem step_orderly (h : m.Orderly) (hb : c.Brakes) : (m.step c).Orderly := by
  cases c with
  | start ts => exact h.start hb
  | pauseAuto => exact h.pauseAuto
  | resumeAuto => exact h.resumeAuto
  | stopAuto imm => exact h.stopAuto
  | startManualPointmove sp target => exact h.startManualPointmove (fun _ => hb) target
  | stopManualPointmove imm => exact h.stopManualPointmove
  | setting c => cases c <;> exact h.shared rfl
  | cycle inp => exact h.runOnce inp

theorem run_orderly (sh : MotionShared K) {cmds : List (Command K)}
    (hb : Machine.AllSteps step (fun _ c => c.Brakes) (ready sh) cmds) :
    (Machine.run step (ready sh) cmds).Orderly :=
  Machine.AllSteps.invariant (I := Orderly) (fun _ _ h hb => step_orderly h hb)
    (ready_orderly sh) hb

/-! ### Progress -/

/-- A manual move comes to its end, or the touch detection ends it. -/
theorem manual_ends :
    LeadsTo MotionStateMachine.runOnce (CycleInput.Paced δ)
      (fun m : MotionStateMachine K => m.Orderly ∧ m.mainMode = .manual)
      (fun m => m.mainMode = .idle) := by
  refine LeadsTo.of_measure (μ := fun m => m.pmHandler.cyclesLeft) ?_
  rintro m inp ⟨h, hm⟩ -
  obtain ⟨ho, hi | ⟨hm', hlt⟩⟩ := h.manual_cases hm inp
  · exact .inl hi
  · exact .inr ⟨⟨ho, hm'⟩, hlt⟩

/-- A runner that is stopped ends the automatic mode in the next cycle. -/
theorem Orderly.stopped_idle (h : m.Orderly) (hm : m.mainMode = .auto)
    (hs : m.autoTaskRunner.state = .stopped) (inp : CycleInput K) :
    (m.runOnce inp).mainMode = .idle := by
  have hd : m.autoTaskRunner.dominState = .autoTaskRunning := by
    cases hd : m.autoTaskRunner.dominState with
    | autoTaskRunning => rfl
    | pauseMoveRecoverRunning =>
      obtain ⟨hr, -⟩ := h.consistent.recovery hd
      rw [hs] at hr
      exact hr.elim
  have hrun : (m.autoTaskRunner.runOnce m.shared inp).1.state = .stopped := by
    unfold AutoTaskRunner.runOnce
    split
    · exact hs
    · simp only [hd, hs]
  simp [MotionStateMachine.runOnce, h.enabled, hm, mainmodeAuto, hrun]

/-- The runner with the shared data. -/
def runnerSystem (m : MotionStateMachine K) : RunnerSystem K :=
  ⟨m.autoTaskRunner, m.shared, m.shared.globalCmdAxis⟩

theorem Orderly.runnerSystem (h : m.Orderly) : m.runnerSystem.Orderly :=
  ⟨h.consistent, h.orderly⟩

/-- The machine is in its automatic mode, and its runner is the one of `s`, not stopped. -/
structure Runs (m : MotionStateMachine K) (s : RunnerSystem K) : Prop where
  enabled : m.enabled = true
  auto : m.mainMode = .auto
  runner : m.autoTaskRunner = s.runner
  shared : m.shared = s.shared
  going : s.runner.state ≠ .stopped

/-- A cycle goes on with the runner, or finds it stopped and ends the mode. -/
theorem Runs.cycle {s : RunnerSystem K} (h : Runs m s) (inp : CycleInput K) :
    (m.runOnce inp).mainMode = .idle ∨ Runs (m.runOnce inp) (s.cycle inp) := by
  have hrun : m.runOnce inp = m.mainmodeAuto inp := by
    simp [MotionStateMachine.runOnce, h.enabled, h.auto]
  rw [hrun]
  by_cases hs : (s.runner.runOnce s.shared inp).1.state = .stopped
  · exact .inl (by simp [mainmodeAuto, h.runner, h.shared, hs])
  · refine .inr ⟨h.enabled, ?_, ?_, ?_, hs⟩
    all_goals simp [mainmodeAuto, h.auto, h.runner, h.shared, hs, RunnerSystem.cycle,
      RunnerSystem.step]

/-- Where the runner gets, the machine gets, unless it goes idle before. -/
theorem Runs.reaches {s : RunnerSystem K} {A : CycleInput K → Prop} {Q : RunnerSystem K → Prop}
    (hm : Runs m s) (h : Reaches RunnerSystem.cycle A s Q) :
    Reaches MotionStateMachine.runOnce A m fun m => m.mainMode = .idle ∨ ∃ s, Runs m s ∧ Q s := by
  have hleads : LeadsTo RunnerSystem.cycle A (· = s) Q := fun _ hs => hs ▸ h
  exact (hleads.carry fun m s inp hw _ => Runs.cycle hw inp) m ⟨s, hm, rfl⟩

theorem pauseAuto_accepted (h : m.pauseAuto.2 = true) :
    m.mainMode = .auto ∧ (m.autoTaskRunner.pause m.shared).2.2 = true := by
  unfold MotionStateMachine.pauseAuto at h
  split at h <;> simp_all

theorem stopAuto_accepted (h : (m.stopAuto imm).2 = true) :
    m.mainMode = .auto ∧ (m.autoTaskRunner.stop m.shared imm).2.2 = true := by
  unfold MotionStateMachine.stopAuto at h
  split at h <;> simp_all

theorem resumeAuto_accepted (h : m.resumeAuto.2 = true) :
    m.mainMode = .auto ∧ (m.autoTaskRunner.resume m.shared).2.2 = true := by
  unfold MotionStateMachine.resumeAuto at h
  split at h <;> simp_all

theorem startManualPointmove_accepted {sp : MoveRuntimePlanSpeedInput K} {target : Axis K}
    (hm : m.mainMode = .idle) (h : (m.startManualPointmove sp target).2 = true) :
    (m.startManualPointmove sp target).1.mainMode = .manual := by
  simp only [MotionStateMachine.startManualPointmove, hm] at h ⊢
  split <;> simp_all

/-- An accepted pause gets the task paused, unless it ends before. -/
theorem Orderly.gets_paused (h : m.Orderly) (hδ : 0 < δ) (ha : m.pauseAuto.2 = true) :
    Reaches MotionStateMachine.runOnce (CycleInput.Paced δ) (m.step .pauseAuto) fun m =>
      m.mainMode = .auto ∧ m.autoState = .paused ∨ m.mainMode = .idle := by
  obtain ⟨hm, ha⟩ := pauseAuto_accepted ha
  have hstep : m.step .pauseAuto = { m with
      autoTaskRunner := (m.autoTaskRunner.pause m.shared).1
      shared := (m.autoTaskRunner.pause m.shared).2.1 } := by
    simp [step, MotionStateMachine.pauseAuto, hm]
  have hruns : Runs (m.step .pauseAuto) (m.runnerSystem.step .pause) := by
    rw [hstep]
    refine ⟨h.enabled, hm, rfl, rfl, ?_⟩
    show (m.autoTaskRunner.pause m.shared).1.state ≠ .stopped
    rcases AutoTaskRunner.pause_accepted ha with hs | hs <;> simp [hs]
  refine (hruns.reaches (RunnerSystem.pause_takes_effect h.runnerSystem hδ ha)).mono ?_
  rintro m (hi | ⟨s, hr, hp | hn⟩)
  · exact .inr hi
  · exact .inl ⟨hr.auto, by rw [MotionStateMachine.autoState, hr.runner, hp]⟩
  · exact absurd hn hr.going

/-- An accepted stop leads to the idle mode. -/
theorem Orderly.gets_idle (h : m.Orderly) (hδ : 0 < δ) (ha : (m.stopAuto imm).2 = true) :
    Reaches MotionStateMachine.runOnce (CycleInput.Paced δ) (m.step (.stopAuto imm)) fun m =>
      m.mainMode = .idle := by
  obtain ⟨hm, ha⟩ := stopAuto_accepted ha
  have hstep : m.step (.stopAuto imm) = { m with
      autoTaskRunner := (m.autoTaskRunner.stop m.shared imm).1
      shared := (m.autoTaskRunner.stop m.shared imm).2.1 } := by
    simp [step, MotionStateMachine.stopAuto, hm]
  rcases AutoTaskRunner.stop_accepted ha with hs | hs
  · have hruns : Runs (m.step (.stopAuto imm)) (m.runnerSystem.step (.stop imm)) := by
      rw [hstep]
      refine ⟨h.enabled, hm, rfl, rfl, ?_⟩
      show (m.autoTaskRunner.stop m.shared imm).1.state ≠ .stopped
      simp [hs]
    refine (hruns.reaches (RunnerSystem.stop_takes_effect h.runnerSystem hδ ha)).mono ?_
    rintro m (hi | ⟨s, hr, hn⟩)
    · exact hi
    · exact absurd hn hr.going
  · have ho : (m.step (.stopAuto imm)).Orderly := h.stopAuto
    refine .next fun inp _ => .now ?_
    refine ho.stopped_idle ?_ ?_ inp
    · rw [hstep]
      exact hm
    · rw [hstep]
      exact hs

/-- An accepted resumption gets the task going on, unless it is at its end. -/
theorem Orderly.goes_on (h : m.Orderly) (hδ : 0 < δ) (ha : m.resumeAuto.2 = true) :
    Reaches MotionStateMachine.runOnce (CycleInput.Paced δ) (m.step .resumeAuto) fun m =>
      m.mainMode = .auto ∧ m.autoTaskRunner.dominState = .autoTaskRunning ∧
          m.autoState = .normalMoving ∨ m.mainMode = .idle := by
  obtain ⟨hm, ha⟩ := resumeAuto_accepted ha
  have hstep : m.step .resumeAuto = { m with
      autoTaskRunner := (m.autoTaskRunner.resume m.shared).1
      shared := (m.autoTaskRunner.resume m.shared).2.1 } := by
    simp [step, MotionStateMachine.resumeAuto, hm]
  have hruns : Runs (m.step .resumeAuto) (m.runnerSystem.step .resume) := by
    rw [hstep]
    refine ⟨h.enabled, hm, rfl, rfl, ?_⟩
    show (m.autoTaskRunner.resume m.shared).1.state ≠ .stopped
    rcases AutoTaskRunner.resume_accepted ha with ⟨-, hs⟩ | ⟨-, hs⟩ <;> simp [hs]
  refine (hruns.reaches (RunnerSystem.resume_takes_effect h.runnerSystem hδ ha)).mono ?_
  rintro m (hi | ⟨s, hr, ⟨hd, hn⟩ | hn⟩)
  · exact .inr hi
  · refine .inl ⟨hr.auto, ?_, ?_⟩
    · rw [hr.runner, hd]
    · rw [MotionStateMachine.autoState, hr.runner, hn]
  · exact absurd hn hr.going

/-- In every state of a run whose moves were given a deceleration: an accepted manual move ends, and
the machine is idle again; an accepted pause gets the task paused, and an accepted resumption gets
it going on, unless it is at its end and the machine idle; an accepted stop gets the machine idle.
The servo must not ask for ever smaller steps. -/
theorem commands_take_effect (sh : MotionShared K) {cmds : List (Command K)}
    (hb : Machine.AllSteps step (fun _ c => c.Brakes) (ready sh) cmds) (hδ : 0 < δ) :
    let m := Machine.run step (ready sh) cmds
    (∀ sp target, m.mainMode = .idle → (m.startManualPointmove sp target).2 = true →
      Reaches MotionStateMachine.runOnce (CycleInput.Paced δ)
        (m.step (.startManualPointmove sp target)) fun m => m.mainMode = .idle) ∧
    (m.pauseAuto.2 = true →
      Reaches MotionStateMachine.runOnce (CycleInput.Paced δ) (m.step .pauseAuto) fun m =>
        m.mainMode = .auto ∧ m.autoState = .paused ∨ m.mainMode = .idle) ∧
    (∀ imm, (m.stopAuto imm).2 = true →
      Reaches MotionStateMachine.runOnce (CycleInput.Paced δ) (m.step (.stopAuto imm)) fun m =>
        m.mainMode = .idle) ∧
    (m.resumeAuto.2 = true →
      Reaches MotionStateMachine.runOnce (CycleInput.Paced δ) (m.step .resumeAuto) fun m =>
        m.mainMode = .auto ∧ m.autoTaskRunner.dominState = .autoTaskRunning ∧
            m.autoState = .normalMoving ∨ m.mainMode = .idle) := by
  intro m
  have ho : m.Orderly := run_orderly sh hb
  refine ⟨fun sp target hm ha => ?_, ho.gets_paused hδ, fun imm => ho.gets_idle hδ, ho.goes_on hδ⟩
  have ho' : (m.startManualPointmove sp target).1.Orderly :=
    ho.startManualPointmove (fun h => by simp [hm] at h) target
  exact manual_ends _ ⟨ho', startManualPointmove_accepted hm ha⟩

end

attribute [local instance] Sample.settings

/-- A pause of the program, and a move by hand of 4 in it. -/
def movedByHand : List (Command ℚ) :=
  [.start .m00Fake] ++ .replicate 2 (.cycle (Sample.input 0)) ++
    [.startManualPointmove Sample.speedParam (Sample.xAxis 4)] ++
    .replicate 9 (.cycle (Sample.input 0))

/-- Resumed there, the machine gets its task going on. -/
theorem movedByHand_takes_effect :
    Reaches runOnce (CycleInput.Paced 1)
      ((Machine.run step (ready .new) movedByHand).step .resumeAuto) fun m =>
        m.mainMode = .auto ∧ m.autoTaskRunner.dominState = .autoTaskRunning ∧
            m.autoState = .normalMoving ∨ m.mainMode = .idle := by
  have hb : Machine.AllSteps step (fun _ c => c.Brakes) (ready .new) movedByHand := by
    simp [movedByHand, Machine.AllSteps, Command.Brakes, TaskStart.Brakes, Sample.speedParam,
      List.replicate]
  exact (commands_take_effect .new hb one_pos).2.2.2 (by decide +kernel)

end MotionStateMachine

end Edm
