import Edm.Lib.Pairing
import Edm.Motion.TaskLaws
import Edm.Motion.RunnerCases

/-!
# Signals come in pairs

The upper layer learns of the start and the end of a task, and of a manual move, by signals. While the
machine runs without a reset each start is followed by one stop, and none is left open in the idle
mode (`signals_paired`), with one exception: a runner whose task is paused is stopped at once and
without `autoStopped`; if a manual move is under way then, its stop is lost as well.
-/

set_option linter.unusedSectionVars false

namespace Edm

open Pairing

section

variable {K : Type} [Field K] [LinearOrder K] [FloorRing K] [RealFns K] [Settings]

namespace PauseMoveController

variable {c : PauseMoveController K} (sh : MotionShared K) (inp : CycleInput K)

/-- A cycle of a manual move goes on with it or, once it is over, raises the signal. -/
theorem runOnce_of_manual (hs : c.state = .manualPointMoving) :
    ((c.runOnce sh inp).1.state = .manualPointMoving ∧
      (c.runOnce sh inp).2.signalBuffer.raised = sh.signalBuffer.raised) ∨
    ((c.runOnce sh inp).1.state = .allowManualPointMove ∧
      (c.runOnce sh inp).2.signalBuffer.raised =
        .manualPointMoveStopped :: sh.signalBuffer.raised) := by
  simp only [runOnce, hs, manualPointmoving]
  split
  · split <;> exact .inr ⟨rfl, rfl⟩
  · exact .inl ⟨rfl, rfl⟩

/-- Other cycles raise nothing and start no manual move. -/
theorem runOnce_of_not_manual (hs : c.state ≠ .manualPointMoving) :
    (c.runOnce sh inp).1.state ≠ .manualPointMoving ∧
      (c.runOnce sh inp).2.signalBuffer.raised = sh.signalBuffer.raised := by
  unfold runOnce
  cases h : c.state with
  | manualPointMoving => exact absurd h hs
  | recovering =>
    simp only [recovering]
    repeat' split
    all_goals exact ⟨by simp [h], rfl⟩
  | recoveringPausing =>
    simp only [recoveringPausing]
    split <;> exact ⟨by simp [h], rfl⟩
  | outSideStopping =>
    simp only [outsideStopping]
    split <;> exact ⟨by simp [h], rfl⟩
  | _ => exact ⟨by simp [h], rfl⟩

theorem pauseRecover_manual (hs : c.state ≠ .manualPointMoving) :
    c.pauseRecover.1.state ≠ .manualPointMoving := by
  simp only [pauseRecover]
  repeat' split
  all_goals simp_all

theorem resumeRecover_manual (hs : c.state ≠ .manualPointMoving) :
    c.resumeRecover.1.state ≠ .manualPointMoving := by
  simp only [resumeRecover]
  repeat' split
  all_goals simp_all

theorem stop_manual (hs : c.state ≠ .manualPointMoving) (imm : Bool) :
    (c.stop imm).1.state ≠ .manualPointMoving := by
  unfold stop
  cases h : c.state <;> simp_all

/-- A recovery cannot be activated during a manual move. -/
theorem activateRecover_manual :
    (c.state = .manualPointMoving → c.activateRecover = (c, false)) ∧
    (c.state ≠ .manualPointMoving → c.activateRecover.1.state ≠ .manualPointMoving) := by
  refine ⟨fun hs => by simp [activateRecover, hs], fun hs => ?_⟩
  have hr := resumeRecover_manual hs
  simp only [activateRecover]
  repeat' split
  all_goals simp_all

end PauseMoveController

namespace MotionShared

/-- Whether the history of signals has an open task and an open manual move. -/
def Opened (sh : MotionShared K) (auto manual : Bool) : Prop :=
  scan .autoStarted .autoStopped sh.signalBuffer.raised = some auto ∧
  scan .manualPointMoveStarted .manualPointMoveStopped sh.signalBuffer.raised = some manual

variable {sh sh' : MotionShared K} {auto manual : Bool}

theorem Opened.of_raised (h : sh.Opened auto manual)
    (hr : sh'.signalBuffer.raised = sh.signalBuffer.raised) : sh'.Opened auto manual := by
  rw [Opened, hr]
  exact h

theorem Opened.of_quiet (h : sh.Opened auto manual) (hq : Quiet sh sh') : sh'.Opened auto manual :=
  h.of_raised (by rw [hq.signalBuffer])

theorem Opened.autoStarted (h : sh.Opened false manual) :
    (sh.setSignal .autoStarted).Opened true manual :=
  ⟨scan_open h.1, (scan_other (by decide) (by decide)).trans h.2⟩

theorem Opened.autoStopped (h : sh.Opened true manual) :
    (sh.setSignal .autoStopped).Opened false manual :=
  ⟨scan_close (by decide) h.1, (scan_other (by decide) (by decide)).trans h.2⟩

theorem Opened.manualStarted (h : sh.Opened auto false) :
    (sh.setSignal .manualPointMoveStarted).Opened auto true :=
  ⟨(scan_other (by decide) (by decide)).trans h.1, scan_open h.2⟩

theorem Opened.manualStopped (h : sh.Opened auto true) :
    (sh.setSignal .manualPointMoveStopped).Opened auto false :=
  ⟨(scan_other (by decide) (by decide)).trans h.1, scan_close (by decide) h.2⟩

/-- The signals of pausing and resuming open and close nothing. -/
theorem Opened.other {s : MotionSignalType} (h : sh.Opened auto manual)
    (hs : s = .autoPaused ∨ s = .autoResumed) : (sh.setSignal s).Opened auto manual := by
  rcases hs with rfl | rfl
  all_goals
    exact ⟨(scan_other (by decide) (by decide)).trans h.1,
      (scan_other (by decide) (by decide)).trans h.2⟩

end MotionShared

namespace AutoTaskRunner

open RunnerSystem (pausedInTask)

/-- The pause-move controller drives a manual move. -/
def manualInPause (r : AutoTaskRunner K) : Bool :=
  r.pausemoveController.state = .manualPointMoving

/-- A task is open, and a manual move exactly while the pause-move controller drives one; it does so
only in a pause of the task. -/
structure SignalsOpen (r : AutoTaskRunner K) (sh : MotionShared K) : Prop where
  opened : sh.Opened true r.manualInPause
  running : r.state ≠ .stopped
  inPause : r.manualInPause → r.state = .paused ∧ r.dominState = .autoTaskRunning

/-- Everything is closed: the task is over. -/
structure SignalsClosed (r : AutoTaskRunner K) (sh : MotionShared K) : Prop where
  opened : sh.Opened false false
  noManual : r.manualInPause = false

variable {r : AutoTaskRunner K} {sh sh' : MotionShared K} {inp : CycleInput K} {imm : Bool}

theorem manualInPause_iff : r.manualInPause ↔ r.pausemoveController.state = .manualPointMoving := by
  simp [manualInPause]

theorem manualInPause_eq_false :
    r.manualInPause = false ↔ r.pausemoveController.state ≠ .manualPointMoving := by
  simp [manualInPause]

/-- A runner that is not in a pause of its task drives no manual move. -/
theorem SignalsOpen.noManual (h : r.SignalsOpen sh)
    (hp : r.state ≠ .paused ∨ r.dominState = .pauseMoveRecoverRunning) :
    r.pausemoveController.state ≠ .manualPointMoving := by
  intro hm
  obtain ⟨hs, hd⟩ := h.inPause (manualInPause_iff.mpr hm)
  rcases hp with hp | hp
  · exact hp hs
  · simp [hd] at hp

/-- With no manual move under way it is enough that a task is open. -/
theorem SignalsOpen.of_noManual (ho : sh.Opened true false) (hs : r.state ≠ .stopped)
    (hm : r.pausemoveController.state ≠ .manualPointMoving) : r.SignalsOpen sh where
  opened := manualInPause_eq_false.mpr hm ▸ ho
  running := hs
  inPause h := absurd (manualInPause_iff.mp h) hm

theorem SignalsOpen.opened_of_noManual (h : r.SignalsOpen sh)
    (hm : r.pausemoveController.state ≠ .manualPointMoving) : sh.Opened true false :=
  manualInPause_eq_false.mpr hm ▸ h.opened

theorem SignalsOpen.pause (h : r.SignalsOpen sh) :
    (r.pause sh).1.SignalsOpen (r.pause sh).2.1 := by
  rcases hc : r.pause sh with ⟨r', sh', ret⟩
  have hcase := hc ▸ r.pause_cases sh
  cases hcase with
  | unchanged => exact h
  | unhandled hd hs => exact ⟨h.opened, h.running, h.inPause⟩
  | recovery hd hs =>
    have hm := h.noManual (.inr hd)
    refine .of_noManual (h.opened_of_noManual hm) ?_ (PauseMoveController.pauseRecover_manual hm)
    simp only
    split <;> simp
  | task ht hd hs =>
    have hm := h.noManual (.inl (by rcases hs with hs | hs <;> simp [hs]))
    refine .of_noManual ((h.opened_of_noManual hm).of_quiet (AutoTask.pause_quiet _ sh)) ?_ hm
    simp only
    split
    · simp
    · exact h.running

theorem SignalsOpen.resume (h : r.SignalsOpen sh) :
    (r.resume sh).1.SignalsOpen (r.resume sh).2.1 := by
  rcases hc : r.resume sh with ⟨r', sh', ret⟩
  have hcase := hc ▸ r.resume_cases sh
  cases hcase with
  | unchanged => exact h
  | unhandled hd hs => exact ⟨h.opened, h.running, h.inPause⟩
  | recovery hd hs hr =>
    have hm := h.noManual (.inr hd)
    exact .of_noManual ((h.opened_of_noManual hm).other (.inr rfl)) (by simp)
      (PauseMoveController.resumeRecover_manual hm)
  | recoveryRefused hd hs hr =>
    have hm := h.noManual (.inr hd)
    exact .of_noManual (h.opened_of_noManual hm) h.running
      (PauseMoveController.resumeRecover_manual hm)
  | activate hd hs hr =>
    obtain ⟨h1, h2⟩ := PauseMoveController.activateRecover_manual (c := r.pausemoveController)
    have hm : r.pausemoveController.state ≠ .manualPointMoving := by
      intro hm
      rw [h1 hm] at hr
      simp at hr
    exact .of_noManual ((h.opened_of_noManual hm).other (.inr rfl)) (by simp) (h2 hm)
  | activateRefused hd hs hr =>
    obtain ⟨h1, h2⟩ := PauseMoveController.activateRecover_manual (c := r.pausemoveController)
    by_cases hm : r.pausemoveController.state = .manualPointMoving
    · rw [h1 hm]
      exact h
    · exact .of_noManual (h.opened_of_noManual hm) h.running (h2 hm)

/-- A stop during a pause of the task is left out: it ends the task without a signal. -/
theorem SignalsOpen.stop (h : r.SignalsOpen sh)
    (hp : ¬(r.state = .paused ∧ r.dominState = .autoTaskRunning)) :
    (r.stop sh imm).1.SignalsOpen (r.stop sh imm).2.1 := by
  rcases hc : r.stop sh imm with ⟨r', sh', ret⟩
  have hcase := hc ▸ r.stop_cases sh imm
  cases hcase with
  | unchanged => exact h
  | unhandled hd hs => exact ⟨h.opened, h.running, h.inPause⟩
  | recovery hd hs =>
    have hm := h.noManual (.inr hd)
    refine .of_noManual (h.opened_of_noManual hm) ?_ (PauseMoveController.stop_manual hm imm)
    simp only
    split
    · simp
    · exact h.running
  | task ht hd hs =>
    have hm := h.noManual (.inl (by rcases hs with hs | hs | hs <;> simp [hs]))
    refine .of_noManual ((h.opened_of_noManual hm).of_quiet (AutoTask.stop_quiet _ sh imm)) ?_ hm
    simp only
    split
    · simp
    · exact h.running
  | paused hd hs => exact absurd ⟨hs, hd⟩ hp

theorem SignalsOpen.startManualPointmove (h : r.SignalsOpen sh)
    (sp : MoveRuntimePlanSpeedInput K) (startPos targetPos : Axis K) :
    let res := r.startManualPointmove sh sp startPos targetPos
    res.1.SignalsOpen res.2.1 := by
  simp only [AutoTaskRunner.startManualPointmove]
  split
  · exact h
  · rename_i hp
    push Not at hp
    simp only [PauseMoveController.startManualPointmove]
    split
    · exact h
    · rename_i hs
      have hs : r.pausemoveController.state = .allowManualPointMove := not_not.mp hs
      have ho := h.opened_of_noManual (by simp [hs])
      split
      · exact .of_noManual ho h.running (by simp [hs])
      · split
        · exact .of_noManual ho h.running (by simp [hs])
        · exact ⟨by simpa [manualInPause] using ho.manualStarted, h.running, fun _ => hp⟩

theorem SignalsOpen.stopManualPointmove (h : r.SignalsOpen sh) :
    (r.stopManualPointmove imm).1.SignalsOpen sh := by
  simp only [AutoTaskRunner.stopManualPointmove]
  split
  · exact h
  · simp only [PauseMoveController.stopManualPointmove]
    split <;> exact ⟨h.opened, h.running, h.inPause⟩

/-- A cycle goes on with the open task or closes it. -/
theorem SignalsOpen.runOnce (h : r.SignalsOpen sh) (inp : CycleInput K) :
    let res := r.runOnce sh inp
    res.1.SignalsOpen res.2 ∨ res.1.state = .stopped ∧ res.1.SignalsClosed res.2 := by
  rcases hc : r.runOnce sh inp with ⟨r', sh'⟩
  have hcase := hc ▸ r.runOnce_cases sh inp
  -- the shared data after a cycle of the task or of the recovery, no manual move being under way
  have htask {task : AutoTask K} (hm : r.pausemoveController.state ≠ .manualPointMoving) :
      (task.runOnce sh inp).2.Opened true false :=
    (h.opened_of_noManual hm).of_quiet (task.runOnce_quiet sh inp)
  have hrec (hm : r.pausemoveController.state ≠ .manualPointMoving) :
      (r.pausemoveController.runOnce sh inp).2.Opened true false ∧
        (r.pausemoveController.runOnce sh inp).1.state ≠ .manualPointMoving := by
    obtain ⟨h1, h2⟩ := PauseMoveController.runOnce_of_not_manual sh inp hm
    exact ⟨(h.opened_of_noManual hm).of_raised h2, h1⟩
  cases hcase with
  | unchanged => exact .inl h
  | unhandled hd hs => exact .inl ⟨h.opened, h.running, h.inPause⟩
  | taskRuns st ht hd hs hst =>
    have hm := h.noManual (.inl hs.1)
    exact .inl (.of_noManual (htask hm) hst.2 hm)
  | taskResumed st ht hd hs hst =>
    have hm := h.noManual (.inl (by simp [hs]))
    exact .inl (.of_noManual ((htask hm).other (.inr rfl)) hst.2 hm)
  | taskPaused ht hd hs hp =>
    have hm := h.noManual (.inl (by simp [hs]))
    exact .inl (.of_noManual ((htask hm).other (.inl rfl)) (by simp)
      (by simp [PauseMoveController.init]))
  | taskStopped ht hd hs hp =>
    have hm := h.noManual (.inl (by simp [hs]))
    exact .inr ⟨rfl, (htask hm).autoStopped, manualInPause_eq_false.mpr hm⟩
  | paused hd hs =>
    by_cases hm : r.pausemoveController.state = .manualPointMoving
    · have ho : sh.Opened true true := manualInPause_iff.mpr hm ▸ h.opened
      rcases PauseMoveController.runOnce_of_manual sh inp hm with ⟨h1, h2⟩ | ⟨h1, h2⟩
      · refine .inl ⟨?_, h.running, fun _ => ⟨hs, hd⟩⟩
        rw [manualInPause_iff.mpr h1]
        exact ho.of_raised h2
      · exact .inl (.of_noManual (ho.manualStopped.of_raised h2) h.running (by simp [h1]))
    · obtain ⟨h1, h2⟩ := hrec hm
      exact .inl (.of_noManual h1 h.running h2)
  | recovers hd hs =>
    obtain ⟨h1, h2⟩ := hrec (h.noManual (.inr hd))
    exact .inl (.of_noManual h1 h.running h2)
  | recovered ht hd hs hp hr =>
    obtain ⟨h1, h2⟩ := hrec (h.noManual (.inr hd))
    exact .inl (.of_noManual (h1.of_quiet (AutoTask.resume_quiet _ _)) (by simp) h2)
  | resumeRefused ht hd hs hp hr =>
    obtain ⟨h1, h2⟩ := hrec (h.noManual (.inr hd))
    exact .inl (.of_noManual (h1.of_quiet (AutoTask.resume_quiet _ _)) h.running h2)
  | recoveryPaused hd hs hp =>
    obtain ⟨h1, h2⟩ := hrec (h.noManual (.inr hd))
    exact .inl (.of_noManual (h1.other (.inl rfl)) (by simp) h2)
  | recoveryBroken hd hs hp =>
    obtain ⟨h1, h2⟩ := hrec (h.noManual (.inr hd))
    exact .inr ⟨rfl, h1.autoStopped, manualInPause_eq_false.mpr h2⟩
  | recoveryStopped hd hs hp =>
    obtain ⟨h1, h2⟩ := hrec (h.noManual (.inr hd))
    exact .inr ⟨rfl, h1.autoStopped, manualInPause_eq_false.mpr h2⟩

end AutoTaskRunner

namespace MotionStateMachine

/-- A machine just reset and enabled, with shared data in any state and no signal raised yet. -/
def ready (sh : MotionShared K) : MotionStateMachine K :=
  { (new (K := K)) with enabled := true, shared := { sh with signalBuffer := {}, fault := false } }

/-- What is open in each mode. -/
def SignalsMatch (m : MotionStateMachine K) : Prop :=
  match m.mainMode with
  | .idle => m.autoTaskRunner.SignalsClosed m.shared
  | .manual => m.shared.Opened false true ∧ m.autoTaskRunner.manualInPause = false
  | .auto => m.autoTaskRunner.SignalsOpen m.shared

variable {m : MotionStateMachine K} {sh : MotionShared K}

theorem signalsMatch_idle (hm : m.mainMode = .idle) :
    m.SignalsMatch ↔ m.autoTaskRunner.SignalsClosed m.shared := by
  simp only [SignalsMatch, hm]

theorem signalsMatch_manual (hm : m.mainMode = .manual) :
    m.SignalsMatch ↔ m.shared.Opened false true ∧ m.autoTaskRunner.manualInPause = false := by
  simp only [SignalsMatch, hm]

theorem signalsMatch_auto (hm : m.mainMode = .auto) :
    m.SignalsMatch ↔ m.autoTaskRunner.SignalsOpen m.shared := by
  simp only [SignalsMatch, hm]

/-- Changes of the shared data that raise no signal. -/
theorem SignalsMatch.shared (h : m.SignalsMatch) (f : MotionShared K)
    (hf : f.signalBuffer.raised = m.shared.signalBuffer.raised) :
    { m with shared := f }.SignalsMatch := by
  cases hm : m.mainMode with
  | idle =>
    have h := (signalsMatch_idle hm).mp h
    exact (signalsMatch_idle rfl).mpr ⟨h.opened.of_raised hf, h.noManual⟩
  | manual =>
    have h := (signalsMatch_manual hm).mp h
    exact (signalsMatch_manual rfl).mpr ⟨h.1.of_raised hf, h.2⟩
  | auto =>
    have h := (signalsMatch_auto hm).mp h
    exact (signalsMatch_auto rfl).mpr ⟨h.opened.of_raised hf, h.running, h.inPause⟩

theorem SignalsMatch.start (h : m.SignalsMatch) (ts : TaskStart K) : (m.start ts).1.SignalsMatch := by
  rw [start_eq]
  split
  · exact h
  · rename_i hc
    push Not at hc
    have hq : Quiet m.shared (ts.build m.shared).2 := AutoTask.build_quiet ts
    have hclosed := (signalsMatch_idle hc.2).mp h
    simp only [startAuto]
    split
    · exact h.shared _ (by rw [hq.signalBuffer])
    · refine (signalsMatch_auto rfl).mpr (.of_noManual (hclosed.opened.of_quiet hq).autoStarted ?_ ?_)
      · simp [AutoTaskRunner.restartTask]
      · exact AutoTaskRunner.manualInPause_eq_false.mp hclosed.noManual

theorem SignalsMatch.pauseAuto (h : m.SignalsMatch) : m.pauseAuto.1.SignalsMatch := by
  simp only [MotionStateMachine.pauseAuto]
  split
  · exact h
  · rename_i hm
    have hm : m.mainMode = .auto := not_not.mp hm
    exact (signalsMatch_auto (by exact hm)).mpr ((signalsMatch_auto hm).mp h).pause

theorem SignalsMatch.resumeAuto (h : m.SignalsMatch) : m.resumeAuto.1.SignalsMatch := by
  simp only [MotionStateMachine.resumeAuto]
  split
  · exact h
  · rename_i hm
    have hm : m.mainMode = .auto := not_not.mp hm
    exact (signalsMatch_auto (by exact hm)).mpr ((signalsMatch_auto hm).mp h).resume

/-- The state in which a stop loses its signals: a task is paused and its recovery not started. -/
def inPauseOfTask (m : MotionStateMachine K) : Bool :=
  m.mainMode = .auto ∧ m.autoTaskRunner.state = .paused ∧
    m.autoTaskRunner.dominState = .autoTaskRunning

theorem SignalsMatch.stopAuto (h : m.SignalsMatch) (hp : m.inPauseOfTask = false) (imm : Bool) :
    (m.stopAuto imm).1.SignalsMatch := by
  simp only [MotionStateMachine.stopAuto]
  split
  · exact h
  · rename_i hm
    have hm : m.mainMode = .auto := not_not.mp hm
    have hp : ¬(m.autoTaskRunner.state = .paused ∧
        m.autoTaskRunner.dominState = .autoTaskRunning) := by
      simpa [inPauseOfTask, hm] using hp
    exact (signalsMatch_auto (by exact hm)).mpr (((signalsMatch_auto hm).mp h).stop hp)

theorem SignalsMatch.startManualPointmove (h : m.SignalsMatch) (sp : MoveRuntimePlanSpeedInput K)
    (targetPos : Axis K) : (m.startManualPointmove sp targetPos).1.SignalsMatch := by
  unfold MotionStateMachine.startManualPointmove
  cases hm : m.mainMode with
  | idle =>
    have hc := (signalsMatch_idle hm).mp h
    simp only
    split
    · exact (signalsMatch_manual rfl).mpr ⟨hc.opened.manualStarted, hc.noManual⟩
    · exact (signalsMatch_idle rfl).mpr hc
  | manual => exact h
  | auto =>
    exact (signalsMatch_auto rfl).mpr
      (((signalsMatch_auto hm).mp h).startManualPointmove sp _ targetPos)

theorem SignalsMatch.stopManualPointmove (h : m.SignalsMatch) (imm : Bool) :
    (m.stopManualPointmove imm).1.SignalsMatch := by
  unfold MotionStateMachine.stopManualPointmove
  cases hm : m.mainMode with
  | idle => exact h
  | manual => exact (signalsMatch_manual rfl).mpr ((signalsMatch_manual hm).mp h)
  | auto =>
    exact (signalsMatch_auto rfl).mpr ((signalsMatch_auto hm).mp h).stopManualPointmove

theorem SignalsMatch.runOnce (h : m.SignalsMatch) (inp : CycleInput K) :
    (m.runOnce inp).SignalsMatch := by
  unfold MotionStateMachine.runOnce
  split
  · exact h
  · cases hm : m.mainMode with
    | idle =>
      have hc := (signalsMatch_idle hm).mp h
      exact (signalsMatch_idle rfl).mpr ⟨hc.opened.of_raised rfl, hc.noManual⟩
    | manual =>
      obtain ⟨ho, hn⟩ := (signalsMatch_manual hm).mp h
      simp only [mainmodeManual]
      split
      · exact (signalsMatch_idle rfl).mpr ⟨ho.manualStopped, hn⟩
      · split
        · exact (signalsMatch_idle rfl).mpr ⟨(ho.of_raised rfl).manualStopped, hn⟩
        · exact (signalsMatch_manual (by exact hm)).mpr ⟨ho.of_raised rfl, hn⟩
    | auto =>
      simp only [mainmodeAuto]
      rcases ((signalsMatch_auto hm).mp h).runOnce inp with ho | ⟨hs, hc⟩
      · exact (signalsMatch_auto (by simp [ho.running, hm])).mpr ho
      · exact (signalsMatch_idle (by simp [hs])).mpr hc

/-- The step does not stop a task that is paused. -/
def NoStopInPause (m : MotionStateMachine K) : Command K → Prop
  | .stopAuto _ => m.inPauseOfTask = false
  | _ => True

instance (m : MotionStateMachine K) (c : Command K) : Decidable (m.NoStopInPause c) := by
  cases c <;> unfold NoStopInPause <;> infer_instance

theorem step_signalsMatch {c : Command K} (h : m.SignalsMatch) (hc : m.NoStopInPause c) :
    (m.step c).SignalsMatch := by
  cases c with
  | start ts => exact h.start ts
  | pauseAuto => exact h.pauseAuto
  | resumeAuto => exact h.resumeAuto
  | stopAuto imm => exact h.stopAuto hc imm
  | startManualPointmove sp target => exact h.startManualPointmove sp target
  | stopManualPointmove imm => exact h.stopManualPointmove imm
  | setting c => cases c <;> exact h.shared _ rfl
  | cycle inp => exact h.runOnce inp

theorem ready_signalsMatch : (ready sh).SignalsMatch :=
  (signalsMatch_idle rfl).mpr ⟨⟨rfl, rfl⟩, rfl⟩

/-- In every run that stops no paused task, each start of a task and of a manual move is followed by
one stop before the next start and, in the idle mode, up to now. -/
theorem signals_paired (sh : MotionShared K) (cmds : List (Command K))
    (hc : Machine.AllSteps step NoStopInPause (ready sh) cmds) :
    let m := Machine.run step (ready sh) cmds
    let raised := m.shared.signalBuffer.raised
    Paired .autoStarted .autoStopped raised (m.mainMode = .idle) ∧
      Paired .manualPointMoveStarted .manualPointMoveStopped raised (m.mainMode = .idle) := by
  intro m raised
  have h : m.SignalsMatch :=
    Machine.AllSteps.invariant (I := SignalsMatch) (fun _ _ => step_signalsMatch)
      ready_signalsMatch hc
  cases hm : m.mainMode with
  | idle =>
    obtain ⟨h1, h2⟩ := ((signalsMatch_idle hm).mp h).opened
    exact ⟨paired_of_scan h1 fun _ => rfl, paired_of_scan h2 fun _ => rfl⟩
  | manual =>
    obtain ⟨h1, h2⟩ := ((signalsMatch_manual hm).mp h).1
    exact ⟨paired_of_scan h1 fun _ => rfl, paired_of_scan h2 (by simp)⟩
  | auto =>
    obtain ⟨h1, h2⟩ := ((signalsMatch_auto hm).mp h).opened
    exact ⟨paired_of_scan h1 (by simp), paired_of_scan h2 (by simp)⟩

end MotionStateMachine

end

namespace MotionStateMachine

attribute [local instance] Sample.settings

/-- A fake pause, paused and resumed to its end. -/
def pausedAndResumed : List (Command ℚ) :=
  [.start .m00Fake] ++ .replicate 2 (.cycle (Sample.input 0)) ++ [.resumeAuto] ++
    .replicate 3 (.cycle (Sample.input 0))

theorem pausedAndResumed_paired :
    let m := Machine.run step (ready .new) pausedAndResumed
    m.mainMode = .idle ∧
      Paired .autoStarted .autoStopped m.shared.signalBuffer.raised (m.mainMode = .idle) :=
  ⟨by decide +kernel, (signals_paired .new pausedAndResumed (by decide +kernel)).1⟩

/-- A paused task that is stopped leaves the automatic mode without `autoStopped`. -/
theorem stopped_in_pause_not_paired :
    let m := Machine.run step (ready .new)
      ([.start .m00Fake] ++ .replicate 2 (.cycle (Sample.input 0)) ++
        [.stopAuto false, .cycle (Sample.input 0)])
    ¬Paired .autoStarted .autoStopped m.shared.signalBuffer.raised (m.mainMode = .idle) := by
  intro m h
  have hcount := h.2 (by decide +kernel) [.autoPaused] [] (by decide +kernel) (by decide)
  exact absurd hcount (by decide)

end MotionStateMachine

end Edm
