import Mathlib.Data.List.Perm.Basic
import Edm.Motion.PowerOff
import Edm.Motion.Signals

/-!
# The delivery of signals

The signals of a cycle are marked in a buffer with one flag for each type and put into the queue at
the end of the cycle, in the order of their types. A cycle raises at most one signal while it runs the
state machine and at most one more with its command, and never the same one twice
(`threadCycle_raises`). So no signal is lost in the buffer and the cycles are told apart in order, but
within a cycle the order of the types replaces the order of raising (`stopped_and_started_swapped`),
and a signal that finds the queue full is lost.
-/

set_option linter.unusedSectionVars false

namespace Edm

/-- The buffer after at most one more signal. -/
def SignalBuffer.raise (b : SignalBuffer) : Option MotionSignalType → SignalBuffer
  | none => b
  | some s => b.setSignal s

section

variable {K : Type} [Field K] [LinearOrder K] [FloorRing K] [RealFns K] [Settings]

/-- From `sh` to `sh'` at most one signal was raised, one that satisfies `P`. -/
def MotionShared.RaisesOne (P : MotionSignalType → Prop) (sh sh' : MotionShared K) : Prop :=
  ∃ o : Option MotionSignalType, sh'.signalBuffer = sh.signalBuffer.raise o ∧ ∀ s ∈ o, P s

open MotionShared (RaisesOne)

variable {P Q : MotionSignalType → Prop} {sh sh' : MotionShared K}

theorem raisesOne_of_none (h : sh'.signalBuffer = sh.signalBuffer) : RaisesOne P sh sh' :=
  ⟨none, h, by simp⟩

theorem raisesOne_of_some {s : MotionSignalType} (h : sh'.signalBuffer = sh.signalBuffer.setSignal s)
    (hs : P s) : RaisesOne P sh sh' :=
  ⟨some s, h, by simpa using hs⟩

theorem Quiet.raisesOne (h : Quiet sh sh') : RaisesOne P sh sh' := raisesOne_of_none h.signalBuffer

/-- A signal raised after a quiet step. -/
theorem Quiet.raisesOne_setSignal {s : MotionSignalType} (h : Quiet sh sh') (hs : P s) :
    RaisesOne P sh (sh'.setSignal s) :=
  raisesOne_of_some (by simp only [MotionShared.setSignal, h.signalBuffer]) hs

theorem MotionShared.RaisesOne.mono (h : RaisesOne P sh sh') (hPQ : ∀ s, P s → Q s) :
    RaisesOne Q sh sh' := by
  obtain ⟨o, ho, hs⟩ := h
  exact ⟨o, ho, fun s hm => hPQ s (hs s hm)⟩

namespace PauseMoveController

variable (c : PauseMoveController K) (sh : MotionShared K) (inp : CycleInput K)

/-- A cycle that raises the end of a manual move leaves the controller ready for the next one. -/
theorem runOnce_raises :
    (c.runOnce sh inp).2.signalBuffer = sh.signalBuffer ∨
      (c.runOnce sh inp).1.state = .allowManualPointMove ∧
        (c.runOnce sh inp).2.signalBuffer = sh.signalBuffer.setSignal .manualPointMoveStopped := by
  unfold runOnce
  cases h : c.state with
  | manualPointMoving =>
    simp only [manualPointmoving]
    split
    · split <;> exact .inr ⟨rfl, rfl⟩
    · exact .inl rfl
  | recovering =>
    simp only [recovering]
    repeat' split
    all_goals exact .inl rfl
  | recoveringPausing =>
    simp only [recoveringPausing]
    split <;> exact .inl rfl
  | outSideStopping =>
    simp only [outsideStopping]
    split <;> exact .inl rfl
  | _ => exact .inl rfl

/-- In the other states it ends in, a cycle raised nothing. -/
theorem runOnce_silent (h : (c.runOnce sh inp).1.state ≠ .allowManualPointMove) :
    (c.runOnce sh inp).2.signalBuffer = sh.signalBuffer :=
  (c.runOnce_raises sh inp).resolve_right fun hr => h hr.1

end PauseMoveController

/-- What a cycle of the state machine may raise: no start, and `autoResumed` only if it leaves the
runner in another state than paused. -/
def RaisedByCycle (after : MotionAutoState) (s : MotionSignalType) : Prop :=
  s ≠ .manualPointMoveStarted ∧ s ≠ .autoStarted ∧ (s = .autoResumed → after ≠ .paused)

/-- What a command may raise: a start, or `autoResumed` if it finds the runner paused. -/
def RaisedByCommand (before : MotionAutoState) (s : MotionSignalType) : Prop :=
  s = .manualPointMoveStarted ∨ s = .autoStarted ∨ (s = .autoResumed ∧ before = .paused)

/-- No signal is raised by both in one cycle. -/
theorem RaisedByCycle.ne_command {st : MotionAutoState} {s s' : MotionSignalType}
    (h : RaisedByCycle st s) (h' : RaisedByCommand st s') : s ≠ s' := by
  rintro rfl
  obtain ⟨h1, h2, h3⟩ := h
  rcases h' with h' | h' | ⟨hs, hp⟩
  · exact h1 h'
  · exact h2 h'
  · exact h3 hs hp

namespace AutoTaskRunner

variable (r : AutoTaskRunner K) (sh : MotionShared K) (inp : CycleInput K) (imm : Bool)

theorem runOnce_raises :
    RaisesOne (RaisedByCycle (r.runOnce sh inp).1.state) sh (r.runOnce sh inp).2 := by
  have hpmc := r.pausemoveController.runOnce_raises sh inp
  have hsilent := r.pausemoveController.runOnce_silent sh inp
  have hcase := r.runOnce_cases sh inp
  generalize r.runOnce sh inp = res at hcase
  -- a cycle of the controller that ended in a state of a recovery
  have hrec {s : MotionSignalType} {st : MotionAutoState} (hs : RaisedByCycle st s)
      (h : (r.pausemoveController.runOnce sh inp).1.state ≠ .allowManualPointMove) :
      RaisesOne (RaisedByCycle st) sh ((r.pausemoveController.runOnce sh inp).2.setSignal s) :=
    raisesOne_of_some (by simp only [MotionShared.setSignal, hsilent h]) hs
  -- a cycle of the controller, after which the runner raises nothing itself
  have hmove {st : MotionAutoState} :
      RaisesOne (RaisedByCycle st) sh (r.pausemoveController.runOnce sh inp).2 := by
    rcases hpmc with h | ⟨-, h⟩
    · exact raisesOne_of_none h
    · exact raisesOne_of_some h ⟨by simp, by simp, by simp⟩
  cases hcase with
  | unchanged => exact (Quiet.refl sh).raisesOne
  | unhandled hd hs => exact raisesOne_of_none rfl
  | taskRuns st ht hd hs hst => exact (AutoTask.runOnce_quiet _ sh inp).raisesOne
  | taskResumed st ht hd hs hst =>
    exact (AutoTask.runOnce_quiet _ sh inp).raisesOne_setSignal
      ⟨by simp, by simp, fun _ => hst.1⟩
  | taskPaused ht hd hs hp =>
    exact (AutoTask.runOnce_quiet _ sh inp).raisesOne_setSignal ⟨by simp, by simp, by simp⟩
  | taskStopped ht hd hs hp =>
    exact (AutoTask.runOnce_quiet _ sh inp).raisesOne_setSignal ⟨by simp, by simp, by simp⟩
  | paused hd hs => exact hmove
  | recovers hd hs => exact hmove
  | @recovered task ht hd hs hp hr | @resumeRefused task ht hd hs hp hr =>
    have hq := (AutoTask.resume_quiet task (r.pausemoveController.runOnce sh inp).2).signalBuffer
    refine raisesOne_of_none (hq.trans (hsilent fun h => ?_))
    simp [PauseMoveController.isRecoverOver, h] at hp
  | recoveryPaused hd hs hp =>
    refine hrec ⟨by simp, by simp, by simp⟩ fun h => ?_
    simp [PauseMoveController.isRecoverPaused, h] at hp
  | recoveryBroken hd hs hp | recoveryStopped hd hs hp =>
    refine hrec ⟨by simp, by simp, by simp⟩ fun h => ?_
    simp [PauseMoveController.isStopped, h] at hp

theorem pause_silent : (r.pause sh).2.1.signalBuffer = sh.signalBuffer := by
  have hcase := r.pause_cases sh
  generalize r.pause sh = res at hcase
  cases hcase with
  | task ht hd hs => exact (AutoTask.pause_quiet _ sh).signalBuffer
  | _ => rfl

theorem stop_silent : (r.stop sh imm).2.1.signalBuffer = sh.signalBuffer := by
  have hcase := r.stop_cases sh imm
  generalize r.stop sh imm = res at hcase
  cases hcase with
  | task ht hd hs => exact (AutoTask.stop_quiet _ sh imm).signalBuffer
  | _ => rfl

theorem resume_raises : RaisesOne (RaisedByCommand r.state) sh (r.resume sh).2.1 := by
  have hcase := r.resume_cases sh
  generalize r.resume sh = res at hcase
  cases hcase with
  | recovery hd hs hr | activate hd hs hr =>
    exact raisesOne_of_some rfl (.inr (.inr ⟨rfl, hs⟩))
  | _ => exact raisesOne_of_none rfl

theorem startManualPointmove_raises (sp : MoveRuntimePlanSpeedInput K) (startPos targetPos : Axis K) :
    RaisesOne (RaisedByCommand r.state) sh (r.startManualPointmove sh sp startPos targetPos).2.1 := by
  simp only [startManualPointmove, PauseMoveController.startManualPointmove]
  repeat' split
  all_goals
    first
    | exact raisesOne_of_none rfl
    | exact raisesOne_of_some rfl (.inl rfl)

end AutoTaskRunner

namespace MotionStateMachine

variable (m : MotionStateMachine K) (inp : CycleInput K)

theorem runOnce_raises :
    RaisesOne (RaisedByCycle (m.runOnce inp).autoState) m.shared (m.runOnce inp).shared := by
  unfold runOnce
  split
  · exact raisesOne_of_none rfl
  · split
    · exact raisesOne_of_none rfl
    · simp only [mainmodeManual]
      split
      · exact raisesOne_of_some rfl ⟨by simp, by simp, by simp⟩
      · split
        · exact raisesOne_of_some rfl ⟨by simp, by simp, by simp⟩
        · exact raisesOne_of_none rfl
    · exact m.autoTaskRunner.runOnce_raises m.shared inp

theorem start_raises (ts : TaskStart K) :
    RaisesOne (RaisedByCommand m.autoState) m.shared (m.start ts).1.shared := by
  have hq : Quiet m.shared (ts.build m.shared).2 := AutoTask.build_quiet ts
  rw [start_eq]
  split
  · exact raisesOne_of_none rfl
  · unfold startAuto
    split
    · exact hq.raisesOne
    · exact hq.raisesOne_setSignal (.inr (.inl rfl))

theorem pauseAuto_silent : m.pauseAuto.1.shared.signalBuffer = m.shared.signalBuffer := by
  unfold pauseAuto
  split
  · rfl
  · exact m.autoTaskRunner.pause_silent m.shared

theorem stopAuto_silent (imm : Bool) :
    (m.stopAuto imm).1.shared.signalBuffer = m.shared.signalBuffer := by
  unfold stopAuto
  split
  · rfl
  · exact m.autoTaskRunner.stop_silent m.shared imm

theorem resumeAuto_raises :
    RaisesOne (RaisedByCommand m.autoState) m.shared m.resumeAuto.1.shared := by
  unfold resumeAuto
  split
  · exact raisesOne_of_none rfl
  · exact m.autoTaskRunner.resume_raises m.shared

theorem startManualPointmove_raises (sp : MoveRuntimePlanSpeedInput K) (targetPos : Axis K) :
    RaisesOne (RaisedByCommand m.autoState) m.shared (m.startManualPointmove sp targetPos).1.shared := by
  unfold startManualPointmove
  split
  · simp only
    split
    · exact raisesOne_of_some rfl (.inl rfl)
    · exact raisesOne_of_none rfl
  · exact raisesOne_of_none rfl
  · exact m.autoTaskRunner.startManualPointmove_raises m.shared sp _ targetPos

theorem stopManualPointmove_silent (imm : Bool) :
    (m.stopManualPointmove imm).1.shared.signalBuffer = m.shared.signalBuffer := by
  unfold stopManualPointmove
  split <;> rfl

end MotionStateMachine

namespace MotionThread

variable (t : MotionThread K) (inp : ThreadInput K)

/-- The signals of the state machine. -/
def signalBuffer (t : MotionThread K) : SignalBuffer := t.motionStateMachine.shared.signalBuffer

theorem threadstateRunning_raises :
    RaisesOne (RaisedByCycle (t.threadstateRunning inp).motionStateMachine.autoState)
      t.motionStateMachine.shared (t.threadstateRunning inp).motionStateMachine.shared := by
  unfold threadstateRunning
  split
  · exact raisesOne_of_none rfl
  · split <;> exact raisesOne_of_none rfl
  · exact raisesOne_of_none rfl
  · repeat' split
    all_goals exact raisesOne_of_none rfl
  · repeat' split
    all_goals exact raisesOne_of_none rfl
  · by_cases ha : inp.ecat.allEnabled <;> by_cases hd : inp.ecat.connected <;>
      simp only [ha, hd, Bool.not_true, Bool.not_false, Bool.false_eq_true, if_true, if_false] <;>
      exact raisesOne_of_none rfl
  · simp only
    split
    · exact raisesOne_of_none rfl
    · exact t.motionStateMachine.runOnce_raises inp.cycle

theorem threadCycleWork_raises :
    RaisesOne (RaisedByCycle (t.threadCycleWork inp).motionStateMachine.autoState)
      t.motionStateMachine.shared (t.threadCycleWork inp).motionStateMachine.shared := by
  unfold threadCycleWork
  split
  · exact raisesOne_of_none rfl
  · have h := t.threadstateRunning_raises inp
    simp only
    split <;> exact h
  · unfold threadstateStopping
    repeat' split
    all_goals exact raisesOne_of_none rfl
  · exact raisesOne_of_none rfl

theorem handleCommand_raises (nowMs hrNowNs : ℤ) (c : MotionCommand K) :
    RaisesOne (RaisedByCommand t.motionStateMachine.autoState) t.motionStateMachine.shared
      (t.handleCommand nowMs hrNowNs c).1.motionStateMachine.shared := by
  have hstart := t.motionStateMachine.start_raises
  cases c with
  | manualStartPointMove endPos sp touch =>
    have hm := t.motionStateMachine.startManualPointmove_raises sp endPos
    simp only [handleCommand]
    split
    · exact raisesOne_of_none rfl
    · split
      · exact hm
      · exact hm
  | autoStartG00FastMove endPos sp touch =>
    simp only [handleCommand]
    split
    · exact raisesOne_of_none rfl
    · exact hstart (.g00 sp endPos touch)
  | autoStartG01ServoMove endPos height =>
    simp only [handleCommand]
    split
    · exact raisesOne_of_none rfl
    · exact hstart (.g01 endPos height nowMs hrNowNs)
  | autoG04Delay delayS =>
    simp only [handleCommand]
    split
    · exact raisesOne_of_none rfl
    · exact hstart (.g04 delayS)
  | autoM00FakePauseTask =>
    simp only [handleCommand]
    split
    · exact raisesOne_of_none rfl
    · exact hstart .m00Fake
  | autoG01Group items => exact hstart (.g01Group items)
  | autoStartDrillMove p =>
    simp only [handleCommand, onlyDrill]
    split
    · exact hstart (.drill p)
    · exact raisesOne_of_none rfl
  | manualStopPointMove imm =>
    simp only [handleCommand]
    split
    · exact raisesOne_of_none rfl
    · exact raisesOne_of_none (t.motionStateMachine.stopManualPointmove_silent imm)
  | autoPause => exact raisesOne_of_none t.motionStateMachine.pauseAuto_silent
  | autoResume => exact t.motionStateMachine.resumeAuto_raises
  | autoStop imm => exact raisesOne_of_none (t.motionStateMachine.stopAuto_silent imm)
  | setSpindleState on | setDrillParams dp | setSpindleParam =>
    simp only [handleCommand, onlyDrill]
    split <;> exact raisesOne_of_none rfl
  | settingTestVOffset i type value =>
    simp only [handleCommand]
    split
    · exact raisesOne_of_none rfl
    · cases type <;> exact raisesOne_of_none rfl
  | manualEmergencyStopAllMove | settingTriggerEcatConnect | settingClearStatData
  | settingMotionSettings | settingClearWarning | settingSetJumpParam | settingSetG01SpeedRatio =>
    exact raisesOne_of_none rfl

end MotionThread

/-- The signals raised between two states of the buffer, the first raised first. -/
def raisedBetween (before after : SignalBuffer) : List MotionSignalType :=
  (after.raised.take (after.raised.length - before.raised.length)).reverse

/-- The order in which the buffer gives out the signals of a cycle. -/
def inTypeOrder (l : List MotionSignalType) : List MotionSignalType :=
  MotionThread.signalTypes.filter (· ∈ l)

theorem inTypeOrder_perm {l : List MotionSignalType} (h : l.Nodup) : (inTypeOrder l).Perm l := by
  have hnodup : (inTypeOrder l).Nodup := List.Nodup.filter _ (by decide)
  refine (List.perm_ext_iff_of_nodup hnodup h).mpr fun s => ?_
  have hs : s ∈ MotionThread.signalTypes := by cases s <;> decide
  simp [inTypeOrder, hs]

namespace MotionThread

variable (t : MotionThread K) (inp : ThreadInput K)

/-- A signal finds a place as long as the queue has one. -/
theorem foldl_pushSignal (q l : List (MotionSignal K)) :
    l.foldl pushSignal q = q ++ l.take (signalQueueCapacity - q.length) := by
  induction l generalizing q with
  | nil => simp
  | cons s l ih =>
    rw [List.foldl_cons, ih, pushSignal]
    split
    · rename_i hlt
      obtain ⟨n, hn⟩ : ∃ n, signalQueueCapacity - q.length = n + 1 :=
        ⟨signalQueueCapacity - q.length - 1, by omega⟩
      have hn' : signalQueueCapacity - (q ++ [s]).length = n := by
        rw [List.length_append, List.length_singleton]
        omega
      rw [hn, hn', List.take_succ_cons, List.append_assoc, List.singleton_append]
    · rename_i hfull
      rw [show signalQueueCapacity - q.length = 0 by omega]
      simp

theorem pendingSignals_types {b : SignalBuffer} {l : List MotionSignalType} (i : MotionInfo K)
    (hb : ∀ s, b.signalsArr s = decide (s ∈ l)) (hs : l ≠ [] → b.hasSignal = true) :
    (pendingSignals b i).map (·.type) = inTypeOrder l := by
  have hfun : b.signalsArr = fun s => decide (s ∈ l) := funext hb
  unfold pendingSignals inTypeOrder
  split
  · rw [List.map_map, hfun]
    exact List.map_id _
  · rename_i hn
    have hl : l = [] := by
      by_contra hl
      exact hn (hs hl)
    simp [hl]

/-- Nothing is marked in the buffer, as it is between two cycles. -/
def Flushed (t : MotionThread K) : Prop := t.signalBuffer.signalsArr = fun _ => false

/-- The command of a cycle, if it fetched one. -/
def afterCommand (t : MotionThread K) (inp : ThreadInput K) :
    Option (MotionCommand K) → MotionThread K
  | none => t
  | some cmd => (t.handleCommand inp.cycle.nowMs inp.cycle.hrNowNs cmd).1

theorem threadCycle_fst (cmd : Option (MotionCommand K)) :
    (t.threadCycle inp cmd).1 =
      (((t.threadCycleWork inp).afterCommand inp cmd).copyInfoCache inp).handleSignal := by
  cases cmd <;> rfl

theorem afterCommand_raises (cmd : Option (MotionCommand K)) :
    RaisesOne (RaisedByCommand t.motionStateMachine.autoState) t.motionStateMachine.shared
      (t.afterCommand inp cmd).motionStateMachine.shared := by
  cases cmd with
  | none => exact raisesOne_of_none rfl
  | some cmd => exact t.handleCommand_raises _ _ cmd

/-- Only the end of a cycle touches the queue. -/
theorem threadCycleWork_queue :
    (t.threadCycleWork inp).motionSignalQueue = t.motionSignalQueue := by
  unfold threadCycleWork
  split
  · rfl
  · simp only [threadstateRunning]
    repeat' split
    all_goals rfl
  · unfold threadstateStopping
    repeat' split
    all_goals rfl
  · rfl

theorem afterCommand_queue (cmd : Option (MotionCommand K)) :
    (t.afterCommand inp cmd).motionSignalQueue = t.motionSignalQueue := by
  cases cmd with
  | none => rfl
  | some cmd =>
    simp only [afterCommand]
    cases cmd with
    | settingTestVOffset i type value =>
      simp only [handleCommand]
      split
      · rfl
      · cases type <;> rfl
    | _ =>
      simp only [handleCommand, onlyDrill]
      repeat' split
      all_goals rfl

/-- Up to the end of a cycle its signals are raised once each and marked in the buffer. -/
theorem threadCycle_raises (h : t.Flushed) (cmd : Option (MotionCommand K)) :
    ∃ l : List MotionSignalType, l.Nodup ∧
      let b := ((t.threadCycleWork inp).afterCommand inp cmd).signalBuffer
      b.raised = l.reverse ++ t.signalBuffer.raised ∧
        (∀ s, b.signalsArr s = decide (s ∈ l)) ∧ (l ≠ [] → b.hasSignal = true) := by
  obtain ⟨o, ho, hP⟩ := t.threadCycleWork_raises inp
  obtain ⟨o', ho', hQ⟩ := (t.threadCycleWork inp).afterCommand_raises inp cmd
  have hb : ((t.threadCycleWork inp).afterCommand inp cmd).signalBuffer =
      (t.signalBuffer.raise o).raise o' := by
    rw [signalBuffer, ho', ho]
    rfl
  refine ⟨o.toList ++ o'.toList, ?_, ?_⟩
  · rcases o with _ | s
    · cases o' <;> simp
    · rcases o' with _ | s'
      · simp
      · simpa using (hP s rfl).ne_command (hQ s' rfl)
  · intro b
    have hempty : ∀ s, t.signalBuffer.signalsArr s = false := fun s => congrFun h s
    rw [show b = _ from hb]
    rcases o with _ | s <;> rcases o' with _ | s'
    · exact ⟨rfl, by simp [SignalBuffer.raise, hempty], by simp⟩
    · exact ⟨rfl, by simp [SignalBuffer.raise, SignalBuffer.setSignal, hempty], fun _ => rfl⟩
    · exact ⟨rfl, by simp [SignalBuffer.raise, SignalBuffer.setSignal, hempty], fun _ => rfl⟩
    · refine ⟨rfl, fun x => ?_, fun _ => rfl⟩
      by_cases h1 : x = s <;> by_cases h2 : x = s' <;>
        simp [SignalBuffer.raise, SignalBuffer.setSignal, hempty, h1, h2]

/-- What a cycle adds to the queue, to the history and to the buffer. -/
theorem threadCycle_delivers (h : t.Flushed) (cmd : Option (MotionCommand K)) :
    let t' := (t.threadCycle inp cmd).1
    let l := raisedBetween t.signalBuffer t'.signalBuffer
    t'.Flushed ∧ l.Nodup ∧ t'.signalBuffer.raised = l.reverse ++ t.signalBuffer.raised ∧
      t'.motionSignalQueue.map (·.type) = t.motionSignalQueue.map (·.type) ++
        (inTypeOrder l).take (signalQueueCapacity - t.motionSignalQueue.length) := by
  obtain ⟨l, hl, hr, hm, hh⟩ := t.threadCycle_raises inp h cmd
  intro t' l'
  generalize ht' : (t.threadCycleWork inp).afterCommand inp cmd = t₁ at hr hm hh
  have hq : t₁.motionSignalQueue = t.motionSignalQueue := by
    rw [← ht', afterCommand_queue, threadCycleWork_queue]
  have he : t' = (t₁.copyInfoCache inp).handleSignal := by
    rw [← ht']
    exact t.threadCycle_fst inp cmd
  have hraised : t'.signalBuffer.raised = l.reverse ++ t.signalBuffer.raised := by
    rw [he]
    exact hr
  have hl' : l' = l := by
    simp [l', raisedBetween, hraised]
  refine ⟨?_, hl' ▸ hl, hl' ▸ hraised, ?_⟩
  · rw [he]
    rfl
  · have hp := pendingSignals_types (t₁.copyInfoCache inp).infoCache hm hh
    rw [hl', ← hp, ← List.map_take, ← hq, ← List.map_append, he]
    simp only [handleSignal, foldl_pushSignal]
    rfl

end MotionThread

/-- The thread with the receivers of its signals. `cycles` is not in the source: it holds the signals
each cycle raised. -/
structure SignalSystem (K : Type) where
  thread : MotionThread K
  delivered : List (MotionSignal K)
  cycles : List (List MotionSignalType)

namespace SignalSystem

/-- A cycle of the thread with the command it fetches, or `consume_one` by the receivers. -/
inductive Action (K : Type) where
  | cycle (inp : ThreadInput K) (cmd : Option (MotionCommand K))
  | consume

def new : SignalSystem K := ⟨.new, [], []⟩

def step (s : SignalSystem K) : Action K → SignalSystem K
  | .cycle inp cmd =>
    let t := (s.thread.threadCycle inp cmd).1
    { s with
      thread := t
      cycles := s.cycles ++ [raisedBetween s.thread.signalBuffer t.signalBuffer] }
  | .consume =>
    match s.thread.motionSignalQueue with
    | [] => s
    | signal :: rest =>
      { s with
        thread := { s.thread with motionSignalQueue := rest }
        delivered := s.delivered ++ [signal] }

/-- The types of the signals delivered and of those on their way. -/
def deliveredTypes (s : SignalSystem K) : List MotionSignalType :=
  (s.delivered ++ s.thread.motionSignalQueue).map (·.type)

/-- Every signal raised so far, the first raised first. -/
def raisedTypes (s : SignalSystem K) : List MotionSignalType := s.thread.signalBuffer.raised.reverse

/-- The queue takes all signals of the cycle. -/
def HasRoom (s : SignalSystem K) : Action K → Prop
  | .cycle inp cmd =>
    s.thread.motionSignalQueue.length +
        (raisedBetween s.thread.signalBuffer (s.thread.threadCycle inp cmd).1.signalBuffer).length ≤
      MotionThread.signalQueueCapacity
  | .consume => True

instance (s : SignalSystem K) : (a : Action K) → Decidable (s.HasRoom a)
  | .cycle _ _ => inferInstanceAs (Decidable (_ ≤ _))
  | .consume => isTrue trivial

/-- What a run keeps whether or not the queue has room. -/
structure Accounted (s : SignalSystem K) : Prop where
  flushed : s.thread.Flushed
  raised : s.cycles.flatten = s.raisedTypes
  once : ∀ l ∈ s.cycles, l.Nodup
  delivered : s.deliveredTypes.Sublist (s.cycles.map inTypeOrder).flatten

/-- And what it keeps if the queue has room in every cycle. -/
def AllDelivered (s : SignalSystem K) : Prop :=
  s.deliveredTypes = (s.cycles.map inTypeOrder).flatten

variable {s : SignalSystem K}

theorem consume_deliveredTypes : (s.step .consume).deliveredTypes = s.deliveredTypes := by
  simp only [step, deliveredTypes]
  split
  · rfl
  · rename_i signal rest hq
    simp [hq]

theorem Accounted.step (h : s.Accounted) (a : Action K) : (s.step a).Accounted := by
  cases a with
  | cycle inp cmd =>
    obtain ⟨hf, hn, hr, hq⟩ := s.thread.threadCycle_delivers inp h.flushed cmd
    refine ⟨hf, ?_, ?_, ?_⟩
    · simp only [SignalSystem.step, raisedTypes, hr, List.flatten_append, List.reverse_append,
        List.reverse_reverse]
      rw [h.raised]
      simp [raisedTypes]
    · intro l hl
      rcases List.mem_append.mp hl with hl | hl
      · exact h.once l hl
      · rw [List.mem_singleton.mp hl]
        exact hn
    · simp only [SignalSystem.step, deliveredTypes, List.map_append, List.flatten_append, hq,
        ← List.append_assoc]
      refine List.Sublist.append ?_ ?_
      · simpa [deliveredTypes] using h.delivered
      · simpa using List.take_sublist _ _
  | consume =>
    refine ⟨?_, ?_, ?_, ?_⟩
    · simp only [SignalSystem.step]
      split <;> exact h.flushed
    · simp only [SignalSystem.step]
      split <;> exact h.raised
    · simp only [SignalSystem.step]
      split <;> exact h.once
    · rw [consume_deliveredTypes]
      simp only [SignalSystem.step]
      split <;> exact h.delivered

theorem AllDelivered.step (h : s.AllDelivered) (ha : s.Accounted) {a : Action K}
    (hroom : s.HasRoom a) : (s.step a).AllDelivered := by
  cases a with
  | cycle inp cmd =>
    obtain ⟨-, hn, -, hq⟩ := s.thread.threadCycle_delivers inp ha.flushed cmd
    have hlen := (inTypeOrder_perm hn).length_eq
    simp only [HasRoom] at hroom
    rw [List.take_of_length_le (by omega)] at hq
    have hd := h
    simp only [AllDelivered, deliveredTypes, List.map_append] at hd
    simp only [AllDelivered, SignalSystem.step, deliveredTypes, List.map_append, hq,
      ← List.append_assoc, List.flatten_append, hd]
    simp
  | consume =>
    rw [AllDelivered, consume_deliveredTypes, h]
    simp only [SignalSystem.step]
    split <;> rfl

/-- The queue never holds more than its capacity. -/
def QueueBounded (s : SignalSystem K) : Prop :=
  s.Accounted ∧ s.thread.motionSignalQueue.length ≤ MotionThread.signalQueueCapacity

theorem QueueBounded.step (h : s.QueueBounded) (a : Action K) : (s.step a).QueueBounded := by
  obtain ⟨ha, hq⟩ := h
  refine ⟨ha.step a, ?_⟩
  cases a with
  | cycle inp cmd =>
    have hd := congrArg List.length (s.thread.threadCycle_delivers inp ha.flushed cmd).2.2.2
    simp only [List.length_map, List.length_append, List.length_take] at hd
    simp only [SignalSystem.step]
    omega
  | consume =>
    simp only [SignalSystem.step]
    split
    · exact hq
    · rename_i signal rest hcons
      rw [hcons, List.length_cons] at hq
      exact Nat.le_of_succ_le hq

theorem new_accounted : (new : SignalSystem K).Accounted :=
  ⟨rfl, rfl, by simp [new], by simp [new, deliveredTypes, MotionThread.new]⟩

theorem queue_le_capacity (actions : List (Action K)) :
    (Machine.run step (new : SignalSystem K) actions).thread.motionSignalQueue.length ≤
      MotionThread.signalQueueCapacity :=
  (Machine.run_invariant (I := QueueBounded) (fun _ a h => h.step a)
    ⟨new_accounted, Nat.zero_le _⟩ actions).2

/-- In every run the signals of the cycles are delivered in the order of the cycles, those of one
cycle, each raised in it once, in the order of their types; if the queue has room in every cycle,
all of them. -/
theorem delivered_by_cycle (actions : List (Action K)) :
    let s : SignalSystem K := Machine.run step new actions
    s.cycles.flatten = s.raisedTypes ∧
      (∀ l ∈ s.cycles, l.Nodup ∧ (inTypeOrder l).Perm l) ∧
      s.deliveredTypes.Sublist (s.cycles.map inTypeOrder).flatten ∧
      (Machine.AllSteps step HasRoom new actions →
        s.deliveredTypes = (s.cycles.map inTypeOrder).flatten) := by
  intro s
  have ha : s.Accounted := Machine.run_invariant (fun _ a h => h.step a) new_accounted actions
  refine ⟨ha.raised, fun l hl => ⟨ha.once l hl, inTypeOrder_perm (ha.once l hl)⟩, ha.delivered, ?_⟩
  intro hroom
  have h : s.Accounted ∧ s.AllDelivered :=
    Machine.AllSteps.invariant (I := fun s => s.Accounted ∧ s.AllDelivered)
      (fun _ a h hc => ⟨h.1.step a, h.2.step h.1 hc⟩)
      ⟨new_accounted, by simp [AllDelivered, new, deliveredTypes, MotionThread.new]⟩ hroom
  exact h.2

end SignalSystem

end

namespace SignalSystem

attribute [local instance] Sample.settings

open MotionThread (goodInput)

/-- The drives are connected and get ready. -/
def broughtUp : List (Action ℚ) :=
  [.cycle goodInput none, .cycle goodInput none,
    .cycle goodInput (some .settingTriggerEcatConnect)] ++ .replicate 4 (.cycle goodInput none)

/-- A fake pause is started and stopped at once. -/
def startedAndStopped : List (Action ℚ) :=
  [.cycle goodInput (some .autoM00FakePauseTask), .cycle goodInput (some (.autoStop false)),
    .cycle goodInput none]

/-- The thread waits for a task. -/
def IdleAndReady (s : SignalSystem ℚ) : Prop :=
  s.thread.threadState = .running ∧ s.thread.ecatState = .ecatReady ∧
    s.thread.motionStateMachine.enabled = true ∧ s.thread.motionStateMachine.mainMode = .idle

instance (s : SignalSystem ℚ) : Decidable s.IdleAndReady :=
  inferInstanceAs (Decidable (_ ∧ _ ∧ _ ∧ _))

theorem startedAndStopped_raises {s : SignalSystem ℚ} (h : s.IdleAndReady) :
    let s' := Machine.run step s startedAndStopped
    s'.IdleAndReady ∧ s'.delivered = s.delivered ∧
      s'.raisedTypes.length = s.raisedTypes.length + 2 := by
  obtain ⟨⟨ts, es, f1, f2, ex, m, v1, v2, ic, q⟩, dl, cy⟩ := s
  obtain ⟨en, mm, pm, r, sh⟩ := m
  obtain ⟨h1, h2, h3, h4⟩ := h
  simp only at h1 h2 h3 h4
  subst h1 h2 h3 h4
  exact ⟨⟨rfl, rfl, rfl, rfl⟩, rfl, by simp only [raisedTypes, List.length_reverse]; rfl⟩

theorem startedAndStopped_often {s : SignalSystem ℚ} (h : s.IdleAndReady) (n : ℕ) :
    let s' := Machine.run step s (List.replicate n startedAndStopped).flatten
    s'.delivered = s.delivered ∧ s'.raisedTypes.length = s.raisedTypes.length + 2 * n := by
  induction n generalizing s with
  | zero => exact ⟨rfl, rfl⟩
  | succ n ih =>
    obtain ⟨h1, h2, h3⟩ := startedAndStopped_raises h
    obtain ⟨h4, h5⟩ := ih h1
    rw [List.replicate_succ, List.flatten_cons, Machine.run_append]
    exact ⟨h4.trans h2, by omega⟩

/-- The signals of a task, the first consumed before the second is raised. -/
theorem startedAndStopped_delivered :
    let s := Machine.run step new
      (broughtUp ++ startedAndStopped.take 1 ++ [.consume] ++ startedAndStopped.drop 1)
    s.cycles.flatten = [.autoStarted, .autoStopped] ∧
      s.deliveredTypes = (s.cycles.map inTypeOrder).flatten :=
  ⟨by decide +kernel, (delivered_by_cycle _).2.2.2 (by decide +kernel)⟩

/-- When nobody consumes, the queue fills up and signals are lost. -/
theorem lost_when_full {n : ℕ} (hn : MotionThread.signalQueueCapacity < 2 * n) :
    let s := Machine.run step new (broughtUp ++ (List.replicate n startedAndStopped).flatten)
    s.deliveredTypes ≠ s.raisedTypes := by
  intro s hs
  have hready : (Machine.run step (new : SignalSystem ℚ) broughtUp).IdleAndReady := by
    decide +kernel
  obtain ⟨hd, hr⟩ := startedAndStopped_often hready n
  rw [← Machine.run_append] at hd hr
  have hq : s.thread.motionSignalQueue.length ≤ MotionThread.signalQueueCapacity :=
    queue_le_capacity _
  have hlen : s.deliveredTypes.length = s.thread.motionSignalQueue.length := by
    have hnil : s.delivered = [] := hd.trans (by decide +kernel)
    simp [deliveredTypes, hnil]
  have hraised : s.deliveredTypes.length = _ + 2 * n := (congrArg List.length hs).trans hr
  omega

/-- Within a cycle the order is lost: the start of a task that follows the end of another overtakes
it. And signals are lost when the receivers let too many wait. -/
theorem not_delivered_as_raised :
    (let s := Machine.run step new
      (broughtUp ++ startedAndStopped.take 2 ++ startedAndStopped.take 1)
    s.raisedTypes = [.autoStarted, .autoStopped, .autoStarted] ∧
      s.deliveredTypes = [.autoStarted, .autoStarted, .autoStopped]) ∧
    (let s := Machine.run step new (broughtUp ++ (List.replicate 513 startedAndStopped).flatten)
    s.deliveredTypes ≠ s.raisedTypes) :=
  ⟨by decide +kernel, lost_when_full (by decide)⟩

end SignalSystem

end Edm
