import Edm.Motion.MotionThread

/-!
# Commands that start a motion wait for the drives

Most branches of the command switch that start a motion first ask whether the thread runs and the
drives are ready. The branches of the G01 group and of the drill do not: there only the main mode
and the constructor of the task stand in the way (`SlipsThrough`).
-/

set_option linter.unusedSectionVars false

namespace Edm

/-- The commands that start a motion of the axes, or a task in the place of one. -/
def MotionCommand.startsMotion {K : Type} : MotionCommand K → Bool
  | .manualStartPointMove .. | .autoStartG00FastMove .. | .autoStartG01ServoMove ..
  | .autoM00FakePauseTask | .autoG04Delay _ | .autoG01Group _ | .autoStartDrillMove _ => true
  | _ => false

namespace MotionThread

section

variable {K : Type} [Field K] [LinearOrder K] [FloorRing K] [RealFns K] [Settings]

variable (t : MotionThread K) (nowMs hrNowNs : ℤ)

/-- A command that starts a motion is taken only by a thread that is ready; otherwise it is ignored
and the state machine left as it is. -/
def StartGuarded (c : MotionCommand K) : Prop :=
  c.startsMotion →
    ((t.handleCommand nowMs hrNowNs c).2 = true → t.isReady) ∧
    (¬t.isReady →
      (t.handleCommand nowMs hrNowNs c).2 = false ∧
        (t.handleCommand nowMs hrNowNs c).1.motionStateMachine = t.motionStateMachine)

/-- The command finds no guard: a group of at least one item, or a drill, in the idle mode. -/
def SlipsThrough : MotionCommand K → Prop
  | .autoG01Group items => t.motionStateMachine.mainMode = .idle ∧ items ≠ []
  | .autoStartDrillMove _ =>
    t.motionStateMachine.mainMode = .idle ∧ Settings.powerZhongguDrill = true
  | _ => False

variable {t nowMs hrNowNs}

theorem startGuarded_of_ready {c : MotionCommand K} (h : t.isReady) :
    t.StartGuarded nowMs hrNowNs c :=
  fun _ => ⟨fun _ => h, fun hn => absurd h hn⟩

/-- A command that is ignored without a trace is guarded. -/
theorem startGuarded_of_ignored {c : MotionCommand K}
    (hret : (t.handleCommand nowMs hrNowNs c).2 = false)
    (hm : (t.handleCommand nowMs hrNowNs c).1.motionStateMachine = t.motionStateMachine) :
    t.StartGuarded nowMs hrNowNs c :=
  fun _ => ⟨fun h => by simp [hret] at h, fun _ => ⟨hret, hm⟩⟩

/-- A command that is taken although the thread is not ready is not guarded. -/
theorem not_startGuarded_of_accepted {c : MotionCommand K} (hc : c.startsMotion)
    (hready : ¬t.isReady) (hret : (t.handleCommand nowMs hrNowNs c).2 = true) :
    ¬t.StartGuarded nowMs hrNowNs c :=
  fun h => hready ((h hc).1 hret)

/-- A group is taken in the idle mode when it has an item. -/
theorem startAutoG01Group_cases (m : MotionStateMachine K) (items : List (G01GroupItem K)) :
    (m.mainMode = .idle ∧ items ≠ [] ∧ (m.startAutoG01Group items).2 = true) ∨
    ((m.mainMode ≠ .idle ∨ items = []) ∧ m.startAutoG01Group items = (m, false)) := by
  unfold MotionStateMachine.startAutoG01Group
  by_cases hm : m.mainMode = .idle
  · rw [if_neg (not_not.mpr hm)]
    cases items with
    | nil => exact .inr ⟨.inr rfl, rfl⟩
    | cons item items => exact .inl ⟨hm, List.cons_ne_nil _ _, rfl⟩
  · rw [if_pos hm]
    exact .inr ⟨.inl hm, rfl⟩

/-- A drill is taken in the idle mode of a build that has it: its task is never over from the
start. -/
theorem startAutoDrill_cases (m : MotionStateMachine K) (p : DrillStartParams K) :
    (m.mainMode = .idle ∧ Settings.powerZhongguDrill = true ∧ (m.startAutoDrill p).2 = true) ∨
    ((m.mainMode ≠ .idle ∨ Settings.powerZhongguDrill = false) ∧
      m.startAutoDrill p = (m, false)) := by
  unfold MotionStateMachine.startAutoDrill
  by_cases hd : Settings.powerZhongguDrill
  · by_cases hm : m.mainMode = .idle
    · rw [if_neg (by simp [hd, hm])]
      refine .inl ⟨hm, hd, ?_⟩
      simp only [MotionStateMachine.startAuto, DrillAutoTask.new, AutoTask.isOver,
        AutoTask.isStopped, DrillAutoTask.isStopped]
      split <;> rfl
    · rw [if_pos (.inr hm)]
      exact .inr ⟨.inl hm, rfl⟩
  · rw [if_pos (.inl (by simp [hd]))]
    exact .inr ⟨.inr (Bool.eq_false_of_not_eq_true hd), rfl⟩

/-- The commands are guarded exactly where the thread is ready or none of the two slips through. -/
theorem startGuarded_iff (t : MotionThread K) (nowMs hrNowNs : ℤ) (c : MotionCommand K) :
    t.StartGuarded nowMs hrNowNs c ↔ t.isReady ∨ ¬t.SlipsThrough c := by
  by_cases hready : t.isReady
  · exact ⟨fun _ => .inl hready, fun _ => startGuarded_of_ready hready⟩
  have hguard : (!t.isReady) = true := by simpa using hready
  have hiff (h : t.StartGuarded nowMs hrNowNs c ↔ ¬t.SlipsThrough c) :
      t.StartGuarded nowMs hrNowNs c ↔ t.isReady ∨ ¬t.SlipsThrough c := by
    rw [h, or_iff_right hready]
  refine hiff ?_
  cases c with
  | manualStartPointMove | autoStartG00FastMove | autoStartG01ServoMove | autoM00FakePauseTask
  | autoG04Delay =>
    refine ⟨fun _ => id, fun _ => startGuarded_of_ignored ?_ ?_⟩ <;>
      simp only [handleCommand, if_pos hguard]
  | autoG01Group items =>
    rcases startAutoG01Group_cases t.motionStateMachine items with ⟨hm, hi, hret⟩ | ⟨h, hres⟩
    · exact ⟨fun hg => absurd hg (not_startGuarded_of_accepted rfl hready hret),
        fun hn => absurd ⟨hm, hi⟩ hn⟩
    · refine ⟨fun _ hs => ?_, fun _ => startGuarded_of_ignored ?_ ?_⟩
      · rcases h with h | h
        · exact h hs.1
        · exact hs.2 h
      all_goals simp only [handleCommand, onMachine, hres]
  | autoStartDrillMove p =>
    rcases startAutoDrill_cases t.motionStateMachine p with ⟨hm, hd, hret⟩ | ⟨h, hres⟩
    · refine ⟨fun hg => absurd hg (not_startGuarded_of_accepted rfl hready ?_),
        fun hn => absurd ⟨hm, hd⟩ hn⟩
      simp only [handleCommand, onlyDrill, hd, if_true, onMachine, hret]
    · refine ⟨fun _ hs => ?_, fun _ => startGuarded_of_ignored ?_ ?_⟩
      · rcases h with h | h
        · exact h hs.1
        · exact absurd hs.2 (by simp [h])
      all_goals
        simp only [handleCommand, onlyDrill, onMachine, hres]
        split <;> rfl
  | _ => exact ⟨fun _ => id, fun _ h => by simp [MotionCommand.startsMotion] at h⟩

end

attribute [local instance] Sample.settings

/-- A thread just created, not even connected, takes a group. -/
theorem new_takes_group :
    ¬(new : MotionThread ℚ).StartGuarded 0 0 (.autoG01Group [⟨Sample.xAxis 1, 0, 60⟩]) :=
  not_startGuarded_of_accepted rfl (by decide +kernel) (by decide +kernel)

end MotionThread

end Edm
