import Edm.Motion.Moveruntime

/-!
# Point moves

`MoveruntimeWrapper` drives one planned length: it pauses, resumes, stops and changes the speed of
a running move by planning the remaining length again. `PointMoveHandler` turns the length into a
position on the straight line from the start to the target.

Each operation returns the object after the call and the source's return value. The field `fault`
is not in the source: it is set where an operation runs into its `default: assert(false)`.
-/

set_option linter.unusedSectionVars false

namespace Edm

inductive MoveruntimeWrapper.State where
  | notStarted | running | pausing | paused | stopping | stopped
  deriving DecidableEq, Repr

structure MoveruntimeWrapper (K : Type) where
  mrt : Moveruntime K
  recordSpeedParam : MoveRuntimePlanSpeedInput K
  tempUsingSpeedParam : MoveRuntimePlanSpeedInput K
  state : MoveruntimeWrapper.State
  currLength : K
  targetLength : K
  fault : Bool

/-- The defaults of `MoveRuntimePlanSpeedInput`. -/
def MoveRuntimePlanSpeedInput.default {K : Type} [Field K] : MoveRuntimePlanSpeedInput K :=
  ⟨500000, -500000, 1000, 0, 0, 30⟩

namespace MoveruntimeWrapper

variable {K : Type} [Field K] [LinearOrder K]

def new : MoveruntimeWrapper K :=
  ⟨.cleared, .default, .default, .notStarted, 0, 0, false⟩

def isStarted (w : MoveruntimeWrapper K) : Bool := w.state ≠ .notStarted
def isNormalRunning (w : MoveruntimeWrapper K) : Bool := w.state = .running
def isPausing (w : MoveruntimeWrapper K) : Bool := w.state = .pausing
def isPaused (w : MoveruntimeWrapper K) : Bool := w.state = .paused
def isStopping (w : MoveruntimeWrapper K) : Bool := w.state = .stopping
/-- A move that failed to start counts as stopped. -/
def isStopped (w : MoveruntimeWrapper K) : Bool := w.state = .stopped ∨ w.state = .notStarted
def isOver (w : MoveruntimeWrapper K) : Bool := w.isStopped

/-- `_get_dec_length`: the length in which `v` is slowed down to zero. -/
def decLength (v dec0 : K) : K := v * v / (-2 * dec0)

def clear (w : MoveruntimeWrapper K) : MoveruntimeWrapper K :=
  { w with mrt := .cleared, state := .notStarted, currLength := 0, targetLength := 0 }

section Commands

variable [FloorRing K] [RealFns K] [Settings]

/-- A failed start leaves the wrapper as it was, running or not. -/
def start (w : MoveruntimeWrapper K) (speedParam : MoveRuntimePlanSpeedInput K)
    (targetLength : K) : MoveruntimeWrapper K × Bool :=
  match Moveruntime.plan speedParam targetLength with
  | none => (w, false)
  | some mrt =>
    ({ mrt := mrt
       recordSpeedParam := speedParam
       tempUsingSpeedParam := speedParam
       state := .running
       currLength := 0
       targetLength := targetLength
       fault := w.fault }, true)

/-- The part `pause` and `stop` share for a running move: plan the way to a halt, then enter
`ending`; enter `ended` at once where there is nothing to slow down. -/
def slowDown (w : MoveruntimeWrapper K) (ending ended : State) : MoveruntimeWrapper K × Bool :=
  let currSpeed := w.mrt.currentSpeed
  if currSpeed ≤ 0 then ({ w with state := ended }, true)
  else
    let remaining := w.targetLength - w.currLength
    if remaining ≤ 0 then ({ w with state := ended }, true)
    else
      let dec := decLength currSpeed w.recordSpeedParam.dec0
      let dec' := if dec > remaining then remaining else dec
      let temp := { w.tempUsingSpeedParam with entryV := currSpeed, exitV := 0 }
      match Moveruntime.plan temp dec' with
      | none => ({ w with tempUsingSpeedParam := temp, state := ended }, false)
      | some mrt => ({ w with mrt := mrt, tempUsingSpeedParam := temp, state := ending }, true)

/-- `pause` has no case for a move that was never started. -/
def pause (w : MoveruntimeWrapper K) : MoveruntimeWrapper K × Bool :=
  match w.state with
  | .notStarted => ({ w with fault := true }, false)
  | .pausing => (w, true)
  | .paused => (w, true)
  | .stopping => (w, false)
  | .stopped => (w, false)
  | .running => w.slowDown .pausing .paused

def resume (w : MoveruntimeWrapper K) : MoveruntimeWrapper K × Bool :=
  match w.state with
  | .notStarted => (w, false)
  | .running => (w, false)
  | .pausing => (w, false)
  | .stopping => (w, false)
  | .stopped => (w, false)
  | .paused =>
    let remaining := w.targetLength - w.currLength
    if remaining ≤ 0 then ({ w with state := .stopped }, true)
    else
      let temp := { w.tempUsingSpeedParam with entryV := 0, exitV := 0 }
      match Moveruntime.plan temp remaining with
      | none => ({ w with tempUsingSpeedParam := temp, state := .stopped }, false)
      | some mrt => ({ w with mrt := mrt, tempUsingSpeedParam := temp, state := .running }, true)

def stop (w : MoveruntimeWrapper K) (immediate : Bool) : MoveruntimeWrapper K × Bool :=
  if immediate then ({ w with state := .stopped }, true)
  else
    match w.state with
    | .notStarted => (w, false)
    | .paused => ({ w with state := .stopped }, true)
    | .pausing => ({ w with state := .stopping }, true)
    | .stopping => (w, true)
    | .stopped => (w, true)
    | .running => w.slowDown .stopping .stopped

def changeSpeed (w : MoveruntimeWrapper K) (newSpeed : K) : MoveruntimeWrapper K × Bool :=
  if newSpeed ≤ 0 then (w, false)
  else
    match w.state with
    | .notStarted => (w, false)
    | .stopping => (w, false)
    | .stopped => (w, false)
    | .paused =>
      ({ w with tempUsingSpeedParam := { w.tempUsingSpeedParam with cruiseV := newSpeed } }, true)
    | .pausing =>
      ({ w with tempUsingSpeedParam := { w.tempUsingSpeedParam with cruiseV := newSpeed } }, true)
    | .running =>
      let currSpeed := w.mrt.currentSpeed
      if currSpeed ≤ 0 then (w, false)
      else
        let remaining := w.targetLength - w.currLength
        if remaining ≤ 0 then (w, true)
        else
          let temp :=
            { w.tempUsingSpeedParam with cruiseV := newSpeed, entryV := currSpeed, exitV := 0 }
          match Moveruntime.plan temp remaining with
          | none => ({ w with tempUsingSpeedParam := temp, state := .stopped }, false)
          | some mrt => ({ w with mrt := mrt, tempUsingSpeedParam := temp }, true)

end Commands

/-- One cycle of the planner, then `ended` when its plan is exhausted. -/
def advance (w : MoveruntimeWrapper K) (ended : State) : MoveruntimeWrapper K × K :=
  let (mrt, inc) := w.mrt.runOnce
  ({ w with
      mrt := mrt
      currLength := w.currLength + inc
      state := if mrt.isOver then ended else w.state }, inc)

/-- One cycle: the wrapper after it and the increment. -/
def runOnce (w : MoveruntimeWrapper K) : MoveruntimeWrapper K × K :=
  match w.state with
  | .notStarted => (w, 0)
  | .paused => (w, 0)
  | .stopped => (w, 0)
  | .running => w.advance .stopped
  | .pausing => w.advance .paused
  | .stopping => w.advance .stopped

section Lemmas

variable {w : MoveruntimeWrapper K} {ended : State}

@[simp] theorem isOver_iff : w.isOver ↔ w.state = .stopped ∨ w.state = .notStarted := by
  simp [isOver, isStopped]

@[simp] theorem isStopped_iff : w.isStopped ↔ w.state = .stopped ∨ w.state = .notStarted := by
  simp [isStopped]

@[simp] theorem isPaused_iff : w.isPaused ↔ w.state = .paused := by simp [isPaused]

theorem advance_state : (w.advance ended).1.state = ended ∨ (w.advance ended).1.state = w.state := by
  simp only [advance]
  split <;> simp

/-- A cycle ends a move or leaves its state; a pause ends paused, everything else stopped. -/
theorem runOnce_state :
    w.runOnce.1.state = w.state ∨
    (w.state = .running ∧ w.runOnce.1.state = .stopped) ∨
    (w.state = .pausing ∧ w.runOnce.1.state = .paused) ∨
    (w.state = .stopping ∧ w.runOnce.1.state = .stopped) := by
  unfold runOnce
  cases hs : w.state <;> simp only [hs, true_and, reduceCtorEq, false_and, or_false,
    false_or]
  all_goals exact (advance_state.imp_right (·.trans hs)).symm

@[simp] theorem runOnce_fault : w.runOnce.1.fault = w.fault := by
  unfold runOnce
  cases w.state <;> rfl

@[simp] theorem clear_state : w.clear.state = .notStarted := rfl

@[simp] theorem clear_fault : w.clear.fault = w.fault := rfl

variable [FloorRing K] [RealFns K] [Settings] {sp : MoveRuntimePlanSpeedInput K} {len v : K}
  {ending : State} {imm : Bool}

theorem start_of_pos (h : 0 < len) :
    (w.start sp len).2 = true ∧ (w.start sp len).1.state = .running := by
  obtain ⟨mrt, hm⟩ := Moveruntime.plan_isSome (p := sp) h
  simp [start, hm]

/-- A start that is refused changes nothing. -/
theorem start_cases (w : MoveruntimeWrapper K) (sp : MoveRuntimePlanSpeedInput K) (len : K) :
    ((w.start sp len).2 = true ∧ (w.start sp len).1.state = .running ∧ 0 < len) ∨
    ((w.start sp len).2 = false ∧ (w.start sp len).1 = w ∧ len ≤ 0) := by
  rcases le_or_gt len 0 with h | h
  · exact .inr (by simp [start, Moveruntime.plan_eq_none.mpr h, h])
  · exact .inl ⟨(start_of_pos h).1, (start_of_pos h).2, h⟩

@[simp] theorem start_fault : (w.start sp len).1.fault = w.fault := by
  unfold start
  split <;> rfl

theorem slowDown_state (w : MoveruntimeWrapper K) (ending ended : State) :
    ((w.slowDown ending ended).1.state = ending ∧ (w.slowDown ending ended).2 = true) ∨
    (w.slowDown ending ended).1.state = ended := by
  unfold slowDown
  simp only
  split
  · simp
  · split
    · simp
    · split <;> simp

@[simp] theorem slowDown_fault : (w.slowDown ending ended).1.fault = w.fault := by
  unfold slowDown
  simp only
  split
  · rfl
  · split
    · rfl
    · split <;> rfl

/-- What `pause` does to the state: a running move is slowed down or, without a way to slow down,
paused at once. -/
theorem pause_state :
    (w.state = .running ∧ (w.pause.1.state = .paused ∨ w.pause.1.state = .pausing ∧ w.pause.2)) ∨
    (w.state ≠ .running ∧ w.pause.1.state = w.state ∧
      (w.pause.2 ↔ w.state = .pausing ∨ w.state = .paused)) := by
  unfold pause
  cases hs : w.state
  case running =>
    refine .inl ⟨rfl, ?_⟩
    rcases w.slowDown_state .pausing .paused with ⟨h1, h2⟩ | h
    · exact .inr ⟨h1, h2⟩
    · exact .inl h
  all_goals simp [hs]

theorem pause_fault (h : w.state ≠ .notStarted) : w.pause.1.fault = w.fault := by
  unfold pause
  cases hs : w.state
  case notStarted => exact absurd hs h
  case running => exact slowDown_fault
  all_goals rfl

/-- A paused move resumes; with nothing left to go it is stopped. -/
theorem resume_of_paused (h : w.state = .paused) :
    w.resume.2 = true ∧ (w.resume.1.state = .running ∨ w.resume.1.state = .stopped) := by
  simp only [resume, h]
  split
  · simp
  · rename_i hr
    obtain ⟨mrt, hm⟩ := Moveruntime.plan_isSome
      (p := { w.tempUsingSpeedParam with entryV := 0, exitV := 0 }) (not_le.mp hr)
    simp [hm]

theorem resume_of_not_paused (h : w.state ≠ .paused) : w.resume = (w, false) := by
  unfold resume
  cases hs : w.state
  case paused => exact absurd hs h
  all_goals rfl

@[simp] theorem resume_fault : w.resume.1.fault = w.fault := by
  unfold resume
  cases hs : w.state
  case paused =>
    simp only
    split
    · rfl
    · split <;> rfl
  all_goals rfl

@[simp] theorem stop_immediate : w.stop true = ({ w with state := .stopped }, true) := rfl

/-- After `stop` a move is stopping, stopped, or was never started. -/
theorem stop_state (w : MoveruntimeWrapper K) (imm : Bool) :
    (w.stop imm).1.state = .stopping ∨ (w.stop imm).1.state = .stopped ∨
    (w.state = .notStarted ∧ (w.stop imm).1.state = .notStarted) := by
  cases imm
  case true => simp
  case false =>
    simp only [stop, Bool.false_eq_true, if_false]
    cases hs : w.state
    case running =>
      rcases w.slowDown_state .stopping .stopped with ⟨h, _⟩ | h
      · exact .inl h
      · exact .inr (.inl h)
    all_goals simp [hs]

@[simp] theorem stop_fault : (w.stop imm).1.fault = w.fault := by
  cases imm
  case true => rfl
  case false =>
    simp only [stop, Bool.false_eq_true, if_false]
    cases w.state
    case running => exact slowDown_fault
    all_goals rfl

end Lemmas

end MoveruntimeWrapper

structure PointMoveHandler (K : Type) where
  mrtWrapper : MoveruntimeWrapper K
  startPos : Axis K
  targetPos : Axis K
  currPos : Axis K
  unitVector : Axis K
  targetLength : K
  currLength : K

namespace PointMoveHandler

variable {K : Type} [Field K] [LinearOrder K]

def new : PointMoveHandler K := ⟨.new, 0, 0, 0, 0, 0, 0⟩

def state (m : PointMoveHandler K) : MoveruntimeWrapper.State := m.mrtWrapper.state
def isStarted (m : PointMoveHandler K) : Bool := m.mrtWrapper.isStarted
def isNormalRunning (m : PointMoveHandler K) : Bool := m.mrtWrapper.isNormalRunning
def isPausing (m : PointMoveHandler K) : Bool := m.mrtWrapper.isPausing
def isPaused (m : PointMoveHandler K) : Bool := m.mrtWrapper.isPaused
def isStopping (m : PointMoveHandler K) : Bool := m.mrtWrapper.isStopping
def isStopped (m : PointMoveHandler K) : Bool := m.mrtWrapper.isStopped
def isOver (m : PointMoveHandler K) : Bool := m.mrtWrapper.isOver
def speedParam (m : PointMoveHandler K) : MoveRuntimePlanSpeedInput K :=
  m.mrtWrapper.recordSpeedParam

def clear (m : PointMoveHandler K) : PointMoveHandler K :=
  { m with mrtWrapper := m.mrtWrapper.clear }

section Commands

variable [FloorRing K] [RealFns K] [Settings]

/-- The positions are set even when the wrapper refuses to start. -/
def start (m : PointMoveHandler K) (speedParam : MoveRuntimePlanSpeedInput K)
    (startPos targetPos : Axis K) : PointMoveHandler K × Bool :=
  let targetLength := MotionUtils.axisLengthBetween startPos targetPos
  let (w, ret) := m.mrtWrapper.start speedParam targetLength
  (⟨w, startPos, targetPos, startPos, MotionUtils.axisUnitVector startPos targetPos, targetLength,
    0⟩, ret)

def pause (m : PointMoveHandler K) : PointMoveHandler K × Bool :=
  let (w, ret) := m.mrtWrapper.pause
  ({ m with mrtWrapper := w }, ret)

def resume (m : PointMoveHandler K) : PointMoveHandler K × Bool :=
  let (w, ret) := m.mrtWrapper.resume
  ({ m with mrtWrapper := w }, ret)

def stop (m : PointMoveHandler K) (immediate : Bool) : PointMoveHandler K × Bool :=
  let (w, ret) := m.mrtWrapper.stop immediate
  ({ m with mrtWrapper := w }, ret)

def changeSpeed (m : PointMoveHandler K) (newSpeed : K) : PointMoveHandler K × Bool :=
  let (w, ret) := m.mrtWrapper.changeSpeed newSpeed
  ({ m with mrtWrapper := w }, ret)

end Commands

/-- The position is not brought up to date in the cycle in which the move is found over. -/
def runOnce (m : PointMoveHandler K) : PointMoveHandler K :=
  let (w, _) := m.mrtWrapper.runOnce
  let m' := { m with mrtWrapper := w }
  if !w.isStarted then m'
  else if w.isOver then m'
  else
    { m' with
      currLength := w.currLength
      currPos := fun i => m.startPos i + MotionUtils.scaleAxis m.unitVector w.currLength i }

section Lemmas

variable {m : PointMoveHandler K}

@[simp] theorem isOver_iff : m.isOver ↔ m.state = .stopped ∨ m.state = .notStarted := by
  simp [isOver, state]

@[simp] theorem isStopped_iff : m.isStopped ↔ m.state = .stopped ∨ m.state = .notStarted := by
  simp [isStopped, state]

@[simp] theorem isPaused_iff : m.isPaused ↔ m.state = .paused := by simp [isPaused, state]

@[simp] theorem clear_state : m.clear.state = .notStarted := rfl

/-- A cycle leaves the ends of the move alone. -/
@[simp] theorem runOnce_startPos : m.runOnce.startPos = m.startPos := by
  simp only [runOnce]
  split <;> try split
  all_goals rfl

@[simp] theorem runOnce_targetPos : m.runOnce.targetPos = m.targetPos := by
  simp only [runOnce]
  split <;> try split
  all_goals rfl

@[simp] theorem runOnce_unitVector : m.runOnce.unitVector = m.unitVector := by
  simp only [runOnce]
  split <;> try split
  all_goals rfl

theorem runOnce_mrtWrapper : m.runOnce.mrtWrapper = m.mrtWrapper.runOnce.1 := by
  simp only [runOnce]
  split <;> try split
  all_goals rfl

theorem runOnce_state :
    m.runOnce.state = m.state ∨
    (m.state = .running ∧ m.runOnce.state = .stopped) ∨
    (m.state = .pausing ∧ m.runOnce.state = .paused) ∨
    (m.state = .stopping ∧ m.runOnce.state = .stopped) := by
  simpa only [state, runOnce_mrtWrapper] using m.mrtWrapper.runOnce_state

/-- The position is not brought up to date in the cycle a move is found over. -/
theorem runOnce_currPos_of_over (h : m.runOnce.isOver) : m.runOnce.currPos = m.currPos := by
  have hw : m.mrtWrapper.runOnce.1.isOver := by
    simpa only [isOver, runOnce_mrtWrapper] using h
  simp only [runOnce, hw, if_true]
  split <;> rfl

variable [FloorRing K] [RealFns K] [Settings] {sp : MoveRuntimePlanSpeedInput K}
  {startPos targetPos : Axis K} {imm : Bool}

@[simp] theorem start_startPos : (m.start sp startPos targetPos).1.startPos = startPos := rfl
@[simp] theorem start_targetPos : (m.start sp startPos targetPos).1.targetPos = targetPos := rfl
@[simp] theorem start_currPos : (m.start sp startPos targetPos).1.currPos = startPos := rfl

@[simp] theorem pause_startPos : m.pause.1.startPos = m.startPos := rfl
@[simp] theorem pause_targetPos : m.pause.1.targetPos = m.targetPos := rfl
@[simp] theorem pause_currPos : m.pause.1.currPos = m.currPos := rfl

@[simp] theorem resume_startPos : m.resume.1.startPos = m.startPos := rfl
@[simp] theorem resume_targetPos : m.resume.1.targetPos = m.targetPos := rfl
@[simp] theorem resume_currPos : m.resume.1.currPos = m.currPos := rfl

@[simp] theorem stop_startPos : (m.stop imm).1.startPos = m.startPos := rfl
@[simp] theorem stop_targetPos : (m.stop imm).1.targetPos = m.targetPos := rfl
@[simp] theorem stop_currPos : (m.stop imm).1.currPos = m.currPos := rfl

/-- A move that runs out, in a cycle or because nothing is left when it is resumed, does so at its
target. -/
def RunsOutAtTarget (m : PointMoveHandler K) : Prop :=
  (m.state = .running → m.runOnce.state = .stopped → m.runOnce.currPos = m.targetPos) ∧
  (m.state = .paused → m.resume.1.state = .stopped → m.resume.1.currPos = m.targetPos)

instance (m : PointMoveHandler K) : Decidable m.RunsOutAtTarget :=
  inferInstanceAs (Decidable (_ ∧ _))

theorem resume_state (h : m.state = .paused) :
    m.resume.2 = true ∧ (m.resume.1.state = .running ∨ m.resume.1.state = .stopped) :=
  m.mrtWrapper.resume_of_paused h

theorem pause_state :
    (m.state = .running ∧ (m.pause.1.state = .paused ∨ m.pause.1.state = .pausing ∧ m.pause.2)) ∨
    (m.state ≠ .running ∧ m.pause.1.state = m.state ∧
      (m.pause.2 ↔ m.state = .pausing ∨ m.state = .paused)) :=
  m.mrtWrapper.pause_state

theorem start_cases (m : PointMoveHandler K) (sp : MoveRuntimePlanSpeedInput K)
    (startPos targetPos : Axis K) :
    ((m.start sp startPos targetPos).2 = true ∧
      (m.start sp startPos targetPos).1.state = .running ∧
      0 < MotionUtils.axisLengthBetween startPos targetPos) ∨
    ((m.start sp startPos targetPos).2 = false ∧
      (m.start sp startPos targetPos).1.state = m.state ∧
      MotionUtils.axisLengthBetween startPos targetPos ≤ 0) := by
  rcases m.mrtWrapper.start_cases sp (MotionUtils.axisLengthBetween startPos targetPos) with ⟨h1, h2, h3⟩ | ⟨h1, h2, h3⟩
  · exact .inl ⟨h1, h2, h3⟩
  · exact .inr ⟨h1, congrArg MoveruntimeWrapper.state h2, h3⟩

end Lemmas

end PointMoveHandler

end Edm
