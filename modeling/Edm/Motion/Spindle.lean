import Edm.Motion.Commands

/-!
# The spindle

`SpindleController` turns the spindle of the drilling machine: a speed that follows its goal, the target
speed or zero, by at most one acceleration a cycle. There is a routine for speeding up and one for
slowing down. A spindle that is on only ever speeds up: it reaches its goal from every speed but
those above the target (`reaches_goal_iff`).
-/

set_option linter.unusedSectionVars false

namespace Edm

variable {K : Type} [Field K] [LinearOrder K]

namespace UnitConverter

def bluMs2bluP [Settings] (bluMs : K) : K := bluMs / ms2p_

end UnitConverter

/-- Speeds and accelerations are those of a period. -/
structure SpindleController (K : Type) where
  spindleOn : Bool
  currentAxis : K
  currentSpeed : K
  targetSpeed : K
  maxAcc : K

namespace SpindleController

def initCurrentAxis (c : SpindleController K) (currentAxis : K) : SpindleController K :=
  { c with currentAxis }

def startSpindle (c : SpindleController K) : SpindleController K := { c with spindleOn := true }

def stopSpindle (c : SpindleController K) : SpindleController K := { c with spindleOn := false }

/-- `_acc`. -/
def acc (c : SpindleController K) : SpindleController K :=
  let speed :=
    if c.currentSpeed < c.targetSpeed then
      let speed := c.currentSpeed + c.maxAcc
      if speed > c.targetSpeed then c.targetSpeed else speed
    else c.currentSpeed
  { c with currentSpeed := speed, currentAxis := c.currentAxis + speed }

/-- `_dec`. -/
def dec (c : SpindleController K) : SpindleController K :=
  let speed :=
    if c.currentSpeed > 0 then
      let speed := c.currentSpeed - c.maxAcc
      if speed < 0 then 0 else speed
    else c.currentSpeed
  { c with
    currentSpeed := speed
    currentAxis := if speed > 0 then c.currentAxis + speed else c.currentAxis }

def runOnce (c : SpindleController K) : SpindleController K :=
  if c.spindleOn then c.acc else c.dec

section Calls

variable [Settings]

/-- The defaults: 40 blu and an acceleration of 1 blu a millisecond. -/
def new : SpindleController K where
  spindleOn := false
  currentAxis := 0
  currentSpeed := 0
  targetSpeed := UnitConverter.bluMs2bluP 40
  maxAcc := UnitConverter.bluMs2bluP 1

def setTargetSpeed (c : SpindleController K) (speedBluMs : K) : SpindleController K :=
  let speed := UnitConverter.bluMs2bluP speedBluMs
  { c with targetSpeed := if speed < 0 then 0 else speed }

def setMaxAcc (c : SpindleController K) (accBluMs : K) : SpindleController K :=
  { c with maxAcc := UnitConverter.bluMs2bluP accBluMs }

inductive Op (K : Type) where
  | runOnce
  | startSpindle
  | stopSpindle
  | setTargetSpeed (speedBluMs : K)
  | setMaxAcc (accBluMs : K)

def step (c : SpindleController K) : Op K → SpindleController K
  | .runOnce => c.runOnce
  | .startSpindle => c.startSpindle
  | .stopSpindle => c.stopSpindle
  | .setTargetSpeed speedBluMs => c.setTargetSpeed speedBluMs
  | .setMaxAcc accBluMs => c.setMaxAcc accBluMs

/-- Target speeds are not negative and accelerations are positive. -/
def Op.Valid : Op K → Prop
  | .setTargetSpeed speedBluMs => 0 ≤ speedBluMs
  | .setMaxAcc accBluMs => 0 < accBluMs
  | _ => True

end Calls

/-- The speed the spindle is to have. -/
def goal (c : SpindleController K) : K := if c.spindleOn then c.targetSpeed else 0

/-- `n` cycles without a call between them. -/
def cycles (n : ℕ) (c : SpindleController K) : SpindleController K := runOnce^[n] c

/-- What every call keeps. -/
structure Sane (c : SpindleController K) : Prop where
  speed : 0 ≤ c.currentSpeed
  target : 0 ≤ c.targetSpeed
  acc : 0 < c.maxAcc

section Cycle

variable [IsStrictOrderedRing K] {c : SpindleController K}

theorem runOnce_keeps : c.runOnce.spindleOn = c.spindleOn ∧ c.runOnce.targetSpeed = c.targetSpeed ∧
    c.runOnce.maxAcc = c.maxAcc := by
  unfold runOnce
  split <;> exact ⟨rfl, rfl, rfl⟩

theorem runOnce_goal : c.runOnce.goal = c.goal := by
  obtain ⟨hon, htarget, -⟩ := c.runOnce_keeps
  rw [goal, goal, hon, htarget]

/-- The speed after a cycle: nearer to the goal by the acceleration, at it, or as it was above it. -/
theorem runOnce_speed (h : c.Sane) :
    (c.currentSpeed ≤ c.goal ∧ c.runOnce.currentSpeed = min (c.currentSpeed + c.maxAcc) c.goal) ∨
      (c.spindleOn = false ∧
        c.runOnce.currentSpeed = max (c.currentSpeed - c.maxAcc) 0) ∨
      (c.spindleOn = true ∧ c.targetSpeed < c.currentSpeed ∧
        c.runOnce.currentSpeed = c.currentSpeed) := by
  have hspeed := h.speed
  have hacc := h.acc
  cases hon : c.spindleOn with
  | true =>
    simp only [runOnce, hon, if_true, acc, goal]
    rcases lt_trichotomy c.currentSpeed c.targetSpeed with hlt | heq | hgt
    · left
      rw [if_pos hlt]
      refine ⟨hlt.le, ?_⟩
      split
      · rename_i hover
        rw [min_eq_right hover.le]
      · rename_i hunder
        rw [min_eq_left (not_lt.mp hunder)]
    · left
      rw [if_neg heq.not_lt, min_eq_right (by linarith)]
      exact ⟨heq.le, heq⟩
    · right
      right
      rw [if_neg hgt.not_gt]
      exact ⟨trivial, hgt, rfl⟩
  | false =>
    right
    left
    refine ⟨rfl, ?_⟩
    simp only [runOnce, hon, Bool.false_eq_true, if_false, dec]
    split
    · split
      · rename_i hunder
        rw [max_eq_right hunder.le]
      · rename_i hover
        rw [max_eq_left (not_lt.mp hover)]
    · rename_i hzero
      rw [max_eq_right (by linarith)]
      linarith

/-- The axis goes on by the speed of the cycle. -/
theorem runOnce_axis (h : c.Sane) :
    c.runOnce.currentAxis = c.currentAxis + c.runOnce.currentSpeed := by
  unfold runOnce
  split
  · rfl
  · have hnonneg : 0 ≤ c.dec.currentSpeed := by
      have hspeed := h.speed
      unfold dec
      dsimp only
      split_ifs <;> linarith
    show (if c.dec.currentSpeed > 0 then c.currentAxis + c.dec.currentSpeed else c.currentAxis) =
      c.currentAxis + c.dec.currentSpeed
    split
    · rfl
    · linarith

theorem runOnce_sane (h : c.Sane) : c.runOnce.Sane := by
  obtain ⟨-, htarget, hacc⟩ := c.runOnce_keeps
  refine ⟨?_, htarget ▸ h.target, hacc ▸ h.acc⟩
  have hgoal : 0 ≤ c.goal := by
    unfold goal
    split
    · exact h.target
    · exact le_rfl
  have hspeed := h.speed
  have hpos := h.acc
  rcases runOnce_speed h with ⟨-, heq⟩ | ⟨-, heq⟩ | ⟨-, -, heq⟩
  · rw [heq]
    exact le_min (by linarith) hgoal
  · rw [heq]
    exact le_max_right _ _
  · rw [heq]
    exact hspeed

/-- What a cycle owes, whatever the state: a change of at most the acceleration, not away from the goal,
and the axis moved by the speed. -/
structure Follows (c : SpindleController K) : Prop where
  change : |c.runOnce.currentSpeed - c.currentSpeed| ≤ c.maxAcc
  nearer : |c.goal - c.runOnce.currentSpeed| ≤ |c.goal - c.currentSpeed|
  axis : c.runOnce.currentAxis = c.currentAxis + c.runOnce.currentSpeed

theorem Sane.follows (h : c.Sane) : c.Follows := by
  have hspeed := h.speed
  have hacc := h.acc
  rcases runOnce_speed h with ⟨hle, heq⟩ | ⟨hoff, heq⟩ | ⟨-, -, heq⟩
  · have hlow : c.currentSpeed ≤ c.runOnce.currentSpeed := heq ▸ le_min (by linarith) hle
    have hhigh : c.runOnce.currentSpeed ≤ c.goal := heq ▸ min_le_right _ _
    have hstep : c.runOnce.currentSpeed ≤ c.currentSpeed + c.maxAcc := heq ▸ min_le_left _ _
    refine ⟨?_, ?_, runOnce_axis h⟩
    · rw [abs_of_nonneg (by linarith)]
      linarith
    · rw [abs_of_nonneg (by linarith), abs_of_nonneg (by linarith)]
      linarith
  · have hgoal : c.goal = 0 := by rw [goal, hoff, if_neg Bool.false_ne_true]
    have hlow : 0 ≤ c.runOnce.currentSpeed := heq ▸ le_max_right _ _
    have hhigh : c.runOnce.currentSpeed ≤ c.currentSpeed := heq ▸ max_le (by linarith) hspeed
    have hstep : c.currentSpeed - c.maxAcc ≤ c.runOnce.currentSpeed := heq ▸ le_max_left _ _
    refine ⟨?_, ?_, runOnce_axis h⟩
    · rw [abs_of_nonpos (by linarith)]
      linarith
    · rw [hgoal, zero_sub, zero_sub, abs_neg, abs_neg, abs_of_nonneg hlow, abs_of_nonneg hspeed]
      exact hhigh
  · refine ⟨?_, ?_, runOnce_axis h⟩
    · rw [heq, sub_self, abs_zero]
      exact hacc.le
    · rw [heq]

/-! ### The goal -/

theorem cycles_succ (n : ℕ) : cycles (n + 1) c = (cycles n c).runOnce :=
  Function.iterate_succ_apply' _ _ _

theorem cycles_keeps (h : c.Sane) (n : ℕ) : (cycles n c).Sane ∧
    (cycles n c).spindleOn = c.spindleOn ∧ (cycles n c).targetSpeed = c.targetSpeed ∧
    (cycles n c).maxAcc = c.maxAcc := by
  induction n with
  | zero => exact ⟨h, rfl, rfl, rfl⟩
  | succ n ih =>
    obtain ⟨hsane, hon, htarget, hacc⟩ := ih
    obtain ⟨hon', htarget', hacc'⟩ := (cycles n c).runOnce_keeps
    rw [cycles_succ]
    exact ⟨runOnce_sane hsane, hon'.trans hon, htarget'.trans htarget, hacc'.trans hacc⟩

theorem cycles_goal (h : c.Sane) (n : ℕ) : (cycles n c).goal = c.goal := by
  obtain ⟨-, hon, htarget, -⟩ := cycles_keeps h n
  rw [goal, goal, hon, htarget]

/-- Below its goal the spindle speeds up. -/
theorem cycles_up (h : c.Sane) (hon : c.spindleOn = true) (hle : c.currentSpeed ≤ c.goal) (n : ℕ) :
    (cycles n c).currentSpeed = min (c.currentSpeed + n * c.maxAcc) c.goal := by
  induction n with
  | zero => simpa [cycles] using hle
  | succ n ih =>
    obtain ⟨hsane, hon', -, hacc⟩ := cycles_keeps h n
    have hgoal := cycles_goal h n
    have hle' : (cycles n c).currentSpeed ≤ (cycles n c).goal := by
      rw [ih, hgoal]
      exact min_le_right _ _
    rw [cycles_succ]
    rcases runOnce_speed hsane with ⟨-, heq⟩ | ⟨hoff, -⟩ | ⟨-, habove, -⟩
    · rw [heq, hgoal, hacc, ih]
      have hpos := h.acc
      push_cast
      rcases le_total (c.currentSpeed + n * c.maxAcc) c.goal with hlow | hhigh
      · rw [min_eq_left hlow, add_mul, one_mul, add_assoc]
      · rw [min_eq_right hhigh, min_eq_right (by linarith), min_eq_right (by linarith)]
    · rw [hon', hon] at hoff
      cases hoff
    · rw [goal, hon', hon, if_pos rfl] at hle'
      exact absurd habove (not_lt.mpr hle')

/-- Switched off it slows down. -/
theorem cycles_down (h : c.Sane) (hoff : c.spindleOn = false) (n : ℕ) :
    (cycles n c).currentSpeed = max (c.currentSpeed - n * c.maxAcc) 0 := by
  induction n with
  | zero => simpa [cycles] using h.speed
  | succ n ih =>
    obtain ⟨hsane, hoff', -, hacc⟩ := cycles_keeps h n
    have hpos := h.acc
    have hslow : (cycles n c).runOnce.currentSpeed =
        max ((cycles n c).currentSpeed - (cycles n c).maxAcc) 0 := by
      rcases runOnce_speed hsane with ⟨hle, heq⟩ | ⟨-, heq⟩ | ⟨hon, -, -⟩
      · have hgoal : (cycles n c).goal = 0 := by
          rw [goal, hoff', hoff, if_neg Bool.false_ne_true]
        have hnonneg := hsane.speed
        have hacc' := hsane.acc
        rw [heq, hgoal, min_eq_right (by linarith), max_eq_right (by linarith)]
      · exact heq
      · rw [hoff', hoff] at hon
        cases hon
    rw [cycles_succ, hslow, hacc, ih]
    push_cast
    rcases le_total (c.currentSpeed - n * c.maxAcc) 0 with hlow | hhigh
    · rw [max_eq_right hlow, max_eq_right (by linarith), max_eq_right (by linarith)]
    · rw [max_eq_left hhigh, add_mul, one_mul, sub_sub]

/-- Above its target a spindle that is on keeps its speed. -/
theorem cycles_above (h : c.Sane) (hon : c.spindleOn = true) (habove : c.targetSpeed < c.currentSpeed)
    (n : ℕ) : (cycles n c).currentSpeed = c.currentSpeed := by
  induction n with
  | zero => rfl
  | succ n ih =>
    obtain ⟨hsane, hon', htarget, -⟩ := cycles_keeps h n
    rw [cycles_succ]
    rcases runOnce_speed hsane with ⟨hle, -⟩ | ⟨hoff, -⟩ | ⟨-, -, heq⟩
    · rw [goal, hon', hon, if_pos rfl, ih, htarget] at hle
      exact absurd habove (not_lt.mpr hle)
    · rw [hon', hon] at hoff
      cases hoff
    · rw [heq, ih]

/-- The goal is reached unless the spindle is on and faster than its target. -/
theorem Sane.reaches_goal_iff [Archimedean K] (h : c.Sane) :
    (∃ n, (cycles n c).currentSpeed = c.goal) ↔
      (c.spindleOn = true → c.currentSpeed ≤ c.targetSpeed) := by
  constructor
  · rintro ⟨n, hn⟩ hon
    by_contra habove
    rw [cycles_above h hon (not_le.mp habove), goal, hon, if_pos rfl] at hn
    exact habove hn.le
  · intro hle
    cases hon : c.spindleOn with
    | true =>
      have hgoal : c.goal = c.targetSpeed := by rw [goal, hon, if_pos rfl]
      obtain ⟨n, hn⟩ := Archimedean.arch (c.goal - c.currentSpeed) h.acc
      refine ⟨n, ?_⟩
      rw [cycles_up h hon (hgoal ▸ hle hon), min_eq_right]
      rw [nsmul_eq_mul] at hn
      linarith
    | false =>
      have hgoal : c.goal = 0 := by rw [goal, hon, if_neg Bool.false_ne_true]
      obtain ⟨n, hn⟩ := Archimedean.arch c.currentSpeed h.acc
      refine ⟨n, ?_⟩
      rw [cycles_down h hon, hgoal, max_eq_right]
      rw [nsmul_eq_mul] at hn
      linarith

end Cycle

/-! ### Runs -/

section Runs

variable [IsStrictOrderedRing K] [Settings] {c : SpindleController K}

theorem ms2p_pos : (0 : K) < UnitConverter.ms2p_ := by
  have hcycle : (0 : K) < (Settings.motionCycleUs : K) := by
    exact_mod_cast Settings.motionCycleUs_pos
  unfold UnitConverter.ms2p_ UnitConverter.p2ms_
  positivity

theorem sane_new : (new : SpindleController K).Sane := by
  have hp : (0 : K) < UnitConverter.ms2p_ := ms2p_pos
  refine ⟨le_rfl, ?_, ?_⟩
  · exact div_nonneg (by norm_num) hp.le
  · exact div_pos (by norm_num) hp

theorem Sane.step (h : c.Sane) {op : Op K} (hop : op.Valid) : (c.step op).Sane := by
  cases op with
  | runOnce => exact runOnce_sane h
  | startSpindle => exact ⟨h.speed, h.target, h.acc⟩
  | stopSpindle => exact ⟨h.speed, h.target, h.acc⟩
  | setTargetSpeed speedBluMs =>
    refine ⟨h.speed, ?_, h.acc⟩
    show 0 ≤ if UnitConverter.bluMs2bluP speedBluMs < 0 then 0
      else UnitConverter.bluMs2bluP speedBluMs
    split
    · exact le_rfl
    · rename_i hnonneg
      exact not_lt.mp hnonneg
  | setMaxAcc accBluMs => exact ⟨h.speed, h.target, div_pos hop ms2p_pos⟩

theorem sane_run {ops : List (Op K)} (h : c.Sane) (hops : ∀ op ∈ ops, op.Valid) :
    (ops.foldl SpindleController.step c).Sane := by
  induction ops generalizing c with
  | nil => exact h
  | cons op ops ih =>
    exact ih (h.step (hops op List.mem_cons_self)) fun op hop => hops op (List.mem_cons_of_mem _ hop)

/-- In every reachable state the speed is not negative and a cycle follows the goal; and the goal is
reached if and only if the spindle is not faster than a target it is on for. -/
theorem follows_goal_iff [Archimedean K] (ops : List (Op K)) (hops : ∀ op ∈ ops, op.Valid) :
    let c := ops.foldl step (new : SpindleController K)
    (0 ≤ c.currentSpeed ∧ c.Follows ∧ ∃ n, (cycles n c).currentSpeed = c.goal) ↔
      (c.spindleOn = true → c.currentSpeed ≤ c.targetSpeed) := by
  intro c
  have h : c.Sane := sane_run sane_new hops
  rw [← h.reaches_goal_iff]
  exact ⟨fun hall => hall.2.2, fun hreach => ⟨h.speed, h.follows, hreach⟩⟩

end Runs

section Sample

attribute [local instance] Sample.settings

theorem follows_goal_started :
    let c := [Op.setTargetSpeed 3, .startSpindle, .runOnce].foldl step (new : SpindleController ℚ)
    0 ≤ c.currentSpeed ∧ c.Follows ∧ ∃ n, (cycles n c).currentSpeed = c.goal :=
  (follows_goal_iff (K := ℚ) [.setTargetSpeed 3, .startSpindle, .runOnce]
    (by simp [Op.Valid])).2 (by decide +kernel)

/-- At 3 blu a millisecond the target is lowered to 1: the spindle stays at 3. -/
theorem lowered_target_kept :
    let ops := [Op.setTargetSpeed 3, .startSpindle, .runOnce, .runOnce, .runOnce, .setTargetSpeed 1]
    let c := ops.foldl step (new : SpindleController ℚ)
    (∀ op ∈ ops, op.Valid) ∧ c.goal = 1 ∧ (∀ n, (cycles n c).currentSpeed = 3) := by
  intro ops c
  have hops : ∀ op ∈ ops, op.Valid := by simp [ops, Op.Valid]
  have hspeed : c.currentSpeed = 3 := by decide +kernel
  refine ⟨hops, by decide +kernel, fun n => ?_⟩
  rw [cycles_above (sane_run sane_new hops) (by decide +kernel) (by decide +kernel) n, hspeed]

end Sample

end SpindleController

end Edm
