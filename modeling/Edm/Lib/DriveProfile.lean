import Mathlib.Data.Int.Notation
import Mathlib.Tactic.Common

/-!
# Drives of the CiA 402 profile

The power section of such a drive is in one of eight states. The drive shows its state in some bits
of its status word and changes it by the command in its control word, except for a fault, which
takes a rising edge of the reset bit. `Drive.Follows` says that a drive keeps to this and does not
put off a command for more than `latency` exchanges of process data.
-/

namespace DriveProfile

abbrev Word := BitVec 16

inductive PowerState where
  | notReadyToSwitchOn | switchOnDisabled | readyToSwitchOn | switchedOn | operationEnabled
  | quickStopActive | faultReactionActive | fault
  deriving DecidableEq, Repr

inductive Command where
  | disableVoltage | quickStop | shutdown | switchOn | enableOperation
  deriving DecidableEq, Repr

namespace PowerState

/-- The bits of the status word that tell the state. -/
def mask : PowerState → Word
  | .readyToSwitchOn | .switchedOn | .operationEnabled | .quickStopActive => 0x6F#16
  | _ => 0x4F#16

/-- What these bits are. -/
def code : PowerState → Word
  | .notReadyToSwitchOn => 0x0#16
  | .switchOnDisabled => 0x40#16
  | .readyToSwitchOn => 0x21#16
  | .switchedOn => 0x23#16
  | .operationEnabled => 0x27#16
  | .quickStopActive => 0x7#16
  | .faultReactionActive => 0xF#16
  | .fault => 0x8#16

/-- Where a command leads. A drive that starts up or reacts to a fault goes on by itself. -/
def next : PowerState → Command → PowerState
  | .notReadyToSwitchOn, _ => .switchOnDisabled
  | .switchOnDisabled, .shutdown => .readyToSwitchOn
  | .switchOnDisabled, _ => .switchOnDisabled
  | .readyToSwitchOn, .shutdown => .readyToSwitchOn
  | .readyToSwitchOn, .switchOn | .readyToSwitchOn, .enableOperation => .switchedOn
  | .readyToSwitchOn, _ => .switchOnDisabled
  | .switchedOn, .shutdown => .readyToSwitchOn
  | .switchedOn, .switchOn => .switchedOn
  | .switchedOn, .enableOperation => .operationEnabled
  | .switchedOn, _ => .switchOnDisabled
  | .operationEnabled, .shutdown => .readyToSwitchOn
  | .operationEnabled, .switchOn => .switchedOn
  | .operationEnabled, .enableOperation => .operationEnabled
  | .operationEnabled, .quickStop => .quickStopActive
  | .operationEnabled, .disableVoltage => .switchOnDisabled
  | .quickStopActive, .disableVoltage => .switchOnDisabled
  | .quickStopActive, .enableOperation => .operationEnabled
  | .quickStopActive, _ => .quickStopActive
  | .faultReactionActive, _ => .fault
  | .fault, _ => .fault

end PowerState

/-- The command in a control word. -/
def Command.ofWord (w : Word) : Command :=
  if !w.getLsbD 1 then .disableVoltage
  else if !w.getLsbD 2 then .quickStop
  else if !w.getLsbD 0 then .shutdown
  else if !w.getLsbD 3 then .switchOn
  else .enableOperation

def resetBit (w : Word) : Bool := w.getLsbD 7

/-- The status word `w` shows the state `p`. -/
def Shows (w : Word) (p : PowerState) : Prop := w &&& p.mask = p.code

instance (w : Word) (p : PowerState) : Decidable (Shows w p) := inferInstanceAs (Decidable (_ = _))

theorem code_and_mask : ∀ p q : PowerState, p.code &&& q.mask = q.code &&& p.mask → p = q := by
  intro p q
  cases p <;> cases q <;> decide

/-- A status word shows one state. -/
theorem Shows.unique {w : Word} {p q : PowerState} (hp : Shows w p) (hq : Shows w q) : p = q := by
  apply code_and_mask
  rw [← hp, ← hq, BitVec.and_assoc, BitVec.and_assoc, BitVec.and_comm p.mask]

theorem Shows.iff_eq {w : Word} {p q : PowerState} (hp : Shows w p) : Shows w q ↔ q = p := by
  constructor
  · intro hq
    exact hq.unique hp
  · rintro rfl
    exact hp

/-! ### Drives -/

/-- A drive as its master sees it: what the next frame brings back, and what it makes of a control
word and a target that reach it. -/
structure Drive (D : Type) where
  statusWord : D → Word
  position : D → ℤ
  exchange : D → Word → ℤ → D

/-- The state of the profile in a drive's own. -/
structure PowerView (D : Type) where
  power : D → PowerState
  /-- The reset bit of the control word it got last. -/
  lastReset : D → Bool
  /-- It has seen an edge and is resetting the fault. -/
  resetting : D → Bool
  /-- How many exchanges it may still put off what it is told. -/
  patience : D → ℕ

/-- It resets a fault on a rising edge, or has already begun to. -/
def PowerView.TakesReset {D : Type} (pr : PowerView D) (x : D) : Prop :=
  pr.resetting x = true ∨ pr.lastReset x = false

structure Drive.Follows {D : Type} (drv : Drive D) (pr : PowerView D) (latency : ℕ) : Prop where
  shows : ∀ x, Shows (drv.statusWord x) (pr.power x)
  patience_le : ∀ x, pr.patience x ≤ latency
  lastReset : ∀ x w t, pr.lastReset (drv.exchange x w t) = resetBit w
  answers : ∀ x w t, pr.power x ≠ .fault →
    pr.power (drv.exchange x w t) = (pr.power x).next (.ofWord w) ∨
      pr.power (drv.exchange x w t) = pr.power x ∧ pr.patience (drv.exchange x w t) < pr.patience x
  resets : ∀ x w t, pr.power x = .fault → resetBit w = true → pr.TakesReset x →
    pr.power (drv.exchange x w t) = .switchOnDisabled ∨
      pr.power (drv.exchange x w t) = .fault ∧ pr.resetting (drv.exchange x w t) = true ∧
        pr.patience (drv.exchange x w t) < pr.patience x
  keepsFault : ∀ x w t, pr.power x = .fault → ¬(resetBit w = true ∧ pr.TakesReset x) →
    pr.power (drv.exchange x w t) = .fault ∧ pr.resetting (drv.exchange x w t) = false

/-! ### Strategies -/

/-- A master that chooses its control word by the state a drive shows and the word it sent before,
and leads the drives there are to rank zero. -/
structure Strategy where
  word : PowerState → Word → Word
  rank : PowerState → Word → ℕ
  /-- The states it can start from. -/
  allowed : PowerState → Word → Prop
  answered : ∀ p w, allowed p w → p ≠ .fault →
    allowed (p.next (.ofWord (word p w))) (word p w) ∧
      rank (p.next (.ofWord (word p w))) (word p w) ≤ rank p w - 1
  putOff : ∀ p w, allowed p w → allowed p (word p w) ∧ rank p (word p w) ≤ rank p w
  /-- A fault is met with a reset, and no reset is sent before it. -/
  resets : ∀ w, allowed .fault w → resetBit (word .fault w) = true ∧
    allowed .switchOnDisabled (word .fault w) ∧
      rank .switchOnDisabled (word .fault w) ≤ rank .fault w - 1
  arms : ∀ p w, allowed p w → p ≠ .fault → p.next (.ofWord (word p w)) = .fault →
    resetBit (word p w) = false

namespace Strategy

variable {D : Type} {drv : Drive D} {pr : PowerView D} {latency : ℕ}

/-- The drive `x`, to which `w` was sent last, can be led on. -/
structure Leads (st : Strategy) (pr : PowerView D) (x : D) (w : Word) : Prop where
  allowed : st.allowed (pr.power x) w
  takesReset : pr.power x = .fault → pr.TakesReset x

/-- A bound on the exchanges it takes. -/
def distance (st : Strategy) (pr : PowerView D) (latency : ℕ) (x : D) (w : Word) : ℕ :=
  if st.rank (pr.power x) w = 0 then 0 else (latency + 1) * st.rank (pr.power x) w + pr.patience x

variable {st : Strategy} {x : D} {w : Word}

theorem distance_eq_zero : st.distance pr latency x w = 0 ↔ st.rank (pr.power x) w = 0 := by
  unfold distance
  split
  · simp [*]
  · rename_i h
    have hpos : 0 < (latency + 1) * st.rank (pr.power x) w :=
      Nat.mul_pos (Nat.succ_pos _) (Nat.pos_of_ne_zero h)
    simp only [h, iff_false]
    omega

theorem distance_le (h : drv.Follows pr latency) {r : ℕ} (hr : st.rank (pr.power x) w ≤ r) :
    st.distance pr latency x w ≤ (latency + 1) * r + latency := by
  have hp := h.patience_le x
  have hmul : (latency + 1) * st.rank (pr.power x) w ≤ (latency + 1) * r :=
    Nat.mul_le_mul_left _ hr
  unfold distance
  split <;> omega

/-- A lower rank is a shorter distance. -/
theorem distance_of_rank (h : drv.Follows pr latency) {y : D} {v : Word}
    (hr : st.rank (pr.power y) v ≤ st.rank (pr.power x) w - 1) :
    st.distance pr latency y v ≤ st.distance pr latency x w - 1 := by
  have hp := h.patience_le y
  by_cases hzero : st.rank (pr.power y) v = 0
  · rw [distance_eq_zero.mpr hzero]
    exact Nat.zero_le _
  · have hpos : st.rank (pr.power x) w ≠ 0 := by omega
    have hmul : (latency + 1) * (st.rank (pr.power y) v + 1) ≤
        (latency + 1) * st.rank (pr.power x) w := Nat.mul_le_mul_left _ (by omega)
    rw [Nat.mul_add] at hmul
    simp only [distance, if_neg hzero, if_neg hpos]
    omega

/-- So is less patience. -/
theorem distance_of_patience {y : D} {v : Word}
    (hr : st.rank (pr.power y) v ≤ st.rank (pr.power x) w) (hp : pr.patience y < pr.patience x) :
    st.distance pr latency y v ≤ st.distance pr latency x w - 1 := by
  by_cases hzero : st.rank (pr.power y) v = 0
  · rw [distance_eq_zero.mpr hzero]
    exact Nat.zero_le _
  · have hpos : st.rank (pr.power x) w ≠ 0 := by omega
    have hmul : (latency + 1) * st.rank (pr.power y) v ≤
        (latency + 1) * st.rank (pr.power x) w := Nat.mul_le_mul_left _ hr
    simp only [distance, if_neg hzero, if_neg hpos]
    omega

/-- One exchange brings the drive nearer. -/
theorem Leads.exchange (h : drv.Follows pr latency) (hx : st.Leads pr x w) (t : ℤ) :
    st.Leads pr (drv.exchange x (st.word (pr.power x) w) t) (st.word (pr.power x) w) ∧
      st.distance pr latency (drv.exchange x (st.word (pr.power x) w) t) (st.word (pr.power x) w) ≤
        st.distance pr latency x w - 1 := by
  set v := st.word (pr.power x) w with hv
  obtain ⟨hallowed, hrank⟩ := st.putOff _ _ hx.allowed
  rw [← hv] at hallowed hrank
  by_cases hfault : pr.power x = .fault
  · obtain ⟨hreset, hdisabled, hlower⟩ := st.resets w (hfault ▸ hx.allowed)
    rw [hfault] at hv
    rw [← hv] at hreset hdisabled hlower
    rcases h.resets x v t hfault hreset (hx.takesReset hfault) with hq | ⟨hq, hresetting, hp⟩
    · refine ⟨⟨hq ▸ hdisabled, fun hf => ?_⟩, distance_of_rank h (by rw [hq, hfault]; exact hlower)⟩
      rw [hq] at hf
      cases hf
    · have hsame : pr.power (drv.exchange x v t) = pr.power x := hq.trans hfault.symm
      exact ⟨⟨hsame ▸ hallowed, fun _ => .inl hresetting⟩,
        distance_of_patience (hsame ▸ hrank) hp⟩
  · obtain ⟨hnext, hlower⟩ := st.answered _ _ hx.allowed hfault
    rw [← hv] at hnext hlower
    rcases h.answers x v t hfault with hq | ⟨hq, hp⟩
    · refine ⟨⟨hq ▸ hnext, fun hf => .inr ?_⟩, distance_of_rank h (hq ▸ hlower)⟩
      rw [h.lastReset]
      exact st.arms _ _ hx.allowed hfault (hq ▸ hf)
    · exact ⟨⟨hq ▸ hallowed, fun hf => absurd (hq ▸ hf) hfault⟩,
        distance_of_patience (hq ▸ hrank) hp⟩

end Strategy

end DriveProfile
