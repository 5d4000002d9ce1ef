import Edm.Lib.Run
import Edm.Motion.Commands

/-!
# What a drilling task switches

The drilling task switches the discharge, the spindle and, where the settings ask for it, two pumps.
A cycle that does not start one of the three `prepare` states or end the task switches nothing
(`CycleCase`); `pause` and `stop` switch everything off. So a task that is idle or paused has switched
everything off, and the discharge is on in few states only (`outputs_follow_state`).
-/

set_option linter.unusedSectionVars false

namespace Edm

variable {K : Type} [Field K] [LinearOrder K]

namespace DrillAutoTask

/-- From `sh` to `sh'` nothing was switched and no drill parameter set. -/
structure SameOutputs (sh sh' : MotionShared K) : Prop where
  machOn : sh'.callbacks.machOn = sh.callbacks.machOn
  spindleOn : sh'.callbacks.spindleOn = sh.callbacks.spindleOn
  opumpOn : sh'.callbacks.opumpOn = sh.callbacks.opumpOn
  ipumpOn : sh'.callbacks.ipumpOn = sh.callbacks.ipumpOn
  drillParams : sh'.drillParams = sh.drillParams

theorem SameOutputs.refl (sh : MotionShared K) : SameOutputs sh sh := ⟨rfl, rfl, rfl, rfl, rfl⟩

theorem SameOutputs.trans {a b c : MotionShared K} (h : SameOutputs a b) (h' : SameOutputs b c) :
    SameOutputs a c :=
  ⟨h'.1.trans h.1, h'.2.trans h.2, h'.3.trans h.3, h'.4.trans h.4, h'.5.trans h.5⟩

/-- The discharge, the spindle and the pumps after everything was switched `on` or off. -/
def switched (sh : MotionShared K) (on power : Bool) : MotionShared K :=
  machOn (allPumpAndSpindleOn sh on) power

section Switching

variable (sh : MotionShared K) (on power : Bool)

@[simp] theorem switched_machOn : (switched sh on power).callbacks.machOn = some power := rfl

@[simp] theorem switched_spindleOn : (switched sh on power).callbacks.spindleOn = some on := rfl

@[simp] theorem switched_drillParams : (switched sh on power).drillParams = sh.drillParams := rfl

theorem switched_opumpOn :
    (switched sh on power).callbacks.opumpOn =
      if sh.drillParams.autoSwitchOpump then some on else sh.callbacks.opumpOn := by
  simp only [switched, machOn, MotionShared.cbMachOn, allPumpAndSpindleOn]
  cases sh.drillParams.autoSwitchOpump <;> cases sh.drillParams.autoSwitchIpump <;> rfl

theorem switched_ipumpOn :
    (switched sh on power).callbacks.ipumpOn =
      if sh.drillParams.autoSwitchIpump then some on else sh.callbacks.ipumpOn := by
  simp only [switched, machOn, MotionShared.cbMachOn, allPumpAndSpindleOn]
  cases sh.drillParams.autoSwitchOpump <;> cases sh.drillParams.autoSwitchIpump <;> rfl

/-- The discharge is switched before or after the rest: the result is the same. -/
theorem allPumpAndSpindleOn_machOn :
    allPumpAndSpindleOn (machOn sh power) on = switched sh on power := by
  by_cases ho : sh.drillParams.autoSwitchOpump <;>
    by_cases hi : sh.drillParams.autoSwitchIpump <;>
      simp [switched, machOn, MotionShared.cbMachOn, allPumpAndSpindleOn, ho, hi]

theorem SameOutputs.switched {sh sh' : MotionShared K} (h : SameOutputs sh sh') :
    SameOutputs (switched sh on power) (switched sh' on power) where
  machOn := rfl
  spindleOn := rfl
  opumpOn := by rw [switched_opumpOn, switched_opumpOn, h.drillParams, h.opumpOn]
  ipumpOn := by rw [switched_ipumpOn, switched_ipumpOn, h.drillParams, h.ipumpOn]
  drillParams := h.drillParams

end Switching

/-- From the first state a cycle may go on to the second without switching anything. -/
inductive GoesOn : DrillState → DrillState → Prop where
  | stays (s : DrillState) (h : s ≠ .prepareTouch ∧ s ≠ .prepareDrill ∧ s ≠ .prepareBack) :
      GoesOn s s
  | toTouching : GoesOn .prepareTouchDelaying .touching
  | toTouchedBacking : GoesOn .touching .touchedBacking
  | toPrepareDrill : GoesOn .touchedBacking .prepareDrill
  | toDrilling : GoesOn .prepareDrillDelaying .drilling
  | toPrepareBack : GoesOn .drilling .prepareBack
  | toReturnBacking : GoesOn .prepareBackDelaying .returnBacking

/-- What a `prepare` state switches the discharge to, and where it goes on. -/
inductive Prepares : DrillState → Bool → DrillState → Prop where
  | touch : Prepares .prepareTouch false .prepareTouchDelaying
  | drill : Prepares .prepareDrill true .prepareDrillDelaying
  | back : Prepares .prepareBack false .prepareBackDelaying

/-- Outcomes of a cycle. -/
inductive CycleCase (t : DrillAutoTask K) (sh : MotionShared K) :
    DrillAutoTask K × MotionShared K → Prop where
  | rests (h : t.pauseFlag = true ∨ t.drillState = .idle) : CycleCase t sh (t, sh)
  | prepares {t' : DrillAutoTask K} {power : Bool} (hp : t.pauseFlag = false)
      (hp' : t'.pauseFlag = false) (hs : Prepares t.drillState power t'.drillState) :
      CycleCase t sh (t', switched sh true power)
  | works {t' : DrillAutoTask K} {sh' : MotionShared K} (hp : t.pauseFlag = false)
      (hp' : t'.pauseFlag = false) (hi : t.drillState ≠ .idle)
      (hs : GoesOn t.drillState t'.drillState) (ho : SameOutputs sh sh') : CycleCase t sh (t', sh')
  | ends {t' : DrillAutoTask K} {sh' : MotionShared K} (hp : t.pauseFlag = false)
      (hp' : t'.pauseFlag = false) (hs : t'.drillState = .idle)
      (ho : SameOutputs (switched sh false false) sh') : CycleCase t sh (t', sh')

variable (t : DrillAutoTask K) (sh : MotionShared K) (inp : CycleInput K)

/-- A delay ends or goes on. -/
theorem delaying_cases (hp : t.pauseFlag = false) (hi : t.drillState ≠ .idle)
    {next : DrillState} (hstay : GoesOn t.drillState t.drillState)
    (hnext : GoesOn t.drillState next) : CycleCase t sh (t.delaying sh inp next) := by
  unfold delaying
  split
  · exact .works hp hp hi hnext (.refl sh)
  · exact .works hp hp hi hstay (.refl sh)

variable [Settings]

theorem touching_cases (hp : t.pauseFlag = false) (hs : t.drillState = .touching) :
    CycleCase t sh (t.touching sh inp) := by
  unfold touching
  split
  · exact .works hp hp (by simp [hs]) (hs ▸ .toTouchedBacking) ⟨rfl, rfl, rfl, rfl, rfl⟩
  · exact .works hp hp (by simp [hs]) (.stays _ (by simp [hs])) ⟨rfl, rfl, rfl, rfl, rfl⟩

theorem touchedBacking_cases (hp : t.pauseFlag = false) (hs : t.drillState = .touchedBacking) :
    CycleCase t sh (t.touchedBacking sh) := by
  simp only [touchedBacking]
  split
  · exact .works hp hp (by simp [hs]) (hs ▸ .toPrepareDrill) ⟨rfl, rfl, rfl, rfl, rfl⟩
  · exact .works hp hp (by simp [hs]) (.stays _ (by simp [hs])) ⟨rfl, rfl, rfl, rfl, rfl⟩

/-- The parts of a drilling cycle before its limits change the runtime and the position. -/
structure DrillsOn (t t' : DrillAutoTask K) (sh sh' : MotionShared K) : Prop where
  outputs : SameOutputs sh sh'
  drillState : t'.drillState = t.drillState
  pauseFlag : t'.pauseFlag = t.pauseFlag
  startParams : t'.startParams = t.startParams

theorem drillingBreakthrough_drillsOn (servoDis : K) :
    DrillsOn t (t.drillingBreakthrough sh inp servoDis).1 sh
      (t.drillingBreakthrough sh inp servoDis).2.1 := by
  simp only [drillingBreakthrough]
  repeat' split
  all_goals exact ⟨⟨rfl, rfl, rfl, rfl, rfl⟩, rfl, rfl, rfl⟩

theorem drillingServo_drillsOn :
    DrillsOn t (t.drillingServo sh inp).1 sh (t.drillingServo sh inp).2.1 := by
  have h := t.drillingBreakthrough_drillsOn sh inp
    (UnitConverter.mmMin2bluP inp.servoCalcedSpeedMmMin)
  simp only [drillingServo]
  repeat' split
  all_goals first
    | exact ⟨⟨rfl, rfl, rfl, rfl, rfl⟩, rfl, rfl, rfl⟩
    | exact ⟨h.outputs, h.drillState, h.pauseFlag, h.startParams⟩

theorem drilling_cases (hp : t.pauseFlag = false) (hs : t.drillState = .drilling) :
    CycleCase t sh (t.drilling sh inp) := by
  have h := t.drillingServo_drillsOn sh inp
  simp only [drilling]
  generalize t.drillingServo sh inp = res at h
  obtain ⟨t', sh', through⟩ := res
  have hp' : t'.pauseFlag = false := h.pauseFlag.trans hp
  have hi : t.drillState ≠ .idle := by simp [hs]
  -- the limits move the axis only
  have hlim : SameOutputs sh
      (if currentPos sh' ≥ t'.runtime.machStartPos then
          (setCurrentPos sh' t'.runtime.machStartPos, through)
        else if currentPos sh' ≤ t'.runtime.machTargetPos then
          (setCurrentPos sh' t'.runtime.machTargetPos, true)
        else (sh', through)).1 := by
    repeat' split
    all_goals exact h.outputs.trans ⟨rfl, rfl, rfl, rfl, rfl⟩
  simp only [drillingLimit]
  generalize (if currentPos sh' ≥ t'.runtime.machStartPos then
      (setCurrentPos sh' t'.runtime.machStartPos, through)
    else if currentPos sh' ≤ t'.runtime.machTargetPos then
      (setCurrentPos sh' t'.runtime.machTargetPos, true)
    else (sh', through)) = lim at hlim ⊢
  have hremaining (x : K) : SameOutputs sh { lim.1 with currentDrillRemainingBlu := x } :=
    hlim.trans ⟨rfl, rfl, rfl, rfl, rfl⟩
  split
  · split
    · exact .works hp hp' hi (hs ▸ .toPrepareBack) (hremaining _)
    · rw [allPumpAndSpindleOn_machOn]
      exact .ends hp rfl rfl ((hremaining _).switched false false)
  · refine .works hp hp' hi ?_ (hremaining _)
    rw [h.drillState, hs]
    exact .stays _ (by simp)

theorem returnBacking_cases (hp : t.pauseFlag = false) (hs : t.drillState = .returnBacking) :
    CycleCase t sh (t.returnBacking sh) := by
  simp only [returnBacking]
  split
  · rw [allPumpAndSpindleOn_machOn]
    have h : SameOutputs sh (setCurrentPos sh t.runtime.machOverBackReturnPos) :=
      ⟨rfl, rfl, rfl, rfl, rfl⟩
    exact .ends hp rfl rfl ((h.switched false false).trans ⟨rfl, rfl, rfl, rfl, rfl⟩)
  · exact .works hp hp (by simp [hs]) (.stays _ (by simp [hs])) ⟨rfl, rfl, rfl, rfl, rfl⟩

theorem runOnce_cases : CycleCase t sh (t.runOnce sh inp) := by
  unfold runOnce
  by_cases hp : t.pauseFlag
  · rw [if_pos hp]
    exact .rests (.inl hp)
  rw [if_neg hp]
  have hp : t.pauseFlag = false := Bool.eq_false_of_not_eq_true hp
  split <;> rename_i hs
  · exact .rests (.inr hs)
  · exact .prepares hp hp (hs ▸ .touch)
  · exact t.delaying_cases sh inp hp (by simp [hs]) (.stays _ (by simp [hs])) (hs ▸ .toTouching)
  · exact t.touching_cases sh inp hp hs
  · exact t.touchedBacking_cases sh hp hs
  · exact .prepares hp hp (hs ▸ .drill)
  · exact t.delaying_cases sh inp hp (by simp [hs]) (.stays _ (by simp [hs])) (hs ▸ .toDrilling)
  · exact t.drilling_cases sh inp hp hs
  · exact .prepares hp hp (hs ▸ .back)
  · exact t.delaying_cases sh inp hp (by simp [hs]) (.stays _ (by simp [hs]))
      (hs ▸ .toReturnBacking)
  · exact t.returnBacking_cases sh hp hs

end DrillAutoTask

/-- A drilling task with the data it shares. `cycledFrom` and `resumed` are not in the source: the
state in which the last cycle began, and whether the task was resumed since. -/
structure DrillSystem (K : Type) where
  task : DrillAutoTask K
  shared : MotionShared K
  cycledFrom : DrillAutoTask.DrillState
  resumed : Bool

namespace DrillSystem

open DrillAutoTask

inductive Call (K : Type) where
  | runOnce (inp : CycleInput K)
  | pause
  | resume
  | stop (immediate : Bool)
  | setDrillParams (drillParams : DrillParams K)

/-- A task just constructed; the callbacks remember its own calls only. -/
def start (p : DrillStartParams K) (sh : MotionShared K) : DrillSystem K :=
  let (t, sh) := DrillAutoTask.new p { sh with callbacks := {} }
  ⟨t, sh, t.drillState, false⟩

/-- The pump is switched by the task or not at all. -/
def pumpOff (autoSwitch : Bool) : Option Bool := if autoSwitch then some false else none

def AtRest (s : DrillSystem K) : Prop := s.task.isStopped ∨ s.task.isPaused

def PumpsOff (s : DrillSystem K) : Prop :=
  s.shared.callbacks.opumpOn = pumpOff s.shared.drillParams.autoSwitchOpump ∧
    s.shared.callbacks.ipumpOn = pumpOff s.shared.drillParams.autoSwitchIpump

/-- The call leaves the automatic switching of the pumps as it is. -/
def KeepsAutoSwitch (s : DrillSystem K) : Call K → Prop
  | .setDrillParams dp =>
    dp.autoSwitchOpump = s.shared.drillParams.autoSwitchOpump ∧
      dp.autoSwitchIpump = s.shared.drillParams.autoSwitchIpump
  | _ => True

/-- Where the discharge can be on. -/
def MayDischarge (s : DrillSystem K) : Prop :=
  s.task.drillState = .prepareDrillDelaying ∨ s.task.drillState = .drilling ∨
    s.task.drillState = .prepareBack ∧ s.cycledFrom = .drilling ∨
    s.task.drillState = .prepareDrill ∧ s.resumed

structure Safe (s : DrillSystem K) : Prop where
  off : s.AtRest → s.shared.callbacks.machOn = some false ∧
    s.shared.callbacks.spindleOn = some false
  paused : s.task.pauseFlag → s.task.drillState ≠ .idle
  discharge : s.shared.callbacks.machOn = some true → s.MayDischarge

/-- The pump of a setting that stays as it is: off at rest, untouched where it is not switched. -/
structure PumpsFollow (s : DrillSystem K) : Prop where
  atRest : s.AtRest → s.PumpsOff
  opump : s.shared.drillParams.autoSwitchOpump = false → s.shared.callbacks.opumpOn = none
  ipump : s.shared.drillParams.autoSwitchIpump = false → s.shared.callbacks.ipumpOn = none

theorem atRest_iff {s : DrillSystem K} :
    s.AtRest ↔ s.task.drillState = .idle ∨ s.task.pauseFlag = true := by
  simp [AtRest, isStopped, isPaused]

variable [Settings]

def step (s : DrillSystem K) : Call K → DrillSystem K
  | .runOnce inp =>
    let (t, sh) := s.task.runOnce s.shared inp
    ⟨t, sh, s.task.drillState, false⟩
  | .pause => let (t, sh, _) := s.task.pause s.shared; { s with task := t, shared := sh }
  | .resume =>
    let (t, sh, ret) := s.task.resume s.shared
    { s with task := t, shared := sh, resumed := s.resumed || ret }
  | .stop immediate =>
    let (t, sh, _) := s.task.stop s.shared immediate
    { s with task := t, shared := sh }
  | .setDrillParams dp => { s with shared := { s.shared with drillParams := dp } }

variable {s : DrillSystem K}

/-- With the power off only the pause flag is left to check. -/
theorem safe_of_off (hm : s.shared.callbacks.machOn = some false)
    (hsp : s.AtRest → s.shared.callbacks.spindleOn = some false)
    (hp : s.task.pauseFlag → s.task.drillState ≠ .idle) : s.Safe where
  off h := ⟨hm, hsp h⟩
  paused := hp
  discharge h := by simp [hm] at h

/-- A task that runs may discharge where it does. -/
theorem safe_of_running (hi : s.task.drillState ≠ .idle) (hp : s.task.pauseFlag = false)
    (hd : s.shared.callbacks.machOn = some true → s.MayDischarge) : s.Safe where
  off h := by
    rcases atRest_iff.mp h with h | h
    · exact absurd h hi
    · simp [hp] at h
  paused h := by simp [hp] at h
  discharge := hd

theorem Safe.runOnce (h : s.Safe) (inp : CycleInput K) : (s.step (.runOnce inp)).Safe := by
  have hcase := s.task.runOnce_cases s.shared inp
  simp only [step]
  generalize s.task.runOnce s.shared inp = res at hcase
  cases hcase with
  | rests hr =>
    have hrest : s.AtRest := atRest_iff.mpr hr.symm
    exact safe_of_off (h.off hrest).1 (fun _ => (h.off hrest).2) h.paused
  | @prepares t' power hp hp' hs =>
    refine safe_of_running ?_ hp' fun hon => ?_
    · generalize s.task.drillState = a at hs
      generalize t'.drillState = b at hs
      cases hs <;> simp
    · simp only [MayDischarge]
      generalize s.task.drillState = a at hs
      generalize t'.drillState = b at hs
      cases hs <;> simp at hon ⊢
  | @works t' sh' hp hp' hi hs ho =>
    refine safe_of_running ?_ hp' fun hon => ?_
    · generalize s.task.drillState = a at hi hs
      generalize t'.drillState = b at hs
      cases hs <;> first | exact hi | simp
    · rw [ho.machOn] at hon
      have hmay := h.discharge hon
      simp only [MayDischarge] at hmay ⊢
      generalize s.task.drillState = a at hs hmay
      generalize t'.drillState = b at hs
      cases hs <;> simp_all
  | ends hp hp' hs ho =>
    refine safe_of_off ho.machOn (fun _ => ho.spindleOn) fun h' => ?_
    simp [hp'] at h'

theorem Safe.pause (h : s.Safe) : (s.step .pause).Safe := by
  simp only [step, DrillAutoTask.pause]
  split
  · exact h
  · rename_i hi
    rw [allPumpAndSpindleOn_machOn]
    exact safe_of_off rfl (fun _ => rfl) fun _ => hi

theorem Safe.resume (h : s.Safe) : (s.step .resume).Safe := by
  simp only [step, DrillAutoTask.resume]
  split
  · simpa using h
  · rename_i hf
    have hf : s.task.pauseFlag = true := by simpa using hf
    have hi := h.paused hf
    split <;> rename_i hs
    · exact absurd hs hi
    all_goals refine safe_of_running hi rfl fun hon => ?_
    all_goals simp [machOn, MotionShared.cbMachOn] at hon
    all_goals simp [MayDischarge, hs]

theorem Safe.stop (immediate : Bool) : (s.step (.stop immediate)).Safe :=
  safe_of_off rfl (fun _ => switched_spindleOn _ _ _)
    fun h => by simp [step, DrillAutoTask.stop, clearAllStatus] at h

theorem Safe.step (h : s.Safe) (c : Call K) : (s.step c).Safe := by
  cases c with
  | runOnce inp => exact h.runOnce inp
  | pause => exact h.pause
  | resume => exact h.resume
  | stop immediate => exact .stop immediate
  | setDrillParams dp => exact ⟨h.off, h.paused, h.discharge⟩

theorem start_safe (p : DrillStartParams K) (sh : MotionShared K) : (start p sh).Safe := by
  have hrun : (start p sh).task.drillState ≠ .idle := by
    simp only [start, DrillAutoTask.new]
    split <;> simp
  exact safe_of_running hrun (by simp only [start, DrillAutoTask.new]; split <;> rfl)
    fun h => by simp [start, DrillAutoTask.new] at h

/-- A task that runs has nothing to show of its pumps but those it does not switch. -/
theorem pumpsFollow_of_running (hrest : ¬s.AtRest)
    (ho : s.shared.drillParams.autoSwitchOpump = false → s.shared.callbacks.opumpOn = none)
    (hi : s.shared.drillParams.autoSwitchIpump = false → s.shared.callbacks.ipumpOn = none) :
    s.PumpsFollow :=
  ⟨fun h => absurd h hrest, ho, hi⟩

/-- Switching the pumps touches those alone that the settings name. -/
theorem PumpsFollow.switched (h : s.PumpsFollow) (on power : Bool) :
    (s.shared.drillParams.autoSwitchOpump = false →
      (switched s.shared on power).callbacks.opumpOn = none) ∧
    (s.shared.drillParams.autoSwitchIpump = false →
      (switched s.shared on power).callbacks.ipumpOn = none) := by
  rw [switched_opumpOn, switched_ipumpOn]
  exact ⟨fun ho => by simp [ho, h.opump], fun hi => by simp [hi, h.ipump]⟩

/-- Everything switched off, by a task that goes to rest. -/
theorem PumpsFollow.off (h : s.PumpsFollow) {s' : DrillSystem K}
    (ho : SameOutputs (DrillAutoTask.switched s.shared false false) s'.shared) :
    s'.PumpsFollow := by
  have hd : s'.shared.drillParams = s.shared.drillParams := ho.drillParams
  have hoff := h.switched false false
  refine ⟨fun _ => ?_, ?_, ?_⟩
  · simp only [PumpsOff, pumpOff]
    rw [ho.opumpOn, ho.ipumpOn, switched_opumpOn, switched_ipumpOn, hd]
    constructor
    · split
      · rfl
      · rename_i hs
        exact h.opump (Bool.eq_false_of_not_eq_true hs)
    · split
      · rfl
      · rename_i hs
        exact h.ipump (Bool.eq_false_of_not_eq_true hs)
  · rw [hd, ho.opumpOn]; exact hoff.1
  · rw [hd, ho.ipumpOn]; exact hoff.2

theorem PumpsFollow.runOnce (h : s.PumpsFollow) (inp : CycleInput K) :
    (s.step (.runOnce inp)).PumpsFollow := by
  have hcase := s.task.runOnce_cases s.shared inp
  simp only [DrillSystem.step]
  generalize s.task.runOnce s.shared inp = res at hcase
  cases hcase with
  | rests hr => exact ⟨fun _ => h.atRest (atRest_iff.mpr hr.symm), h.opump, h.ipump⟩
  | @prepares t' power hp hp' hs =>
    have hsw := h.switched true power
    refine pumpsFollow_of_running (fun hrest => ?_) hsw.1 hsw.2
    rcases atRest_iff.mp hrest with hi | hf
    · simp only at hi
      rw [hi] at hs
      generalize s.task.drillState = a at hs
      nomatch hs
    · simp [hp'] at hf
  | @works t' sh' hp hp' hi hs ho =>
    refine pumpsFollow_of_running (fun hrest => ?_) ?_ ?_
    · rcases atRest_iff.mp hrest with hi' | hf
      · simp only at hi'
        rw [hi'] at hs
        generalize s.task.drillState = a at hs hi
        cases hs
        exact hi rfl
      · simp [hp'] at hf
    · rw [ho.drillParams, ho.opumpOn]; exact h.opump
    · rw [ho.drillParams, ho.ipumpOn]; exact h.ipump
  | ends hp hp' hs ho => exact h.off ho

theorem PumpsFollow.pause (h : s.PumpsFollow) : (s.step .pause).PumpsFollow := by
  simp only [DrillSystem.step, DrillAutoTask.pause]
  split
  · exact h
  · rw [allPumpAndSpindleOn_machOn]
    exact h.off (.refl _)

theorem PumpsFollow.resume (h : s.PumpsFollow) (hsafe : s.Safe) :
    (s.step .resume).PumpsFollow := by
  simp only [DrillSystem.step, DrillAutoTask.resume]
  split
  · exact ⟨h.atRest, h.opump, h.ipump⟩
  · rename_i hf
    have hi := hsafe.paused (by simpa using hf)
    split <;> rename_i hs
    · exact absurd hs hi
    all_goals
      refine pumpsFollow_of_running (fun hrest => ?_) (h.switched true _).1 (h.switched true _).2
      rcases atRest_iff.mp hrest with hi' | hf'
      · exact hi hi'
      · simp at hf'

theorem PumpsFollow.step (h : s.PumpsFollow) (hsafe : s.Safe) {c : Call K}
    (hc : s.KeepsAutoSwitch c) : (s.step c).PumpsFollow := by
  cases c with
  | runOnce inp => exact h.runOnce inp
  | pause => exact h.pause
  | resume => exact h.resume hsafe
  | stop immediate => exact h.off (.refl _)
  | setDrillParams dp =>
    obtain ⟨ho, hi⟩ := hc
    refine ⟨fun hrest => ?_, fun hf => h.opump (ho ▸ hf), fun hf => h.ipump (hi ▸ hf)⟩
    have hoff := h.atRest hrest
    simp only [PumpsOff, DrillSystem.step, ho, hi] at hoff ⊢
    exact hoff

theorem start_pumpsFollow (p : DrillStartParams K) (sh : MotionShared K) :
    (start p sh).PumpsFollow := by
  refine pumpsFollow_of_running (fun hrest => ?_) (fun _ => rfl) (fun _ => rfl)
  rcases atRest_iff.mp hrest with hi | hf
  · simp only [start, DrillAutoTask.new] at hi
    split at hi <;> simp at hi
  · simp only [start, DrillAutoTask.new] at hf
    split at hf <;> simp at hf

/-- After any calls: a task that is idle or paused has switched discharge and spindle off, and, if
the automatic switching was left alone, the pumps; a paused task is not idle; and the discharge is on
only before and while the task drills, in the cycle after it, or after a resume just before it. -/
theorem outputs_follow_state (p : DrillStartParams K) (sh : MotionShared K) (calls : List (Call K)) :
    let s := Machine.run step (start p sh) calls
    (s.AtRest → s.shared.callbacks.machOn = some false ∧
      s.shared.callbacks.spindleOn = some false ∧
      (Machine.AllSteps step KeepsAutoSwitch (start p sh) calls → s.PumpsOff)) ∧
    (s.task.pauseFlag → s.task.drillState ≠ .idle) ∧
    (s.shared.callbacks.machOn = some true → s.MayDischarge) := by
  have hsafe := Machine.run_invariant (I := Safe (K := K)) (fun _ c h => h.step c)
    (start_safe p sh) calls
  refine ⟨fun hrest => ⟨(hsafe.off hrest).1, (hsafe.off hrest).2, fun hc => ?_⟩, hsafe.paused,
    hsafe.discharge⟩
  have hboth := Machine.AllSteps.invariant (I := fun s : DrillSystem K => s.Safe ∧ s.PumpsFollow)
    (fun _ c h hc => ⟨h.1.step c, h.2.step h.1 hc⟩)
    ⟨start_safe p sh, start_pumpsFollow p sh⟩ hc
  exact hboth.2.atRest hrest

end DrillSystem

end Edm
