import Edm.App.Events

/-!
# Commands are answered in order

The queue of commands is first in, first out, and the waits of the event loop are last in, first out.
So a wait that returns is the youngest: whatever the runner has sent for the waits below it was answered
before, and nothing it has sent is left in the queue but starts that were given up.
-/

set_option linter.unusedSectionVars false

namespace Edm

variable {K : Type}

namespace Kont

/-- The command a wait is for. -/
def Fits (cmd : MotionCommand K) : Kont → Prop
  | .startAnswered .. => cmd.isStart
  | .eleparamSet _ | .warningCleared => cmd.isSetting
  | .aborted .. | .stopEstopAnswered | .estopAnswered => cmd = .manualEmergencyStopAllMove
  | .pauseAnswered _ => cmd = .autoPause
  | .resumeAnswered => cmd = .autoResume
  | .stopAnswered _ => cmd = .autoStop false
  | .other => cmd.isForeign

/-- The waits that are given up after some time. -/
def mayTimeOut : Kont → Bool
  | .startAnswered .. | .warningCleared | .other => true
  | _ => false

end Kont

namespace TaskSystem

section Fits

variable {s : TaskSystem K} {init : Prop} {cmd : MotionCommand K} {timeoutMs : Option ℕ} {kont : Kont}

theorem MayWait.fits (hw : MayWait init s cmd timeoutMs kont) : kont.Fits cmd := by
  cases kont with
  | startAnswered => exact hw.2.2.2
  | eleparamSet => exact hw.2.2.1
  | warningCleared => exact hw.2.2
  | aborted => exact hw.2.1
  | pauseAnswered => exact hw.2.1
  | resumeAnswered => exact hw.2.1
  | estopAnswered => exact hw.1
  | stopAnswered | stopEstopAnswered | other => exact hw.elim

theorem MayWait.timeouts (hw : MayWait init s cmd timeoutMs kont) (ht : timeoutMs.isSome) :
    kont.mayTimeOut := by
  cases kont with
  | startAnswered | warningCleared => rfl
  | eleparamSet => simp [hw.2.2.2] at ht
  | aborted => simp [hw.2.2] at ht
  | pauseAnswered => simp [hw.2.2] at ht
  | resumeAnswered => simp [hw.2.2] at ht
  | estopAnswered => simp [hw.2] at ht
  | stopAnswered | stopEstopAnswered | other => exact hw.elim

end Fits

/-- Commands and waits are in order, and each wait is for a command of its kind. -/
structure InOrder (s : TaskSystem K) : Prop where
  queue : s.cmdQueue.Pairwise (·.1 < ·.1)
  queue_lt : ∀ c ∈ s.cmdQueue, c.1 < s.nextCmd
  waits : s.waits.Pairwise (·.cmd > ·.cmd)
  waits_lt : ∀ w ∈ s.waits, w.cmd < s.nextCmd
  answered : ∀ w ∈ s.waits, w.answer.isSome → ∀ c ∈ s.cmdQueue, w.cmd < c.1
  fits : ∀ w ∈ s.waits, ∀ c ∈ s.cmdQueue, w.cmd = c.1 → w.kont.Fits c.2
  timeouts : ∀ w ∈ s.waits, w.timeoutMs.isSome → w.kont.mayTimeOut
  /-- A request of the runner is waited for until it is answered. -/
  owned : ∀ c ∈ s.cmdQueue, c.2.isStart ∨ c.2.isForeign ∨ ∃ w ∈ s.waits, w.cmd = c.1

namespace InOrder

variable {s t : TaskSystem K} {A : TaskSystem K → Prop}

theorem frame (h : s.InOrder) (hf : Frame s t) : t.InOrder := by
  obtain ⟨h1, h2, h3, h4, h5, h6, h7, h8⟩ := h
  constructor <;> simp only [hf.cmdQueue, hf.nextCmd, hf.waits] <;> assumption

theorem same (h : s.InOrder) (hk : Same s t) : t.InOrder :=
  h.frame ⟨hk.motion, hk.cmdQueue, hk.nextCmd, hk.waits⟩

/-- A command that is sent gets the largest number. -/
theorem push_queue (h : s.InOrder) (cmd : MotionCommand K) :
    (s.pushCommand cmd).cmdQueue.Pairwise (·.1 < ·.1) ∧
      ∀ c ∈ (s.pushCommand cmd).cmdQueue, c.1 < (s.pushCommand cmd).nextCmd := by
  simp only [pushCommand, List.pairwise_append, List.mem_append, List.mem_singleton]
  refine ⟨⟨h.queue, List.pairwise_singleton _ _, ?_⟩, ?_⟩
  · rintro c hc c' rfl
    exact h.queue_lt c hc
  · rintro c (hc | rfl)
    · exact Nat.lt_succ_of_lt (h.queue_lt c hc)
    · exact Nat.lt_succ_self _

theorem push (h : s.InOrder) {cmd : MotionCommand K} (hc : cmd.isForeign) :
    (s.pushCommand cmd).InOrder where
  queue := (h.push_queue cmd).1
  queue_lt := (h.push_queue cmd).2
  waits := h.waits
  waits_lt w hw := Nat.lt_succ_of_lt (h.waits_lt w hw)
  answered w hw ha c hq := by
    rcases List.mem_append.mp hq with hq | hq
    · exact h.answered w hw ha c hq
    · obtain rfl := List.mem_singleton.mp hq
      exact h.waits_lt w hw
  fits w hw c hq he := by
    rcases List.mem_append.mp hq with hq | hq
    · exact h.fits w hw c hq he
    · obtain rfl := List.mem_singleton.mp hq
      have := h.waits_lt w hw
      simp only at he
      omega
  timeouts := h.timeouts
  owned c hq := by
    rcases List.mem_append.mp hq with hq | hq
    · exact h.owned c hq
    · obtain rfl := List.mem_singleton.mp hq
      exact .inr (.inl hc)

theorem waitFor (h : s.InOrder) {cmd : MotionCommand K} {timeoutMs : Option ℕ} {kont : Kont}
    (hf : kont.Fits cmd) (ht : timeoutMs.isSome → kont.mayTimeOut) :
    (s.waitFor cmd timeoutMs kont).InOrder where
  queue := (h.push_queue cmd).1
  queue_lt := (h.push_queue cmd).2
  waits := List.pairwise_cons.mpr ⟨h.waits_lt, h.waits⟩
  waits_lt w hw := by
    rcases List.mem_cons.mp hw with rfl | hw
    · exact Nat.lt_succ_self _
    · exact Nat.lt_succ_of_lt (h.waits_lt w hw)
  answered w hw ha c hq := by
    rcases List.mem_cons.mp hw with rfl | hw
    · simp at ha
    · rcases List.mem_append.mp hq with hq | hq
      · exact h.answered w hw ha c hq
      · obtain rfl := List.mem_singleton.mp hq
        exact h.waits_lt w hw
  fits w hw c hq he := by
    rcases List.mem_cons.mp hw with rfl | hw <;> rcases List.mem_append.mp hq with hq | hq
    · have := h.queue_lt c hq
      simp only at he
      omega
    · obtain rfl := List.mem_singleton.mp hq
      exact hf
    · exact h.fits w hw c hq he
    · obtain rfl := List.mem_singleton.mp hq
      have := h.waits_lt w hw
      simp only at he
      omega
  timeouts w hw := by
    rcases List.mem_cons.mp hw with rfl | hw
    · exact ht
    · exact h.timeouts w hw
  owned c hq := by
    rcases List.mem_append.mp hq with hq | hq
    · rcases h.owned c hq with hs | hs | ⟨w, hw, he⟩
      · exact .inl hs
      · exact .inr (.inl hs)
      · exact .inr (.inr ⟨w, List.mem_cons_of_mem _ hw, he⟩)
    · obtain rfl := List.mem_singleton.mp hq
      exact .inr (.inr ⟨_, List.mem_cons_self, rfl⟩)

theorem moves (h : s.InOrder) (hm : Moves A s t) : t.InOrder := h.frame hm.frame

theorem runs (h : s.InOrder) {init : Prop} (hr : Runs init A s t) : t.InOrder := by
  cases hr with
  | through hm => exact h.moves hm
  | waits cmd timeoutMs kont hm hw => exact (h.moves hm).waitFor hw.fits hw.timeouts

/-- The youngest wait is over. -/
theorem pop (h : s.InOrder) {w : Wait} {rest : List Wait} (hw : s.waits = w :: rest)
    (hr : w.answer.isSome ∨ w.timeoutMs.isSome) : ({ s with waits := rest } : TaskSystem K).InOrder where
  queue := h.queue
  queue_lt := h.queue_lt
  waits := (List.pairwise_cons.mp (hw ▸ h.waits)).2
  waits_lt w' hw' := h.waits_lt w' (hw ▸ List.mem_cons_of_mem _ hw')
  answered w' hw' := h.answered w' (hw ▸ List.mem_cons_of_mem _ hw')
  fits w' hw' := h.fits w' (hw ▸ List.mem_cons_of_mem _ hw')
  timeouts w' hw' := h.timeouts w' (hw ▸ List.mem_cons_of_mem _ hw')
  owned c hq := by
    have hmem : w ∈ s.waits := hw ▸ List.mem_cons_self
    rcases h.owned c hq with hs | hs | ⟨w', hw', he⟩
    · exact .inl hs
    · exact .inr (.inl hs)
    · rw [hw] at hw'
      rcases List.mem_cons.mp hw' with rfl | hw'
      · rcases hr with hr | hr
        · have := h.answered w' hmem hr c hq
          omega
        · -- a wait that is given up is for no request
          have hfit := h.fits w' hmem c hq he
          have ht := h.timeouts w' hmem hr
          revert hfit ht
          cases w'.kont with
          | startAnswered => exact fun hfit _ => .inl hfit
          | warningCleared =>
            exact fun hfit _ => .inr (.inl (by simp [MotionCommand.isForeign, show c.2.isSetting = true from hfit]))
          | other => exact fun hfit _ => .inr (.inl hfit)
          | _ => simp [Kont.mayTimeOut]
      · exact .inr (.inr ⟨w', hw', he⟩)

/-- Below the youngest wait no request of the runner is left unanswered. -/
theorem of_answered (h : s.InOrder) {w : Wait} {rest : List Wait} (hw : s.waits = w :: rest)
    (ha : w.answer.isSome) : ∀ c ∈ s.cmdQueue, c.2.isStart ∨ c.2.isForeign := by
  intro c hc
  rcases h.owned c hc with hs | hs | ⟨w', hw', he⟩
  · exact .inl hs
  · exact .inr hs
  · have hlt := h.answered w (hw ▸ List.mem_cons_self) ha c hc
    have hle : w'.cmd ≤ w.cmd := by
      rw [hw] at hw'
      rcases List.mem_cons.mp hw' with rfl | hw'
      · exact le_rfl
      · exact ((List.pairwise_cons.mp (hw ▸ h.waits)).1 w' hw').le
    omega

/-- The oldest command is fetched and answered. -/
theorem fetch (h : s.InOrder) {id : ℕ} {cmd : MotionCommand K} {rest : List (ℕ × MotionCommand K)}
    (hq : s.cmdQueue = (id, cmd) :: rest) (m : MotionThread K) (answer : Option Bool) :
    ({ s with motion := m, cmdQueue := rest,
              waits := s.waits.map (Wait.answered id answer) } : TaskSystem K).InOrder := by
  have hcmd (w : Wait) : (w.answered id answer).cmd = w.cmd := by
    unfold Wait.answered
    split <;> rfl
  have hkont (w : Wait) : (w.answered id answer).kont = w.kont := by
    unfold Wait.answered
    split <;> rfl
  have htime (w : Wait) : (w.answered id answer).timeoutMs = w.timeoutMs := by
    unfold Wait.answered
    split <;> rfl
  have hsub {c : ℕ × MotionCommand K} (hc : c ∈ rest) : c ∈ s.cmdQueue := hq ▸ List.mem_cons_of_mem _ hc
  have hqueue := List.pairwise_cons.mp (hq ▸ h.queue)
  constructor
  · exact hqueue.2
  · exact fun c hc => h.queue_lt c (hsub hc)
  · simp only [List.pairwise_map, hcmd]
    exact h.waits
  · simp only [List.forall_mem_map, hcmd]
    exact h.waits_lt
  · simp only [List.forall_mem_map, hcmd]
    intro w hw ha c hc
    by_cases he : w.cmd = id
    · rw [he]
      exact hqueue.1 c hc
    · rw [Wait.answered, if_neg he] at ha
      exact h.answered w hw ha c (hsub hc)
  · simp only [List.forall_mem_map, hcmd, hkont]
    exact fun w hw c hc => h.fits w hw c (hsub hc)
  · simp only [List.forall_mem_map, htime, hkont]
    exact h.timeouts
  · intro c hc
    rcases h.owned c (hsub hc) with hs | hs | ⟨w, hw, he⟩
    · exact .inl hs
    · exact .inr (.inl hs)
    · exact .inr (.inr ⟨_, List.mem_map_of_mem hw, (hcmd w).trans he⟩)

theorem returns (h : s.InOrder) {kont : Kont} {accepted : Bool} (hc : ReturnCase s kont accepted t) :
    t.InOrder := by
  have hframe {u : TaskSystem K} (hm : u.motion = s.motion) (hq : u.cmdQueue = s.cmdQueue)
      (hn : u.nextCmd = s.nextCmd) (hw : u.waits = s.waits) : u.InOrder :=
    h.frame ⟨⟨_, hm⟩, hq, hn, hw⟩
  cases hc with
  | nodeStarted hr => exact (hframe (u := s.switchToState .running) rfl rfl rfl rfl).runs hr
  | nodePasses hk hr => exact h.runs hr
  | nodeRefused | stopEstops | estopAborts => exact h.waitFor rfl (by simp)
  | paused hs => exact (hframe (u := s.switchToState .waitingForPaused) rfl rfl rfl rfl).same hs
  | nothing _ hs => exact h.same hs
  | _ => exact hframe rfl rfl rfl rfl

theorem start (h : s.InOrder) (hc : StartCase s t) : t.InOrder := by
  have hframe {u : TaskSystem K} (hu : u = { s.emit .startCalled with runner := u.runner }) :
      u.InOrder := h.frame (by rw [hu]; exact ⟨⟨_, rfl⟩, rfl, rfl, rfl⟩)
  cases hc with
  | refused => exact h.frame ⟨⟨_, rfl⟩, rfl, rfl, rfl⟩
  | failed hs err ht hr => exact (hframe ht).waitFor rfl (by simp)
  | started hs ht => exact (hframe ht).frame ⟨⟨_, rfl⟩, rfl, rfl, rfl⟩

theorem stop (h : s.InOrder) (hc : StopCase s t) : t.InOrder := by
  cases hc with
  | nothing => exact h
  | waits waitingForPaused => exact h.waitFor rfl (by simp)
  | _ => exact h.frame ⟨⟨_, rfl⟩, rfl, rfl, rfl⟩

end InOrder

section Steps

/-- A wait that ends was answered, or is given up. -/
theorem returning_over {s : TaskSystem K} {a : TaskAction K} {w : Wait} {rest : List Wait}
    {accepted : Bool} (hw : s.waits = w :: rest) (hr : s.returning a = some (w, accepted)) :
    w.answer.isSome ∨ w.timeoutMs.isSome := by
  cases a with
  | waitReturns =>
    cases ha : w.answer with
    | none => simp [returning, hw, ha] at hr
    | some answer => exact .inl rfl
  | waitTimesOut =>
    simp only [returning, hw, Option.ite_none_right_eq_some, Bool.and_eq_true] at hr
    exact .inr hr.1.1
  | _ => cases hr

variable [Field K] [LinearOrder K] [FloorRing K] [RealFns K] [Settings] {s : TaskSystem K}

/-- What a cycle of the motion thread is for the application. -/
inductive CycleCase (s : TaskSystem K) (inp : ThreadInput K) : TaskSystem K → Prop where
  | idle : CycleCase s inp { s with motion := (s.motion.threadCycle inp none).1 }
  | fetched {id : ℕ} {cmd : MotionCommand K} {rest : List (ℕ × MotionCommand K)}
      (hq : s.cmdQueue = (id, cmd) :: rest) :
      CycleCase s inp
        { s with
          motion := (s.motion.threadCycle inp (some cmd)).1
          cmdQueue := rest
          waits := s.waits.map (Wait.answered id (s.motion.threadCycle inp (some cmd)).2) }

theorem cycle_cases (inp : ThreadInput K) (fetch : Bool) : CycleCase s inp (s.motionCycle inp fetch) := by
  unfold motionCycle
  split
  · split
    · exact .fetched ‹_›
    · exact .idle
  · exact .idle

theorem step_inOrder (s : TaskSystem K) (a : TaskAction K) (h : s.InOrder) : (s.step a).InOrder := by
  have hcase := s.step_cases a
  generalize s.step a = t at hcase
  cases hcase with
  | keep hk => exact h.same hk
  | poll hp hr => exact h.runs hr
  | pause hr | resume hr => exact h.runs hr
  | estop => exact h.waitFor rfl (by simp)
  | start program hs => exact h.start hs
  | stop hs => exact h.stop hs
  | push cmd hc => exact h.push hc
  | send cmd timeoutMs hc => exact h.waitFor hc fun _ => rfl
  | cycle inp fetch =>
    have hc := cycle_cases (s := s) inp fetch
    generalize s.motionCycle inp fetch = t at hc
    cases hc with
    | idle =>
      obtain ⟨h1, h2, h3, h4, h5, h6, h7, h8⟩ := h
      exact ⟨h1, h2, h3, h4, h5, h6, h7, h8⟩
    | fetched hq => exact h.fetch hq _ _
  | @returns _ w rest accepted t hw hr hk => exact (h.pop hw (returning_over hw hr)).returns hk

theorem new_inOrder (coords : CoordinateManager K) (currCoordIndex : ℕ) (settings : TaskSettings K)
    (eleparams : ℕ → Option EleParam) : (new coords currCoordIndex settings eleparams).InOrder := by
  constructor <;> simp [new]

end Steps

end TaskSystem

end Edm
