import Edm.Lib.Run
import Edm.Utils.Crc
import Mathlib.Logic.Function.Basic

/-!
# Setting outputs under a mask

`IOController` keeps the output words of the machine. A call with a mask changes its bits of a word
under the mutex and, if the word has changed, hands a frame with the new word to the send queue after
it has released the mutex. Between the two another call may change the word and send its frame first:
the word is always what the calls give one after the other, but the last frame need not carry it
(`set_withmask`).
-/

set_option linter.unusedSectionVars false

namespace Edm

namespace IOController

/-- The words of all builds: `can_machineio_1_`, `can_machineio_2_` and `can_machineio_output_`. -/
inductive IoWord where
  | machineio1
  | machineio2
  | machineioOutput
  deriving DecidableEq

/-- A frame of a word with its eight bytes, or the one that tells the handbox about the pump. -/
inductive Frame where
  | io (word : IoWord) (payload : List Byte)
  | handboxIOStatus (pumpOn : Bool)
  deriving DecidableEq

/-! ### The bytes of a word -/

/-- Little endian, as the machine stores it. -/
def wordBytes (io : BitVec 32) : List Byte :=
  [io.setWidth 8, (io >>> 8).setWidth 8, (io >>> 16).setWidth 8, (io >>> 24).setWidth 8]

def wordOfBytes : List Byte → Option (BitVec 32)
  | [a, b, c, d] => some (d ++ c ++ b ++ a)
  | _ => none

/-- `_calc_endcheck`: the sum of the first seven bytes in the last one. -/
def calcEndcheck (bytes : List Byte) : List Byte :=
  bytes.take 7 ++ [(bytes.take 7).foldl (· + ·) 0]

/-- `_trigger_send_io_1` and `_trigger_send_io_2`, with the first three of their raw bytes. -/
def triggerSendIo (word : IoWord) (rawBytes : List Byte) (io : BitVec 32) : Frame :=
  .io word (calcEndcheck (rawBytes ++ wordBytes io ++ [0]))

def triggerSendIo1 (io : BitVec 32) : Frame := triggerSendIo .machineio1 [0xED, 0x00, 0xDE] io

def triggerSendIo2 (io : BitVec 32) : Frame := triggerSendIo .machineio2 [0xDE, 0x00, 0xED] io

def triggerSendIoOutput (io : BitVec 32) : Frame :=
  .io .machineioOutput (wordBytes io ++ wordBytes 0x12345678)

def triggerSend : IoWord → BitVec 32 → Frame
  | .machineio1, io => triggerSendIo1 io
  | .machineio2, io => triggerSendIo2 io
  | .machineioOutput, io => triggerSendIoOutput io

/-- Where the word stands in the payload. -/
def offset : IoWord → ℕ
  | .machineioOutput => 0
  | _ => 3

/-- The word `word` that a frame carries. -/
def Frame.carries (word : IoWord) : Frame → Option (BitVec 32)
  | .io word' payload =>
    if word' = word then wordOfBytes ((payload.drop (offset word)).take 4) else none
  | .handboxIOStatus _ => none

theorem wordOfBytes_wordBytes (io : BitVec 32) : wordOfBytes (wordBytes io) = some io := by
  simp only [wordBytes, wordOfBytes, Option.some.injEq]
  apply BitVec.eq_of_getLsbD_eq
  intro i hi
  simp only [BitVec.getLsbD_append, BitVec.getLsbD_setWidth, BitVec.getLsbD_ushiftRight]
  by_cases h0 : i < 8
  · simp [h0]
  · by_cases h1 : i - 8 < 8
    · have e1 : 8 + (i - 8) = i := by omega
      simp [h0, h1, e1]
    · by_cases h2 : i - 8 - 8 < 8
      · have e2 : 16 + (i - 8 - 8) = i := by omega
        simp [h0, h1, h2, e2]
      · have h3 : i - 8 - 8 - 8 < 8 := by omega
        have e3 : 24 + (i - 8 - 8 - 8) = i := by omega
        simp [h0, h1, h2, h3, e3]

/-- A frame of a word carries the word. -/
theorem carries_triggerSend (word : IoWord) (io : BitVec 32) :
    (triggerSend word io).carries word = some io := by
  have h := wordOfBytes_wordBytes io
  cases word <;>
    simpa [triggerSend, triggerSendIo1, triggerSendIo2, triggerSendIoOutput, triggerSendIo,
      Frame.carries, calcEndcheck, wordBytes, offset] using h

theorem carries_triggerSend_ne {word word' : IoWord} (h : word' ≠ word) (io : BitVec 32) :
    (triggerSend word' io).carries word = none := by
  cases word' <;>
    simp [triggerSend, triggerSendIo1, triggerSendIo2, triggerSendIoOutput, triggerSendIo,
      Frame.carries, h]

/-! ### The calls -/

/-- The bits of `part` under the mask, the old ones elsewhere. -/
def withMask (io part mask : BitVec 32) : BitVec 32 := (io &&& ~~~mask) ||| (part &&& mask)

theorem withMask_outside {io part mask : BitVec 32} {i : ℕ} (h : mask.getLsbD i = false) :
    (withMask io part mask).getLsbD i = io.getLsbD i := by
  by_cases hi : i < 32
  · simp only [withMask, BitVec.getLsbD_or, BitVec.getLsbD_and, BitVec.getLsbD_not, h, hi]
    simp
  · have hge : 32 ≤ i := Nat.le_of_not_lt hi
    rw [BitVec.getLsbD_of_ge _ _ hge, BitVec.getLsbD_of_ge _ _ hge]

/-- The bits under the mask are the ones given. -/
theorem withMask_and_mask (io part mask : BitVec 32) : withMask io part mask &&& mask = part &&& mask := by
  apply BitVec.eq_of_getLsbD_eq
  intro i hi
  simp only [withMask, BitVec.getLsbD_or, BitVec.getLsbD_and, BitVec.getLsbD_not]
  cases mask.getLsbD i <;> simp

/-- The bits of another mask stay. -/
theorem withMask_and_of_disjoint {io part mask other : BitVec 32} (h : mask &&& other = 0) :
    withMask io part mask &&& other = io &&& other := by
  apply BitVec.eq_of_getLsbD_eq
  intro i hi
  have hbit : (mask.getLsbD i && other.getLsbD i) = false := by
    rw [← BitVec.getLsbD_and, h]
    exact BitVec.getLsbD_zero
  rw [BitVec.getLsbD_and, BitVec.getLsbD_and]
  cases hm : mask.getLsbD i with
  | true => simp_all
  | false => rw [withMask_outside hm]

structure Call where
  word : IoWord
  part : BitVec 32
  mask : BitVec 32

/-- What a call does to the words, taken alone. -/
def Call.apply (words : IoWord → BitVec 32) (c : Call) : IoWord → BitVec 32 :=
  Function.update words c.word (withMask (words c.word) c.part c.mask)

/-- The controller and its callers. A caller that has changed a word has a frame to send. `calls` are
the calls so far, in the order in which they had the mutex. -/
structure State (ι : Type) where
  words : IoWord → BitVec 32
  callers : ι → Option (IoWord × BitVec 32)
  sent : List Frame
  calls : List Call

inductive Action (ι : Type) where
  | update (i : ι) (c : Call)
  | send (i : ι)

variable {ι : Type}

def new : State ι := ⟨fun _ => 0, fun _ => none, [], []⟩

/-- The pump is the first output in all builds. -/
def pumpOn (io : BitVec 32) : Bool := io.getLsbD 0

namespace State

variable [DecidableEq ι]

/-- The part under the mutex. A change of the pump is told to the handbox there. -/
def update (s : State ι) (i : ι) (c : Call) : State ι :=
  match s.callers i with
  | some _ => s
  | none =>
    let io := s.words c.word
    let newIo := withMask io c.part c.mask
    if newIo = io then { s with calls := s.calls ++ [c] }
    else
      { words := Function.update s.words c.word newIo
        callers := Function.update s.callers i (some (c.word, newIo))
        sent := if c.word = .machineioOutput ∧ pumpOn io ≠ pumpOn newIo then
            s.sent ++ [.handboxIOStatus (pumpOn newIo)] else s.sent
        calls := s.calls ++ [c] }

/-- The part after the mutex is released. -/
def send (s : State ι) (i : ι) : State ι :=
  match s.callers i with
  | none => s
  | some (word, io) =>
    { s with callers := Function.update s.callers i none, sent := s.sent ++ [triggerSend word io] }

def step (s : State ι) : Action ι → State ι
  | .update i c => s.update i c
  | .send i => s.send i

/-- The word in the last frame that carries it; before the first one, the word all starts with. -/
def lastSent (s : State ι) (word : IoWord) : BitVec 32 :=
  ((s.sent.filterMap (Frame.carries word)).getLast?).getD 0

/-- A word with no frame left to be sent is what its last frame carries. -/
def Settled (s : State ι) : Prop :=
  ∀ word, (∀ i io, s.callers i ≠ some (word, io)) → s.lastSent word = s.words word

/-- A frame is sent while it carries the word as it is, or while another frame of the word is still
to come. -/
def Timely (s : State ι) : Action ι → Prop
  | .send i => ∀ word io, s.callers i = some (word, io) →
    io = s.words word ∨ ∃ j ≠ i, ∃ io', s.callers j = some (word, io')
  | .update _ _ => True

variable {s : State ι}

theorem Settled.update (h : s.Settled) (i : ι) (c : Call) : (s.update i c).Settled := by
  unfold State.update
  split
  · exact h
  · rename_i hi
    simp only
    split
    · exact h
    · intro word hnone
      have hne : word ≠ c.word := by
        rintro rfl
        exact hnone i (withMask (s.words c.word) c.part c.mask) (by simp)
      have hold : ∀ j io, s.callers j ≠ some (word, io) := by
        intro j io hj
        by_cases hji : j = i
        · rw [hji, hi] at hj
          cases hj
        · exact hnone j io (by simpa [hji] using hj)
      have hlast := h word hold
      have hsent : (if c.word = .machineioOutput ∧ pumpOn (s.words c.word) ≠
          pumpOn (withMask (s.words c.word) c.part c.mask) then s.sent ++
            [.handboxIOStatus (pumpOn (withMask (s.words c.word) c.part c.mask))] else
            s.sent).filterMap (Frame.carries word) = s.sent.filterMap (Frame.carries word) := by
        split
        · simp [Frame.carries]
        · rfl
      simp only [lastSent, hsent, Function.update_of_ne hne]
      exact hlast

theorem Settled.send_iff (h : s.Settled) (i : ι) :
    (s.send i).Settled ↔ s.Timely (.send i) := by
  unfold State.send
  split
  · rename_i hi
    exact iff_of_true h (by intro word io hio; simp [hi] at hio)
  · rename_i word io hi
    have hlast : (s.sent ++ [triggerSend word io]).filterMap (Frame.carries word) =
        s.sent.filterMap (Frame.carries word) ++ [io] := by
      simp [carries_triggerSend]
    constructor
    · intro hnext word' io' hio'
      obtain ⟨rfl, rfl⟩ : word = word' ∧ io = io' := by simpa [hi] using hio'
      by_cases hother : ∃ j ≠ i, ∃ io', s.callers j = some (word, io')
      · exact .inr hother
      · refine .inl ?_
        have hnone : ∀ j io', Function.update s.callers i none j ≠ some (word, io') := by
          intro j io' hj
          by_cases hji : j = i
          · simp [hji] at hj
          · exact hother ⟨j, hji, io', by simpa [hji] using hj⟩
        have hsettled := hnext word hnone
        simpa [lastSent, hlast] using hsettled
    · intro htimely word' hnone
      by_cases hword : word' = word
      · subst hword
        rcases htimely word' io hi with heq | ⟨j, hji, io', hj⟩
        · simp only [lastSent, hlast, List.getLast?_concat, Option.getD_some]
          exact heq
        · exact absurd (by simpa [hji] using hj) (hnone j io')
      · have hold : ∀ j io', s.callers j ≠ some (word', io') := by
          intro j io' hj
          by_cases hji : j = i
          · rw [hji, hi] at hj
            exact hword (congrArg Prod.fst (Option.some.inj hj)).symm
          · exact hnone j io' (by simpa [hji] using hj)
        have hkeep := carries_triggerSend_ne (Ne.symm hword) io
        simpa [lastSent, hkeep] using h word' hold

theorem Settled.step_iff (h : s.Settled) (a : Action ι) : (s.step a).Settled ↔ s.Timely a := by
  cases a with
  | update i c => exact iff_of_true (h.update i c) trivial
  | send i => exact h.send_iff i

theorem new_settled : (new : State ι).Settled := by
  intro word _
  rfl

/-! ### The words -/

/-- The words are what the calls so far give, one after the other. -/
def Applied (s : State ι) : Prop := s.words = s.calls.foldl Call.apply (fun _ => 0)

/-- A call does to the words what it does alone. A caller in the middle of a call makes no other. -/
theorem words_update (s : State ι) (i : ι) (c : Call) :
    (s.update i c).words = s.words ∧ (s.update i c).calls = s.calls ∨
      (s.update i c).words = c.apply s.words ∧ (s.update i c).calls = s.calls ++ [c] := by
  unfold State.update
  split
  · exact .inl ⟨rfl, rfl⟩
  · refine .inr ?_
    simp only
    split
    · rename_i hsame
      refine ⟨?_, rfl⟩
      show s.words = Function.update s.words c.word (withMask (s.words c.word) c.part c.mask)
      rw [hsame, Function.update_eq_self]
    · exact ⟨rfl, rfl⟩

theorem words_send (s : State ι) (i : ι) :
    (s.send i).words = s.words ∧ (s.send i).calls = s.calls := by
  unfold State.send
  split <;> exact ⟨rfl, rfl⟩

theorem new_applied : (new : State ι).Applied := rfl

theorem Applied.step (h : s.Applied) (a : Action ι) : (s.step a).Applied := by
  cases a with
  | update i c =>
    show (s.update i c).words = (s.update i c).calls.foldl Call.apply (fun _ => 0)
    rcases words_update s i c with ⟨hwords, hcalls⟩ | ⟨hwords, hcalls⟩
    · rw [hwords, hcalls]
      exact h
    · rw [hwords, hcalls, List.foldl_append, ← h]
      rfl
  | send i =>
    show (s.send i).words = (s.send i).calls.foldl Call.apply (fun _ => 0)
    rw [(words_send s i).1, (words_send s i).2]
    exact h

/-- A call leaves the other words alone, and of its own word the bits outside the mask. -/
theorem update_outside (s : State ι) (i : ι) (c : Call) (word : IoWord) (bit : ℕ)
    (h : word = c.word → c.mask.getLsbD bit = false) :
    ((s.update i c).words word).getLsbD bit = (s.words word).getLsbD bit := by
  rcases words_update s i c with ⟨hwords, -⟩ | ⟨hwords, -⟩
  · rw [hwords]
  · rw [hwords]
    by_cases hword : word = c.word
    · subst hword
      simp [Call.apply, withMask_outside (h rfl)]
    · simp [Call.apply, hword]

end State

open State in
/-- In every run the words are what the calls give in the order in which they had the mutex, and a
call changes no bit outside its mask. With no frame left to be sent the last one carries the word,
all along the run, exactly if each frame was sent in time. -/
theorem set_withmask [DecidableEq ι] (as : List (Action ι)) :
    (Machine.run State.step new as).words =
        (Machine.run State.step new as).calls.foldl Call.apply (fun _ => 0) ∧
      (∀ (s : State ι) (i : ι) (c : Call) (word : IoWord) (bit : ℕ),
        (word = c.word → c.mask.getLsbD bit = false) →
          ((s.step (.update i c)).words word).getLsbD bit = (s.words word).getLsbD bit) ∧
      ((∀ done, done <+: as → (Machine.run State.step new done).Settled) ↔
        Machine.AllSteps State.step Timely new as) := by
  refine ⟨?_, update_outside, ?_⟩
  · exact Machine.run_invariant (I := Applied) (fun s a h => h.step a) new_applied as
  · exact Machine.allSteps_iff (fun s a h => h.step_iff a) new_settled as

/-- Two callers set a bit each; the first to have the mutex is the last to send. -/
def overtaken : List (Action Bool) :=
  [.update false ⟨.machineioOutput, 1, 1⟩, .update true ⟨.machineioOutput, 2, 2⟩,
    .send true, .send false]

/-- All calls are over, and the machine has got the word of the first. -/
theorem overtaken_unsettled :
    let s := Machine.run State.step new overtaken
    s.callers = (fun _ => none) ∧ s.words .machineioOutput = 3 ∧ s.lastSent .machineioOutput = 1 := by
  refine ⟨?_, ?_, ?_⟩
  · funext i
    cases i <;> decide +kernel
  · decide +kernel
  · decide +kernel

end IOController

end Edm
