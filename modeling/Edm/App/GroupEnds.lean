import Edm.App.DrillLimits
import Edm.App.GroupPath
import Edm.App.ProgramFormat

/-!
# A group of lines comes to its end

The feed rate of a point passes from `Points` through the converter to the group task, which
multiplies it by the speed ratio and goes that far in a cycle. With positive feed rates the task goes
forward in every running cycle and comes to the end of its last segment (`DrivesToEnd`). Only `f`
refuses a feed rate that is not positive; `push` takes any whole number.
-/

set_option linter.unusedSectionVars false

namespace Edm

open Rs274 GCodeTaskConverter

/-! ### Feed rates -/

namespace Rs274

variable {K : Type}

/-- A feed rate given with a point is positive. -/
def PointsCall.FeedPositive : PointsCall K → Prop
  | .push _ _ given => ∀ speed ∈ given.asInt, 0 < speed.value
  | _ => True

namespace Points

variable {ps ps' : Points K} {c : PointsCall K}

/-- Every point has a positive feed rate. -/
def FeedsPositive (ps : Points K) : Prop := ∀ p ∈ ps.points, 0 < p.feedrate.value

theorem pushFeedrate_pos_iff {f : PyValue K} {feedrate : PyInt} (hp : 0 < ps.feedrate.value)
    (h : ps.pushFeedrate f = .ok feedrate) :
    0 < feedrate.value ↔ ∀ speed ∈ f.asInt, 0 < speed.value := by
  unfold pushFeedrate at h
  split at h
  · rename_i hnone
    obtain rfl := Except.ok.inj h
    have hf : f.asInt = none := by cases f <;> simp_all [PyValue.isNone, PyValue.asInt]
    simp [hf, hp]
  · split at h
    · simp at h
    · rename_i speed hspeed
      obtain rfl := Except.ok.inj h
      simp [hspeed]

/-- A call keeps the feed rate of the list positive, and the points as far as the call gives one. -/
theorem call_feedsPositive_iff (hp : 0 < ps.feedrate.value) (h : ps.call c = .ok ps') :
    0 < ps'.feedrate.value ∧ (ps'.FeedsPositive ↔ ps.FeedsPositive ∧ c.FeedPositive) := by
  cases c with
  | g90 | g91 =>
    obtain rfl := Except.ok.inj h
    exact ⟨hp, by simp [FeedsPositive, PointsCall.FeedPositive]⟩
  | f speed =>
    simp only [call] at h
    split at h
    · simp at h
    · split at h
      · simp at h
      · rename_i hpos
        obtain rfl := Except.ok.inj h
        exact ⟨not_le.mp hpos, by simp [FeedsPositive, PointsCall.FeedPositive]⟩
  | push site coords f =>
    simp only [call] at h
    split at h
    · simp at h
    · simp only [Except.bind_eq_ok] at h
      obtain ⟨coordinates, -, feedrate, hfeed, h⟩ := h
      obtain rfl := Except.ok.inj h
      refine ⟨hp, ?_⟩
      simp only [FeedsPositive, PointsCall.FeedPositive, List.mem_append, List.mem_singleton,
        or_imp, forall_and, forall_eq, pushFeedrate_pos_iff hp hfeed]

theorem feedsPositive_iff {calls : List (PointsCall K)} (h : make calls = .ok ps) :
    ps.FeedsPositive ↔ ∀ c ∈ calls, c.FeedPositive := by
  have hfold (calls : List (PointsCall K)) (ps ps' : Points K) (hp : 0 < ps.feedrate.value)
      (h : calls.foldlM call ps = .ok ps') :
      ps'.FeedsPositive ↔ ps.FeedsPositive ∧ ∀ c ∈ calls, c.FeedPositive := by
    induction calls generalizing ps with
    | nil =>
      obtain rfl := Except.ok.inj h
      simp
    | cons c calls ih =>
      simp only [List.foldlM_cons, Except.bind_eq_ok] at h
      obtain ⟨ps₁, hcall, h⟩ := h
      obtain ⟨hp₁, hiff⟩ := call_feedsPositive_iff hp hcall
      rw [ih ps₁ hp₁ h, hiff, List.forall_mem_cons, and_assoc]
  rw [hfold calls .new ps (show (0 : ℤ) < 1 by decide) h]
  simp [FeedsPositive, new]

end Points

end Rs274

section Converter

variable {K : Type} [Field K] {lib : Json.Reader K}

/-- The converter takes over the feed rate of a point. -/
theorem feedrate_of_makeG01GroupPoint (h : lib.Faithful)
    (hwhole : ∀ {n m : ℤ}, lib.asInteger (.int n) = some m → m = n) {p : Point K}
    {q : G01GroupPoint K} (hq : makeG01GroupPoint lib (RS274Interpreter.pointJson p) = some q) :
    q.feedrate = p.feedrate.value := by
  simp only [makeG01GroupPoint, Option.bind_eq_bind, Option.bind_eq_some_iff,
    Option.some.injEq] at hq
  obtain ⟨item, hitem, mode, -, line, -, values, -, feedrate, hfeed, rfl⟩ := hq
  obtain rfl := Option.some.inj hitem
  have hfeed : lib.asInteger p.feedrate.toJson = some feedrate := hfeed
  cases hp : p.feedrate with
  | bool b =>
    rw [hp, PyInt.toJson, h.asInteger_other rfl] at hfeed
    simp at hfeed
  | int n =>
    rw [hp, PyInt.toJson] at hfeed
    exact hwhole hfeed

theorem feedrate_pos_of_mapM (h : lib.Faithful)
    (hwhole : ∀ {n m : ℤ}, lib.asInteger (.int n) = some m → m = n) {ps : List (Point K)}
    {points : List (G01GroupPoint K)}
    (hm : (ps.map RS274Interpreter.pointJson).mapM (makeG01GroupPoint lib) = some points)
    (hp : ∀ p ∈ ps, 0 < p.feedrate.value) : ∀ q ∈ points, 0 < q.feedrate := by
  induction ps generalizing points with
  | nil =>
    obtain rfl : points = [] := by simpa using hm.symm
    simp
  | cons p ps ih =>
    simp only [List.map_cons, List.mapM_cons, Option.bind_eq_bind, Option.bind_eq_some_iff,
      Option.pure_def, Option.some.injEq] at hm
    obtain ⟨q, hq, points', hrest, rfl⟩ := hm
    rw [List.forall_mem_cons] at hp ⊢
    exact ⟨feedrate_of_makeG01GroupPoint h hwhole hq ▸ hp.1, ih hrest hp.2⟩

end Converter

/-! ### A step forward -/

variable {K : Type} [Field K] [LinearOrder K] [RealFns K]

namespace TrajectoryList

/-- The way made along the chain. -/
def travelled (t : TrajectoryList K) : K := (t.before.map (·.totalLength)).sum + t.curr.currLength

/-- The way left along the chain. -/
def remaining (t : TrajectoryList K) : K :=
  t.curr.totalLength - t.curr.currLength + (t.after.map (·.totalLength)).sum

/-- The current segment is not at its end, unless it has no length. -/
def Open (t : TrajectoryList K) : Prop :=
  t.curr.currLength < t.curr.totalLength ∨ t.curr.totalLength = 0

variable {t : TrajectoryList K} {inc δ : K}

/-- A step forward stays in the current segment or enters the next. -/
theorem runOnce_forward (hinc : 0 < inc) :
    ((t.after = [] ∨ ¬(t.curr.runOnce inc).atEnd) ∧
      t.runOnce inc = { t with curr := t.curr.runOnce inc }) ∨
    ∃ next rest, t.after = next :: rest ∧ (t.curr.runOnce inc).atEnd ∧
      t.runOnce inc = ⟨t.curr.runOnce inc :: t.before, next.setAtStart, rest⟩ := by
  simp only [TrajectoryList.runOnce, gt_iff_lt, hinc, if_true]
  split
  · rename_i hend
    split
    · rename_i hnil
      exact .inl ⟨.inl hnil, rfl⟩
    · rename_i next rest heq
      exact .inr ⟨next, rest, heq, hend, rfl⟩
  · rename_i hend
    exact .inl ⟨.inr hend, rfl⟩

variable [IsStrictOrderedRing K] [LawfulSqrt K]

/-- A step forward within a segment goes as far as the increment or the segment. -/
theorem runOnce_currLength (hl : t.curr.OnLine) (hinc : 0 < inc) :
    (t.curr.runOnce inc).currLength = min (t.curr.currLength + inc) t.curr.totalLength := by
  have h0 := hl.nonneg
  show t.curr.validate (t.curr.currLength + inc) = _
  unfold TrajectoryLinearSegement.validate
  split
  · rename_i hgt
    exact (min_eq_right hgt.le).symm
  · rename_i hle
    rw [if_neg (by linarith), min_eq_left (not_lt.mp hle)]

theorem remaining_nonneg (h : t.Linked) : 0 ≤ t.remaining := by
  have hcurr := h.curr.le_total
  have hsum : 0 ≤ (t.after.map (·.totalLength)).sum := by
    refine List.sum_nonneg fun x hx => ?_
    obtain ⟨l, hl, rfl⟩ := List.mem_map.mp hx
    exact (h.proper l (by simp [hl])).total_nonneg
  unfold remaining
  linarith

/-- After a step forward that does not reach the end of the chain the current segment is open again. -/
theorem Open.runOnce (h : t.Linked) (hinc : 0 < inc) (he : (t.runOnce inc).atEnd = false) :
    (t.runOnce inc).Open := by
  rcases runOnce_forward (t := t) hinc with ⟨hstay, heq⟩ | ⟨next, rest, hafter, -, heq⟩
  · rw [heq] at he ⊢
    have hnot : ¬(t.curr.runOnce inc).atEnd := by
      rcases hstay with hnil | hnot
      · simpa [atEnd, atEndSegement, hnil] using he
      · exact hnot
    exact .inl (by simpa [TrajectoryLinearSegement.atEnd] using hnot)
  · rw [heq]
    have hnext : 0 ≤ next.totalLength := (h.proper next (by simp [hafter])).total_nonneg
    exact hnext.lt_or_eq.imp_right Eq.symm

/-- A step forward gets on, unless the segment has no length. -/
theorem travelled_lt (h : t.Linked) (ho : t.Open) (hinc : 0 < inc) :
    t.travelled < (t.runOnce inc).travelled ∨ t.curr.totalLength = 0 := by
  refine ho.imp_left fun hlt => ?_
  have hlen := runOnce_currLength h.curr hinc
  have hgrow : t.curr.currLength < (t.curr.runOnce inc).currLength := by
    rw [hlen, lt_min_iff]
    exact ⟨by linarith, hlt⟩
  rcases runOnce_forward (t := t) hinc with ⟨-, heq⟩ | ⟨next, rest, -, hend, heq⟩
  · rw [heq]
    unfold travelled
    linarith
  · have hat := (h.curr.runOnce inc).currLength_of_atEnd hend
    rw [heq]
    simp only [travelled, List.map_cons, List.sum_cons, TrajectoryLinearSegement.setAtStart]
    linarith

variable [FloorRing K]

/-- The steps of at least `δ` it can take to the end of the chain. -/
def stepsLeft (δ : K) (t : TrajectoryList K) : ℕ := ⌈t.remaining / δ⌉₊ + t.after.length + 1

theorem ceil_sub_lt {x y : K} (hδ : 0 < δ) (hx : x + δ ≤ y) (h0 : 0 ≤ x) :
    ⌈x / δ⌉₊ + 1 ≤ ⌈y / δ⌉₊ := by
  have hle : x / δ + 1 ≤ y / δ := by
    rw [← div_self hδ.ne', ← add_div]
    exact (div_le_div_iff_of_pos_right hδ).mpr hx
  rw [← Nat.ceil_add_one (div_nonneg h0 hδ.le)]
  exact Nat.ceil_mono hle

/-- A step forward leaves fewer steps to take, as long as it does not reach the end. -/
theorem stepsLeft_runOnce (h : t.Linked) (hδ : 0 < δ) (hinc : δ ≤ inc)
    (he : (t.runOnce inc).atEnd = false) : (t.runOnce inc).stepsLeft δ < t.stepsLeft δ := by
  have hpos : 0 < inc := hδ.trans_le hinc
  have hlen := runOnce_currLength h.curr hpos
  rcases runOnce_forward (t := t) hpos with ⟨hstay, heq⟩ | ⟨next, rest, hafter, -, heq⟩
  · -- the whole increment is made within the segment
    have hnot : ¬(t.curr.runOnce inc).atEnd := by
      rcases hstay with hnil | hnot
      · rw [heq] at he
        simpa [atEnd, atEndSegement, hnil] using he
      · exact hnot
    have hlt : (t.curr.runOnce inc).currLength < t.curr.totalLength := by
      show _ < (t.curr.runOnce inc).totalLength
      simpa [TrajectoryLinearSegement.atEnd] using hnot
    rw [hlen, min_lt_iff, lt_self_iff_false, or_false] at hlt
    rw [min_eq_left hlt.le] at hlen
    have hrem : (t.runOnce inc).remaining + inc = t.remaining := by
      rw [heq]
      simp only [remaining, hlen]
      show t.curr.totalLength - _ + _ + _ = _
      ring
    have hstep := ceil_sub_lt hδ (x := (t.runOnce inc).remaining) (y := t.remaining) (by linarith)
      (remaining_nonneg (h.runOnce inc).1)
    have hafter : (t.runOnce inc).after = t.after := by rw [heq]
    simp only [stepsLeft, hafter]
    omega
  · have hcurr := h.curr.le_total
    have hrem : (t.runOnce inc).remaining ≤ t.remaining := by
      rw [heq]
      simp only [remaining, hafter, List.map_cons, List.sum_cons,
        TrajectoryLinearSegement.setAtStart]
      linarith
    have hceil : ⌈(t.runOnce inc).remaining / δ⌉₊ ≤ ⌈t.remaining / δ⌉₊ :=
      Nat.ceil_mono ((div_le_div_iff_of_pos_right hδ).mpr hrem)
    have hcount : (t.runOnce inc).after.length < t.after.length := by
      rw [heq, hafter]
      simp
    simp only [stepsLeft]
    omega

end TrajectoryList

/-! ### The run -/

namespace GroupRun

variable [Settings]

/-- The increment of a cycle on the segment of `item`. -/
def servoDis (item : G01GroupItem K) (sh : MotionShared K) : K :=
  UnitConverter.mmMin2bluP (item.feedrate : K) * sh.g01SpeedRatio

/-- No command of the run sets the speed ratio below `ρ`. -/
def RatioAtLeast (ρ : K) (_ : GroupRun K) : Action K → Prop
  | .setG01SpeedRatio ratio => ρ ≤ ratio
  | _ => True

/-- A cycle of a task that is running. -/
def isRunningCycle (s : GroupRun K) : Action K → Bool
  | .runOnce => s.task.state = .normalMoving
  | _ => false

/-- Running on the segment with the given index. -/
def RunsOn (s : GroupRun K) (index : ℕ) : Prop :=
  s.task.state = .normalMoving ∧ ∃ traj, s.task.trajList = some traj ∧ traj.currSegementIndex = index

/-- What a running cycle does: it goes forward by a positive increment, which gets on along the chain
unless the segment has no length, shows the line of the segment it runs on, and comes to the end of the
chain, stays in the segment or enters the next. -/
def GoesForward (s : GroupRun K) : Prop :=
  ∃ traj item, s.task.trajList = some traj ∧ s.task.items[traj.currSegementIndex]? = some item ∧
    let inc := servoDis item s.shared
    let traj' := traj.runOnce inc
    0 < inc ∧ (s.step .runOnce).task.trajList = some traj' ∧
      (s.step .runOnce).shared.globalCmdAxis = traj'.currCmdAxis ∧
      (s.step .runOnce).shared.subLineNum = item.line ∧
      (traj.travelled < traj'.travelled ∨ traj.curr.totalLength = 0) ∧
      ((s.step .runOnce).task.isStopped ∨ (s.step .runOnce).task.state = .normalMoving ∧
        (traj'.currSegementIndex = traj.currSegementIndex ∧ traj.travelled < traj'.travelled ∨
          traj'.currSegementIndex = traj.currSegementIndex + 1))

/-- In every run in which nobody stops the task and the speed ratio stays at `ρ` or more, every running
cycle goes forward, their number is bounded, so many cycles lead to the end, and at the end every segment
with a length has been run on. -/
def DrivesToEnd (items : List (G01GroupItem K)) : Prop :=
  ∀ (sh : MotionShared K) (ρ : K), 0 < ρ → ρ ≤ sh.g01SpeedRatio →
    ∃ N, ∀ actions, Machine.AllSteps step (RatioAtLeast ρ) (start items sh) actions →
      let s := Machine.run step (start items sh) actions
      Machine.stepsWhere step isRunningCycle (start items sh) actions ≤ N ∧
        (s.task.state = .normalMoving → s.GoesForward ∧
          ∃ k ≤ N, (Machine.run step s (List.replicate k .runOnce)).task.isStopped) ∧
        (s.task.isStopped → ∀ index seg,
          (G01GroupAutoTask.segements sh.globalCmdAxis items)[index]? = some seg →
            0 < seg.totalLength → ∃ before after, actions = before ++ .runOnce :: after ∧
              (Machine.run step (start items sh) before).RunsOn index)

variable {items : List (G01GroupItem K)} {firstPos : Axis K} {ρ : K} {s : GroupRun K}

/-- The ends of the segments of `items`. -/
def segementEnds (firstPos : Axis K) (items : List (G01GroupItem K)) : List (Axis K × Axis K) :=
  (G01GroupAutoTask.segements firstPos items).map fun l => (l.startPos, l.endPos)

/-- A task on its way through the segments of `items`. -/
structure Ahead (firstPos : Axis K) (items : List (G01GroupItem K)) (ρ : K) (s : GroupRun K) :
    Prop where
  items_eq : s.task.items = items
  ratio : ρ ≤ s.shared.g01SpeedRatio
  walks : s.Walks (segementEnds firstPos items)
  isOpen : ∀ traj, s.task.trajList = some traj → s.task.state ≠ .stopped → traj.Open

/-- Whether the task is over with the segment of this index; it may be over as soon as it enters a last
segment without a length. -/
def Passed (index : ℕ) (s : GroupRun K) : Prop :=
  ∃ traj, s.task.trajList = some traj ∧ (index < traj.currSegementIndex ∨
    s.task.state = .stopped ∧ index = traj.currSegementIndex ∧ 0 < traj.curr.totalLength)

theorem segements_length (firstPos : Axis K) (items : List (G01GroupItem K)) :
    (G01GroupAutoTask.segements firstPos items).length = items.length := by
  induction items generalizing firstPos with
  | nil => rfl
  | cons item items ih => exact congrArg (· + 1) (ih _)

variable [IsStrictOrderedRing K] [LawfulSqrt K]

/-- The smallest increment: that of the feed rate 1. -/
theorem le_servoDis {item : G01GroupItem K} {sh : MotionShared K} (hf : 0 < item.feedrate)
    (hρ : 0 < ρ) (hr : ρ ≤ sh.g01SpeedRatio) :
    0 < UnitConverter.mmMin2bluP_ * ρ ∧ UnitConverter.mmMin2bluP_ * ρ ≤ servoDis item sh := by
  have hc : (0 : K) < UnitConverter.mmMin2bluP_ := DrillSystem.mmMin2bluP_pos
  have hone : (1 : K) ≤ item.feedrate := by exact_mod_cast hf
  refine ⟨mul_pos hc hρ, ?_⟩
  calc UnitConverter.mmMin2bluP_ * ρ
      ≤ UnitConverter.mmMin2bluP_ * sh.g01SpeedRatio := mul_le_mul_of_nonneg_left hr hc.le
    _ ≤ (item.feedrate : K) * (UnitConverter.mmMin2bluP_ * sh.g01SpeedRatio) :=
        le_mul_of_one_le_left (mul_nonneg hc.le (hρ.le.trans hr)) hone
    _ = servoDis item sh := by
        unfold servoDis UnitConverter.mmMin2bluP
        ring

theorem Ahead.length_all (h : s.Ahead firstPos items ρ) {traj : TrajectoryList K}
    (ht : s.task.trajList = some traj) : traj.all.length = items.length := by
  obtain ⟨-, traj', ht', -, he, -⟩ := h.walks
  obtain rfl := Option.some.inj (ht.symm.trans ht')
  have hlen := congrArg List.length he
  rwa [TrajectoryList.ends, List.length_map, segementEnds, List.length_map,
    segements_length] at hlen

/-- A running cycle takes one step along the chain. -/
theorem Ahead.running_cycle (h : s.Ahead firstPos items ρ) (hrun : s.task.state = .normalMoving) :
    ∃ traj item, s.task.trajList = some traj ∧ item ∈ items ∧
      items[traj.currSegementIndex]? = some item ∧ traj.Linked ∧ traj.Open ∧
      let traj' := traj.runOnce (servoDis item s.shared)
      s.step .runOnce =
        ⟨{ s.task with
            trajList := some traj'
            state := if traj'.atEnd then .stopped else .normalMoving },
          (s.shared.setSubLineNum item.line).setGlobalCmdAxis traj'.currCmdAxis⟩ := by
  obtain ⟨-, traj, ht, hl, -⟩ := h.walks
  have hlt : traj.currSegementIndex < items.length := by
    rw [← h.length_all ht]
    simp [TrajectoryList.all, TrajectoryList.currSegementIndex]
  refine ⟨traj, items[traj.currSegementIndex], ht, List.getElem_mem hlt,
    List.getElem?_eq_getElem hlt, hl, h.isOpen traj ht (by simp [hrun]), ?_⟩
  have hitem : s.task.items[traj.currSegementIndex]? = some items[traj.currSegementIndex] := by
    rw [h.items_eq]
    exact List.getElem?_eq_getElem hlt
  simp only [step, G01GroupAutoTask.runOnce, hrun, G01GroupAutoTask.stateNormalRunning, ht, hitem]
  split
  · rename_i hend
    have hend : (traj.runOnce (servoDis items[traj.currSegementIndex] s.shared)).atEnd = true := hend
    rw [hend]
    rfl
  · rename_i hend
    have hend : (traj.runOnce (servoDis items[traj.currSegementIndex] s.shared)).atEnd = false :=
      Bool.eq_false_of_not_eq_true hend
    rw [hend]
    simp only [Bool.false_eq_true, if_false, ← hrun]
    rfl

omit [IsStrictOrderedRing K] [LawfulSqrt K] in
/-- Anything but a running cycle leaves the chain and does not end the task. -/
theorem step_of_not_running {a : Action K} (hns : s.task.state ≠ .stopping)
    (hrun : s.isRunningCycle a = false) :
    (s.step a).task.trajList = s.task.trajList ∧ (s.step a).task.items = s.task.items ∧
      ((s.step a).task.state = .stopped ↔ s.task.state = .stopped) := by
  cases a with
  | setG01SpeedRatio ratio => exact ⟨rfl, rfl, Iff.rfl⟩
  | pause =>
    simp only [step, G01GroupAutoTask.pause]
    cases hs : s.task.state <;> simp [hs]
  | resume =>
    simp only [step, G01GroupAutoTask.resume]
    cases hs : s.task.state <;> simp [hs]
  | runOnce =>
    simp only [step, G01GroupAutoTask.runOnce]
    cases hs : s.task.state <;> simp_all [isRunningCycle]

theorem Ahead.step (h : s.Ahead firstPos items ρ) (hf : ∀ item ∈ items, 0 < item.feedrate) (hρ : 0 < ρ)
    {a : Action K} (ha : RatioAtLeast ρ s a) : (s.step a).Ahead firstPos items ρ := by
  have hwalks := h.walks.step a
  cases hrun : s.isRunningCycle a with
  | false =>
    obtain ⟨htraj, hitems, hstop⟩ := step_of_not_running h.walks.1 hrun
    refine ⟨hitems.trans h.items_eq, ?_, hwalks, ?_⟩
    · cases a with
      | setG01SpeedRatio ratio => exact ha
      | pause | resume => exact h.ratio
      | runOnce =>
        simp only [GroupRun.step, G01GroupAutoTask.runOnce]
        cases hs : s.task.state with
        | normalMoving => simp [isRunningCycle, hs] at hrun
        | _ => exact h.ratio
    · rw [htraj, ne_eq, hstop]
      exact h.isOpen
  | true =>
    cases a with
    | runOnce =>
      have hrun : s.task.state = .normalMoving := by simpa [isRunningCycle] using hrun
      obtain ⟨traj, item, -, hmem, -, hl, -, hstep⟩ := h.running_cycle hrun
      obtain ⟨hδ, hinc⟩ := le_servoDis (hf item hmem) hρ h.ratio
      rw [hstep] at hwalks ⊢
      refine ⟨h.items_eq, h.ratio, hwalks, fun traj' ht' hns => ?_⟩
      obtain rfl := Option.some.inj ht'
      refine TrajectoryList.Open.runOnce hl (hδ.trans_le hinc) ?_
      cases hend : (traj.runOnce (servoDis item s.shared)).atEnd with
      | false => rfl
      | true => simp [hend] at hns
    | _ => simp [isRunningCycle] at hrun

/-- What a running cycle of a task on its way does. -/
theorem Ahead.goesForward (h : s.Ahead firstPos items ρ) (hf : ∀ item ∈ items, 0 < item.feedrate)
    (hρ : 0 < ρ) (hrun : s.task.state = .normalMoving) : s.GoesForward := by
  obtain ⟨traj, item, ht, hmem, hitem, hl, ho, hstep⟩ := h.running_cycle hrun
  obtain ⟨hδ, hinc⟩ := le_servoDis (hf item hmem) hρ h.ratio
  have hpos := hδ.trans_le hinc
  have htrav := TrajectoryList.travelled_lt hl ho hpos
  refine ⟨traj, item, ht, h.items_eq ▸ hitem, hpos, ?_⟩
  rw [hstep]
  refine ⟨rfl, rfl, rfl, htrav, ?_⟩
  cases hend : (traj.runOnce (servoDis item s.shared)).atEnd with
  | true => exact .inl (by simp [G01GroupAutoTask.isStopped])
  | false =>
    refine .inr ⟨by simp, ?_⟩
    rcases TrajectoryList.runOnce_forward (t := traj) hpos with
      ⟨hstay, heq⟩ | ⟨next, rest, -, -, heq⟩
    · -- a segment that is not left has a length
      refine .inl ⟨by rw [heq]; rfl, htrav.resolve_right fun hzero => ?_⟩
      have hopen := ho
      have hat : (traj.curr.runOnce (servoDis item s.shared)).atEnd = true := by
        have hlen := TrajectoryList.runOnce_currLength hl.curr hpos
        have h0 := hl.curr.nonneg
        simp only [TrajectoryLinearSegement.atEnd, decide_eq_true_eq, ge_iff_le, hlen]
        show traj.curr.totalLength ≤ _
        rw [le_min_iff]
        exact ⟨by linarith, le_rfl⟩
      rw [heq] at hend
      rcases hstay with hnil | hnot
      · simp [TrajectoryList.atEnd, TrajectoryList.atEndSegement, hnil, hat] at hend
      · exact hnot hat
    · exact .inr (by rw [heq]; simp [TrajectoryList.currSegementIndex])

/-- Only a running cycle on a segment passes it. -/
theorem Ahead.passed_step (h : s.Ahead firstPos items ρ) (hf : ∀ item ∈ items, 0 < item.feedrate)
    (hρ : 0 < ρ) {a : Action K} {index : ℕ} (hp : (s.step a).Passed index) :
    s.Passed index ∨ s.isRunningCycle a = true ∧ s.RunsOn index := by
  cases hrun : s.isRunningCycle a with
  | false =>
    obtain ⟨htraj, -, hstop⟩ := step_of_not_running h.walks.1 hrun
    simp only [Passed, htraj, hstop] at hp
    exact .inl hp
  | true =>
    cases a with
    | runOnce =>
      have hrun : s.task.state = .normalMoving := by simpa [isRunningCycle] using hrun
      obtain ⟨traj, item, ht, hmem, -, hl, -, hstep⟩ := h.running_cycle hrun
      obtain ⟨hδ, hinc⟩ := le_servoDis (hf item hmem) hρ h.ratio
      obtain ⟨traj', ht', hindex⟩ := hp
      rw [hstep] at ht' hindex
      obtain rfl := Option.some.inj ht'
      by_cases hlt : index < traj.currSegementIndex
      · exact .inl ⟨traj, ht, .inl hlt⟩
      refine .inr ⟨rfl, hrun, traj, ht, ?_⟩
      rcases TrajectoryList.runOnce_forward (t := traj) (hδ.trans_le hinc) with
        ⟨-, heq⟩ | ⟨next, rest, -, -, heq⟩
      · have hsame : (traj.runOnce (servoDis item s.shared)).currSegementIndex =
            traj.currSegementIndex := by rw [heq]; rfl
        omega
      · have hnext : (traj.runOnce (servoDis item s.shared)).currSegementIndex =
            traj.currSegementIndex + 1 := by rw [heq]; simp [TrajectoryList.currSegementIndex]
        rcases hindex with hindex | ⟨hstop, hindex, hlen⟩
        · omega
        · -- a last segment that is over when it is entered has no length
          have hat : (traj.runOnce (servoDis item s.shared)).atEnd = true := by
            by_contra hnot
            simp [hnot] at hstop
          rw [heq] at hat hlen
          simp only [TrajectoryList.atEnd, Bool.and_eq_true, TrajectoryLinearSegement.atEnd,
            TrajectoryLinearSegement.setAtStart] at hat
          exact absurd hlen (not_lt.mpr (of_decide_eq_true hat.2))
    | _ => simp [isRunningCycle] at hrun

variable [FloorRing K]

/-- The running cycles it can take to the end. -/
def cyclesLeft (δ : K) (s : GroupRun K) : ℕ :=
  if s.task.state = .stopped then 0 else (s.task.trajList.map (·.stepsLeft δ)).getD 0

/-- A step takes none of the cycles left, a running cycle at least one. -/
theorem Ahead.cyclesLeft_step (h : s.Ahead firstPos items ρ)
    (hf : ∀ item ∈ items, 0 < item.feedrate) (hρ : 0 < ρ) (a : Action K) :
    (s.step a).cyclesLeft (UnitConverter.mmMin2bluP_ * ρ) + (s.isRunningCycle a).toNat ≤
      s.cyclesLeft (UnitConverter.mmMin2bluP_ * ρ) := by
  cases hrun : s.isRunningCycle a with
  | false =>
    obtain ⟨htraj, -, hstop⟩ := step_of_not_running h.walks.1 hrun
    simp only [cyclesLeft, htraj, hstop]
    exact le_rfl
  | true =>
    cases a with
    | runOnce =>
      have hrun : s.task.state = .normalMoving := by simpa [isRunningCycle] using hrun
      obtain ⟨traj, item, ht, hmem, -, hl, -, hstep⟩ := h.running_cycle hrun
      obtain ⟨hδ, hinc⟩ := le_servoDis (hf item hmem) hρ h.ratio
      simp only [cyclesLeft, hstep, ht, hrun, reduceCtorEq, if_false, Option.map_some,
        Option.getD_some]
      cases hend : (traj.runOnce (servoDis item s.shared)).atEnd with
      | true =>
        simp only [if_true, Bool.toNat_true, zero_add]
        unfold TrajectoryList.stepsLeft
        omega
      | false =>
        have hlt := TrajectoryList.stepsLeft_runOnce hl hδ hinc hend
        simp only [Bool.false_eq_true, if_false, reduceCtorEq, Bool.toNat_true]
        omega
    | _ => simp [isRunningCycle] at hrun

omit [IsStrictOrderedRing K] [LawfulSqrt K] [FloorRing K] in
/-- A task that is over stays over, without a running cycle. -/
theorem step_of_stopped (hs : s.task.state = .stopped) (a : Action K) :
    (s.step a).task.state = .stopped ∧ s.isRunningCycle a = false := by
  cases a <;> simp [step, G01GroupAutoTask.pause, G01GroupAutoTask.resume,
    G01GroupAutoTask.runOnce, isRunningCycle, hs]

omit [IsStrictOrderedRing K] [LawfulSqrt K] [FloorRing K] in
/-- A group without items is over from the start. -/
theorem drivesToEnd_nil : DrivesToEnd ([] : List (G01GroupItem K)) := by
  intro sh ρ _ _
  refine ⟨0, fun actions hC => ⟨?_, fun hrun => ?_, fun _ index seg hseg => ?_⟩⟩
  · have hbound := Machine.AllSteps.measure_add_stepsWhere_le (μ := fun _ : GroupRun K => 0)
      (I := fun s : GroupRun K => s.task.state = .stopped) (p := isRunningCycle)
      (fun s a hs _ => (step_of_stopped hs a).1)
      (fun s a hs _ => by simp [(step_of_stopped hs a).2]) rfl hC
    exact (Nat.le_add_left _ _).trans hbound
  · have hover := Machine.run_invariant (I := fun s : GroupRun K => s.task.state = .stopped)
      (fun s a hs => (step_of_stopped hs a).1) (s := start [] sh) rfl actions
    rw [hover] at hrun
    simp at hrun
  · simp [G01GroupAutoTask.segements] at hseg

theorem start_ahead {sh : MotionShared K} (hitems : items ≠ []) (hr : ρ ≤ sh.g01SpeedRatio) :
    (start items sh).Ahead sh.globalCmdAxis items ρ ∧
      ∃ traj, (start items sh).task.trajList = some traj ∧ traj.currSegementIndex = 0 ∧
        (start items sh).task.state = .normalMoving := by
  have hne : G01GroupAutoTask.segements sh.globalCmdAxis items ≠ [] := by
    intro hnil
    have hlen := segements_length sh.globalCmdAxis items
    rw [hnil] at hlen
    exact hitems (List.eq_nil_of_length_eq_zero hlen.symm)
  obtain ⟨seg, rest, hseg⟩ := List.exists_cons_of_ne_nil hne
  have hnew : G01GroupAutoTask.new items sh = (⟨items, some ⟨[], seg, rest⟩, .normalMoving⟩, sh) := by
    unfold G01GroupAutoTask.new
    rw [hseg]
    rfl
  have hopen : (G01GroupAutoTask.new items sh).1.isOver = false := by
    rw [hnew]
    rfl
  have hwalks := start_walks hopen
  unfold start at hwalks ⊢
  rw [hnew] at hwalks ⊢
  refine ⟨⟨rfl, hr, hwalks, fun traj ht _ => ?_⟩, _, rfl, rfl, rfl⟩
  obtain rfl := Option.some.inj ht
  -- a fresh segment stands at its start
  have hon : seg.OnLine := segements_onLine (hseg ▸ List.mem_cons_self)
  have hzero : seg.currLength = 0 := by
    cases items with
    | nil => exact absurd rfl hitems
    | cons item items =>
      simp only [G01GroupAutoTask.segements, List.cons.injEq] at hseg
      rw [← hseg.1]
      rfl
  show seg.currLength < seg.totalLength ∨ seg.totalLength = 0
  rw [hzero]
  exact hon.total_nonneg.lt_or_eq.imp_right Eq.symm

/-- At the end every segment with a length is passed. -/
theorem Ahead.passed_of_stopped (h : s.Ahead firstPos items ρ) (hstop : s.task.isStopped)
    {index : ℕ} {seg : TrajectoryLinearSegement K}
    (hseg : (G01GroupAutoTask.segements firstPos items)[index]? = some seg)
    (hlen : 0 < seg.totalLength) : s.Passed index := by
  have hstop : s.task.state = .stopped := by simpa [G01GroupAutoTask.isStopped] using hstop
  obtain ⟨-, traj, ht, hl, he, -, hover⟩ := h.walks
  obtain ⟨hlast, -⟩ := Bool.and_eq_true_iff.mp (hover hstop)
  have hnil : traj.after = [] := by simpa [TrajectoryList.atEndSegement] using hlast
  have hindex : index < traj.before.length + 1 := by
    have hall := h.length_all ht
    have hlt := (List.getElem?_eq_some_iff.mp hseg).1
    rw [segements_length] at hlt
    simp only [TrajectoryList.all, hnil, List.length_append, List.length_reverse,
      List.length_cons, List.length_nil] at hall
    omega
  refine ⟨traj, ht, (Nat.lt_succ_iff_lt_or_eq.mp hindex).imp_right fun heq => ⟨hstop, heq, ?_⟩⟩
  -- the current segment is the last of those the task was built from
  have hends := congrArg (·[index]?) he
  obtain rfl : index = traj.before.length := heq
  simp only [TrajectoryList.ends, TrajectoryList.all, hnil, segementEnds, List.getElem?_map, hseg,
    Option.map_some, List.map_append, List.map_reverse, List.map_cons, List.map_nil] at hends
  rw [List.getElem?_append_right (by simp)] at hends
  simp only [List.length_reverse, List.length_map, Nat.sub_self, List.getElem?_cons_zero,
    Option.some.injEq, Prod.mk.injEq] at hends
  rw [hl.curr.totalLength, hends.1, hends.2]
  rwa [(segements_onLine (List.mem_of_getElem? hseg)).totalLength] at hlen

/-- A group of positive feed rates drives to its end. -/
theorem drivesToEnd_of_pos (hf : ∀ item ∈ items, 0 < item.feedrate) : DrivesToEnd items := by
  intro sh ρ hρ hr
  by_cases hitems : items = []
  · subst hitems
    exact drivesToEnd_nil sh ρ hρ hr
  obtain ⟨hstart, traj, htraj, hindex, hrun⟩ := start_ahead hitems hr
  have hkeep (s : GroupRun K) (a : Action K) (h : s.Ahead sh.globalCmdAxis items ρ)
      (ha : RatioAtLeast ρ s a) : (s.step a).Ahead sh.globalCmdAxis items ρ := h.step hf hρ ha
  let δ : K := UnitConverter.mmMin2bluP_ * ρ
  refine ⟨(start items sh).cyclesLeft δ, fun actions hC => ?_⟩
  have hend := hC.invariant hkeep hstart
  have hbound := hC.measure_add_stepsWhere_le hkeep
    (fun s a h _ => h.cyclesLeft_step hf hρ a) hstart
  refine ⟨(Nat.le_add_left _ _).trans hbound, fun hmoving => ⟨hend.goesForward hf hρ hmoving, ?_⟩,
    fun hstop index seg hseg hlen => ?_⟩
  · have hcycle (s : GroupRun K)
        (hs : s.Ahead sh.globalCmdAxis items ρ ∧ s.task.state = .normalMoving) :
        (s.step .runOnce).task.isStopped ∧ 0 < s.cyclesLeft δ ∨
          ((s.step .runOnce).Ahead sh.globalCmdAxis items ρ ∧
            (s.step .runOnce).task.state = .normalMoving) ∧
            (s.step .runOnce).cyclesLeft δ < s.cyclesLeft δ := by
      have hless := hs.1.cyclesLeft_step hf hρ .runOnce
      have hrunning : s.isRunningCycle .runOnce = true := by simp [isRunningCycle, hs.2]
      rw [hrunning, Bool.toNat_true] at hless
      obtain ⟨-, -, -, -, -, -, -, -, -, hover | ⟨hgo, -⟩⟩ := hs.1.goesForward hf hρ hs.2
      · exact .inl ⟨hover, (Nat.zero_le _).trans_lt hless⟩
      · exact .inr ⟨⟨hs.1.step hf hρ trivial, hgo⟩, hless⟩
    obtain ⟨k, hk, hstop⟩ := Machine.exists_replicate_of_measure
      (I := fun s : GroupRun K => s.Ahead sh.globalCmdAxis items ρ ∧ s.task.state = .normalMoving)
      (Q := fun s : GroupRun K => s.task.isStopped) hcycle ⟨hend, hmoving⟩
    exact ⟨k, hk.trans ((Nat.le_add_right _ _).trans hbound), hstop⟩
  · rcases hC.exists_step (P := Passed index) (D := fun s a => s.isRunningCycle a ∧ s.RunsOn index)
      hkeep (fun s a h _ hp => h.passed_step hf hρ hp) hstart
      (hend.passed_of_stopped hstop hseg hlen) with ⟨traj', ht', hpassed⟩ | hstep
    · obtain rfl := Option.some.inj (htraj.symm.trans ht')
      simp [hindex, hrun] at hpassed
    · obtain ⟨before, a, after, rfl, hcycle, hon⟩ := hstep
      cases a with
      | runOnce => exact ⟨before, after, rfl, hon⟩
      | _ => simp [isRunningCycle] at hcycle

end GroupRun

/-! ### From the points to the end -/

namespace GCodeRunner

variable [FloorRing K]

/-- The items of a group keep the feed rates of its points. -/
theorem feedrate_pos_of_groupItems {cm : CoordinateManager K} {coordIndex : ℤ}
    (hi : cm.existCoordinateIndex (uint32 coordIndex)) {points : List (G01GroupPoint K)}
    {prev : Axis K} {items : List (G01GroupItem K)} [IsStrictOrderedRing K]
    (h : groupItems cm coordIndex prev points = .ok items) (hp : ∀ q ∈ points, 0 < q.feedrate) :
    ∀ item ∈ items, 0 < item.feedrate := by
  induction points generalizing prev items with
  | nil =>
    obtain rfl : items = [] := by simpa [groupItems] using h.symm
    simp
  | cons q points ih =>
    obtain ⟨hq, hpoints⟩ := List.forall_mem_cons.mp hp
    rcases groupItems_cons hi h with ⟨-, hrest⟩ | ⟨-, rest, hrest, rfl⟩
    · exact ih hrest hpoints
    · exact List.forall_mem_cons.mpr ⟨hq, ih hrest hpoints⟩

variable [IsStrictOrderedRing K] [LawfulSqrt K] [Settings]

/-- What a list of points owes the group task: positive feed rates, and whatever the converter and the
runner make of the points is driven to its end. -/
def DrivesGroups (lib : Json.Reader K) (ps : Points K) : Prop :=
  ps.FeedsPositive ∧
    ∀ points, (ps.points.map RS274Interpreter.pointJson).mapM (makeG01GroupPoint lib) =
        some points →
      ∀ (cm : CoordinateManager K) (motorStartPos : Axis K) (coordIndex : ℤ)
        (items : List (G01GroupItem K)),
        prepareG01Group cm motorStartPos coordIndex points = .ok items →
          GroupRun.DrivesToEnd items

/-- The groups made of an accepted list of points drive to their end exactly if every feed rate given
with a point is positive. -/
theorem drivesGroups_iff {lib : Json.Reader K} (hlib : lib.Faithful)
    (hwhole : ∀ {n m : ℤ}, lib.asInteger (.int n) = some m → m = n)
    {calls : List (PointsCall K)} {ps : Points K} (hmake : Points.make calls = .ok ps) :
    DrivesGroups lib ps ↔ ∀ c ∈ calls, c.FeedPositive := by
  rw [← Points.feedsPositive_iff hmake]
  refine ⟨And.left, fun hp => ⟨hp, fun points hpoints cm start coordIndex items hprep => ?_⟩⟩
  have hi : cm.existCoordinateIndex (uint32 coordIndex) := by
    by_contra hn
    simp [prepareG01Group, Bool.eq_false_of_not_eq_true hn] at hprep
  have hitems : groupItems cm coordIndex (cm.motorToMachine start) points = .ok items := by
    simpa [prepareG01Group, hi] using hprep
  exact GroupRun.drivesToEnd_of_pos
    (feedrate_pos_of_groupItems hi hitems (feedrate_pos_of_mapM hlib hwhole hpoints hp))

end GCodeRunner

/-! ### Points without a positive feed rate -/

namespace TrajectoryList

/-- The only segment of the chain, at its start. -/
def StandsAtStart (startPos : Axis K) (t : TrajectoryList K) : Prop :=
  t.before = [] ∧ t.after = [] ∧ t.curr.currLength = 0 ∧ 0 < t.curr.totalLength ∧
    t.curr.startPos = startPos

variable [IsStrictOrderedRing K] {t : TrajectoryList K} {startPos : Axis K} {inc : K}

theorem StandsAtStart.runOnce (h : t.StandsAtStart startPos) (hinc : inc ≤ 0) :
    (t.runOnce inc).StandsAtStart startPos ∧ (t.runOnce inc).currCmdAxis = startPos ∧
      (t.runOnce inc).atEnd = false := by
  obtain ⟨hb, ha, hzero, hlen, rfl⟩ := h
  have hvalid : t.curr.validate (t.curr.currLength + inc) = 0 := by
    unfold TrajectoryLinearSegement.validate
    rw [hzero, zero_add, if_neg (by linarith), if_pos hinc]
  have hcurr : (t.curr.runOnce inc).currLength = 0 := hvalid
  have heq : t.runOnce inc = { t with curr := t.curr.runOnce inc } := by
    rcases runOnce_cases t inc with heq | ⟨_, _, hn, -⟩ | ⟨_, _, hp, -⟩
    · exact heq
    · simp [ha] at hn
    · simp [hb] at hp
  rw [heq]
  refine ⟨⟨hb, ha, hcurr, hlen, rfl⟩, ?_, ?_⟩
  · funext i
    show MotionUtils.axisUnitVector _ _ i * t.curr.validate (t.curr.currLength + inc) + _ = _
    rw [hvalid, mul_zero, zero_add]
  · have hopen : ¬(t.curr.runOnce inc).atEnd := by
      simp only [TrajectoryLinearSegement.atEnd, hcurr, decide_eq_true_eq, ge_iff_le, not_le]
      exact hlen
    simp [atEnd, hopen]

end TrajectoryList

namespace GroupRun

variable [IsStrictOrderedRing K] [Settings]

/-- A task of one segment whose feed rate is not positive stands at its start for ever. -/
theorem stands_still {item : G01GroupItem K} {sh : MotionShared K} (hf : item.feedrate ≤ 0)
    (hr : 0 ≤ sh.g01SpeedRatio)
    (hlen : 0 < (TrajectoryLinearSegement.new sh.globalCmdAxis
      fun i => sh.globalCmdAxis i + item.incs i).totalLength) (n : ℕ) :
    let s := Machine.run step (start [item] sh) (List.replicate n .runOnce)
    s.task.state = .normalMoving ∧ s.shared.globalCmdAxis = sh.globalCmdAxis := by
  let I : GroupRun K → Prop := fun s => ∃ traj : TrajectoryList K,
    s.task = ⟨[item], some traj, .normalMoving⟩ ∧ traj.StandsAtStart sh.globalCmdAxis ∧
      0 ≤ s.shared.g01SpeedRatio ∧ s.shared.globalCmdAxis = sh.globalCmdAxis
  have hstart : I (start [item] sh) := ⟨_, rfl, ⟨rfl, rfl, rfl, hlen, rfl⟩, hr, rfl⟩
  have hstep (s : GroupRun K) (hs : I s) : I (s.step .runOnce) := by
    obtain ⟨traj, htask, hstands, hratio, hpos⟩ := hs
    have hc : (0 : K) < UnitConverter.mmMin2bluP_ := DrillSystem.mmMin2bluP_pos
    have hfeed : (item.feedrate : K) ≤ 0 := by exact_mod_cast hf
    have hdis : servoDis item s.shared ≤ 0 :=
      mul_nonpos_of_nonpos_of_nonneg (mul_nonpos_of_nonpos_of_nonneg hfeed hc.le) hratio
    obtain ⟨hstands', hcmd, hend⟩ := hstands.runOnce hdis
    have hindex : [item][traj.currSegementIndex]? = some item := by
      simp [TrajectoryList.currSegementIndex, hstands.1]
    have heq : s.step .runOnce =
        ⟨⟨[item], some (traj.runOnce (servoDis item s.shared)), .normalMoving⟩,
          (s.shared.setSubLineNum item.line).setGlobalCmdAxis sh.globalCmdAxis⟩ := by
      unfold servoDis at hcmd hend ⊢
      simp only [step, G01GroupAutoTask.runOnce, htask, G01GroupAutoTask.stateNormalRunning,
        hindex, MotionShared.setSubLineNum]
      rw [hcmd, hend]
      rfl
    rw [heq]
    exact ⟨_, rfl, hstands', hratio, rfl⟩
  have hrun : I (Machine.run step (start [item] sh) (List.replicate n .runOnce)) := by
    refine Machine.AllSteps.invariant (C := fun _ a => a = Action.runOnce) (fun s a hs ha => ?_)
      hstart ?_
    · rw [ha]
      exact hstep s hs
    · generalize start [item] sh = s
      induction n generalizing s with
      | zero => trivial
      | succ n ih => exact ⟨rfl, ih _⟩
  obtain ⟨traj, htask, -, -, hpos⟩ := hrun
  exact ⟨by rw [htask], hpos⟩

end GroupRun

namespace GCodeRunner

attribute [local instance] Sample.settings

theorem one_lt_lines : 1 < 2 ^ 31 := by decide

/-- `Points().g91()` and one point with `x` and a feed rate. -/
def onePoint (x : PyValue ℚ) (feed : PyValue ℚ) : List (PointsCall ℚ) :=
  [.g91, .push ⟨1, "push(x, f)", one_lt_lines⟩ (onlyX x) feed]

theorem exactReader_whole {n m : ℤ} (h : exactReader.asInteger (.int n) = some m) : m = n := by
  simp only [exactReader] at h
  split at h
  · exact (Option.some.inj h).symm
  · simp at h

theorem onePoint_drives : ∃ ps, Points.make (onePoint (.int 3) (.int 60)) = .ok ps ∧
    (DrivesGroups exactReader ps ↔ ∀ c ∈ onePoint (.int 3) (.int 60), c.FeedPositive) :=
  ⟨_, rfl, drivesGroups_iff exactReader_faithful exactReader_whole rfl⟩

/-- Whether the items are one segment with a length and a feed rate that is not positive, and accepted. -/
def standsStill : List (G01GroupItem ℚ) → Bool
  | [item] => item.feedrate ≤ 0 && (MotionStateMachine.new.startAutoG01Group [item]).2 &&
      (0 < (TrajectoryLinearSegement.new (0 : Axis ℚ) fun i => 0 + item.incs i).totalLength : Bool)
  | _ => false

/-- A point with this feed rate passes all the way, and the task never leaves its start. -/
def NeverEnds (feed : ℤ) : Prop :=
  ∃ ps points items, Points.make (onePoint (.int 3) (.int feed)) = .ok ps ∧
    (ps.points.map RS274Interpreter.pointJson).mapM (makeG01GroupPoint exactReader) =
      some points ∧
    prepareG01Group originManager 0 54 points = .ok items ∧
    (MotionStateMachine.new.startAutoG01Group items).2 = true ∧
    ∀ n,
      let s := Machine.run GroupRun.step (GroupRun.start items .new)
        (List.replicate n GroupRun.Action.runOnce)
      s.task.state = .normalMoving ∧ s.shared.globalCmdAxis = 0

theorem neverEnds_of_mem {feed : ℤ} (hfeed : feed ∈ [(0 : ℤ), -1]) : NeverEnds feed := by
  let point : Point ℚ := ⟨.incrementMode, fun i => (onlyX (.int 3) i).asNum,
    ⟨1, "push(x, f)", by decide⟩, .int feed⟩
  have hmake : Points.make (onePoint (.int 3) (.int feed)) = .ok ⟨[point], .incrementMode, .int 1⟩ :=
    rfl
  have hread : [point].all fun p => p.coords.notBool && p.feedrate.fits := by
    rcases List.mem_pair.mp hfeed with rfl | rfl <;> decide
  have hprep : preparedWith standsStill (prepareG01Group originManager 0 54 [point.meant]) := by
    rcases List.mem_pair.mp hfeed with rfl | rfl <;> decide +kernel
  obtain ⟨items, hitems, hstill⟩ := exists_of_preparedWith hprep
  refine ⟨_, _, items, hmake, mapM_pointJson exactReader_faithful hread, hitems, ?_⟩
  match items, hstill with
  | [item], hstill =>
    simp only [standsStill, Bool.and_eq_true, decide_eq_true_eq] at hstill
    exact ⟨hstill.1.2, GroupRun.stands_still hstill.1.1 (by decide +kernel) hstill.2⟩

/-- A feed rate of 0 and one of -1. -/
theorem slow_point_never_ends : NeverEnds 0 ∧ NeverEnds (-1) :=
  ⟨neverEnds_of_mem (by decide), neverEnds_of_mem (by decide)⟩

end GCodeRunner

end Edm
