import Edm.Lib.Run
import Edm.Lib.Truncation
import Edm.Utils.SlidingCounter
import Edm.Utils.SlidingFilter

/-!
# The breakout filter

`BreakoutFilter` averages the voltage of the gap, takes the deviation of the averages, and counts up
while it was often enough above a threshold, down while it was not. The count is cut to its maximum
when it goes up, and only then: a maximum that is set below the count is exceeded for as long as the
count goes down. `counts_within_iff` says when it is not. Counts wrap, as they do on the machine.
-/

namespace Edm

/-- `DrillBreakOutParams`, as far as the filter reads them. -/
structure BreakoutParams (K : Type) where
  voltageAverageFilterWindowSize : UInt32
  stderrFilterWindowSize : UInt32
  knValidThreshold : K
  knScWindowSize : UInt32
  knValidRateThreshold : K
  knValidRateOkCntThreshold : UInt32
  knValidRateOkCntMaximum : UInt32

/-- `KnSlidingCounterMaxSize`. -/
def knSlidingCounterMaxSize : ℕ := 4000

structure BreakoutFilter (K : Type) where
  realtimeVoltageAverageFilter : SlidingFilter
  averagedVoltageStderrFilter : SlidingFilter
  stderrThreshold : K
  knSlidingCounter : SlidingCounter knSlidingCounterMaxSize
  knSlidingCounterValidRateThreshold : K
  knCntThreshold : Int32
  knCntMax : Int32
  knCnt : Int32
  lastRealtimeVoltage : Int32
  lastAveragedVoltage : Int32
  lastStderr : K
  lastKnSlidingCounterValidRate : K

namespace BreakoutFilter

open Truncation

section Model

variable {K : Type} [Field K]

def new : BreakoutFilter K where
  realtimeVoltageAverageFilter := .new 10
  averagedVoltageStderrFilter := .new 10
  stderrThreshold := 20
  knSlidingCounter := .new
  knSlidingCounterValidRateThreshold := 1 / 100
  knCntThreshold := 0
  knCntMax := 0
  knCnt := 0
  lastRealtimeVoltage := 0
  lastAveragedVoltage := 0
  lastStderr := 0
  lastKnSlidingCounterValidRate := 0

def setRealtimeVoltageAverageFilterSize (f : BreakoutFilter K) (size : ℕ) : BreakoutFilter K :=
  { f with realtimeVoltageAverageFilter := f.realtimeVoltageAverageFilter.resize size }

def setAveragedVoltageStderrFilterSize (f : BreakoutFilter K) (size : ℕ) : BreakoutFilter K :=
  { f with averagedVoltageStderrFilter := f.averagedVoltageStderrFilter.resize size }

def setStderrThreshold (f : BreakoutFilter K) (threshold : K) : BreakoutFilter K :=
  { f with stderrThreshold := threshold }

def setKnSlidingCounterSize (f : BreakoutFilter K) (size : ℕ) : BreakoutFilter K :=
  { f with knSlidingCounter := f.knSlidingCounter.resize size }

def setKnSlidingCounterValidRateThreshold (f : BreakoutFilter K) (threshold : K) :
    BreakoutFilter K :=
  { f with knSlidingCounterValidRateThreshold := threshold }

def setKnCntThreshold (f : BreakoutFilter K) (threshold : Int32) : BreakoutFilter K :=
  { f with knCntThreshold := threshold }

def setKnCntMax (f : BreakoutFilter K) (max : Int32) : BreakoutFilter K :=
  { f with knCntMax := max }

def setBreakoutParams (f : BreakoutFilter K) (p : BreakoutParams K) : BreakoutFilter K :=
  let f := f.setRealtimeVoltageAverageFilterSize p.voltageAverageFilterWindowSize.toNat
  let f := f.setAveragedVoltageStderrFilterSize p.stderrFilterWindowSize.toNat
  let f := f.setStderrThreshold p.knValidThreshold
  let f := f.setKnSlidingCounterSize p.knScWindowSize.toNat
  let f := f.setKnSlidingCounterValidRateThreshold p.knValidRateThreshold
  let f := f.setKnCntThreshold p.knValidRateOkCntThreshold.toInt32
  f.setKnCntMax p.knValidRateOkCntMaximum.toInt32

def clear (f : BreakoutFilter K) : BreakoutFilter K :=
  { f with
    realtimeVoltageAverageFilter := f.realtimeVoltageAverageFilter.clear
    averagedVoltageStderrFilter := f.averagedVoltageStderrFilter.clear
    knSlidingCounter := f.knSlidingCounter.clear
    knCnt := 0
    lastRealtimeVoltage := 0
    lastAveragedVoltage := 0
    lastStderr := 0
    lastKnSlidingCounterValidRate := 0 }

def isKnDetected (f : BreakoutFilter K) : Bool := f.knCnt > f.knCntThreshold

variable [LinearOrder K] [FloorRing K] [RealFns K]

/-- `push_back_realtime_voltage` up to the rate of deviations above the threshold. -/
def measure (f : BreakoutFilter K) (realtimeVoltage : Int32) : BreakoutFilter K :=
  let averageFilter := f.realtimeVoltageAverageFilter.pushBack realtimeVoltage
  let averaged := Int32.ofInt (trunc (averageFilter.average : K))
  let stderrFilter := f.averagedVoltageStderrFilter.pushBack averaged
  let stderr : K := stderrFilter.getStderr
  let counter := f.knSlidingCounter.pushBack (stderr > f.stderrThreshold)
  { f with
    realtimeVoltageAverageFilter := averageFilter
    averagedVoltageStderrFilter := stderrFilter
    knSlidingCounter := counter
    lastRealtimeVoltage := realtimeVoltage
    lastAveragedVoltage := averaged
    lastStderr := stderr
    lastKnSlidingCounterValidRate := counter.validRate }

/-- The rate measured is above its threshold. -/
def knRateOk (f : BreakoutFilter K) : Bool :=
  f.lastKnSlidingCounterValidRate > f.knSlidingCounterValidRateThreshold

def pushBackRealtimeVoltage (f : BreakoutFilter K) (realtimeVoltage : Int32) : BreakoutFilter K :=
  let f := f.measure realtimeVoltage
  if f.knRateOk then
    let cnt := f.knCnt + 1
    { f with knCnt := if cnt > f.knCntMax then f.knCntMax else cnt }
  else
    let cnt := f.knCnt - 1
    { f with knCnt := if cnt < 0 then 0 else cnt }

end Model

/-- A voltage, or a change between two voltages. -/
inductive Op (K : Type) where
  | pushBackRealtimeVoltage (realtimeVoltage : Int32)
  | setBreakoutParams (p : BreakoutParams K)
  | setRealtimeVoltageAverageFilterSize (size : ℕ)
  | setAveragedVoltageStderrFilterSize (size : ℕ)
  | setStderrThreshold (threshold : K)
  | setKnSlidingCounterSize (size : ℕ)
  | setKnSlidingCounterValidRateThreshold (threshold : K)
  | setKnCntThreshold (threshold : Int32)
  | setKnCntMax (max : Int32)
  | clear

section Counts

variable {K : Type} [Field K] [LinearOrder K] [FloorRing K] [RealFns K] {f : BreakoutFilter K}

def step (f : BreakoutFilter K) : Op K → BreakoutFilter K
  | .pushBackRealtimeVoltage realtimeVoltage => f.pushBackRealtimeVoltage realtimeVoltage
  | .setBreakoutParams p => f.setBreakoutParams p
  | .setRealtimeVoltageAverageFilterSize size => f.setRealtimeVoltageAverageFilterSize size
  | .setAveragedVoltageStderrFilterSize size => f.setAveragedVoltageStderrFilterSize size
  | .setStderrThreshold threshold => f.setStderrThreshold threshold
  | .setKnSlidingCounterSize size => f.setKnSlidingCounterSize size
  | .setKnSlidingCounterValidRateThreshold threshold =>
    f.setKnSlidingCounterValidRateThreshold threshold
  | .setKnCntThreshold threshold => f.setKnCntThreshold threshold
  | .setKnCntMax max => f.setKnCntMax max
  | .clear => f.clear

/-- A voltage leaves the count between zero and the maximum, and no more than one from where it was
unless it was cut to the maximum. -/
def CountsWithin (f : BreakoutFilter K) : Op K → Prop
  | .pushBackRealtimeVoltage realtimeVoltage =>
    let cnt := (f.pushBackRealtimeVoltage realtimeVoltage).knCnt
    0 ≤ cnt.toInt ∧ cnt.toInt ≤ f.knCntMax.toInt ∧
      (|cnt.toInt - f.knCnt.toInt| ≤ 1 ∨ cnt = f.knCntMax)
  | _ => True

/-- A voltage finds a maximum that is not negative. If the count goes up, one more is still an
`int`; if it goes down, it is not more than one above the maximum. -/
def MaximumFits (f : BreakoutFilter K) : Op K → Prop
  | .pushBackRealtimeVoltage realtimeVoltage =>
    0 ≤ f.knCntMax.toInt ∧
      if (f.measure realtimeVoltage).knRateOk then f.knCnt.toInt + 1 < 2 ^ 31
      else f.knCnt.toInt ≤ f.knCntMax.toInt + 1
  | _ => True

instance (f : BreakoutFilter K) (op : Op K) : Decidable (f.CountsWithin op) := by
  cases op <;> unfold CountsWithin <;> infer_instance

theorem pushBack_knCnt (f : BreakoutFilter K) (v : Int32) :
    (f.pushBackRealtimeVoltage v).knCnt =
      if (f.measure v).knRateOk then (if f.knCnt + 1 > f.knCntMax then f.knCntMax else f.knCnt + 1)
      else if f.knCnt - 1 < 0 then 0 else f.knCnt - 1 := by
  unfold pushBackRealtimeVoltage
  dsimp only
  split <;> rfl

/-- Counting up and cutting to the maximum. -/
theorem up_within_iff {cnt max : Int32} (hcnt : 0 ≤ cnt.toInt) :
    let cnt' := if cnt + 1 > max then max else cnt + 1
    (0 ≤ cnt'.toInt ∧ cnt'.toInt ≤ max.toInt ∧
      (|cnt'.toInt - cnt.toInt| ≤ 1 ∨ cnt' = max)) ↔ 0 ≤ max.toInt ∧ cnt.toInt + 1 < 2 ^ 31 := by
  have hadd : (cnt + 1).toInt = (cnt.toInt + 1).bmod (2 ^ 32) := Int32.toInt_add cnt 1
  have hlt := cnt.toInt_lt
  have hmax := max.le_toInt
  intro cnt'
  by_cases hwrap : cnt.toInt + 1 < 2 ^ 31
  · rw [Int.bmod_eq_of_le (by omega) (by omega)] at hadd
    simp only [cnt', gt_iff_lt, Int32.lt_iff_toInt_lt, hadd]
    split
    · simp only [le_refl, or_true, and_true]
      omega
    · rw [hadd, abs_le]
      omega
  · -- one more than the greatest `int` is the least one
    have hleast : (cnt + 1).toInt = -2 ^ 31 := by
      rw [hadd, show cnt.toInt + 1 = 2 ^ 31 by omega]
      rfl
    have hnot : ¬cnt + 1 > max := by
      rw [gt_iff_lt, Int32.lt_iff_toInt_lt, hleast]
      omega
    simp only [cnt', if_neg hnot, hleast]
    omega

/-- Counting down and cutting to zero. -/
theorem down_within_iff {cnt max : Int32} (hcnt : 0 ≤ cnt.toInt) :
    let cnt' := if cnt - 1 < 0 then 0 else cnt - 1
    (0 ≤ cnt'.toInt ∧ cnt'.toInt ≤ max.toInt ∧
      (|cnt'.toInt - cnt.toInt| ≤ 1 ∨ cnt' = max)) ↔
      0 ≤ max.toInt ∧ cnt.toInt ≤ max.toInt + 1 := by
  have hsub : (cnt - 1).toInt = cnt.toInt - 1 := by
    have h : (cnt - 1).toInt = (cnt.toInt - 1).bmod (2 ^ 32) := Int32.toInt_sub cnt 1
    have hlt := cnt.toInt_lt
    rwa [Int.bmod_eq_of_le (by omega) (by omega)] at h
  have hzero : (0 : Int32).toInt = 0 := rfl
  intro cnt'
  simp only [cnt', Int32.lt_iff_toInt_lt, hsub, hzero]
  split
  · rw [hzero, abs_le]
    omega
  · rw [hsub, abs_le]
    omega

/-- A voltage that finds a count that is not negative. -/
theorem countsWithin_iff {op : Op K} (hcnt : 0 ≤ f.knCnt.toInt) :
    f.CountsWithin op ↔ f.MaximumFits op := by
  cases op with
  | pushBackRealtimeVoltage v =>
    unfold CountsWithin MaximumFits
    dsimp only
    rw [pushBack_knCnt]
    split
    · exact up_within_iff hcnt
    · exact down_within_iff hcnt
  | _ => exact Iff.rfl

theorem step_knCnt_nonneg {op : Op K} (hcnt : 0 ≤ f.knCnt.toInt) (h : f.CountsWithin op) :
    0 ≤ (f.step op).knCnt.toInt := by
  cases op with
  | pushBackRealtimeVoltage v => exact h.1
  | clear => exact le_rfl
  | _ => exact hcnt

/-- In every run each voltage leaves the count within its bounds exactly if each finds a maximum
that fits. -/
theorem counts_within_iff (ops : List (Op K)) :
    Machine.AllSteps step CountsWithin (new : BreakoutFilter K) ops ↔
      Machine.AllSteps step MaximumFits (new : BreakoutFilter K) ops := by
  have hnew : 0 ≤ (new : BreakoutFilter K).knCnt.toInt := le_rfl
  constructor
  · exact Machine.AllSteps.strengthen (I := fun f : BreakoutFilter K => 0 ≤ f.knCnt.toInt)
      (fun _ _ hcnt h => step_knCnt_nonneg hcnt h) (fun _ _ hcnt h => (countsWithin_iff hcnt).mp h)
      hnew
  · exact Machine.AllSteps.strengthen (I := fun f : BreakoutFilter K => 0 ≤ f.knCnt.toInt)
      (fun _ _ hcnt h => step_knCnt_nonneg hcnt ((countsWithin_iff hcnt).mpr h))
      (fun _ _ hcnt h => (countsWithin_iff hcnt).mpr h) hnew

end Counts

/-- The parameters of the settings with small windows. -/
def smallWindows (knValidThreshold : ℚ) (knScWindowSize maximum : UInt32) : BreakoutParams ℚ :=
  ⟨10, 10, knValidThreshold, knScWindowSize, 1 / 100, 320, maximum⟩

/-- Three deviations are counted; the maximum is set to one, and the next voltage leaves two. -/
theorem lowered_maximum_is_exceeded :
    ¬Machine.AllSteps step CountsWithin (new : BreakoutFilter ℚ)
      [.setBreakoutParams (smallWindows 20 10 600), .pushBackRealtimeVoltage 1000,
        .pushBackRealtimeVoltage 1000, .pushBackRealtimeVoltage 1000,
        .setBreakoutParams (smallWindows 1000 20 1), .pushBackRealtimeVoltage 0] := by
  decide +kernel

end BreakoutFilter

end Edm
