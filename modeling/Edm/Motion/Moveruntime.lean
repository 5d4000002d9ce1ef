import Edm.Motion.Axis

/-!
# The speed planner

`Moveruntime.plan` divides a length into up to seven phases (jerk up, constant acceleration, jerk
down, cruise, and the same three for the exit) of `N1 … N7` cycles; `Moveruntime.runOnce` plays
them back and returns the increment of one cycle. The phase lengths are rounded to whole cycles
and the rest `s0` is spread over the run, the last cycle taking what is left.

The source writes the same two blocks out five times: a speed change made with a given acceleration
(`rampByAcc`) and one stretched over a given length (`rampByLen`). Locals it leaves unset on a path
are zero here; they belong to phases of no cycles.
-/

namespace Edm

/-- `MoveRuntimePlanSpeedInput`. -/
structure MoveRuntimePlanSpeedInput (K : Type) where
  acc0 : K
  dec0 : K
  cruiseV : K
  entryV : K
  exitV : K
  /-- Cycles of a jerk phase. -/
  nacc : ℕ

/-- Phases 1–3 or 5–7 of a plan: `N1 = N3` jerk cycles, `N2` cycles between them, the jerk and the
length covered. -/
structure Ramp (K : Type) where
  jerkN : ℤ
  accN : ℤ
  j : K
  s : K

/-- The phases of a plan; `s4` is the length of the `n4` cruise cycles. -/
structure Profile (K : Type) where
  entry : Ramp K
  n4 : ℤ
  s4 : K
  exit : Ramp K

/-- `Moveruntime::impl`, without the copies of the input that nothing reads back. -/
structure Moveruntime.Impl (K : Type) where
  a13 : K
  a57 : K
  intermediateE : K
  intermediateP : K
  recordIntermediateP : K
  recordIntermediateE : K
  N1 : ℤ
  N2 : ℤ
  N3 : ℤ
  N4 : ℤ
  N5 : ℤ
  N6 : ℤ
  N7 : ℤ
  totalN : ℤ
  currentN : ℤ
  T : K
  j1 : K
  j3 : K
  j5 : K
  j7 : K
  entryAcc : K
  exitAcc : K
  length : K
  segmentVelocity : K
  intermediate : K
  recordIntermediate : K

inductive Moveruntime.State where
  | notRunning | running
  deriving DecidableEq, Repr

structure Moveruntime (K : Type) where
  targetLength : K
  currentLength : K
  state : Moveruntime.State
  impl : Moveruntime.Impl K

namespace Moveruntime

variable {K : Type} [Field K] [LinearOrder K]

/-- `impl.clear()`: a `memset` to zero. -/
def Impl.cleared : Impl K where
  a13 := 0
  a57 := 0
  intermediateE := 0
  intermediateP := 0
  recordIntermediateP := 0
  recordIntermediateE := 0
  N1 := 0
  N2 := 0
  N3 := 0
  N4 := 0
  N5 := 0
  N6 := 0
  N7 := 0
  totalN := 0
  currentN := 0
  T := 0
  j1 := 0
  j3 := 0
  j5 := 0
  j7 := 0
  entryAcc := 0
  exitAcc := 0
  length := 0
  segmentVelocity := 0
  intermediate := 0
  recordIntermediate := 0

def cleared : Moveruntime K := ⟨0, 0, .notRunning, .cleared⟩

/-- The static `T`: the motion cycle in seconds. -/
def cycleT [Settings] : K := (Settings.motionCycleUs : K) / 1000000

def jerk2acc (n : ℤ) (T : K) : K := n * T

/-- `_get_target_length_iod`. -/
def targetLengthIod (vi vo d1 d2 T : K) : K := (vi + vo) * (d1 + 1 / 2 * d2) + (vo - vi) * T

/-- `Nacc` between 1 and 200. -/
def clampNacc (n : ℕ) : ℤ := if n < 1 then 1 else if n > 200 then 200 else n

/-- The threshold under which two speeds count as equal. -/
def speedEps : K := 1 / 100000

section Ramps

/-- No cycles at all. -/
def Ramp.none (j : K) : Ramp K := ⟨0, 0, j, 0⟩

/-- A ramp of `n` jerk cycles on each side of `m` cycles of constant acceleration. -/
def rampOf (T v0 v1 : K) (n m : ℤ) : Ramp K :=
  let d1 := jerk2acc n T
  let d2 := jerk2acc m T
  ⟨n, m, (v1 - v0) / d1 / (d1 + d2), targetLengthIod v0 v1 d1 d2 T⟩

variable [FloorRing K]

/-- From speed `v0` to `v1` with the acceleration `a`; `j` is the jerk it starts from. -/
def rampByAcc [RealFns K] (T : K) (nacc : ℤ) (v0 v1 a j : K) : Ramp K :=
  let d0 := jerk2acc nacc T
  let n2 := ⌊(v1 - v0 - a * d0) / a / T⌋
  if n2 < 1 then
    let n1 := ⌊sqrt ((v1 - v0) / j) / T⌋
    rampOf T v0 v1 (if n1 < 2 then 2 else n1) 0
  else
    rampOf T v0 v1 nacc n2

/-- From speed `v0` to `v1` over the length `s`. -/
def rampByLen (T : K) (nacc : ℤ) (v0 v1 s : K) : Ramp K :=
  let d0 := jerk2acc nacc T
  let n2 := ⌊(s - (v0 + v1) * d0 - (v1 - v0) * T) / (v1 + v0) / (1 / 2) / T⌋
  if n2 < 1 then
    let d1 := (s - (v1 - v0) * T) / (v1 + v0)
    let n1 := ⌊d1 / T⌋
    rampOf T v0 v1 (if n1 < 2 then 2 else n1) 0
  else
    rampOf T v0 v1 nacc n2

/-- The block `(ai > 0 && ao < 0) || (ai < 0 && ao > 0)` up to `s567`: the entry ramp towards a
reduced cruise speed, and that speed. -/
def rampReduced [RealFns K] (T : K) (nacc : ℤ) (vi ai s123 : K) : Ramp K × K :=
  let d0 := jerk2acc nacc T
  let xa := 1 / 2 * ai
  let xb := vi + 3 / 2 * ai * d0 + ai * T
  let xc := d0 * (2 * vi + ai * d0 + ai * T) - s123
  let d2 := (-xb + sqrt (xb * xb - 4 * xa * xc)) / (2 * xa)
  let j1 := ai / d0
  if d2 < 0 then
    let xp := 2 * vi / j1
    let xq := -1 * s123 / j1
    let d1 :=
      if j1 > 0 then
        let xt := sqrt (xq * xq / 4 + xp * xp * xp / 27)
        cbrt (-(1 / 2) * xq + xt) + cbrt (-(1 / 2) * xq - xt)
      else
        let r0 := sqrt (xp / (-3))
        let r := r0 * xp / (-3)
        let theta := acos (-(1 / 2) * xq / r)
        2 * r0 * cos ((theta + 31415926 / 10000000 * 4) / 3)
    let vc := vi + j1 * d1 * d1
    let n1 := ⌊d1 / T⌋
    (rampOf T vi vc (if n1 < 2 then 2 else n1) 0, vc)
  else
    let vc := vi + ai * (jerk2acc nacc T + d2)
    (rampOf T vi vc nacc ⌊d2 / T⌋, vc)

end Ramps

section Plan

variable [FloorRing K] [RealFns K]

/-- The acceleration that leads from `v` to `w`: none when they count as equal. -/
def accFromTo (p : MoveRuntimePlanSpeedInput K) (v w : K) : K :=
  if |v - w| < speedEps then 0 else if v < w then p.acc0 else p.dec0

/-- The block `s4 < 0`: the two ramps do not fit into `s` and are planned again. -/
def profileShort (T : K) (nacc : ℤ) (vi vo s si2o acc ai ao : K) (entry exit : Ramp K) :
    Profile K :=
  let takeAo := |ai| < speedEps ∧ |ao| > speedEps
  let takeAi := |ao| < speedEps ∧ |ai| > speedEps
  let ai' := if takeAo then ao else ai
  let ao' := if takeAo then ao else if takeAi then ai else ao
  if (ai' < 0 ∧ ao' < 0) ∨ (ai' > 0 ∧ ao' > 0) then
    ⟨rampByLen T nacc vi vo s, 0, 0, Ramp.none 0⟩
  else if (ai' > 0 ∧ ao' < 0) ∨ (ai' < 0 ∧ ao' > 0) then
    let s123 :=
      if acc * ai' > 0 then 1 / 2 * (s + si2o)
      else if acc * ai' < 0 then 1 / 2 * (s - si2o)
      else 1 / 2 * s
    let (entry', vc) := rampReduced T nacc vi ai' s123
    ⟨entry', 0, 0, rampByLen T nacc vc vo (s - entry'.s)⟩
  else
    ⟨entry, 0, 0, exit⟩

/-- The phases planned for the length `s`. An exit speed that is not positive is replaced by 2. -/
def profile (T : K) (p : MoveRuntimePlanSpeedInput K) (s : K) : Profile K :=
  let nacc := clampNacc p.nacc
  let d0 := jerk2acc nacc T
  let vc := p.cruiseV
  let vi := p.entryV
  let vo := if p.exitV ≤ 0 then 2 else p.exitV
  let acc := accFromTo p vi vo
  let si2o := if |acc| > 0 then (rampByAcc T nacc vi vo acc (acc / d0)).s else 0
  if s ≤ si2o then
    ⟨rampByLen T nacc vi vo s, 0, 0, Ramp.none 0⟩
  else
    let ai := accFromTo p vi vc
    let ao := if |vo - vc| < speedEps then 0 else if vo < vc then p.dec0 else p.acc0
    let entry := if |ai| > 0 then rampByAcc T nacc vi vc ai (ai / d0) else Ramp.none (ai / d0)
    let exit :=
      if |ao| > 0 then rampByAcc T nacc vc vo ao (ao / nacc / T) else Ramp.none (ao / nacc / T)
    let n4 := ⌊(s - entry.s - exit.s) / vc / T⌋
    let s4 := vc * n4 * T
    if s4 < 0 then profileShort T nacc vi vo s si2o acc ai ao entry exit
    else ⟨entry, n4, s4, exit⟩

/-- `impl_` as the plan for `s` leaves it. The rest `s0` is spread by `a13`, `a57` and
`intermediateE`. -/
def Impl.ofProfile (T vi s : K) (f : Profile K) : Impl K :=
  let N1 := f.entry.jerkN
  let N2 := f.entry.accN
  let N5 := f.exit.jerkN
  let N6 := f.exit.accN
  let s0 := s - f.entry.s - f.s4 - f.exit.s
  let v0 : K :=
    if N1 > 0 ∧ N5 > 0 then
      2 * s0 / (f.n4 + N1 + N2 + N1 + f.n4 + N5 + N6 + N5 - 2 : ℤ) / T
    else if N1 > 0 then s0 / (N1 + N2 + N1 + f.n4 - 1 : ℤ) / T
    else if N5 > 0 then s0 / (f.n4 + N5 + N6 + N5 - 1 : ℤ) / T
    else s0 / (f.n4 - 1 : ℤ) / T
  let both := N1 > 0 ∧ N5 > 0
  let tCube := T * T * T
  { a13 := (if both then v0 / ((N1 + N2 + N1 - 1 : ℤ) * T) else 0) * T * T
    a57 := (if both then -1 * v0 / ((N5 + N6 + N5 - 1 : ℤ) * T) else 0) * T * T
    intermediateE := (if both then 0 else v0) * T
    intermediateP := vi * T
    recordIntermediateP := 0
    recordIntermediateE := 0
    N1 := N1
    N2 := N2
    N3 := N1
    N4 := f.n4
    N5 := N5
    N6 := N6
    N7 := N5
    totalN := N1 + N2 + N1 + f.n4 + N5 + N6 + N5
    currentN := 0
    T := T
    j1 := f.entry.j * tCube
    j3 := -f.entry.j * tCube
    j5 := f.exit.j * tCube
    j7 := -f.exit.j * tCube
    entryAcc := 0
    exitAcc := 0
    length := s
    segmentVelocity := 0
    intermediate := 0
    recordIntermediate := 0 }

variable [Settings]

/-- Plans a length, whatever is running; `none` (the source's `false`) leaves the planner as it
was when the length is not positive. -/
def plan (p : MoveRuntimePlanSpeedInput K) (targetLength : K) : Option (Moveruntime K) :=
  if targetLength ≤ 0 then none
  else
    some
      { targetLength := targetLength
        currentLength := 0
        state := .running
        impl := .ofProfile cycleT p.entryV targetLength (profile cycleT p targetLength) }

variable {p : MoveRuntimePlanSpeedInput K} {len : K}

theorem plan_eq_none : plan p len = none ↔ len ≤ 0 := by
  unfold plan
  split <;> simp_all

theorem plan_of_pos (h : 0 < len) :
    plan p len =
      some ⟨len, 0, .running, .ofProfile cycleT p.entryV len (profile cycleT p len)⟩ :=
  if_neg (not_le.mpr h)

theorem plan_isSome (h : 0 < len) : ∃ mrt, plan p len = some mrt := ⟨_, plan_of_pos h⟩

end Plan

section RunOnce

def isRunning (m : Moveruntime K) : Bool := m.state = .running

def isOver (m : Moveruntime K) : Bool := !m.isRunning

def currentSpeed (m : Moveruntime K) : K :=
  if m.state ≠ .running then 0 else m.impl.segmentVelocity

/-- The planned increment `intermediate_p` of one cycle. -/
def Impl.stepP (r : Impl K) : Impl K :=
  if r.currentN < r.N1 then
    { r with
      entryAcc := r.entryAcc + r.j1
      intermediateP := r.intermediateP + (r.entryAcc + r.j1) }
  else if r.currentN < r.N1 + r.N2 then
    { r with intermediateP := r.intermediateP + r.entryAcc }
  else if r.currentN < r.N1 + r.N2 + r.N3 then
    { r with
      entryAcc := r.entryAcc + r.j3
      intermediateP := r.intermediateP + (r.entryAcc + r.j3) }
  else if r.currentN < r.N1 + r.N2 + r.N3 + r.N4 then
    { r with intermediateP := r.intermediateP + 0 }
  else if r.currentN < r.N1 + r.N2 + r.N3 + r.N4 + r.N5 then
    { r with
      exitAcc := r.exitAcc + r.j5
      intermediateP := r.intermediateP + (r.exitAcc + r.j5) }
  else if r.currentN < r.N1 + r.N2 + r.N3 + r.N4 + r.N5 + r.N6 then
    { r with intermediateP := r.intermediateP + r.exitAcc }
  else
    { r with
      exitAcc := r.exitAcc + r.j7
      intermediateP := r.intermediateP + (r.exitAcc + r.j7) }

/-- The correction `intermediate_e` of one cycle; the last cycle has none. -/
def Impl.nextE (r : Impl K) : K :=
  if r.currentN = r.totalN - 1 then 0
  else if r.currentN < r.N1 + r.N2 + r.N3 then
    if r.currentN > 0 then r.intermediateE + r.a13 else r.intermediateE + 0
  else if r.currentN < r.N1 + r.N2 + r.N3 + r.N4 then r.intermediateE + 0
  else if r.currentN < r.totalN - 1 then r.intermediateE + r.a57
  else 0

/-- One cycle of a plan that is not exhausted; the last one makes up the difference to `length`. -/
def Impl.cycle (r : Impl K) : Impl K :=
  let e := r.nextE
  let p := r.stepP
  let recE := p.recordIntermediateE + e
  let recP := p.recordIntermediateP + p.intermediateP
  let inter := e + p.intermediateP
  let inter' := if p.currentN + 1 = p.totalN then inter - (recE + recP - p.length) else inter
  { p with
    intermediateE := e
    intermediate := inter'
    recordIntermediateE := recE
    recordIntermediateP := recP
    recordIntermediate := recE + recP
    currentN := p.currentN + 1
    segmentVelocity := inter' / p.T }

/-- One cycle: the planner after it and the increment. -/
def runOnce (m : Moveruntime K) : Moveruntime K × K :=
  if m.state = .notRunning then (m, 0)
  else if m.impl.currentN < m.impl.totalN then
    let r := m.impl.cycle
    ({ m with impl := r, currentLength := m.currentLength + r.intermediate }, r.intermediate)
  else
    ({ m with
        state := .notRunning
        impl := { m.impl with intermediate := 0 }
        currentLength := m.currentLength + 0 }, 0)

end RunOnce

end Moveruntime

end Edm
