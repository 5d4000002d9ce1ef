import Mathlib

/-!
# Numbers, axes and units

Every `double` of the source is a number of an ordered field `K` with a floor, so that arithmetic is
exact. The library functions the planner calls (`sqrt`, `cbrt`, `acos`, `cos`) are the fields of
`RealFns`; the only law ever assumed about them is `LawfulSqrt`. At `ℚ` the model computes.

A position is an `Axis`, the source's `axis_t`: one coordinate for each of the six drives.
-/

namespace Edm

/-- The `<cmath>` functions the motion code calls. -/
class RealFns (K : Type) where
  sqrt : K → K
  cbrt : K → K
  acos : K → K
  cos : K → K

export RealFns (sqrt cbrt acos cos)

/-- What the proofs use of `sqrt`: a root of zero is zero, a root of a positive number positive. -/
class LawfulSqrt (K : Type) [Field K] [LinearOrder K] [RealFns K] : Prop where
  sqrt_zero : sqrt (0 : K) = 0
  sqrt_pos : ∀ {x : K}, 0 < x → 0 < sqrt x

/-- The square root of a fraction, exact on squares and cut off after twelve decimals elsewhere. -/
def ratSqrt (q : ℚ) : ℚ :=
  if q.num < 0 then 0 else
    (Nat.sqrt (q.num.toNat * q.den * 10 ^ 24) : ℚ) / (q.den * 10 ^ 12)

/-- The functions at `ℚ`. No concrete run of this development reaches the last three. -/
instance : RealFns ℚ where
  sqrt := ratSqrt
  cbrt x := x
  acos x := x
  cos x := x

/-- Settings fixed for the life of the process: the period of the motion thread (`system.json`)
and whether the sources are built for the drilling machine (`EDM_POWER_ZHONGGU_DRILL`). -/
class Settings where
  motionCycleUs : ℕ
  motionCycleUs_pos : 0 < motionCycleUs
  powerZhongguDrill : Bool

section Numerals

-- Numerals several modules write, with an instance each: a numeral is then one term everywhere.

instance atLeastTwo_two : Nat.AtLeastTwo 2 := ⟨by decide⟩
instance atLeastTwo_three : Nat.AtLeastTwo 3 := ⟨by decide⟩
instance atLeastTwo_four : Nat.AtLeastTwo 4 := ⟨by decide⟩
instance atLeastTwo_five : Nat.AtLeastTwo 5 := ⟨by decide⟩
instance atLeastTwo_ten : Nat.AtLeastTwo 10 := ⟨by decide⟩
instance atLeastTwo_twentySeven : Nat.AtLeastTwo 27 := ⟨by decide⟩
instance atLeastTwo_sixty : Nat.AtLeastTwo 60 := ⟨by decide⟩
instance atLeastTwo_hundred : Nat.AtLeastTwo 100 := ⟨by decide⟩
instance atLeastTwo_fiveHundred : Nat.AtLeastTwo 500 := ⟨by decide⟩
instance atLeastTwo_thousand : Nat.AtLeastTwo 1000 := ⟨by decide⟩
instance atLeastTwo_halfMillion : Nat.AtLeastTwo 500000 := ⟨by decide⟩
instance atLeastTwo_million : Nat.AtLeastTwo 1000000 := ⟨by decide⟩
instance atLeastTwo_tenMillion : Nat.AtLeastTwo 10000000 := ⟨by decide⟩
instance atLeastTwo_piDigits : Nat.AtLeastTwo 31415926 := ⟨by decide⟩
instance neZero_six : NeZero 6 := ⟨by decide⟩

end Numerals

/-- `axis_t`. -/
abbrev Axis (K : Type) := Fin 6 → K

section

variable {K : Type} [Field K] [LinearOrder K]

namespace MotionUtils

variable [RealFns K]

/-- `CalcAxisLength` of one vector. -/
def axisLength (axis : Axis K) : K :=
  sqrt ((List.finRange 6).foldl (fun sum i => sum + axis i * axis i) 0)

def axisVector (beginAxis endAxis : Axis K) : Axis K := fun i => endAxis i - beginAxis i

/-- `CalcAxisLength` from begin to end. -/
def axisLengthBetween (beginAxis endAxis : Axis K) : K :=
  axisLength (axisVector beginAxis endAxis)

def scaleAxis (axis : Axis K) (scale : K) : Axis K := fun i => axis i * scale

/-- A zero vector has the length `0`, of which the field's inverse is `0` again: the result is the
zero vector where `double` has `inf * 0`, a NaN. -/
def axisUnitVector (beginAxis endAxis : Axis K) : Axis K :=
  scaleAxis (axisVector beginAxis endAxis) (1 / axisLength (axisVector beginAxis endAxis))

end MotionUtils

namespace UnitConverter

def um2blu_ : K := 1
def mm2blu_ : K := 1000 * um2blu_

def um2blu (um : K) : K := um * um2blu_
def mm2blu (mm : K) : K := mm * mm2blu_

def blu2um_ : K := 1 / um2blu_
def um2mm_ : K := 1 / 1000
def blu2mm_ : K := blu2um_ * um2mm_

def blu2mm (blu : K) : K := blu * blu2mm_

variable [Settings]

def p2ms_ : K := (Settings.motionCycleUs : K) / 1000
def ms2p_ : K := 1 / p2ms_
def mmMin2bluP_ : K := 1000 / 60 * um2blu_ / 1000 / ms2p_

def ms2p (ms : K) : K := ms * ms2p_
def mmMin2bluP (mmMin : K) : K := mmMin * mmMin2bluP_
def umMs2bluP (umMs : K) : K := umMs * um2blu_ / ms2p_

end UnitConverter

end

end Edm
