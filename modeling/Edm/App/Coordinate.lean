import Edm.Motion.Axis

/-!
# Coordinate systems

Three kinds of positions: of the drives (motor), of the machine, and in one of the numbered coordinate
systems. They differ by offsets: a motor position is the machine position plus the global offset,
a machine position the position in a coordinate system plus the offset of that system.
-/

namespace Edm

/-- The conversion of an `int` argument to `uint32_t`. -/
def uint32 (i : ℤ) : ℕ := (i % 2 ^ 32).toNat

structure CoordSoftLimit (K : Type) where
  pos : Axis K
  neg : Axis K

/-- The coordinate systems by their index; a missing index has no offset. -/
structure CoordinateManager (K : Type) where
  globalOffset : Axis K
  coordinatesMap : ℕ → Option (Axis K)
  softLimits : CoordSoftLimit K

namespace CoordinateManager

variable {K : Type}

def existCoordinateIndex (cm : CoordinateManager K) (index : ℕ) : Bool :=
  (cm.coordinatesMap index).isSome

def setCoordOffset (cm : CoordinateManager K) (index : ℕ) (offset : Axis K) :
    Option (CoordinateManager K) :=
  match cm.coordinatesMap index with
  | none => none
  | some _ =>
    some { cm with
      coordinatesMap := fun i => if i = index then some offset else cm.coordinatesMap i }

def setGlobalOffset (cm : CoordinateManager K) (offset : Axis K) : CoordinateManager K :=
  { cm with globalOffset := offset }

def setSoftLimits [LinearOrder K] (cm : CoordinateManager K) (softLimits : CoordSoftLimit K) :
    Option (CoordinateManager K) :=
  if ∃ i, softLimits.pos i < softLimits.neg i then none else some { cm with softLimits }

variable [Field K]

def motorToMachine (cm : CoordinateManager K) (motorAxis : Axis K) : Axis K :=
  fun i => motorAxis i - cm.globalOffset i

def machineToMotor (cm : CoordinateManager K) (machinePos : Axis K) : Axis K :=
  fun i => machinePos i + cm.globalOffset i

def machineToCoord (cm : CoordinateManager K) (coordIndex : ℕ) (machinePos : Axis K) :
    Option (Axis K) :=
  (cm.coordinatesMap coordIndex).map fun offset i => machinePos i - offset i

def coordToMachine (cm : CoordinateManager K) (coordIndex : ℕ) (coordPos : Axis K) :
    Option (Axis K) :=
  (cm.coordinatesMap coordIndex).map fun offset i => coordPos i + offset i

def motorToCoord (cm : CoordinateManager K) (coordIndex : ℕ) (motorAxis : Axis K) :
    Option (Axis K) :=
  (cm.coordinatesMap coordIndex).map fun offset i => motorAxis i - cm.globalOffset i - offset i

variable {cm : CoordinateManager K}

@[simp] theorem machineToMotor_motorToMachine (motorAxis : Axis K) :
    cm.machineToMotor (cm.motorToMachine motorAxis) = motorAxis := by
  funext i
  simp [machineToMotor, motorToMachine]

@[simp] theorem motorToMachine_machineToMotor (machinePos : Axis K) :
    cm.motorToMachine (cm.machineToMotor machinePos) = machinePos := by
  funext i
  simp [machineToMotor, motorToMachine]

end CoordinateManager

end Edm
