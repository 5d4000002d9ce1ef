import Edm.Ecat.EcatManager
import Edm.Lib.Truncation
import Edm.Motion.ServoTargets

/-!
# The motion thread and the EtherCAT manager

`MotionThread` takes what the bus reports as an input. Here the report is what the manager makes of
a cycle: which of its operations the thread calls, and with what result, depends on the state of the
thread (`EcatSystem.work`). A cycle of the system is a cycle of the motion thread with this report
(`cycle_thread`), so what holds of every run of the thread holds here.
-/

namespace Edm

open DriveProfile
open Ecat (EcatManager ServoDevice MasterState DomainState ServoType)

/-- `EDM_SERVO_NUM`: the axes and, on the drilling machine, the spindle. -/
def servoNum [Settings] : ℕ := if Settings.powerZhongguDrill then 7 else 6

theorem six_le_servoNum [Settings] : 6 ≤ servoNum := by
  unfold servoNum
  split <;> omega

/-- The servo of an axis. -/
def axisServo [Settings] (i : Fin 6) : Fin servoNum := Fin.castLE six_le_servoNum i

/-- `stopping_count_max_`. -/
def stoppingCountMax : ℕ := 2000

/-- What the master library and the state machine get in a cycle. -/
structure EcatCycle (K : Type) [Settings] where
  /-- `_connect_ecat_try_once`, should it be called. -/
  attempt : Option (Fin servoNum → ServoDevice)
  images : Fin servoNum → Option (Word × ℤ)
  master : MasterState
  domains : List DomainState
  cycle : CycleInput K
  threadStopFlag : Bool
  /-- `current_axis` of the spindle, cut to an integer. -/
  spindleAxis : ℤ

structure EcatSystem (K : Type) [Settings] where
  thread : MotionThread K
  manager : EcatManager servoNum
  opWaitCount : ℕ
  /-- `op_wait_count_max_`, from the settings. -/
  opWaitCountMax : ℕ
  stoppingCount : ℕ

namespace EcatSystem

variable {K : Type} [Field K] [LinearOrder K] [Settings]

def new (opWaitCountMax : ℕ) : EcatSystem K := ⟨.new, .new servoNum 0, 0, opWaitCountMax, 0⟩

/-- `get_act_axis`, where the bus is up. -/
def actAxis (m : EcatManager servoNum) : Axis K :=
  MotionShared.getActAxis fun i => (m.servoDevices (axisServo i)).positionActualValue

/-- A report in which nothing happened. -/
def report (m : EcatManager servoNum) : EcatInput K where
  connectOk := false
  opReached := false
  opWaitTimeout := false
  connected := m.isEcatConnected
  allEnabled := m.servoAllOperationEnabled
  allDisabled := m.servoAllDisabled
  stoppingTimeout := false
  actAxis := actAxis m

/-- What became of the bus in a cycle, what the thread is told about it, and whether a frame was
sent. -/
structure Outcome (K : Type) [Settings] where
  system : EcatSystem K
  report : EcatInput K
  sends : Bool

/-- The manager is left alone, or has done its work without sending. -/
def quiet (s : EcatSystem K) (m : EcatManager servoNum) : Outcome K :=
  ⟨{ s with manager := m }, report m, false⟩

variable [FloorRing K]

/-- The callback of `EcatReady` on one servo. -/
def writeTarget (t : MotionThread K) (spindleAxis : ℤ) (j : Fin servoNum) (d : ServoDevice) :
    ServoDevice :=
  if h : j.val < 6 then
    let i : Fin 6 := ⟨j.val, h⟩
    let cmdAxis := t.motionStateMachine.shared.globalCmdAxis
    let d := d.setTargetPosition (MotionThread.targetPosition cmdAxis i)
    let d := d.cwEnableOperation.setOperationMode Ecat.OM.csp
    if d.type = .panasonicA5BWithVOffset then
      let vOffset := if t.globalVOffsetsForcedZero i then 0 else t.globalVOffsets i
      d.setVOffset (Truncation.trunc vOffset)
    else d
  else (d.setTargetPosition spindleAxis).cwEnableOperation.setOperationMode Ecat.OM.csp

/-- `_ecat_sync_wrapper` with a check, up to its callback. -/
def receiveChecked (m : EcatManager servoNum) (inp : EcatCycle K) : EcatManager servoNum × Bool :=
  let m := m.receive inp.images
  m.receiveCheck (m.ighCheckReceiveValid inp.master inp.domains)

/-- The calls of `_threadstate_running`. Where `_ecat_sync_wrapper` runs its callback it sends a
frame. -/
def workRunning (s : EcatSystem K) (inp : EcatCycle K) : Outcome K :=
  let m := s.manager
  match s.thread.ecatState with
  | .init | .ecatDisconnected | .ecatConnectedNotAllEnabled => s.quiet m
  | .ecatConnecting =>
    let (m, ret) := m.connectEcat (fun _ => inp.attempt) 1
    ⟨{ s with manager := m, opWaitCount := if ret then 0 else s.opWaitCount },
      { report m with connectOk := ret }, false⟩
  | .ecatConnectedWaitingForOP =>
    let s := { s with opWaitCount := s.opWaitCount + 1 }
    if s.opWaitCount > s.opWaitCountMax then
      let m := m.disconnectEcat
      ⟨{ s with manager := m }, { report m with opWaitTimeout := true }, false⟩
    else
      let m := m.receive inp.images
      ⟨{ s with manager := m },
        { report m with opReached := EcatManager.ighCheckOp inp.master }, true⟩
  | .ecatConnectedEnabling =>
    let received := m.receive inp.images
    let m :=
      if !received.servoAllOperationEnabled then received.clearFaultCycleRunOnce else received
    ⟨{ s with manager := m }, report received, true⟩
  | .ecatReady =>
    let (m, ret) := receiveChecked m inp
    if !ret then s.quiet m
    else
      let m := m.onDevices (writeTarget s.thread inp.spindleAxis)
      ⟨{ s with manager := m }, report m, true⟩

/-- The calls of `_threadstate_stopping`. -/
def workStopping (s : EcatSystem K) (inp : EcatCycle K) : Outcome K :=
  let s := { s with stoppingCount := s.stoppingCount + 1 }
  let m := s.manager
  if s.stoppingCount > stoppingCountMax then
    let m := m.disconnectEcat
    ⟨{ s with manager := m }, { report m with stoppingTimeout := true }, false⟩
  else if !m.isEcatConnected then s.quiet m
  else if m.servoAllDisabled then s.quiet m.disconnectEcat
  else
    let m := (m.receive inp.images).disableCycleRunOnce
    ⟨{ s with manager := m }, { report m with allDisabled := false }, true⟩

/-- The part of a cycle that has to do with the bus. -/
def work (s : EcatSystem K) (inp : EcatCycle K) : Outcome K :=
  match s.thread.threadState with
  | .init | .canExit => s.quiet s.manager
  | .running => s.workRunning inp
  | .stopping => s.workStopping inp

/-- What the thread reads in the cycle. -/
def threadInput (s : EcatSystem K) (inp : EcatCycle K) : ThreadInput K :=
  ⟨(s.work inp).report, inp.cycle, inp.threadStopFlag⟩

variable [RealFns K]

/-- A cycle, with the command it fetched. -/
def cycle (s : EcatSystem K) (a : EcatCycle K × Option (MotionCommand K)) : EcatSystem K :=
  { (s.work a.1).system with thread := (s.thread.threadCycle (s.threadInput a.1) a.2).1 }

theorem cycle_thread (s : EcatSystem K) (a : EcatCycle K × Option (MotionCommand K)) :
    (s.cycle a).thread = (s.thread.threadCycle (s.threadInput a.1) a.2).1 := rfl

theorem cycle_manager (s : EcatSystem K) (a : EcatCycle K × Option (MotionCommand K)) :
    (s.cycle a).manager = (s.work a.1).system.manager := rfl

end EcatSystem

end Edm
