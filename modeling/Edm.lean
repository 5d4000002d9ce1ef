import Edm.Lib.Run
import Edm.Lib.Path
import Edm.Lib.Pairing
import Edm.Lib.Crc
import Edm.Lib.Peek
import Edm.Lib.Polyline
import Edm.Motion.Consistency
import Edm.Motion.Recovery
import Edm.Motion.Discharge
import Edm.Motion.Signals
import Edm.Motion.Overshoot
import Edm.Motion.PlanLimits
import Edm.Motion.PointMoveRun
import Edm.Motion.Lines
import Edm.Motion.TrajectoryDeque
import Edm.Motion.Continuity
import Edm.Motion.Retract
import Edm.Motion.DrillOutputs
import Edm.Motion.ReadyGuard
import Edm.Motion.ServoTargets
import Edm.Motion.PowerOff
import Edm.Motion.SignalDelivery
import Edm.Utils.Crc
import Edm.Utils.DataQueueRecorder
import Edm.Utils.GlobalCommandQueue
import Edm.Utils.BreakoutFilter
import Edm.Utils.LongPeroidAverager
import Edm.Zynq.TcpPackage
import Edm.App.CoordinateFile
import Edm.App.DrillLimits
import Edm.App.GroupEnds
import Edm.App.GroupPath
import Edm.App.ProgramFormat
import Edm.App.ProgramIndex
import Edm.App.SetZero
import Edm.App.SoftLimits
import Edm.App.JumpLimits
import Edm.App.MovePanel
import Edm.App.Resets
import Edm.App.StopRequest
import Edm.App.TaskTimer
import Edm.Motion.SlowDown
import Edm.Motion.MasterClock
import Edm.Motion.Spindle
import Edm.QtDependComponents.IOController
import Edm.QtDependComponents.Interlocks
import Edm.QtDependComponents.PowerController
import Edm.QtDependComponents.ReceiveCallbacks
import Edm.Interpreter.Modal
import Edm.Ecat.Drives
import Edm.Ecat.Standstill
import Edm.QtDependComponents.InfoDispatcher
import Edm.Motion.TouchWarning
import Edm.Motion.WakeUp
import Edm.Motion.MachineRequests
