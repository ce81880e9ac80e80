import NetworkCode.Library.Runs
import NetworkCode.Library.Lockstep
import NetworkCode.Library.Numerals
import NetworkCode.Translator.Agreement
import NetworkCode.Translator.MkParams
import NetworkCode.Translator.UnknownWords
import NetworkCode.Kernel.FutureQueueRefinement
import NetworkCode.Kernel.Resumption
import NetworkCode.Kernel.ProgramCounter
import NetworkCode.Kernel.NetworkFrame
import NetworkCode.Kernel.Restart
import NetworkCode.Kernel.OperandSafety
import NetworkCode.Kernel.ArrivalOrder
import NetworkCode.Kernel.ReceptionRefinement
import NetworkCode.Kernel.VariableTransport
import NetworkCode.Kernel.OneValue
import NetworkCode.Kernel.VariableBounds
import NetworkCode.Kernel.ParamsFile
import NetworkCode.Kernel.CodeFile
import NetworkCode.Kernel.BufferOwnership
import NetworkCode.Kernel.Teardown
import NetworkCode.Kernel.StopWindow
import NetworkCode.Kernel.ControlFile
import NetworkCode.Kernel.ProgramMemory
import NetworkCode.Kernel.DoubleBuffer
import NetworkCode.Kernel.SyncBacklog
import NetworkCode.Kernel.ErrorBits
import NetworkCode.Kernel.StoreOutcome
import NetworkCode.Kernel.VariableOrder
import NetworkCode.Translator.Stream
import NetworkCode.Visualizer.Timeline
import NetworkCode.Kernel.Deadline
import NetworkCode.Kernel.VariableTests
import NetworkCode.Kernel.SyncDeadline
import NetworkCode.Kernel.MissingDevice
import NetworkCode.Kernel.Snapshot
import NetworkCode.Kernel.ClockWidth
import NetworkCode.Visualizer.Branches
import NetworkCode.Visualizer.PendingFutures
import NetworkCode.Visualizer.Paths
import NetworkCode.Visualizer.Coverage
import NetworkCode.Translator.Processor
import NetworkCode.Kernel.SyncCause
import NetworkCode.Kernel.BuiltIn
import NetworkCode.Kernel.MachinePair
import NetworkCode.Kernel.ModuleLife
