import ArchCompSystems.Library.Slots
import ArchCompSystems.Library.Pool
import ArchCompSystems.OsHw10.Parser
import ArchCompSystems.OsHw10.Conversation
import ArchCompSystems.OsHw11.Broadcast
import ArchCompSystems.OsIhw3.Server
import ArchCompSystems.OsIhw3.Rules
import ArchCompSystems.OsIhw3.CommandReplies
import ArchCompSystems.OsIhw3.Counters
import ArchCompSystems.OsIhw3.Descriptors
import ArchCompSystems.OsIhw3.PinsFifo
import ArchCompSystems.OsIhw3.PipelineProgress
import ArchCompSystems.OsIhw3.Stopping
import ArchCompSystems.OsIhw3.Footprints
import ArchCompSystems.OsIhw3.SocketTreatment
import ArchCompSystems.OsIhw3.CommandExecution
import ArchCompSystems.OsIhw3.Handshake
import ArchCompSystems.OsIhw3.ClientStopping
import ArchCompSystems.OsIhw3.ExitStatus
import ArchCompSystems.OsIhw3.Framing
import ArchCompSystems.OsIhw3.ServerLogsQueue
import ArchCompSystems.OsIhw2.PinBuffer
import ArchCompSystems.OsIhw2.FailedTransfer
import ArchCompSystems.OsIhw2.QueueRemoval
import ArchCompSystems.OsIhw2.Initialisation
import ArchCompSystems.OsIhw2.FailedInitialisation
import ArchCompSystems.OsIhw2.ReferenceCounter
import ArchCompSystems.Hw9.Sum
import ArchCompSystems.OsHw4.CopyFile
import ArchCompSystems.OsHw6.Program
import ArchCompSystems.OsHw6.Stopping
import ArchCompSystems.OsHw6.Phases
import ArchCompSystems.OsHw6.Control
import ArchCompSystems.OsHw6.Numbers
import ArchCompSystems.OsHw9.Alternation
import ArchCompSystems.OsIhw1.Arguments
import ArchCompSystems.OsIhw1.ChunkBounds
import ArchCompSystems.OsIhw1.DataProcessor
import ArchCompSystems.OsIhw1.EndMarker
import ArchCompSystems.OsIhw1.OutputFile
import ArchCompSystems.OsIhw1.Reversal
import ArchCompSystems.OsIhw1.Transfer
import ArchCompSystems.Ihw4.Codes
import ArchCompSystems.Ihw4.Versions
import ArchCompSystems.Ihw4.Writing
import ArchCompSystems.Ihw4.Mirroring
import ArchCompSystems.Ihw4.SlotOrder
import ArchCompSystems.Ihw4.Slots
import ArchCompSystems.Ihw4.Equivalence
import ArchCompSystems.Ihw4.StoreResult
import ArchCompSystems.OsIhw3.Decoding
import ArchCompSystems.OsIhw4.NumberInput
import ArchCompSystems.OsIhw4.LogOverflow
import ArchCompSystems.OsIhw4.Validation
import ArchCompSystems.OsIhw4.Provenance
import ArchCompSystems.OsIhw4.CommandResults
import ArchCompSystems.OsIhw4.Feedback
import ArchCompSystems.OsIhw4.ClientSocket
import ArchCompSystems.OsIhw4.ShutdownStatus
import ArchCompSystems.OsIhw4.ManagerStopping
import ArchCompSystems.OsHw3.Fibonacci
import ArchCompSystems.OsHw5.Transmission
import ArchCompSystems.OsHw8.RingBuffer
import ArchCompSystems.OsHw3.Factorial
import ArchCompSystems.OsHw2.BitReverse
import ArchCompSystems.OsHw2.Pow
import ArchCompSystems.Ihw3.StrReplaceDigits
import ArchCompSystems.Ihw3.Fread
import ArchCompSystems.Ihw3.Fwrite
import ArchCompSystems.Ihw3.ReadString
import ArchCompSystems.Hw2.Func
import ArchCompSystems.Ihw1.RunTest
import ArchCompSystems.Hw5.ArraySum
import ArchCompSystems.Hw6.Strcpy
import ArchCompSystems.Hw6.Strcmp
import ArchCompSystems.Hw6.Strlen
import ArchCompSystems.Hw7.Display
import ArchCompSystems.Hw3.ProcArray
import ArchCompSystems.Hw4.Factorial
import ArchCompSystems.Hw8.ArrayProduct
