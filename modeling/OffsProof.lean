import OffsProof.LabelledRun
import OffsProof.Descriptors
import OffsProof.RestartLoop
import OffsProof.BigEndian
import OffsProof.Client
import OffsProof.Framing
import OffsProof.RequestPairing
import OffsProof.CText
import OffsProof.CJson
import OffsProof.DaemonArgs
import OffsProof.FlagPrecedence
import OffsProof.DaemonStart
import OffsProof.Daemonize
import OffsProof.FileEffect
import OffsProof.CachePaths
import OffsProof.CacheMove
import OffsProof.CacheAgreement
import OffsProof.CacheRelocation
import OffsProof.Startup
import OffsProof.StartupCleanup
import OffsProof.Shutdown
import OffsProof.StartupSettings
import OffsProof.StagedSettings
import OffsProof.ReloadAccess
import OffsProof.CliCommands
import OffsProof.ExitStatus
import OffsProof.Watchdog
import OffsProof.WatchdogBound
import OffsProof.StopResponse
import OffsProof.ServiceBridge
import OffsProof.PathTree
import OffsProof.Uninstall
import OffsProof.Updater
import OffsProof.KeyedHistory
import OffsProof.MetricsTable
import OffsProof.MetricsExport
import OffsProof.RestartArgs
import OffsProof.ProbeSocket
import OffsProof.Answered
import OffsProof.UpdaterCalls
import OffsProof.CacheHandback
import OffsProof.KeepList
import OffsProof.PutStream
import OffsProof.GetStream
import OffsProof.TransferWire
import OffsProof.MoveTree
import OffsProof.TreeWalk
import OffsProof.MoveDisk
import OffsProof.MoveExact
import OffsProof.MoveLoss
import OffsProof.MoveLinks
import OffsProof.PathConflict
import OffsProof.CNumerals
import OffsProof.SizeText
import OffsProof.BinaryRounding
import OffsProof.CacheSize
import OffsProof.ThrottleBounds
import OffsProof.SocketMode
import OffsProof.KeyedFold
import OffsProof.FlagGroups
import OffsProof.NumericArgs
import OffsProof.GlobalOptions
import OffsProof.BlockCommand
import OffsProof.TransferEnds
import OffsProof.PathNormal
import OffsProof.ReportArrays
import OffsProof.NodeIdentity
import OffsProof.MoveStack
import OffsProof.Thrown
import OffsProof.MoveReport
import OffsProof.DaemonControl
import OffsProof.Samples
import OffsProof.Exposition
import OffsProof.ServiceControl
import OffsProof.CliDispatch
import OffsProof.CliRequests
import OffsProof.OwnedSlots
import OffsProof.ArgStrings
import OffsProof.ArgCycles
