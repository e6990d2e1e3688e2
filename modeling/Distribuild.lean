import Distribuild.SchedulerTokens
import Distribuild.SharedCompile
import Distribuild.SchedulerBookkeeper
import Distribuild.CloudOperations
import Distribuild.CloudProcesses
import Distribuild.CloudConcurrency
import Distribuild.CloudCompletion
import Distribuild.CloudSignals
import Distribuild.CloudReferences
import Distribuild.Bytes
import Distribuild.CloudService
import Distribuild.Digest
import Distribuild.LocalCxxTask
import Distribuild.LocalPerform
import Distribuild.OutputDelivery
import Distribuild.CompileIdentity
import Distribuild.CommandLine
import Distribuild.CacheEntry
import Distribuild.CacheWriting
import Distribuild.StreamIntake
import Distribuild.LocalDeadline
import Distribuild.LocalKeepAlive
import Distribuild.ClientArgs
import Distribuild.ClientSubmit
import Distribuild.LocalGrantExpiry
import Distribuild.LocalGrantWakeup
import Distribuild.LocalJoin
import Distribuild.SchedulerReconcile
import Distribuild.CloudReaper
import Distribuild.LocalServantCalls
import Distribuild.SchedulerChoice
import Distribuild.SchedulerFree
import Distribuild.SchedulerRequester
import Distribuild.CloudForkFailure
import Distribuild.CacheValidation
import Distribuild.ClientOutput
import Distribuild.ClientRewriting
import Distribuild.MultiChunk
import Distribuild.PackReading
import Distribuild.PathLocations
import Distribuild.LocationParsing
import Distribuild.CloudSource
import Distribuild.ClientProgramIO
import Distribuild.StreamCollecting
import Distribuild.ClientCompile
import Distribuild.DirectoryNodes
import Distribuild.CloudServant
import Distribuild.LocalResults
import Distribuild.SchedulerLeases
import Distribuild.CompileDirectory
import Distribuild.QuotaProtocol
