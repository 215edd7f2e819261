import VpnControl.Lib.Program
import VpnControl.Lib.CriticalSection
import VpnControl.Lib.Trim
import VpnControl.Lib.BitPrefix
import VpnControl.Strings
import VpnControl.Awg.Netip
import VpnControl.Awg.NetipText
import VpnControl.Awg.Config
import VpnControl.Awg.Blocks
import VpnControl.Awg.PeerLine
import VpnControl.Awg.RoundTrip
import VpnControl.Awg.Validate
import VpnControl.Awg.Runtime
import VpnControl.Awg.AllocateIP
import VpnControl.Awg.Allocation
import VpnControl.Lib.Json
import VpnControl.Lib.JsonRoundTrip
import VpnControl.Lib.SortedMap
import VpnControl.Awg.ClientsTable
import VpnControl.Awg.ClientsTableRoundTrip
import VpnControl.Awg.ClientConfig
import VpnControl.Agent.Docker
import VpnControl.Agent.Service
import VpnControl.Agent.Rules
import VpnControl.Agent.Prepare
import VpnControl.Agent.Atomicity
import VpnControl.Agent.Completion
import VpnControl.Agent.Consistency
import VpnControl.Agent.LockedRuns
import VpnControl.Awg.Setconf
import VpnControl.Awg.SetconfRender
import VpnControl.Awg.SamePeers
import VpnControl.Lib.Table
import VpnControl.Backend.Models
import VpnControl.Lib.EventLoop
import VpnControl.Backend.Storage
import VpnControl.Backend.Platform
import VpnControl.Backend.AgentClient
import VpnControl.Backend.ServerService
import VpnControl.Backend.DeviceService
import VpnControl.Backend.Frames
import VpnControl.Backend.DeviceLimit
import VpnControl.Backend.Playback
import VpnControl.Backend.DeviceStates
import VpnControl.Backend.UnderLock
import VpnControl.Backend.DeviceFailure
import VpnControl.Backend.UserService
import VpnControl.Backend.StaleUser
import VpnControl.Backend.SetupJobService
import VpnControl.Backend.SetupWorker
import VpnControl.Backend.Cluster
import VpnControl.Backend.SetupContract
import VpnControl.Backend.SetupSteps
import VpnControl.Backend.SetupTurns
import VpnControl.Backend.JobTurns
import VpnControl.Backend.WorkerTurns
import VpnControl.Backend.NodeTurns
import VpnControl.Backend.RunTurns
import VpnControl.Backend.ClusterPlayback
import VpnControl.Backend.JobLifecycle
import VpnControl.Backend.Quarantine
import VpnControl.Backend.TidyTasks
import VpnControl.Backend.SecretOwners
import VpnControl.Lib.TwoRuns
import VpnControl.Awg.Reread
import VpnControl.Lib.Calls
import VpnControl.Backend.AuthService
import VpnControl.Backend.UserCalls
import VpnControl.Backend.LastAdmin
import VpnControl.Backend.Sessions
import VpnControl.Backend.RateLimit
import VpnControl.Backend.Patches
import VpnControl.Backend.SetupHost
import VpnControl.Backend.WireText
import VpnControl.HttpApi.SignedOnce
import VpnControl.Backend.SignedRequests
import VpnControl.Backend.Verdicts
import VpnControl.Lib.RowTable
import VpnControl.Backend.InMemoryStorage
import VpnControl.Backend.DatabaseStorage
import VpnControl.Backend.SameStorage
import VpnControl.Agent.Cancellation
import VpnControl.Lib.InPlace
import VpnControl.Awg.ClientsTableUpdates
import VpnControl.Awg.WrittenTable
import VpnControl.Agent.Validation
import VpnControl.Awg.AllocateLeast
import VpnControl.HttpApi.Skew
import VpnControl.Agent.RuntimeCheck
import VpnControl.Awg.CommentedLines
import VpnControl.Awg.ClientReadBack
import VpnControl.Awg.ShareURI
import VpnControl.Awg.SharedSettings
import VpnControl.Lib.AddressBlocks
import VpnControl.Awg.Netip6Text
import VpnControl.Backend.Ipaddress
import VpnControl.Backend.Config
import VpnControl.HttpApi.Remote
import VpnControl.Backend.Allowlist
import VpnControl.Lib.ShellWords
import VpnControl.Agent.Scripts
import VpnControl.Lib.SliceSort
import VpnControl.Lib.FallbackOrder
import VpnControl.Lib.Upsert
import VpnControl.Agent.PeerViews
import VpnControl.Lib.JsonPaths
import VpnControl.Backend.AuditRedaction
import VpnControl.Backend.Urllib
import VpnControl.Backend.DatabaseUrl
import VpnControl.Lib.Monitor
import VpnControl.Backend.AtOnce
import VpnControl.Backend.StoppedWorker
import VpnControl.Backend.WorkerParts
import VpnControl.Backend.AwaitedOperations
import VpnControl.Backend.JobRun
import VpnControl.Backend.NodeAgent
import VpnControl.Backend.RevokedPeers
import VpnControl.Backend.ConfinedSecrets
import VpnControl.Backend.SecretRuns
import VpnControl.Lib.ShellScripts
import VpnControl.Lib.UnixFiles
import VpnControl.Agent.ScriptRuns
import VpnControl.Agent.ScriptEffects
import VpnControl.Agent.ScriptPaths
import VpnControl.Agent.ScriptRefinement
import VpnControl.Lib.EveryInstant
import VpnControl.Lib.SystemRefinement
import VpnControl.Agent.ScriptSystem
import VpnControl.Lib.FileLocks
import VpnControl.Agent.FileLock
import VpnControl.Deploy.DeployAgent
import VpnControl.Deploy.Runner
import VpnControl.Deploy.Arguments
import VpnControl.Lib.RelatedPrograms
import VpnControl.Deploy.HiddenSecrets
import VpnControl.Deploy.RemoteCommands
