import SkyDaemon.Foundation.Effect
import SkyDaemon.Foundation.Text
import SkyDaemon.Foundation.HashMap
import SkyDaemon.Foundation.Transition
import SkyDaemon.Database.Server
import SkyDaemon.Database.Admin
import SkyDaemon.Database.Rollback
import SkyDaemon.Protocol.Payloads
import SkyDaemon.Protocol.Sign
import SkyDaemon.Protocol.Envelope
import SkyDaemon.Protocol.Binding
import SkyDaemon.Agent.NonceCache
import SkyDaemon.Agent.Session
import SkyDaemon.Agent.Client
import SkyDaemon.Protocol.Freshness
import SkyDaemon.Agent.Replay
import SkyDaemon.Agent.Reconnect
import SkyDaemon.Agent.Delivery
import SkyDaemon.Agent.Calls
import SkyDaemon.Agent.Files
import SkyDaemon.Agent.Dispatcher
import SkyDaemon.Agent.Isolation
import SkyDaemon.Foundation.Framing
import SkyDaemon.Runtime.Demux
import SkyDaemon.Runtime.Http
import SkyDaemon.Runtime.Pump
import SkyDaemon.Runtime.Attach
import SkyDaemon.Runtime.Docker
import SkyDaemon.Runtime.PortConflict
import SkyDaemon.Agent.Handlers
import SkyDaemon.Agent.Concurrent
import SkyDaemon.Agent.Conduct
import SkyDaemon.Agent.Tracking
import SkyDaemon.Agent.ConsoleCleanup
import SkyDaemon.Agent.ConsolePhase
import SkyDaemon.Agent.ConsoleLines
import SkyDaemon.Agent.Gate
import SkyDaemon.Database.Acks
import SkyDaemon.Database.Lexer
import SkyDaemon.Agent.Recovery
import SkyDaemon.Agent.ConsoleStart
import SkyDaemon.Agent.Disk
import SkyDaemon.Agent.BackupFailure
import SkyDaemon.Agent.PlainArchive
import SkyDaemon.Agent.Restore
import SkyDaemon.Foundation.Pool
import SkyDaemon.Agent.Backups
import SkyDaemon.Foundation.HttpRequest
import SkyDaemon.Runtime.Operations
import SkyDaemon.Runtime.QueryEncoding
import SkyDaemon.Runtime.RequestShape
import SkyDaemon.Runtime.CreateLoop
import SkyDaemon.Agent.FailedCommands
import SkyDaemon.Runtime.Chunked
import SkyDaemon.Foundation.Segments
import SkyDaemon.Runtime.Streams
import SkyDaemon.Agent.LastState
import SkyDaemon.Runtime.SelfHealing
import SkyDaemon.Agent.ConsoleWrites
import SkyDaemon.Agent.StdinLock
import SkyDaemon.Agent.ConsoleOrder
import SkyDaemon.Runtime.ImageRef
import SkyDaemon.Runtime.Firewall
import SkyDaemon.Foundation.Json
import SkyDaemon.Protocol.Wire
import SkyDaemon.Runtime.PullStream
import SkyDaemon.Agent.FileRoundTrip
import SkyDaemon.Foundation.Base64
import SkyDaemon.Core.Tail
import SkyDaemon.Core.TailCut
import SkyDaemon.Agent.BackupNames
import SkyDaemon.Runtime.Ownership
import SkyDaemon.Foundation.BufRead
import SkyDaemon.Core.LastLines
import SkyDaemon.Foundation.Noninterference
import SkyDaemon.Foundation.Region
import SkyDaemon.Agent.Territory
import SkyDaemon.Agent.Separation
import SkyDaemon.Database.Tenants
import SkyDaemon.Database.Access
import SkyDaemon.Agent.Messages
import SkyDaemon.Foundation.Answers
import SkyDaemon.Foundation.Beside
import SkyDaemon.Foundation.Debt
import SkyDaemon.Foundation.Binary64
import SkyDaemon.Runtime.Stats
import SkyDaemon.Runtime.OpenPorts
import SkyDaemon.Agent.Fleet
import SkyDaemon.Agent.Boot
import SkyDaemon.Agent.Replies
import SkyDaemon.Agent.Connection
