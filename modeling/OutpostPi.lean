import OutpostPi.Lib.Tasks
import OutpostPi.Lib.Map
import OutpostPi.Relay.Connections
import OutpostPi.Relay.Rooms
import OutpostPi.Lib.MultiMap
import OutpostPi.Relay.Subscriptions
import OutpostPi.Relay.Lifecycle
import OutpostPi.Relay.RoomConsistency
import OutpostPi.Lib.Feed
import OutpostPi.Relay.EventConvergence
import OutpostPi.Relay.TeardownSubscriptions
import OutpostPi.Relay.MeshStore
import OutpostPi.Relay.MeshStoreRuns
import OutpostPi.Lib.Decimal
import OutpostPi.Lib.Json
import OutpostPi.Pi.PeerStorage
import OutpostPi.Pi.PersistedPeers
import OutpostPi.Lib.Tickets
import OutpostPi.Pi.HighWater
import OutpostPi.Pi.OwnerChannel
import OutpostPi.Pi.OwnerDelivery
import OutpostPi.Pi.SharedHighWater
import OutpostPi.Relay.MeshAuthCache
import OutpostPi.Relay.MeshFreshness
import OutpostPi.Pi.LockExclusion
import OutpostPi.App.PairingStorage
import OutpostPi.Lib.OrderedMap
import OutpostPi.Session.TurnState
import OutpostPi.Session.TurnInvariant
import OutpostPi.Session.LateAttach
import OutpostPi.Session.UserDelivery
import OutpostPi.Pi.OfflineBuffer
import OutpostPi.Lib.Base64
import OutpostPi.Pi.PairingProof
import OutpostPi.Session.MeshIngress
import OutpostPi.Pi.MachineIdentity
import OutpostPi.Lib.KeepFirst
import OutpostPi.Session.TranscriptEvent
import OutpostPi.Session.TranscriptProjection
import OutpostPi.Session.TranscriptReconcile
import OutpostPi.App.TranscriptEvent
import OutpostPi.App.TranscriptReducer
import OutpostPi.Relay.RoomChecks
import OutpostPi.Session.BrokerRemote
import OutpostPi.Session.RoomBridge
import OutpostPi.Session.RoomRefresh
import OutpostPi.App.MeshSync
import OutpostPi.App.MeshWatermark
import OutpostPi.App.MeshApply
import OutpostPi.App.MeshMutations
import OutpostPi.Pi.SelfRevoke
import OutpostPi.Session.UserIngress
import OutpostPi.Session.UserOutcome
import OutpostPi.Lib.Counting
import OutpostPi.Session.UserFactLedger
import OutpostPi.Session.UserConservation
import OutpostPi.App.OwnerOutbox
import OutpostPi.App.OwnerOutboxRuns
import OutpostPi.Lib.SocketPath
import OutpostPi.Pi.RuntimeCoordinator
import OutpostPi.Pi.SocketLocks
import OutpostPi.Lib.Base64Padding
import OutpostPi.Relay.OuterFrames
import OutpostPi.Session.Broker
import OutpostPi.Session.BrokerRouting
import OutpostPi.Lib.LastEntry
import OutpostPi.Session.RemoteAddressing
import OutpostPi.Lib.FirstValue
import OutpostPi.Pi.MeshLabels
import OutpostPi.Pi.RoomMetaAgreement
import OutpostPi.Pi.RelayTransport
import OutpostPi.Session.MeshNode
import OutpostPi.Session.MeshBridge
import OutpostPi.Relay.SubscriptionMaps
import OutpostPi.Relay.ConnectionTable
import OutpostPi.Relay.RoomsDedup
import OutpostPi.Relay.RoomBounds
import OutpostPi.Lib.WebSocket
import OutpostPi.Relay.FrameAdmission
import OutpostPi.Relay.PreAuthGuard
import OutpostPi.Lib.JsValue
import OutpostPi.Daemon.ChildOwnership
import OutpostPi.Daemon.OrderlyRuns
import OutpostPi.Relay.FailedLookups
import OutpostPi.Session.BridgeInvariant
import OutpostPi.Session.BridgeRuns
import OutpostPi.Pi.OfflineSuffix
import OutpostPi.Pi.RelayIngress
import OutpostPi.Pi.RevokeRetries
import OutpostPi.App.PeerCrashes
import OutpostPi.App.EpkEncoding
import OutpostPi.App.MeshReapply
import OutpostPi.App.ProjectionUpdates
import OutpostPi.Session.TranscriptBackfill
import OutpostPi.Mcp.BoundedInbox
import OutpostPi.Mcp.Wake
import OutpostPi.Session.HistoryGrowth
import OutpostPi.Daemon.StopRequests
import OutpostPi.Daemon.ChildRetries
import OutpostPi.Pi.FreshShutdown
import OutpostPi.App.WorkingFence
import OutpostPi.Fleet.ArmFile
import OutpostPi.Fleet.KeptCommits
import OutpostPi.Session.FallbackAlignment
import OutpostPi.App.OwnerWipe
import OutpostPi.App.OwnerWipeRecovery
