import TorE2EE.Foundation.Program
import TorE2EE.Foundation.Rows
import TorE2EE.Crypto.Types
import TorE2EE.Crypto.Primitives
import TorE2EE.Crypto.Store
import TorE2EE.Crypto.Engine
import TorE2EE.Crypto.Chains
import TorE2EE.Crypto.EngineRuns
import TorE2EE.Crypto.SessionSetup
import TorE2EE.Crypto.Symbolic
import TorE2EE.Crypto.Bundles
import TorE2EE.Crypto.MessageKeys
import TorE2EE.Crypto.KeyLineage
import TorE2EE.Crypto.World
import TorE2EE.Crypto.Epochs
import TorE2EE.Crypto.Deliveries
import TorE2EE.Crypto.InSync
import TorE2EE.Crypto.InOrder
import TorE2EE.Crypto.Opening
import TorE2EE.Crypto.FirstContact
import TorE2EE.Crypto.OpeningFlight
import TorE2EE.Crypto.SharedBundles
import TorE2EE.Crypto.Conversation
import TorE2EE.Crypto.FailedDecrypt
import TorE2EE.Crypto.Initiation
import TorE2EE.Crypto.SpentKeys
import TorE2EE.Crypto.Replays
import TorE2EE.Foundation.Pool
import TorE2EE.Crypto.ConcurrentCalls
import TorE2EE.Foundation.Interruption
import TorE2EE.Crypto.Calls
import TorE2EE.Crypto.SendChains
import TorE2EE.Crypto.Restarts
import TorE2EE.Crypto.Derivations
import TorE2EE.Crypto.OpenKeys
import TorE2EE.Crypto.UsedKeys
import TorE2EE.Crypto.HeaderBinding
import TorE2EE.Foundation.Json
import TorE2EE.Client.ContactExchange
import TorE2EE.Foundation.Machine
import TorE2EE.Relay.Types
import TorE2EE.Relay.Auth
import TorE2EE.Relay.Database
import TorE2EE.Relay.Session
import TorE2EE.Relay.Server
import TorE2EE.Relay.Placement
import TorE2EE.Relay.Isolation
import TorE2EE.Relay.Delivery
import TorE2EE.Relay.Stranding
import TorE2EE.Foundation.Tables
import TorE2EE.Foundation.Listings
import TorE2EE.Foundation.Contracts
import TorE2EE.Foundation.Coupling
import TorE2EE.Crypto.Canonical
import TorE2EE.Crypto.SqliteStore
import TorE2EE.Crypto.InMemory
import TorE2EE.Crypto.LiveSessions
import TorE2EE.Crypto.Interchange
import TorE2EE.Client.Symbolic
import TorE2EE.Client.Signatures
import TorE2EE.Client.Database
import TorE2EE.Client.Methods
import TorE2EE.Client.Receiving
import TorE2EE.Client.Runs
import TorE2EE.Client.SymbolicRun
import TorE2EE.Client.Imports
import TorE2EE.Client.ImportSessions
import TorE2EE.Foundation.UnlockedUpdates
import TorE2EE.Client.DeviceLists
import TorE2EE.Client.SelfSync
import TorE2EE.Client.ReceivePaths
import TorE2EE.Foundation.Streaming
import TorE2EE.Client.Framing
import TorE2EE.Client.Base64
import TorE2EE.Client.Login
import TorE2EE.Client.Sending
import TorE2EE.Client.DeliveryStatus
import TorE2EE.Client.SyncReplication
import TorE2EE.Client.Rejections
import TorE2EE.Client.LinkedDevices
import TorE2EE.Client.OneContact
import TorE2EE.Client.Histories
import TorE2EE.Client.Overviews
import TorE2EE.Client.Stream
import TorE2EE.Client.StreamSteps
import TorE2EE.Client.CallStack
import TorE2EE.Client.Disconnecting
import TorE2EE.Client.Reconnecting
import TorE2EE.Client.OneConnection
import TorE2EE.Client.Addresses
import TorE2EE.Client.Socks5
import TorE2EE.Client.HttpSettling
import TorE2EE.Client.HttpChunking
import TorE2EE.Client.Conversations
import TorE2EE.Client.DeviceLinks
import TorE2EE.Client.Socks5Tunnel
import TorE2EE.Crypto.Skipping
import TorE2EE.Foundation.Faults
import TorE2EE.Client.Migrations
import TorE2EE.Client.SchemaVersions
import TorE2EE.Client.DatabaseKeys
import TorE2EE.Foundation.Traces
import TorE2EE.Relay.Expiry
import TorE2EE.Relay.PeerMap
import TorE2EE.Relay.Addressing
import TorE2EE.Client.TorManager
import TorE2EE.Client.SyncWait
import TorE2EE.Client.SyncTeardown
import TorE2EE.Crypto.Attackers
import TorE2EE.Crypto.Dealings
import TorE2EE.Crypto.Networks
import TorE2EE.Crypto.Publications
import TorE2EE.Crypto.Secrecy
import TorE2EE.Crypto.Authenticity
import TorE2EE.Crypto.RatchetKeys
import TorE2EE.Crypto.Compromise
import TorE2EE.Crypto.Moves
import TorE2EE.Client.Provenance
import TorE2EE.Client.Mirrors
import TorE2EE.Client.Fleets
import TorE2EE.Client.EndToEnd
