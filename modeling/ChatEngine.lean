import ChatEngine.Lib.Run
import ChatEngine.Lib.Transaction
import ChatEngine.Lib.Table
import ChatEngine.Lib.Text
import ChatEngine.Lib.Digits
import ChatEngine.Models.Content
import ChatEngine.Models.Timestamps
import ChatEngine.Models.Message
import ChatEngine.Store.Database
import ChatEngine.Store.Statements
import ChatEngine.Store.Messages
import ChatEngine.Store.Rooms
import ChatEngine.Store.Webhooks
import ChatEngine.Store.Commands
import ChatEngine.Store.Consistency
import ChatEngine.Store.Privacy
import ChatEngine.Store.Outbox
import ChatEngine.Store.Gating
import ChatEngine.Store.ReadCursors
import ChatEngine.Store.Clock
import ChatEngine.Store.Unread
import ChatEngine.Models.Payloads
import ChatEngine.Store.WellFormed
import ChatEngine.Store.Reads
import ChatEngine.Store.RoundTrip
import ChatEngine.Store.Caps
import ChatEngine.Store.Newest
import ChatEngine.Store.Changes
import ChatEngine.Store.Threads
import ChatEngine.Store.Tombstones
import ChatEngine.Store.Reactions
import ChatEngine.Store.ReactionCalls
import ChatEngine.Lib.Trail
import ChatEngine.Store.Audit
import ChatEngine.Lib.Pages
import ChatEngine.Store.Listings
import ChatEngine.Store.ReadStates
import ChatEngine.Store.Search
import ChatEngine.Webhooks.Dispatcher
import ChatEngine.Webhooks.Transport
import ChatEngine.Postgres.Database
import ChatEngine.Postgres.Store
import ChatEngine.Postgres.Effects
import ChatEngine.Postgres.Privacy
import ChatEngine.Postgres.Workers
import ChatEngine.Lib.Overlay
import ChatEngine.Postgres.Sessions
import ChatEngine.Postgres.Isolation
import ChatEngine.Lib.LastWrite
import ChatEngine.Postgres.Agreement
import ChatEngine.Postgres.RateLimits
import ChatEngine.Postgres.RateRuns
import ChatEngine.Realtime.Foundation
import ChatEngine.Realtime.Calls
import ChatEngine.Realtime.Recovery
import ChatEngine.Realtime.Relay
import ChatEngine.Realtime.Epochs
import ChatEngine.Realtime.Cluster
import ChatEngine.Realtime.Exclusion
import ChatEngine.Realtime.Connections
import ChatEngine.Realtime.Deployment
import ChatEngine.Realtime.Presence
import ChatEngine.Realtime.Capacity
import ChatEngine.Lib.Feed
import ChatEngine.Realtime.Log
import ChatEngine.Realtime.Delivery
import ChatEngine.Realtime.Retention
import ChatEngine.Sockets.Manager
import ChatEngine.Sockets.Session
import ChatEngine.Sockets.Local
import ChatEngine.Sockets.Fleet
import ChatEngine.Sockets.Handshake
import ChatEngine.Sockets.HandshakeOrder
import ChatEngine.Sockets.Operations
import ChatEngine.Server.RateLimiter
import ChatEngine.Server.Tokens
import ChatEngine.Server.BodyLimit
import ChatEngine.Client.Timeline
import ChatEngine.Client.TimelinePages
import ChatEngine.Client.Metadata
import ChatEngine.Client.Session
import ChatEngine.Client.SessionInvariant
import ChatEngine.Client.SessionRuns
import ChatEngine.Client.SessionLifecycle
