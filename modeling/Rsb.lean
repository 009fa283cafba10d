import Rsb.Event
import Rsb.Transport.Socket.RoutingDelivery
import Rsb.Converter
import Rsb.Transport.Socket.Serialization
import Rsb.Transport.Socket.RoundTrip
import Rsb.Library.LittleEndian
import Rsb.Transport.Socket.BusConnection
import Rsb.Transport.Socket.ReceiveLoop
import Rsb.Transport.Socket.Relay
import Rsb.Transport.Socket.Framing
import Rsb.Transport.Socket.Handshake
import Rsb.Transport.Inprocess.Bus
import Rsb.Transport.Inprocess.Delivery
import Rsb.Transport.Inprocess.Removal
import Rsb.Library.Iteration
import Rsb.Library.Scans
import Rsb.Transport.DispatchLoops
import Rsb.Library.Locks
import Rsb.Transport.Socket.LockDiscipline
import Rsb.Transport.Socket.AcceptLoop
import Rsb.Transport.Socket.Shutdown
import Rsb.Transport.Socket.HalfOpen
import Rsb.Transport.Socket.Isolation
import Rsb.Informer
import Rsb.Patterns.RemoteServer
import Rsb.Patterns.Calls
import Rsb.Patterns.Matching
import Rsb.Patterns.LocalServer
import Rsb.Patterns.Serving
import Rsb.EventProcessing.ReceivingStrategies
import Rsb.EventCollections.EventsByScopeMapConverter
import Rsb.Library.Settings
import Rsb.ParticipantConfig
import Rsb.Scope.Grammar
import Rsb.Scope.StringCache
import Rsb.Scope.Views
import Rsb.Scope.Hierarchy
import Rsb.EventProcessing.SinkBookkeeping
import Rsb.EventProcessing.DispatchHistory
import Rsb.EventProcessing.ScopeRouting
import Rsb.EventProcessing.PullReceivingStrategy
import Rsb.EventCollections.CodecAgreement
import Rsb.Library.InPlace
import Rsb.ParticipantConfig.InPlace
import Rsb.Library.Unambiguous
import Rsb.Converter.SelectionMap
import Rsb.Converter.Repository
import Rsb.Timestamps
import Rsb.Publishing
import Rsb.Patterns.MethodScopes
import Rsb.Library.NestedCalls
import Rsb.Patterns.NestedCalls
import Rsb.Transport.Socket.Factory
import Rsb.Transport.Socket.BusRegistry
import Rsb.Introspection.Sender
import Rsb.Introspection.Queries
import Rsb.Introspection.Announcements
import Rsb.Introspection.Observer
import Rsb.Introspection.Presence
import Rsb.EventProcessing.ConcurrentCalls
import Rsb.EventProcessing.HandlerRemoval
import Rsb.Library.Traversal
import Rsb.Converter.Payloads
import Rsb.EventCollections.MalformedMaps
import Rsb.Converter.MalformedWires
import Rsb.Converter.Integers
import Rsb.Converter.Lookup
import Rsb.EventProcessing.RouteErrorStrategies
import Rsb.Transport.Socket.ActiveConnectors
import Rsb.Library.Erasures
import Rsb.Transport.Inprocess.Rollback
import Rsb.EventProcessing.FailedRoutes
import Rsb.Transport.Socket.Broadcast
import Rsb.Transport.Socket.EndToEnd
import Rsb.Library.Broker
import Rsb.EventProcessing.Filters
import Rsb.Transport.Inprocess.PublishSubscribe
import Rsb.Library.Progress
import Rsb.Transport.Socket.RoutingProgress
import Rsb.Patterns.RemoteCalls
import Rsb.Transport.Transports
import Rsb.Factory
import Rsb.Factory.Connectors
import Rsb.Converter.Defaults
import Rsb.EventProcessing.OutRoutes
import Rsb.Library.Tenants
import Rsb.Patterns.Servers
import Rsb.Library.Polling
import Rsb.EventProcessing.Readers
