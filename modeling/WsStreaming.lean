import WsStreaming.Verified.Blocks
import WsStreaming.Verified.Run
import WsStreaming.Verified.Trace
import WsStreaming.Verified.Wire
import WsStreaming.Verified.OrderedMap
import WsStreaming.Verified.Framing
import WsStreaming.Ports.StreamingProtocol
import WsStreaming.Ports.WebsocketProtocol
import WsStreaming.Ports.DynamicBuffer
import WsStreaming.Ports.DynamicBufferQueue
import WsStreaming.Ports.BufferCapacity
import WsStreaming.Ports.BasePeer
import WsStreaming.Ports.HeaderCodec
import WsStreaming.Ports.BasePeerStream
import WsStreaming.Ports.BasePeerReference
import WsStreaming.Verified.Words
import WsStreaming.Ports.ReceiveBounds
import WsStreaming.Ports.Peer
import WsStreaming.Ports.PeerTransmit
import WsStreaming.Ports.PeerSilence
import WsStreaming.Ports.PacketStream
import WsStreaming.Ports.Json
import WsStreaming.Ports.MetadataWire
import WsStreaming.Ports.Metadata
import WsStreaming.Ports.LinearTable
import WsStreaming.Ports.LocalSignals
import WsStreaming.Ports.Subscriptions
import WsStreaming.Ports.LocalSubscriptions
import WsStreaming.Ports.SubscriptionCounts
import WsStreaming.Ports.SubscribeFaces
import WsStreaming.Ports.SubscribeHolders
import WsStreaming.Ports.LocalNumbers
import WsStreaming.Ports.LocalEntries
import WsStreaming.Verified.Halting
import WsStreaming.Ports.UnsubscribeCalls
import WsStreaming.Ports.DomainLinks
import WsStreaming.Ports.DomainBindings
import WsStreaming.Ports.TableSubscriptions
import WsStreaming.Ports.RemoteSignals
import WsStreaming.Ports.SignalTables
import WsStreaming.Ports.SignalNumbers
import WsStreaming.Ports.SignalEvents
import WsStreaming.Ports.Connection
import WsStreaming.Verified.Locks
import WsStreaming.Ports.CallbackLocks
import WsStreaming.Ports.CommandReplies
import WsStreaming.Ports.CommandClient
import WsStreaming.Ports.CommandResponses
import WsStreaming.Ports.SubscriptionIntent
import WsStreaming.Ports.HttpCommandClient
import WsStreaming.Ports.Session
import WsStreaming.Ports.Teardown
import WsStreaming.Ports.Greeting
import WsStreaming.Ports.PeerTls
import WsStreaming.Ports.PeerTlsQueue
import WsStreaming.Ports.PeerClosing
import WsStreaming.Ports.Ends
import WsStreaming.Ports.Conversation
import WsStreaming.Ports.TlsConversation
import WsStreaming.Verified.Walk
import WsStreaming.Ports.Server
import WsStreaming.Ports.ServerEvents
import WsStreaming.Ports.ServerRuns
import WsStreaming.Ports.Broadcast
import WsStreaming.Ports.TrackedNumbers
import WsStreaming.Ports.Advertisement
import WsStreaming.Ports.Mirroring
import WsStreaming.Ports.Streaming
import WsStreaming.Ports.HttpServicer
import WsStreaming.Ports.HttpSessions
import WsStreaming.Ports.Client
import WsStreaming.Ports.ConnectHandlers
import WsStreaming.Ports.SampleIndexes
import WsStreaming.Ports.DomainResolution
import WsStreaming.Ports.DomainValues
import WsStreaming.Ports.SignalExceptions
import WsStreaming.Verified.Rounding
import WsStreaming.Ports.SignalRate
import WsStreaming.Ports.TcpTimeline
import WsStreaming.Ports.StructSamples
import WsStreaming.Ports.StructFields
import WsStreaming.Ports.BuilderReaders
import WsStreaming.Verified.Scan
import WsStreaming.Ports.VersionGrammar
import WsStreaming.Verified.Regex
import WsStreaming.Ports.Url
import WsStreaming.Ports.SubscriptionCommands
import WsStreaming.Verified.Calls
import WsStreaming.Ports.CommandExchange
import WsStreaming.Ports.Convergence
import WsStreaming.Ports.StreamingNodes
import WsStreaming.Ports.PacketTransport
import WsStreaming.Ports.WebsocketStack
import WsStreaming.Ports.TlsStack
