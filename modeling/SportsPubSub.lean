import SportsPubSub.Lib.Reactive
import SportsPubSub.Lib.Posix
import SportsPubSub.Lib.BoundedMultimap
import SportsPubSub.Lib.LittleEndian
import SportsPubSub.Lib.KeyedList
import SportsPubSub.Udp.Protocol
import SportsPubSub.Udp.Broker
import SportsPubSub.Udp.Routing
import SportsPubSub.Udp.Subscription
import SportsPubSub.Quic.Packet
import SportsPubSub.Quic.Broker
import SportsPubSub.Quic.Entries
import SportsPubSub.Quic.Outstanding
import SportsPubSub.Quic.Leftover
import SportsPubSub.Lib.DatagramNet
import SportsPubSub.Quic.Client
import SportsPubSub.Quic.Composed
import SportsPubSub.Quic.Provenance
import SportsPubSub.Quic.AckSoundness
import SportsPubSub.Quic.DisplayOrder
import SportsPubSub.Lib.UnorderedTable
import SportsPubSub.Tcp.Bounds
import SportsPubSub.Tcp.Descriptors
import SportsPubSub.Tcp.Delivery
import SportsPubSub.Quic.Bookkeeping
import SportsPubSub.Quic.Forwarding
import SportsPubSub.Quic.Registration
import SportsPubSub.Udp.Publisher
import SportsPubSub.Udp.Subscriber
import SportsPubSub.Udp.Publication
import SportsPubSub.Udp.AsmSubscriber
import SportsPubSub.Lib.Framing
import SportsPubSub.Tcp.Signals
import SportsPubSub.Tcp.Integrity
import SportsPubSub.Udp.Registry
import SportsPubSub.Udp.Reordering
import SportsPubSub.Udp.TopicNames
import SportsPubSub.Udp.Sizes
import SportsPubSub.Lib.Retry
import SportsPubSub.Quic.Clock
import SportsPubSub.Quic.SendWithRetx
import SportsPubSub.Udp.Demo
import SportsPubSub.Tcp.AsmBroker
import SportsPubSub.Tcp.Streams
import SportsPubSub.Tcp.Accepts
import SportsPubSub.Lib.Strtoul
import SportsPubSub.Udp.Arguments
import SportsPubSub.Lib.Memory
import SportsPubSub.Udp.AsmBroker
import SportsPubSub.Udp.AsmTable
import SportsPubSub.Udp.AsmBrokerRefines
import SportsPubSub.Udp.Composed
import SportsPubSub.Udp.Provenance
import SportsPubSub.Udp.Duplicates
import SportsPubSub.Udp.Exactness
import SportsPubSub.Udp.AsmPublisher
import SportsPubSub.Udp.AsmPublisherRefines
import SportsPubSub.Tcp.Clients
import SportsPubSub.Tcp.Composed
import SportsPubSub.Udp.AsmSubscriberMain
import SportsPubSub.Udp.AsmSubscriberRefines
import SportsPubSub.Udp.AsmSystem
import SportsPubSub.Quic.StopAndWait
import SportsPubSub.Udp.AsmPublisherMain
