import NetworkSimulator.Library.Runs
import NetworkSimulator.Library.StableOrder
import NetworkSimulator.Scheduler.List
import NetworkSimulator.Scheduler.Calendar
import NetworkSimulator.Scheduler.CalendarBuckets
import NetworkSimulator.Scheduler.CalendarHead
import NetworkSimulator.Scheduler.CalendarStable
import NetworkSimulator.Library.TreeStore
import NetworkSimulator.Scheduler.Splay
import NetworkSimulator.Scheduler.SplayOrder
import NetworkSimulator.Scheduler.SplayEqual
import NetworkSimulator.Library.BinaryHeap
import NetworkSimulator.Scheduler.Heap
import NetworkSimulator.Scheduler.HeapOrder
import NetworkSimulator.Scheduler.HeapEqual
import NetworkSimulator.Scheduler.Dispatch
import NetworkSimulator.Scheduler.Timers
import NetworkSimulator.Link.PacketQueue
import NetworkSimulator.Link.SimplexLink
import NetworkSimulator.Library.TokenBucket
import NetworkSimulator.Link.TokenBucketFilter
import NetworkSimulator.Diffserv.Policy
import NetworkSimulator.Library.Links
import NetworkSimulator.Tcp.ReassemblyQueue
import NetworkSimulator.Tcp.ReassemblyLinks
import NetworkSimulator.Library.Ranges
import NetworkSimulator.Tcp.Blocks
import NetworkSimulator.Tcp.ReassemblyContent
import NetworkSimulator.Tcp.ReassemblyAdd
import NetworkSimulator.Tcp.ReassemblyRuns
import NetworkSimulator.Tcp.Reass
import NetworkSimulator.Tcp.ReassemblyFlags
import NetworkSimulator.Tcp.Scoreboard
import NetworkSimulator.Tcp.ScoreboardRuns
import NetworkSimulator.Tcp.FullTcp
import NetworkSimulator.Tcp.FullTcpRecv
import NetworkSimulator.Tcp.FullTcpSends
import NetworkSimulator.Tcp.FullTcpDelivery
import NetworkSimulator.Tcp.FullTcpDupacks
import NetworkSimulator.Library.Loops
import NetworkSimulator.Library.SortedMap
import NetworkSimulator.Library.Walks
import NetworkSimulator.Routing.RouteLogic
import NetworkSimulator.Routing.ComputeRoutes
import NetworkSimulator.LinkState.ComputeRoutes
import NetworkSimulator.LinkState.ZeroCycles
import NetworkSimulator.Sctp.Receiver
import NetworkSimulator.Sctp.TsnBlocks
import NetworkSimulator.Sctp.TsnRuns
import NetworkSimulator.Sctp.Sender
import NetworkSimulator.Sctp.Sack
import NetworkSimulator.Sctp.SendBuffer
import NetworkSimulator.Sctp.GapAcks
import NetworkSimulator.Sctp.SackExact
import NetworkSimulator.Library.Network
import NetworkSimulator.Sctp.Handshake
import NetworkSimulator.Sctp.HandshakeAgreement
import NetworkSimulator.Routing.HierRoutes
import NetworkSimulator.Routing.HierConnectivity
import NetworkSimulator.Tcp.Sacker
import NetworkSimulator.Tcp.AckerWindow
import NetworkSimulator.Tcp.SackerRuns
import NetworkSimulator.Library.Ring
import NetworkSimulator.Tcp.Snoop
import NetworkSimulator.Tcp.SnoopRuns
import NetworkSimulator.Library.Routes
import NetworkSimulator.Tora.Agent
import NetworkSimulator.Tora.Counters
import NetworkSimulator.Tora.Acyclic
import NetworkSimulator.Queue.Drr
import NetworkSimulator.Queue.DrrFair
import NetworkSimulator.Satellite.Hdlc
import NetworkSimulator.Satellite.HdlcBuffer
import NetworkSimulator.Satellite.HdlcDelivery
import NetworkSimulator.Tools.Rng
import NetworkSimulator.Tools.RngJumps
import NetworkSimulator.Tools.RngExact
import NetworkSimulator.Dsr.MobiCache
import NetworkSimulator.Dsr.MobiCacheRuns
import NetworkSimulator.Dsr.LinkCache
import NetworkSimulator.Dsr.LinkCacheRuns
import NetworkSimulator.Mac.Mac80211
import NetworkSimulator.Mac.Handlers
import NetworkSimulator.Mac.Pending
import NetworkSimulator.Mac.Sender
import NetworkSimulator.Mac.SenderOrder
import NetworkSimulator.Mac.Retries
import NetworkSimulator.Mac.Duplicates
import NetworkSimulator.Mac.Backoff
import NetworkSimulator.Mac.Reception
import NetworkSimulator.Mac.Reservations
import NetworkSimulator.Mac.ArpTable
import NetworkSimulator.Nix.NixNode
import NetworkSimulator.Nix.NixRoutes
import NetworkSimulator.Wfrp.Agent
import NetworkSimulator.Wfrp.Disposal
import NetworkSimulator.Library.Broadcast
import NetworkSimulator.Wfrp.Loops
import NetworkSimulator.Wfrp.Expiry
import NetworkSimulator.Tcp.AckerSet
import NetworkSimulator.Vanets.Agent
import NetworkSimulator.Vanets.Custody
import NetworkSimulator.Vanets.NeighborTable
import NetworkSimulator.Imep.Agent
import NetworkSimulator.Imep.Links
import NetworkSimulator.Imep.Notifications
import NetworkSimulator.Imep.Neighbors
import NetworkSimulator.Imep.Retirement
import NetworkSimulator.Imep.InOrder
import NetworkSimulator.Imep.Delivery
import NetworkSimulator.Imep.ControlPacket
import NetworkSimulator.Imep.ControlBlocks
import NetworkSimulator.Imep.ControlFlush
import NetworkSimulator.Aodv.Rqueue
import NetworkSimulator.Aodv.RqueueRuns
import NetworkSimulator.Aodv.Errors
import NetworkSimulator.Tcp.ReassemblyStack
import NetworkSimulator.Tcp.ProcessSack
import NetworkSimulator.Tcp.RttEstimator
import NetworkSimulator.LinkState.Loop
import NetworkSimulator.LinkState.Freshness
import NetworkSimulator.Dsdv.Agent
import NetworkSimulator.Dsdv.Stale
import NetworkSimulator.Dsdv.Drain
import NetworkSimulator.Dsdv.Updates
import NetworkSimulator.Tcp.FackScoreboard
import NetworkSimulator.Tcp.FackScoreboardRuns
import NetworkSimulator.Tcp.TimestampTable
import NetworkSimulator.Queue.FlowHash
import NetworkSimulator.Dsr.CompressPath
import NetworkSimulator.Library.BitFields
import NetworkSimulator.Routing.BitMap
import NetworkSimulator.Nix.NixWords
import NetworkSimulator.Nix.NixRoundTrip
import NetworkSimulator.Diffusion.AttributeOrder
import NetworkSimulator.Diffusion.AttributeMatch
import NetworkSimulator.Satellite.HdlcDisposal
import NetworkSimulator.Sctp.DelayedSacks
import NetworkSimulator.Queue.DrrBooks
import NetworkSimulator.Queue.Sfq
import NetworkSimulator.Queue.SfqBooks
import NetworkSimulator.Sctp.Association
import NetworkSimulator.Sctp.PeerWindow
import NetworkSimulator.Sctp.PeerWindowRuns
import NetworkSimulator.Sctp.RecvWindow
