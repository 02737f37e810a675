import TcpSansIo.Basic
import TcpSansIo.Core.CircularBuffer
import TcpSansIo.Core.RingQueue
import TcpSansIo.Core.Computation
import TcpSansIo.Ring
import TcpSansIo.TxRing
import TcpSansIo.Wire.Segment
import TcpSansIo.Ooo
import TcpSansIo.RtxQueue
import TcpSansIo.Rack
import TcpSansIo.Congestion
import TcpSansIo.Core.BigEndian
import TcpSansIo.Wire.Codec
import TcpSansIo.Tcb.Types
import TcpSansIo.Tcb.Basic
import TcpSansIo.Tcb.Cookie
import TcpSansIo.Tcb.Output
import TcpSansIo.Tcb.Ack
import TcpSansIo.Tcb.Input
import TcpSansIo.Tcb.Api
import TcpSansIo.Tcb.Footprint
import TcpSansIo.Transitions
import TcpSansIo.OffPath
import TcpSansIo.Rtx.Bitmap
import TcpSansIo.Rtx.Records
import TcpSansIo.Rtx.Valid
import TcpSansIo.Wire.Emission
import TcpSansIo.Core.Transition
import TcpSansIo.Machine.Output
import TcpSansIo.Machine.Options
import TcpSansIo.Machine.Data
import TcpSansIo.Machine.Ack
import TcpSansIo.Machine.Input
import TcpSansIo.Machine.Timers
import TcpSansIo.Machine.Api
import TcpSansIo.Receive.Intake
import TcpSansIo.Receive.Frame
import TcpSansIo.Receive.EndOfStream
import TcpSansIo.Machine.Log
import TcpSansIo.Send.Sizes
import TcpSansIo.Send.PathMtu
import TcpSansIo.Send.Flight
import TcpSansIo.Send.PeerWindow
import TcpSansIo.Send.WindowUpdate
import TcpSansIo.Receive.Timestamps
import TcpSansIo.Core.RateLimit
import TcpSansIo.ChallengeAcks
import TcpSansIo.Tcb.Traversal
import TcpSansIo.Tcb.Host
import TcpSansIo.Listen.Settle
import TcpSansIo.Listen.Cookies
import TcpSansIo.Lingering
import TcpSansIo.Rtx.Origin
import TcpSansIo.Send.EchoedTime
import TcpSansIo.Tcb.Calls
import TcpSansIo.Core.OnesComplement
import TcpSansIo.Wire.Checksum
import TcpSansIo.Wire.OptionBlock
import TcpSansIo.Wire.RoundTrip
import TcpSansIo.Rtx.Scoreboard
import TcpSansIo.Rtx.Consistency
import TcpSansIo.Rtx.Bytes
import TcpSansIo.Rtx.Sack
import TcpSansIo.Rtx.AckTo
import TcpSansIo.Rtx.LossSearch
import TcpSansIo.Rtx.Edits
import TcpSansIo.Rtx.RackScan
import TcpSansIo.Send.CongestionWindow
import TcpSansIo.Core.Intervals
import TcpSansIo.Receive.HeldRanges
import TcpSansIo.Receive.SackOrder
import TcpSansIo.Rtx.Arrived
import TcpSansIo.Send.BetweenAcks
import TcpSansIo.Send.AckReaction
import TcpSansIo.Send.AckLedger
import TcpSansIo.Send.EcnWindow
import TcpSansIo.Send.Delivered
import TcpSansIo.WindowedMin
import TcpSansIo.Wire.OptionGrammar
import TcpSansIo.Wire.Integrity
import TcpSansIo.Core.ParkedQueue
import TcpSansIo.RingRefinement
import TcpSansIo.Send.Backlog
import TcpSansIo.Send.RetransmitTimer
import TcpSansIo.Receive.Parked
import TcpSansIo.Invariants
import TcpSansIo.Faultless
import TcpSansIo.Send.Stream
import TcpSansIo.Receive.Stream
import TcpSansIo.Pair
import TcpSansIo.Receive.AckEvents
import TcpSansIo.Receive.AckDuty
import TcpSansIo.Timers.Liveness
import TcpSansIo.Tcb.OutputTraversal
import TcpSansIo.Send.Path
import TcpSansIo.Receive.Window
import TcpSansIo.Receive.WindowEdge
import TcpSansIo.Send.OnRecord
