import RanInline.Cxl.DescRing
import RanInline.Cxl.FrontEnds
import RanInline.Cxl.LlrMover
import RanInline.Ingest.Accounting
import RanInline.Ingest.Arena
import RanInline.Ingest.ArenaBound
import RanInline.Ingest.ArenaReuse
import RanInline.Ingest.BpfFilter
import RanInline.Ingest.Driver
import RanInline.Ingest.FrameBounds
import RanInline.Ingest.Poll
import RanInline.Ldpc.Arith
import RanInline.Ldpc.BaseGraph
import RanInline.Ldpc.CharRange
import RanInline.Ldpc.Decode
import RanInline.Ldpc.DeltaForm
import RanInline.Ldpc.Erasure
import RanInline.Ldpc.Kernel
import RanInline.Ldpc.Layer
import RanInline.Ldpc.Lifting
import RanInline.Ldpc.MinSum
import RanInline.Ldpc.SignConsistent
import RanInline.Lib.BinaryPoly
import RanInline.Lib.ByteRegion
import RanInline.Lib.CheckedStore
import RanInline.Lib.Checklist
import RanInline.Lib.ClassicBpf
import RanInline.Lib.Commuting
import RanInline.Lib.Extrinsic
import RanInline.Lib.Gradual
import RanInline.Lib.HandleTable
import RanInline.Lib.Interleave
import RanInline.Lib.KeyedOrder
import RanInline.Lib.LastWins
import RanInline.Lib.LinearSequence
import RanInline.Lib.Progress
import RanInline.Lib.RecordStream
import RanInline.Lib.ReflectedCrc
import RanInline.Lib.Straightline
import RanInline.Lib.Transition
import RanInline.Lib.Wrap
import RanInline.Offload.Async
import RanInline.Offload.LdpcSim
import RanInline.Offload.Region
import RanInline.Offload.Sync
import RanInline.Oran.Grammar
import RanInline.Oran.Preparse
import RanInline.Oran.SlotCounter
import RanInline.Oran.SlotDemux
import RanInline.Oran.Wire
import RanInline.Osg.Classifier
import RanInline.Osg.Comparator
import RanInline.Osg.Format
import RanInline.Osg.GridSet
import RanInline.Osg.Harness
import RanInline.Osg.OracleGrid
import RanInline.Osg.Pcap
import RanInline.Osg.Readers
import RanInline.Osg.Schedule
import RanInline.Osg.SlotPhase
import RanInline.Osg.Verdict
import RanInline.Phy.Completeness
import RanInline.Phy.Config
import RanInline.Phy.Depacketize
import RanInline.Phy.Descramble
import RanInline.Phy.Drain
import RanInline.Phy.Gold
import RanInline.Phy.LaunchGraph
import RanInline.Phy.Overlay
import RanInline.Phy.Pipeline
import RanInline.Phy.PipelineRunner
import RanInline.Phy.Processes
import RanInline.Phy.Resources
import RanInline.Phy.RingIsolation
import RanInline.Rig.Ledger
import RanInline.Rig.LedgerTools
import RanInline.Rig.Runner
import RanInline.Seam.Bridge
import RanInline.Seam.BridgeDelivery
import RanInline.Seam.ConsumerState
import RanInline.Seam.Delivery
import RanInline.Seam.Invariant
import RanInline.Seam.L2Stub
import RanInline.Seam.L2Validate
import RanInline.Seam.Move
import RanInline.Seam.ProducerOrder
import RanInline.Seam.Ring
import RanInline.Seam.Segment
import RanInline.Tail.CbSegment
import RanInline.Tail.Crc
import RanInline.Tail.CrcDivision
import RanInline.Tail.Dematch
import RanInline.Tail.Desegment
import RanInline.Tail.Layout
import RanInline.Tail.RateMatch
import RanInline.Tail.Receive
import RanInline.Tail.SegmentWords
import RanInline.Tail.Transmit
