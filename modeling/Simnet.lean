import Simnet.Decimal.Layout
import Simnet.Queue
import Simnet.Rng.Draw
import Simnet.Map.Location
import Simnet.Node
import Simnet.Placement
import Simnet.Latency
import Simnet.Network.Config
import Simnet.Partition
import Simnet.Overlay
import Simnet.BlockTree
import Simnet.Counters
import Simnet.Network.Run
import Simnet.LockStep
import Simnet.Json.Printer
import Simnet.Json.Reader
import Simnet.Json.Decode
import Simnet.Codec.Config
import Simnet.Codec.Network
import Simnet.Codec.Report
import Simnet.Script.Behaviour
import Simnet.Script.Scenario
import Simnet.Codec.Document
import Simnet.Proofs.Queue
import Simnet.Proofs.Change
import Simnet.Proofs.History
import Simnet.Proofs.Effect
import Simnet.Proofs.Passage
import Simnet.Proofs.Flow
import Simnet.Proofs.Conservation
import Simnet.Proofs.Calm
import Simnet.Proofs.ExecutionOrder
import Simnet.Proofs.Fuel
import Simnet.Proofs.Slicing
import Simnet.Proofs.Adjacency
import Simnet.Proofs.SeenLedger
import Simnet.Proofs.Flood
import Simnet.Proofs.FloodReach
import Simnet.Proofs.Atomicity
import Simnet.Proofs.Layers
import Simnet.Proofs.Forwarding
import Simnet.Proofs.FloodOnce
import Simnet.Proofs.BlockIndex
import Simnet.Proofs.HeightIndex
import Simnet.Proofs.AcceptedBlocks
import Simnet.Proofs.Heads
import Simnet.Proofs.NestedRuns
import Simnet.Proofs.Letters
import Simnet.Proofs.Deliveries
import Simnet.Proofs.Enrolment
import Simnet.Proofs.TaskCourse
import Simnet.Proofs.TaskSchedule
import Simnet.Proofs.ProposalTime
import Simnet.Proofs.Replay
import Simnet.Proofs.Lineage
import Simnet.Proofs.Registry
import Simnet.Proofs.OverlayIndexing
import Simnet.Proofs.NetworkIndexing
import Simnet.Proofs.Alignment
import Simnet.Proofs.Halting
import Simnet.Proofs.Abort
import Simnet.Proofs.NumberText
import Simnet.Proofs.JsonText
import Simnet.Proofs.ReportText
import Simnet.Proofs.Links
import Simnet.Proofs.TreeGrowth
import Simnet.Proofs.Ancestry
import Simnet.Proofs.FanOut
import Simnet.Proofs.OverlayBuilding
import Simnet.Proofs.Bodies
import Simnet.Proofs.Deferral
import Simnet.Proofs.Departures
import Simnet.Proofs.Alerts
import Simnet.Proofs.Division
import Simnet.Proofs.Termination
import Simnet.Proofs.Difference
import Simnet.Proofs.DistanceDelay
import Simnet.Proofs.Draws
import Simnet.Proofs.DelayBounds
import Simnet.Proofs.Completion
import Simnet.Proofs.MapMetric
import Simnet.Proofs.Rounding
import Simnet.Proofs.MapSplit
import Simnet.Proofs.Estimates
import Simnet.Proofs.KeyedQueue
import Simnet.Proofs.StableQueue
