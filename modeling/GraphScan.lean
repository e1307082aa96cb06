import GraphScan.Config.Load
import GraphScan.World
import GraphScan.Proofs.Table.Queue
import GraphScan.Proofs.Aggregate.Writes
import GraphScan.Proofs.Gate.Window
import GraphScan.Proofs.Aggregate.Drive
import GraphScan.Proofs.Scan.Loop
import GraphScan.Proofs.Scan.Delivery
import GraphScan.Proofs.Scan.Accepted
import GraphScan.Proofs.Scan.Semantics
import GraphScan.Proofs.Scan.Fusion
import GraphScan.Proofs.Aggregate.Emission
import GraphScan.Proofs.Aggregate.Grouping
import GraphScan.Proofs.Aggregate.Collect
import GraphScan.Proofs.Aggregate.Completion
import GraphScan.Proofs.Aggregate.Twin
import GraphScan.Proofs.Aggregate.Meaning
import GraphScan.Proofs.Aggregate.Strategy
import GraphScan.Proofs.Aggregate.Sessions
import GraphScan.Proofs.Scan.Progress
import GraphScan.Proofs.Scan.Ending
import GraphScan.Proofs.Scan.Failure
import GraphScan.Proofs.Scan.Accounting
import GraphScan.Proofs.Expr.Connectives
import GraphScan.Proofs.Expr.Knowledge
import GraphScan.Proofs.Typing.Expr
import GraphScan.Proofs.Typing.Aggregate
import GraphScan.Proofs.Typing.Scan
import GraphScan.Proofs.Gate.Pages
import GraphScan.Proofs.Scan.Success
import GraphScan.Proofs.Scan.Paging
import GraphScan.Proofs.Aggregate.Restart
import GraphScan.Proofs.Scan.Renewal
import GraphScan.Proofs.Graph.Records
import GraphScan.Proofs.World.Sound
import GraphScan.Proofs.World.Frame
import GraphScan.Proofs.Meter.Multiples
import GraphScan.Proofs.Scan.Pace
import GraphScan.Proofs.World.Contexts
import GraphScan.Proofs.Aggregate.Defenses
import GraphScan.Proofs.Scan.Defenses
import GraphScan.Proofs.Metrics.Tally
import GraphScan.Proofs.World.Stories
import GraphScan.Proofs.Binary64.Units
import GraphScan.Proofs.Binary64.Nearest
import GraphScan.Proofs.Value.Order
import GraphScan.Proofs.Gate.Calls
import GraphScan.Proofs.Aggregate.Finality
import GraphScan.Proofs.Aggregate.Inputs
import GraphScan.Proofs.Aggregate.Shuffle
import GraphScan.Proofs.Aggregate.Extrema
import GraphScan.Proofs.Aggregate.Totals
import GraphScan.Proofs.Expr.Integers
import GraphScan.Proofs.Scan.Pipeline
import GraphScan.Proofs.Aggregate.Coherence
import GraphScan.Proofs.Aggregate.Lifecycle
import GraphScan.Proofs.Graph.Fetching
import GraphScan.Proofs.World.Conforming
