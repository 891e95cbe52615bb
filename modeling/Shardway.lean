import Shardway.Config.Stored
import Shardway.Main
import Shardway.Simulation.Scene
import Shardway.Simulation.Terminal
import Shardway.Proofs.Pool.Dialing
import Shardway.Proofs.Pool.OldestFirst
import Shardway.Proofs.Pool.EvictionPass
import Shardway.Proofs.Client.Breakage
import Shardway.Proofs.Pool.Tally
import Shardway.Proofs.Router.Finality
import Shardway.Proofs.Ring.History
import Shardway.Proofs.Ring.Lookup
import Shardway.Proofs.Ring.Resizing
import Shardway.Proofs.Router.Snapshots
import Shardway.Proofs.Topology.Timing
import Shardway.Proofs.Simulation.Hazards
import Shardway.Proofs.Pool.Lending
import Shardway.Proofs.Pool.Refill
import Shardway.Proofs.Topology.Partition
import Shardway.Proofs.Router.Launch
import Shardway.Proofs.Pool.Counters
import Shardway.Proofs.Client.Refusals
import Shardway.Proofs.Router.Touches
import Shardway.Proofs.Client.Retries
import Shardway.Proofs.Codec.Envelope
import Shardway.Proofs.Config.Check
import Shardway.Proofs.Router.Tenure
import Shardway.Proofs.Span.ShortForm
import Shardway.Proofs.Topology.Reports
import Shardway.Proofs.Cli.Watching
