import ProximityNet.Backend.Script
import ProximityNet.Decimal.Rounding
import ProximityNet.Main
import ProximityNet.Proofs.Maps
import ProximityNet.Proofs.Partitions
import ProximityNet.Proofs.Stores
import ProximityNet.Proofs.StoreRuns
import ProximityNet.Proofs.Works
import ProximityNet.Proofs.Moves
import ProximityNet.Proofs.Chains
import ProximityNet.Proofs.Runs
import ProximityNet.Proofs.Views
import ProximityNet.Proofs.Recording
import ProximityNet.Proofs.Transitions
import ProximityNet.Proofs.Ledger
import ProximityNet.Proofs.FirstRaise
import ProximityNet.Proofs.Comparisons
import ProximityNet.Proofs.Settling
import ProximityNet.Proofs.Incremental
import ProximityNet.Proofs.Reachable
import ProximityNet.Proofs.Persistence
import ProximityNet.Proofs.Wiring
import ProximityNet.Proofs.Overheard
import ProximityNet.Proofs.Creations
import ProximityNet.Proofs.Twins
import ProximityNet.Proofs.Containment
import ProximityNet.Proofs.FlatStore
import ProximityNet.Proofs.Tellings
import ProximityNet.Proofs.Unchanged
import ProximityNet.Proofs.Shapings
import ProximityNet.Proofs.AlwaysOn
import ProximityNet.Proofs.Reports
import ProximityNet.Proofs.Playback
import ProximityNet.Proofs.Ranges
import ProximityNet.Proofs.Receding
import ProximityNet.Proofs.Carried
import ProximityNet.Proofs.Blocks
import ProximityNet.Proofs.Nearest
import ProximityNet.Proofs.Proportions
import ProximityNet.Proofs.Tiers
import ProximityNet.Proofs.Waning
import ProximityNet.Proofs.Validation
import ProximityNet.Proofs.Lifecycle
import ProximityNet.Proofs.Forgetting
import ProximityNet.Proofs.Restart
import ProximityNet.Proofs.Routes
import ProximityNet.Proofs.ManagementRoutes
import ProximityNet.Proofs.Chronicle
import ProximityNet.Proofs.TunnelFirst
import ProximityNet.Proofs.Diffs
import ProximityNet.Proofs.Captures
import ProximityNet.Proofs.Broadcasts
import ProximityNet.Proofs.Words
import ProximityNet.Proofs.Texts
import ProximityNet.Proofs.Records
import ProximityNet.Proofs.Exports
import ProximityNet.Proofs.Causes
import ProximityNet.Proofs.Stoppages
import ProximityNet.Proofs.Tallies
import ProximityNet.Proofs.Linking
import ProximityNet.Proofs.Outcomes
import ProximityNet.Proofs.Batches
import ProximityNet.Proofs.Changes
import ProximityNet.Proofs.Bands
import ProximityNet.Proofs.Losses
import ProximityNet.Proofs.Ends
import ProximityNet.Proofs.Populations
import ProximityNet.Proofs.Sums
import ProximityNet.Proofs.Draws
import ProximityNet.Proofs.Strides
import ProximityNet.Proofs.Pairings
import ProximityNet.Proofs.Entries
import ProximityNet.Proofs.Numbering
import ProximityNet.Proofs.Hubs
import ProximityNet.Proofs.Events
