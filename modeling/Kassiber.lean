import Kassiber.Custody.OrderIndependence
import Kassiber.Custody.NativeTiling
import Kassiber.Tax.Fees
import Kassiber.Austrian.Conservation
import Kassiber.Operator.Protocol
import Kassiber.Custody.Partition
import Kassiber.Custody.GraphMerge
import Kassiber.Custody.GapCompleteness
import Kassiber.Sync.ObserverFence
import Kassiber.Funds.LineageConservation
import Kassiber.Custody.PlanAgreement
import Kassiber.Freshness.JobRuns
import Kassiber.Metadata.EditLog
import Kassiber.Operator.Approvals
import Kassiber.Swaps.HtlcGrammar
import Kassiber.Tax.BlockedPaths
import Kassiber.Engine.GroupGate
import Kassiber.Tax.PayoutPricing
import Kassiber.Tax.Markers
import Kassiber.Supervisor.Delivery
import Kassiber.Transfers.Components
import Kassiber.Transfers.ComponentBooking
import Kassiber.Transfers.Chronology
import Kassiber.Tax.Quarantines
import Kassiber.Custody.DecisionPages
import Kassiber.Custody.ObservationHolds
import Kassiber.Custody.ScopeConnectivity
import Kassiber.Custody.FeeConservation
import Kassiber.Custody.PairShortfalls
import Kassiber.Transfers.ConsolidationLegs
import Kassiber.Custody.AmbiguousHashes
import Kassiber.Psbt.Payjoin
import Kassiber.Funds.RouteDifference
import Kassiber.Ui.ThinkParser
import Kassiber.Imports.Rollback
