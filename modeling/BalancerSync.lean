import BalancerSync.Main
import BalancerSync.Inventory.Outline
import BalancerSync.Proofs.Cancellation
import BalancerSync.Proofs.Consistency
import BalancerSync.Proofs.Departures
import BalancerSync.Proofs.Dependents
import BalancerSync.Proofs.Directory
import BalancerSync.Proofs.Dismantling
import BalancerSync.Proofs.FixedPoint
import BalancerSync.Proofs.Freshness
import BalancerSync.Proofs.Retrieval.Refinement
import BalancerSync.Proofs.LeastChange
import BalancerSync.Proofs.Matching
import BalancerSync.Proofs.Partition
import BalancerSync.Proofs.Polling
import BalancerSync.Proofs.Readiness
import BalancerSync.Proofs.Rearrangement
import BalancerSync.Proofs.Recovery
import BalancerSync.Proofs.Repetition
import BalancerSync.Proofs.Resumption
import BalancerSync.Proofs.Teardown
import BalancerSync.Proofs.Convoy.Release
import BalancerSync.Proofs.Crowd.Convergence
import BalancerSync.Proofs.Fleet.Convergence
import BalancerSync.Proofs.Rendezvous.Attendance
import BalancerSync.Proofs.Rendezvous.Progress
import BalancerSync.Proofs.Snapshot
import BalancerSync.Proofs.Success
import BalancerSync.Scenario.Meeting
import BalancerSync.Scenario.Session
import BalancerSync.Scenario.SharedFetch
