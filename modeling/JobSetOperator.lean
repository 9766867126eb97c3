import JobSetOperator.Library.Programs
import JobSetOperator.Library.Histories
import JobSetOperator.Controller.StartupOrder
import JobSetOperator.Controller.Traversal
import JobSetOperator.Controller.FailureSelection
import JobSetOperator.Controller.TimeToLive
import JobSetOperator.Controller.Completion
import JobSetOperator.Controller.Remerging
import JobSetOperator.Controller.LostEvents
import JobSetOperator.Controller.Unexpired
import JobSetOperator.Controller.StatusCounts
import JobSetOperator.Admission.Immutable
import JobSetOperator.Admission.Closure
import JobSetOperator.Admission.Names
import JobSetOperator.Scheduling.MinCount
import JobSetOperator.Scheduling.Names
import JobSetOperator.Scheduling.Compilation
import JobSetOperator.Scheduling.WakeUp
import JobSetOperator.Cluster.Attempts
import JobSetOperator.Cluster.Metrics
import JobSetOperator.Cluster.Blocking
import JobSetOperator.Cluster.Restarts
import JobSetOperator.Cluster.Suspension
import JobSetOperator.Controller.Transitions
import JobSetOperator.Controller.Ranks
import JobSetOperator.Controller.InPlaceArithmetic
import JobSetOperator.Convergence.Quiescence
import JobSetOperator.Convergence.Scaling
import JobSetOperator.InPlace.Barrier
import JobSetOperator.Placement.Repair
import JobSetOperator.Placement.Verdicts
import JobSetOperator.Placement.Affinities
import JobSetOperator.Placement.Lookup
import JobSetOperator.Cluster.Deadline
import JobSetOperator.Cluster.Lifecycle
import JobSetOperator.Controller.Prerequisites
import JobSetOperator.InPlace.Recovery
import JobSetOperator.Placement.Domains
import JobSetOperator.Cluster.Expiry
import JobSetOperator.Cluster.Grounds
