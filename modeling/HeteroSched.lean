import HeteroSched.Counters
import HeteroSched.StaleRelease
import HeteroSched.JobStatus
import HeteroSched.RealLoad
import HeteroSched.Submission
import HeteroSched.DrainedGate
import HeteroSched.RunSummary
import HeteroSched.FailureDetector
import HeteroSched.SubmitJob
import HeteroSched.LeastLoaded
import HeteroSched.RoundRobin
import HeteroSched.HeadOfLine
import HeteroSched.Draining
import HeteroSched.ForeignKeys
import HeteroSched.RunLifecycle
import HeteroSched.Retries
import HeteroSched.FailedRequests
import HeteroSched.PlacementCounter
import HeteroSched.FilterClaim
import HeteroSched.Harness
import HeteroSched.TimeUtils
import HeteroSched.Utilisation
import HeteroSched.Margins
import HeteroSched.Statistics
import HeteroSched.Fairness
import HeteroSched.Spread
import HeteroSched.Monitoring
import HeteroSched.Export
import HeteroSched.Agent
import HeteroSched.Timestamps
import HeteroSched.Migration
import HeteroSched.Recorded
import HeteroSched.Restarts
import HeteroSched.NextRun
import HeteroSched.Reexport
import HeteroSched.Enrolment
