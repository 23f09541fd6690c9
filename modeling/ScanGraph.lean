import ScanGraph.Queue.Codec
import ScanGraph.Scenario
import ScanGraph.Settings
import ScanGraph.Summary.Schema
import ScanGraph.Proofs.Clearance.Ceiling
import ScanGraph.Proofs.Clearance.Recalculation
import ScanGraph.Proofs.Clearance.Renewal
import ScanGraph.Proofs.Derivation.Isolation
import ScanGraph.Proofs.Derivation.Reuse
import ScanGraph.Proofs.Derivation.Triggers
import ScanGraph.Proofs.Derivation.Validation
import ScanGraph.Proofs.Dns.Scan
import ScanGraph.Proofs.Entity.Identity
import ScanGraph.Proofs.Pipeline.Clearance
import ScanGraph.Proofs.Store.Backward
import ScanGraph.Proofs.Store.Arrival
import ScanGraph.Proofs.Store.Again
import ScanGraph.Proofs.Pipeline.Routine
import ScanGraph.Proofs.Pipeline.Worker
import ScanGraph.Proofs.Pipeline.Discipline
import ScanGraph.Proofs.Pipeline.Crew
import ScanGraph.Proofs.Pipeline.Draining
import ScanGraph.Proofs.Pipeline.Gate
import ScanGraph.Proofs.Pipeline.Attempts
import ScanGraph.Proofs.Pipeline.Causality
import ScanGraph.Proofs.Pipeline.Scheduling
import ScanGraph.Proofs.Derivation.Evaluator
import ScanGraph.Proofs.Dns.Answers
import ScanGraph.Proofs.Dns.Assignment
import ScanGraph.Proofs.Dns.Duties
import ScanGraph.Proofs.Dns.Heeding
import ScanGraph.Proofs.Dns.Resolved
import ScanGraph.Proofs.Queue.Conservation
import ScanGraph.Proofs.Pipeline.Settlement
import ScanGraph.Proofs.Pipeline.Chronicle
import ScanGraph.Proofs.Job.Snapshots
import ScanGraph.Proofs.Archive.Rereading
import ScanGraph.Proofs.Derivation.Commuting
import ScanGraph.Proofs.Store.Chains
import ScanGraph.Proofs.Store.Timeline
import ScanGraph.Proofs.Derivation.Firewall
import ScanGraph.Proofs.Derivation.Dispatch
import ScanGraph.Proofs.Store.Declared
import ScanGraph.Proofs.Plugin.Rereading
import ScanGraph.Proofs.Dns.Answered
import ScanGraph.Proofs.Dns.Closed
import ScanGraph.Proofs.Normalizing.Kept
import ScanGraph.Proofs.Derivation.Expiry
import ScanGraph.Proofs.Registry.Consistency
import ScanGraph.Proofs.Pipeline.Routing
import ScanGraph.Proofs.Reference.Reading
