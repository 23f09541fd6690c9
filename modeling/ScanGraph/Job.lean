/-
Jobs: the units of work that the pipeline queues.

A scan job runs a scanner on a snapshot of an object, a normalize job reads the
evidence of a scan job, and a derive job evaluates the rules that a commit
concerns.  A derive job knows the rules and roots its chain has been through.

A job carries all that it needs: a scan job the free form of its object, a normalize job
the scan whose evidence it reads, a derive job the commit and its chain.  Whether the
object can be read back from the free form is found out when it is asked for
(`ScanJob.snapshot`).

The life of a job is said by its status, when it began and ended, and its error.  It
goes one way, from pending over running to completed or failed, as whoever runs it moves
it on; nothing here keeps it from being moved otherwise.
-/
import ScanGraph.Store.Observation

namespace ScanGraph

inductive JobStatus where
  | pending
  | running
  | completed
  | failed
deriving DecidableEq, Repr, Inhabited

namespace JobStatus

def name : JobStatus → String
  | pending => "pending"
  | running => "running"
  | completed => "completed"
  | failed => "failed"

/-- The job is over. -/
def isTerminal (s : JobStatus) : Bool :=
  s == completed || s == failed

end JobStatus

/-- How far a job is, since when, and what went wrong. -/
structure Lifecycle where
  status : JobStatus
  startedAt : Option Instant
  endedAt : Option Instant
  error : Option String
deriving DecidableEq, Repr

namespace Lifecycle

/-- The life of a job that has not started. -/
def pending : Lifecycle :=
  ⟨.pending, none, none, none⟩

instance : Inhabited Lifecycle :=
  ⟨pending⟩

def start (l : Lifecycle) (now : Instant) : Lifecycle :=
  { l with status := .running, startedAt := some now }

/-- The job ends well. -/
def complete (l : Lifecycle) (now : Instant) : Lifecycle :=
  { l with status := .completed, endedAt := some now }

/-- The job ends well, although its plugin reported something expected that went wrong. -/
def completeWith (l : Lifecycle) (error : String) (now : Instant) : Lifecycle :=
  { l with error := some error }.complete now

def fail (l : Lifecycle) (error : String) (now : Instant) : Lifecycle :=
  { l with status := .failed, error := some error, endedAt := some now }

end Lifecycle

/-- A plugin and the version of it that was scheduled. -/
structure PluginRef where
  id : String
  version : Option String
deriving DecidableEq, Repr, Inhabited

inductive JobKind where
  | scan
  | normalize
  | derive
deriving DecidableEq, Repr, Inhabited

namespace JobKind

/-- The kinds in the order in which their queues are served. -/
def all : List JobKind :=
  [scan, normalize, derive]

/-- The name of a kind of job. -/
def name : JobKind → String
  | scan => "boefje"
  | normalize => "normalizer"
  | derive => "derive"

end JobKind

structure ScanJob where
  id : Uuid
  scanner : PluginRef
  inputReference : Reference
  /-- The object as it was when the job was made. -/
  input : Json
  arguments : Table String String
  organization : String
  life : Lifecycle
deriving BEq, Repr, Inhabited

namespace ScanJob

/-- A job that scans the given object. -/
def ofSnapshot (id : Uuid) (scanner : PluginRef) (input : Snapshot) (organization : String) :
    ScanJob :=
  ⟨id, scanner, input.reference, input.toJson.sorted, .empty, organization, .pending⟩

/-- The object to scan. -/
def snapshot (j : ScanJob) : Except DecodeError Snapshot :=
  Snapshot.decoder j.input

end ScanJob

/-- One reading of the evidence of a scan. -/
structure NormalizeJob where
  id : Uuid
  scan : ScanJob
  normalizer : PluginRef
  life : Lifecycle
deriving BEq, Repr, Inhabited

def NormalizeJob.ofScan (id : Uuid) (scan : ScanJob) (normalizer : PluginRef) : NormalizeJob :=
  ⟨id, scan, normalizer, .pending⟩

/-- A rule and a root that it has been evaluated for. -/
structure Visit where
  rule : String
  root : Reference
deriving DecidableEq, Repr

/-- One evaluation of what a commit concerns. -/
structure DeriveJob where
  id : Uuid
  commit : Commit
  /-- The number of derivations since the observation that began the chain. -/
  depth : UInt32
  lineage : List Visit
  life : Lifecycle
deriving DecidableEq, Repr

namespace DeriveJob

/-- The first job of a chain. -/
def ofCommit (id : Uuid) (commit : Commit) : DeriveJob :=
  ⟨id, commit, 0, [], .pending⟩

/-- The next job of a chain, after `visit` led to `commit`. -/
def followUp (j : DeriveJob) (id : Uuid) (commit : Commit) (visit : Visit) : DeriveJob :=
  ⟨id, commit, j.depth + 1, j.lineage ++ [visit], .pending⟩

/-- The chain of the job has been through a visit. -/
def hasVisited (j : DeriveJob) (visit : Visit) : Bool :=
  j.lineage.contains visit

end DeriveJob

/-- A unit of work. -/
inductive Job where
  | scan (job : ScanJob)
  | normalize (job : NormalizeJob)
  | derive (job : DeriveJob)
deriving BEq, Repr

namespace Job

def kind : Job → JobKind
  | scan _ => .scan
  | normalize _ => .normalize
  | derive _ => .derive

def id : Job → Uuid
  | scan j => j.id
  | normalize j => j.id
  | derive j => j.id

end Job

end ScanGraph
