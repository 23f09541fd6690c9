/-
The archive: what is kept of jobs, evidence and evaluations.

A job is kept under its id, the evidence under the id of the scan that brought
it, and every attempt to evaluate a rule in the order in which they were
recorded.

Saving never fails by itself.  An archive that is offline is a matter of the pipeline,
which then does not come here (`Outages`).  What is saved under an id takes the place of
what was there, and nothing is ever removed.

Attempts are kept whole, with the references of what they are credited with but without
these objects.  Their order is that of recording and not of their times.
-/
import ScanGraph.Event
import ScanGraph.Evidence

namespace ScanGraph

/-- The record of one evaluation of a rule for a root. -/
structure Attempt where
  id : Uuid
  job : Option Uuid
  rule : String
  root : Reference
  evaluation : Evaluation
  output : List Reference
  attemptedAt : Instant
deriving DecidableEq, Repr

/-- What is kept. -/
structure Archive where
  scans : Table Uuid ScanJob
  normalizes : Table Uuid NormalizeJob
  derives : Table Uuid DeriveJob
  evidence : Table Uuid Evidence
  attempts : List Attempt

namespace Archive

/-- The archive that holds nothing. -/
def empty : Archive :=
  ⟨.empty, .empty, .empty, .empty, []⟩

instance : Inhabited Archive :=
  ⟨empty⟩

/-- The archive with a job under its id. -/
def saveJob (a : Archive) : Job → Archive
  | .scan j => { a with scans := a.scans.insert j.id j }
  | .normalize j => { a with normalizes := a.normalizes.insert j.id j }
  | .derive j => { a with derives := a.derives.insert j.id j }

/-- The jobs of a kind, in order of their ids. -/
def jobs (a : Archive) : JobKind → List Job
  | .scan => a.scans.values.map .scan
  | .normalize => a.normalizes.values.map .normalize
  | .derive => a.derives.values.map .derive

/-- The job of a kind under an id. -/
def job? (a : Archive) (kind : JobKind) (id : Uuid) : Option Job :=
  match kind with
  | .scan => (a.scans.get? id).map .scan
  | .normalize => (a.normalizes.get? id).map .normalize
  | .derive => (a.derives.get? id).map .derive

/-- The archive with the evidence of a scan. -/
def saveEvidence (a : Archive) (scan : Uuid) (e : Evidence) : Archive :=
  { a with evidence := a.evidence.insert scan e }

/-- The archive with one more attempt. -/
def saveAttempt (a : Archive) (attempt : Attempt) : Archive :=
  { a with attempts := a.attempts ++ [attempt] }

/-- The attempts, of one rule or of all, in the order in which they were recorded. -/
def attemptsOf (a : Archive) : Option String → List Attempt
  | some rule => a.attempts.filter (fun x => x.rule == rule)
  | none => a.attempts

end Archive

/-! ## JSON -/

open Json Record

def Attempt.toJson (a : Attempt) : Json :=
  .obj [("id", a.id.toJson), ("job_id", orNull Uuid.toJson a.job), ("rule", .str a.rule),
    ("root", a.root.toJson), ("evaluation", a.evaluation.toJson),
    ("output", list Reference.toJson a.output), ("attempted_at", a.attemptedAt.toJson)]

def Attempt.decoder : Decoder Attempt :=
  (Attempt.mk <$> field "id" Uuid.decoder <*> optionalOr "job_id" Uuid.decoder
    <*> field "rule" .text <*> field "root" Reference.decoder
    <*> field "evaluation" Evaluation.decoder <*> fieldOr "output" (.list Reference.decoder) []
    <*> field "attempted_at" Instant.decoder).decode

end ScanGraph
