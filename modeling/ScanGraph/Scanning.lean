/-
Running a scan.

A backend runs the scanner of a job on the object of the job.  A target that
misbehaves, or a scan that takes too long, leaves evidence of the failure;
where the machinery breaks the job fails.

What a target did wrong is evidence, tagged as such, and the job is completed with an
error; what the machinery did wrong is a failure of the job.  A backend that panics is
of the second kind, and so is a body that is not there.

The time limit is modelled by its outcome: a scan that never ends leaves the evidence
that it took too long.
-/
import ScanGraph.Registry

namespace ScanGraph

def Registry.backend (r : Registry) : ScannerBody := fun job input =>
  match r.scanners.get? job.scanner.id with
  | none => some (.failed (.infrastructure ("unknown boefje " ++ job.scanner.id)))
  | some scanner =>
      match scanner.body with
      | none => some (.failed (.infrastructure
          ("boefje " ++ job.scanner.id ++ " has no in-process implementation")))
      | some body => body job input

/-- What is said of a scan that takes too long. -/
def timedOut (seconds : Nat) : String :=
  "scan timed out after " ++ Text.decimalText seconds ++ "s"

/-- How a call of a backend is understood: a panic is breakage, and a scan without an outcome
has taken longer than the given seconds. -/
def scanResult (seconds : Nat) : Option (Outcome ScanError Evidence) → Except ScanError Evidence
  | some (.returned e) => .ok e
  | some (.failed e) => .error e
  | some (.panicked m) => .error (.infrastructure ("boefje panicked: " ++ m))
  | none => .error (.expected (timedOut seconds))

namespace ScanJob

/-- The job and its evidence after a scan came to a result. -/
def conclude (j : ScanJob) (ended : Instant) :
    Except ScanError Evidence → ScanJob × Except PipelineError Evidence
  | .ok e => ({ j with life := j.life.complete ended }, .ok (e.tagged (scannerTag j.scanner.id)))
  | .error (.expected m) => ({ j with life := j.life.completeWith m ended }, .ok (.ofError m))
  | .error (.infrastructure m) =>
      ({ j with life := j.life.fail m ended }, .error (.transientRunner m))

/-- The job run on a backend, and its evidence. -/
def run (j : ScanJob) (backend : ScannerBody) (seconds : Nat) (started ended : Instant) :
    ScanJob × Except PipelineError Evidence :=
  let j := { j with life := j.life.start started }
  match j.snapshot with
  | .error e =>
      let e := PipelineError.serialization e
      ({ j with life := j.life.fail e.message ended }, .error e)
  | .ok input => j.conclude ended (scanResult seconds (backend j input))

end ScanJob

end ScanGraph
