/-
Running a normalizer.

Of what a normalizer returns, the first object of every reference is kept if it
is not the object that was scanned and has a declared type.  Evidence that the
normalizer cannot read yields nothing.

The runner starts the life of the job, reads the object of the scan, calls the body and
ends the job with what came of it.  A body may return objects, report that the evidence
is malformed, fail in some other way, or panic; the second is a job that is completed
with an error, and the last two are jobs that failed.

Objects are told by their references, so that of two with one reference the first is
kept, whatever else they have.  Profiles that a normalizer gives are passed on as they
are.
-/
import ScanGraph.Distinct
import ScanGraph.Registry

namespace ScanGraph

/-- The objects of a normalizer's output that are kept. -/
def NormalizerDefinition.keep (d : NormalizerDefinition) (input : Reference)
    (output : List Snapshot) : List Snapshot :=
  distinctBy Snapshot.reference
    (output.filter (fun o => decide (o.reference ≠ input) && d.produces.covers o.type))

namespace NormalizeJob

/-- The job that failed for a reason. -/
def failWith (j : NormalizeJob) (e : PipelineError) (ended : Instant) :
    NormalizeJob × Except PipelineError (List Snapshot) :=
  ({ j with life := j.life.fail e.message ended }, .error e)

/-- The job and its objects after its normalizer returned. -/
def conclude (j : NormalizeJob) (d : NormalizerDefinition) (input : Reference) (ended : Instant) :
    Outcome PipelineError (List Snapshot) → NormalizeJob × Except PipelineError (List Snapshot)
  | .returned output => ({ j with life := j.life.complete ended }, .ok (d.keep input output))
  | .failed (.malformedInput m) => ({ j with life := j.life.completeWith m ended }, .ok [])
  | .failed e => j.failWith e ended
  | .panicked m => j.failWith (.transientRunner ("normalizer panicked: " ++ m)) ended

/-- The job run on evidence, and its objects. -/
def run (j : NormalizeJob) (r : Registry) (evidence : List UInt8) (started ended : Instant) :
    NormalizeJob × Except PipelineError (List Snapshot) :=
  let j := { j with life := j.life.start started }
  match r.normalizers.get? j.normalizer.id with
  | none => j.failWith (.notFound ("normalizer " ++ j.normalizer.id)) ended
  | some n =>
      match j.scan.snapshot with
      | .error e => j.failWith (.serialization e) ended
      | .ok input => j.conclude n.definition input.reference ended (n.body j input evidence)

end NormalizeJob

end ScanGraph
