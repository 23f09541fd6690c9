/-
Summaries: errors, jobs, queues, caches and what evaluations came to.

An error is summed up by its kind and its wording.  Of times only their presence
is shown, and of objects as much as tells them apart.

Errors are worded by their own functions; what is added here is the kind of each, by
which a reader can tell errors apart without their wording.
-/
import ScanGraph.Archive
import ScanGraph.Derivation
import ScanGraph.Queue
import ScanGraph.Pipeline.Drain
import ScanGraph.PipelineError
import ScanGraph.Json.Record

namespace ScanGraph

open Json

/-! ## Errors -/

/-- An error of a kind without a wording. -/
def Json.failure (kind : String) : Json :=
  .obj [("error", .str kind)]

def Json.failureWith (kind message : String) : Json :=
  .obj [("error", .str kind), ("message", .str message)]

def NamingError.kind : NamingError → String
  | unknownType .. => "UnknownType"
  | noKey .. => "InvalidReference"
  | abstractType .. => "InvalidReference"
  | invalidLevel .. => "InvalidScanLevel"
  | unknownRelation .. => "UnknownRelation"
  | invalidPath .. => "InvalidPath"

def NamingError.summary (e : NamingError) : Json :=
  failureWith e.kind e.message

/-- A value that is not of the wanted kind; only naming errors are worded. -/
def DecodeError.summary : DecodeError → Json
  | shape => failure "Decode"
  | naming e => failureWith "Decode" e.message

def StoreError.kind : StoreError → String
  | unavailable .. => "StoreUnavailable"
  | rejected .. => "StoreRejected"

def StoreError.summary (e : StoreError) : Json :=
  failureWith e.kind e.message

def PipelineError.kind : PipelineError → String
  | transientRunner .. => "TransientRunner"
  | malformedInput .. => "MalformedInput"
  | ruleExecution .. => "RuleExecution"
  | contextResolution .. => "ContextResolution"
  | schemaViolation .. => "SchemaViolation"
  | insufficientClearance .. => "InsufficientClearance"
  | store .. => "Store"
  | serialization .. => "Serialization"
  | model .. => "Model"
  | notFound .. => "NotFound"
  | internal .. => "Internal"

def PipelineError.summary (e : PipelineError) : Json :=
  failureWith e.kind e.message

/-! ## Objects -/

def Snapshot.wholes (l : List Snapshot) : Json :=
  list Snapshot.toJson l

def Snapshot.entities (l : List Snapshot) : Json :=
  list (fun o => Entity.toJson o.entity) l

def Snapshot.references (l : List Snapshot) : Json :=
  list (fun o => Reference.toJson o.reference) l

def Snapshot.profileSummary (o : Snapshot) : Json :=
  orNull Profile.toJson o.profile

/-- An object by its reference, its level and how it came by that. -/
def Snapshot.brief (o : Snapshot) : Json :=
  .arr [o.reference.toJson, o.level.toJson,
    orNull (fun (p : Profile) => .str p.kind.name) o.profile]

def Snapshot.listing (whole : Bool) (l : List Snapshot) : Json :=
  if whole then wholes l else list brief l

/-- An observation, its objects whole or in brief. -/
def Observation.summary (whole : Bool) (o : Observation) : Json :=
  .obj [("method", .str o.method), ("source", o.source.toJson),
    ("task", orNull Uuid.toJson o.task), ("valid_time", o.validTime.toJson),
    ("result", Snapshot.listing whole o.result)]

/-! ## Evidence and evaluations -/

/-- Evidence as text, or in hexadecimal digits where it is none. -/
def Evidence.summary (e : Evidence) : Json :=
  .obj [match Text.ofOctets? e.octets with
      | some t => ("text", .str t)
      | none => ("hex", .str (Text.hex e.octets)),
    ("tags", e.tags.texts), ("is_error", .bool e.isError)]

def Cache.summary (c : Cache) : Json :=
  .obj [("len", .nat c.size), ("empty", .bool (c.size == 0)), ("hits", .nat c.hits),
    ("misses", .nat c.misses), ("evictions", .nat c.evictions),
    ("uncacheable", .nat c.uncacheable)]

def Attempt.summary (a : Attempt) : Json :=
  .obj [("job", orNull Uuid.toJson a.job), ("rule", .str a.rule), ("root", a.root.toJson),
    ("evaluation", a.evaluation.toJson), ("output", list Reference.toJson a.output),
    ("failed", .bool a.evaluation.isFailed)]

/-- Why there are no objects: the reason for skipping the rule, or the error. -/
def RuleStatus.detail : RuleStatus → Json
  | derived .. => .null
  | skipped .disabled => .str "Disabled"
  | skipped (.belowMinLevel ..) => .str "BelowMinScanLevel"
  | skipped (.missingParameter ..) => .str "MissingParameter"
  | failed e => e.summary

/-- An outcome with the entities that were derived. -/
def RuleOutcome.summary (o : RuleOutcome) : Json :=
  .obj [("rule", .str o.rule), ("root", o.root.reference.toJson),
    ("evaluation", o.status.evaluation.toJson), ("failed", .bool o.status.evaluation.isFailed),
    ("detail", o.status.detail), ("objects", Snapshot.entities o.status.objects)]

/-! ## Jobs -/

def Lifecycle.summary (l : Lifecycle) : Json :=
  .obj [("status", .str l.status.name), ("terminal", .bool l.status.isTerminal),
    ("started", .bool l.startedAt.isSome), ("ended", .bool l.endedAt.isSome),
    ("error", orNull .str l.error)]

def ScanJob.argumentMembers (j : ScanJob) : Json :=
  .obj (j.arguments.entries.map (fun (k, v) => (k, .str v)))

def Job.life : Job → Lifecycle
  | scan j => j.life
  | normalize j => j.life
  | derive j => j.life

/-- What a job is about, apart from how far it is. -/
def Job.subject : Job → List (String × Json)
  | scan j => [("boefje", j.scanner.toJson), ("input", j.input),
      ("input_ooi", j.inputReference.toJson), ("arguments", j.argumentMembers),
      ("organization", .str j.organization)]
  | normalize j => [("boefje_job", j.scan.id.toJson), ("input_ooi", j.scan.inputReference.toJson),
      ("normalizer", j.normalizer.toJson)]
  | derive j => [("event", j.commit.toJson), ("depth", nat32 j.depth),
      ("lineage", list Visit.toJson j.lineage)]

def Job.summary (j : Job) : Json :=
  .obj (("job", j.id.toJson) :: ("lifecycle", j.life.summary) :: j.subject)

def Handle.summary (h : Handle) : Json :=
  .obj [("job_id", h.id.toJson), ("kind", h.kind.toJson), ("accepted", .bool true)]

def QueueCounts.summary (c : QueueCounts) : Json :=
  .obj [("ready", .nat c.ready), ("in_flight", .nat c.inFlight), ("completed", .nat c.completed),
    ("failed", .nat c.failed)]

def Queue.summary (q : Queue) : Json :=
  .obj (JobKind.all.map (fun k => (k.name, (q.counts k).summary)))

def JobResult.summary : JobResult → Json
  | succeeded => .obj [("success", .bool true)]
  | failed m => .obj [("success", .bool false), ("failed", .str m)]

def DrainSummary.summary (s : DrainSummary) : Json :=
  .obj [("completed", .nat s.completed), ("failed", .nat s.failed), ("total", .nat s.total)]

end ScanGraph
