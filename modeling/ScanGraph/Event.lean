/-
What the pipeline reports while it works, and the bus that carries it.

An event says that a job was queued or ended, that objects were committed, or
how the evaluation of a rule came out, and carries the chain it belongs to.

On the bus all that was published is kept in order, and the reader collects from
time to time what it has not seen yet.  A bus has so many slots as its capacity,
rounded up to a power of two: if more events wait, the oldest are lost, and the
reader is told how many.  What it has collected is delivered when it is asked for.

There is one reader, as the pipeline has one bus and each reader of it is independent of
the others.  Publishing never fails and never waits: events that nobody collects in time
are lost for the reader, but stay in what was published, of which statements about a run
speak.

An event says when it was published and carries the id of its chain, so that events of
one chain can be told apart from others.  None of them has an effect on anything.
-/
import ScanGraph.Job.Codec

namespace ScanGraph

/-! ## Events -/

/-- How the evaluation of a rule for a root came out. -/
inductive Evaluation where
  | derived (objects : Nat) (cached : Bool)
  | skipped (reason : String)
  | failed (error : String)
deriving DecidableEq, Repr

def Evaluation.isFailed : Evaluation → Bool
  | failed _ => true
  | _ => false

inductive EventPayload where
  | jobEnqueued (job : Uuid) (kind : JobKind)
  | jobCompleted (job : Uuid) (kind : JobKind)
  | jobFailed (job : Uuid) (kind : JobKind) (error : String)
  | objectsCommitted (job : Uuid) (commits : List Commit)
  | ruleEvaluated (rule : String) (root : Reference) (evaluation : Evaluation)
deriving DecidableEq, Repr

/-- A report, with its own id and that of the chain it belongs to, if any. -/
structure Event where
  id : Uuid
  correlation : Option Uuid
  occurredAt : Instant
  payload : EventPayload
deriving DecidableEq, Repr

def Event.version : Nat := 1

/-! ## The bus -/

/-- What a reader of the bus collects. -/
inductive Delivery where
  | event (e : Event)
  /-- So many events were lost. -/
  | lost (n : Nat)
deriving DecidableEq, Repr

/-- What was published, how much of it the reader has passed, and what it holds. -/
structure Bus where
  slots : Nat
  published : List Event
  passed : Nat
  collected : List Delivery
deriving DecidableEq, Repr

namespace Bus

/-- The slots of a bus of a capacity, which is at least one. -/
def slotsFor (capacity : Nat) : Nat :=
  (max 1 capacity).nextPowerOfTwo

/-- The greatest capacity, and the most octets that a bus may take. -/
def greatestSize : Nat := 0x7FFFFFFFFFFFFFFF

/-- The octets that a slot takes. -/
def slotSize : Nat := 152

/-- The bus of a capacity, or the complaint that there can be none. -/
def ofCapacity (capacity : Nat) : Except String Bus :=
  if greatestSize < capacity then
    .error "broadcast channel capacity exceeded \x60usize::MAX / 2\x60"
  else if greatestSize < slotsFor capacity * slotSize then .error "capacity overflow"
  else .ok ⟨slotsFor capacity, [], 0, []⟩

/-- One more event. -/
def publish (b : Bus) (e : Event) : Bus :=
  { b with published := b.published ++ [e] }

/-- The events that the reader has not passed. -/
def unseen (b : Bus) : List Event :=
  b.published.drop b.passed

/-- The number of events that are lost for the reader. -/
def missing (b : Bus) : Nat :=
  b.unseen.length - b.slots

/-- What the reader would collect: how many events are lost, if any, and the others. -/
def waiting (b : Bus) : List Delivery :=
  let events := (b.unseen.drop b.missing).map .event
  if b.missing = 0 then events else .lost b.missing :: events

/-- The reader collects what waits for it. -/
def collect (b : Bus) : Bus :=
  { b with passed := b.published.length, collected := b.collected ++ b.waiting }

/-- The reader delivers what it has collected. -/
def deliver (b : Bus) : Bus × List Delivery :=
  ({ b with collected := [] }, b.collected)

end Bus

/-! ## JSON -/

open Json Record

def Evaluation.toJson : Evaluation → Json
  | derived objects cached =>
      .obj [("derived", .obj [("objects", .nat objects), ("cached", .bool cached)])]
  | skipped reason => .obj [("skipped", .obj [("reason", .str reason)])]
  | failed error => .obj [("failed", .obj [("error", .str error)])]

/-- An evaluation of the form with the given name. -/
def Evaluation.decoderOf? (form : String) : Option (Decoder Evaluation) :=
  if form = "derived" then
    some (derived <$> field "objects" .nat64 <*> field "cached" .flag).decode
  else if form = "skipped" then some (skipped <$> field "reason" .text).decode
  else if form = "failed" then some (failed <$> field "error" .text).decode
  else none

def Evaluation.decoder : Decoder Evaluation :=
  .keyed Evaluation.decoderOf?

def EventPayload.jobMembers (job : Uuid) (kind : JobKind) : List (String × Json) :=
  [("job_id", job.toJson), ("kind", kind.toJson)]

def EventPayload.toJson : EventPayload → Json
  | jobEnqueued job kind => .obj [("JobEnqueued", .obj (jobMembers job kind))]
  | jobCompleted job kind => .obj [("JobCompleted", .obj (jobMembers job kind))]
  | jobFailed job kind error =>
      .obj [("JobFailed", .obj (jobMembers job kind ++ [("error", .str error)]))]
  | objectsCommitted job commits =>
      .obj [("ObjectsCommitted",
        .obj [("job_id", job.toJson), ("events", list Commit.toJson commits)])]
  | ruleEvaluated rule root evaluation =>
      .obj [("RuleEvaluated", .obj [("rule", .str rule), ("root", root.toJson),
        ("evaluation", evaluation.toJson)])]

/-- A report of the form with the given name. -/
def EventPayload.decoderOf? (form : String) : Option (Decoder EventPayload) :=
  if form = "JobEnqueued" then
    some (jobEnqueued <$> field "job_id" Uuid.decoder <*> field "kind" JobKind.decoder).decode
  else if form = "JobCompleted" then
    some (jobCompleted <$> field "job_id" Uuid.decoder <*> field "kind" JobKind.decoder).decode
  else if form = "JobFailed" then
    some (jobFailed <$> field "job_id" Uuid.decoder <*> field "kind" JobKind.decoder
      <*> field "error" .text).decode
  else if form = "ObjectsCommitted" then
    some (objectsCommitted <$> field "job_id" Uuid.decoder
      <*> field "events" (.list Commit.decoder)).decode
  else if form = "RuleEvaluated" then
    some (ruleEvaluated <$> field "rule" .text <*> field "root" Reference.decoder
      <*> field "evaluation" Evaluation.decoder).decode
  else none

/-- A report. -/
def EventPayload.decoder : Decoder EventPayload :=
  .keyed EventPayload.decoderOf?

end ScanGraph
