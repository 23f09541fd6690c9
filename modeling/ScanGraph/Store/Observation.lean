/-
What is written to the store, what it reports back, and why it refuses a call.

An observation is what one run found on one object; a commit says that an
object was created or changed.

An observation names its source, which must be visible at its time for it to be taken,
and the plugin and the job that it comes from, which nothing checks.  Why a call is
refused has one wording for each reason, and an offline store refuses before anything is
looked at.
-/
import ScanGraph.Entity.Codec
import ScanGraph.Reference

namespace ScanGraph

/-- Why the store refuses to commit something. -/
inductive Rejection where
  /-- The object that an observation was made on does not exist. -/
  | unknownSource (source : Reference)
  /-- The object to declare a profile for does not exist. -/
  | unknownObject (object : Reference)
  | other (reason : String)
deriving DecidableEq, Repr

/-- Why the store refuses a call. -/
inductive StoreError where
  | unavailable (reason : String)
  | rejected (why : Rejection)
deriving DecidableEq, Repr

def Rejection.message : Rejection → String
  | unknownSource r => "observation source " ++ r.text ++ " does not exist"
  | unknownObject r => "cannot declare a profile for unknown object " ++ r.text
  | other reason => reason

def StoreError.message : StoreError → String
  | unavailable reason => "graph store unavailable: " ++ reason
  | rejected why => "observation rejected: " ++ why.message

end ScanGraph

namespace ScanGraph

/-- What one run of a normalizer or rule found on one object. -/
structure Observation where
  method : String
  source : Reference
  task : Option Uuid
  validTime : Instant
  result : List Snapshot
deriving DecidableEq, Repr

/-- How a commit changed an object. -/
inductive CommitKind where
  | created
  | updated
deriving DecidableEq, Repr

def CommitKind.name : CommitKind → String
  | created => "created"
  | updated => "updated"

def CommitKind.ofName? (s : String) : Option CommitKind :=
  [CommitKind.created, .updated].find? (fun k => k.name == s)

def CommitKind.decoder : Decoder CommitKind :=
  .choice CommitKind.ofName?

/-- A stored change of an object. -/
structure Commit where
  kind : CommitKind
  reference : Reference
  type : ObjectType
  validTime : Instant
deriving DecidableEq, Repr

def Commit.of (kind : CommitKind) (r : Reference) (t : Instant) : Commit :=
  ⟨kind, r, r.type, t⟩

open Json Record

def Commit.toJson (c : Commit) : Json :=
  .obj [("kind", .str c.kind.name), ("reference", c.reference.toJson),
    ("object_type", c.type.toJson), ("valid_time", c.validTime.toJson)]

def Commit.decoder : Decoder Commit :=
  (Commit.mk <$> field "kind" CommitKind.decoder <*> field "reference" Reference.decoder
    <*> field "object_type" ObjectType.decoder <*> field "valid_time" Instant.decoder).decode

def Observation.toJson (o : Observation) : Json :=
  .obj [("method", .str o.method), ("source", o.source.toJson),
    ("task_id", orNull Uuid.toJson o.task), ("valid_time", o.validTime.toJson),
    ("result", list Snapshot.toJson o.result)]

def Observation.decoder : Decoder Observation :=
  (Observation.mk <$> field "method" .text <*> field "source" Reference.decoder
    <*> optionalOr "task_id" Uuid.decoder <*> field "valid_time" Instant.decoder
    <*> field "result" (.list Snapshot.decoder)).decode

end ScanGraph
