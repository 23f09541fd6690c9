/-
Jobs as JSON.

The members of a job's life stand among the job's own.

A job of one kind is told from the others by a member that names its kind.  The members
of a life are optional and may be missing, as they are before a job was run.  The object
of a scan is carried as it is, in whatever form it was given.
-/
import ScanGraph.Job
import ScanGraph.Entity.Codec

namespace ScanGraph

open Json Record

/-! ## Names -/

def JobStatus.ofName? (s : String) : Option JobStatus :=
  [JobStatus.pending, .running, .completed, .failed].find? (fun x => x.name == s)

def JobKind.ofName? (s : String) : Option JobKind :=
  JobKind.all.find? (fun k => k.name == s)

def JobKind.decoder : Decoder JobKind :=
  .choice JobKind.ofName?

def JobKind.toJson (k : JobKind) : Json :=
  .str k.name

/-! ## Parts -/

def Lifecycle.members (l : Lifecycle) : List (String × Json) :=
  [("status", .str l.status.name), ("started_at", orNull Instant.toJson l.startedAt),
   ("ended_at", orNull Instant.toJson l.endedAt), ("error", orNull .str l.error)]

def Lifecycle.toJson (l : Lifecycle) : Json :=
  .obj l.members

/-- The fields of a life, given the form of the status. -/
def Lifecycle.record (status : Decoder JobStatus) : Record Lifecycle :=
  Lifecycle.mk <$> field "status" status
    <*> optionalOr "started_at" Instant.decoder <*> optionalOr "ended_at" Instant.decoder
    <*> optionalOr "error" .text

def Lifecycle.decoder : Decoder Lifecycle :=
  (Lifecycle.record (.choice JobStatus.ofName?)).decode

/-- A life whose members stand among those of a job. -/
def Lifecycle.ofMembers (ms : List (String × Json)) : Except DecodeError Lifecycle :=
  (Lifecycle.record (.keptChoice JobStatus.ofName?)).ofMembers ms

def PluginRef.toJson (p : PluginRef) : Json :=
  .obj [("id", .str p.id), ("version", orNull .str p.version)]

def PluginRef.decoder : Decoder PluginRef :=
  (PluginRef.mk <$> field "id" .text <*> optionalOr "version" .text).decode

def Visit.toJson (v : Visit) : Json :=
  .obj [("rule", .str v.rule), ("root", v.root.toJson)]

def Visit.decoder : Decoder Visit :=
  (Visit.mk <$> field "rule" .text <*> field "root" Reference.decoder).decode

/-! ## Jobs -/

def ScanJob.toJson (j : ScanJob) : Json :=
  .obj ([("id", j.id.toJson), ("boefje", j.scanner.toJson),
    ("input_ooi", j.inputReference.toJson), ("input", j.input),
    ("arguments", .obj (j.arguments.map (fun _ v => Json.str v)).entries),
    ("organization", .str j.organization)] ++ j.life.members)

def ScanJob.decoder : Decoder ScanJob :=
  (ScanJob.mk <$> field "id" Uuid.decoder <*> field "boefje" PluginRef.decoder
    <*> field "input_ooi" Reference.decoder <*> field "input" .any
    <*> fieldOr "arguments" (.table .text) .empty <*> field "organization" .text).decodeWith
    Lifecycle.ofMembers

def NormalizeJob.toJson (j : NormalizeJob) : Json :=
  .obj ([("id", j.id.toJson), ("boefje_job", j.scan.toJson),
    ("normalizer", j.normalizer.toJson)] ++ j.life.members)

def NormalizeJob.decoder : Decoder NormalizeJob :=
  (NormalizeJob.mk <$> field "id" Uuid.decoder <*> field "boefje_job" ScanJob.decoder
    <*> field "normalizer" PluginRef.decoder).decodeWith Lifecycle.ofMembers

def DeriveJob.toJson (j : DeriveJob) : Json :=
  .obj ([("id", j.id.toJson), ("event", j.commit.toJson), ("depth", nat32 j.depth),
    ("lineage", list Visit.toJson j.lineage)] ++ j.life.members)

def DeriveJob.decoder : Decoder DeriveJob :=
  (DeriveJob.mk <$> field "id" Uuid.decoder <*> field "event" Commit.decoder
    <*> field "depth" .nat32 <*> fieldOr "lineage" (.list Visit.decoder) []).decodeWith
    Lifecycle.ofMembers

def Job.form : Job → String
  | scan _ => "Boefje"
  | normalize _ => "Normalizer"
  | derive _ => "Derive"

def Job.toJson (j : Job) : Json :=
  .obj [("kind", .str j.form), ("payload", match j with
    | scan j => j.toJson
    | normalize j => j.toJson
    | derive j => j.toJson)]

/-- A job of the form with the given name. -/
def Job.decoderOf? (form : String) : Option (Decoder Job) :=
  if form = "Boefje" then some (fun v => (ScanJob.decoder v).map scan)
  else if form = "Normalizer" then some (fun v => (NormalizeJob.decoder v).map normalize)
  else if form = "Derive" then some (fun v => (DeriveJob.decoder v).map derive)
  else none

def Job.decoder : Decoder Job :=
  .adjacent "kind" "payload" Job.decoderOf?

end ScanGraph
