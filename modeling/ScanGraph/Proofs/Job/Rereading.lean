/-
Jobs that were written are read.

Every part of a job is read from its JSON as that part again, and so is the job,
from its text: `Job.ofText?_render`.  The object of a scan is a value in its free
form, which must be one that can be read back itself: its text is nested in that
of the job, so that fewer brackets are left for it (`Job.Readable`).  The same is
said of requests for jobs.

## What is asked

Besides what rereading asks of references, instants and numbers, a job must leave room
for the object of its scan: two brackets are open around it, and a third one if the scan
is that of a normalize job.  `Readable` takes the room as a parameter, so that the same
lemma serves a job alone, a request, and whatever a job will be nested in.

The object of a scan is not read here but carried as JSON; that it is what the store
showed is `Proofs.Job.Snapshots`.

## What is not

Two jobs with one text are not compared as such: they are equal where both can be read
back.  The members are written in one order, and every order is read.
-/
import ScanGraph.Queue.Codec
import ScanGraph.Proofs.Entity.Rereading

namespace ScanGraph

open Json Record

def Decoder.ofText? {α : Type} (d : Decoder α) (text : String) : Option α :=
  (Json.parse? text).bind (fun v => (d v).toOption)

/-- What is read of its JSON is read of the text of that, if this fits. -/
theorem Decoder.ofText?_render {α : Type} {d : Decoder α} {v : Json} {a : α}
    (hfits : fits maxDepth v = true) (h : d v = .ok a) : d.ofText? v.render = some a := by
  unfold ofText?
  rw [parse?_render hfits, Option.bind_some, h]
  rfl

/-! ## What fits -/

namespace Json

section Fits

variable {α : Type} {room : Nat}

@[simp] theorem fits_str (s : String) : fits room (.str s) = true :=
  rfl

@[simp] theorem fits_bool (b : Bool) : fits room (.bool b) = true :=
  rfl

theorem fits_nat {n : Nat} (h : n < 2 ^ 64) : fits room (nat n) = true :=
  fits_of_isScalar (isScalar_nat h) room

@[simp] theorem fits_nat32 (n : UInt32) : fits room (nat32 n) = true :=
  fits_nat (n.toNat_lt.trans (by decide))

theorem fits_orNull {f : α → Json} (h : ∀ a, fits room (f a) = true) (o : Option α) :
    fits room (orNull f o) = true := by
  cases o with
  | none => rfl
  | some a => exact h a

theorem fits_list {f : α → Json} {l : List α} (h : ∀ a ∈ l, fits room (f a) = true) :
    fits (room + 1) (list f l) = true := by
  have hitems : itemsFit room (l.map f) = true := by
    refine itemsFit_iff.2 (fun v hv => ?_)
    obtain ⟨a, ha, rfl⟩ := List.mem_map.1 hv
    exact h a ha
  simp [list, fits, hitems]

theorem fits_obj {members : List (String × Json)} (h : ∀ m ∈ members, fits room m.2 = true) :
    fits (room + 1) (.obj members) = true := by
  simp [fits, membersFit_iff.2 h]

@[simp] theorem fits_reference (r : Reference) : fits room r.toJson = true :=
  rfl

@[simp] theorem fits_instant (t : Instant) : fits room t.toJson = true :=
  rfl

@[simp] theorem fits_uuid (u : Uuid) : fits room u.toJson = true :=
  rfl

@[simp] theorem fits_objectType (t : ObjectType) : fits room t.toJson = true :=
  rfl

@[simp] theorem fits_orNull_str (o : Option String) : fits room (orNull .str o) = true :=
  fits_orNull fits_str o

@[simp] theorem fits_orNull_instant (o : Option Instant) :
    fits room (orNull Instant.toJson o) = true :=
  fits_orNull fits_instant o

@[simp] theorem fits_orNull_uuid (o : Option Uuid) : fits room (orNull Uuid.toJson o) = true :=
  fits_orNull fits_uuid o

end Fits

end Json

/-! ## Parts of jobs -/

theorem Decoder.nullable_instant {o : Option Instant} (h : ∀ t ∈ o, t.InCalendar) :
    nullable Instant.decoder (orNull Instant.toJson o) = .ok o :=
  nullable_orNull (fun _ => Json.noConfusion) (fun t ht => Instant.decoder_toJson (h t ht))

theorem Decoder.nullable_uuid (o : Option Uuid) :
    nullable Uuid.decoder (orNull Uuid.toJson o) = .ok o :=
  nullable_orNull (fun _ => Json.noConfusion) (fun u _ => Uuid.decoder_toJson u)

namespace PluginRef

theorem decoder_toJson (p : PluginRef) : decoder p.toJson = .ok p := by
  have hfound := (rearranges_self [("id", Json.str p.id), ("version", orNull .str p.version)]).found
    (by simp)
  simp only [List.forall_mem_cons] at hfound
  obtain ⟨hid, hversion, -⟩ := hfound
  refine Reads.ofMembers_eq (.seq (.form PluginRef.mk ?_) ?_)
  · exact reads_fieldWith hid rfl
  · exact reads_fieldWith hversion (Entity.nullable_text p.version)

@[simp] theorem fits_toJson (p : PluginRef) (room : Nat) : fits (room + 1) p.toJson = true :=
  fits_obj (by simp)

end PluginRef

namespace Visit

theorem decoder_toJson {v : Visit} (h : v.root.Parses) : decoder v.toJson = .ok v := by
  have hfound := (rearranges_self [("rule", Json.str v.rule), ("root", v.root.toJson)]).found
    (by simp)
  simp only [List.forall_mem_cons] at hfound
  obtain ⟨hrule, hroot, -⟩ := hfound
  refine Reads.ofMembers_eq (.seq (.form Visit.mk ?_) ?_)
  · exact reads_fieldWith hrule rfl
  · exact reads_fieldWith hroot (Reference.decoder_toJson h)

theorem fits_toJson (v : Visit) (room : Nat) : fits (room + 1) v.toJson = true :=
  fits_obj (by simp)

end Visit

namespace Commit

structure Readable (c : Commit) : Prop where
  reference : c.reference.Parses
  validTime : c.validTime.InCalendar

theorem decoder_toJson {c : Commit} (h : c.Readable) : decoder c.toJson = .ok c := by
  have hkind : CommitKind.decoder (.str c.kind.name) = .ok c.kind := by
    cases c.kind <;> rfl
  have hfound := (rearranges_self [("kind", Json.str c.kind.name),
    ("reference", c.reference.toJson), ("object_type", c.type.toJson),
    ("valid_time", c.validTime.toJson)]).found (by simp)
  simp only [List.forall_mem_cons] at hfound
  obtain ⟨hname, href, htype, htime, -⟩ := hfound
  refine Reads.ofMembers_eq (.seq (.seq (.seq (.form Commit.mk ?_) ?_) ?_) ?_)
  · exact reads_fieldWith hname hkind
  · exact reads_fieldWith href (Reference.decoder_toJson h.reference)
  · exact reads_fieldWith htype (ObjectType.decoder_toJson c.type)
  · exact reads_fieldWith htime (Instant.decoder_toJson h.validTime)

@[simp] theorem fits_toJson (c : Commit) (room : Nat) : fits (room + 1) c.toJson = true :=
  fits_obj (by simp)

end Commit

namespace Lifecycle

structure Readable (l : Lifecycle) : Prop where
  startedAt : ∀ t ∈ l.startedAt, t.InCalendar
  endedAt : ∀ t ∈ l.endedAt, t.InCalendar

theorem ofMembers_eq {l : Lifecycle} (h : l.Readable) {ms : List (String × Json)}
    (hfound : ∀ m ∈ l.members, ms.filter (fun x => x.1 == m.1) = [m]) : ofMembers ms = .ok l := by
  have hstatus : Decoder.keptChoice JobStatus.ofName? (.str l.status.name) = .ok l.status := by
    cases l.status <;> rfl
  simp only [members, List.forall_mem_cons] at hfound
  obtain ⟨hname, hstarted, hended, herror, -⟩ := hfound
  refine Reads.ofMembers_eq (.seq (.seq (.seq (.form Lifecycle.mk ?_) ?_) ?_) ?_)
  · exact reads_fieldWith hname hstatus
  · exact reads_fieldWith hstarted (Decoder.nullable_instant h.startedAt)
  · exact reads_fieldWith hended (Decoder.nullable_instant h.endedAt)
  · exact reads_fieldWith herror (Entity.nullable_text l.error)

theorem fits_members (l : Lifecycle) (room : Nat) : ∀ m ∈ l.members, fits room m.2 = true := by
  simp [members]

end Lifecycle

/-! ## Jobs -/

namespace ScanJob

/-- The job can be read back, with `room` brackets left for its object: that is in its free form and
its numbers are those that their texts are read as. -/
structure Readable (room : Nat) (j : ScanJob) : Prop where
  inputReference : j.inputReference.Parses
  sorted : j.input.sorted = j.input
  fits : fits room j.input = true
  arguments : j.arguments.Ascending
  life : j.life.Readable

variable {room : Nat} {j : ScanJob}

theorem decoder_toJson (h : j.Readable room) : decoder j.toJson = .ok j := by
  have hinput : Decoder.any j.input = .ok j.input := congrArg Except.ok h.sorted
  have hfound := (rearranges_self ([("id", j.id.toJson), ("boefje", j.scanner.toJson),
    ("input_ooi", j.inputReference.toJson), ("input", j.input),
    ("arguments", .obj (j.arguments.map (fun _ v => Json.str v)).entries),
    ("organization", .str j.organization)] ++ j.life.members)).found (by simp [Lifecycle.members])
  obtain ⟨hown, hlife⟩ := List.forall_mem_append.1 hfound
  simp only [List.forall_mem_cons] at hown
  obtain ⟨hid, hscanner, href, hvalue, harguments, horganization, -⟩ := hown
  refine Reads.decodeWith_eq (.seq (.seq (.seq (.seq (.seq (.form ScanJob.mk ?_) ?_) ?_) ?_) ?_) ?_)
    (Lifecycle.ofMembers_eq h.life hlife)
  · exact reads_fieldWith hid (Uuid.decoder_toJson j.id)
  · exact reads_fieldWith hscanner (PluginRef.decoder_toJson j.scanner)
  · exact reads_fieldWith href (Reference.decoder_toJson h.inputReference)
  · exact reads_fieldWith hvalue hinput
  · exact reads_fieldWith harguments (Decoder.table_texts h.arguments)
  · exact reads_fieldWith horganization rfl

theorem fits_toJson (h : j.Readable (room + 1)) : Json.fits (room + 2) j.toJson = true := by
  refine fits_obj (List.forall_mem_append.2 ⟨?_, j.life.fits_members _⟩)
  simp [h.fits, fits_texts]

end ScanJob

namespace NormalizeJob

/-- The job can be read back, with `room` brackets left for the object of the scan. -/
structure Readable (room : Nat) (j : NormalizeJob) : Prop where
  scan : j.scan.Readable room
  life : j.life.Readable

variable {room : Nat} {j : NormalizeJob}

theorem decoder_toJson (h : j.Readable room) : decoder j.toJson = .ok j := by
  have hfound := (rearranges_self ([("id", j.id.toJson), ("boefje_job", j.scan.toJson),
    ("normalizer", j.normalizer.toJson)] ++ j.life.members)).found (by simp [Lifecycle.members])
  obtain ⟨hown, hlife⟩ := List.forall_mem_append.1 hfound
  simp only [List.forall_mem_cons] at hown
  obtain ⟨hid, hscan, hnormalizer, -⟩ := hown
  refine Reads.decodeWith_eq (.seq (.seq (.form NormalizeJob.mk ?_) ?_) ?_)
    (Lifecycle.ofMembers_eq h.life hlife)
  · exact reads_fieldWith hid (Uuid.decoder_toJson j.id)
  · exact reads_fieldWith hscan (ScanJob.decoder_toJson h.scan)
  · exact reads_fieldWith hnormalizer (PluginRef.decoder_toJson j.normalizer)

theorem fits_toJson (h : j.Readable (room + 1)) : fits (room + 3) j.toJson = true := by
  refine fits_obj (List.forall_mem_append.2 ⟨?_, j.life.fits_members _⟩)
  simp [ScanJob.fits_toJson h.scan]

end NormalizeJob

namespace DeriveJob

structure Readable (j : DeriveJob) : Prop where
  commit : j.commit.Readable
  lineage : ∀ v ∈ j.lineage, v.root.Parses
  life : j.life.Readable

variable {j : DeriveJob}

theorem decoder_toJson (h : j.Readable) : decoder j.toJson = .ok j := by
  have hfound := (rearranges_self ([("id", j.id.toJson), ("event", j.commit.toJson),
    ("depth", nat32 j.depth), ("lineage", list Visit.toJson j.lineage)] ++ j.life.members)).found
    (by simp [Lifecycle.members])
  obtain ⟨hown, hlife⟩ := List.forall_mem_append.1 hfound
  simp only [List.forall_mem_cons] at hown
  obtain ⟨hid, hcommit, hdepth, hlineage, -⟩ := hown
  refine Reads.decodeWith_eq (.seq (.seq (.seq (.form DeriveJob.mk ?_) ?_) ?_) ?_)
    (Lifecycle.ofMembers_eq h.life hlife)
  · exact reads_fieldWith hid (Uuid.decoder_toJson j.id)
  · exact reads_fieldWith hcommit (Commit.decoder_toJson h.commit)
  · exact reads_fieldWith hdepth (Decoder.nat32_eq j.depth)
  · exact reads_fieldWith hlineage
      (Decoder.list_eq (fun v hv => Visit.decoder_toJson (h.lineage v hv)))

theorem fits_toJson (j : DeriveJob) (room : Nat) : fits (room + 3) j.toJson = true := by
  refine fits_obj (List.forall_mem_append.2 ⟨?_, j.life.fits_members _⟩)
  simp [fits_list (fun v _ => Visit.fits_toJson v room)]

end DeriveJob

namespace Job

/-- The job can be read back from a text with `room` brackets: two of them are open around the object
of a scan, and three if that is the scan of a normalize job. -/
def Readable (room : Nat) : Job → Prop
  | scan j => j.Readable (room - 2)
  | normalize j => j.Readable (room - 3)
  | derive j => j.Readable

variable {room : Nat} {j : Job}

theorem decoder_toJson (h : j.Readable room) : decoder j.toJson = .ok j := by
  cases j with
  | scan j =>
    have hform : decoderOf? "Boefje" = some (fun v => (ScanJob.decoder v).map scan) := by
      simp [decoderOf?]
    refine Decoder.adjacent_eq (by decide) hform ?_
    rw [ScanJob.decoder_toJson h]
    rfl
  | normalize j =>
    have hform : decoderOf? "Normalizer" = some (fun v => (NormalizeJob.decoder v).map normalize) := by
      simp [decoderOf?]
    refine Decoder.adjacent_eq (by decide) hform ?_
    rw [NormalizeJob.decoder_toJson h]
    rfl
  | derive j =>
    have hform : decoderOf? "Derive" = some (fun v => (DeriveJob.decoder v).map derive) := by
      simp [decoderOf?]
    refine Decoder.adjacent_eq (by decide) hform ?_
    rw [DeriveJob.decoder_toJson h]
    rfl

theorem fits_toJson (h : j.Readable (room + 4)) : fits (room + 4) j.toJson = true := by
  refine fits_obj (List.forall_mem_cons.2 ⟨rfl, List.forall_mem_singleton.2 ?_⟩)
  cases j with
  | scan j =>
    have hscan : j.Readable (room + 1 + 1) := h
    exact ScanJob.fits_toJson hscan
  | normalize j => exact NormalizeJob.fits_toJson h
  | derive j => exact j.fits_toJson room

theorem ofText?_render (h : j.Readable maxDepth) : decoder.ofText? j.toJson.render = some j := by
  have hroom : j.Readable (maxDepth - 4 + 4) := h
  exact Decoder.ofText?_render (fits_toJson hroom) (decoder_toJson h)

end Job

namespace Request

/-- The request can be read back from a text with `room` brackets. -/
structure Readable (room : Nat) (r : Request) : Prop where
  job : r.job.Readable (room - 1)
  requestedAt : r.requestedAt.InCalendar

variable {room : Nat} {r : Request}

theorem decoder_toJson (h : r.Readable room) : decoder r.toJson = .ok r := by
  have hfound := (rearranges_self [("payload", r.job.toJson),
    ("requested_at", r.requestedAt.toJson),
    ("correlation_id", orNull Uuid.toJson r.correlation)]).found (by simp)
  simp only [List.forall_mem_cons] at hfound
  obtain ⟨hjob, htime, hcorrelation, -⟩ := hfound
  refine Reads.ofMembers_eq (.seq (.seq (.form Request.mk ?_) ?_) ?_)
  · exact reads_fieldWith hjob (Job.decoder_toJson h.job)
  · exact reads_fieldWith htime (Instant.decoder_toJson h.requestedAt)
  · exact reads_fieldWith hcorrelation (Decoder.nullable_uuid r.correlation)

theorem fits_toJson (h : r.Readable (room + 5)) : fits (room + 5) r.toJson = true :=
  have hjob : r.job.Readable (room + 4) := h.job
  fits_obj (by simp [Job.fits_toJson hjob])

theorem ofText?_render (h : r.Readable maxDepth) : decoder.ofText? r.toJson.render = some r := by
  have hroom : r.Readable (maxDepth - 5 + 5) := h
  exact Decoder.ofText?_render (fits_toJson hroom) (decoder_toJson h)

end Request

end ScanGraph
