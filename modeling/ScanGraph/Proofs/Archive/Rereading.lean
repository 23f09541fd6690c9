/-
What is kept and reported is read back.

Besides jobs and requests these are the observations that are saved, the attempts
to evaluate rules, the evidence of scans and the payloads of events.  Each of them
is read from its text as it was: `ofText?_render_all`.  Only the free form of the
object of a scan can fail to be read back, where one of its numbers is not the one
that its text is read as: `Inexact.reread_differs`.

## What is asked

`Readable`, for each kind, is what the texts cannot tell: references are those that
their own texts denote, instants lie in the calendar, tables and sets are in order,
numbers are of the width that is read, and of a scan's object, that its numbers are
those that their texts are read as and that it opens no more brackets than are left.  An
entity that was itself read satisfies all that is asked of entities
(`Entity.readable_of_decoder`).

## What is not

The converse, that nothing else can be read back, is proved for none of the kinds;
`reread_differs` shows for the two conditions on the object of a scan that they cannot
be dropped, the number of brackets at its exact bound.  Nor is it said that a text which
is read is the one that would be written: members may stand in another order, and
members that no field has are passed over.
-/
import ScanGraph.Archive
import ScanGraph.Proofs.Job.Rereading

namespace ScanGraph

open Json Record

/-! ## Observations -/

theorem Profile.fits_toJson (p : Profile) (room : Nat) : fits (room + 1) p.toJson = true := by
  have hlevel : fits room p.level.toJson = true := by
    cases p.level <;> rfl
  exact fits_obj (by simp [hlevel])

theorem Snapshot.fits_toJson (s : Snapshot) (room : Nat) : fits (room + 3) s.toJson = true := by
  refine fits_obj (List.forall_mem_cons.2 ⟨s.entity.fits_toJson room, ?_⟩)
  obtain ⟨e, p, t⟩ := s
  cases p <;> cases t <;> simp [present, Profile.fits_toJson]

namespace Observation

/-- The observation can be read back. -/
structure Readable (o : Observation) : Prop where
  source : o.source.Parses
  validTime : o.validTime.InCalendar
  result : ∀ s ∈ o.result, s.Readable

variable {o : Observation}

theorem decoder_toJson (h : o.Readable) : decoder o.toJson = .ok o := by
  have hfound := (rearranges_self [("method", Json.str o.method), ("source", o.source.toJson),
    ("task_id", orNull Uuid.toJson o.task), ("valid_time", o.validTime.toJson),
    ("result", list Snapshot.toJson o.result)]).found (by simp)
  simp only [List.forall_mem_cons] at hfound
  obtain ⟨hmethod, hsource, htask, htime, hresult, -⟩ := hfound
  refine Reads.ofMembers_eq (.seq (.seq (.seq (.seq (.form Observation.mk ?_) ?_) ?_) ?_) ?_)
  · exact reads_fieldWith hmethod rfl
  · exact reads_fieldWith hsource (Reference.decoder_toJson h.source)
  · exact reads_fieldWith htask (Decoder.nullable_uuid o.task)
  · exact reads_fieldWith htime (Instant.decoder_toJson h.validTime)
  · exact reads_fieldWith hresult
      (Decoder.list_eq (fun s hs => Snapshot.decoder_toJson (h.result s hs)))

theorem fits_toJson (o : Observation) (room : Nat) : fits (room + 5) o.toJson = true :=
  fits_obj (by simp [fits_list (fun s _ => Snapshot.fits_toJson s room)])

end Observation

/-! ## Evidence -/

namespace Evidence

variable {e : Evidence}

theorem decoder_octet (b : UInt8) : Decoder.octet (nat b.toNat) = .ok b := by
  unfold Decoder.octet
  rw [Decoder.natUpTo_nat (Nat.le_of_lt_succ b.toNat_lt)]
  exact congrArg Except.ok UInt8.ofNat_toNat

theorem decoder_tags {s : SortedSet String} (h : s.toList.Pairwise (· < ·)) :
    Decoder.set Decoder.text s.texts = .ok s := by
  have hlist : Decoder.list Decoder.text s.texts = .ok s.toList :=
    Decoder.list_eq (f := Json.str) (fun _ _ => rfl)
  unfold Decoder.set
  rw [hlist]
  exact congrArg Except.ok (SortedSet.ofList_toList h)

theorem decoder_toJson (h : e.tags.toList.Pairwise (· < ·)) : decoder e.toJson = .ok e := by
  have hfound := (rearranges_self [("bytes", list (fun b : UInt8 => nat b.toNat) e.octets),
    ("content_tags", e.tags.texts)]).found (by simp)
  simp only [List.forall_mem_cons] at hfound
  obtain ⟨hoctets, htags, -⟩ := hfound
  refine Reads.ofMembers_eq (.seq (.form Evidence.mk ?_) ?_)
  · exact reads_fieldWith hoctets (Decoder.list_eq (fun b _ => decoder_octet b))
  · exact reads_fieldWith htags (decoder_tags h)

theorem fits_toJson (e : Evidence) (room : Nat) : fits (room + 2) e.toJson = true := by
  have hoctets : fits (room + 1) (list (fun b : UInt8 => nat b.toNat) e.octets) = true :=
    fits_list (fun b _ => fits_nat (b.toNat_lt.trans (by decide)))
  have htags : fits (room + 1) e.tags.texts = true :=
    fits_list (fun s _ => fits_str s)
  exact fits_obj (by simp [hoctets, htags])

end Evidence

/-! ## Evaluations -/

namespace Evaluation

/-- The evaluation can be read back: the number of its objects is of 64 bits. -/
def Readable : Evaluation → Prop
  | derived objects _ => objects < 2 ^ 64
  | _ => True

variable {e : Evaluation}

theorem decoder_toJson (h : e.Readable) : decoder e.toJson = .ok e := by
  cases e with
  | derived objects cached =>
    have hform : decoderOf? "derived"
        = some (derived <$> field "objects" .nat64 <*> field "cached" .flag).decode := by
      simp [decoderOf?]
    have hobjects : Decoder.nat64 (nat objects) = .ok objects :=
      Decoder.natUpTo_nat (Nat.le_sub_one_of_lt h)
    have hfound := (rearranges_self [("objects", nat objects), ("cached", Json.bool cached)]).found
      (by simp)
    simp only [List.forall_mem_cons] at hfound
    obtain ⟨hcount, hcached, -⟩ := hfound
    refine Decoder.keyed_eq hform (Reads.ofMembers_eq (.seq (.form derived ?_) ?_))
    · exact reads_fieldWith hcount hobjects
    · exact reads_fieldWith hcached rfl
  | skipped reason =>
    have hform : decoderOf? "skipped" = some (skipped <$> field "reason" .text).decode := by
      simp [decoderOf?]
    have hreason : [("reason", Json.str reason)].filter (fun m => m.1 == "reason")
        = [("reason", .str reason)] := by
      simp
    exact Decoder.keyed_eq hform (Reads.ofMembers_eq (.form skipped (reads_fieldWith hreason rfl)))
  | failed error =>
    have hform : decoderOf? "failed" = some (failed <$> field "error" .text).decode := by
      simp [decoderOf?]
    have herror : [("error", Json.str error)].filter (fun m => m.1 == "error")
        = [("error", .str error)] := by
      simp
    exact Decoder.keyed_eq hform (Reads.ofMembers_eq (.form failed (reads_fieldWith herror rfl)))

theorem fits_toJson (h : e.Readable) (room : Nat) : fits (room + 2) e.toJson = true := by
  cases e with
  | derived objects cached =>
    exact fits_obj (List.forall_mem_singleton.2 (fits_obj (by simp [fits_nat h])))
  | skipped reason => rfl
  | failed error => rfl

end Evaluation

/-! ## Attempts -/

namespace Attempt

structure Readable (a : Attempt) : Prop where
  root : a.root.Parses
  evaluation : a.evaluation.Readable
  output : ∀ r ∈ a.output, r.Parses
  attemptedAt : a.attemptedAt.InCalendar

variable {a : Attempt}

theorem decoder_toJson (h : a.Readable) : decoder a.toJson = .ok a := by
  have hfound := (rearranges_self [("id", a.id.toJson), ("job_id", orNull Uuid.toJson a.job),
    ("rule", .str a.rule), ("root", a.root.toJson), ("evaluation", a.evaluation.toJson),
    ("output", list Reference.toJson a.output),
    ("attempted_at", a.attemptedAt.toJson)]).found (by simp)
  simp only [List.forall_mem_cons] at hfound
  obtain ⟨hid, hjob, hrule, hroot, hevaluation, houtput, htime, -⟩ := hfound
  refine Reads.ofMembers_eq
    (.seq (.seq (.seq (.seq (.seq (.seq (.form Attempt.mk ?_) ?_) ?_) ?_) ?_) ?_) ?_)
  · exact reads_fieldWith hid (Uuid.decoder_toJson a.id)
  · exact reads_fieldWith hjob (Decoder.nullable_uuid a.job)
  · exact reads_fieldWith hrule rfl
  · exact reads_fieldWith hroot (Reference.decoder_toJson h.root)
  · exact reads_fieldWith hevaluation (Evaluation.decoder_toJson h.evaluation)
  · exact reads_fieldWith houtput
      (Decoder.list_eq (fun r hr => Reference.decoder_toJson (h.output r hr)))
  · exact reads_fieldWith htime (Instant.decoder_toJson h.attemptedAt)

theorem fits_toJson (h : a.Readable) (room : Nat) : fits (room + 3) a.toJson = true := by
  have houtput : fits (room + 2) (list Reference.toJson a.output) = true :=
    fits_list (fun r _ => fits_reference r)
  exact fits_obj (by simp [houtput, Evaluation.fits_toJson h.evaluation])

end Attempt

/-! ## Events -/

namespace EventPayload

def Readable : EventPayload → Prop
  | objectsCommitted _ commits => ∀ c ∈ commits, c.Readable
  | ruleEvaluated _ root evaluation => root.Parses ∧ evaluation.Readable
  | _ => True

variable {α : Type} {p : EventPayload}

theorem decoder_kind (k : JobKind) : JobKind.decoder k.toJson = .ok k := by
  cases k <;> rfl

theorem reads_jobMembers {ms : List (String × Json)} {job : Uuid} {kind : JobKind}
    (form : Uuid → JobKind → α)
    (hfound : ∀ m ∈ jobMembers job kind, ms.filter (fun x => x.1 == m.1) = [m]) :
    (form <$> field "job_id" Uuid.decoder <*> field "kind" JobKind.decoder).Reads ms
      (form job kind) := by
  simp only [jobMembers, List.forall_mem_cons] at hfound
  obtain ⟨hjob, hkind, -⟩ := hfound
  refine .seq (.form form ?_) ?_
  · exact reads_fieldWith hjob (Uuid.decoder_toJson job)
  · exact reads_fieldWith hkind (decoder_kind kind)

theorem decoder_toJson (h : p.Readable) : decoder p.toJson = .ok p := by
  cases p with
  | jobEnqueued job kind =>
    have hform : decoderOf? "JobEnqueued" = some (jobEnqueued <$> field "job_id" Uuid.decoder
        <*> field "kind" JobKind.decoder).decode := by
      simp [decoderOf?]
    have hfound := (rearranges_self (jobMembers job kind)).found (by simp [jobMembers])
    exact Decoder.keyed_eq hform (Reads.ofMembers_eq (reads_jobMembers jobEnqueued hfound))
  | jobCompleted job kind =>
    have hform : decoderOf? "JobCompleted" = some (jobCompleted <$> field "job_id" Uuid.decoder
        <*> field "kind" JobKind.decoder).decode := by
      simp [decoderOf?]
    have hfound := (rearranges_self (jobMembers job kind)).found (by simp [jobMembers])
    exact Decoder.keyed_eq hform (Reads.ofMembers_eq (reads_jobMembers jobCompleted hfound))
  | jobFailed job kind error =>
    have hform : decoderOf? "JobFailed" = some (jobFailed <$> field "job_id" Uuid.decoder
        <*> field "kind" JobKind.decoder <*> field "error" .text).decode := by
      simp [decoderOf?]
    have hfound := (rearranges_self (jobMembers job kind ++ [("error", .str error)])).found
      (by simp [jobMembers])
    obtain ⟨hjob, hmore⟩ := List.forall_mem_append.1 hfound
    have herror := List.forall_mem_singleton.1 hmore
    exact Decoder.keyed_eq hform (Reads.ofMembers_eq (.seq (reads_jobMembers jobFailed hjob)
      (reads_fieldWith herror rfl)))
  | objectsCommitted job commits =>
    have hform : decoderOf? "ObjectsCommitted" = some (objectsCommitted
        <$> field "job_id" Uuid.decoder <*> field "events" (.list Commit.decoder)).decode := by
      simp [decoderOf?]
    have hfound := (rearranges_self [("job_id", job.toJson),
      ("events", list Commit.toJson commits)]).found (by simp)
    simp only [List.forall_mem_cons] at hfound
    obtain ⟨hjob, hcommits, -⟩ := hfound
    refine Decoder.keyed_eq hform (Reads.ofMembers_eq (.seq (.form objectsCommitted ?_) ?_))
    · exact reads_fieldWith hjob (Uuid.decoder_toJson job)
    · exact reads_fieldWith hcommits
        (Decoder.list_eq (fun c hc => Commit.decoder_toJson (h c hc)))
  | ruleEvaluated rule root evaluation =>
    have hform : decoderOf? "RuleEvaluated" = some (ruleEvaluated <$> field "rule" .text
        <*> field "root" Reference.decoder <*> field "evaluation" Evaluation.decoder).decode := by
      simp [decoderOf?]
    have hfound := (rearranges_self [("rule", Json.str rule), ("root", root.toJson),
      ("evaluation", evaluation.toJson)]).found (by simp)
    simp only [List.forall_mem_cons] at hfound
    obtain ⟨hrule, hroot, hevaluation, -⟩ := hfound
    refine Decoder.keyed_eq hform
      (Reads.ofMembers_eq (.seq (.seq (.form ruleEvaluated ?_) ?_) ?_))
    · exact reads_fieldWith hrule rfl
    · exact reads_fieldWith hroot (Reference.decoder_toJson h.1)
    · exact reads_fieldWith hevaluation (Evaluation.decoder_toJson h.2)

theorem fits_toJson (h : p.Readable) (room : Nat) : fits (room + 4) p.toJson = true := by
  cases p with
  | jobEnqueued job kind | jobCompleted job kind | jobFailed job kind error => rfl
  | objectsCommitted job commits =>
    have hcommits : fits (room + 2) (list Commit.toJson commits) = true :=
      fits_list (fun c _ => c.fits_toJson room)
    exact fits_obj (List.forall_mem_singleton.2 (fits_obj (by simp [hcommits])))
  | ruleEvaluated rule root evaluation =>
    exact fits_obj (List.forall_mem_singleton.2
      (fits_obj (by simp [Evaluation.fits_toJson h.2])))

end EventPayload

/-! ## Texts -/

theorem Observation.ofText?_render {o : Observation} (h : o.Readable) :
    decoder.ofText? o.toJson.render = some o :=
  Decoder.ofText?_render (o.fits_toJson (maxDepth - 5)) (decoder_toJson h)

theorem Attempt.ofText?_render {a : Attempt} (h : a.Readable) :
    decoder.ofText? a.toJson.render = some a :=
  Decoder.ofText?_render (fits_toJson h (maxDepth - 3)) (decoder_toJson h)

theorem Evidence.ofText?_render {e : Evidence} (h : e.tags.toList.Pairwise (· < ·)) :
    decoder.ofText? e.toJson.render = some e :=
  Decoder.ofText?_render (e.fits_toJson (maxDepth - 2)) (decoder_toJson h)

theorem EventPayload.ofText?_render {p : EventPayload} (h : p.Readable) :
    decoder.ofText? p.toJson.render = some p :=
  Decoder.ofText?_render (fits_toJson h (maxDepth - 4)) (decoder_toJson h)

/-- Jobs, requests, observations, attempts, evidence and payloads of events are read from their texts
as they were. -/
theorem ofText?_render_all :
    (∀ j : Job, j.Readable maxDepth → Job.decoder.ofText? j.toJson.render = some j) ∧
    (∀ r : Request, r.Readable maxDepth → Request.decoder.ofText? r.toJson.render = some r) ∧
    (∀ o : Observation, o.Readable → Observation.decoder.ofText? o.toJson.render = some o) ∧
    (∀ a : Attempt, a.Readable → Attempt.decoder.ofText? a.toJson.render = some a) ∧
    (∀ e : Evidence, e.tags.toList.Pairwise (· < ·) →
      Evidence.decoder.ofText? e.toJson.render = some e) ∧
    (∀ p : EventPayload, p.Readable →
      EventPayload.decoder.ofText? p.toJson.render = some p) :=
  ⟨fun _ => Job.ofText?_render, fun _ => Request.ofText?_render,
    fun _ => Observation.ofText?_render, fun _ => Attempt.ofText?_render,
    fun _ => Evidence.ofText?_render, fun _ => EventPayload.ofText?_render⟩

/-! ## Two texts that are taken for each other -/

namespace Inexact

/-- A scan of a host that has started in a leap second, with the given object. -/
def scan (input : Json) : ScanJob :=
  ⟨.ofNat 7, ⟨"dns-records", some "1.0"⟩, .ofTokens .hostname ["internet", "a\\b"], input,
    .ofList [("b", "2"), ("a", "1\n")], "acme",
    { Lifecycle.pending with startedAt := some ⟨59, 1500000000⟩ }⟩

/-- A request for a normalize job of that scan, at the end of the year 9999. -/
def request (input : Json) : Request :=
  ⟨.normalize ⟨.ofNat 8, scan input, ⟨"dns-records", none⟩, .pending⟩, ⟨253402300799, 1000⟩,
    some (.ofNat 9)⟩

/-- An object whose numbers are those that their texts are read as. -/
def exact : Json :=
  .obj [("half", .real "0.5"), ("whole", .int (-3))]

/-- A host with its profile as it was read at a time. -/
def host : Snapshot :=
  ⟨.hostname (.ofTokens .network ["internet"]) "a.example",
    some (.declared (.ofTokens .hostname ["internet", "a.example"]) .l2), some (.ofSecond 5)⟩

def observation : Observation :=
  ⟨"manual", host.reference, some (.ofNat 2), .ofSecond 5, [host]⟩

/-- An attempt that derived something for the host. -/
def attempt : Attempt :=
  ⟨.ofNat 1, none, "rule", host.reference, .derived 3 true, [host.reference], .ofSecond 0⟩

/-- Evidence of two octets and two tags. -/
def evidence : Evidence :=
  ((Evidence.ofOctets [0, 255]).tagged "b").tagged "a"

def report : EventPayload :=
  .objectsCommitted (.ofNat 3) [.of .created host.reference (.ofSecond 5)]

theorem readable_scan {room : Nat} : (scan exact).Readable (room + 1) where
  inputReference := by decide +kernel
  sorted := rfl
  fits := by
    have hhalf : rereads "0.5" = true := by decide +kernel
    have hword : isWord (-3) = true := by decide
    show fits (room + 1) exact = true
    simp [exact, fits, membersFit, hhalf, hword]
  arguments := Table.ascending_ofList _
  life := ⟨by rintro t ⟨⟩; decide, nofun⟩

theorem readable_request : (request exact).Readable maxDepth where
  job := ⟨readable_scan, ⟨nofun, nofun⟩⟩
  requestedAt := by decide

theorem readable_host : host.Readable where
  entity := ⟨List.forall_mem_singleton.2 (by decide +kernel), trivial⟩
  profile := by rintro p ⟨⟩; decide +kernel
  validTime := by rintro t ⟨⟩; decide

theorem readable_observation : observation.Readable where
  source := by decide +kernel
  validTime := by decide
  result := List.forall_mem_singleton.2 readable_host

theorem readable_attempt : attempt.Readable where
  root := by decide +kernel
  evaluation := (by decide : 3 < 2 ^ 64)
  output := List.forall_mem_singleton.2 (by decide +kernel)
  attemptedAt := by decide

theorem ofText?_render_all_host :
    (request exact).job.Readable maxDepth ∧
      Job.decoder.ofText? (request exact).job.toJson.render = some (request exact).job ∧
    (request exact).Readable maxDepth ∧
      Request.decoder.ofText? (request exact).toJson.render = some (request exact) ∧
    observation.Readable ∧
      Observation.decoder.ofText? observation.toJson.render = some observation ∧
    attempt.Readable ∧ Attempt.decoder.ofText? attempt.toJson.render = some attempt ∧
    evidence.tags.toList.Pairwise (· < ·) ∧
      Evidence.decoder.ofText? evidence.toJson.render = some evidence ∧
    report.Readable ∧ EventPayload.decoder.ofText? report.toJson.render = some report := by
  obtain ⟨hjobs, hrequests, hobservations, hattempts, hevidence, hreports⟩ := ofText?_render_all
  have hjob : (request exact).job.Readable maxDepth := ⟨readable_scan, ⟨nofun, nofun⟩⟩
  have htags : evidence.tags.toList.Pairwise (· < ·) := by decide
  have hreport : report.Readable :=
    List.forall_mem_singleton.2 ⟨by decide +kernel, by decide⟩
  exact ⟨hjob, hjobs _ hjob, readable_request, hrequests _ readable_request,
    readable_observation, hobservations _ readable_observation,
    readable_attempt, hattempts _ readable_attempt, htags, hevidence _ htags,
    hreport, hreports _ hreport⟩

/-- A scan of an object that is nothing but a number. -/
def scanOf (number : String) : Job :=
  .scan (scan (.real number))

def nested : Nat → Json
  | 0 => .null
  | n + 1 => .arr [nested n]

/-- A scan of an object that opens so many brackets at once. -/
def scanOfDepth (n : Nat) : Job :=
  .scan (scan (nested n))

/-- Each of two texts is read as the number with the other one, so that a scan of the number with the
one text is read as a scan of the number with the other.  And what opens 126 brackets at once is not
read at all as part of a scan, which opens two more; one bracket less and it is read as it was. -/
theorem reread_differs :
    (number? "9.999999999999999e-31".toList).map chars = some "1e-30".toList ∧
      (number? "1e-30".toList).map chars = some "9.999999999999999e-31".toList ∧
      (scan (.real "1e-30")).inputReference.Parses ∧ (scan (.real "1e-30")).life.Readable ∧
      (Job.decoder.ofText? (scanOf "1e-30").toJson.render).map (fun j => j.toJson.chars)
        = some (scanOf "9.999999999999999e-31").toJson.chars ∧
      Job.decoder.ofText? (scanOf "1e-30").toJson.render ≠ some (scanOf "1e-30") ∧
      Job.decoder.ofText? (scanOfDepth 126).toJson.render = none ∧
      (Job.decoder.ofText? (scanOfDepth 125).toJson.render).map (fun j => j.toJson.chars)
        = some (scanOfDepth 125).toJson.chars := by
  have hread : (Job.decoder.ofText? (scanOf "1e-30").toJson.render).map (fun j => j.toJson.chars)
      = some (scanOf "9.999999999999999e-31").toJson.chars := by
    unfold Decoder.ofText? parse? parseOnly? render
    rw [String.toList_ofList]
    decide +kernel
  have hdeep : Job.decoder.ofText? (scanOfDepth 126).toJson.render = none := by
    refine Option.isNone_iff_eq_none.1 ?_
    unfold Decoder.ofText? parse? parseOnly? render
    rw [String.toList_ofList]
    decide +kernel
  have hfits : (Job.decoder.ofText? (scanOfDepth 125).toJson.render).map (fun j => j.toJson.chars)
      = some (scanOfDepth 125).toJson.chars := by
    unfold Decoder.ofText? parse? parseOnly? render
    rw [String.toList_ofList]
    decide +kernel
  refine ⟨by decide +kernel, by decide +kernel, by decide +kernel,
    ⟨by rintro t ⟨⟩; decide, nofun⟩, hread, fun hsame => ?_, hdeep, hfits⟩
  rw [hsame] at hread
  exact absurd hread (by decide +kernel)

end Inexact

end ScanGraph
