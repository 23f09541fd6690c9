/-
Where the evidence of a scan goes.

The worker of a scan keeps the scan and its evidence before it queues jobs for the
normalizers that read it, one after the other, and others take these jobs and run them
at any moment from then on.  What a scan has led to so far (`Routed`) holds between any
two calls of the worker, and what it has led to in the end (`Concluded`) from its end on:
`tracks_runJob`.

`Beside.evidence_routed` puts this together with the ids of the jobs: which normalizers
get a job, in which order, with what, and what each of them will find.

## What is asked

The registry was built, the ids of jobs are distinct, and nobody but the tasks changes
what the dispatch of a scan depends on.  What the backend answers may be anything.

## What is proved

For a scan that one of the workers took, at every moment from then on: no job was queued
if the runner failed; otherwise its evidence has the tag of the scanner or says that it
is the record of a failure, and the jobs queued so far are for the first of the
normalizers that are to read it, in the order of their ids, each with the scan as it
ended and its correlation.  Where the worker is done and archive and queue were online,
there is one for each of them.  What each job will find is the evidence that was kept.
And from everywhere the worker can come to its end.

## What is not

What the normalizers make of it, which is `Normalizing.Kept`.  A worker that is given up
half way leaves the jobs that it queued; nobody queues the others.
-/
import ScanGraph.Proofs.Pipeline.Beside
import ScanGraph.Proofs.Registry.Built

namespace ScanGraph

/-! ## Readers -/

/-- The normalizer is meant to read evidence of a scanner with the given tags. -/
def NormalizerDefinition.Reads (d : NormalizerDefinition) (tags : SortedSet String)
    (scanner : String) : Prop :=
  if Evidence.errorTag ∈ tags then Evidence.errorTag ∈ d.consumes
  else ∃ c ∈ d.consumes, c ∈ tags ∨ c = scanner

theorem Registry.reads_iff {d : NormalizerDefinition} {tags : SortedSet String} {scanner : String} :
    reads d tags scanner = true ↔ d.Reads tags scanner := by
  unfold reads NormalizerDefinition.Reads SortedSet.contains
  by_cases herror : Evidence.errorTag ∈ tags
  · simp [herror]
  · simp only [herror, decide_false, Bool.false_eq_true, if_false, SortedSet.any, List.any_eq_true,
      Bool.or_eq_true, decide_eq_true_eq, beq_iff_eq]
    rfl

namespace Registry

section Readers

variable {d : Draft} {g : Registry}

/-- The ids of the normalizers that read some evidence, in order. -/
def readers (g : Registry) (tags : SortedSet String) (scanner : String) : List String :=
  (g.normalizersFor tags scanner).map (fun n => n.definition.id)

/-- In a built registry these are the ids of all that are meant to read it, each once. -/
theorem readers_of_build (h : d.build = .ok g) (tags : SortedSet String) (scanner : String) :
    (g.readers tags scanner).Pairwise (· < ·) ∧ ∀ id, id ∈ g.readers tags scanner ↔
      ∃ n, g.normalizers.get? id = some n ∧ n.definition.Reads tags scanner := by
  refine ⟨(pairwise_normalizer_ids h).sublist (List.filter_sublist.map _), fun id => ?_⟩
  rw [readers, List.mem_map]
  constructor
  · rintro ⟨n, hn, rfl⟩
    obtain ⟨hmem, hreads⟩ := List.mem_filter.1 hn
    exact ⟨n, get?_normalizer_of_build h hmem, reads_iff.1 hreads⟩
  · rintro ⟨n, hn, hreads⟩
    obtain ⟨-, rfl⟩ := build_eq_ok_iff.1 h
    obtain ⟨hmem, hid⟩ :=
      mem_values_of_get?_key (fun x : RegisteredNormalizer => x.definition.id) hn
    exact ⟨n, List.mem_filter.2 ⟨hmem, reads_iff.2 hreads⟩, hid⟩

end Readers

end Registry

/-! ## Runs of scans -/

/-- A scan that was run is of the same scanner, and evidence that is no record of a failure has the
tag of the scanner. -/
theorem ScanJob.tagged_run (j : ScanJob) (backend : ScannerBody) (seconds : Nat)
    (started ended : Instant) :
    (j.run backend seconds started ended).1.scanner = j.scanner ∧
      ∀ e, (j.run backend seconds started ended).2 = .ok e →
        Evidence.errorTag ∈ e.tags ∨ scannerTag j.scanner.id ∈ e.tags := by
  unfold run
  dsimp only
  split
  · exact ⟨rfl, fun e he => by cases he⟩
  · unfold conclude
    split
    · refine ⟨rfl, fun e he => .inr ?_⟩
      cases he
      exact (SortedSet.mem_insert _ _ _).2 (.inl rfl)
    · refine ⟨rfl, fun e he => .inl ?_⟩
      cases he
      exact (SortedSet.mem_insert _ _ _).2 (.inl rfl)
    · exact ⟨rfl, fun e he => by cases he⟩

namespace Pipeline

/-- A scan run on the backend of the pipeline, for as long as its policy allows. -/
def runScan (p : Pipeline) (j : ScanJob) (started ended : Instant) :
    ScanJob × Except PipelineError Evidence :=
  j.run p.backend p.policy.scanning.timeoutSeconds started ended

/-- The scan comes out as one that is over, and its evidence is tagged. -/
theorem runScan_spec (p : Pipeline) (j : ScanJob) (started ended : Instant) :
    ((p.runScan j started ended).1.id = j.id ∧ (p.runScan j started ended).1.scanner = j.scanner ∧
        (p.runScan j started ended).1.life.status.isTerminal = true) ∧
      ∀ e, (p.runScan j started ended).2 = .ok e →
        Evidence.errorTag ∈ e.tags ∨ scannerTag j.scanner.id ∈ e.tags := by
  obtain ⟨hid, htells⟩ := j.tells_run p.backend p.policy.scanning.timeoutSeconds started ended
  obtain ⟨hscanner, htagged⟩ :=
    j.tagged_run p.backend p.policy.scanning.timeoutSeconds started ended
  exact ⟨⟨hid, hscanner, htells.isOver.1⟩, htagged⟩

/-- The request is for a normalizer to read the evidence of a scan, and this is what it will
find. -/
structure Conveys (p : Pipeline) (scan : ScanJob) (evidence : Evidence)
    (correlation : Option Uuid) (reader : String) (r : Request) : Prop where
  job : ∃ id, r.job = .normalize (.ofScan id scan ⟨reader, none⟩)
  correlation : r.correlation = correlation
  evidence : ∀ n, r.job = .normalize n → evidenceOf n p = (.ok evidence, p)

/-- A scan and its evidence are in the archive. -/
structure Filed (j : ScanJob) (e : Evidence) (p : Pipeline) : Prop where
  scan : p.archive.scans.get? j.id = some j
  evidence : p.archive.evidence.get? j.id = some e

/-- What a scan that was run has led to so far: nothing if it failed, and else jobs for the first of
the normalizers that read its evidence. -/
def Routed (g : Registry) (correlation : Option Uuid)
    (ran : ScanJob × Except PipelineError Evidence) (p : Pipeline) (queued : List Request) : Prop :=
  match ran.2 with
  | .error _ => queued = []
  | .ok e => ∃ ids, ids <+: g.readers e.tags ran.1.scanner.id ∧
      List.Forall₂ (p.Conveys ran.1 e correlation) ids queued

/-- What it has led to in the end: it is kept, and every normalizer that reads its evidence has got
a job, unless a service that this needs is out of order. -/
structure Concluded (g : Registry) (correlation : Option Uuid)
    (ran : ScanJob × Except PipelineError Evidence) (p : Pipeline) (queued : List Request) :
    Prop where
  routed : Routed g correlation ran p queued
  archived : p.outages.archiveOffline = false → p.archive.scans.get? ran.1.id = some ran.1
  all : p.outages.archiveOffline = false → p.outages.queueClosed = false →
    ∀ e, ran.2 = .ok e →
      List.Forall₂ (p.Conveys ran.1 e correlation) (g.readers e.tags ran.1.scanner.id) queued

section Later

variable {p q : Pipeline} {g : Registry} {correlation : Option Uuid}
  {ran : ScanJob × Except PipelineError Evidence} {queued : List Request} {scan : ScanJob}
  {evidence : Evidence}

theorem evidenceOf_eq_ok_iff {n : NormalizeJob} :
    evidenceOf n p = (.ok evidence, p) ↔ p.archive.evidence.get? n.scan.id = some evidence := by
  unfold evidenceOf
  rw [Action.get_bind]
  cases p.archive.evidence.get? n.scan.id with
  | none =>
    constructor
    · rintro ⟨⟩
    · rintro ⟨⟩
  | some e =>
    constructor
    · rintro ⟨⟩
      rfl
    · rintro ⟨⟩
      rfl

theorem Conveys.later {reader : String} {r : Request}
    (h : p.Conveys scan evidence correlation reader r) (hq : p.Leaves scan.id q) :
    q.Conveys scan evidence correlation reader r := by
  refine ⟨h.job, h.correlation, fun n hn => ?_⟩
  obtain ⟨id, hjob⟩ := h.job
  have hscan : n.scan = scan := by
    cases hn.symm.trans hjob
    rfl
  rw [evidenceOf_eq_ok_iff, hscan, hq.evidence, ← hscan]
  exact evidenceOf_eq_ok_iff.1 (h.evidence n hn)

theorem Filed.conveys (h : Filed scan evidence p) {n : RegisteredNormalizer} {r : Request}
    (hr : IsNormalize scan correlation n r) :
    p.Conveys scan evidence correlation n.definition.id r := by
  obtain ⟨id, t, rfl⟩ := hr
  refine ⟨⟨id, rfl⟩, rfl, ?_⟩
  rintro _ ⟨⟩
  exact evidenceOf_eq_ok_iff.2 h.evidence

theorem Filed.later (h : Filed scan evidence p) (hq : p.Leaves scan.id q) :
    Filed scan evidence q :=
  ⟨hq.scan.trans h.scan, hq.evidence.trans h.evidence⟩

theorem forall₂_later {ids : List String}
    (h : List.Forall₂ (p.Conveys scan evidence correlation) ids queued)
    (hq : p.Leaves scan.id q) : List.Forall₂ (q.Conveys scan evidence correlation) ids queued :=
  h.imp (fun _ _ hconveys => hconveys.later hq)

theorem routed_nil (g : Registry) (correlation : Option Uuid)
    (ran : ScanJob × Except PipelineError Evidence) (p : Pipeline) :
    Routed g correlation ran p [] := by
  unfold Routed
  split
  · rfl
  · exact ⟨[], List.nil_prefix, .nil⟩

theorem Routed.later (h : Routed g correlation ran p queued) (hq : p.Leaves ran.1.id q) :
    Routed g correlation ran q queued := by
  unfold Routed at h ⊢
  split
  · rename_i hran
    rwa [hran] at h
  · rename_i e hran
    rw [hran] at h
    obtain ⟨ids, hprefix, hconveys⟩ := h
    exact ⟨ids, hprefix, forall₂_later hconveys hq⟩

theorem Concluded.later (h : Concluded g correlation ran p queued)
    (hq : p.Stable ran.1.id q) : Concluded g correlation ran q queued where
  routed := h.routed.later hq.leaves
  archived honline := hq.leaves.scan.trans (h.archived (hq.constant.outages ▸ honline))
  all honline hopen e he :=
    forall₂_later (h.all (hq.constant.outages ▸ honline) (hq.constant.outages ▸ hopen) e he)
      hq.leaves

end Later

end Pipeline

open Pipeline

/-! ## The worker of a scan -/

namespace Worker

open Routine

section Scans

variable {scan : ScanJob} {evidence : Evidence} {g : Registry} {correlation : Option Uuid}
  {p : Pipeline} {queued rs : List Request} {holds : Pipeline → List Request → Prop}

/-- A scan and its evidence are saved unless the archive is offline, and nothing is queued. -/
theorem tracks_saveScan (hholds : ∀ q, holds q []) (scan : ScanJob) (evidence : Evidence)
    (p : Pipeline) : (saveScan scan evidence).Tracks scan.id holds
      (fun x q queued => (queued = [] ∧ p.Constant q) ∧
        (q.outages.archiveOffline = false → x = .ok ()) ∧ (x = .ok () → Filed scan evidence q))
      p [] := by
  refine (tracks_save hholds scan.id _ p).bind (fun _ q queued hfirst => ?_)
    (fun _ q queued hfirst => ⟨⟨hfirst.none, hfirst.constant⟩, hfirst.online, nofun⟩)
  obtain ⟨s, -, hq⟩ := hfirst.saved rfl
  have hscan : q.archive.scans.get? scan.id = some scan :=
    hq.scan.trans (Table.get?_insert_self _ _ _)
  rw [hfirst.none]
  refine (tracks_save hholds scan.id _ q).imp (fun _ _ h => h) (fun x v queued hsecond => ?_)
  refine ⟨⟨hsecond.none, hfirst.constant.trans hsecond.constant⟩, hsecond.online, fun hx => ?_⟩
  obtain ⟨t, ht, hv⟩ := hsecond.saved hx
  exact ⟨hv.scan.trans (ht.scan.trans hscan), hv.evidence.trans (Table.get?_insert_self _ _ _)⟩

/-- What a scan has led to in the end stays so once its worker is done. -/
theorem concluded_done {α : Type} {ran : ScanJob × Except PipelineError Evidence}
    (h : Concluded g correlation ran p queued) (x : Except Fault α) :
    (done x).Tracks ran.1.id (Routed g correlation ran) (fun _ => Concluded g correlation ran)
      p queued :=
  fun _ hq => ⟨(h.later hq).routed, h.later hq⟩

/-- Requests that are queued one after the other, until the queue turns out to be closed. -/
theorem tracks_enqueueAll {front back : List String}
    (hreaders : front ++ back = g.readers evidence.tags scan.scanner.id)
    (hfront : List.Forall₂ (p.Conveys scan evidence correlation) front queued)
    (hback : List.Forall₂ (p.Conveys scan evidence correlation) back rs)
    (hscan : p.archive.scans.get? scan.id = some scan) :
    (enqueueAll rs).Tracks scan.id (Routed g correlation (scan, .ok evidence))
      (fun _ => Concluded g correlation (scan, .ok evidence)) p queued := by
  have hrouted : ∀ {q front back queued},
      front ++ back = g.readers evidence.tags scan.scanner.id →
      List.Forall₂ (q.Conveys scan evidence correlation) front queued →
      Routed g correlation (scan, .ok evidence) q queued :=
    fun hreaders hfront => ⟨_, hreaders ▸ List.prefix_append _ _, hfront⟩
  -- by induction on what is still to be queued: `front` has got its jobs, `back` has not
  induction rs generalizing p front back queued with
  | nil =>
    cases hback
    have hconcluded : Concluded g correlation (scan, .ok evidence) p queued := by
      refine ⟨hrouted hreaders hfront, fun _ => hscan, fun _ _ e he => ?_⟩
      cases he
      rw [List.append_nil] at hreaders
      exact hreaders ▸ hfront
    exact concluded_done hconcluded _
  | cons r rs ih =>
    obtain ⟨reader, back, hr, hrs, rfl⟩ := List.forall₂_cons_right_iff.1 hback
    intro q hq
    have hfront := forall₂_later hfront hq.leaves
    have hscan := hq.leaves.scan.trans hscan
    refine ⟨hrouted hreaders hfront, ?_⟩
    by_cases hclosed : q.outages.queueClosed = true
    · rw [enqueue_of_closed r hclosed, since_of_lines rfl, List.append_nil]
      have hconcluded : Concluded g correlation (scan, .ok evidence) q queued := by
        refine ⟨hrouted hreaders hfront, fun _ => hscan, fun _ hopen => ?_⟩
        rw [hclosed] at hopen
        cases hopen
      exact concluded_done hconcluded _
    · rw [enqueue_of_not_closed r hclosed, since_enqueue rfl]
      have hleaves : Leaves scan.id q { q with queue := q.queue.enqueue r } := ⟨rfl, rfl⟩
      have hgrown := List.rel_append (forall₂_later hfront hleaves)
        (List.Forall₂.cons ((hr.later hq.leaves).later hleaves) .nil)
      have hsplit : (front ++ [reader]) ++ back = g.readers evidence.tags scan.scanner.id := by
        rw [List.append_assoc]
        exact hreaders
      have hrest := ih hsplit hgrown (forall₂_later (forall₂_later hrs hq.leaves) hleaves) hscan
      exact hrest.bind (fun _ _ _ h => concluded_done h _) (fun _ _ _ h => h)

theorem tracks_enqueueAnnounced
    (hback : List.Forall₂ (p.Conveys scan evidence correlation)
      (g.readers evidence.tags scan.scanner.id) rs)
    (hscan : p.archive.scans.get? scan.id = some scan) :
    (enqueueAnnounced rs).Tracks scan.id (Routed g correlation (scan, .ok evidence))
      (fun _ => Concluded g correlation (scan, .ok evidence)) p [] := by
  refine (tracks_enqueueAll (List.nil_append _) .nil hback hscan).bind
    (fun _ q queued hq => ?_) (fun _ _ _ h => h)
  refine tracks_of_every (fun _ _ _ hq h => h.later hq) (fun _ _ h => h.routed) ?_ hq
  exact every_forM rs (fun r => quiet_once (steady_still.publish _ _))

theorem tracks_failedScan (g : Registry) (correlation : Option Uuid) (scan : ScanJob)
    (e : PipelineError) (p : Pipeline) :
    (do ignoring (saveScan scan (.ofError e.message)); ofExcept (.error e) : Routine Unit).Tracks
      scan.id (Routed g correlation (scan, .error e))
      (fun _ => Concluded g correlation (scan, .error e)) p [] := by
  have hsaved : (saveScan scan (.ofError e.message)).Tracks scan.id
      (Routed g correlation (scan, .error e))
      (fun _ => Concluded g correlation (scan, .error e)) p [] := by
    refine (tracks_saveScan (routed_nil g correlation (scan, .error e)) scan _ p).imp
      (fun _ _ h => h) (fun x q queued h => ?_)
    obtain ⟨⟨hqueued, -⟩, honline, hfiled⟩ := h
    exact ⟨hqueued, fun hq => (hfiled (honline hq)).scan, fun _ _ _ => nofun⟩
  have hignored := hsaved.ignoring (fun _ _ _ hq h => h.later hq) (fun _ _ h => h.routed)
  exact hignored.bind (fun _ _ _ h => concluded_done h _) (fun _ _ _ h => h)

/-- After any other scan, jobs are queued for all that read its evidence. -/
theorem tracks_passedScan (g : Registry) (correlation : Option Uuid) (scan : ScanJob)
    (evidence : Evidence) (p : Pipeline) :
    (do
      saveScan scan evidence
      enqueueAnnounced (← once ((g.normalizersFor evidence.tags scan.scanner.id).mapM
        (normalizeRequest scan correlation))) : Routine Unit).Tracks
      scan.id (Routed g correlation (scan, .ok evidence))
      (fun _ => Concluded g correlation (scan, .ok evidence)) p [] := by
  have hnil := routed_nil g correlation (scan, .ok evidence)
  refine (tracks_saveScan hnil scan evidence p).bind (fun _ q queued h => ?_)
    (fun fault q queued h => ?_)
  · obtain ⟨⟨rfl, -⟩, -, hfiled⟩ := h
    refine tracks_of_yields (fun s _ => hnil s) (fun s _ => yields_mapM _
      (fun n _ t _ => yields_normalizeRequest scan correlation n t)) (fun rs s hs hrs => ?_)
    have hkept : Filed scan evidence s := (hfiled rfl).later hs.leaves
    have hback : List.Forall₂ (s.Conveys scan evidence correlation)
        (g.readers evidence.tags scan.scanner.id) rs :=
      List.forall₂_map_left_iff.2 (hrs.imp (fun _ _ hr => hkept.conveys hr))
    exact tracks_enqueueAnnounced hback hkept.scan
  · obtain ⟨⟨rfl, -⟩, honline, -⟩ := h
    exact ⟨hnil q, fun hq => (nomatch honline hq), fun hq => (nomatch honline hq)⟩

end Scans

/-- What the dispatch of a scan has led to so far, whenever its run started and ended. -/
def Routing (p₀ : Pipeline) (r : Request) (j : ScanJob) (p : Pipeline) (queued : List Request) :
    Prop :=
  ∃ started ended, Routed p₀.registry r.correlation (p₀.runScan j started ended) p queued

def Conclusion (p₀ : Pipeline) (r : Request) (j : ScanJob) (p : Pipeline) (queued : List Request) :
    Prop :=
  ∃ started ended, Concluded p₀.registry r.correlation (p₀.runScan j started ended) p queued

theorem tracks_dispatchScan {p₀ p : Pipeline} (r : Request) (j : ScanJob) (hp : p₀.Constant p) :
    (dispatchScan r j).Tracks j.id (Routing p₀ r j) (fun _ => Conclusion p₀ r j) p [] := by
  have hnil : ∀ q, Routing p₀ r j q [] := fun q => ⟨default, default, routed_nil _ _ _ q⟩
  refine tracks_of_yields (fun q _ => hnil q) (fun q _ => yields_now q) (fun started q hq _ => ?_)
  refine tracks_of_yields (fun s _ => hnil s) (fun s _ => yields_now s) (fun ended s hs _ => ?_)
  refine tracks_of_yields (P := p₀.Constant) (fun s _ => hnil s) (fun v hv => ?_)
    (fun v w hw hv => ?_)
  · have hconstant := ((hp.trans hq.constant).trans hs.constant).trans hv.constant
    exact (yields_get v).imp (fun _ hs => hs ▸ hconstant)
  · have hrun : j.run v.backend v.policy.scanning.timeoutSeconds started ended =
        p₀.runScan j started ended := by
      rw [hv.backend, hv.policy]
      rfl
    have hid : (p₀.runScan j started ended).1.id = j.id := (j.tells_run _ _ started ended).1
    have hrest : ∀ {w' : Routine Unit}, w'.Tracks (p₀.runScan j started ended).1.id
        (Routed p₀.registry r.correlation (p₀.runScan j started ended))
        (fun _ => Concluded p₀.registry r.correlation (p₀.runScan j started ended)) w [] →
        w'.Tracks j.id (Routing p₀ r j) (fun _ => Conclusion p₀ r j) w [] := by
      intro w' h
      rw [hid] at h
      exact h.imp (fun _ _ h => ⟨started, ended, h⟩) (fun _ _ _ h => ⟨started, ended, h⟩)
    refine hrest ?_
    rw [hrun, hv.registry]
    generalize p₀.runScan j started ended = ran
    rcases ran with ⟨scan, e | evidence⟩
    · exact tracks_failedScan p₀.registry r.correlation scan e w
    · exact tracks_passedScan p₀.registry r.correlation scan evidence w

/-- What the dispatch of a scan leads to is followed from the moment a worker has taken it. -/
theorem tracks_runJob {p₀ p : Pipeline} {r : Request} {j : ScanJob} (hj : r.job = .scan j)
    (hp : p₀.Constant p) :
    (runJob r).Tracks j.id (Routing p₀ r j) (fun _ => Conclusion p₀ r j) p [] := by
  have hclosed : ∀ p q queued, p.Stable j.id q → Conclusion p₀ r j p queued →
      Conclusion p₀ r j q queued := by
    rintro p q queued hq ⟨started, ended, h⟩
    have hid : (p₀.runScan j started ended).1.id = j.id := (j.tells_run _ _ started ended).1
    exact ⟨started, ended, h.later (hid ▸ hq)⟩
  have hholds : ∀ p queued, Conclusion p₀ r j p queued → Routing p₀ r j p queued :=
    fun _ _ ⟨started, ended, h⟩ => ⟨started, ended, h.routed⟩
  have hhandle : (handle r).Tracks j.id (Routing p₀ r j) (fun _ => Conclusion p₀ r j) p [] := by
    unfold handle
    rw [hj]
    exact tracks_dispatchScan r j hp
  have hdispatch : (dispatch r).Tracks j.id (Routing p₀ r j) (fun _ => Conclusion p₀ r j) p [] := by
    refine (hhandle.result hclosed hholds).bind (fun found q queued h => ?_) (fun _ _ _ h => h)
    refine tracks_of_every hclosed hholds ?_ h
    cases found <;> trivial
  refine hdispatch.outcome.bind (fun found q queued h => ?_) (fun _ _ _ h => h)
  refine tracks_of_every hclosed hholds ?_ h
  refine (every_once (fun q => quiet_settle j.id r.job.id _ q)).bind (fun _ => ?_)
  exact quiet_once (steady_still.publish _ _)

end Worker

namespace Beside

open Worker

/-! ## Beside a crew -/

/-- The worker of a scan keeps to what belongs to it, and the dispatch is followed. -/
structure Follows (p₀ : Pipeline) (r : Request) (j : ScanJob) (b : Beside) : Prop where
  tidy : b.Tidy r
  constant : p₀.Constant b.pipeline
  tracks : b.rest.Tracks j.id (Routing p₀ r j) (fun _ => Conclusion p₀ r j) b.pipeline b.queued

section Follows

variable {p₀ : Pipeline} {r : Request} {j : ScanJob} {b b' : Beside}

/-- As long as no id was put down twice, others leave alone what belongs to the scan. -/
theorem Follows.step (h : Follows p₀ r j b) (hj : r.job = .scan j) (hstep : Step b b')
    (hids : b.pipeline.queue.log.Nodup) : Follows p₀ r j b' := by
  obtain ⟨htidy, hconstant, -⟩ := h.tidy.step hstep
  refine ⟨htidy, h.constant.trans hconstant, ?_⟩
  have htracks := h.tracks
  cases hstep with
  | others habides =>
    have hmoves := h.tidy.others.step habides
    have hid : r.job.id = j.id := congrArg Job.id hj
    have hleaves := hmoves.leaves hids r (List.mem_singleton.2 rfl)
    exact htracks.later ⟨hconstant, hid ▸ hleaves⟩
  | @call β p ts act next queued => exact (htracks p (.refl _ p)).2
  | @evaluate p ts changed t next queued memory clock answer =>
    exact (htracks p answer (.refl _ p)).2.later ⟨⟨rfl, rfl, rfl, rfl⟩, ⟨rfl, rfl⟩⟩

theorem Follows.run (h : Follows p₀ r j b) (hj : r.job = .scan j) (hrun : Reached b b')
    (hids : b'.pipeline.queue.log.Nodup) : Follows p₀ r j b' := by
  induction hrun with
  | refl => exact h
  | @tail b' b'' hrun hstep ih =>
    -- the log only grows, so ids that differ in the end differed all the time
    have hlog := ((h.tidy.run hrun).step hstep).2.2
    have hids' : b'.pipeline.queue.log.Nodup := hlog.sublist.nodup hids
    exact (ih hids').step hj hstep hids'

/-- What the scan has led to at any moment, and from the end of the worker on. -/
theorem Follows.routed (h : Follows p₀ r j b) : ∃ started ended,
    Routed p₀.registry r.correlation (p₀.runScan j started ended) b.pipeline b.queued ∧
      ((∃ x, b.rest = .done x) →
        Concluded p₀.registry r.correlation (p₀.runScan j started ended) b.pipeline b.queued) := by
  by_cases hdone : ∃ x, b.rest = .done x
  · obtain ⟨x, hx⟩ := hdone
    have htracks := h.tracks
    rw [hx] at htracks
    obtain ⟨started, ended, hconcluded⟩ := (htracks b.pipeline (.refl _ _)).2
    exact ⟨started, ended, hconcluded.routed, fun _ => hconcluded⟩
  · obtain ⟨started, ended, hrouted⟩ := h.tracks.now
    exact ⟨started, ended, hrouted, fun hx => absurd hx hdone⟩

end Follows

/-- The evidence of a scan goes to the normalizers that read it.  Whatever a crew does, when one of
its workers has taken a scan and goes through its calls while the others go through theirs, and no
job has the id of another: the scan is run on the backend and comes out as one that is over.  If it
failed no job is queued for it; else jobs are queued for the normalizers of the built registry that
read the evidence, in the order of their ids and one for each, each of them with the scan as it
came out, and whoever reads the evidence for such a job finds the evidence of this very run.  The
worker can finish, and once it has, all of them have got their job and the scan is archived, if
queue and archive are in order. -/
theorem evidence_routed {d : Registry.Draft} {p₀ p p' : Pipeline} {ts : List Task} {k : JobKind}
    {r : Request} {j : ScanJob} {b : Beside} (hbuild : d.build = .ok p₀.registry)
    (hwaiting : (p₀.queue.waiting.map (fun r => r.job.id)).Subperm p₀.queue.log)
    (hcrew : Crew.Abiding ⟨p₀, []⟩ ⟨p, ts⟩) (hdequeue : p.dequeue k = (p', some r))
    (hjob : r.job = .scan j) (hreached : Reached (start ⟨p', ts⟩ r) b)
    (hids : b.pipeline.queue.log.Nodup) :
    (∃ b' x, Reached b b' ∧ b'.rest = .done x) ∧
    ∃ started ended scan outcome, p₀.runScan j started ended = (scan, outcome) ∧
      (scan.id = j.id ∧ scan.scanner = j.scanner ∧ scan.life.status.isTerminal = true) ∧
      (∀ e, outcome = .error e → b.queued = []) ∧
      (∀ e, outcome = .ok e →
        (Evidence.errorTag ∈ e.tags ∨ scannerTag j.scanner.id ∈ e.tags) ∧
        ∃ readers : List String, readers.Pairwise (· < ·) ∧
          (∀ id, id ∈ readers ↔ ∃ n, p₀.registry.normalizers.get? id = some n ∧
            n.definition.Reads e.tags j.scanner.id) ∧
          (∃ ids, ids <+: readers ∧
            List.Forall₂ (b.pipeline.Conveys scan e r.correlation) ids b.queued) ∧
          ((∃ x, b.rest = .done x) → p₀.outages.archiveOffline = false →
            p₀.outages.queueClosed = false →
            List.Forall₂ (b.pipeline.Conveys scan e r.correlation) readers b.queued)) ∧
      ((∃ x, b.rest = .done x) → p₀.outages.archiveOffline = false →
        b.pipeline.archive.scans.get? j.id = some scan) := by
  have hstart : Crew.Tidy [] ⟨p₀, []⟩ := by
    refine ⟨?_, fun task htask => absurd htask List.not_mem_nil⟩
    show ((p₀.queue.waiting ++ []).map _).Subperm _
    rwa [List.append_nil]
  obtain ⟨htidy, hcrewconstant⟩ := hstart.run hcrew
  have hconstant : p₀.Constant p' := by
    obtain ⟨hpipeline, -⟩ := dequeue_eq_some_iff.1 hdequeue
    exact hcrewconstant.trans (hpipeline ▸ ⟨rfl, rfl, rfl, rfl⟩)
  have hfollows : Follows p₀ r j (start ⟨p', ts⟩ r) :=
    ⟨tidy_start htidy hdequeue, hconstant, tracks_runJob hjob hconstant⟩
  have hb := hfollows.run hjob hreached hids
  refine ⟨?_, ?_⟩
  · obtain ⟨b', hrest, hdone, -⟩ := exists_done b
    exact ⟨b', _, hrest, hdone⟩
  obtain ⟨started, ended, hrouted, hconcluded⟩ := hb.routed
  obtain ⟨⟨hid, hscanner, hover⟩, htagged⟩ := runScan_spec p₀ j started ended
  refine ⟨started, ended, ?_⟩
  generalize p₀.runScan j started ended = ran at hrouted hconcluded hid hscanner hover htagged
  obtain ⟨scan, outcome⟩ := ran
  refine ⟨scan, outcome, rfl, ⟨hid, hscanner, hover⟩, ?_, ?_, fun hdone honline => ?_⟩
  · rintro e rfl
    exact hrouted
  · rintro e rfl
    obtain ⟨hsorted, hreaders⟩ := Registry.readers_of_build hbuild e.tags j.scanner.id
    rw [← hscanner] at hsorted hreaders ⊢
    refine ⟨hscanner ▸ htagged e rfl, _, hsorted, hreaders, hrouted, fun hdone honline hopen => ?_⟩
    exact (hconcluded hdone).all (hb.constant.outages ▸ honline) (hb.constant.outages ▸ hopen) e rfl
  · rw [← hid]
    exact (hconcluded hdone).archived (hb.constant.outages ▸ honline)

namespace Plumbing

def network : Entity :=
  .network "internet"

/-- A scanner of networks, with normalizers for what it finds, for failures alone, and for whatever
it leaves behind. -/
def draft : Registry.Draft :=
  let scanner : ScannerDefinition := ⟨"plumb", none, .ofList [.network], .empty, .l0⟩
  let normalizer (id consumes : String) (d : Registry.Draft) : Registry.Draft :=
    d.addNormalizer ⟨id, .ofList [consumes], .ofList [.network]⟩ (fun _ _ _ => .returned [])
  normalizer "audit" (scannerTag "plumb") (normalizer "alarm" Evidence.errorTag
    (normalizer "read" "plumb" (.addScanner .empty scanner none)))

/-- A request for a scan of the network. -/
def request (id : Nat) : Request :=
  ⟨.scan (.ofSnapshot (.ofNat id) ⟨"plumb", none⟩ (.ofEntity network) "default"), .ofSecond 0, none⟩

/-- A pipeline with them where two scans of the network wait. -/
def idle : Pipeline :=
  { ofStore (Store.holding [network] (.ofSecond 0)) with
    registry := draft.registry
    backend := fun _ _ => some (.returned ⟨[1, 2], .ofList ["depth"]⟩)
    queue := (Queue.empty.enqueue (request 10)).enqueue (request 20) }

/-- The pipeline after one of the scans was taken. -/
def taken : Pipeline :=
  (idle.dequeue .scan).1

/-- The pipeline after the other one was taken. -/
def busy : Pipeline :=
  (taken.dequeue .scan).1

def rival : Task :=
  ⟨some (request 10), Worker.runJob (request 10)⟩

theorem abiding_taken : Crew.Abiding ⟨idle, []⟩ ⟨taken, [rival]⟩ := by
  have hstep : Crew.Step ⟨idle, []⟩ none ⟨taken, [rival]⟩ := .take (k := .scan) rfl
  exact .single ⟨none, hstep, fun h => absurd (congrArg List.length h) (by decide)⟩

theorem runScan_idle {j : ScanJob} (hj : (request 20).job = .scan j) (started ended : Instant) :
    (idle.runScan j started ended).2 =
      .ok ⟨[1, 2], .ofList ["depth", scannerTag "plumb"]⟩ := by
  cases hj
  rfl

theorem evidence_routed_plumbing : ∃ b : Beside,
    Reached (start ⟨busy, [rival]⟩ (request 20)) b ∧ (∃ x, b.rest = .done x) ∧
      ∃ scan e readers, scan.id = .ofNat 20 ∧ scan.life.status.isTerminal = true ∧
        e.octets = [1, 2] ∧ "read" ∈ readers ∧ "audit" ∈ readers ∧ "alarm" ∉ readers ∧
        List.Forall₂ (b.pipeline.Conveys scan e none) readers b.queued := by
  have hwaiting : (idle.queue.waiting.map (fun r => r.job.id)).Subperm idle.queue.log := by
    decide +kernel
  have hdequeue : taken.dequeue .scan = (busy, some (request 20)) := rfl
  obtain ⟨b, hreached, hdone, hend⟩ := exists_done (start ⟨busy, [rival]⟩ (request 20))
  have hids : b.pipeline.queue.log.Nodup := by
    rw [hend]
    decide +kernel
  obtain ⟨-, started, ended, scan, outcome, hran, ⟨hid, -, hover⟩, -, hok, -⟩ :=
    evidence_routed (d := draft) rfl hwaiting abiding_taken hdequeue rfl hreached hids
  have houtcome := (congrArg Prod.snd hran).symm.trans (runScan_idle rfl started ended)
  obtain ⟨-, readers, -, hreaders, -, hall⟩ := hok _ houtcome
  refine ⟨b, hreached, ⟨_, hdone⟩, scan, _, readers, hid, hover, rfl, ?_, ?_, ?_,
    hall ⟨_, hdone⟩ rfl rfl⟩
  · exact (hreaders "read").2 ⟨_, rfl, Registry.reads_iff.1 (by decide +kernel)⟩
  · exact (hreaders "audit").2 ⟨_, rfl, Registry.reads_iff.1 (by decide +kernel)⟩
  · intro h
    obtain ⟨n, hn, hreads⟩ := (hreaders "alarm").1 h
    cases hn
    exact absurd (Registry.reads_iff.2 hreads) (by decide +kernel)

end Plumbing

end Beside

end ScanGraph
