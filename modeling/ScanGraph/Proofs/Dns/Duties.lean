/-
What routines owe to address records.

The link that a record asks for is noted if it is visible or if a derive job for a
commit of the record waits.  A routine leads to it if, as long as the record stands
wherever it makes a call, it does not come to an end before one of its calls has
noted the link.  Whoever takes such a derive job does so: `leads_runJob`.

Three notions carry the argument.  `Noted` is what is wanted, and no step of a running
pipeline undoes it, because links are never replaced and queued jobs are only taken by
those who run them.  `Leads` says of a routine that it comes to note the link or to such
an end; `Brings` that it cannot end without having noted it.  Both are closed under
sequencing, so that the routines are gone through call by call.

`brings_runJob` covers the derive job with which a chain begins.  A derive job later in
a chain may be at the depth where chains end, in which case it commits without noting
anything; that is why `Request.Concerns` asks for the beginning.
-/
import ScanGraph.Proofs.Clearance.Implied
import ScanGraph.Proofs.Dns.Assignment
import ScanGraph.Proofs.Pipeline.Calls
import ScanGraph.Proofs.Queue.Lines

namespace ScanGraph

/-- The request is for the derive job of a commit of the record, with which a chain begins. -/
def Request.Concerns (r : Request) (a : Assignment) : Prop :=
  ∃ j, r.job = .derive j ∧ j.lineage = [] ∧ j.commit.reference = a.record ∧
    j.commit.validTime = a.time

namespace Assignment

/-- The link that the record asks for is visible, or a job waits that is to derive it. -/
def Noted (a : Assignment) (p : Pipeline) : Prop :=
  p.store.Known a.time a.link.reference ∨ ∃ r ∈ p.queue.waiting, r.Concerns a

/-- The commit is one of the record at its time. -/
def Commits (a : Assignment) (c : Commit) : Prop :=
  c.reference = a.record ∧ c.validTime = a.time

end Assignment

/-- Nothing that was derived is a record. -/
def Unrecorded (outcomes : List RuleOutcome) : Prop :=
  ∀ outcome ∈ outcomes, ∀ o ∈ outcome.status.objects, o.type.isA .dnsRecord = false

/-- What ends well has such a result. -/
def Well {α : Type} (post : α → Prop) : Except Fault α → Prop
  | .ok a => post a
  | .error _ => False

namespace Routine

/-- As long as the record stands wherever a call is made, one of the calls notes the link, or the
routine comes to such an end. -/
def Leads {α : Type} (hashes : Set (List UInt8)) (a : Assignment) (post : Except Fault α → Prop) :
    Routine α → Prop
  | done x => post x
  | call act next => ∀ p, a.Live hashes p →
      a.Noted (act p).2 ∨ (next (act p).1).Leads hashes a post
  | evaluate changed t next => ∀ outcomes, Unrecorded outcomes →
      (changed = a.record → t = a.time → a.Linked outcomes) →
      (next (.ok outcomes)).Leads hashes a post

/-- The routine does not come to an end before the link is noted. -/
def Brings {α : Type} (hashes : Set (List UInt8)) (a : Assignment) (w : Routine α) : Prop :=
  w.Leads hashes a (fun _ => False)

section Leads

variable {α β : Type} {hashes : Set (List UInt8)} {a : Assignment} {post : Except Fault α → Prop}
  {w : Routine α}

theorem Leads.imp {post' : Except Fault α → Prop} (h : w.Leads hashes a post)
    (hpost : ∀ x, post x → post' x) : w.Leads hashes a post' := by
  induction w with
  | done x => exact hpost x h
  | call act next ih => exact fun p hp => (h p hp).imp_right (ih _)
  | evaluate changed t next ih => exact fun os hos hlinked => ih _ (h os hos hlinked)

theorem Leads.bind {f : α → Routine β} {post' : Except Fault β → Prop}
    (h : w.Leads hashes a post) (hok : ∀ b, post (.ok b) → (f b).Leads hashes a post')
    (herror : ∀ fault, post (.error fault) → post' (.error fault)) :
    (w >>= f).Leads hashes a post' := by
  rw [bind_def]
  induction w with
  | done x =>
    cases x with
    | ok b => exact hok b h
    | error fault => exact herror fault h
  | call act next ih => exact fun p hp => (h p hp).imp_right (ih _)
  | evaluate changed t next ih => exact fun os hos hlinked => ih _ (h os hos hlinked)

theorem Leads.andThen {f : α → Routine β} {good : α → Prop} {post' : Except Fault β → Prop}
    (h : w.Leads hashes a (Well good)) (hf : ∀ b, good b → (f b).Leads hashes a post') :
    (w >>= f).Leads hashes a post' :=
  h.bind hf (fun _ hfalse => hfalse.elim)

theorem Leads.weaken {good good' : α → Prop} (h : w.Leads hashes a (Well good))
    (hgood : ∀ b, good b → good' b) : w.Leads hashes a (Well good') := by
  refine h.imp (fun x hx => ?_)
  cases x with
  | ok b => exact hgood b hx
  | error fault => exact hx

theorem Brings.bind (h : w.Brings hashes a) (f : α → Routine β) : (w >>= f).Brings hashes a :=
  Leads.bind h (fun _ hfalse => hfalse.elim) (fun _ hfalse => hfalse.elim)

theorem Leads.outcome (h : w.Leads hashes a post) : w.outcome.Leads hashes a (Well post) := by
  induction w with
  | done x => exact h
  | call act next ih => exact fun p hp => (h p hp).imp_right (ih _)
  | evaluate changed t next ih => exact fun os hos hlinked => ih _ (h os hos hlinked)

theorem Brings.outcome (h : w.Brings hashes a) : w.outcome.Brings hashes a := by
  refine (Leads.outcome h).imp (fun x hx => ?_)
  cases x <;> exact hx

theorem Brings.result (h : w.Brings hashes a) : w.result.Brings hashes a :=
  h.outcome.bind _

/-- What does not panic ends well if its errors are part of its result. -/
theorem Leads.result (h : w.Leads hashes a post) (hcalm : ∀ m, ¬ post (.error (.panic m))) :
    w.result.Leads hashes a (Well (fun _ => True)) := by
  refine h.outcome.andThen (fun x hx => ?_)
  rcases x with (e | m) | b
  · trivial
  · exact (hcalm m hx).elim
  · trivial

theorem Leads.ignoring {w : Routine Unit} {good : Unit → Prop}
    (h : w.Leads hashes a (Well good)) : w.ignoring.Leads hashes a (Well (fun _ => True)) :=
  (h.result (fun _ hfalse => hfalse)).andThen (fun _ _ => trivial)

/-- Calls that change nothing but the clock, the ids and the bus. -/
theorem leads_yields {act : Action α} {good : α → Prop}
    (h : ∀ p : Pipeline, p.Working → p.Yields act good) :
    (once act).Leads hashes a (Well good) := by
  intro p hp
  obtain ⟨b, q, hact, -, hb⟩ := h p hp.1.working
  rw [hact]
  exact .inr hb

theorem leads_get : (once get).Leads hashes a (Well (fun _ => True)) :=
  leads_yields (fun p _ => (Pipeline.yields_get p).imp (fun _ _ => trivial))

theorem leads_mapM {f : α → Routine β} (l : List α)
    (h : ∀ x ∈ l, (f x).Leads hashes a (Well (fun _ => True))) :
    (l.mapM f).Leads hashes a (Well (fun _ => True)) := by
  induction l with
  | nil => trivial
  | cons x l ih =>
    rw [List.mapM_cons]
    refine (h x List.mem_cons_self).andThen (fun _ _ => ?_)
    exact (ih (fun y hy => h y (List.mem_cons_of_mem _ hy))).andThen (fun _ _ => trivial)

theorem leads_forM {f : α → Routine Unit} (l : List α)
    (h : ∀ x ∈ l, (f x).Leads hashes a (Well (fun _ => True))) :
    (l.forM f).Leads hashes a (Well (fun _ => True)) := by
  induction l with
  | nil => trivial
  | cons x l ih =>
    exact (h x List.mem_cons_self).andThen
      (fun _ _ => ih (fun y hy => h y (List.mem_cons_of_mem _ hy)))

/-- One of several notes the link, and those before it do not fail. -/
theorem brings_forM {f : α → Routine Unit} {l : List α} {x : α} (hx : x ∈ l)
    (hbrings : (f x).Brings hashes a)
    (h : ∀ y ∈ l, (f y).Leads hashes a (Well (fun _ => True))) : (l.forM f).Brings hashes a := by
  induction l with
  | nil => exact absurd hx List.not_mem_nil
  | cons y l ih =>
    rcases List.mem_cons.1 hx with rfl | hx
    · exact hbrings.bind _
    · exact (h y List.mem_cons_self).andThen
        (fun _ _ => ih hx (fun z hz => h z (List.mem_cons_of_mem _ hz)))

end Leads

end Routine

namespace Worker

open Routine Pipeline

section Leads

variable {hashes : Set (List UInt8)} {a : Assignment}

/-! ## Follow-up jobs -/

theorem mem_waiting_enqueue {q : Queue} {r r' : Request} (h : r' ∈ q.waiting ∨ r' = r) :
    r' ∈ (q.enqueue r).waiting := by
  have hready : ∀ k, (q.enqueue r).ready.get k = q.ready.get k ++ Queue.ofKind k [r] :=
    Queue.ready_enqueueAll q [r]
  unfold Queue.waiting
  simp only [List.mem_flatMap, hready, List.mem_append]
  rcases h with h | rfl
  · obtain ⟨k, hk, hr'⟩ := List.mem_flatMap.1 h
    exact ⟨k, hk, .inl hr'⟩
  · exact ⟨r'.job.kind, Queue.mem_all _, .inr (by simp [Queue.ofKind])⟩

theorem leads_enqueue (r : Request) :
    (once (enqueue r)).Leads hashes a (Well (fun _ => ¬ r.Concerns a)) := by
  intro p hp
  have hopen : ¬ p.outages.queueClosed = true := by
    rw [hp.1.working.outages]
    decide
  rw [enqueue_of_not_closed r hopen]
  by_cases hr : r.Concerns a
  · exact .inl (.inr ⟨r, mem_waiting_enqueue (.inr rfl), hr⟩)
  · exact .inr hr

/-- What is queued is queued, and if a job among it concerns the record, the link is noted. -/
theorem leads_enqueueAll (rs : List Request) :
    (enqueueAll rs).Leads hashes a (Well (fun _ => ∀ r ∈ rs, ¬ r.Concerns a)) := by
  induction rs with
  | nil => exact fun r hr => absurd hr List.not_mem_nil
  | cons r rs ih =>
    refine (leads_enqueue r).andThen (fun _ hr => ?_)
    exact ih.andThen (fun _ hrs => List.forall_mem_cons.2 ⟨hr, hrs⟩)

theorem leads_enqueueAnnounced (rs : List Request) :
    (enqueueAnnounced rs).Leads hashes a (Well (fun _ => ∀ r ∈ rs, ¬ r.Concerns a)) := by
  refine (leads_enqueueAll rs).andThen (fun _ hrs => ?_)
  have hannounced : (rs.forM (fun r => once (publish r.correlation
      (.jobEnqueued r.job.id r.job.kind)))).Leads hashes a (Well (fun _ => True)) :=
    leads_forM rs (fun r _ => leads_yields (fun p _ => yields_publish _ _ p))
  exact hannounced.weaken (fun _ _ => hrs)

theorem leads_automaticScans (commits : List Commit) (correlation : Option Uuid) :
    (automaticScans commits correlation).Leads hashes a (Well (fun _ => True)) := by
  have hscans : ∀ c, (scansAfter correlation c).Leads hashes a (Well (fun _ => True)) := by
    intro c
    have hlookUp : (once (lookUp c.reference c.validTime)).Leads hashes a (Well (fun _ => True)) :=
      leads_yields (fun p hp => ⟨_, _, hp.lookUp _ _, rfl, trivial⟩)
    refine (hlookUp.result (fun _ hfalse => hfalse)).andThen (fun found _ => ?_)
    split
    · exact leads_yields (fun p _ => (yields_scansOf _ _ p).imp (fun _ _ => trivial))
    · trivial
  refine leads_get.andThen (fun p _ => ?_)
  split
  · exact (leads_mapM commits (fun c _ => hscans c)).andThen (fun _ _ => trivial)
  · trivial

/-- Every commit has its derive job among the jobs that it leads to. -/
theorem leads_followUps (parent : Option (DeriveJob × Visit)) (correlation : Option Uuid)
    (commits : List Commit) : (followUps parent correlation commits).Leads hashes a
      (Well (fun rs => ∀ c ∈ commits, ∃ r ∈ rs, IsDerive parent correlation c r)) := by
  refine (leads_automaticScans commits correlation).andThen (fun scans _ => ?_)
  have hderives : (once (commits.mapM (deriveRequest parent correlation))).Leads hashes a
      (Well (List.Forall₂ (IsDerive parent correlation) commits)) :=
    leads_yields (fun p _ => yields_mapM commits
      (fun c _ q _ => yields_deriveRequest parent correlation c q))
  refine hderives.andThen (fun derives hmade c hc => ?_)
  obtain ⟨r, hr, hrequest⟩ := exists_of_forall₂ hmade.flip c hc
  exact ⟨r, List.mem_append_right _ hr, hrequest⟩

theorem concerns_of_isDerive {correlation : Option Uuid} {c : Commit} {r : Request}
    (hc : a.Commits c) (hr : IsDerive none correlation c r) : r.Concerns a := by
  obtain ⟨id, t, rfl⟩ := hr
  exact ⟨_, rfl, rfl, hc⟩

/-- What is committed is announced, and if the record is among it and a chain begins, the link is
noted. -/
theorem leads_announceCommits (r : Request) (parent : Option (DeriveJob × Visit))
    (commits : List Commit) : (announceCommits r parent commits).Leads hashes a
      (Well (fun _ => parent = none → ∀ c ∈ commits, ¬ a.Commits c)) := by
  unfold announceCommits
  split
  · rename_i hempty
    obtain rfl := List.isEmpty_iff.1 hempty
    exact fun _ c hc => absurd hc List.not_mem_nil
  · refine (leads_yields (fun p _ => yields_publish _ _ p)).andThen (fun _ _ => ?_)
    refine (leads_followUps parent r.correlation commits).andThen (fun rs hrs => ?_)
    refine (leads_enqueueAnnounced rs).weaken (fun _ hnone hparent c hc hcommits => ?_)
    obtain ⟨r', hr', hrequest⟩ := hrs c hc
    subst hparent
    exact hnone r' hr' (concerns_of_isDerive hcommits hrequest)

/-! ## Derivations -/

theorem leads_commitDerived (r : Request) (j : DeriveJob) (rule : String) (root : Snapshot)
    (objects : List Snapshot) : (commitDerived r j rule root objects).Leads hashes a
      (fun x => ∀ m, x ≠ .error (.panic m)) := by
  have hobserve : ∀ o, (once (observe o)).Leads hashes a (fun x => ∀ m, x ≠ .error (.panic m)) := by
    intro o p hp
    have hobserved : ∀ m, p.observed o ≠ .error (.panic m) := by
      intro m hm
      unfold observed at hm
      rw [hp.1.working.outages] at hm
      cases hstore : p.store.observe o <;> rw [hstore] at hm <;> cases hm
    cases hdone : p.observed o with
    | ok done =>
      rw [observe_of_ok hdone]
      exact .inr (fun m hm => nomatch hm)
    | error fault =>
      rw [observe_of_error hdone]
      exact .inr (fun m hm => hobserved m (by cases hm; exact hdone))
  refine (hobserve _).bind (fun commits _ => ?_) (fun fault hcalm m hm => ?_)
  · refine leads_get.andThen (fun p _ => ?_)
    split
    · exact fun m hm => by cases hm
    · refine (leads_announceCommits r _ commits).imp (fun x hx m hm => ?_)
      subst hm
      exact hx
  · cases hm
    exact hcalm m rfl

theorem leads_settleOutcome (r : Request) (j : DeriveJob) (o : RuleOutcome) :
    (settleOutcome r j o).Leads hashes a (Well (fun _ => True)) := by
  unfold settleOutcome
  split
  · rename_i objects _ _
    split
    · trivial
    · have hcommitted : (commitDerived r j o.rule o.root objects).result.Leads hashes a
          (Well (fun _ => True)) :=
        (leads_commitDerived r j o.rule o.root objects).result (fun m hm => hm m rfl)
      refine hcommitted.andThen (fun found _ => ?_)
      cases found <;> trivial
  · trivial

theorem leads_recordOutcome (r : Request) (j : DeriveJob) (o : RuleOutcome) :
    (recordOutcome r j o).Leads hashes a (Well (fun _ => True)) := by
  refine (leads_settleOutcome r j o).andThen (fun settled _ => ?_)
  refine (leads_yields (fun p _ => yields_freshId p)).andThen (fun id _ => ?_)
  refine (leads_yields (fun p _ => yields_now p)).andThen (fun t _ => ?_)
  have hsaved : (once (save (fun x => x.saveAttempt ⟨id, some j.id, o.rule, o.root.reference,
      settled.1, settled.2, t⟩))).Leads hashes a (Well (fun _ => True)) := by
    intro p hp
    rw [hp.1.working.save]
    exact .inr trivial
  refine hsaved.ignoring.andThen (fun _ _ => ?_)
  exact leads_yields (fun p _ => yields_publish _ _ p)

/-- At the start of a chain the link is committed if it was derived for the host of the record. -/
theorem brings_recordOutcome (r : Request) {j : DeriveJob} (hlineage : j.lineage = [])
    (htime : j.commit.validTime = a.time) {o : RuleOutcome} (hroot : o.root.reference = a.host)
    {objects : List Snapshot} {cached : Bool} (hstatus : o.status = .derived objects cached)
    (hlink : ∃ x ∈ objects, x.reference = a.link.reference) :
    (recordOutcome r j o).Brings hashes a := by
  have hcommitted : (commitDerived r j o.rule o.root objects).Brings hashes a := by
    refine Brings.bind ?_ _
    rintro p ⟨hrunning, hstands⟩
    let found : Observation :=
      ⟨o.rule, o.root.reference, some j.id, j.commit.validTime, o.root.imply objects⟩
    have hsource : (p.store.visible? found.source found.validTime).isSome = true := by
      obtain ⟨y, hy⟩ := hstands.host
      show (p.store.visible? o.root.reference j.commit.validTime).isSome = true
      rw [hroot, htime, hy]
      rfl
    rw [observe_of_ok (hrunning.working.observed hsource)]
    obtain ⟨x, hx, hreference⟩ := hlink
    obtain ⟨x', hx', hsame⟩ : ∃ x' ∈ o.root.imply objects, x'.entity = x.entity :=
      Snapshot.exists_mem_imply hx
    have hlinked : x'.reference = a.link.reference :=
      (congrArg Entity.reference hsame).trans hreference
    have hknown : (p.store.commit found).1.Known j.commit.validTime x'.reference :=
      Store.known_of_mem_result hx'
    rw [htime, hlinked] at hknown
    exact .inl (.inl hknown)
  have hvisited : j.hasVisited ⟨o.rule, o.root.reference⟩ = false := by
    unfold DeriveJob.hasVisited
    rw [hlineage]
    rfl
  have hsettled : (settleOutcome r j o).Brings hashes a := by
    unfold settleOutcome
    rw [hstatus]
    dsimp only
    rw [hvisited]
    exact hcommitted.result.bind _
  exact hsettled.bind _

/-! ## Jobs -/

/-- Whoever takes the derive job of a commit of the record comes to note the link. -/
theorem brings_runJob {r : Request} (hr : r.Concerns a) : (runJob r).Brings hashes a := by
  obtain ⟨j, hjob, hlineage, hreference, htime⟩ := hr
  have hderive : ∀ j' : DeriveJob, j'.commit = j.commit → j'.lineage = [] →
      (deriveAll r j').Brings hashes a := by
    intro j' hcommit hnone outcomes _ hlinked
    obtain ⟨o, ho, hroot, objects, cached, hstatus, hlink⟩ :=
      hlinked (hcommit ▸ hreference) (hcommit ▸ htime)
    exact brings_forM ho (brings_recordOutcome r hnone (hcommit ▸ htime) hroot hstatus hlink)
      (fun o _ => leads_recordOutcome r j' o)
  have hdispatch : (dispatchDerive r j).Brings hashes a := by
    refine (leads_yields (fun p _ => yields_now p)).andThen (fun started _ => ?_)
    exact (hderive _ rfl hlineage).result.bind _
  have hhandle : (handle r).Brings hashes a := by
    unfold handle
    rw [hjob]
    exact hdispatch
  exact (hhandle.result.bind _).outcome.bind _

end Leads

end Worker

end ScanGraph
