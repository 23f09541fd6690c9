/-
Routines that owe nothing to any record.

A routine heeds the records if whatever it calls leaves a running pipeline running
with all that waited, and if, after a call that committed an address record, what
is left of the routine brings the link of the record.  Submissions do, and so does
whoever runs a job: `heeds_runJob`.  What rules derive are no records, so that only
what is submitted or read from evidence is to be followed up.

Here the other routines are gone through, those that may commit an address record
themselves or do something else entirely.  What they owe depends on the call that they
have just made: after a commit of a record the rest of the routine brings its link, and
after any other call it owes nothing new (`Heeds`).

The lemmas that say a routine makes no such call at all (`Every.heeds`) do most of the
work; `heeds_observe_bind` is the one place where a commit is followed up.  Everything
is said for a pipeline at which nobody exchanges the plugins, and for records of either
family alike.
-/
import ScanGraph.Proofs.Dns.Duties

namespace ScanGraph

namespace Pipeline

/-- A pipeline is running after a call, what waited goes on waiting, and if the call committed an
address record, what is owed for it is done. -/
structure Advances (hashes : Set (List UInt8)) (p q : Pipeline) (owed : Assignment → Prop) :
    Prop where
  running : q.Running hashes
  waiting : ∀ r ∈ p.queue.waiting, r ∈ q.queue.waiting
  store : q.store = p.store ∨ ∃ o cs, p.store.observe o = .ok (q.store, cs) ∧
    ∀ a : Assignment, a.Sound → (∃ c ∈ cs, a.Commits c) → owed a

section Advances

variable {hashes : Set (List UInt8)} {p q : Pipeline} {owed owed' : Assignment → Prop}

theorem Advances.imp (h : Advances hashes p q owed)
    (howed : ∀ a : Assignment, a.Sound → owed a → owed' a) : Advances hashes p q owed' where
  running := h.running
  waiting := h.waiting
  store := h.store.imp_right (fun ⟨o, cs, hobserve, hall⟩ =>
    ⟨o, cs, hobserve, fun a ha hc => howed a ha (hall a ha hc)⟩)

theorem Tended.advances (h : Tended hashes p q) : Advances hashes p q owed where
  running := h.running
  waiting := h.waiting
  store := .inl h.store

/-- A pipeline runs on as long as its plugins, its policy, its services, its store and its cache are
the same. -/
theorem Running.tended_of_eq (hp : p.Running hashes)
    (h : (q.registry, q.policy, q.outages, q.store, q.memory)
      = (p.registry, p.policy, p.outages, p.store, p.memory))
    (hwaiting : ∀ r ∈ p.queue.waiting, r ∈ q.queue.waiting) : Tended hashes p q := by
  simp only [Prod.mk.injEq] at h
  obtain ⟨hregistry, hpolicy, houtages, hstore, hmemory⟩ := h
  have hworking : q.Working := ⟨houtages ▸ hp.working.outages, hstore ▸ hp.working.online⟩
  exact ⟨⟨hworking, hregistry ▸ hp.registry, hpolicy ▸ hp.enabled, hstore ▸ hp.reachable,
    hmemory ▸ hp.trusted⟩, hwaiting, hstore⟩

/-- A step by which a running pipeline is tended. -/
def Tending (hashes : Set (List UInt8)) (p q : Pipeline) : Prop :=
  p.Running hashes → Tended hashes p q

/-- What does not touch the store tends a running pipeline. -/
instance : Tends (Tending hashes) where
  still := by
    intro p q h hp
    simp only [still, Prod.mk.injEq] at h
    obtain ⟨hregistry, hpolicy, -, hstore, hmemory, hqueue, -, houtages, -⟩ := h
    refine hp.tended_of_eq ?_ (fun r hr => hqueue ▸ hr)
    rw [hregistry, hpolicy, houtages, hstore, hmemory]
  enqueue p r hp := hp.tended_of_eq rfl (fun _ hr => Worker.mem_waiting_enqueue (.inl hr))
  saveJob p j hp := hp.tended_of_eq rfl (fun _ hr => hr)
  saveEvidence p id e hp := hp.tended_of_eq rfl (fun _ hr => hr)
  settle p id status hp := by
    refine hp.tended_of_eq ?_ (fun r hr => ?_)
    · unfold settle
      cases settled p.queue id status <;> rfl
    · unfold Queue.waiting
      rwa [ready_settle]

end Advances

end Pipeline

namespace Routine

/-- Wherever a call is made, the pipeline runs on, and if the call committed an address record, what
is left of the routine brings its link. -/
def Heeds {α : Type} (hashes : Set (List UInt8)) : Routine α → Prop
  | done _ => True
  | call act next => ∀ p, p.Running hashes →
      Pipeline.Advances hashes p (act p).2 (fun a => (next (act p).1).Brings hashes a) ∧
        (next (act p).1).Heeds hashes
  | evaluate _ _ next => ∀ outcomes, Unrecorded outcomes → (next (.ok outcomes)).Heeds hashes

section Heeds

variable {α β : Type} {hashes : Set (List UInt8)} {w : Routine α}

theorem Heeds.bind {f : α → Routine β} (h : w.Heeds hashes) (hf : ∀ b, (f b).Heeds hashes) :
    (w >>= f).Heeds hashes := by
  rw [bind_def]
  induction w with
  | done x =>
    cases x with
    | ok b => exact hf b
    | error fault => trivial
  | call act next ih =>
    intro p hp
    obtain ⟨hcall, hnext⟩ := h p hp
    exact ⟨hcall.imp (fun a _ ha => Brings.bind ha f), ih _ hnext⟩
  | evaluate changed t next ih => exact fun os hos => ih _ (h os hos)

theorem Heeds.outcome (h : w.Heeds hashes) : w.outcome.Heeds hashes := by
  induction w with
  | done x => trivial
  | call act next ih =>
    intro p hp
    obtain ⟨hcall, hnext⟩ := h p hp
    exact ⟨hcall.imp (fun a _ ha => Brings.outcome ha), ih _ hnext⟩
  | evaluate changed t next ih => exact fun os hos => ih _ (h os hos)

theorem Heeds.result (h : w.Heeds hashes) : w.result.Heeds hashes := by
  refine h.outcome.bind (fun x => ?_)
  rcases x with (e | m) | b <;> trivial

theorem Every.heeds (h : w.Every (Pipeline.Tending hashes)) : w.Heeds hashes := by
  induction w with
  | done x => trivial
  | call act next ih => exact fun p hp => ⟨(h.1 p hp).advances, ih _ (h.2 _)⟩
  | evaluate changed t next ih => exact fun os _ => ih _ (h _)

theorem heeds_forM {f : α → Routine Unit} (l : List α) (h : ∀ x ∈ l, (f x).Heeds hashes) :
    (l.forM f).Heeds hashes := by
  induction l with
  | nil => trivial
  | cons x l ih =>
    exact (h x List.mem_cons_self).bind (fun _ => ih (fun y hy => h y (List.mem_cons_of_mem _ hy)))

/-- What is observed is followed up if there is an address record in it. -/
theorem heeds_observe_bind {o : Observation} {f : List Commit → Routine β}
    (hf : ∀ cs, (f cs).Heeds hashes)
    (hbrings : ∀ (a : Assignment) (cs : List Commit), a.Sound →
      (∃ x ∈ o.result, x.reference = a.record) → (∃ c ∈ cs, a.Commits c) →
      (f cs).Brings hashes a) : (once (Pipeline.observe o) >>= f).Heeds hashes := by
  intro p hp
  cases hdone : p.observed o with
  | ok done =>
    rw [Pipeline.observe_of_ok hdone]
    have hobserve := Pipeline.observe_store_of_observed hdone
    refine ⟨⟨?_, fun _ hr => hr, .inr ⟨o, done.2, hobserve, fun a ha hc => ?_⟩⟩, hf done.2⟩
    · exact ⟨⟨hp.working.outages, Store.online_of_observe hobserve⟩, hp.registry, hp.enabled,
        .observe hp.reachable hobserve, hp.trusted⟩
    · refine hbrings a done.2 ha ?_ hc
      obtain ⟨c, hc, hreference, -⟩ := hc
      obtain ⟨-, -, hcommit⟩ := Store.observe_eq_ok_iff.1 hobserve
      have hcommits : (p.store.commit o).2 = done.2 := congrArg Prod.snd hcommit
      obtain ⟨x, hx, hsame, -⟩ :=
        (Store.exists_of_mem_foldl_record (hcommits ▸ hc)).resolve_left List.not_mem_nil
      exact ⟨x, hx, hsame.symm.trans hreference⟩
  | error fault =>
    rw [Pipeline.observe_of_error hdone]
    exact ⟨hp.tended.advances, trivial⟩

end Heeds

end Routine

namespace Worker

open Routine Pipeline

section Heeds

variable {hashes : Set (List UInt8)}

/-! ## Submissions -/

theorem heeds_submitScan (scanner : String) (input : Reference) :
    (submitScan scanner input).Heeds hashes :=
  (every_submitScan scanner input).heeds

theorem heeds_submitObservation (method : String) (source : Reference) (objects : List Snapshot)
    (t : Instant) : (submitObservation method source objects t).Heeds hashes := by
  refine heeds_observe_bind (fun cs => ?_) (fun a cs _ _ hc => ?_)
  · refine (every_still steady_still.freshId).heeds.bind (fun correlation => ?_)
    exact (every_followUps none (some correlation) cs).heeds.bind
      (fun rs => (every_enqueueAll rs).heeds)
  · obtain ⟨c, hc, hcommits⟩ := hc
    refine (leads_yields (fun p _ => yields_freshId p)).andThen (fun correlation _ => ?_)
    refine (leads_followUps none (some correlation) cs).andThen (fun rs hrs => ?_)
    obtain ⟨r, hr, hrequest⟩ := hrs c hc
    refine (leads_enqueueAll rs).imp (fun x hx => ?_)
    cases x with
    | ok hs => exact hx r hr (concerns_of_isDerive hcommits hrequest)
    | error fault => exact hx

/-! ## Normalizers -/

theorem heeds_commitNormalized (r : Request) (j : NormalizeJob) (input : Snapshot)
    (objects : List Snapshot) (t : Instant) :
    (commitNormalized r j input objects t).Heeds hashes := by
  refine heeds_observe_bind (fun cs => (every_announceCommits r none cs).heeds)
    (fun a cs _ _ hc => ?_)
  obtain ⟨c, hc, hcommits⟩ := hc
  refine (leads_announceCommits r none cs).imp (fun x hx => ?_)
  cases x with
  | ok _ => exact hx rfl c hc hcommits
  | error fault => exact hx

theorem heeds_dispatchNormalize (r : Request) (j : NormalizeJob) :
    (dispatchNormalize r j).Heeds hashes := by
  have hnormalize : (normalize r j).Heeds hashes := by
    refine (every_normalizeInputs j).result.heeds.bind (fun inputs => ?_)
    rcases inputs with e | ⟨evidence, t, input⟩
    · trivial
    · refine (every_still steady_still.now).heeds.bind (fun started => ?_)
      refine (every_still steady_still.now).heeds.bind (fun ended => ?_)
      refine (every_still Action.Keeps.get).heeds.bind (fun p => ?_)
      rcases j.run p.registry evidence.octets started ended with ⟨j, e | objects⟩
      · trivial
      · exact (heeds_commitNormalized r j input objects t).result.bind (fun _ => trivial)
  refine hnormalize.bind (fun ran => ?_)
  refine (every_still steady_still.now).heeds.bind (fun ended => ?_)
  exact (every_saveJob _).ignoring.heeds.bind (fun _ => (every_ofExcept _).heeds)

/-! ## Derivations -/

theorem heeds_commitDerived (r : Request) (j : DeriveJob) (rule : String) (root : Snapshot)
    {objects : List Snapshot} (hobjects : ∀ o ∈ objects, o.type.isA .dnsRecord = false) :
    (commitDerived r j rule root objects).Heeds hashes := by
  refine heeds_observe_bind (fun cs => ?_) (fun a cs ha hx _ => ?_)
  · refine (every_still Action.Keeps.get).heeds.bind (fun p => ?_)
    split
    · trivial
    · exact (every_announceCommits r _ cs).heeds
  · obtain ⟨x, hx, hreference⟩ := hx
    obtain ⟨o, ho, hentity, -⟩ := Snapshot.mem_imply hx
    have htype : o.type = a.record.type := by
      rw [← hreference]
      exact ((congrArg Entity.type hentity).symm.trans (Entity.reference_type x.entity).symm)
    have hnot := hobjects o ho
    rw [htype, ha.isA_dnsRecord] at hnot
    cases hnot

theorem heeds_recordOutcome (r : Request) (j : DeriveJob) {o : RuleOutcome}
    (ho : ∀ x ∈ o.status.objects, x.type.isA .dnsRecord = false) :
    (recordOutcome r j o).Heeds hashes := by
  have hsettle : (settleOutcome r j o).Heeds hashes := by
    unfold settleOutcome
    split
    · rename_i objects cached hstatus
      split
      · trivial
      · rw [hstatus] at ho
        refine (heeds_commitDerived r j o.rule o.root ho).result.bind (fun found => ?_)
        cases found <;> trivial
    · trivial
  have hattempt : ∀ x : Attempt,
      (once (save (fun archive => archive.saveAttempt x))).Every (Tending hashes) :=
    fun x => every_once (fun p => step_save (fun hp => hp.tended_of_eq rfl (fun _ hr => hr)))
  refine hsettle.bind (fun settled => ?_)
  refine (every_still steady_still.freshId).heeds.bind (fun id => ?_)
  refine (every_still steady_still.now).heeds.bind (fun t => ?_)
  refine (hattempt _).ignoring.heeds.bind (fun _ => ?_)
  exact (every_still (steady_still.publish _ _)).heeds

theorem heeds_dispatchDerive (r : Request) (j : DeriveJob) :
    (dispatchDerive r j).Heeds hashes := by
  have hderive : ∀ j, (deriveAll r j).Heeds hashes := fun j outcomes houtcomes =>
    heeds_forM outcomes (fun o ho => heeds_recordOutcome r j (houtcomes o ho))
  refine (every_still steady_still.now).heeds.bind (fun started => ?_)
  refine (hderive _).result.bind (fun outcome => ?_)
  refine (every_still steady_still.now).heeds.bind (fun ended => ?_)
  exact (every_saveJob _).ignoring.heeds.bind (fun _ => (every_ofExcept _).heeds)

/-! ## Jobs -/

/-- Whoever runs a job follows up the address records that it commits. -/
theorem heeds_runJob (r : Request) : (runJob r).Heeds hashes := by
  have hhandle : (handle r).Heeds hashes := by
    unfold handle
    split
    · exact (every_dispatchScan r _).heeds
    · exact heeds_dispatchNormalize r _
    · exact heeds_dispatchDerive r _
  have hdispatch : (dispatch r).Heeds hashes := by
    refine hhandle.result.bind (fun found => ?_)
    cases found <;> trivial
  refine hdispatch.outcome.bind (fun found => ?_)
  have hsettle : (once (modify (fun p => p.settle r.job.id (resultOf found)))).Every
      (Tending hashes) := every_once (fun q => Tends.settle q r.job.id (resultOf found))
  exact hsettle.heeds.bind (fun _ => (every_still (steady_still.publish _ _)).heeds)

end Heeds

end Worker

end ScanGraph
