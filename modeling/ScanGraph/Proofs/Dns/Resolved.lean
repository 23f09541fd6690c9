/-
Every address record is resolved, in any order.

On a shift at the plugins at hand, an address record that was committed while its
host was visible is attended from then on: its link is noted, or somebody is at a
course that brings it (`Shift.Attended`).  No call of anyone loses this, whatever
changes in between, unless the record itself is changed; and a change of it is a
commit of it, which whoever makes it follows up.  Once nobody is at work and no job
waits, nothing is left but the link: `resolved_of_idle`.

## What is asked

* To begin with every service works, the store is reachable, the cache is empty and
  hosts are to be linked to addresses; the plugins are those at hand, with any way to
  look up names.
* The record was committed in some step of the run, its host was visible at the time of
  the record, and the record is what is visible at that time in the end.
* Nobody is at work and no job waits in the end.
* No two of the octets that were hashed in the run have one digest.

## What is not

That the end is reached is not proved: with automatic scans a run can go on for ever,
and workers may be given up only by finishing what they are at.  Failures of the
services are left out, since a derive job that fails is not tried again.
-/
import ScanGraph.Proofs.Dns.Heeding
import ScanGraph.Proofs.Pipeline.Clearance
import ScanGraph.Proofs.Pipeline.Shift
import ScanGraph.Proofs.Store.Pinned

namespace ScanGraph

open Builtin Pipeline

/-! ## Courses -/

namespace Course

/-- As long as the record stands wherever a call is made, the course does not come to an end before
the link is noted. -/
def Brings {α : Type} (hashes : Set (List UInt8)) (a : Assignment) : Course α → Prop
  | done _ => False
  | call hashed act next => (∀ o ∈ hashed, o ∈ hashes) → ∀ p, a.Live hashes p →
      a.Noted (act p).2 ∨ (next (act p).1).Brings hashes a

/-- Wherever a call is made, the pipeline runs on, and if the call committed an address record, what
is left of the course brings its link. -/
def Heeds {α : Type} (hashes : Set (List UInt8)) : Course α → Prop
  | done _ => True
  | call hashed act next => (∀ o ∈ hashed, o ∈ hashes) → ∀ p, p.Running hashes →
      Advances hashes p (act p).2 (fun a => (next (act p).1).Brings hashes a) ∧
        (next (act p).1).Heeds hashes

section Safe

variable {α β : Type} {hashes : Set (List UInt8)} {a : Assignment} {post : α → Prop}
  {step : Pipeline → Pipeline → Prop} {w : Course α} {f : Except Fault α → Course β}

theorem Safe.brings (h : w.Safe hashes (a.Live hashes) step post)
    (hf : ∀ x, post x → (f (.ok x)).Brings hashes a) : (w.andThen f).Brings hashes a := by
  induction w with
  | done x =>
    cases x with
    | ok x => exact hf x h
    | error fault => exact h.elim
  | call hashed act next ih => exact fun hhashed p hp => .inr (ih _ (h hhashed p hp).2)

theorem Safe.heeds (h : w.Safe hashes (fun p => p.Running hashes) (Tended hashes) post)
    (hf : ∀ x, post x → (f (.ok x)).Heeds hashes) : (w.andThen f).Heeds hashes := by
  induction w with
  | done x =>
    cases x with
    | ok x => exact hf x h
    | error fault => exact h.elim
  | call hashed act next ih =>
    intro hhashed p hp
    obtain ⟨hcall, hnext⟩ := h hhashed p hp
    exact ⟨hcall.advances, ih _ hnext⟩

end Safe

end Course

namespace Routine

section Spells

variable {α : Type} {hashes : Set (List UInt8)} {a : Assignment} {w : Routine α} {v : Course α}

theorem Spells.brings (hv : w.Spells v) (ha : a.Sound) (hdigest : Set.InjOn Sha256.digest hashes)
    (h : w.Brings hashes a) : v.Brings hashes a := by
  induction hv with
  | done x => exact h
  | call _ ih => exact fun _ p hp => (h p hp).imp_right (ih _)
  | @evaluate changed t gather next rest hgather _ ih =>
    have hsuits : Evaluator.Suits hashes (a.Live hashes) (fun _ _ => True) :=
      ⟨fun _ hp => hp.1, fun _ _ _ _ => trivial⟩
    have hunrecorded : (Evaluator.deriveBy gather changed t).Safe hashes (a.Live hashes)
        (fun _ _ => True) Unrecorded := Evaluator.safe_deriveBy hsuits hgather
    by_cases hcommit : changed = a.record ∧ t = a.time
    · obtain ⟨rfl, rfl⟩ := hcommit
      have hlinked := Evaluator.safe_deriveBy_link hsuits ha hdigest hgather
      exact (hunrecorded.and hlinked).brings (fun os hos => ih _ (h os hos.1 (fun _ _ => hos.2)))
    · exact hunrecorded.brings (fun os hos =>
        ih _ (h os hos (fun hchanged ht => absurd ⟨hchanged, ht⟩ hcommit)))

theorem Spells.heeds (hv : w.Spells v) (hdigest : Set.InjOn Sha256.digest hashes)
    (h : w.Heeds hashes) : v.Heeds hashes := by
  induction hv with
  | done x => trivial
  | call hnext ih =>
    intro _ p hp
    obtain ⟨hcall, hrest⟩ := h p hp
    exact ⟨hcall.imp (fun a ha hbrings => (hnext _).brings ha hdigest hbrings), ih _ hrest⟩
  | @evaluate changed t gather next rest hgather _ ih =>
    have hsuits : Evaluator.Suits hashes (fun p => p.Running hashes) (Tended hashes) :=
      ⟨fun _ hp => hp, fun _ _ _ h => h⟩
    exact (Evaluator.safe_deriveBy hsuits hgather).heeds (fun os hos => ih _ (h os hos))

end Spells

end Routine

/-! ## Shifts -/

namespace Shift

/-- The pipeline is running, and everybody heeds the records. -/
structure Kept (hashes : Set (List UInt8)) (c : Shift) : Prop where
  running : c.pipeline.Running hashes
  heeds : ∀ w ∈ c.courses, w.Heeds hashes

/-- The link of the record is noted, or somebody brings it. -/
def Attended (hashes : Set (List UInt8)) (a : Assignment) (c : Shift) : Prop :=
  a.Noted c.pipeline ∨ ∃ w ∈ c.courses, w.Brings hashes a

section Steps

variable {hashes : Set (List UInt8)} {a : Assignment} {c c' : Shift} {os : List (List UInt8)}

theorem Step.kept (h : Step c os c') (hos : ∀ o ∈ os, o ∈ hashes)
    (hdigest : Set.InjOn Sha256.digest hashes) (hc : c.Kept hashes) : c'.Kept hashes := by
  have hp := hc.running
  -- a store whose profiles alone were changed by a call
  have hprofiles : ∀ store : Store, store.unprofiled = c.pipeline.store.unprofiled →
      store.Reachable → Kept hashes ⟨{ c.pipeline with store }, c.courses⟩ := by
    intro store hsame hreachable
    have honline : store.offline = false :=
      (congrArg (fun x => x.2.2) hsame).trans hp.working.online
    exact ⟨⟨⟨hp.working.outages, honline⟩, hp.registry, hp.enabled, hreachable, hp.trusted⟩,
      hc.heeds⟩
  cases h with
  | submitScan scanner input hw =>
    have hnew := hw.heeds hdigest ((Worker.heeds_submitScan scanner input).bind (fun _ => trivial))
    exact ⟨hp, List.forall_mem_cons.2 ⟨hnew, hc.heeds⟩⟩
  | submitObservation method source objects t hw =>
    have hnew := hw.heeds hdigest
      ((Worker.heeds_submitObservation method source objects t).bind (fun _ => trivial))
    exact ⟨hp, List.forall_mem_cons.2 ⟨hnew, hc.heeds⟩⟩
  | @take p queue ws w r hperm hw =>
    have hnew := hw.heeds hdigest (Worker.heeds_runJob r)
    exact ⟨⟨⟨hp.working.outages, hp.working.online⟩, hp.registry, hp.enabled, hp.reachable,
      hp.trusted⟩, List.forall_mem_cons.2 ⟨hnew, hc.heeds⟩⟩
  | @call β p us vs hashed act next =>
    have hall := hc.heeds
    obtain ⟨hcall, hnext⟩ := hall (.call os act next)
      (List.mem_append_right _ List.mem_cons_self) hos p hp
    refine ⟨hcall.running, fun w hw => ?_⟩
    simp only [List.mem_append, List.mem_cons] at hw hall
    rcases hw with hw | rfl | hw
    · exact hall w (.inl hw)
    · exact hnext
    · exact hall w (.inr (.inr hw))
  | @leave p us vs x =>
    refine ⟨hp, fun w hw => hc.heeds w ?_⟩
    simp only [List.mem_append, List.mem_cons] at hw ⊢
    exact hw.imp_right .inr
  | @declare p ws store r l t hcall =>
    exact hprofiles store (Store.unprofiled_of_declare hcall) (.declare hp.reachable hcall)
  | @recalculate p ws store t rs hcall =>
    exact hprofiles store (Store.unprofiled_of_recalculate hcall) (.recalculate hp.reachable hcall)
  | elapse clock =>
    exact ⟨⟨⟨hp.working.outages, hp.working.online⟩, hp.registry, hp.enabled, hp.reachable,
      hp.trusted⟩, hc.heeds⟩

theorem Step.commits (h : Step c os c') (hos : ∀ o ∈ os, o ∈ hashes) (hc : c.Kept hashes) :
    c'.pipeline.store.unprofiled = c.pipeline.store.unprofiled ∨
      ∃ o cs, c.pipeline.store.observe o = .ok (c'.pipeline.store, cs) ∧
        ∀ a : Assignment, a.Sound → (∃ x ∈ cs, a.Commits x) → c'.Attended hashes a := by
  cases h with
  | submitScan | submitObservation | take | leave | elapse => exact .inl rfl
  | declare hcall => exact .inl (Store.unprofiled_of_declare hcall)
  | recalculate hcall => exact .inl (Store.unprofiled_of_recalculate hcall)
  | @call β p us vs hashed act next =>
    obtain ⟨hcall, -⟩ := hc.heeds (.call os act next)
      (List.mem_append_right _ List.mem_cons_self) hos p hc.running
    rcases hcall.store with hsame | ⟨o, cs, hobserve, hbrings⟩
    · exact .inl (congrArg Store.unprofiled hsame)
    · refine .inr ⟨o, cs, hobserve, fun a ha hx => .inr ⟨_, ?_, hbrings a ha hx⟩⟩
      exact List.mem_append_right _ List.mem_cons_self

theorem Step.attended (h : Step c os c') (hos : ∀ o ∈ os, o ∈ hashes)
    (hdigest : Set.InjOn Sha256.digest hashes) (hc : c.Kept hashes) (ha : a.Sound)
    (hstands : a.Stands c.pipeline.store) (hattended : c.Attended hashes a) :
    c'.Attended hashes a := by
  cases h with
  | submitScan | submitObservation =>
    exact hattended.imp_right (fun ⟨w, hw, hbrings⟩ => ⟨w, List.mem_cons_of_mem _ hw, hbrings⟩)
  | elapse clock => exact hattended
  | @take p queue ws w r hperm hw =>
    rcases hattended with (hknown | ⟨r', hr', hconcerns⟩) | ⟨v, hv, hbrings⟩
    · exact .inl (.inl hknown)
    · -- whoever takes the job that is to derive the link brings it
      rcases List.mem_cons.1 (hperm.mem_iff.1 hr') with rfl | hr'
      · exact .inr ⟨w, List.mem_cons_self,
          hw.brings ha hdigest (Worker.brings_runJob hconcerns)⟩
      · exact .inl (.inr ⟨r', hr', hconcerns⟩)
    · exact .inr ⟨v, List.mem_cons_of_mem _ hv, hbrings⟩
  | @call β p us vs hashed act next =>
    obtain ⟨hcall, -⟩ := hc.heeds (.call os act next)
      (List.mem_append_right _ List.mem_cons_self) hos p hc.running
    rcases hattended with (hknown | ⟨r, hr, hconcerns⟩) | ⟨w, hw, hbrings⟩
    · refine .inl (.inl ?_)
      rcases hcall.store with hsame | ⟨o, cs, hobserve, -⟩
      · exact hsame ▸ hknown
      · exact (Store.Call.observe hobserve).known hknown
    · exact .inl (.inr ⟨r, hcall.waiting r hr, hconcerns⟩)
    · simp only [List.mem_append, List.mem_cons] at hw
      rcases hw with hw | rfl | hw
      · exact .inr ⟨w, List.mem_append_left _ hw, hbrings⟩
      · refine (hbrings hos p ⟨hc.running, hstands⟩).imp id (fun hnext => ⟨_, ?_, hnext⟩)
        exact List.mem_append_right _ List.mem_cons_self
      · exact .inr ⟨w, List.mem_append_right _ (List.mem_cons_of_mem _ hw), hbrings⟩
  | @leave p us vs x =>
    rcases hattended with hnoted | ⟨w, hw, hbrings⟩
    · exact .inl hnoted
    · simp only [List.mem_append, List.mem_cons] at hw
      rcases hw with hw | rfl | hw
      · exact .inr ⟨w, List.mem_append_left _ hw, hbrings⟩
      · exact hbrings.elim
      · exact .inr ⟨w, List.mem_append_right _ hw, hbrings⟩
  | @declare p ws store r l t hcall =>
    refine hattended.imp_left (fun hnoted => hnoted.imp_left (fun hknown => ?_))
    exact (Store.Call.declare hcall).known hknown
  | @recalculate p ws store t rs hcall =>
    refine hattended.imp_left (fun hnoted => hnoted.imp_left (fun hknown => ?_))
    exact (Store.Call.recalculate hcall).known hknown

end Steps

/-! ## Runs -/

/-- Everybody heeds the records; the record has a version that begins at its time, its host is
visible then, and if the record stands, it is attended to. -/
structure Minds (hashes : Set (List UInt8)) (a : Assignment) (c : Shift) : Prop where
  kept : c.Kept hashes
  pinned : c.pipeline.store.Pinned a.record a.time
  host : c.pipeline.store.Known a.time a.host
  attended : c.pipeline.store.visible? a.record a.time = some a.entity → c.Attended hashes a

section Runs

variable {hashes : Set (List UInt8)} {a : Assignment} {c c' : Shift} {os : List (List UInt8)}

theorem Runs.kept (h : Runs c os c') (hos : ∀ o ∈ os, o ∈ hashes)
    (hdigest : Set.InjOn Sha256.digest hashes) (hc : c.Kept hashes) : c'.Kept hashes := by
  induction h with
  | refl => exact hc
  | tail _ hstep ih =>
    obtain ⟨hbefore, hlast⟩ := List.forall_mem_append.1 hos
    exact hstep.kept hlast hdigest (ih hbefore)

theorem Step.minds (h : Step c os c') (hos : ∀ o ∈ os, o ∈ hashes)
    (hdigest : Set.InjOn Sha256.digest hashes) (hc : c.Kept hashes) (ha : a.Sound)
    {o : Observation} {cs : List Commit}
    (hobserve : c.pipeline.store.observe o = .ok (c'.pipeline.store, cs)) {x : Commit}
    (hx : x ∈ cs) (hcommit : a.Commits x) (hhost : c'.pipeline.store.Known a.time a.host) :
    c'.Minds hashes a := by
  obtain ⟨-, -, hdone⟩ := Store.observe_eq_ok_iff.1 hobserve
  have hstore : (c.pipeline.store.commit o).1 = c'.pipeline.store := congrArg Prod.fst hdone
  have hcs : (c.pipeline.store.commit o).2 = cs := congrArg Prod.snd hdone
  obtain ⟨hreference, htime⟩ := hcommit
  refine ⟨h.kept hos hdigest hc, ?_, hhost, fun _ => ?_⟩
  · rw [← hstore, ← hreference, ← htime]
    exact Store.pinned_of_mem_commit (hcs ▸ hx)
  · rcases h.commits hos hc with hsame | ⟨o', cs', hobserve', hall⟩
    · exact absurd (congrArg (fun y => y.2.1) hsame) (Store.observe_ne_self hobserve)
    · obtain rfl := Store.observe_unique hobserve hobserve'
      exact hall a ha ⟨x, hx, hreference, htime⟩

/-- Every step keeps it so: a change of the record is a commit of it. -/
theorem Step.minds_of_minds (h : Step c os c') (hos : ∀ o ∈ os, o ∈ hashes)
    (hdigest : Set.InjOn Sha256.digest hashes) (ha : a.Sound) (hc : c.Minds hashes a) :
    c'.Minds hashes a := by
  have hkept := h.kept hos hdigest hc.kept
  rcases h.commits hos hc.kept with hsame | ⟨o, cs, hobserve, hall⟩
  · have hversions : c'.pipeline.store.versions = c.pipeline.store.versions :=
      congrArg (fun y => y.1) hsame
    refine ⟨hkept, hc.pinned.congr hversions, hc.host.congr hversions, fun hvisible => ?_⟩
    have hbefore : c.pipeline.store.visible? a.record a.time = some a.entity := by
      rw [← hvisible]
      unfold Store.visible?
      rw [hversions]
    exact h.attended hos hdigest hc.kept ha ⟨hbefore, hc.host⟩ (hc.attended hbefore)
  · have hcall : c.pipeline.store.Call c'.pipeline.store := .observe hobserve
    refine ⟨hkept, hcall.pinned hc.pinned, hcall.known hc.host, fun hvisible => ?_⟩
    by_cases hbefore : c.pipeline.store.visible? a.record a.time = some a.entity
    · exact h.attended hos hdigest hc.kept ha ⟨hbefore, hc.host⟩ (hc.attended hbefore)
    · obtain ⟨-, -, hdone⟩ := Store.observe_eq_ok_iff.1 hobserve
      have hstore : (c.pipeline.store.commit o).1 = c'.pipeline.store := congrArg Prod.fst hdone
      have hcs : (c.pipeline.store.commit o).2 = cs := congrArg Prod.snd hdone
      have hne : (c.pipeline.store.commit o).1.visible? a.record a.time
          ≠ c.pipeline.store.visible? a.record a.time := by
        rw [hstore, hvisible]
        exact fun heq => hbefore heq.symm
      obtain ⟨x, hx, hcommit⟩ := Store.exists_mem_commit_of_visible?_ne hc.pinned
        hc.kept.running.reachable.ordered hne
      exact hall a ha ⟨x, hcs ▸ hx, hcommit⟩

theorem Runs.minds (h : Runs c os c') (hos : ∀ o ∈ os, o ∈ hashes)
    (hdigest : Set.InjOn Sha256.digest hashes) (ha : a.Sound) (hc : c.Minds hashes a) :
    c'.Minds hashes a := by
  induction h with
  | refl => exact hc
  | tail _ hstep ih =>
    obtain ⟨hbefore, hlast⟩ := List.forall_mem_append.1 hos
    exact hstep.minds_of_minds hlast hdigest ha (ih hbefore)

/-- Where nobody is at work and no job waits, a record that stands has its link. -/
theorem Minds.resolved (h : c.Minds hashes a) (hidle : c.courses = [])
    (hwaiting : c.pipeline.queue.waiting = [])
    (hstands : c.pipeline.store.visible? a.record a.time = some a.entity) :
    c.pipeline.store.Known a.time a.link.reference := by
  rcases h.attended hstands with (hknown | ⟨r, hr, -⟩) | ⟨w, hw, -⟩
  · exact hknown
  · rw [hwaiting] at hr
    exact absurd hr List.not_mem_nil
  · rw [hidle] at hw
    exact absurd hw List.not_mem_nil

end Runs

/-- An address record is committed in a step while its host is visible, with the plugins at hand and
nothing in the cache to begin with.  Whoever submits and works in whatever order, and whatever is
committed later: once nobody is at work and no job waits, the link from the host to the address is
visible, if the record is still the one that was committed and no two texts that were hashed on the
way have one digest. -/
theorem resolved_of_idle {p : Pipeline} (hworking : p.Working) (hplugins : AtHand p.registry)
    (henabled : p.policy.derivation.isEnabled dnsResolving true = true)
    (hreachable : p.store.Reachable) (hmemory : p.memory = .empty) {c c' d : Shift}
    {os os' os'' : List (List UInt8)} (hruns : Runs ⟨p, []⟩ os c) (hstep : Step c os' c')
    (hrest : Runs c' os'' d) (hdigest : Set.InjOn Sha256.digest { o | o ∈ os ++ os' ++ os'' })
    {o : Observation} {cs : List Commit}
    (hobserve : c.pipeline.store.observe o = .ok (c'.pipeline.store, cs)) {x : Commit} (hx : x ∈ cs)
    {host address : Reference} {value : String} {ttl : Option UInt32} {e : Entity}
    (hrecord : e = .dnsA host value address ttl ∨ e = .dnsAAAA host value address ttl)
    (hvisible : c'.pipeline.store.visible? x.reference x.validTime = some e)
    {network : Reference} {name : String}
    (hhost : c'.pipeline.store.visible? host x.validTime = some (.hostname network name))
    (hidle : d.courses = []) (hwaiting : d.pipeline.queue.waiting = [])
    (hstands : d.pipeline.store.visible? x.reference x.validTime = some e) :
    d.pipeline.store.Known x.validTime (Entity.resolvedHostname host address).reference := by
  let hashes : Set (List UInt8) := { o | o ∈ os ++ os' ++ os'' }
  have hstart : Kept hashes ⟨p, []⟩ := by
    have htrusted : p.memory.cache.Trusted hashes := hmemory ▸ Cache.trusted_empty hashes
    exact ⟨⟨hworking, hplugins, henabled, hreachable, htrusted⟩,
      fun w hw => absurd hw List.not_mem_nil⟩
  have hbefore : ∀ o ∈ os, o ∈ hashes :=
    fun o ho => List.mem_append_left _ (List.mem_append_left _ ho)
  have hnow : ∀ o ∈ os', o ∈ hashes :=
    fun o ho => List.mem_append_left _ (List.mem_append_right _ ho)
  have hkept : c.Kept hashes := hruns.kept hbefore hdigest hstart
  have hformed : c'.pipeline.store.WellFormed :=
    (hstep.kept hnow hdigest hkept).running.reachable.wellFormed
  let a : Assignment := ⟨x.reference, x.validTime, e, host, address⟩
  have ha : a.Sound := by
    refine ⟨hformed.reference_of_visible? hvisible, ?_, ?_,
      (hformed.type_of_visible? hhost).symm⟩ <;>
    · rcases hrecord with rfl | rfl <;> rfl
  have hminds : c'.Minds hashes a :=
    hstep.minds hnow hdigest hkept ha hobserve hx ⟨rfl, rfl⟩ ⟨_, hhost⟩
  exact (hrest.minds (fun o ho => List.mem_append_right _ ho) hdigest ha hminds).resolved hidle
    hwaiting hstands

namespace Found

def network : Entity :=
  .network "internet"

def host : Entity :=
  .hostname network.reference "a.example"

def address : Entity :=
  .ipv4 network.reference ⟨127, 0, 0, 1⟩

/-- The record by which the host has the address. -/
def record : Entity :=
  .dnsA host.reference "127.0.0.1" address.reference none

def link : Entity :=
  .resolvedHostname host.reference address.reference

/-- A pipeline with the plugins at hand and no names to look up, whose store holds the host and the
address. -/
def start : Pipeline :=
  { ofStore (Store.holding [network, host, address] (.ofSecond 100)) with
    registry := plugins (fun _ => .error .unknownName) }

def observation : Observation :=
  ⟨"manual", host.reference, none, .ofSecond 100, [.ofEntity record]⟩

/-- What the caller does who declares it. -/
def submission : Course Unit :=
  (discard (Worker.submitObservation observation.method observation.source observation.result
    observation.validTime)).spell

def submitted : Pipeline :=
  (submission.run start).2

theorem waits : (submitted.dequeue .derive).2.isSome = true := by
  decide +kernel

/-- The job that derives the link, and the pipeline after it was run. -/
def linking : Request × Pipeline :=
  let r := (submitted.dequeue .derive).2.get waits
  (r, ((submitted.dequeue .derive).1.runJob r).1)

theorem waits_link : (linking.2.dequeue .derive).2.isSome = true := by
  decide +kernel

/-- The job for the commit of the link, and the pipeline after it was run. -/
def linked : Request × Pipeline :=
  let r := (linking.2.dequeue .derive).2.get waits_link
  (r, ((linking.2.dequeue .derive).1.runJob r).1)

def hashed : List (List UInt8) :=
  submission.hashes start ++ (Worker.runJob linking.1).spell.hashes (submitted.dequeue .derive).1
    ++ (Worker.runJob linked.1).spell.hashes (linking.2.dequeue .derive).1

theorem runs_rest {rest : Course Unit} {p : Pipeline} (hrun : rest.run p = submission.run start)
    (hhashes : rest.hashes p = submission.hashes start) :
    Runs ⟨p, [rest]⟩ hashed ⟨linked.2, []⟩ := by
  have hsubmit := runs_course rest p []
  rw [hrun, hhashes] at hsubmit
  have hlink : Runs ⟨submitted, []⟩ _ ⟨linking.2, []⟩ :=
    runs_round (r := linking.1) (Prod.ext rfl (Option.some_get waits).symm)
  have hlast : Runs ⟨linking.2, []⟩ _ ⟨linked.2, []⟩ :=
    runs_round (r := linked.1) (Prod.ext rfl (Option.some_get waits_link).symm)
  exact (hsubmit.trans hlink).trans hlast

theorem resolved_of_idle_found :
    ∃ (c c' : Shift) (cs : List Commit), Runs ⟨start, []⟩ [] c ∧ Step c [] c' ∧
      c.pipeline.store.observe observation = .ok (c'.pipeline.store, cs) ∧
      cs.map Commit.reference = [record.reference] ∧ Runs c' hashed ⟨linked.2, []⟩ ∧
      linked.2.queue.waiting = [] ∧ linked.2.store.Known (.ofSecond 100) link.reference := by
  have hworking : start.Working := ⟨rfl, Store.online_holding _ _⟩
  have hsource : (start.store.visible? host.reference (.ofSecond 100)).isSome = true := by
    decide +kernel
  have hobserved := hworking.observed (o := observation) hsource
  obtain ⟨rest, hstep, hrun, hhashes⟩ : ∃ rest : Course Unit,
      Step ⟨start, [submission]⟩ [] ⟨(observe observation start).2, [rest]⟩ ∧
        rest.run (observe observation start).2 = submission.run start ∧
        rest.hashes (observe observation start).2 = submission.hashes start :=
    ⟨_, step_first, rfl, rfl⟩
  have hruns : Runs ⟨start, []⟩ [] ⟨start, [submission]⟩ :=
    .single (.submitObservation _ _ _ _ (Routine.spells_spell _))
  have hrest := runs_rest hrun hhashes
  rw [observe_of_ok hobserved] at hstep hrest
  have hobserve := observe_store_of_observed hobserved
  have hcs : (start.store.commit observation).2 = [.of .created record.reference (.ofSecond 100)] := by
    decide +kernel
  have hlength : hashed.length = 1 := by
    decide +kernel
  have hdigest : Set.InjOn Sha256.digest { o | o ∈ [] ++ [] ++ hashed } := by
    obtain ⟨o, ho⟩ := List.length_eq_one_iff.1 hlength
    rw [ho]
    intro x hx y hy _
    exact (List.mem_singleton.1 hx).trans (List.mem_singleton.1 hy).symm
  have hrecord : (start.store.commit observation).1.visible? record.reference (.ofSecond 100)
      = some record := by
    decide +kernel
  have hhost : (start.store.commit observation).1.visible? host.reference (.ofSecond 100)
      = some host := by
    decide +kernel
  have hwaiting : linked.2.queue.waiting = [] := by
    decide +kernel
  have hstands : linked.2.store.visible? record.reference (.ofSecond 100) = some record := by
    decide +kernel
  refine ⟨_, _, _, hruns, hstep, hobserve, congrArg (List.map Commit.reference) hcs, hrest,
    hwaiting, ?_⟩
  exact resolved_of_idle hworking (atHand_plugins _) rfl (Store.reachable_holding _ _) rfl hruns hstep
    hrest hdigest hobserve (hcs ▸ List.mem_singleton_self _) (.inl rfl) hrecord hhost rfl hwaiting
    hstands

end Found

end Shift

end ScanGraph
