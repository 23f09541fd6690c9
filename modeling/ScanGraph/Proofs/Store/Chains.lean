/-
What a walk returns.

A walk is worked off level by level: every step replaces the references reached so
far by those that it leads to, and drops the repetitions.  What it returns can be
said without that order of work.  It is what stands at the ends of the chains along
the path: references visible at the time of the walk, each joined to the next by a
field of one of the two.  Every object is returned once, in order of the references,
however many chains lead to it: `follow_chains`.

The two directions are not mirror images.  An incoming step asks for the type of the
holder of the field, whereas an outgoing step takes the field from whatever object
has it, and asks for no type at either end.

## What is asked, and what is not

The store is reachable and the path may be any list of steps, parsed, reversed or put
together otherwise.  So is the filter, and the root need not be visible, in which case
nothing is found.  While the store is offline the call fails.

What is returned is what `Store.read?` shows of each object, so that levels and times
are those of the moment.  Which edges let clearance through is no matter of walks, but
of those who show what they find.
-/
import ScanGraph.Proofs.Store.Backward
import ScanGraph.Proofs.Store.Lasting

namespace ScanGraph

namespace Store

/-! ## Chains -/

/-- A field of the object visible at `t` under a reference holds another reference. -/
def Points (s : Store) (t : Instant) (holder : Reference) (field : String)
    (target : Reference) : Prop :=
  ∃ e, s.visible? holder t = some e ∧ (field, target) ∈ e.relations

/-- A step joins two references, by a field of the object that it starts from or of the one that it
leads to. -/
inductive Joins (s : Store) (t : Instant) (step : Step) (a b : Reference) : Prop
  | outgoing : step.direction = .outgoing → s.Points t a step.relation.name b → Joins s t step a b
  | incoming : step.direction = .incoming → s.Shows t b step.far →
      s.Points t b step.relation.name a → Joins s t step a b

/-- References visible at `t`, each joined to the next by the next step, lead from one reference to
another. -/
inductive Chain (s : Store) (t : Instant) : Reference → List Step → Reference → Prop
  | stop {a : Reference} : s.Known t a → Chain s t a [] a
  | step {a b c : Reference} {step : Step} {rest : List Step} :
      s.Known t a → s.Joins t step a b → Chain s t b rest c → Chain s t a (step :: rest) c

section Chains

variable {s : Store} {t : Instant} {a b : Reference} {step : Step} {steps : List Step}

theorem Chain.known_start (h : s.Chain t a steps b) : s.Known t a := by
  cases h with
  | stop ha => exact ha
  | step ha _ _ => exact ha

theorem points_iff {field : String} :
    s.Points t a field b ↔ ∃ e, s.visible? a t = some e ∧ e.relation? field = some b := by
  unfold Points
  simp only [Entity.mem_relations_iff]

/-- A step from a visible reference leads to the visible references that it joins to it. -/
theorem WellFormed.mem_stepFrom_iff (hs : s.WellFormed) :
    b ∈ s.stepFrom t step a ↔ s.Joins t step a b ∧ s.Known t b := by
  cases hdirection : step.direction with
  | outgoing =>
    rw [mem_stepFrom_outgoing hdirection]
    constructor
    · rintro ⟨e, he, hfield, hknown⟩
      exact ⟨.outgoing hdirection (points_iff.2 ⟨e, he, hfield⟩), hknown⟩
    · rintro ⟨hjoins, hknown⟩
      cases hjoins with
      | outgoing _ hpoints =>
        obtain ⟨e, he, hfield⟩ := points_iff.1 hpoints
        exact ⟨e, he, hfield, hknown⟩
      | incoming hother => rw [hdirection] at hother; cases hother
  | incoming =>
    rw [hs.mem_stepFrom_incoming hdirection]
    constructor
    · rintro ⟨e, he, htype, hfield⟩
      exact ⟨.incoming hdirection ⟨e, he, htype⟩ (points_iff.2 ⟨e, he, hfield⟩), e, he⟩
    · rintro ⟨hjoins, -⟩
      cases hjoins with
      | outgoing hother => rw [hdirection] at hother; cases hother
      | incoming _ hshows hpoints =>
        obtain ⟨e, he, htype⟩ := hshows
        obtain ⟨e', he', hfield⟩ := points_iff.1 hpoints
        obtain rfl : e = e' := Option.some.inj (he.symm.trans he')
        exact ⟨e, he, htype, hfield⟩

/-- From a visible reference, the steps that the store takes are the links of a chain. -/
theorem WellFormed.walks_iff_chain (hs : s.WellFormed) (ha : s.Known t a) :
    s.Walks t a steps b ↔ s.Chain t a steps b := by
  induction steps generalizing a with
  | nil =>
    constructor
    · rintro rfl
      exact .stop ha
    · intro h
      cases h
      rfl
  | cons step steps ih =>
    constructor
    · rintro ⟨m, hm, hwalk⟩
      obtain ⟨hjoins, hknown⟩ := hs.mem_stepFrom_iff.1 hm
      exact .step ha hjoins ((ih hknown).1 hwalk)
    · intro h
      cases h with
      | step _ hjoins hrest =>
        exact ⟨_, hs.mem_stepFrom_iff.2 ⟨hjoins, hrest.known_start⟩,
          (ih hrest.known_start).2 hrest⟩

/-- What a walk returns are the objects of the type at the ends of chains, as they are read. -/
theorem WellFormed.mem_walk_iff_chain (hs : s.WellFormed) {root : Reference} {path : Path}
    {type : ObjectType} {o : Snapshot} :
    o ∈ s.walk root path type t ↔ s.read? o.reference t = some o ∧ o.type.isA type = true ∧
      s.Chain t root path.steps o.reference := by
  rw [mem_walk_iff]
  constructor
  · rintro ⟨hroot, b, e, hwalk, he, htype, rfl⟩
    have hb : (s.snapshot t b e).reference = b := hs.reference_of_visible? he
    have hread : s.read? b t = some (s.snapshot t b e) := by simp [read?, he]
    rw [hb]
    exact ⟨hread, htype, (hs.walks_iff_chain hroot).1 hwalk⟩
  · rintro ⟨hread, htype, hchain⟩
    obtain ⟨e, he, ho⟩ := Option.map_eq_some_iff.1 hread
    have htype' : e.type.isA type = true := by
      rw [← ho] at htype
      exact htype
    exact ⟨hchain.known_start, o.reference, e,
      (hs.walks_iff_chain hchain.known_start).2 hchain, he, htype', ho.symm⟩

end Chains

/-- A walk along a path returns, in strictly ascending order of their references, the objects of the
type at the ends of all chains along the path, and nothing from a root that is not visible. -/
theorem follow_chains {s : Store} (hs : s.Reachable) (root : Reference) (path : Path)
    (type : ObjectType) (t : Instant) :
    ∃ found, s.follow root path type t = s.guarded (.ok found) ∧
      found.Pairwise (fun a b => a.reference < b.reference) ∧
      (∀ o, o ∈ found ↔ s.read? o.reference t = some o ∧ o.type.isA type = true ∧
        s.Chain t root path.steps o.reference) ∧
      (s.visible? root t = none → found = []) := by
  refine ⟨s.walk root path type t, rfl, hs.wellFormed.pairwise_walk root path type,
    fun o => hs.wellFormed.mem_walk_iff_chain, ?_⟩
  intro hroot
  unfold walk
  simp [hroot]

/-! ## Two records of one address -/

namespace Shared

def network : Entity :=
  .network "internet"

def host : Entity :=
  .hostname network.reference "localhost"

def address (last : UInt8) : Entity :=
  .ipv4 network.reference ⟨127, 0, 0, last⟩

/-- The host has an address record that shows some text. -/
def record (text : String) (target : Entity) : Entity :=
  .dnsA host.reference text target.reference none

/-- The store of a host with two records of one address, and a third one of an address that is not
stored. -/
def store : Store :=
  holding [network, host, address 1, record "127.0.0.1" (address 1), record "127.1" (address 1),
    record "127.0.0.2" (address 2)] default

/-- From a host to its address records. -/
def records : Step :=
  ⟨.incoming, ⟨.dnsRecord, "hostname", .hostname, some .l0, some .l2⟩, .hostname, .dnsA⟩

/-- From an address record to its address. -/
def target : Step :=
  ⟨.outgoing, ⟨.dnsA, "address", .ipv4, none, none⟩, .dnsA, .ipv4⟩

/-- From a host to the addresses of its records. -/
def path : Path :=
  ⟨.hostname, [records, target]⟩

def text : String :=
  "Hostname.<hostname[is DNSARecord].address"

/-- The address that both records name is found by way of the first of them. -/
theorem chain_address : store.Chain default host.reference path.steps (address 1).reference := by
  have hhost : store.visible? host.reference default = some host := by decide +kernel
  have hrecord : store.visible? (record "127.0.0.1" (address 1)).reference default
      = some (record "127.0.0.1" (address 1)) := by decide +kernel
  have haddress : store.visible? (address 1).reference default = some (address 1) := by
    decide +kernel
  have hrecords : store.Joins default records host.reference
      (record "127.0.0.1" (address 1)).reference :=
    .incoming rfl ⟨_, hrecord, by decide⟩ ⟨_, hrecord, by decide⟩
  have htarget : store.Joins default target (record "127.0.0.1" (address 1)).reference
      (address 1).reference :=
    .outgoing rfl ⟨_, hrecord, by decide⟩
  exact .step ⟨_, hhost⟩ hrecords (.step ⟨_, hrecord⟩ htarget (.stop ⟨_, haddress⟩))

/-- The address of two records is found once, and the one that is not stored is not. -/
theorem follow_chains_shared : store.Reachable ∧ (Path.parse text).toOption = some path ∧
    ∃ found, store.follow host.reference path .ipAddress default = store.guarded (.ok found) ∧
      found.Pairwise (fun a b => a.reference < b.reference) ∧
      (∃ o ∈ found, o.entity = address 1) ∧ ∀ o ∈ found, o.entity ≠ address 2 := by
  have hreachable : store.Reachable := reachable_holding _ _
  obtain ⟨found, hfollow, hsorted, hmem, -⟩ :=
    follow_chains hreachable host.reference path .ipAddress default
  refine ⟨hreachable, by decide +kernel, found, hfollow, hsorted, ?_, ?_⟩
  · have hread : store.read? (address 1).reference default
        = some (store.snapshot default (address 1).reference (address 1)) := by decide +kernel
    exact ⟨_, (hmem (store.snapshot default (address 1).reference (address 1))).2
      ⟨hread, by decide, chain_address⟩, rfl⟩
  · intro o ho hentity
    obtain ⟨hread, -, -⟩ := (hmem o).1 ho
    have hreference : o.reference = (address 2).reference := congrArg Entity.reference hentity
    have hnone : store.read? (address 2).reference default = none := by decide +kernel
    rw [hreference, hnone] at hread
    cases hread

end Shared

end Store

end ScanGraph
