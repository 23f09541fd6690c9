/-
Ceilings on propagated clearance by type.

Clearance enters a reference by an edge, and an edge comes from a field: the
holder issues to the target of the field, or inherits from it.  Where fields
point at what the schema says, the type of a reference therefore decides which
bounds its edges can have, and the last edge of a walk limits what the walk
brings, whatever the graph and the seeds are.  Main statement:
`propagate_below_ceilings`.

## What is proved

For every list of objects whose fields point at what the schema says, for any seeds and
any reference that is no seed: at most L1 reaches a hostname, at most L2 a DNS record,
and nothing at all a network, a finding, a configuration or a type of findings.

`exists_bound_of_propagate` is the statement for every type at once, with the bounds
that the schema gives for it (`boundsInto`); the ceilings are its cases.  They follow
from the table of fields, so that a change of that table shows here and nowhere else.

## What is asked

That fields point at what the schema says (`Entity.Typed`).  An object whose field
points elsewhere can lead an edge into a type which the schema has none into.  Seeds are
left out, as they keep the level that they were declared with, whatever that is.
-/
import ScanGraph.Proofs.Clearance.Propagation
import ScanGraph.Proofs.Store.Walk

namespace ScanGraph

/-! ## Bounds of a type -/

namespace Relation

/-- The bounds of the edges into a reference of a type: what it may be issued as the target of a
field, and what it may inherit as the holder of one. -/
def boundsInto (t : ObjectType) : List Level :=
  schema.flatMap (fun r =>
    (if t.isA r.target then r.issueBound.toList else [])
      ++ (if t.isA r.source then r.inheritBound.toList else []))

variable {r : Relation} {t : ObjectType} {b : Level}

theorem mem_boundsInto_of_target (hr : r ∈ schema) (ht : t.isA r.target = true)
    (hb : r.issueBound = some b) : b ∈ boundsInto t :=
  List.mem_flatMap.2 ⟨r, hr, List.mem_append_left _ (by simp [ht, hb])⟩

theorem mem_boundsInto_of_source (hr : r ∈ schema) (ht : t.isA r.source = true)
    (hb : r.inheritBound = some b) : b ∈ boundsInto t :=
  List.mem_flatMap.2 ⟨r, hr, List.mem_append_right _ (by simp [ht, hb])⟩

theorem boundsInto_hostname : ∀ b ∈ boundsInto .hostname, b ≤ .l1 := by
  decide

theorem boundsInto_dnsRecord (ht : t.isA .dnsRecord = true) : ∀ b ∈ boundsInto t, b ≤ .l2 := by
  revert ht
  cases t <;> decide

/-- Clearance never enters networks, findings, their types and configurations. -/
theorem boundsInto_eq_nil
    (ht : t = .network ∨ t = .finding ∨ t = .config ∨ t.isA .findingType = true) :
    boundsInto t = [] := by
  revert ht
  cases t <;> decide

end Relation

namespace ClearanceGraph

/-! ## Edges from fields that follow the schema -/

section Edges

variable {e : Entity} {d : Edge}

theorem mem_edgesOf_iff {holder target : Reference} {r : Relation} :
    d ∈ edgesOf holder target r ↔
      (∃ b, r.issueBound = some b ∧ d = ⟨holder, target, b⟩) ∨
      (∃ b, r.inheritBound = some b ∧ d = ⟨target, holder, b⟩) := by
  unfold edgesOf
  cases r.issueBound <;> cases r.inheritBound <;> simp

/-- Every edge of an entity comes from a field that the schema has for its type. -/
theorem exists_relation_of_mem_entityEdges (hd : d ∈ entityEdges e) :
    ∃ r ∈ Relation.schema, e.type.isA r.source = true ∧
      ∃ target, e.relation? r.name = some target ∧ d ∈ edgesOf e.reference target r := by
  obtain ⟨⟨name, target⟩, hrelation, hd⟩ := List.mem_flatMap.1 hd
  dsimp only at hd
  split at hd
  · rename_i r hfind
    have hnamed := List.find?_some hfind
    rw [Bool.and_eq_true, beq_iff_eq] at hnamed
    obtain ⟨rfl, hsource⟩ := hnamed
    exact ⟨r, List.mem_of_find?_eq_some hfind, hsource, target,
      Entity.mem_relations_iff.1 hrelation, hd⟩
  · exact absurd hd List.not_mem_nil

theorem bound_mem_boundsInto (htyped : e.Typed) (hd : d ∈ entityEdges e) :
    d.bound ∈ Relation.boundsInto d.target.type := by
  obtain ⟨r, hr, hsource, target, htarget, hd⟩ := exists_relation_of_mem_entityEdges hd
  rcases mem_edgesOf_iff.1 hd with ⟨b, hb, rfl⟩ | ⟨b, hb, rfl⟩
  · exact Relation.mem_boundsInto_of_target hr (htyped r hr hsource target htarget) hb
  · exact Relation.mem_boundsInto_of_source hr (e.reference_type ▸ hsource) hb

end Edges

/-! ## The last edge of a walk -/

section Walks

variable {g : ClearanceGraph} {seeds : Levels} {n : Reference} {c l : Level}

theorem IsWalk.exists_last_edge {r : Reference} {walk : List Edge}
    (h : g.IsWalk seeds r walk n) (hne : walk ≠ []) :
    ∃ d ∈ walk, d ∈ g.edges ∧ d.target = n := by
  induction walk generalizing r with
  | nil => exact absurd rfl hne
  | cons d walk ih =>
    obtain ⟨hd, -, -, hwalk⟩ := h
    cases walk with
    | nil => exact ⟨d, List.mem_cons_self, hd, hwalk⟩
    | cons d' rest =>
      obtain ⟨last, hmem, hlast⟩ := ih hwalk (List.cons_ne_nil d' rest)
      exact ⟨last, List.mem_cons_of_mem _ hmem, hlast⟩

theorem Arrives.exists_edge (h : g.Arrives seeds n c) :
    ∃ d ∈ g.edges, d.target = n ∧ c ≤ d.bound := by
  obtain ⟨s, m, walk, -, hne, hwalk, hcarried⟩ := h
  obtain ⟨d, hmem, hd, htarget⟩ := hwalk.exists_last_edge hne
  exact ⟨d, hd, htarget, (le_carried_iff.1 (Level.le_of_eq hcarried.symm)).2 d hmem⟩

/-- Propagation gives a reference that is no seed at most what the schema lets into its type. -/
theorem exists_bound_of_propagate {es : List Entity} (htyped : ∀ e ∈ es, e.Typed)
    (hn : seeds.get? n = none) (hl : ((ofEntities es).propagate seeds).get? n = some l) :
    ∃ b ∈ Relation.boundsInto n.type, l ≤ b := by
  obtain ⟨-, harrives, -⟩ := ((assigns_propagate _ seeds).get?_eq_some_iff hn).1 hl
  obtain ⟨d, hd, rfl, hld⟩ := harrives.exists_edge
  obtain ⟨e, he, hd⟩ := List.mem_flatMap.1 hd
  exact ⟨d.bound, bound_mem_boundsInto (htyped e he) hd, hld⟩

end Walks

/-- Whatever the objects, with fields that point at what the schema says, and whatever the seeds:
propagation gives a reference that is no seed at most L1 if it is a hostname, at most L2 if it is a
DNS record, and nothing if it is a network, a finding, a configuration or a type of findings. -/
theorem propagate_below_ceilings (es : List Entity) (htyped : ∀ e ∈ es, e.Typed) (seeds : Levels)
    (n : Reference) (hn : seeds.get? n = none) :
    (n.type = .hostname → ∀ l, ((ofEntities es).propagate seeds).get? n = some l → l ≤ .l1) ∧
    (n.type.isA .dnsRecord = true →
      ∀ l, ((ofEntities es).propagate seeds).get? n = some l → l ≤ .l2) ∧
    (n.type = .network ∨ n.type = .finding ∨ n.type = .config ∨
        n.type.isA .findingType = true →
      ((ofEntities es).propagate seeds).get? n = none) := by
  refine ⟨fun htype l hl => ?_, fun htype l hl => ?_, fun htype => ?_⟩
  · obtain ⟨b, hb, hlb⟩ := exists_bound_of_propagate htyped hn hl
    exact Level.le_trans hlb (Relation.boundsInto_hostname b (htype ▸ hb))
  · obtain ⟨b, hb, hlb⟩ := exists_bound_of_propagate htyped hn hl
    exact Level.le_trans hlb (Relation.boundsInto_dnsRecord htype b hb)
  · cases hl : ((ofEntities es).propagate seeds).get? n with
    | none => rfl
    | some l =>
      obtain ⟨b, hb, -⟩ := exists_bound_of_propagate htyped hn hl
      rw [Relation.boundsInto_eq_nil htype] at hb
      exact absurd hb List.not_mem_nil

/-! ## A delegation

From a domain at the highest level, its record and the name server that this names get their
ceilings. -/

namespace Delegation

def network : Entity :=
  .network "internet"

def host (name : String) : Entity :=
  .hostname network.reference name

/-- The record by which the domain names its name server. -/
def record : Entity :=
  .dnsNS (host "example.org").reference "ns.example.net" (host "ns.example.net").reference none

/-- The domain, its name server and the record. -/
def objects : List Entity :=
  [network, host "example.org", host "ns.example.net", record]

def seeds : Levels :=
  Table.empty.insert (host "example.org").reference .l4

/-- What the domain gives to the others. -/
def assigned : Levels :=
  (ofEntities objects).propagate seeds

theorem typed_objects : ∀ e ∈ objects, e.Typed := by
  decide +kernel

theorem propagate_below_ceilings_delegation :
    (∀ e ∈ objects, e.Typed) ∧
    assigned.get? record.reference = some .l2 ∧
    assigned.get? (host "ns.example.net").reference = some .l1 ∧
    (∀ l, assigned.get? record.reference = some l → l ≤ .l2) ∧
    (∀ l, assigned.get? (host "ns.example.net").reference = some l → l ≤ .l1) ∧
    assigned.get? network.reference = none := by
  have hrecord := propagate_below_ceilings objects typed_objects seeds record.reference
    (by decide +kernel)
  have hserver := propagate_below_ceilings objects typed_objects seeds
    (host "ns.example.net").reference (by decide +kernel)
  have hnetwork := propagate_below_ceilings objects typed_objects seeds network.reference
    (by decide +kernel)
  exact ⟨typed_objects, by decide +kernel, by decide +kernel,
    hrecord.2.1 rfl, hserver.1 rfl, hnetwork.2.2 (.inl rfl)⟩

end Delegation

end ClearanceGraph

end ScanGraph
