/-
Surveys: what the store holds while the addresses of a host are looked up.

First there is the host with a declared level, then also an address and a record
for each address found, and at last a link from the host to each address.  The
records and the links get their clearance from the host alone, and what is
committed a second time changes nothing.

`Survey` carries what a survey is about, and `Sound` what must hold of it: the host is
on a network, it was there when it was scanned, and every address was found once.  From
these all objects are computed, with their levels, so that later modules compare stores
with `before` and `after` instead of following single objects.

`holds_before` and `holds_after` say that a store with the first list holds the next one
after the observation in question, and `holds_after_again` that observing the links once
more changes nothing.  The levels of records and links follow from the level of the host
and the bounds of the fields by which they point at it (`level_recordOf`,
`level_linkOf`).  Which level an address gets is not stated, as nothing depends on it.
-/
import ScanGraph.Normalizing
import ScanGraph.Proofs.Clearance.Ceiling
import ScanGraph.Proofs.Clearance.Recalculation
import ScanGraph.Proofs.Dns.Objects
import ScanGraph.Proofs.Store.Contents

namespace ScanGraph

/-! ## Implied profiles -/

/-- What a source implies does not depend on the order of the objects. -/
theorem Snapshot.imply_perm (source : Snapshot) {os os' : List Snapshot} (h : os.Perm os') :
    (source.imply os).Perm (source.imply os') := by
  have hedges : ∀ d,
      d ∈ (ClearanceGraph.ofEntities (source.entity :: os.map Snapshot.entity)).edges ↔
        d ∈ (ClearanceGraph.ofEntities (source.entity :: os'.map Snapshot.entity)).edges :=
    fun d => (((h.map Snapshot.entity).cons source.entity).flatMap_right _).mem_iff
  have hlevels : ∀ r, (source.impliedLevels os).get? r = (source.impliedLevels os').get? r :=
    (ClearanceGraph.assigns_propagate _ _).get?_congr (ClearanceGraph.assigns_propagate _ _) hedges
      (fun _ => rfl)
  have himplied : ∀ r, ClearanceGraph.implied (source.impliedLevels os) r
      = ClearanceGraph.implied (source.impliedLevels os') r := by
    intro r
    unfold ClearanceGraph.implied
    rw [hlevels]
  rw [imply_eq, imply_eq]
  simp only [himplied]
  exact h.map _

/-- A survey of the addresses of a host: the host and its level, when that was declared and when the
host was scanned, and the addresses found. -/
structure Survey where
  network : Reference
  name : String
  level : Level
  declared : Instant
  scanned : Instant
  addresses : List Address

namespace Survey

open Dns

/-- The host is on a network and was there when it was scanned, and every address was found once. -/
structure Sound (v : Survey) : Prop where
  network : v.network.type = .network
  times : v.declared.upTo v.scanned = true
  nodup : v.addresses.Nodup

section Objects

variable (v : Survey)

def host : Entity :=
  .hostname v.network v.name

def seen : Snapshot :=
  ⟨v.host, some (.declared v.host.reference v.level), some v.scanned⟩

def start : Snapshot :=
  v.seen.readAt v.declared

def addressOf (x : Address) : Snapshot :=
  .ofEntity (addressEntity v.network x)

def recordOf (x : Address) : Snapshot :=
  .ofEntity (recordEntity v.network v.name x)

/-- The link from the host to an address. -/
def linkOf (x : Address) : Snapshot :=
  .ofEntity (linkEntity v.network v.name x)

def kept : List Snapshot :=
  v.addresses.flatMap (fun x => [v.addressOf x, v.recordOf x])

/-- The links from the host to the addresses. -/
def links : List Snapshot :=
  v.addresses.map v.linkOf

/-- What is stored once the addresses were found. -/
def before : List Snapshot :=
  v.start :: (v.seen.imply v.kept).map (·.readAt v.scanned)

/-- What is stored once the host was linked to its addresses. -/
def after : List Snapshot :=
  v.before ++ (v.seen.imply v.links).map (·.readAt v.scanned)

end Objects

section References

variable {v : Survey} {x y : Address} {o : Snapshot}

theorem mem_kept_iff : o ∈ v.kept ↔ ∃ x ∈ v.addresses, o = v.addressOf x ∨ o = v.recordOf x := by
  simp [kept]

theorem mem_links_iff : o ∈ v.links ↔ ∃ x ∈ v.addresses, o = v.linkOf x := by
  simp [links, eq_comm]

theorem type_of_mem_kept (h : o ∈ v.kept) :
    o.type = .ipv4 ∨ o.type = .ipv6 ∨ o.type = .dnsA ∨ o.type = .dnsAAAA := by
  obtain ⟨x, -, rfl | rfl⟩ := mem_kept_iff.1 h
  · rcases type_addressEntity v.network x with htype | htype
    · exact .inl htype
    · exact .inr (.inl htype)
  · rcases type_recordEntity v.network v.name x with htype | htype
    · exact .inr (.inr (.inl htype))
    · exact .inr (.inr (.inr htype))

theorem host_not_mem_kept : v.host.reference ∉ v.kept.map Snapshot.reference := by
  intro hmem
  obtain ⟨o, ho, hreference⟩ := List.mem_map.1 hmem
  have htype : o.type = .hostname :=
    (Entity.reference_type o.entity).symm.trans (congrArg Reference.type hreference)
  rcases type_of_mem_kept ho with h | h | h | h <;> rw [htype] at h <;> cases h

theorem host_not_mem_links : v.host.reference ∉ v.links.map Snapshot.reference := by
  intro hmem
  obtain ⟨o, ho, hreference⟩ := List.mem_map.1 hmem
  obtain ⟨x, -, rfl⟩ := mem_links_iff.1 ho
  cases congrArg Reference.type hreference

theorem nodup_kept (h : v.Sound) : (v.kept.map Snapshot.reference).Nodup := by
  have hreferences : v.kept.map Snapshot.reference
      = (v.addresses.flatMap (fun x =>
          [addressEntity v.network x, recordEntity v.network v.name x])).map Entity.reference := by
    rw [kept, List.map_flatMap, List.map_flatMap]
    rfl
  rw [hreferences]
  exact nodup_references h.nodup v.network v.name

theorem nodup_links (h : v.Sound) : (v.links.map Snapshot.reference).Nodup := by
  rw [links, List.map_map]
  exact (List.nodup_map_iff_inj_on h.nodup).2 (fun x _ y _ heq => linkEntity_inj heq)

theorem references_before :
    v.before.map Snapshot.reference = v.host.reference :: v.kept.map Snapshot.reference := by
  have hkept := Store.Emission.map_reference_imply v.seen v.kept
  unfold before
  rw [List.map_cons, List.map_map]
  exact congrArg (v.host.reference :: ·) hkept

theorem nodup_before (h : v.Sound) : (v.before.map Snapshot.reference).Nodup := by
  rw [references_before]
  exact List.nodup_cons.2 ⟨host_not_mem_kept, nodup_kept h⟩

theorem disjoint_before_links :
    (v.before.map Snapshot.reference).Disjoint (v.links.map Snapshot.reference) := by
  rw [references_before]
  intro r hr hlink
  rcases List.mem_cons.1 hr with rfl | hr
  · exact host_not_mem_links hlink
  · obtain ⟨o, ho, rfl⟩ := List.mem_map.1 hr
    obtain ⟨o', ho', hreference⟩ := List.mem_map.1 hlink
    obtain ⟨x, -, rfl⟩ := mem_links_iff.1 ho'
    have htype : o.type = .resolvedHostname :=
      (Entity.reference_type o.entity).symm.trans (congrArg Reference.type hreference).symm
    rcases type_of_mem_kept ho with h | h | h | h <;> rw [htype] at h <;> cases h

end References

/-! ## What is kept of the evidence -/

section Kept

variable {v : Survey}

/-- The objects that the evidence stands for. -/
def reported (v : Survey) : List Entity :=
  v.host :: v.addresses.flatMap (fun x =>
    [v.host, addressEntity v.network x, recordEntity v.network v.name x])

/-- Of what the normalizer reports, the addresses and their records are kept. -/
theorem keep_reported (h : v.Sound) :
    Builtin.dnsNormalizerDefinition.keep v.host.reference (v.reported.map Snapshot.ofEntity)
      = v.kept := by
  have hhost : ∀ x : Address, [v.host, addressEntity v.network x,
      recordEntity v.network v.name x].map Snapshot.ofEntity
      = [.ofEntity v.host, v.addressOf x, v.recordOf x] := fun _ => rfl
  have hfilter : (v.reported.map Snapshot.ofEntity).filter (fun o =>
      decide (o.reference ≠ v.host.reference)
        && Builtin.dnsNormalizerDefinition.produces.covers o.type) = v.kept := by
    have hself : decide ((Snapshot.ofEntity v.host).reference ≠ v.host.reference) = false :=
      decide_eq_false (fun h => h rfl)
    have hkept : ∀ o ∈ v.kept, (decide (o.reference ≠ v.host.reference)
        && Builtin.dnsNormalizerDefinition.produces.covers o.type) = true := by
      intro o ho
      have hne : o.reference ≠ v.host.reference :=
        fun heq => host_not_mem_kept (List.mem_map.2 ⟨o, ho, heq⟩)
      have hcovers : Builtin.dnsNormalizerDefinition.produces.covers o.type = true := by
        rcases type_of_mem_kept ho with htype | htype | htype | htype <;> rw [htype] <;> decide
      rw [decide_eq_true hne, hcovers]
      rfl
    rw [reported, List.map_cons, List.filter_cons_of_neg (by simp [hself]), List.map_flatMap,
      List.filter_flatMap, kept]
    refine List.flatMap_congr (fun x hx => ?_)
    rw [hhost, List.filter_cons_of_neg (by simp [hself])]
    refine List.filter_eq_self.2 (fun o ho => hkept o (mem_kept_iff.2 ⟨x, hx, ?_⟩))
    simpa using ho
  unfold NormalizerDefinition.keep
  rw [hfilter]
  exact distinctBy_eq_self _ (nodup_kept h)

end Kept

/-! ## Clearance -/

section Clearance

variable {v : Survey} {x : Address} {o : Snapshot}

theorem typed_host (h : v.Sound) : v.host.Typed := by
  simp [Entity.Typed, Relation.schema, host, Entity.type, Entity.relation?, Entity.relations,
    h.network]
  decide

theorem typed_of_mem_kept (h : v.Sound) (ho : o ∈ v.kept) : o.entity.Typed := by
  obtain ⟨x, -, rfl | rfl⟩ := mem_kept_iff.1 ho
  · cases x <;>
      simp [Entity.Typed, Relation.schema, addressOf, Snapshot.ofEntity, addressEntity,
        Entity.type, Entity.relation?, Entity.relations, h.network] <;> decide
  · cases x <;>
      simp [Entity.Typed, Relation.schema, recordOf, Snapshot.ofEntity, recordEntity,
        addressEntity, Entity.type, Entity.relation?, Entity.relations] <;> decide

theorem level_recordOf (h : v.Sound) (hx : x ∈ v.addresses) :
    v.seen.impliedLevel v.kept (v.recordOf x).reference = v.level.lower .l2 := by
  have hmem : v.recordOf x ∈ v.kept := mem_kept_iff.2 ⟨x, hx, .inr rfl⟩
  refine Snapshot.impliedLevel_of_edge (b := .l2) ?_ ?_ ?_
  · exact fun heq => host_not_mem_kept (List.mem_map.2 ⟨_, hmem, heq⟩)
  · refine List.mem_flatMap.2 ⟨_, List.mem_cons_of_mem _ (List.mem_map_of_mem hmem), ?_⟩
    cases x <;> exact List.mem_cons_of_mem _ List.mem_cons_self
  · intro d hd htarget
    obtain ⟨e, he, hde⟩ := List.mem_flatMap.1 hd
    have htyped : e.Typed := by
      rcases List.mem_cons.1 he with rfl | he
      · exact typed_host h
      · obtain ⟨o, ho, rfl⟩ := List.mem_map.1 he
        exact typed_of_mem_kept h ho
    have htype : d.target.type.isA .dnsRecord = true := by
      rw [htarget]
      cases x <;> rfl
    exact Relation.boundsInto_dnsRecord htype _ (ClearanceGraph.bound_mem_boundsInto htyped hde)

theorem level_linkOf (hx : x ∈ v.addresses) :
    v.seen.impliedLevel v.links (v.linkOf x).reference = v.level := by
  have hmem : v.linkOf x ∈ v.links := mem_links_iff.2 ⟨x, hx, rfl⟩
  have hmax : ∀ l : Level, l ≤ .l4 := by
    intro l
    cases l <;> decide
  have hlower : v.level.lower .l4 = v.level := by
    cases v.level <;> rfl
  refine (Snapshot.impliedLevel_of_edge (b := .l4) ?_ ?_ (fun d _ _ => hmax d.bound)).trans hlower
  · exact fun heq => host_not_mem_links (List.mem_map.2 ⟨_, hmem, heq⟩)
  · refine List.mem_flatMap.2 ⟨_, List.mem_cons_of_mem _ (List.mem_map_of_mem hmem), ?_⟩
    exact List.mem_cons_of_mem _ List.mem_cons_self

end Clearance

/-! ## Commits -/

section Commits

variable {v : Survey} {s : Store} {x : Observation} {os : List Snapshot}

/-- What a source implies for other objects are profiles of these that nobody declared. -/
theorem profile_of_imply {source : Snapshot} {o : Snapshot}
    (hsource : source.reference ∉ os.map Snapshot.reference) (ho : o ∈ source.imply os) :
    ∃ p, o.profile = some p ∧ p.reference = o.reference ∧ p.isDeclared = false :=
  ⟨_, Snapshot.profile_of_mem_imply hsource ho, Store.implied_reference _ _,
    ClearanceGraph.implied_isDeclared _ _⟩

theorem holds_start (v : Survey) :
    (Store.empty.put (Snapshot.ofEntity v.host |>.declare v.level) v.declared).1.Holds
      [v.start] := by
  have hrecord := Store.holds_empty.record (t := v.declared) (a := (Store.empty, []))
    (o := Snapshot.ofEntity v.host |>.declare v.level) List.not_mem_nil rfl rfl
  exact hrecord.1

theorem holds_before (hv : v.Sound) (h : s.Holds [v.start]) (htime : x.validTime = v.scanned)
    (hresult : x.result = v.seen.imply v.kept) :
    (s.commit x).1.Holds v.before ∧
      (s.commit x).2 = v.kept.map (fun o => .of .created o.reference v.scanned) := by
  have hreferences := Store.Emission.map_reference_imply v.seen v.kept
  have hnodup : ([v.start].map Snapshot.reference ++ x.result.map Snapshot.reference).Nodup := by
    rw [hresult, hreferences]
    exact List.nodup_cons.2 ⟨host_not_mem_kept, nodup_kept hv⟩
  obtain ⟨hholds, hcommits⟩ := h.commit hnodup (fun o ho => by
    obtain ⟨p, hp, hreference, -⟩ := profile_of_imply host_not_mem_kept (hresult ▸ ho)
    exact ⟨p, hp, hreference⟩)
  rw [htime, hresult] at hholds hcommits
  refine ⟨hholds, ?_⟩
  rw [hcommits]
  have hmap := congrArg (List.map (fun r => Commit.of .created r v.scanned)) hreferences
  rwa [List.map_map, List.map_map] at hmap

theorem holds_after (hv : v.Sound) (h : s.Holds v.before) (htime : x.validTime = v.scanned)
    (hlinks : os.Perm v.links) (hresult : x.result = v.seen.imply os) :
    (s.commit x).1.Holds v.after ∧
      (s.commit x).2 = os.map (fun o => .of .created o.reference v.scanned) := by
  have hreferences := Store.Emission.map_reference_imply v.seen os
  have hperm := hlinks.map Snapshot.reference
  have hnodup : (v.before.map Snapshot.reference ++ x.result.map Snapshot.reference).Nodup := by
    rw [hresult, hreferences]
    exact List.nodup_append'.2 ⟨nodup_before hv, hperm.nodup_iff.2 (nodup_links hv),
      fun r hr hr' => disjoint_before_links hr (hperm.mem_iff.1 hr')⟩
  have hhost : v.host.reference ∉ os.map Snapshot.reference :=
    fun hmem => host_not_mem_links (hperm.mem_iff.1 hmem)
  obtain ⟨hholds, hcommits⟩ := h.commit hnodup (fun o ho => by
    obtain ⟨p, hp, hreference, -⟩ := profile_of_imply hhost (hresult ▸ ho)
    exact ⟨p, hp, hreference⟩)
  rw [htime, hresult] at hholds hcommits
  refine ⟨hholds.perm (((Snapshot.imply_perm _ hlinks).map _).append_left _), ?_⟩
  rw [hcommits]
  have hmap := congrArg (List.map (fun r => Commit.of .created r v.scanned)) hreferences
  rwa [List.map_map, List.map_map] at hmap

theorem holds_after_again (h : s.Holds v.after) (htime : x.validTime = v.scanned)
    (hlinks : os.Perm v.links) (hresult : x.result = v.seen.imply os) :
    (s.commit x).1.Holds v.after ∧ (s.commit x).2 = [] := by
  have hhost : v.host.reference ∉ os.map Snapshot.reference :=
    fun hmem => host_not_mem_links ((hlinks.map Snapshot.reference).mem_iff.1 hmem)
  refine h.commit_again (fun o ho => ?_) (fun o ho => profile_of_imply hhost (hresult ▸ ho))
  rw [htime]
  have hmem : o ∈ v.seen.imply v.links :=
    (Snapshot.imply_perm _ hlinks).mem_iff.1 (hresult ▸ ho)
  exact List.mem_append_right _ (List.mem_map_of_mem hmem)

end Commits

end Survey

end ScanGraph
