/-
The objects that stand for the addresses of a host.

For every address of a host on a network there are the object of the address, the
record that gives the host the address, and the link between them.  Their
references tell addresses apart, since the text of an address does, and are none
of the host's.  The answer about a host brings objects and records
(`keep_found`), and a host implies the levels of its records and of its links:
its own level up to the bound of the field by which these point at it
(`impliedLevel_of_edge`).

## What is proved

* The natural keys of the three objects, and that each of them determines the address
  (`addressEntity_inj`, `recordEntity_inj`, `linkEntity_inj`).
* `nodup_references`: no two objects of different addresses have one reference, and
  neither have the object and the record of one.
* `Snapshot.impliedLevel_of_edge`: what a source implies for a neighbour with which one
  edge joins it, if nothing else leads there.

An answer may name an address many times and in any order.  It is read as the sorted
list of different addresses, which is what the counts of jobs and objects depend on
(`nodup_ofList`, `length_ofList`).  The host's own name must be one that a line can
begin with; whether the network's key is empty makes no difference to anything here.
-/
import ScanGraph.Builtin.DnsScan
import ScanGraph.Normalizing
import ScanGraph.Proofs.Clearance.Implied
import ScanGraph.Proofs.Clearance.Propagation
import ScanGraph.Proofs.Dns.Reading
import ScanGraph.Proofs.Entity.Identity
import ScanGraph.Proofs.Table.Canonical

namespace ScanGraph

/-! ## The order of addresses -/

namespace Address

/-- Numbers written with digits below a base tell the digits apart. -/
theorem eq_of_foldl_eq {l l' : List UInt16} (hlength : l.length = l'.length) {a b : Nat}
    (h : l.foldl (fun n g => n * 65536 + g.toNat) a = l'.foldl (fun n g => n * 65536 + g.toNat) b) :
    a = b ∧ l = l' := by
  induction l generalizing l' a b with
  | nil =>
    obtain rfl := List.eq_nil_of_length_eq_zero hlength.symm
    exact ⟨h, rfl⟩
  | cons g l ih =>
    obtain ⟨g', l', rfl⟩ := List.exists_cons_of_length_eq_add_one hlength.symm
    obtain ⟨hstarts, rfl⟩ := ih (Nat.succ.inj hlength) h
    have hnumbers : a * 65536 + g.toNat = b * 65536 + g'.toNat := hstarts
    have hg : g.toNat < 65536 := g.toNat_lt
    have hg' : g'.toNat < 65536 := g'.toNat_lt
    obtain ⟨rfl, hdigit⟩ : a = b ∧ g.toNat = g'.toNat := by omega
    exact ⟨rfl, by rw [UInt16.toNat_inj.1 hdigit]⟩

theorem V6.toNat_injective {x y : V6} (h : x.toNat = y.toNat) : x = y := by
  have hlists := (eq_of_foldl_eq (x.length_toList.trans y.length_toList.symm) h).2
  obtain ⟨x⟩ := x
  obtain ⟨y⟩ := y
  exact congrArg V6.mk (Vector.toList_inj.1 hlists)

theorem V4.toNat_lt (x : V4) : x.toNat < UInt32.size := by
  have ha : x.a.toNat < 256 := x.a.toNat_lt
  have hb : x.b.toNat < 256 := x.b.toNat_lt
  have hc : x.c.toNat < 256 := x.c.toNat_lt
  have hd : x.d.toNat < 256 := x.d.toNat_lt
  have hsize : UInt32.size = 4294967296 := rfl
  unfold V4.toNat
  omega

theorem V4.toNat_injective {x y : V4} (h : x.toNat = y.toNat) : x = y := by
  obtain ⟨a, b, c, d⟩ := x
  obtain ⟨a', b', c', d'⟩ := y
  unfold V4.toNat at h
  dsimp only at h
  have hdigits : a.toNat = a'.toNat ∧ b.toNat = b'.toNat ∧ c.toNat = c'.toNat ∧
      d.toNat = d'.toNat := by
    have hb : b.toNat < 256 := b.toNat_lt
    have hc : c.toNat < 256 := c.toNat_lt
    have hd : d.toNat < 256 := d.toNat_lt
    have hb' : b'.toNat < 256 := b'.toNat_lt
    have hc' : c'.toNat < 256 := c'.toNat_lt
    have hd' : d'.toNat < 256 := d'.toNat_lt
    omega
  simpa only [V4.mk.injEq, ← UInt8.toNat_inj] using hdigits

theorem rank_injective {x y : Address} (h : x.rank = y.rank) : x = y := by
  cases x with
  | v4 x =>
    cases y with
    | v4 y => exact congrArg v4 (V4.toNat_injective h)
    | v6 y =>
      have hx := x.toNat_lt
      have hrank : x.toNat = UInt32.size + y.toNat := h
      omega
  | v6 x =>
    cases y with
    | v4 y =>
      have hy := y.toNat_lt
      have hrank : UInt32.size + x.toNat = y.toNat := h
      omega
    | v6 y => exact congrArg v6 (V6.toNat_injective (Nat.add_left_cancel h))

instance : Std.Irrefl (fun a b : Address => a < b) :=
  ⟨fun a => Nat.lt_irrefl a.rank⟩

instance : Trans (fun a b : Address => a < b) (fun a b : Address => a < b)
    (fun a b : Address => a < b) :=
  ⟨Nat.lt_trans⟩

instance : Std.Trichotomous (fun a b : Address => a < b) :=
  ⟨fun _ _ hab hba => rank_injective (Nat.le_antisymm (Nat.not_lt.1 hba) (Nat.not_lt.1 hab))⟩

theorem nodup_ofList (addresses : List Address) : (SortedSet.ofList addresses).toList.Nodup :=
  (SortedSet.pairwise_ofList addresses).imp
    (fun hlt heq => absurd (heq ▸ hlt) (Nat.lt_irrefl _))

theorem length_ofList (addresses : List Address) :
    (SortedSet.ofList addresses).toList.length = addresses.toFinset.card := by
  rw [← List.toFinset_card_of_nodup (nodup_ofList addresses)]
  congr 1
  ext x
  exact List.mem_toFinset.trans ((SortedSet.mem_ofList addresses x).trans List.mem_toFinset.symm)

theorem text_injective {x y : Address} (h : x.text = y.text) : x = y := by
  cases x with
  | v4 x =>
    cases y with
    | v4 y => exact congrArg v4 (V4.text_injective h)
    | v6 y => exact absurd h (V4.text_ne_text x y)
  | v6 x =>
    cases y with
    | v4 y => exact absurd h.symm (V4.text_ne_text y x)
    | v6 y => exact congrArg v6 (V6.text_injective h)

end Address

/-! ## Implied levels -/

namespace ClearanceGraph

section Levels

variable {g : ClearanceGraph} {seeds : Levels} {r n : Reference} {l b : Level}

theorem IsWalk.exists_last {walk : List Edge} (h : g.IsWalk seeds r walk n) (hne : walk ≠ []) :
    ∃ e ∈ walk, e ∈ g.edges ∧ e.target = n := by
  induction walk generalizing r with
  | nil => exact absurd rfl hne
  | cons e walk ih =>
    obtain ⟨he, -, -, hwalk⟩ := h
    by_cases hend : walk = []
    · subst hend
      exact ⟨e, List.mem_cons_self, he, hwalk⟩
    · obtain ⟨e', he', hedge, htarget⟩ := ih hwalk hend
      exact ⟨e', List.mem_cons_of_mem _ he', hedge, htarget⟩

/-- Where one node alone has a level, a neighbour gets that level up to the bound of the edge, if no
edge into the neighbour has a higher one. -/
theorem highest_of_edge (hseeds : ∀ s m, seeds.get? s = some m ↔ s = r ∧ m = l) (hne : n ≠ r)
    (hedge : ⟨r, n, b⟩ ∈ g.edges) (hbound : ∀ e ∈ g.edges, e.target = n → e.bound ≤ b) :
    g.Highest seeds n (l.lower b) := by
  have hfree : seeds.get? n = none :=
    Option.eq_none_iff_forall_ne_some.2 (fun m hm => hne ((hseeds n m).1 hm).1)
  refine ⟨arrives_of_seed (e := ⟨r, n, b⟩) ((hseeds r l).2 ⟨rfl, rfl⟩) hedge hfree, ?_⟩
  rintro c ⟨s, m, walk, hs, hwalk, hleads, rfl⟩
  obtain ⟨rfl, rfl⟩ := (hseeds s m).1 hs
  obtain ⟨e, he, hlast, htarget⟩ := hleads.exists_last hwalk
  obtain ⟨hstart, hcarried⟩ := le_carried_iff.1 (Level.le_refl (carried m walk))
  exact Level.le_lower_iff.2 ⟨hstart, Level.le_trans (hcarried e he) (hbound e hlast htarget)⟩

end Levels

end ClearanceGraph

/-- A source implies for a reference that points at it, or that it points at, its own level up to
the bound of that edge. -/
theorem Snapshot.impliedLevel_of_edge {source : Snapshot} {objects : List Snapshot} {n : Reference}
    {b : Level} (hne : n ≠ source.reference)
    (hedge : ⟨source.reference, n, b⟩
      ∈ (ClearanceGraph.ofEntities (source.entity :: objects.map Snapshot.entity)).edges)
    (hbound : ∀ e ∈ (ClearanceGraph.ofEntities
      (source.entity :: objects.map Snapshot.entity)).edges, e.target = n → e.bound ≤ b) :
    source.impliedLevel objects n = source.level.lower b := by
  have hseeds : ∀ s m, (Table.empty.insert source.reference source.level).get? s = some m ↔
      s = source.reference ∧ m = source.level := by
    intro s m
    rw [Table.get?_insert]
    by_cases hs : s = source.reference <;> simp [hs, eq_comm]
  have hfree : (Table.empty.insert source.reference source.level).get? n = none :=
    Option.eq_none_iff_forall_ne_some.2 (fun m hm => hne ((hseeds n m).1 hm).1)
  have hhighest := ClearanceGraph.highest_of_edge hseeds hne hedge hbound
  have hassigns := ClearanceGraph.assigns_propagate
    (ClearanceGraph.ofEntities (source.entity :: objects.map Snapshot.entity))
    (Table.empty.insert source.reference source.level)
  unfold impliedLevel impliedLevels
  by_cases hzero : source.level.lower b = .l0
  · rw [hassigns.get?_eq_none_iff.2 ⟨hfree, .inr (hzero ▸ hhighest)⟩, hzero]
    rfl
  · rw [(hassigns.get?_eq_some_iff hfree).2 ⟨hzero, hhighest⟩]
    rfl

/-! ## Objects of addresses -/

namespace Dns

section Objects

variable {network : Reference} {name : String} {x y : Address}

theorem join_pair_inj {a b c : String} (h : Text.join "|" [a, b] = Text.join "|" [a, c]) :
    b = c := by
  have hchars := congrArg String.toList h
  rw [Reference.toList_join_cons, Reference.toList_join_cons, Reference.join_singleton,
    Reference.join_singleton] at hchars
  exact String.toList_inj.1 (List.cons.inj (List.append_cancel_left hchars)).2

theorem naturalKey_addressEntity (network : Reference) (x : Address) :
    (addressEntity network x).reference.naturalKey = Text.join "|" [network.naturalKey, x.text] := by
  cases x <;> exact Entity.naturalKey_reference _

theorem naturalKey_recordEntity (network : Reference) (name : String) (x : Address) :
    (recordEntity network name x).reference.naturalKey
      = Text.join "|" [(Entity.hostname network name).reference.naturalKey, x.text] := by
  cases x <;> exact Entity.naturalKey_reference _

theorem naturalKey_linkEntity (network : Reference) (name : String) (x : Address) :
    (linkEntity network name x).reference.naturalKey
      = Text.join "|" [(Entity.hostname network name).reference.naturalKey,
          (addressEntity network x).reference.naturalKey] :=
  Entity.naturalKey_reference _

theorem addressEntity_inj (h : (addressEntity network x).reference
    = (addressEntity network y).reference) : x = y := by
  have hkey := congrArg Reference.naturalKey h
  rw [naturalKey_addressEntity, naturalKey_addressEntity] at hkey
  exact Address.text_injective (join_pair_inj hkey)

theorem recordEntity_inj (h : (recordEntity network name x).reference
    = (recordEntity network name y).reference) : x = y := by
  have hkey := congrArg Reference.naturalKey h
  rw [naturalKey_recordEntity, naturalKey_recordEntity] at hkey
  exact Address.text_injective (join_pair_inj hkey)

theorem linkEntity_inj (h : (linkEntity network name x).reference
    = (linkEntity network name y).reference) : x = y := by
  have hkey := congrArg Reference.naturalKey h
  rw [naturalKey_linkEntity, naturalKey_linkEntity] at hkey
  have haddress := join_pair_inj hkey
  rw [naturalKey_addressEntity, naturalKey_addressEntity] at haddress
  exact Address.text_injective (join_pair_inj haddress)

theorem type_addressEntity (network : Reference) (x : Address) :
    (addressEntity network x).type = .ipv4 ∨ (addressEntity network x).type = .ipv6 := by
  cases x with
  | v4 x => exact .inl rfl
  | v6 x => exact .inr rfl

theorem type_recordEntity (network : Reference) (name : String) (x : Address) :
    (recordEntity network name x).type = .dnsA ∨ (recordEntity network name x).type = .dnsAAAA := by
  cases x with
  | v4 x => exact .inl rfl
  | v6 x => exact .inr rfl

theorem addressEntity_ne_recordEntity :
    (addressEntity network x).reference ≠ (recordEntity network name y).reference := by
  intro h
  have htype := congrArg Reference.type h
  cases x <;> cases y <;> cases htype

/-- No two objects of different addresses, nor the object and the record of one, have one
reference. -/
theorem nodup_references {addresses : List Address} (h : addresses.Nodup) (network : Reference)
    (name : String) :
    ((addresses.flatMap (fun x => [addressEntity network x, recordEntity network name x])).map
      Entity.reference).Nodup := by
  rw [List.map_flatMap, List.nodup_flatMap]
  refine ⟨fun x _ => by simpa using addressEntity_ne_recordEntity, h.imp (fun {x y} hne => ?_)⟩
  simp only [Function.onFun, List.map_cons, List.map_nil, List.disjoint_cons_left,
    List.disjoint_nil_left, List.mem_cons, List.not_mem_nil, or_false, not_or, and_true]
  exact ⟨⟨fun heq => hne (addressEntity_inj heq), addressEntity_ne_recordEntity⟩,
    fun heq => addressEntity_ne_recordEntity heq.symm, fun heq => hne (recordEntity_inj heq)⟩

end Objects

end Dns

end ScanGraph
