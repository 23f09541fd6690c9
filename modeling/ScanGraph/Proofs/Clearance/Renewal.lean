/-
What a recalculation leaves and what it computes anew.

Recalculating reads of a store only what is visible at the time and which
profiles are declared, and touches neither of them: `Renewal` says what it does
to the rest.  So profiles that were stale, or that came with an observation, have
no influence, and a second recalculation finds everything as it would leave it.
Main statement: `recalculate_renews`.

## What is proved

For every reachable store and every time: `Renewal`, which says of each reference what
becomes of its profile and whether it is reported; that the outcome depends on nothing
but the declared profiles and the objects visible at the time; and that a second
recalculation at the same time changes and reports nothing.  While the store is offline
the call fails, and with it nothing is said about the store, as there is none.

The level that is carried to an object is the one that propagation over all visible
objects gives, which `Clearance.Propagation` characterises by walks.  Recalculations at
other times are not compared: what is visible then may be different, and the profiles,
which have no time of their own, follow the last of them.
-/
import ScanGraph.Proofs.Clearance.Recalculation
import ScanGraph.Proofs.Table.Canonical

namespace ScanGraph

namespace Store

/-- A reference has a declared profile. -/
def Declares (s : Store) (r : Reference) : Prop :=
  ∃ p, s.profiles.get? r = some p ∧ p.isDeclared = true

/-- From one store to another the declared profiles are the same. -/
def SameDeclared (s s' : Store) : Prop :=
  ∀ r p, p.isDeclared = true → (s'.profiles.get? r = some p ↔ s.profiles.get? r = some p)

/-- From one store to another the objects visible at `t` are the same. -/
def SameVisible (t : Instant) (s s' : Store) : Prop :=
  ∀ r, s'.visible? r t = s.visible? r t

/-- What a recalculation at `t` leaves as it was, which profiles it gives to the visible objects
without a declared one, and what it reports. -/
structure Renewal (s : Store) (t : Instant) (s' : Store) (changed : List Reference) : Prop where
  versions : s'.versions = s.versions
  observations : s'.observations = s.observations
  offline : s'.offline = s.offline
  declared : SameDeclared s s'
  hidden : ∀ r, s.visible? r t = none → s'.profiles.get? r = s.profiles.get? r
  inherited : ∀ r e l, s.visible? r t = some e → ¬ s.Declares r →
    ((s.graph t).propagate s.declaredLevels).get? r = some l → .l0 < l →
    s'.profiles.get? r = some (.inherited r l)
  empty : ∀ r e, s.visible? r t = some e → ¬ s.Declares r →
    (∀ l, ((s.graph t).propagate s.declaredLevels).get? r = some l → ¬ .l0 < l) →
    s'.profiles.get? r = some (.empty r)
  ascending : changed.Pairwise (fun a b => a < b)
  mem_changed_iff : ∀ r, r ∈ changed ↔
    (∃ e, s.visible? r t = some e) ∧ ¬ s.Declares r ∧
      (s'.profileOf r).level ≠ (s.profileOf r).level

/-! ## Which references are renewed -/

section Reading

variable {s s' : Store} {t : Instant} {r : Reference}

theorem WellFormed.declaredLevels_eq_none_iff (hs : s.WellFormed) :
    s.declaredLevels.get? r = none ↔ ¬ s.Declares r := by
  constructor
  · rintro hnone ⟨p, hp, hdeclared⟩
    rw [hs.get?_declaredLevels.2 ⟨p, hp, hdeclared, rfl⟩] at hnone
    cases hnone
  · intro hnot
    cases hlevel : s.declaredLevels.get? r with
    | none => rfl
    | some l =>
      obtain ⟨p, hp, hdeclared, -⟩ := hs.get?_declaredLevels.1 hlevel
      exact absurd ⟨p, hp, hdeclared⟩ hnot

theorem WellFormed.mem_undeclared_of_visible (hs : s.WellFormed) {e : Entity}
    (he : s.visible? r t = some e) (hnot : ¬ s.Declares r) : r ∈ s.undeclared t :=
  hs.mem_undeclared_iff.2 ⟨hs.declaredLevels_eq_none_iff.2 hnot, e, he⟩

theorem WellFormed.pairwise_visible (hs : s.WellFormed) (t : Instant) :
    ((s.visible t).map Prod.fst).Pairwise (fun a b => a < b) := by
  unfold visible
  rw [List.pairwise_map, List.pairwise_filterMap]
  refine hs.versions_ascending.imp (fun {a b} hab x hx y hy => ?_)
  obtain ⟨e, -, rfl⟩ := Option.map_eq_some_iff.1 hx
  obtain ⟨e', -, rfl⟩ := Option.map_eq_some_iff.1 hy
  exact hab

theorem WellFormed.pairwise_undeclared (hs : s.WellFormed) (t : Instant) :
    (s.undeclared t).Pairwise (fun a b => a < b) :=
  (hs.pairwise_visible t).filter _

/-- The references reported are those whose level is not the one carried to them. -/
theorem recalculate_snd (s : Store) (t : Instant) :
    (s.recalculate t).2 = (s.undeclared t).filter (fun r =>
      (s.profileOf r).level != ((s.carriedLevels t).get? r).getD .l0) := by
  have hsnd : (s.recalculate t).2 = ((s.recalculated t).filter (fun p =>
      (s.profileOf p.reference).level != p.level)).map Profile.reference := rfl
  rw [hsnd, recalculated_eq, List.filter_map, List.map_map]
  have hreference : Profile.reference ∘ ClearanceGraph.implied (s.carriedLevels t) = id :=
    funext (fun r => implied_reference _ r)
  rw [hreference, List.map_id]
  refine List.filter_congr (fun r _ => ?_)
  rw [Function.comp_apply, implied_reference, ClearanceGraph.implied_level]

/-! ## What a recalculation depends on -/

theorem SameVisible.mem_edges_iff (hvisible : SameVisible t s s') (hs : s.WellFormed)
    (hs' : s'.WellFormed) (d : Edge) : d ∈ (s'.graph t).edges ↔ d ∈ (s.graph t).edges := by
  constructor
  · intro hd
    exact hs'.edges_graph_subset hs (fun r e he => (hvisible r).symm.trans he) hd
  · intro hd
    exact hs.edges_graph_subset hs' (fun r e he => (hvisible r).trans he) hd

/-- The levels carried depend on the declared profiles and the visible objects alone. -/
theorem WellFormed.get?_carriedLevels_congr (hs : s.WellFormed) (hs' : s'.WellFormed)
    (hdeclared : SameDeclared s s') (hvisible : SameVisible t s s') (r : Reference) :
    (s'.carriedLevels t).get? r = (s.carriedLevels t).get? r := by
  have hseeds : ∀ n, s'.declaredLevels.get? n = s.declaredLevels.get? n :=
    fun n => hs.get?_declaredLevels_congr hs' (hdeclared n)
  exact (ClearanceGraph.assigns_propagate (s'.graph t) s'.declaredLevels).get?_congr
    (ClearanceGraph.assigns_propagate (s.graph t) s.declaredLevels)
    (hvisible.mem_edges_iff hs hs') hseeds r

theorem implied_congr {levels levels' : ClearanceGraph.Levels}
    (h : levels'.get? r = levels.get? r) :
    ClearanceGraph.implied levels' r = ClearanceGraph.implied levels r := by
  unfold ClearanceGraph.implied
  rw [h]

theorem WellFormed.mem_undeclared_congr (hs : s.WellFormed) (hs' : s'.WellFormed)
    (hdeclared : SameDeclared s s') (hvisible : SameVisible t s s') :
    r ∈ s'.undeclared t ↔ r ∈ s.undeclared t := by
  rw [hs.mem_undeclared_iff, hs'.mem_undeclared_iff, hvisible r,
    hs.get?_declaredLevels_congr hs' (hdeclared r)]

/-- Stores with the same declared profiles that show the same objects give these the same
profiles. -/
theorem WellFormed.get?_recalculate_congr (hs : s.WellFormed) (hs' : s'.WellFormed)
    (hdeclared : SameDeclared s s') (hvisible : SameVisible t s s') {e : Entity}
    (he : s.visible? r t = some e) :
    (s'.recalculate t).1.profiles.get? r = (s.recalculate t).1.profiles.get? r := by
  rw [get?_recalculate, get?_recalculate]
  by_cases hr : r ∈ s.undeclared t
  · have hr' : r ∈ s'.undeclared t := (hs.mem_undeclared_congr hs' hdeclared hvisible).2 hr
    rw [if_pos hr, if_pos hr',
      implied_congr (hs.get?_carriedLevels_congr hs' hdeclared hvisible r)]
  · have hr' : r ∉ s'.undeclared t :=
      fun h => hr ((hs.mem_undeclared_congr hs' hdeclared hvisible).1 h)
    rw [if_neg hr, if_neg hr']
    -- a visible reference that is not renewed has a declared profile
    obtain ⟨p, hp, hdecl⟩ : s.Declares r :=
      Classical.byContradiction (fun hnot => hr (hs.mem_undeclared_of_visible he hnot))
    rw [hp]
    exact (hdeclared r p hdecl).2 hp

end Reading

/-! ## One recalculation and the next -/

section Renew

variable {s : Store} {t : Instant}

theorem WellFormed.sameDeclared_recalculate (hs : s.WellFormed) (t : Instant) :
    SameDeclared s (s.recalculate t).1 :=
  fun _ _ hp => hs.declared_recalculate t hp

theorem sameVisible_recalculate (s : Store) (t t' : Instant) :
    SameVisible t' s (s.recalculate t).1 :=
  fun _ => rfl

theorem WellFormed.get?_recalculate_of_visible (hs : s.WellFormed) {r : Reference} {e : Entity}
    (he : s.visible? r t = some e) (hnot : ¬ s.Declares r) :
    (s.recalculate t).1.profiles.get? r
      = some (ClearanceGraph.implied (s.carriedLevels t) r) := by
  rw [get?_recalculate, if_pos (hs.mem_undeclared_of_visible he hnot)]

theorem WellFormed.renewal_recalculate (hs : s.WellFormed) (t : Instant) :
    Renewal s t (s.recalculate t).1 (s.recalculate t).2 where
  versions := rfl
  observations := rfl
  offline := rfl
  declared := hs.sameDeclared_recalculate t
  hidden := by
    intro r hnone
    have hnot : r ∉ s.undeclared t := by
      intro hmem
      obtain ⟨-, e, he⟩ := hs.mem_undeclared_iff.1 hmem
      exact Option.some_ne_none e (he.symm.trans hnone)
    rw [get?_recalculate, if_neg hnot]
  inherited := by
    intro r e l he hnot hl hpos
    have hcarried : (s.carriedLevels t).get? r = some l := hl
    rw [hs.get?_recalculate_of_visible he hnot, ClearanceGraph.implied, hcarried]
    exact congrArg some (if_pos hpos)
  empty := by
    intro r e he hnot hlow
    rw [hs.get?_recalculate_of_visible he hnot, ClearanceGraph.implied]
    cases hcarried : (s.carriedLevels t).get? r with
    | none => rfl
    | some l => exact congrArg some (if_neg (hlow l hcarried))
  ascending := by
    rw [recalculate_snd]
    exact (hs.pairwise_undeclared t).filter _
  mem_changed_iff := by
    intro r
    rw [recalculate_snd, List.mem_filter, hs.mem_undeclared_iff, bne_iff_ne]
    constructor
    · rintro ⟨⟨hnone, e, he⟩, hne⟩
      rw [hs.level_recalculate hnone he]
      exact ⟨⟨e, he⟩, hs.declaredLevels_eq_none_iff.1 hnone, hne.symm⟩
    · rintro ⟨⟨e, he⟩, hnot, hne⟩
      have hnone := hs.declaredLevels_eq_none_iff.2 hnot
      rw [hs.level_recalculate hnone he] at hne
      exact ⟨⟨hnone, e, he⟩, hne.symm⟩

/-- Recalculating again gives every reference the profile that it has. -/
theorem WellFormed.get?_recalculate_recalculate (hs : s.WellFormed) (r : Reference) :
    ((s.recalculate t).1.recalculate t).1.profiles.get? r
      = (s.recalculate t).1.profiles.get? r := by
  have hs' := hs.recalculate t
  have hdeclared := hs.sameDeclared_recalculate t
  have hvisible := sameVisible_recalculate s t t
  rw [get?_recalculate (s.recalculate t).1]
  split
  · rename_i hmem
    rw [get?_recalculate s, if_pos ((hs.mem_undeclared_congr hs' hdeclared hvisible).1 hmem),
      implied_congr (hs.get?_carriedLevels_congr hs' hdeclared hvisible r)]
  · rfl

theorem WellFormed.recalculate_recalculate_fst (hs : s.WellFormed) :
    ((s.recalculate t).1.recalculate t).1 = (s.recalculate t).1 := by
  have hs' := hs.recalculate t
  have hprofiles : ((s.recalculate t).1.recalculate t).1.profiles = (s.recalculate t).1.profiles :=
    (hs'.recalculate t).profiles_ascending.ext hs'.profiles_ascending
      (fun r => hs.get?_recalculate_recalculate r)
  have hothers : ((s.recalculate t).1.recalculate t).1 = { (s.recalculate t).1 with
      profiles := ((s.recalculate t).1.recalculate t).1.profiles } := rfl
  rw [hothers, hprofiles]

/-- A recalculation right after another finds every level as it would make it. -/
theorem WellFormed.recalculate_recalculate (hs : s.WellFormed) :
    (s.recalculate t).1.recalculate t = ((s.recalculate t).1, []) := by
  have hrenewal := (hs.recalculate t).renewal_recalculate t
  have hchanged : ((s.recalculate t).1.recalculate t).2 = [] := by
    refine List.eq_nil_iff_forall_not_mem.2 (fun r hr => ?_)
    obtain ⟨-, -, hne⟩ := (hrenewal.mem_changed_iff r).1 hr
    exact hne (congrArg Profile.level
      (profileOf_congr (hs.get?_recalculate_recalculate (t := t) r)))
  exact Prod.ext hs.recalculate_recalculate_fst hchanged

end Renew

/-- A recalculation fails while the store is offline.  Otherwise it renews exactly the profiles of
the visible objects without a declared one; any other store with the same declared profiles that
shows the same objects ends with the same profiles for them, and recalculating again changes
nothing. -/
theorem recalculate_renews {s : Store} (hs : s.Reachable) (t : Instant) :
    (s.offline = true → s.recalculateProfiles t
      = .error (.unavailable "in-memory store switched off")) ∧
    (s.offline = false → ∃ s' changed, s.recalculateProfiles t = .ok (s', changed) ∧
      Renewal s t s' changed ∧
      (∀ o, o.Reachable → SameDeclared s o → SameVisible t s o →
        ∀ o' changed', o.recalculateProfiles t = .ok (o', changed') →
          ∀ r e, s.visible? r t = some e → o'.profiles.get? r = s'.profiles.get? r) ∧
      s'.recalculateProfiles t = .ok (s', [])) := by
  have hwell := hs.wellFormed
  refine ⟨fun hoffline => if_pos hoffline, fun honline => ?_⟩
  refine ⟨(s.recalculate t).1, (s.recalculate t).2, guarded_eq_ok_iff.2 ⟨honline, rfl⟩,
    hwell.renewal_recalculate t, ?_, guarded_eq_ok_iff.2 ⟨honline, ?_⟩⟩
  · intro o ho hdeclared hvisible o' changed' hcall r e he
    obtain ⟨-, hresult⟩ := guarded_eq_ok_iff.1 hcall
    have ho' : (o.recalculate t).1 = o' := congrArg Prod.fst (Except.ok.inj hresult)
    rw [← ho']
    exact hwell.get?_recalculate_congr ho.wellFormed hdeclared hvisible he
  · exact congrArg Except.ok hwell.recalculate_recalculate

/-! ## Profiles of an earlier time -/

namespace Stale

open Blocked

/-- The resolution declared at the highest level, its address with a level that it no longer
inherits, and a port whose empty profile came with a level. -/
def store : Store :=
  (((Store.empty.put ((Snapshot.ofEntity resolution).declare .l4) default).1.put
    ⟨address, some (.inherited address.reference .l1), none⟩ default).1.put
    ⟨port, some ⟨port.reference, .l3, .empty⟩, none⟩ default).1

theorem reachable_store : store.Reachable :=
  .insert (o := ⟨port, some ⟨port.reference, .l3, .empty⟩, none⟩) (t := default)
    (.insert (o := ⟨address, some (.inherited address.reference .l1), none⟩) (t := default)
      (.insert (o := (Snapshot.ofEntity resolution).declare .l4) (t := default) .empty rfl) rfl) rfl

theorem online_store : store.offline = false := by
  decide +kernel

/-- The address and the port both end at the highest level, and both are reported. -/
theorem recalculate_renews_stale :
    store.Reachable ∧ ∃ s' changed, store.recalculateProfiles default = .ok (s', changed) ∧
      Renewal store default s' changed ∧
      changed = [address.reference, port.reference] ∧
      (store.profileOf port.reference).level = .l3 ∧
      s'.profiles.get? address.reference = some (.inherited address.reference .l4) ∧
      s'.profiles.get? port.reference = some (.inherited port.reference .l4) ∧
      s'.recalculateProfiles default = .ok (s', []) := by
  obtain ⟨s', changed, hcall, hrenewal, -, hagain⟩ :=
    (recalculate_renews reachable_store default).2 online_store
  obtain ⟨-, hresult⟩ := guarded_eq_ok_iff.1 hcall
  obtain ⟨rfl, rfl⟩ := Prod.mk.inj (Except.ok.inj hresult)
  exact ⟨reachable_store, _, _, hcall, hrenewal, by decide +kernel, by decide +kernel,
    by decide +kernel, by decide +kernel, hagain⟩

end Stale

end Store

end ScanGraph
