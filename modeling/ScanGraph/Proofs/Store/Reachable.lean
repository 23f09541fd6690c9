/-
Reachable stores and what holds in them.

A store is reachable if calls lead to it from the empty one.  In a reachable
store the tables are in order, so that listing and looking up agree, and every
version and every profile stands under its own reference: `WellFormed`, which
every call keeps.

## What is proved

`Reachable.wellFormed`, by one lemma for each kind of call; and that a call which
succeeds was made while the store was online and did what it says (`guarded_eq_ok_iff`,
`observe_eq_ok_iff`, `declare_eq_ok_iff`).  `reachable_holding` gives stores to try
things out on: those into which a list of entities was put.

## What is not

Being reachable is more than being in order: what is said here is what later modules
start from, and none of them looks at the calls again unless it is about histories.  The
order of versions, which is not needed to read a store, is `Store.Versions`.  A store
may be switched off and on, which is no call and leaves all of this as it is.
-/
import ScanGraph.Proofs.Store.Writing

namespace ScanGraph

namespace Store

/-- The stores that calls lead to from the empty one. -/
inductive Reachable : Store → Prop
  | empty : Reachable .empty
  | insert {s s' : Store} {o : Snapshot} {t : Instant} {c : Option Commit} :
      Reachable s → s.insert o t = .ok (s', c) → Reachable s'
  | observe {s s' : Store} {o : Observation} {cs : List Commit} :
      Reachable s → s.observe o = .ok (s', cs) → Reachable s'
  | declare {s s' : Store} {r : Reference} {l : Level} {t : Instant} :
      Reachable s → s.declare r l t = .ok s' → Reachable s'
  | recalculate {s s' : Store} {t : Instant} {rs : List Reference} :
      Reachable s → s.recalculateProfiles t = .ok (s', rs) → Reachable s'
  | switch {s : Store} (offline : Bool) : Reachable s → Reachable { s with offline := offline }

/-- The tables are in order, and versions and profiles stand under their own references. -/
structure WellFormed (s : Store) : Prop where
  versions_ascending : s.versions.Ascending
  profiles_ascending : s.profiles.Ascending
  version_reference : ∀ r vs, s.versions.get? r = some vs → ∀ v ∈ vs, v.entity.reference = r
  profile_reference : ∀ r p, s.profiles.get? r = some p → p.reference = r

/-! ## Look-up and listing -/

section Reading

variable {s : Store} {r : Reference} {e : Entity} {t : Instant}

theorem WellFormed.mem_visible_iff (h : s.WellFormed) :
    (r, e) ∈ s.visible t ↔ s.visible? r t = some e := by
  rw [visible?_eq_some_iff]
  simp only [visible, List.mem_filterMap, Option.map_eq_some_iff, Prod.mk.injEq]
  constructor
  · rintro ⟨⟨r', vs⟩, hmem, e', he', rfl, rfl⟩
    exact ⟨vs, h.versions_ascending.mem_entries_iff.1 hmem, he'⟩
  · rintro ⟨vs, hvs, he⟩
    exact ⟨(r, vs), h.versions_ascending.mem_entries_iff.2 hvs, e, he, rfl, rfl⟩

theorem WellFormed.reference_of_visible? (h : s.WellFormed) (he : s.visible? r t = some e) :
    e.reference = r := by
  obtain ⟨vs, hvs, hlatest⟩ := visible?_eq_some_iff.1 he
  obtain ⟨v, hv, rfl, -⟩ := mem_of_latest hlatest
  exact h.version_reference r vs hvs v hv

/-- The declared levels are those of the profiles that are declared. -/
theorem WellFormed.get?_declaredLevels (h : s.WellFormed) {l : Level} :
    s.declaredLevels.get? r = some l ↔
      ∃ p, s.profiles.get? r = some p ∧ p.isDeclared = true ∧ p.level = l := by
  simp only [declaredLevels, Table.get?_map, h.profiles_ascending.get?_filter,
    Option.map_eq_some_iff, Option.filter_eq_some_iff, and_assoc]

/-- Where the declared profiles are the same, the declared levels are. -/
theorem WellFormed.get?_declaredLevels_congr {s' : Store} (h : s.WellFormed) (h' : s'.WellFormed)
    (hprofiles : ∀ p, p.isDeclared = true →
      (s'.profiles.get? r = some p ↔ s.profiles.get? r = some p)) :
    s'.declaredLevels.get? r = s.declaredLevels.get? r := by
  apply Option.ext
  intro l
  rw [h'.get?_declaredLevels, h.get?_declaredLevels]
  constructor
  · rintro ⟨p, hp, hdeclared, hl⟩
    exact ⟨p, (hprofiles p hdeclared).1 hp, hdeclared, hl⟩
  · rintro ⟨p, hp, hdeclared, hl⟩
    exact ⟨p, (hprofiles p hdeclared).2 hp, hdeclared, hl⟩

theorem WellFormed.mem_undeclared_iff (h : s.WellFormed) :
    r ∈ s.undeclared t ↔ s.declaredLevels.get? r = none ∧ ∃ e, s.visible? r t = some e := by
  simp only [undeclared, List.mem_filter, List.mem_map, Bool.not_eq_true',
    Table.contains_eq_false_iff]
  constructor
  · rintro ⟨⟨⟨r', e⟩, hmem, rfl⟩, hnone⟩
    exact ⟨hnone, e, h.mem_visible_iff.1 hmem⟩
  · rintro ⟨hnone, e, he⟩
    exact ⟨⟨(r, e), h.mem_visible_iff.2 he, rfl⟩, hnone⟩

end Reading

/-! ## Every call keeps a store well formed -/

section Calls

variable {s : Store}

theorem WellFormed.write (h : s.WellFormed) (e : Entity) (t : Instant) :
    (s.write e t).1.WellFormed where
  versions_ascending := by
    rcases write_versions s e t with hv | hv
    · exact hv ▸ h.versions_ascending
    · exact hv ▸ h.versions_ascending.insert _ _
  profiles_ascending := (write_profiles s e t).symm ▸ h.profiles_ascending
  version_reference := by
    intro r vs hvs v hmem
    rcases write_versions s e t with hv | hv
    · exact h.version_reference r vs (hv ▸ hvs) v hmem
    · rw [hv, Table.get?_insert] at hvs
      split at hvs
      · rename_i hr
        subst hr
        cases hvs
        rcases mem_putVersion hmem with rfl | hold
        · rfl
        · cases hget : s.versions.get? e.reference with
          | none => rw [hget] at hold; exact absurd hold List.not_mem_nil
          | some old =>
            rw [hget] at hold
            exact h.version_reference _ old hget v hold
      · exact h.version_reference r vs hvs v hmem
  profile_reference := fun r p hp => h.profile_reference r p (write_profiles s e t ▸ hp)

theorem WellFormed.mergeProfile (h : s.WellFormed) (p : Profile) :
    (s.mergeProfile p).WellFormed := by
  cases hrep : replaces p (s.profiles.get? p.reference) with
  | false => exact (mergeProfile_of_not_replaces hrep).symm ▸ h
  | true =>
    have hprofiles := mergeProfile_of_replaces hrep
    exact {
      versions_ascending := (mergeProfile_versions s p).symm ▸ h.versions_ascending
      profiles_ascending := hprofiles ▸ h.profiles_ascending.insert _ _
      version_reference := (mergeProfile_versions s p).symm ▸ h.version_reference
      profile_reference := by
        intro r q hq
        rw [hprofiles, Table.get?_insert] at hq
        split at hq
        · rename_i hr
          cases hq
          exact hr.symm
        · exact h.profile_reference r q hq }

theorem wellFormed_empty : Store.empty.WellFormed where
  versions_ascending := Table.ascending_empty
  profiles_ascending := Table.ascending_empty
  version_reference := fun _ _ h => absurd h.symm (Option.some_ne_none _)
  profile_reference := fun _ _ h => absurd h.symm (Option.some_ne_none _)

theorem WellFormed.foldl_record (t : Instant) (os : List Snapshot) (acc : Store × List Commit)
    (h : acc.1.WellFormed) : (os.foldl (record t) acc).1.WellFormed :=
  foldl_record_induction t os acc h (fun _ o _ hs => (hs.write o.entity t).mergeProfile _)

theorem WellFormed.commit (h : s.WellFormed) (o : Observation) : (s.commit o).1.WellFormed := by
  have hfold := WellFormed.foldl_record o.validTime o.result (s, []) h
  exact ⟨hfold.versions_ascending, hfold.profiles_ascending, hfold.version_reference,
    hfold.profile_reference⟩

theorem WellFormed.put (h : s.WellFormed) (o : Snapshot) (t : Instant) :
    (s.put o t).1.WellFormed := by
  obtain ⟨e, p, time⟩ := o
  cases p with
  | none => exact h.write e t
  | some p => exact (h.write e t).mergeProfile p

theorem WellFormed.foldl_insert (ps : List Profile) {tbl : Table Reference Profile}
    (hasc : tbl.Ascending) (href : ∀ r p, tbl.get? r = some p → p.reference = r) :
    (ps.foldl (fun tbl p => tbl.insert p.reference p) tbl).Ascending ∧
      ∀ r p, (ps.foldl (fun tbl p => tbl.insert p.reference p) tbl).get? r = some p →
        p.reference = r := by
  induction ps generalizing tbl with
  | nil => exact ⟨hasc, href⟩
  | cons q ps ih =>
    refine ih (hasc.insert q.reference q) (fun r p hp => ?_)
    rw [Table.get?_insert] at hp
    split at hp
    · rename_i hr
      cases hp
      exact hr.symm
    · exact href r p hp

theorem WellFormed.recalculate (h : s.WellFormed) (t : Instant) :
    (s.recalculate t).1.WellFormed := by
  obtain ⟨hasc, href⟩ := WellFormed.foldl_insert (s.recalculated t) h.profiles_ascending
    h.profile_reference
  exact ⟨h.versions_ascending, hasc, h.version_reference, href⟩

/-- A call that succeeds was made while the store was online, and did what it says. -/
theorem guarded_eq_ok_iff {α : Type} {result : Except StoreError α} {a : α} :
    s.guarded result = .ok a ↔ s.offline = false ∧ result = .ok a := by
  unfold guarded
  cases s.offline <;> simp

theorem observe_eq_ok_iff {o : Observation} {s' : Store} {cs : List Commit} :
    s.observe o = .ok (s', cs) ↔
      s.offline = false ∧ (s.visible? o.source o.validTime).isSome = true ∧
        s.commit o = (s', cs) := by
  unfold observe
  rw [guarded_eq_ok_iff]
  split
  · rename_i hnone
    simp [Option.isNone_iff_eq_none.1 hnone]
  · rename_i hsome
    have hvisible : (s.visible? o.source o.validTime).isSome = true := by
      simpa [Option.isSome_iff_ne_none] using hsome
    simp [hvisible]

theorem declare_eq_ok_iff {r : Reference} {l : Level} {t : Instant} {s' : Store} :
    s.declare r l t = .ok s' ↔
      s.offline = false ∧ (s.visible? r t).isSome = true ∧
        s.mergeProfile (.declared r l) = s' := by
  unfold declare
  rw [guarded_eq_ok_iff]
  split
  · rename_i hnone
    simp [Option.isNone_iff_eq_none.1 hnone]
  · rename_i hsome
    have hvisible : (s.visible? r t).isSome = true := by
      simpa [Option.isSome_iff_ne_none] using hsome
    simp [hvisible]

theorem online_of_observe {o : Observation} {s' : Store} {cs : List Commit}
    (h : s.observe o = .ok (s', cs)) : s'.offline = false := by
  obtain ⟨honline, -, hcommit⟩ := observe_eq_ok_iff.1 h
  have hs' : (s.commit o).1 = s' := congrArg Prod.fst hcommit
  rw [← hs', commit_offline, honline]

/-- An observation is taken only once: it tells what was committed. -/
theorem observe_unique {o o' : Observation} {s' : Store} {cs cs' : List Commit}
    (h : s.observe o = .ok (s', cs)) (h' : s.observe o' = .ok (s', cs')) : cs = cs' := by
  obtain ⟨-, -, hcommit⟩ := observe_eq_ok_iff.1 h
  obtain ⟨-, -, hcommit'⟩ := observe_eq_ok_iff.1 h'
  have hkept : s.observations ++ [o] = s.observations ++ [o'] := by
    rw [← commit_observations, ← commit_observations, hcommit, hcommit']
  obtain rfl : o = o' := List.singleton_inj.1 (List.append_cancel_left hkept)
  exact congrArg Prod.snd (hcommit.symm.trans hcommit')

theorem observe_ne_self {o : Observation} {s' : Store} {cs : List Commit}
    (h : s.observe o = .ok (s', cs)) : s'.observations ≠ s.observations := by
  obtain ⟨-, -, hcommit⟩ := observe_eq_ok_iff.1 h
  have hs' : (s.commit o).1 = s' := congrArg Prod.fst hcommit
  rw [← hs', commit_observations]
  exact fun heq => List.cons_ne_nil _ _ (List.append_right_eq_self.1 heq)

def unprofiled (s : Store) : Table Reference (List Version) × List Observation × Bool :=
  (s.versions, s.observations, s.offline)

theorem unprofiled_of_declare {r : Reference} {l : Level} {t : Instant} {s' : Store}
    (h : s.declare r l t = .ok s') : s'.unprofiled = s.unprofiled := by
  obtain ⟨-, -, rfl⟩ := declare_eq_ok_iff.1 h
  simp [unprofiled]

theorem unprofiled_of_recalculate {t : Instant} {rs : List Reference} {s' : Store}
    (h : s.recalculateProfiles t = .ok (s', rs)) : s'.unprofiled = s.unprofiled := by
  obtain ⟨-, hrecalculate⟩ := guarded_eq_ok_iff.1 h
  have hs' : (s.recalculate t).1 = s' := congrArg Prod.fst (Except.ok.inj hrecalculate)
  exact hs' ▸ rfl

theorem Reachable.wellFormed (h : s.Reachable) : s.WellFormed := by
  induction h with
  | empty => exact wellFormed_empty
  | @insert s s' o t c _ hcall ih =>
    obtain ⟨-, hput⟩ := guarded_eq_ok_iff.1 hcall
    have hs' : (s.put o t).1 = s' := congrArg Prod.fst (Except.ok.inj hput)
    exact hs' ▸ ih.put o t
  | @observe s s' o cs _ hcall ih =>
    obtain ⟨-, -, hcommit⟩ := observe_eq_ok_iff.1 hcall
    have hs' : (s.commit o).1 = s' := congrArg Prod.fst hcommit
    exact hs' ▸ ih.commit o
  | @declare s s' r l t _ hcall ih =>
    obtain ⟨-, -, rfl⟩ := declare_eq_ok_iff.1 hcall
    exact ih.mergeProfile _
  | @recalculate s s' t rs _ hcall ih =>
    obtain ⟨-, hrecalculate⟩ := guarded_eq_ok_iff.1 hcall
    have hs' : (s.recalculate t).1 = s' := congrArg Prod.fst (Except.ok.inj hrecalculate)
    exact hs' ▸ ih.recalculate t
  | switch _ _ ih =>
    exact ⟨ih.versions_ascending, ih.profiles_ascending, ih.version_reference,
      ih.profile_reference⟩

end Calls

/-! ## Stores of some entities -/

/-- The store into which some entities were put at `t`, in order. -/
def holding (es : List Entity) (t : Instant) : Store :=
  es.foldl (fun s e => (s.put (.ofEntity e) t).1) .empty

section Holding

theorem reachable_foldl_put (es : List Entity) (t : Instant) {s : Store} (hs : s.Reachable)
    (honline : s.offline = false) :
    (es.foldl (fun s e => (s.put (.ofEntity e) t).1) s).Reachable ∧
      (es.foldl (fun s e => (s.put (.ofEntity e) t).1) s).offline = false := by
  induction es generalizing s with
  | nil => exact ⟨hs, honline⟩
  | cons e es ih =>
    exact ih (.insert (o := .ofEntity e) (t := t) hs (guarded_eq_ok_iff.2 ⟨honline, rfl⟩))
      ((put_offline s _ t).trans honline)

theorem reachable_holding (es : List Entity) (t : Instant) : (holding es t).Reachable :=
  (reachable_foldl_put es t .empty rfl).1

theorem online_holding (es : List Entity) (t : Instant) : (holding es t).offline = false :=
  (reachable_foldl_put es t .empty rfl).2

end Holding

end Store

end ScanGraph
