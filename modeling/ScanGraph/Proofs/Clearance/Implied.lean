/-
Committing objects with the clearance that their source implies.

An implied profile is never declared and never above the level that the source
carries to its reference, so merging it cannot do harm: `Guarded`.  An object
that carries the reference of the source itself keeps the profile that it came
with, whatever that is; such an object undoes the guard.

## What is proved

* `guarded_commit_imply`: recording what a source implies keeps the guard, if no object
  carries the reference of the source.
* `exists_not_guarded_commit`: if one of them does, there are profiles for the same
  objects with which it is broken.  So the condition is exact, though it speaks of the
  objects and not of the profiles that they come with.
* `get?_commit_claiming`: in particular, such an object can have the reference of the
  source declared at any level.

Both directions are about one commit, on any store in order.  Which objects a plugin may
commit with a source is a matter of the pipeline, and so is whether a later
recalculation undoes what was done.
-/
import ScanGraph.Proofs.Store.Writing

namespace ScanGraph

/-- The levels that a source implies over itself and the objects found from it. -/
def Snapshot.impliedLevels (source : Snapshot) (objects : List Snapshot) : ClearanceGraph.Levels :=
  (ClearanceGraph.ofEntities (source.entity :: objects.map Snapshot.entity)).propagate
    (Table.empty.insert source.reference source.level)

/-- The level that a source implies for a reference, the lowest if it implies none. -/
def Snapshot.impliedLevel (source : Snapshot) (objects : List Snapshot) (r : Reference) : Level :=
  ((source.impliedLevels objects).get? r).getD .l0

namespace ClearanceGraph

/-! ## Implied profiles -/

@[simp] theorem implied_isDeclared (levels : Levels) (r : Reference) :
    (implied levels r).isDeclared = false := by
  unfold implied
  split
  · split <;> rfl
  · rfl

@[simp] theorem implied_level (levels : Levels) (r : Reference) :
    (implied levels r).level = (levels.get? r).getD .l0 := by
  unfold implied
  cases levels.get? r with
  | none => rfl
  | some l =>
    by_cases hl : Level.l0 < l
    · simp [hl, Profile.inherited]
    · have hl0 : l = .l0 := Level.le_l0_iff.1 (Level.not_lt.1 hl)
      rw [hl0]
      rfl

end ClearanceGraph

namespace Snapshot

section Imply

variable {source o : Snapshot} {objects : List Snapshot}

theorem imply_eq (source : Snapshot) (objects : List Snapshot) :
    source.imply objects = objects.map (fun s =>
      if s.reference = source.reference then s
      else { s with
        profile := some (ClearanceGraph.implied (source.impliedLevels objects) s.reference) }) :=
  rfl

/-- An object after implying is an emitted one, with the implied profile unless it carries the
reference of the source. -/
theorem mem_imply (h : o ∈ source.imply objects) :
    ∃ e ∈ objects, o.entity = e.entity ∧
      (e.reference = source.reference → o = e) ∧
      (e.reference ≠ source.reference →
        o.profile = some (ClearanceGraph.implied (source.impliedLevels objects) o.reference)) := by
  rw [imply_eq] at h
  obtain ⟨e, he, rfl⟩ := List.mem_map.1 h
  refine ⟨e, he, ?_⟩
  by_cases hr : e.reference = source.reference
  · simp [hr]
  · simp only [hr, if_false, false_implies, ne_eq, not_false_eq_true, true_implies, true_and]
    rfl

theorem map_entity_imply (source : Snapshot) (objects : List Snapshot) :
    (source.imply objects).map Snapshot.entity = objects.map Snapshot.entity := by
  rw [imply_eq, List.map_map]
  refine List.map_congr_left (fun o _ => ?_)
  show (if o.reference = source.reference then o else _).entity = o.entity
  split <;> rfl

theorem exists_mem_imply {s o : Snapshot} {os : List Snapshot} (ho : o ∈ os) :
    ∃ o' ∈ s.imply os, o'.entity = o.entity := by
  have hmap : o.entity ∈ (s.imply os).map Snapshot.entity := by
    rw [map_entity_imply]
    exact List.mem_map_of_mem ho
  exact List.mem_map.1 hmap

/-- Without an object of the source's own reference every profile is the implied one. -/
theorem profile_of_mem_imply (hsource : source.reference ∉ objects.map Snapshot.reference)
    (h : o ∈ source.imply objects) :
    o.profile = some (ClearanceGraph.implied (source.impliedLevels objects) o.reference) := by
  obtain ⟨e, he, -, -, hother⟩ := mem_imply h
  exact hother (fun hr => hsource (hr ▸ List.mem_map_of_mem he))

end Imply

end Snapshot

namespace Store

/-! ## The guard -/

/-- From one store to a later one no declared profile changed, none became declared, and no level
rose above a bound. -/
structure Guarded (bound : Reference → Level) (s s' : Store) : Prop where
  declared : ∀ r p, p.isDeclared = true →
    (s'.profiles.get? r = some p ↔ s.profiles.get? r = some p)
  bounded : ∀ r, (s'.profileOf r).level ≤ (s.profileOf r).level ∨ (s'.profileOf r).level ≤ bound r

section Guarded

variable {bound : Reference → Level} {s s' s'' : Store} {p : Profile} {t : Instant}

theorem Guarded.refl (bound : Reference → Level) (s : Store) : Guarded bound s s where
  declared := fun _ _ _ => Iff.rfl
  bounded := fun _ => .inl (Level.le_refl _)

theorem Guarded.congr (h : Guarded bound s s') (hprofiles : s''.profiles = s'.profiles) :
    Guarded bound s s'' where
  declared := fun r p hp => hprofiles ▸ h.declared r p hp
  bounded := by
    intro r
    unfold profileOf
    rw [hprofiles]
    exact h.bounded r

theorem not_declared_of_replaces (hp : p.isDeclared = false) {present : Profile}
    (hreplaces : replaces p (some present) = true) : present.isDeclared = false := by
  unfold replaces at hreplaces
  unfold Profile.isDeclared at hp
  cases hkind : p.kind with
  | empty => rw [hkind] at hreplaces; cases hreplaces
  | declared => rw [hkind] at hp; cases hp
  | inherited =>
    rw [hkind] at hreplaces
    simp only [Bool.and_eq_true, Bool.not_eq_true'] at hreplaces
    exact hreplaces.1

/-- Merging a profile that is not declared and stays below its bound keeps the guard. -/
theorem Guarded.mergeProfile (h : Guarded bound s s') (hp : p.isDeclared = false)
    (hl : p.level ≤ bound p.reference) : Guarded bound s (s'.mergeProfile p) := by
  cases hreplaces : replaces p (s'.profiles.get? p.reference) with
  | false => exact h.congr (congrArg profiles (mergeProfile_of_not_replaces hreplaces))
  | true =>
    have hget : ∀ r, (s'.mergeProfile p).profiles.get? r
        = if r = p.reference then some p else s'.profiles.get? r := fun r => by
      rw [mergeProfile_of_replaces hreplaces, Table.get?_insert]
    refine ⟨fun r q hq => ?_, fun r => ?_⟩
    · rw [hget]
      split
      · rename_i hr
        subst hr
        -- neither the merged profile nor the one that it replaced is declared
        have hleft : some p ≠ some q := fun heq => by
          rw [Option.some.inj heq, hq] at hp
          cases hp
        have hright : s.profiles.get? p.reference ≠ some q := fun heq => by
          rw [(h.declared _ q hq).2 heq] at hreplaces
          exact absurd (hq.symm.trans (not_declared_of_replaces hp hreplaces)) (by decide)
        exact ⟨fun heq => absurd heq hleft, fun heq => absurd heq hright⟩
      · exact h.declared r q hq
    · unfold profileOf
      rw [hget]
      split
      · rename_i hr
        exact .inr (hr ▸ hl)
      · exact h.bounded r

/-- Recording objects that bring undeclared profiles below their bounds keeps the guard. -/
theorem Guarded.commit {o : Observation}
    (h : ∀ x ∈ o.result, ∃ p, x.profile = some p ∧ p.isDeclared = false ∧
      p.level ≤ bound p.reference) : Guarded bound s (s.commit o).1 := by
  have hfold : Guarded bound s (o.result.foldl (record o.validTime) (s, [])).1 := by
    refine foldl_record_induction o.validTime o.result (s, []) (Guarded.refl bound s) ?_
    intro s' x hx hs'
    obtain ⟨p, hprofile, hp, hl⟩ := h x hx
    rw [hprofile]
    exact (hs'.congr (write_profiles s' x.entity o.validTime)).mergeProfile hp hl
  exact hfold.congr rfl

/-- Objects with implied profiles are harmless unless one of them carries the reference of the
source. -/
theorem guarded_commit_imply (s : Store) {o : Observation} {source : Snapshot}
    {objects : List Snapshot} (hresult : o.result = source.imply objects)
    (hsource : source.reference ∉ objects.map Snapshot.reference) :
    Guarded (source.impliedLevel objects) s (s.commit o).1 := by
  refine Guarded.commit (fun x hx => ?_)
  rw [hresult] at hx
  refine ⟨_, Snapshot.profile_of_mem_imply hsource hx, ClearanceGraph.implied_isDeclared _ _, ?_⟩
  rw [ClearanceGraph.implied_level, implied_reference]
  exact Level.le_refl _

end Guarded

/-! ## Objects that carry the reference of their source -/

section Claiming

/-- Entities, each of which brings a declared level if it carries the given reference. -/
def claiming (r : Reference) (l : Level) (es : List Entity) : List Snapshot :=
  es.map (fun e => ⟨e, if e.reference = r then some (.declared r l) else none, none⟩)

theorem map_entity_claiming (r : Reference) (l : Level) (es : List Entity) :
    (claiming r l es).map Snapshot.entity = es := by
  simp [claiming, Function.comp_def]

/-- What claims the reference of the source as declared has it declared after the commit. -/
theorem get?_commit_claiming (s : Store) {o : Observation} {source : Snapshot} {l : Level}
    {es : List Entity} (hes : source.reference ∈ es.map Entity.reference)
    (hresult : o.result = source.imply (claiming source.reference l es)) :
    (s.commit o).1.profiles.get? source.reference = some (.declared source.reference l) := by
  refine get?_foldl_record_of_declared o.result (s, []) (p := .declared source.reference l) rfl
    ?_ (.inr ?_)
  · intro x hx hown
    rw [hresult] at hx
    obtain ⟨y, hy, hentity, hsame, hother⟩ := Snapshot.mem_imply hx
    obtain ⟨e, -, rfl⟩ := List.mem_map.1 hy
    by_cases hr : e.reference = source.reference
    · rw [hsame hr]
      simp [hr]
    · rw [hother hr] at hown
      have hreference : x.reference = e.reference := congrArg Entity.reference hentity
      exact absurd (hreference.symm.trans (hown.trans (implied_reference _ _)).symm) hr
  · obtain ⟨e, he, hr⟩ := List.mem_map.1 hes
    refine ⟨⟨e, some (.declared source.reference l), none⟩, ?_, rfl⟩
    rw [hresult, Snapshot.imply_eq]
    refine List.mem_map.2 ⟨⟨e, some (.declared source.reference l), none⟩, ?_, ?_⟩
    · exact List.mem_map.2 ⟨e, he, by rw [if_pos hr]⟩
    · exact if_pos hr

theorem exists_other_level (s : Store) (r : Reference) :
    ∃ l, s.profiles.get? r ≠ some (.declared r l) := by
  by_cases h : s.profiles.get? r = some (.declared r .l4)
  · refine ⟨.l0, fun h0 => ?_⟩
    have heq : Profile.declared r .l4 = .declared r .l0 := Option.some.inj (h.symm.trans h0)
    cases heq
  · exact ⟨.l4, h⟩

/-- Entities one of which carries the reference of the source can come with profiles that break the
guard. -/
theorem exists_not_guarded_commit (s : Store) {source : Snapshot} {es : List Entity}
    (hes : source.reference ∈ es.map Entity.reference) :
    ∃ objects, objects.map Snapshot.entity = es ∧ ∀ (bound : Reference → Level) (o : Observation),
      o.result = source.imply objects → ¬ Guarded bound s (s.commit o).1 := by
  obtain ⟨l, hl⟩ := exists_other_level s source.reference
  refine ⟨claiming source.reference l es, map_entity_claiming _ _ _, fun bound o hresult h => ?_⟩
  exact hl ((h.declared _ _ rfl).1 (get?_commit_claiming s hes hresult))

end Claiming

end Store

end ScanGraph
