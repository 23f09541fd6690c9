/-
What writing to a store changes.

Entities are written as versions and profiles are merged; the two do not touch
each other.  The laws here say of `write`, `mergeProfile` and `recalculate` what
they change and that they leave everything else alone.

The laws are stated for any store, reachable or not, so that no induction over calls is
needed to use them.  Where an object brings a profile that stands under another
reference than its own, the two are looked up apart; this is why the laws about versions
and those about profiles are separate.

`foldl_record_induction` is the way to statements about observations: what recording one
object keeps, recording a list of them keeps.  The lemmas about profiles that are a
function of their references (`get?_foldl_insert`) are what recalculating needs.

Nothing here depends on the order of versions in time; what a write changes at other
times is `Store.Versions` and `Store.Timeline`.
-/
import ScanGraph.Store

namespace ScanGraph

namespace Store

/-! ## Versions -/

theorem mem_putVersion {v w : Version} {vs : List Version} (h : w ∈ putVersion v vs) :
    w = v ∨ w ∈ vs := by
  induction vs with
  | nil => exact .inl (List.mem_singleton.1 h)
  | cons u rest ih =>
    simp only [putVersion] at h
    split at h
    · exact (List.mem_cons.1 h).imp_right (List.mem_cons_of_mem _)
    · split at h
      · exact List.mem_cons.1 h
      · rcases List.mem_cons.1 h with rfl | h
        · exact .inr List.mem_cons_self
        · exact (ih h).imp_right (List.mem_cons_of_mem _)

theorem mem_putVersion_self (v : Version) (vs : List Version) : v ∈ putVersion v vs := by
  induction vs with
  | nil => exact List.mem_singleton_self v
  | cons u rest ih =>
    simp only [putVersion]
    split
    · exact List.mem_cons_self
    · split
      · exact List.mem_cons_self
      · exact List.mem_cons_of_mem _ ih

theorem mem_of_latest {t : Instant} {vs : List Version} {e : Entity} (h : latest t vs = some e) :
    ∃ v ∈ vs, v.entity = e ∧ v.validTime.upTo t = true := by
  obtain ⟨v, hv, he⟩ := Option.map_eq_some_iff.1 h
  exact ⟨v, List.mem_reverse.1 (List.mem_of_find?_eq_some hv), he,
    List.find?_some (p := fun v : Version => v.validTime.upTo t) hv⟩

theorem latest_eq_none_iff {t : Instant} {vs : List Version} :
    latest t vs = none ↔ ∀ v ∈ vs, v.validTime.upTo t = false := by
  simp [latest]

theorem latest_putVersion_of_none {v : Version} {vs : List Version} {t : Instant}
    (ht : v.validTime.upTo t = true) (h : latest t vs = none) :
    latest t (putVersion v vs) = some v.entity := by
  cases hfind : latest t (putVersion v vs) with
  | none =>
    have hafter := latest_eq_none_iff.1 hfind v (mem_putVersion_self v vs)
    exact absurd (ht.symm.trans hafter) (by decide)
  | some e =>
    obtain ⟨w, hw, rfl, hup⟩ := mem_of_latest hfind
    rcases mem_putVersion hw with rfl | hw
    · rfl
    · exact absurd (hup.symm.trans (latest_eq_none_iff.1 h w hw)) (by decide)

theorem upTo_refl (t : Instant) : t.upTo t = true := by
  simp [Instant.upTo]

theorem visible?_eq_some_iff {s : Store} {r : Reference} {e : Entity} {t : Instant} :
    s.visible? r t = some e ↔ ∃ vs, s.versions.get? r = some vs ∧ latest t vs = some e :=
  Option.bind_eq_some_iff

/-! ## Writing an entity -/

section Write

variable {s : Store} {e : Entity} {t : Instant} {r : Reference}

@[simp] theorem write_profiles (s : Store) (e : Entity) (t : Instant) :
    (s.write e t).1.profiles = s.profiles := by
  unfold write
  split <;> rfl

@[simp] theorem write_offline (s : Store) (e : Entity) (t : Instant) :
    (s.write e t).1.offline = s.offline := by
  unfold write
  split <;> rfl

@[simp] theorem write_observations (s : Store) (e : Entity) (t : Instant) :
    (s.write e t).1.observations = s.observations := by
  unfold write
  split <;> rfl

theorem commit_of_write {c : Commit} (h : (s.write e t).2 = some c) :
    c.reference = e.reference ∧ c.validTime = t := by
  unfold write at h
  split at h
  · cases h
  · cases h
    exact ⟨rfl, rfl⟩

/-- A write changes the versions of the entity that is written, or nothing. -/
theorem write_versions (s : Store) (e : Entity) (t : Instant) :
    (s.write e t).1.versions = s.versions ∨
      (s.write e t).1.versions = s.versions.insert e.reference
        (putVersion ⟨t, e⟩ ((s.versions.get? e.reference).getD [])) := by
  unfold write
  split
  · exact .inl rfl
  · exact .inr rfl

theorem visible?_write_of_ne (h : r ≠ e.reference) (t' : Instant) :
    (s.write e t).1.visible? r t' = s.visible? r t' := by
  unfold visible?
  rcases write_versions s e t with hv | hv
  · rw [hv]
  · rw [hv, Table.get?_insert_of_ne _ _ h]

theorem visible?_write_of_none (h : s.visible? e.reference t = none) :
    (s.write e t).1.visible? e.reference t = some e := by
  have hchange : s.change? e t = some .created := by
    unfold change?
    rw [h]
  have hlatest : latest t ((s.versions.get? e.reference).getD []) = none := by
    unfold visible? at h
    cases hvs : s.versions.get? e.reference with
    | none => rfl
    | some vs =>
      rw [hvs] at h
      exact h
  unfold write visible?
  rw [hchange]
  simp only [Table.get?_insert_self, Option.bind_some]
  exact latest_putVersion_of_none (upTo_refl t) hlatest

end Write

/-! ## Merging a profile -/

section Merge

variable {s : Store} {p : Profile} {r : Reference}

@[simp] theorem mergeProfile_versions (s : Store) (p : Profile) :
    (s.mergeProfile p).versions = s.versions := by
  unfold mergeProfile
  split <;> rfl

@[simp] theorem mergeProfile_offline (s : Store) (p : Profile) :
    (s.mergeProfile p).offline = s.offline := by
  unfold mergeProfile
  split <;> rfl

@[simp] theorem mergeProfile_observations (s : Store) (p : Profile) :
    (s.mergeProfile p).observations = s.observations := by
  unfold mergeProfile
  split <;> rfl

@[simp] theorem visible?_mergeProfile (s : Store) (p : Profile) (r : Reference) (t : Instant) :
    (s.mergeProfile p).visible? r t = s.visible? r t := by
  unfold visible?
  rw [mergeProfile_versions]

theorem mergeProfile_of_replaces (h : replaces p (s.profiles.get? p.reference) = true) :
    (s.mergeProfile p).profiles = s.profiles.insert p.reference p := by
  unfold mergeProfile
  rw [if_pos h]

theorem mergeProfile_of_not_replaces (h : replaces p (s.profiles.get? p.reference) = false) :
    s.mergeProfile p = s := by
  unfold mergeProfile
  rw [h]
  rfl

theorem get?_mergeProfile_of_ne (h : r ≠ p.reference) :
    (s.mergeProfile p).profiles.get? r = s.profiles.get? r := by
  cases hrep : replaces p (s.profiles.get? p.reference) with
  | true => rw [mergeProfile_of_replaces hrep, Table.get?_insert_of_ne _ _ h]
  | false => rw [mergeProfile_of_not_replaces hrep]

theorem get?_mergeProfile_of_none (h : s.profiles.get? p.reference = none) :
    (s.mergeProfile p).profiles.get? p.reference = some p := by
  have hrep : replaces p (s.profiles.get? p.reference) = true := by
    rw [h]
    unfold replaces
    cases p.kind <;> rfl
  rw [mergeProfile_of_replaces hrep, Table.get?_insert_self]

theorem get?_mergeProfile_of_declared (h : p.isDeclared = true) :
    (s.mergeProfile p).profiles.get? p.reference = some p := by
  have hkind : p.kind = .declared := eq_of_beq h
  have hrep : replaces p (s.profiles.get? p.reference) = true := by
    unfold replaces
    rw [hkind]
  rw [mergeProfile_of_replaces hrep, Table.get?_insert_self]

end Merge

/-! ## Putting a single object -/

theorem put_offline (s : Store) (o : Snapshot) (t : Instant) :
    (s.put o t).1.offline = s.offline := by
  obtain ⟨e, p, time⟩ := o
  cases p with
  | none => exact write_offline s e t
  | some p => exact (mergeProfile_offline _ p).trans (write_offline s e t)

theorem put_versions (s : Store) (o : Snapshot) (t : Instant) :
    (s.put o t).1.versions = (s.write o.entity t).1.versions := by
  obtain ⟨e, p, time⟩ := o
  cases p with
  | none => rfl
  | some p => exact mergeProfile_versions _ p

theorem put_snd (s : Store) (o : Snapshot) (t : Instant) :
    (s.put o t).2 = (s.write o.entity t).2 := by
  obtain ⟨e, p, time⟩ := o
  cases p <;> rfl

/-! ## Committing an observation -/

section Commit

variable {s : Store} {t : Instant} {r : Reference}

theorem record_fst (t : Instant) (acc : Store × List Commit) (o : Snapshot) :
    (record t acc o).1
      = (acc.1.write o.entity t).1.mergeProfile (o.profile.getD (.empty o.reference)) := rfl

theorem foldl_record_induction {motive : Store → Prop} (t : Instant) (os : List Snapshot)
    (acc : Store × List Commit) (h : motive acc.1)
    (hstep : ∀ s, ∀ o ∈ os, motive s →
      motive ((s.write o.entity t).1.mergeProfile (o.profile.getD (.empty o.reference)))) :
    motive (os.foldl (record t) acc).1 := by
  induction os generalizing acc with
  | nil => exact h
  | cons o os ih =>
    refine ih (record t acc o) ?_ (fun s o ho => hstep s o (List.mem_cons_of_mem _ ho))
    exact record_fst t acc o ▸ hstep acc.1 o List.mem_cons_self h

@[simp] theorem commit_offline (s : Store) (o : Observation) :
    (s.commit o).1.offline = s.offline :=
  foldl_record_induction (motive := fun s' => s'.offline = s.offline) o.validTime o.result (s, [])
    rfl (fun s' _ _ hs' => (mergeProfile_offline _ _).trans ((write_offline s' _ _).trans hs'))

theorem commit_observations (s : Store) (o : Observation) :
    (s.commit o).1.observations = s.observations ++ [o] := by
  have hfold : (o.result.foldl (record o.validTime) (s, [])).1.observations = s.observations :=
    foldl_record_induction (motive := fun s' => s'.observations = s.observations) o.validTime
      o.result (s, []) rfl
      (fun s' _ _ hs' => (mergeProfile_observations _ _).trans ((write_observations s' _ _).trans hs'))
  exact congrArg (· ++ [o]) hfold

theorem visible?_record_of_ne {acc : Store × List Commit} {o : Snapshot} (h : r ≠ o.reference)
    (t' : Instant) : (record t acc o).1.visible? r t' = acc.1.visible? r t' := by
  rw [record_fst, visible?_mergeProfile, visible?_write_of_ne h]

theorem get?_record_of_ne {acc : Store × List Commit} {o : Snapshot}
    (h : r ≠ (o.profile.getD (.empty o.reference)).reference) :
    (record t acc o).1.profiles.get? r = acc.1.profiles.get? r := by
  rw [record_fst, get?_mergeProfile_of_ne h, write_profiles]

theorem visible?_foldl_record_of_not_mem (os : List Snapshot) (acc : Store × List Commit)
    (h : r ∉ os.map Snapshot.reference) (t' : Instant) :
    (os.foldl (record t) acc).1.visible? r t' = acc.1.visible? r t' := by
  induction os generalizing acc with
  | nil => rfl
  | cons o os ih =>
    exact (ih (record t acc o) (List.not_mem_of_not_mem_cons h)).trans
      (visible?_record_of_ne (List.ne_of_not_mem_cons h) t')

/-- Objects of distinct references that are not visible become visible. -/
theorem visible?_foldl_record_of_mem {os : List Snapshot} (acc : Store × List Commit)
    (hdistinct : (os.map Snapshot.reference).Nodup) {o : Snapshot} (ho : o ∈ os)
    (hnone : acc.1.visible? o.reference t = none) :
    (os.foldl (record t) acc).1.visible? o.reference t = some o.entity := by
  induction os generalizing acc with
  | nil => exact absurd ho List.not_mem_nil
  | cons d os ih =>
    obtain ⟨hd, hrest⟩ := List.nodup_cons.1 hdistinct
    rcases List.mem_cons.1 ho with rfl | ho
    · refine (visible?_foldl_record_of_not_mem os (record t acc o) hd t).trans ?_
      rw [record_fst, visible?_mergeProfile]
      exact visible?_write_of_none hnone
    · have hne : o.reference ≠ d.reference := fun h => hd (h ▸ List.mem_map_of_mem ho)
      exact ih (record t acc d) hrest ho ((visible?_record_of_ne hne t).trans hnone)

theorem get?_foldl_record_of_ne (os : List Snapshot) (acc : Store × List Commit)
    (h : ∀ o ∈ os, r ≠ (o.profile.getD (.empty o.reference)).reference) :
    (os.foldl (record t) acc).1.profiles.get? r = acc.1.profiles.get? r := by
  induction os generalizing acc with
  | nil => rfl
  | cons o os ih =>
    exact (ih (record t acc o) (fun d hd => h d (List.mem_cons_of_mem _ hd))).trans
      (get?_record_of_ne (h o List.mem_cons_self))

/-- Of objects whose profiles stand under their own references, those without a profile in the store
get theirs. -/
theorem get?_foldl_record_of_mem {os : List Snapshot} (acc : Store × List Commit)
    (hdistinct : (os.map Snapshot.reference).Nodup)
    (hown : ∀ o ∈ os, (o.profile.getD (.empty o.reference)).reference = o.reference) {o : Snapshot}
    (ho : o ∈ os) (hnone : acc.1.profiles.get? o.reference = none) :
    (os.foldl (record t) acc).1.profiles.get? o.reference
      = some (o.profile.getD (.empty o.reference)) := by
  induction os generalizing acc with
  | nil => exact absurd ho List.not_mem_nil
  | cons d os ih =>
    obtain ⟨hd, hrest⟩ := List.nodup_cons.1 hdistinct
    have hownRest : ∀ o ∈ os, (o.profile.getD (.empty o.reference)).reference = o.reference :=
      fun o ho => hown o (List.mem_cons_of_mem _ ho)
    rcases List.mem_cons.1 ho with rfl | ho
    · have hkeep := get?_foldl_record_of_ne (t := t) (r := o.reference) os (record t acc o)
        (fun o' ho' h => hd ((h.trans (hownRest o' ho')) ▸ List.mem_map_of_mem ho'))
      have hself := hown o List.mem_cons_self
      refine hkeep.trans ?_
      rw [record_fst]
      have hget := get?_mergeProfile_of_none (s := (acc.1.write o.entity t).1)
        (p := o.profile.getD (.empty o.reference)) (by rw [write_profiles, hself, hnone])
      rwa [hself] at hget
    · have hne : o.reference ≠ (d.profile.getD (.empty d.reference)).reference := by
        rw [hown d List.mem_cons_self]
        exact fun h => hd (h ▸ List.mem_map_of_mem ho)
      exact ih (record t acc d) hrest hownRest ho ((get?_record_of_ne hne).trans hnone)

/-- A declared profile that some object of an observation brings and no other one replaces is there
in the end. -/
theorem get?_foldl_record_of_declared (os : List Snapshot) (acc : Store × List Commit) {p : Profile}
    (hp : p.isDeclared = true)
    (hone : ∀ o ∈ os, p.reference = (o.profile.getD (.empty o.reference)).reference →
      o.profile = some p)
    (h : acc.1.profiles.get? p.reference = some p ∨ ∃ o ∈ os, o.profile = some p) :
    (os.foldl (record t) acc).1.profiles.get? p.reference = some p := by
  induction os generalizing acc with
  | nil => exact h.resolve_right (fun ⟨_, ho, _⟩ => List.not_mem_nil ho)
  | cons o os ih =>
    refine ih (record t acc o) (fun d hd => hone d (List.mem_cons_of_mem _ hd)) ?_
    by_cases hown : p.reference = (o.profile.getD (.empty o.reference)).reference
    · have hprofile := hone o List.mem_cons_self hown
      refine .inl ?_
      rw [record_fst, hprofile]
      exact get?_mergeProfile_of_declared hp
    · rcases h with h | ⟨d, hd, hprofile⟩
      · exact .inl ((get?_record_of_ne hown).trans h)
      · rcases List.mem_cons.1 hd with rfl | hd
        · rw [hprofile] at hown
          exact absurd rfl hown
        · exact .inr ⟨d, hd, hprofile⟩

end Commit

/-! ## Recalculating -/

section Recalculate

variable {s : Store} {r : Reference} {t : Instant}

@[simp] theorem implied_reference (levels : ClearanceGraph.Levels) (r : Reference) :
    (ClearanceGraph.implied levels r).reference = r := by
  unfold ClearanceGraph.implied
  split
  · split <;> rfl
  · rfl

/-- Profiles that are a function of their references, inserted one after the other. -/
theorem get?_foldl_insert (f : Reference → Profile) (hf : ∀ r, (f r).reference = r)
    (rs : List Reference) (tbl : Table Reference Profile) (r : Reference) :
    ((rs.map f).foldl (fun tbl p => tbl.insert p.reference p) tbl).get? r
      = if r ∈ rs then some (f r) else tbl.get? r := by
  induction rs generalizing tbl with
  | nil => simp
  | cons r' rs ih =>
    simp only [List.map_cons, List.foldl_cons, ih, hf, Table.get?_insert, List.mem_cons]
    by_cases hmem : r ∈ rs
    · simp [hmem]
    · by_cases hr : r = r'
      · subst hr
        simp
      · simp [hmem, hr]

/-- The visible references whose profile is not declared. -/
def undeclared (s : Store) (t : Instant) : List Reference :=
  ((s.visible t).map Prod.fst).filter (fun r => !s.declaredLevels.contains r)

theorem recalculated_eq (s : Store) (t : Instant) :
    s.recalculated t = (s.undeclared t).map (ClearanceGraph.implied (s.carriedLevels t)) := by
  simp [recalculated, undeclared, List.filter_map, Function.comp_def]

/-- Recalculating gives the visible references without declared profile the implied one, and leaves
all others as they are. -/
theorem get?_recalculate (s : Store) (t : Instant) (r : Reference) :
    (s.recalculate t).1.profiles.get? r
      = if r ∈ s.undeclared t then some (ClearanceGraph.implied (s.carriedLevels t) r)
        else s.profiles.get? r := by
  have hprofiles : (s.recalculate t).1.profiles
      = (s.recalculated t).foldl (fun tbl p => tbl.insert p.reference p) s.profiles := rfl
  rw [hprofiles, recalculated_eq, get?_foldl_insert _ (implied_reference _)]

end Recalculate

end Store

end ScanGraph
