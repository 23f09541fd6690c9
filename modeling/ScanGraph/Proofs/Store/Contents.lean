/-
Stores of which everything is known.

A store holds some objects if it has each of them since its time and with its
profile, and nothing under any other reference (`Holds`).  Objects of references
that are free are added by an observation, each with a commit; objects that are
already there with the same profiles change nothing.

`Holds` is a complete description, so that what a walk finds, what an observation
changes and what a recalculation gives can be computed from the list of objects.  It
does not say in which order they came, and `Holds.perm` is why it need not.

Objects have one version each, and one time from which on they are there.  A store with
a history is outside of what is described here, and `Store.Versions` is about those.
Nothing is said about the list of observations or about being offline.
-/
import ScanGraph.Proofs.Store.Again
import ScanGraph.Proofs.Store.Reachable

namespace ScanGraph

namespace Store

/-- The object is in the store since its time and with its profile, and has one version. -/
def Has (s : Store) (o : Snapshot) : Prop :=
  ∃ t p, o.validTime = some t ∧ o.profile = some p ∧
    s.versions.get? o.reference = some [⟨t, o.entity⟩] ∧ s.profiles.get? o.reference = some p

/-- The store has these objects and nothing else. -/
structure Holds (s : Store) (os : List Snapshot) : Prop where
  wellFormed : s.WellFormed
  has : ∀ o ∈ os, s.Has o
  free : ∀ r, r ∉ os.map Snapshot.reference →
    s.versions.get? r = none ∧ s.profiles.get? r = none

section Holds

variable {s : Store} {os os' : List Snapshot} {o : Snapshot} {r : Reference} {t : Instant}

theorem holds_empty : Store.empty.Holds [] where
  wellFormed := wellFormed_empty
  has _ ho := absurd ho List.not_mem_nil
  free _ _ := ⟨rfl, rfl⟩

theorem Holds.perm (h : s.Holds os) (hperm : os.Perm os') : s.Holds os' where
  wellFormed := h.wellFormed
  has o ho := h.has o (hperm.mem_iff.2 ho)
  free r hr := h.free r (fun hmem => hr ((hperm.map _).mem_iff.1 hmem))

/-! ## Reading -/

theorem Has.visible? (h : s.Has o) (ht : ∀ t₀, o.validTime = some t₀ → t₀.upTo t = true) :
    s.visible? o.reference t = some o.entity := by
  obtain ⟨t₀, p, htime, -, hversions, -⟩ := h
  simp [Store.visible?, hversions, latest, ht t₀ htime]

theorem Has.profileOf {p : Profile} (h : s.Has o) (hp : o.profile = some p) :
    s.profileOf o.reference = p := by
  obtain ⟨-, p', -, hp', -, hprofiles⟩ := h
  obtain rfl := Option.some.inj (hp'.symm.trans hp)
  simp [Store.profileOf, hprofiles]

/-- An object of which the time has come is read with its profile. -/
theorem Has.read? (h : s.Has o) (ht : ∀ t₀, o.validTime = some t₀ → t₀.upTo t = true) :
    s.read? o.reference t = some (o.readAt t) := by
  obtain ⟨-, p, -, hp, -⟩ := id h
  simp [Store.read?, Store.snapshot, h.visible? ht, h.profileOf hp, Snapshot.readAt, hp]

theorem Holds.exists_of_visible? (h : s.Holds os) {e : Entity} (he : s.visible? r t = some e) :
    ∃ o ∈ os, o.reference = r ∧ o.entity = e := by
  by_cases hr : r ∈ os.map Snapshot.reference
  · obtain ⟨o, ho, rfl⟩ := List.mem_map.1 hr
    obtain ⟨t₀, p, -, -, hversions, -⟩ := h.has o ho
    refine ⟨o, ho, rfl, ?_⟩
    rw [Store.visible?, hversions] at he
    obtain ⟨v, hv, hentity, -⟩ := mem_of_latest he
    rw [List.mem_singleton.1 hv] at hentity
    exact hentity
  · rw [Store.visible?, (h.free r hr).1] at he
    cases he

/-! ## Writing -/

theorem Has.congr {s' : Store} (h : s.Has o)
    (hversions : s'.versions.get? o.reference = s.versions.get? o.reference)
    (hprofiles : s'.profiles.get? o.reference = s.profiles.get? o.reference) : s'.Has o := by
  obtain ⟨t, p, htime, hp, hv, hq⟩ := h
  exact ⟨t, p, htime, hp, hversions.trans hv, hprofiles.trans hq⟩

theorem merged_none (p : Profile) : merged none p = some p := by
  unfold merged replaces
  cases p.kind <;> rfl

theorem Holds.record {a : Store × List Commit} {p : Profile} (h : a.1.Holds os)
    (hnew : o.reference ∉ os.map Snapshot.reference) (hp : o.profile = some p)
    (hreference : p.reference = o.reference) :
    (Store.record t a o).1.Holds (os ++ [o.readAt t]) ∧
      (Store.record t a o).2 = a.2 ++ [.of .created o.reference t] := by
  obtain ⟨hversions, hprofiles⟩ := h.free o.reference hnew
  have hnone : a.1.visible? o.reference t = none := by
    simp [Store.visible?, hversions]
  have hwritten : ∀ r, (Store.record t a o).1.versions.get? r
      = if o.reference = r then some [⟨t, o.entity⟩] else a.1.versions.get? r := by
    intro r
    rw [record_fst, mergeProfile_versions, get?_write]
    by_cases hr : o.reference = r
    · subst hr
      rw [if_pos (show o.entity.reference = o.reference from rfl), if_pos rfl, hversions,
        rewritten_of_not_visible (by simp)]
      rfl
    · rw [if_neg hr, if_neg (show ¬ o.entity.reference = r from hr)]
  have hmerged : ∀ r, (Store.record t a o).1.profiles.get? r
      = if o.reference = r then some p else a.1.profiles.get? r := by
    intro r
    rw [record_fst, get?_mergeProfile, write_profiles, hp, Option.getD_some, hreference]
    by_cases hr : o.reference = r
    · subst hr
      rw [if_pos rfl, if_pos rfl, hprofiles, merged_none]
    · rw [if_neg hr, if_neg hr]
  refine ⟨⟨(h.wellFormed.write o.entity t).mergeProfile _, fun o' ho' => ?_, fun r hr => ?_⟩, ?_⟩
  · rcases List.mem_append.1 ho' with ho' | ho'
    · have hne : o.reference ≠ o'.reference :=
        fun heq => hnew (heq ▸ List.mem_map_of_mem ho')
      exact (h.has o' ho').congr (by rw [hwritten, if_neg hne]) (by rw [hmerged, if_neg hne])
    · obtain rfl := List.mem_singleton.1 ho'
      refine ⟨t, p, rfl, hp, ?_, ?_⟩
      · rw [hwritten]
        exact if_pos rfl
      · rw [hmerged]
        exact if_pos rfl
  · have hr' : r ∉ os.map Snapshot.reference ∧ ¬ o.reference = r := by
      refine ⟨fun hmem => hr ?_, fun heq => hr ?_⟩
      · rw [List.map_append]
        exact List.mem_append_left _ hmem
      · rw [List.map_append, ← heq]
        exact List.mem_append_right _ List.mem_cons_self
    rw [hwritten, hmerged, if_neg hr'.2, if_neg hr'.2]
    exact h.free r hr'.1
  · have hchange : a.1.change? o.entity t = some .created := by
      unfold change?
      rw [show a.1.visible? o.entity.reference t = none from hnone]
    unfold Store.record Store.write
    rw [hchange]
    rfl

theorem Holds.foldl_record {a : Store × List Commit} (h : a.1.Holds os)
    (hnodup : (os.map Snapshot.reference ++ os'.map Snapshot.reference).Nodup)
    (hprofiles : ∀ o ∈ os', ∃ p, o.profile = some p ∧ p.reference = o.reference) :
    (os'.foldl (Store.record t) a).1.Holds (os ++ os'.map (·.readAt t)) ∧
      (os'.foldl (Store.record t) a).2
        = a.2 ++ os'.map (fun o => .of .created o.reference t) := by
  induction os' generalizing os a with
  | nil => simpa using h
  | cons o os' ih =>
    obtain ⟨p, hp, hreference⟩ := hprofiles o List.mem_cons_self
    have hnew : o.reference ∉ os.map Snapshot.reference :=
      fun hmem => (List.disjoint_of_nodup_append hnodup) hmem List.mem_cons_self
    obtain ⟨hholds, hcommits⟩ := h.record (t := t) hnew hp hreference
    have hnodup' : ((os ++ [o.readAt t]).map Snapshot.reference
        ++ os'.map Snapshot.reference).Nodup := by
      simpa [Snapshot.reference, Snapshot.readAt] using hnodup
    obtain ⟨hrest, hmore⟩ :=
      ih hholds hnodup' (fun x hx => hprofiles x (List.mem_cons_of_mem _ hx))
    rw [List.foldl_cons]
    refine ⟨by simpa using hrest, ?_⟩
    rw [hmore, hcommits, List.map_cons, List.append_assoc]
    rfl

theorem Holds.commit (h : s.Holds os) {x : Observation}
    (hnodup : (os.map Snapshot.reference ++ x.result.map Snapshot.reference).Nodup)
    (hprofiles : ∀ o ∈ x.result, ∃ p, o.profile = some p ∧ p.reference = o.reference) :
    (s.commit x).1.Holds (os ++ x.result.map (·.readAt x.validTime)) ∧
      (s.commit x).2 = x.result.map (fun o => .of .created o.reference x.validTime) := by
  obtain ⟨hholds, hcommits⟩ :=
    Holds.foldl_record (t := x.validTime) (a := (s, [])) h hnodup hprofiles
  exact ⟨⟨h.wellFormed.commit x, hholds.has, hholds.free⟩, hcommits⟩

theorem record_of_has {a : Store × List Commit} {p : Profile} (h : a.1.Has (o.readAt t))
    (hp : o.profile = some p) (hreference : p.reference = o.reference)
    (hdeclared : p.isDeclared = false) : Store.record t a o = a := by
  have hvisible : a.1.visible? o.entity.reference t = some o.entity :=
    h.visible? (fun t' ht' => Option.some.inj ht' ▸ upTo_refl t)
  obtain ⟨-, p', -, hp', -, hprofiles⟩ := h
  obtain rfl := Option.some.inj (hp'.symm.trans hp)
  have hkeep : replaces p' (a.1.profiles.get? p'.reference) = false := by
    rw [hreference]
    exact (replaces_eq_false_iff hdeclared).2
      ⟨p', hprofiles, .inr (.inr (Nat.lt_irrefl _))⟩
  unfold Store.record
  rw [write_of_visible hvisible, hp, Option.getD_some]
  dsimp only
  rw [mergeProfile_of_not_replaces hkeep, Option.toList_none, List.append_nil]

theorem Holds.commit_again (h : s.Holds os) {x : Observation}
    (hheld : ∀ o ∈ x.result, o.readAt x.validTime ∈ os)
    (hprofiles : ∀ o ∈ x.result, ∃ p, o.profile = some p ∧ p.reference = o.reference ∧
      p.isDeclared = false) : (s.commit x).1.Holds os ∧ (s.commit x).2 = [] := by
  have hrecords : ∀ os' : List Snapshot, (∀ o ∈ os', o ∈ x.result) →
      os'.foldl (Store.record x.validTime) (s, []) = (s, []) := by
    intro os' hos'
    induction os' with
    | nil => rfl
    | cons o os' ih =>
      obtain ⟨hmem, hrest⟩ := List.forall_mem_cons.1 hos'
      obtain ⟨p, hp, hreference, hdeclared⟩ := hprofiles o hmem
      have hrecord : Store.record x.validTime (s, []) o = (s, []) :=
        record_of_has (h.has _ (hheld o hmem)) hp hreference hdeclared
      rw [List.foldl_cons, hrecord]
      exact ih hrest
  have hresult := hrecords x.result (fun _ ho => ho)
  have hwellFormed := h.wellFormed.commit x
  unfold Store.commit at hwellFormed ⊢
  rw [hresult] at hwellFormed ⊢
  exact ⟨⟨hwellFormed, h.has, h.free⟩, rfl⟩

end Holds

end Store

end ScanGraph
