/-
Versions that begin at a time.

Whatever is committed at a time has from then on a version that begins at just
that time.  What is visible at that time is then pinned: writes at other times,
earlier or later ones, do not touch it, and so it only changes with another commit
of the same reference at the same time, `exists_mem_commit_of_visible?_ne`.

## What is proved

* `pinned_of_mem_commit`: whoever commits an object at a time pins its reference there.
* `Call.pinned`: no call takes the version away, whatever it is and whenever it is made.
* `exists_mem_commit_of_visible?_ne`: if an observation changes what is visible at that
  time, one of its commits is for this reference at this time.
  `Pinned.commit_of_visible?_ne` is the same of a single write.

The argument is about the order of versions.  The version that begins at the time is the
newest one not after it, so that a write can only change what is visible there by taking
its place.

## What is asked, and what is not

The versions are in order (`Ordered`), which holds in every reachable store.  Nothing is
said about other times: between two versions, a write of a time in between changes what
is visible without touching either.  Without a pin the statement is false for the same
reason, as a write of an earlier time changes what is visible later on and commits at
its own time only.  Profiles are no part of it, as they have no times.
-/
import ScanGraph.Proofs.Store.Versions

namespace ScanGraph

namespace Store

/-- A version of the reference begins at just that time. -/
def Pinned (s : Store) (r : Reference) (t : Instant) : Prop :=
  ∃ v ∈ s.versionsOf r, v.validTime = t

section Pinned

variable {s s' : Store} {r : Reference} {t t₀ : Instant} {e : Entity}

theorem Ordered.visible?_of_mem (hs : s.Ordered) {v : Version} (hv : v ∈ s.versionsOf r) :
    s.visible? r v.validTime = some v.entity :=
  hs.visible?_eq_some_iff.2 ⟨v, ⟨hv, upTo_refl _, fun _ _ hw => hw⟩, rfl⟩

theorem Pinned.congr (h : s.Pinned r t) (hversions : s'.versions = s.versions) :
    s'.Pinned r t := by
  unfold Pinned versionsOf at h ⊢
  rwa [hversions]

theorem Pinned.write (h : s.Pinned r t) (e : Entity) (t₀ : Instant) :
    (s.write e t₀).1.Pinned r t := by
  by_cases hvisible : s.visible? e.reference t₀ = some e
  · rwa [write_of_visible hvisible]
  · by_cases hr : r = e.reference
    · obtain ⟨v, hv, htime⟩ := h
      subst hr
      obtain ⟨w, hw, htime'⟩ := exists_mem_putVersion (v := ⟨t₀, e⟩) hv
      rw [← versionsOf_write_of_not_visible hvisible] at hw
      exact ⟨w, hw, htime'.trans htime⟩
    · unfold Pinned
      rwa [versionsOf_write_of_ne hr]

theorem pinned_of_write {c : Commit} (h : (s.write e t).2 = some c) :
    (s.write e t).1.Pinned c.reference c.validTime := by
  obtain ⟨hreference, htime⟩ := commit_of_write h
  have hvisible : s.visible? e.reference t ≠ some e := by
    intro hvisible
    rw [write_of_visible hvisible] at h
    cases h
  rw [hreference, htime]
  refine ⟨⟨t, e⟩, ?_, rfl⟩
  rw [versionsOf_write_of_not_visible hvisible]
  exact mem_putVersion_self _ _

/-- What is visible at a time at which a version begins only changes by a write of it at that
time. -/
theorem Pinned.commit_of_visible?_ne (h : s.Pinned r t) (hs : s.Ordered)
    (hne : (s.write e t₀).1.visible? r t ≠ s.visible? r t) :
    ∃ c, (s.write e t₀).2 = some c ∧ c.reference = r ∧ c.validTime = t := by
  have hvisible : s.visible? e.reference t₀ ≠ some e := by
    intro hvisible
    rw [write_of_visible hvisible] at hne
    exact hne rfl
  have hr : r = e.reference := by
    by_contra hr
    exact hne (visible?_write_of_ne hr t)
  obtain ⟨c, hc⟩ := (write_of_not_visible hvisible).2
  obtain ⟨hreference, htime⟩ := commit_of_write hc
  refine ⟨c, hc, hreference.trans hr.symm, htime.trans ?_⟩
  by_contra hother
  obtain ⟨v, hv, rfl⟩ := h
  subst hr
  have hkept : v ∈ (s.write e t₀).1.versionsOf e.reference := by
    rw [versionsOf_write_of_not_visible hvisible, mem_putVersion_iff (hs _)]
    exact .inr ⟨hv, fun heq => hother heq.symm⟩
  exact hne (((hs.write e t₀).visible?_of_mem hkept).trans (hs.visible?_of_mem hv).symm)

/-! ## Observations -/

theorem Pinned.foldl_record {acc : Store × List Commit} (h : acc.1.Pinned r t)
    (os : List Snapshot) : (os.foldl (record t₀) acc).1.Pinned r t :=
  foldl_record_induction (motive := fun s => s.Pinned r t) t₀ os acc h
    (fun _ o _ hs => (hs.write o.entity t₀).congr (mergeProfile_versions _ _))

theorem mem_foldl_record_of_mem {os : List Snapshot} {acc : Store × List Commit} {c : Commit}
    (hc : c ∈ acc.2) : c ∈ (os.foldl (record t) acc).2 := by
  induction os generalizing acc with
  | nil => exact hc
  | cons o os ih => exact ih (List.mem_append_left _ hc)

theorem pinned_foldl_record {os : List Snapshot} {acc : Store × List Commit} {c : Commit}
    (hc : c ∈ (os.foldl (record t) acc).2) :
    c ∈ acc.2 ∨ (os.foldl (record t) acc).1.Pinned c.reference c.validTime := by
  induction os generalizing acc with
  | nil => exact .inl hc
  | cons o os ih =>
    rcases ih hc with hfirst | hrest
    · rcases List.mem_append.1 hfirst with hold | hnew
      · exact .inl hold
      · have hwritten : (record t acc o).1.Pinned c.reference c.validTime :=
          (pinned_of_write (Option.mem_toList.1 hnew)).congr (mergeProfile_versions _ _)
        exact .inr (hwritten.foldl_record os)
    · exact .inr hrest

theorem pinned_of_mem_commit {o : Observation} {c : Commit} (hc : c ∈ (s.commit o).2) :
    (s.commit o).1.Pinned c.reference c.validTime :=
  ((pinned_foldl_record hc).resolve_left List.not_mem_nil).congr rfl

theorem exists_mem_foldl_record {os : List Snapshot} {acc : Store × List Commit}
    (h : acc.1.Pinned r t) (hs : acc.1.Ordered)
    (hne : (os.foldl (record t₀) acc).1.visible? r t ≠ acc.1.visible? r t) :
    ∃ c ∈ (os.foldl (record t₀) acc).2, c.reference = r ∧ c.validTime = t := by
  induction os generalizing acc with
  | nil => exact absurd rfl hne
  | cons o os ih =>
    have hversions : (record t₀ acc o).1.versions = (acc.1.write o.entity t₀).1.versions :=
      mergeProfile_versions _ _
    have hrecorded : (record t₀ acc o).1.visible? r t = (acc.1.write o.entity t₀).1.visible? r t := by
      unfold visible?
      rw [hversions]
    by_cases hsame : (record t₀ acc o).1.visible? r t = acc.1.visible? r t
    · exact ih ((h.write o.entity t₀).congr hversions) ((hs.write o.entity t₀).congr hversions)
        (fun heq => hne (heq.trans hsame))
    · rw [hrecorded] at hsame
      obtain ⟨c, hc, hcommit⟩ := h.commit_of_visible?_ne hs hsame
      have hfirst : c ∈ (record t₀ acc o).2 := List.mem_append_right _ (Option.mem_toList.2 hc)
      have hall : c ∈ (os.foldl (record t₀) (record t₀ acc o)).2 := mem_foldl_record_of_mem hfirst
      exact ⟨c, hall, hcommit⟩

/-- What is visible of a reference at a time at which a version of it begins only changes by a
commit of it at that time. -/
theorem exists_mem_commit_of_visible?_ne {o : Observation} (h : s.Pinned r t) (hs : s.Ordered)
    (hne : (s.commit o).1.visible? r t ≠ s.visible? r t) :
    ∃ c ∈ (s.commit o).2, c.reference = r ∧ c.validTime = t := by
  have hstart : (s, ([] : List Commit)).1.Pinned r t := h
  exact exists_mem_foldl_record hstart hs hne

/-- Whatever is called, a version that begins at a time does not go without another. -/
theorem Call.pinned (hcall : s.Call s') (h : s.Pinned r t) : s'.Pinned r t :=
  hcall.keeps (motive := fun s => s.Pinned r t) (fun _ e t₀ hs => hs.write e t₀)
    (fun _ _ hversions hs => hs.congr hversions) h

end Pinned

end Store

end ScanGraph
