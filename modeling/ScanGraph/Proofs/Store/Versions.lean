/-
Versions in the order of their times.

The versions of a reference ascend in time in every reachable store, whatever the
order in which they were written.  What is visible at a time can then be said
without any order: it is the version with the greatest time not after it,
`latest_eq_some_iff`.

## What is proved

In every reachable store the versions of each reference strictly ascend
(`Reachable.ordered`), and `Ordered.visible?_eq_some_iff` says what is visible at a time
without mentioning lists: an entity that has a version of greatest time among those not
after it.  `mem_putVersion_iff` says what putting a version does, and the lemmas on
`write` when it does so.

## What is not

Two times are the same if neither is before the other.  Instants with a leap second are
ordered by their parts like all others, so that no two different ones are the same.
Nothing is said about which of several writes at one time is kept; that is
`Store.Again`.
-/
import Mathlib.Data.List.Induction
import ScanGraph.Proofs.Store.Lasting

namespace ScanGraph

namespace Instant

/-! ## Order of instants -/

variable {a b c : Instant}

theorem upTo_iff : a.upTo b = true ↔ a.before b = true ∨ a = b := by
  obtain ⟨as, an⟩ := a
  obtain ⟨bs, bn⟩ := b
  simp only [upTo, before, decide_eq_true_eq, Instant.mk.injEq]
  omega

theorem not_upTo_iff : a.upTo b = false ↔ b.before a = true := by
  simp only [upTo, before, decide_eq_true_eq, decide_eq_false_iff_not]
  omega

theorem not_before_iff : a.before b = false ↔ b.upTo a = true := by
  simp only [upTo, before, decide_eq_true_eq, decide_eq_false_iff_not]
  omega

theorem upTo_of_before (h : a.before b = true) : a.upTo b = true :=
  upTo_iff.2 (.inl h)

theorem ne_of_before (h : a.before b = true) : a ≠ b := by
  rintro rfl
  simp [before] at h

theorem before_trans (hab : a.before b = true) (hbc : b.before c = true) :
    a.before c = true := by
  simp only [before, decide_eq_true_eq] at *
  omega

theorem upTo_antisymm (hab : a.upTo b = true) (hba : b.upTo a = true) : a = b := by
  rcases upTo_iff.1 hab with h | h
  · exact absurd (hba.symm.trans (not_upTo_iff.2 h)) (by decide)
  · exact h

/-- Of two instants that differ, the one that is not before the other is after it. -/
theorem before_of_not_before (hne : a ≠ b) (h : a.before b = false) : b.before a = true := by
  rcases upTo_iff.1 (not_before_iff.1 h) with hba | hba
  · exact hba
  · exact absurd hba.symm hne

end Instant

namespace Store

/-- Versions of which each is before all that follow it. -/
def InOrder (vs : List Version) : Prop :=
  vs.Pairwise (fun v w => v.validTime.before w.validTime = true)

/-- A version is the one of greatest time not after `t` among some versions, in whatever order
these are. -/
structure Newest (t : Instant) (vs : List Version) (v : Version) : Prop where
  mem : v ∈ vs
  upTo : v.validTime.upTo t = true
  greatest : ∀ w ∈ vs, w.validTime.upTo t = true → w.validTime.upTo v.validTime = true

section Order

variable {t : Instant} {v w : Version} {vs ws : List Version} {e : Entity}

/-- Whether a version is the newest is a matter of which versions there are. -/
theorem Newest.congr (h : Newest t vs v) (hmem : ∀ w, w ∈ vs ↔ w ∈ ws) : Newest t ws v where
  mem := (hmem v).1 h.mem
  upTo := h.upTo
  greatest := fun w hw => h.greatest w ((hmem w).2 hw)

/-! ## Putting a version in its place -/

theorem inOrder_putVersion (v : Version) (h : InOrder vs) : InOrder (putVersion v vs) := by
  induction vs with
  | nil => exact List.pairwise_singleton _ _
  | cons u rest ih =>
    obtain ⟨hhead, hrest⟩ := List.pairwise_cons.1 h
    simp only [putVersion]
    split
    · rename_i htime
      exact List.pairwise_cons.2 ⟨fun w hw => htime ▸ hhead w hw, hrest⟩
    · rename_i htime
      split
      · rename_i hbefore
        refine List.pairwise_cons.2 ⟨fun w hw => ?_, h⟩
        rcases List.mem_cons.1 hw with rfl | hw
        · exact hbefore
        · exact Instant.before_trans hbefore (hhead w hw)
      · rename_i hnot
        have hafter : u.validTime.before v.validTime = true :=
          Instant.before_of_not_before (fun heq => htime heq.symm) (Bool.eq_false_iff.2 hnot)
        refine List.pairwise_cons.2 ⟨fun w hw => ?_, ih hrest⟩
        rcases mem_putVersion hw with rfl | hw
        · exact hafter
        · exact hhead w hw

/-- What is put takes the place of the version of its time and leaves the others. -/
theorem mem_putVersion_iff (h : InOrder vs) :
    w ∈ putVersion v vs ↔ w = v ∨ w ∈ vs ∧ w.validTime ≠ v.validTime := by
  induction vs with
  | nil => simp [putVersion]
  | cons u rest ih =>
    obtain ⟨hhead, hrest⟩ := List.pairwise_cons.1 h
    simp only [putVersion]
    split
    · rename_i htime
      -- the version of that time is the head, so none of the others has it
      have hothers : ∀ w ∈ rest, w.validTime ≠ v.validTime := by
        intro w hw
        exact htime ▸ (Instant.ne_of_before (hhead w hw)).symm
      simp only [List.mem_cons]
      constructor
      · rintro (hw | hw)
        · exact .inl hw
        · exact .inr ⟨.inr hw, hothers w hw⟩
      · rintro (hw | ⟨rfl | hw, hne⟩)
        · exact .inl hw
        · exact absurd htime hne
        · exact .inr hw
    · rename_i htime
      split
      · rename_i hbefore
        have hothers : ∀ w ∈ u :: rest, w.validTime ≠ v.validTime := by
          intro w hw
          rcases List.mem_cons.1 hw with rfl | hw
          · exact htime
          · exact (Instant.ne_of_before (Instant.before_trans hbefore (hhead w hw))).symm
        rw [List.mem_cons]
        exact or_congr_right (and_iff_left_of_imp (hothers w)).symm
      · rw [List.mem_cons, List.mem_cons, ih hrest]
        constructor
        · rintro (rfl | hw | ⟨hw, hne⟩)
          · exact .inr ⟨.inl rfl, htime⟩
          · exact .inl hw
          · exact .inr ⟨.inr hw, hne⟩
        · rintro (hw | ⟨rfl | hw, hne⟩)
          · exact .inr (.inl hw)
          · exact .inl rfl
          · exact .inr (.inr ⟨hw, hne⟩)

/-- Of two versions of one time that are put after each other the second one stays. -/
theorem putVersion_putVersion (h : v.validTime = w.validTime) (vs : List Version) :
    putVersion w (putVersion v vs) = putVersion w vs := by
  induction vs with
  | nil => simp [putVersion, h]
  | cons u rest ih =>
    by_cases htime : u.validTime = v.validTime
    · simp [putVersion, htime, h]
    · by_cases hbefore : v.validTime.before u.validTime = true
      · simp [putVersion, h, h ▸ htime, h ▸ hbefore]
      · have hpast : ∀ x : Version, x.validTime = v.validTime → ∀ l,
            putVersion x (u :: l) = u :: putVersion x l := by
          intro x hx l
          simp [putVersion, hx, htime, hbefore]
        rw [hpast v rfl, hpast w h.symm, hpast w h.symm, ih]

/-! ## The latest version -/

theorem latest_concat (vs : List Version) (v : Version) (t : Instant) :
    latest t (vs ++ [v]) = if v.validTime.upTo t then some v.entity else latest t vs := by
  unfold latest
  rw [List.reverse_append]
  cases hup : v.validTime.upTo t <;> simp [hup]

theorem latest_eq_some_iff (h : InOrder vs) :
    latest t vs = some e ↔ ∃ v, Newest t vs v ∧ v.entity = e := by
  induction vs using List.reverseRecOn with
  | nil => exact ⟨fun h => absurd h.symm (Option.some_ne_none e), fun ⟨_, h, _⟩ =>
      absurd h.mem List.not_mem_nil⟩
  | append_singleton vs v ih =>
    obtain ⟨hinit, -, hlast⟩ := List.pairwise_append.1 h
    have hbelow : ∀ w ∈ vs, w.validTime.before v.validTime = true :=
      fun w hw => hlast w hw v List.mem_cons_self
    rw [latest_concat]
    split
    · rename_i hup
      constructor
      · rintro ⟨⟩
        refine ⟨v, ⟨List.mem_append_right _ List.mem_cons_self, hup, fun w hw _ => ?_⟩, rfl⟩
        rcases List.mem_append.1 hw with hw | hw
        · exact Instant.upTo_of_before (hbelow w hw)
        · exact List.mem_singleton.1 hw ▸ upTo_refl _
      · rintro ⟨u, hu, rfl⟩
        rcases List.mem_append.1 hu.mem with hmem | hmem
        · have hge := hu.greatest v (List.mem_append_right _ List.mem_cons_self) hup
          exact absurd (hge.symm.trans (Instant.not_upTo_iff.2 (hbelow u hmem))) (by decide)
        · rw [List.mem_singleton.1 hmem]
    · rename_i hup
      rw [ih hinit]
      constructor
      · rintro ⟨u, hu, rfl⟩
        refine ⟨u, ⟨List.mem_append_left _ hu.mem, hu.upTo, fun w hw hwt => ?_⟩, rfl⟩
        rcases List.mem_append.1 hw with hw | hw
        · exact hu.greatest w hw hwt
        · exact absurd (List.mem_singleton.1 hw ▸ hwt) hup
      · rintro ⟨u, hu, rfl⟩
        refine ⟨u, ⟨?_, hu.upTo, fun w hw => hu.greatest w (List.mem_append_left _ hw)⟩, rfl⟩
        rcases List.mem_append.1 hu.mem with hmem | hmem
        · exact hmem
        · exact absurd (List.mem_singleton.1 hmem ▸ hu.upTo) hup

end Order

/-! ## The versions of a reference -/

/-- The versions of a reference; none if it was never written. -/
def versionsOf (s : Store) (r : Reference) : List Version :=
  (s.versions.get? r).getD []

section Versions

variable {s s' : Store} {r : Reference} {t : Instant} {e : Entity}

theorem visible?_eq_latest (s : Store) (r : Reference) (t : Instant) :
    s.visible? r t = latest t (s.versionsOf r) := by
  unfold visible? versionsOf
  cases s.versions.get? r <;> rfl

theorem versionsOf_write_of_ne (h : r ≠ e.reference) :
    (s.write e t).1.versionsOf r = s.versionsOf r := by
  unfold versionsOf
  rcases write_versions s e t with hv | hv
  · rw [hv]
  · rw [hv, Table.get?_insert_of_ne _ _ h]

/-- Nothing is changed exactly if the entity is what is visible already. -/
theorem change?_eq_none_iff : s.change? e t = none ↔ s.visible? e.reference t = some e := by
  unfold change?
  cases s.visible? e.reference t with
  | none => simp
  | some old => by_cases h : old = e <;> simp [h]

theorem write_of_visible (h : s.visible? e.reference t = some e) : s.write e t = (s, none) := by
  unfold write
  rw [change?_eq_none_iff.2 h]

theorem write_of_not_visible (h : s.visible? e.reference t ≠ some e) :
    (s.write e t).1.versions
        = s.versions.insert e.reference (putVersion ⟨t, e⟩ (s.versionsOf e.reference)) ∧
      ∃ c, (s.write e t).2 = some c := by
  unfold write
  cases hchange : s.change? e t with
  | none => exact absurd (change?_eq_none_iff.1 hchange) h
  | some kind => exact ⟨rfl, _, rfl⟩

theorem versionsOf_write_of_not_visible (h : s.visible? e.reference t ≠ some e) :
    (s.write e t).1.versionsOf e.reference = putVersion ⟨t, e⟩ (s.versionsOf e.reference) := by
  show ((s.write e t).1.versions.get? e.reference).getD [] = _
  rw [(write_of_not_visible h).1, Table.get?_insert_self]
  rfl

/-- The versions of every reference are in order. -/
def Ordered (s : Store) : Prop :=
  ∀ r, InOrder (s.versionsOf r)

theorem ordered_empty : Store.empty.Ordered :=
  fun _ => List.Pairwise.nil

theorem Ordered.congr (h : s.Ordered) (hversions : s'.versions = s.versions) : s'.Ordered := by
  intro r
  unfold versionsOf
  rw [hversions]
  exact h r

theorem Ordered.write (h : s.Ordered) (e : Entity) (t : Instant) : (s.write e t).1.Ordered := by
  intro r
  by_cases hr : r = e.reference
  · rw [hr]
    by_cases hvisible : s.visible? e.reference t = some e
    · rw [write_of_visible hvisible]
      exact h _
    · rw [versionsOf_write_of_not_visible hvisible]
      exact inOrder_putVersion _ (h _)
  · rw [versionsOf_write_of_ne hr]
    exact h r

theorem Ordered.call (h : s.Ordered) (hcall : s.Call s') : s'.Ordered :=
  hcall.keeps (fun _ e t hs => hs.write e t) (fun _ _ hversions hs => hs.congr hversions) h

theorem Reachable.ordered (h : s.Reachable) : s.Ordered := by
  induction h with
  | empty => exact ordered_empty
  | insert _ hcall ih => exact ih.call (.insert hcall)
  | observe _ hcall ih => exact ih.call (.observe hcall)
  | declare _ hcall ih => exact ih.call (.declare hcall)
  | recalculate _ hcall ih => exact ih.call (.recalculate hcall)
  | switch offline _ ih => exact ih.call (.switch offline)

theorem Ordered.visible?_eq_some_iff (h : s.Ordered) :
    s.visible? r t = some e ↔ ∃ v, Newest t (s.versionsOf r) v ∧ v.entity = e := by
  rw [visible?_eq_latest, latest_eq_some_iff (h r)]

end Versions

end Store

end ScanGraph
