/-
What a write does over time.

A write at a time is seen from that time on, until the next version of the object
begins: `Written` says so of everything that can be read afterwards, and which commit
the write is reported by.  Every object that is put into a store is written in this
sense, and so is every object of an observation that is taken, one after the other:
`writes_over_time`.

What is said is about the objects.  Profiles have no history, so that the profile an
object brings shows at every time at once, and under whatever reference it stands.

## What is asked

The store is reachable.  Insertion further asks that it is online, and an observation
that it was taken.

## What is proved

The versions of a reference ascend strictly and stand under it.  What is put into the
store is written: it is read from its time on until the next version of its reference,
everything else is read as before, and the commit says which of created and updated it
is, or there is none if the content was already visible.  And an observation writes its
objects one after the other, with their commits in the same order.

## What is not

Versions are no archive: a write at the time of an existing version takes its place, and
what it held is gone.  What an observation does to profiles is `Store.Declared`.
-/
import ScanGraph.Proofs.Store.Arrival

namespace ScanGraph

namespace Store

/-! ## The newest version, with one put in its place -/

section Newest

variable {t : Instant} {u v : Version} {vs : List Version}

/-- A version stays the newest if the one that is put is later than the time, or before it. -/
theorem Newest.put (h : InOrder vs) (hu : Newest t vs u)
    (hv : v.validTime.upTo t = true → v.validTime.before u.validTime = true) :
    Newest t (putVersion v vs) u where
  mem := by
    refine (mem_putVersion_iff h).2 (.inr ⟨hu.mem, ?_⟩)
    intro heq
    exact Instant.ne_of_before (hv (heq ▸ hu.upTo)) heq.symm
  upTo := hu.upTo
  greatest := by
    intro w hw hup
    rcases mem_putVersion hw with rfl | hw
    · exact Instant.upTo_of_before (hv hup)
    · exact hu.greatest w hw hup

/-- A version that is the newest, but is not the one that was put, was the newest before. -/
theorem Newest.of_put (h : InOrder vs) (hu : Newest t (putVersion v vs) u) (hne : u ≠ v) :
    Newest t vs u where
  mem := (mem_putVersion hu.mem).resolve_left hne
  upTo := hu.upTo
  greatest := by
    intro w hw hup
    by_cases htime : w.validTime = v.validTime
    · -- the version that is put takes the place of this one, and is no newer than `u` either
      rw [htime] at hup ⊢
      exact hu.greatest v (mem_putVersion_self v vs) hup
    · exact hu.greatest w ((mem_putVersion_iff h).2 (.inr ⟨hw, htime⟩)) hup

theorem newest_putVersion_of_before (h : InOrder vs) (ht : t.before v.validTime = true) :
    Newest t (putVersion v vs) u ↔ Newest t vs u := by
  have hlate : v.validTime.upTo t = false := Instant.not_upTo_iff.2 ht
  constructor
  · intro hu
    refine hu.of_put h ?_
    rintro rfl
    rw [hu.upTo] at hlate
    cases hlate
  · intro hu
    refine hu.put h (fun hup => ?_)
    rw [hup] at hlate
    cases hlate

theorem newest_putVersion_of_overlaid (h : InOrder vs)
    (hnext : ∃ w ∈ vs, v.validTime.before w.validTime = true ∧ w.validTime.upTo t = true) :
    Newest t (putVersion v vs) u ↔ Newest t vs u := by
  obtain ⟨w, hw, hafter, hup⟩ := hnext
  constructor
  · intro hu
    refine hu.of_put h ?_
    rintro rfl
    have hkept : w ∈ putVersion u vs :=
      (mem_putVersion_iff h).2 (.inr ⟨hw, (Instant.ne_of_before hafter).symm⟩)
    have hle := hu.greatest w hkept hup
    exact absurd (hle.symm.trans (Instant.not_upTo_iff.2 hafter)) (by decide)
  · intro hu
    refine hu.put h (fun _ => ?_)
    rcases Instant.upTo_iff.1 (hu.greatest w hw hup) with hbefore | heq
    · exact Instant.before_trans hafter hbefore
    · exact heq ▸ hafter

theorem newest_putVersion_self (ht : v.validTime.upTo t = true)
    (hnone : ∀ w ∈ vs, v.validTime.before w.validTime = true → w.validTime.upTo t = false) :
    Newest t (putVersion v vs) v where
  mem := mem_putVersion_self v vs
  upTo := ht
  greatest := by
    intro w hw hup
    rcases mem_putVersion hw with rfl | hw
    · exact upTo_refl _
    · refine Instant.not_before_iff.1 (Bool.eq_false_iff.2 (fun hafter => ?_))
      rw [hnone w hw hafter] at hup
      cases hup

theorem Newest.later {t₀ : Instant} (hu : Newest t₀ vs u) (ht : t₀.upTo t = true)
    (hnone : ∀ w ∈ vs, t₀.before w.validTime = true → w.validTime.upTo t = false) :
    Newest t vs u where
  mem := hu.mem
  upTo := Instant.upTo_trans hu.upTo ht
  greatest := by
    intro w hw hup
    refine hu.greatest w hw (Instant.not_before_iff.1 (Bool.eq_false_iff.2 (fun hafter => ?_)))
    rw [hnone w hw hafter] at hup
    cases hup

end Newest

/-! ## What is visible after a write -/

section Visible

variable {s s' : Store} {e : Entity} {t t' : Instant}

/-- A version of the entity begins after `t` and not after `t'`. -/
def Overlaid (s : Store) (r : Reference) (t t' : Instant) : Prop :=
  ∃ v ∈ s.versionsOf r, t.before v.validTime = true ∧ v.validTime.upTo t' = true

theorem not_overlaid_iff {r : Reference} : ¬ s.Overlaid r t t' ↔
    ∀ v ∈ s.versionsOf r, t.before v.validTime = true → v.validTime.upTo t' = false := by
  unfold Overlaid
  simp only [not_exists, not_and, Bool.not_eq_true]

theorem not_overlaid_self {r : Reference} : ¬ s.Overlaid r t t := by
  rintro ⟨v, -, hafter, hup⟩
  exact absurd (hup.symm.trans (Instant.not_upTo_iff.2 hafter)) (by decide)

/-- Where a write makes no difference to which version is the newest, it makes none to what is
visible. -/
theorem Ordered.visible?_write_congr (hs : s.Ordered)
    (h : ∀ u, Newest t' (putVersion ⟨t, e⟩ (s.versionsOf e.reference)) u
      ↔ Newest t' (s.versionsOf e.reference) u) :
    (s.write e t).1.visible? e.reference t' = s.visible? e.reference t' := by
  by_cases hvisible : s.visible? e.reference t = some e
  · rw [write_of_visible hvisible]
  · apply Option.ext
    intro d
    rw [(hs.write e t).visible?_eq_some_iff, hs.visible?_eq_some_iff,
      versionsOf_write_of_not_visible hvisible]
    simp only [h]

theorem Ordered.visible?_write_of_before (hs : s.Ordered) (ht : t'.before t = true) :
    (s.write e t).1.visible? e.reference t' = s.visible? e.reference t' :=
  hs.visible?_write_congr (fun _ => newest_putVersion_of_before (hs _) ht)

theorem Ordered.visible?_write_of_overlaid (hs : s.Ordered)
    (hnext : s.Overlaid e.reference t t') :
    (s.write e t).1.visible? e.reference t' = s.visible? e.reference t' :=
  hs.visible?_write_congr (fun _ => newest_putVersion_of_overlaid (hs _) hnext)

theorem Ordered.visible?_write_self (hs : s.Ordered) (ht : t.upTo t' = true)
    (hnone : ¬ s.Overlaid e.reference t t') :
    (s.write e t).1.visible? e.reference t' = some e := by
  by_cases hvisible : s.visible? e.reference t = some e
  · obtain ⟨u, hu, he⟩ := hs.visible?_eq_some_iff.1 hvisible
    rw [write_of_visible hvisible]
    exact hs.visible?_eq_some_iff.2 ⟨u, hu.later ht (not_overlaid_iff.1 hnone), he⟩
  · rw [(hs.write e t).visible?_eq_some_iff, versionsOf_write_of_not_visible hvisible]
    exact ⟨⟨t, e⟩, newest_putVersion_self ht (not_overlaid_iff.1 hnone), rfl⟩

end Visible

theorem WellFormed.reference_of_version {s : Store} (hs : s.WellFormed) (r : Reference) :
    ∀ v ∈ s.versionsOf r, v.entity.reference = r := by
  intro v hv
  unfold versionsOf at hv
  cases hget : s.versions.get? r with
  | none =>
    rw [hget] at hv
    exact absurd hv List.not_mem_nil
  | some vs =>
    rw [hget] at hv
    exact hs.version_reference r vs hget v hv

/-! ## Writes -/

/-- An entity was written at `t`: from then on it is read until the next version of its reference,
nothing else is changed, and the commit says what it replaced, if anything. -/
structure Written (s : Store) (e : Entity) (t : Instant) (s' : Store) (c : Option Commit) :
    Prop where
  present : s'.entityAt e.reference t = .ok (some e)
  others : ∀ r, r ≠ e.reference → ∀ t', s'.entityAt r t' = s.entityAt r t'
  earlier : ∀ t', t'.before t = true → s'.entityAt e.reference t' = s.entityAt e.reference t'
  later : ∀ t', t.before t' = true → ¬ s.Overlaid e.reference t t' →
    s'.entityAt e.reference t' = .ok (some e)
  overlaid : ∀ t', t.before t' = true → s.Overlaid e.reference t t' →
    s'.entityAt e.reference t' = s.entityAt e.reference t'
  confirmed : s.entityAt e.reference t = .ok (some e) → c = none
  created : s.entityAt e.reference t = .ok none → c = some (.of .created e.reference t)
  updated : ∀ old, s.entityAt e.reference t = .ok (some old) → old ≠ e →
    c = some (.of .updated e.reference t)

section Written

variable {s s' : Store} {e : Entity} {t : Instant}

theorem write_snd (s : Store) (e : Entity) (t : Instant) :
    (s.write e t).2 = (s.change? e t).map (fun kind => .of kind e.reference t) := by
  unfold write
  cases s.change? e t <;> rfl

/-- A store that has the versions that writing an entity leads to was written to. -/
theorem written_of_write (hs : s.Ordered) (honline : s.offline = false)
    (honline' : s'.offline = false) (hversions : s'.versions = (s.write e t).1.versions) :
    s.Written e t s' (s.write e t).2 := by
  have hread : ∀ r t', s'.entityAt r t' = .ok ((s.write e t).1.visible? r t') := by
    intro r t'
    rw [entityAt_of_online honline']
    unfold visible?
    rw [hversions]
  have hread₀ : ∀ r t', s.entityAt r t' = .ok (s.visible? r t') :=
    fun r t' => entityAt_of_online honline r t'
  refine {
    present := ?_
    others := ?_
    earlier := ?_
    later := ?_
    overlaid := ?_
    confirmed := ?_
    created := ?_
    updated := ?_ }
  · rw [hread, hs.visible?_write_self (upTo_refl t) not_overlaid_self]
  · intro r hr t'
    rw [hread, hread₀, visible?_write_of_ne hr]
  · intro t' ht
    rw [hread, hread₀, hs.visible?_write_of_before ht]
  · intro t' ht hnone
    rw [hread, hs.visible?_write_self (Instant.upTo_of_before ht) hnone]
  · intro t' _ hnext
    rw [hread, hread₀, hs.visible?_write_of_overlaid hnext]
  · intro h
    rw [hread₀, Except.ok.injEq] at h
    rw [write_snd, change?_eq_none_iff.2 h]
    rfl
  · intro h
    rw [hread₀, Except.ok.injEq] at h
    rw [write_snd, change?, h]
    rfl
  · intro old h hne
    rw [hread₀, Except.ok.injEq] at h
    rw [write_snd, change?, h]
    simp [hne]

/-- An object that is put into a store that can be reached is written. -/
theorem Reachable.insert_written (hs : s.Reachable) (honline : s.offline = false) (o : Snapshot)
    (t : Instant) :
    ∃ s' c, s.insert o t = .ok (s', c) ∧ s.Written o.entity t s' c := by
  have hinsert : s.insert o t = .ok (s.put o t) := guarded_eq_ok_iff.2 ⟨honline, rfl⟩
  have hwritten : s.Written o.entity t (s.put o t).1 (s.write o.entity t).2 :=
    written_of_write hs.ordered honline (by rw [put_offline, honline]) (put_versions s o t)
  rw [← put_snd] at hwritten
  exact ⟨_, _, hinsert, hwritten⟩

end Written

end Store

def Observation.first (o : Observation) (n : Nat) : Observation :=
  { o with result := o.result.take n }

namespace Store

section Observations

variable {s s' : Store} {o : Observation} {cs : List Commit}

/-- A store that takes an observation takes it with fewer objects as well. -/
theorem observe_first (h : s.observe o = .ok (s', cs)) (n : Nat) :
    s.observe (o.first n) = .ok (s.commit (o.first n)) := by
  obtain ⟨honline, hsource, -⟩ := observe_eq_ok_iff.1 h
  exact observe_eq_ok_iff.2 ⟨honline, hsource, rfl⟩

/-- What a write does to the versions hangs on the versions alone. -/
theorem write_congr {s₀ : Store} (h : s₀.versions = s.versions) (e : Entity) (t : Instant) :
    (s₀.write e t).1.versions = (s.write e t).1.versions ∧
      (s₀.write e t).2 = (s.write e t).2 := by
  have hchange : s₀.change? e t = s.change? e t := by
    unfold change? visible?
    rw [h]
  unfold write
  rw [hchange]
  cases s.change? e t with
  | none => exact ⟨h, rfl⟩
  | some kind => exact ⟨by simp only [h], rfl⟩

theorem commit_first_succ {n : Nat} (hn : n < o.result.length) :
    (s.commit (o.first (n + 1))).1.versions
        = ((s.commit (o.first n)).1.write (o.result[n]).entity o.validTime).1.versions ∧
      (s.commit (o.first (n + 1))).2 = (s.commit (o.first n)).2
        ++ ((s.commit (o.first n)).1.write (o.result[n]).entity o.validTime).2.toList := by
  let acc := (o.result.take n).foldl (record o.validTime) (s, [])
  have hfold : (o.result.take (n + 1)).foldl (record o.validTime) (s, [])
      = record o.validTime acc o.result[n] := by
    rw [List.take_add_one, List.getElem?_eq_getElem hn, List.foldl_append]
    rfl
  have hacc : (s.commit (o.first n)).1.versions = acc.1.versions := rfl
  obtain ⟨hversions, hcommit⟩ := write_congr hacc (o.result[n]).entity o.validTime
  rw [hversions, hcommit]
  constructor
  · have hkept : (s.commit (o.first (n + 1))).1.versions
        = (((o.result.take (n + 1)).foldl (record o.validTime) (s, [])).1).versions := rfl
    rw [hkept, hfold, record_fst, mergeProfile_versions]
  · have hkept : (s.commit (o.first (n + 1))).2
        = ((o.result.take (n + 1)).foldl (record o.validTime) (s, [])).2 := rfl
    rw [hkept, hfold]
    rfl

/-- Every object of an observation that is taken is written after those before it. -/
theorem Reachable.written_of_observe (hs : s.Reachable) (h : s.observe o = .ok (s', cs)) {n : Nat}
    (hn : n < o.result.length) :
    ∃ s₁ cs₁ s₂ c, s.observe (o.first n) = .ok (s₁, cs₁) ∧
      s.observe (o.first (n + 1)) = .ok (s₂, cs₁ ++ c.toList) ∧
      s₁.Written (o.result[n]).entity o.validTime s₂ c := by
  obtain ⟨hversions, hcommits⟩ := commit_first_succ (s := s) hn
  have hbefore := observe_first h n
  have hafter := observe_first h (n + 1)
  have hordered : (s.commit (o.first n)).1.Ordered := (Reachable.observe hs hbefore).ordered
  have hwritten : (s.commit (o.first n)).1.Written (o.result[n]).entity o.validTime
      (s.commit (o.first (n + 1))).1
      ((s.commit (o.first n)).1.write (o.result[n]).entity o.validTime).2 :=
    written_of_write hordered (online_of_observe hbefore) (online_of_observe hafter) hversions
  refine ⟨(s.commit (o.first n)).1, (s.commit (o.first n)).2, (s.commit (o.first (n + 1))).1, _,
    hbefore, ?_, hwritten⟩
  rw [hafter, ← hcommits]

end Observations

/-- In a reachable store the versions of a reference ascend strictly in time and stand under their
own reference; whatever is put into it is written, and so is every object of an observation that it
takes, after the objects before it. -/
theorem writes_over_time {s : Store} (hs : s.Reachable) :
    (∀ r, InOrder (s.versionsOf r) ∧ ∀ v ∈ s.versionsOf r, v.entity.reference = r) ∧
    (∀ o t, s.offline = false → ∃ s' c, s.insert o t = .ok (s', c) ∧ s.Written o.entity t s' c) ∧
    ∀ o s' cs, s.observe o = .ok (s', cs) → o.first o.result.length = o ∧
      ∀ n (hn : n < o.result.length), ∃ s₁ cs₁ s₂ c,
        s.observe (o.first n) = .ok (s₁, cs₁) ∧
        s.observe (o.first (n + 1)) = .ok (s₂, cs₁ ++ c.toList) ∧
        s₁.Written (o.result[n]).entity o.validTime s₂ c := by
  refine ⟨?_, ?_, ?_⟩
  · intro r
    exact ⟨hs.ordered r, hs.wellFormed.reference_of_version r⟩
  · intro o t honline
    exact hs.insert_written honline o t
  · intro o s' cs h
    refine ⟨?_, fun n hn => hs.written_of_observe h hn⟩
    unfold Observation.first
    rw [List.take_length]

namespace Amended

/-- A finding type with a description. -/
def described (text : String) : Entity :=
  .katFindingType "KAT-X" (some text) none

/-- The reference of that finding type. -/
def type : Reference :=
  (described "first").reference

/-- The store after a description was written at 100 seconds, and another one at 300. -/
def store : Store :=
  ((Store.empty.put (.ofEntity (described "first")) (.ofSecond 100)).1.put
    (.ofEntity (described "last")) (.ofSecond 300)).1

/-- An observation on the finding type that finds another description at 200 seconds. -/
def observation : Observation :=
  ⟨"amend", type, none, .ofSecond 200, [.ofEntity (described "between")]⟩

theorem reachable : store.Reachable :=
  .insert (o := .ofEntity (described "last")) (t := .ofSecond 300)
    (.insert (o := .ofEntity (described "first")) (t := .ofSecond 100) .empty rfl) rfl

/-- What is written in between is read until the next version, and changes nothing before. -/
theorem writes_over_time_between :
    store.Reachable ∧ store.offline = false ∧
      (∃ s', store.insert (.ofEntity (described "between")) (.ofSecond 200)
          = .ok (s', some (.of .updated type (.ofSecond 200))) ∧
        s'.entityAt type (.ofSecond 150) = .ok (some (described "first")) ∧
        s'.entityAt type (.ofSecond 250) = .ok (some (described "between")) ∧
        s'.entityAt type (.ofSecond 300) = .ok (some (described "last"))) ∧
      ∃ s' cs, store.observe observation = .ok (s', cs) ∧
        s'.entityAt type (.ofSecond 200) = .ok (some (described "between")) := by
  obtain ⟨-, hinsert, hobserve⟩ := writes_over_time reachable
  refine ⟨reachable, by decide, ?_, ?_⟩
  · obtain ⟨s', c, hput, hwritten⟩ :=
      hinsert (.ofEntity (described "between")) (.ofSecond 200) (by decide)
    have hnext : store.Overlaid type (.ofSecond 200) (.ofSecond 300) :=
      ⟨⟨.ofSecond 300, described "last"⟩, by decide, by decide, by decide⟩
    have hnone : ¬ store.Overlaid type (.ofSecond 200) (.ofSecond 250) :=
      not_overlaid_iff.2 (by decide)
    have hcommit : c = some (.of .updated type (.ofSecond 200)) :=
      hwritten.updated (described "first") (by decide) (by decide)
    refine ⟨s', hcommit ▸ hput, ?_, ?_, ?_⟩
    · exact (hwritten.earlier (.ofSecond 150) (by decide)).trans (by decide)
    · exact hwritten.later (.ofSecond 250) (by decide) hnone
    · exact (hwritten.overlaid (.ofSecond 300) (by decide) hnext).trans (by decide)
  · obtain ⟨-, hwrites⟩ := hobserve observation _ _ rfl
    obtain ⟨s₁, cs₁, s₂, c, -, hafter, hwritten⟩ := hwrites 0 (by decide)
    exact ⟨s₂, _, hafter, hwritten.present⟩

end Amended

end Store

end ScanGraph
