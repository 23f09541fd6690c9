/-
Writes that arrive in any order of their times.

Writes of one reference need not reach the store in the order of their times.  A
write is passed over if the entity is what is visible at its time when it
arrives, and is taken otherwise; what is visible afterwards is the newest write
that was taken.  That is the newest write of all, but for one that was passed
over when it arrived and that a later arrival came in front of: `get_of_arrived`.

## What is asked

The store was empty and is online, and the writes of the reference are at different
times.  Writes of other references may be anything, and a write may be alone or one of an
observation.

## What is proved

There is a list of the writes that were taken (`Taken`), such that at every time what is
found is the newest of these; and it has the entity of the newest of all, unless that
one was passed over and then overtaken.  Where no write is so early, nothing is found.

## What is not

`get_differs_from_newest` shows that the exception is real: a content that is confirmed
later on is passed over, and a write of a time in between then takes its place at the
time of the confirmation too.  Two writes at one time replace each other, the one that
arrives last being the one that stays.
-/
import Mathlib.Data.List.Nodup
import ScanGraph.Proofs.Store.Versions

namespace ScanGraph

namespace Store

/-- What was written to a store that was empty, the last to arrive first. -/
inductive Arrived : List Version → Store → Prop
  | start : Arrived [] .empty
  | insert {ws : List Version} {s s' : Store} {o : Snapshot} {t : Instant} {c : Option Commit} :
      Arrived ws s → s.insert o t = .ok (s', c) → Arrived (⟨t, o.entity⟩ :: ws) s'
  | observe {ws : List Version} {s s' : Store} {o : Observation} {cs : List Commit} :
      Arrived ws s → s.observe o = .ok (s', cs) →
      Arrived ((o.result.map (fun d => ⟨o.validTime, d.entity⟩)).reverse ++ ws) s'
  | declare {ws : List Version} {s s' : Store} {r : Reference} {l : Level} {t : Instant} :
      Arrived ws s → s.declare r l t = .ok s' → Arrived ws s'
  | recalculate {ws : List Version} {s s' : Store} {t : Instant} {rs : List Reference} :
      Arrived ws s → s.recalculateProfiles t = .ok (s', rs) → Arrived ws s'
  | switch {ws : List Version} {s : Store} (offline : Bool) :
      Arrived ws s → Arrived ws { s with offline := offline }

def writesTo (r : Reference) (ws : List Version) : List Version :=
  ws.filter (fun w => decide (w.entity.reference = r))

/-- Of some writes, the last to arrive first, those that were taken: a write is passed over if the
newest one at its time, among those taken before it, is of the same entity. -/
inductive Taken : List Version → List Version → Prop
  | nil : Taken [] []
  | passed {ws ks : List Version} {u w : Version} :
      Taken ws ks → Newest w.validTime ks u → u.entity = w.entity → Taken (w :: ws) ks
  | taken {ws ks : List Version} {w : Version} :
      Taken ws ks → (∀ u, Newest w.validTime ks u → u.entity ≠ w.entity) →
      Taken (w :: ws) (w :: ks)

/-- A write was passed over as it repeats another one, and a write of a time between the two arrived
later. -/
def Overtaken (ws : List Version) (w : Version) : Prop :=
  ∃ later earlier ks u v, ws = later ++ w :: earlier ∧ Taken earlier ks ∧
    Newest w.validTime ks u ∧ u.entity = w.entity ∧
    v ∈ later ∧ u.validTime.before v.validTime = true ∧ v.validTime.before w.validTime = true

/-! ## Writes that were taken -/

namespace Taken

variable {ws ks : List Version} {t : Instant} {w : Version}

theorem sublist (h : Taken ws ks) : ks.Sublist ws := by
  induction h with
  | nil => exact List.Sublist.slnil
  | passed _ _ _ ih => exact ih.cons _
  | taken _ _ ih => exact ih.cons_cons _

theorem exists_upTo (h : Taken ws ks) (hw : w ∈ ws) :
    ∃ k ∈ ks, k.validTime.upTo w.validTime = true := by
  induction h with
  | nil => exact absurd hw List.not_mem_nil
  | @passed ws ks u w' _ hu _ ih =>
    rcases List.mem_cons.1 hw with rfl | hw
    · exact ⟨u, hu.mem, hu.upTo⟩
    · exact ih hw
  | @taken ws ks w' _ _ ih =>
    rcases List.mem_cons.1 hw with rfl | hw
    · exact ⟨w, List.mem_cons_self, upTo_refl _⟩
    · obtain ⟨k, hk, hup⟩ := ih hw
      exact ⟨k, List.mem_cons_of_mem _ hk, hup⟩

/-- A write in the middle was taken, or it was passed over and what else was taken arrived later. -/
theorem split {later earlier : List Version} (h : Taken (later ++ w :: earlier) ks) :
    w ∈ ks ∨ ∃ ks₀ more u, ks = more ++ ks₀ ∧ more.Sublist later ∧ Taken earlier ks₀ ∧
      Newest w.validTime ks₀ u ∧ u.entity = w.entity := by
  induction later generalizing ks with
  | nil =>
    cases h with
    | @passed _ _ u _ hearlier hu he =>
      exact .inr ⟨ks, [], u, rfl, List.Sublist.slnil, hearlier, hu, he⟩
    | taken => exact .inl List.mem_cons_self
  | cons x later ih =>
    cases h with
    | passed hrest =>
      rcases ih hrest with hw | ⟨ks₀, more, u, hks, hmore, hearlier⟩
      · exact .inl hw
      · exact .inr ⟨ks₀, more, u, hks, hmore.cons x, hearlier⟩
    | taken hrest =>
      rcases ih hrest with hw | ⟨ks₀, more, u, rfl, hmore, hearlier⟩
      · exact .inl (List.mem_cons_of_mem _ hw)
      · exact .inr ⟨ks₀, x :: more, u, rfl, hmore.cons_cons x, hearlier⟩

/-- The newest write has the entity of the newest one that was taken, unless it was overtaken. -/
theorem entity_eq (h : Taken ws ks) (hdistinct : (ws.map Version.validTime).Nodup)
    (hw : Newest t ws w) {v : Version} (hv : Newest t ks v) (hover : ¬ Overtaken ws w) :
    v.entity = w.entity := by
  -- versions of one time among the writes are one version
  have hone : ∀ x ∈ ws, ∀ y ∈ ws, x.validTime = y.validTime → x = y :=
    fun x hx y hy hxy => List.inj_on_of_nodup_map hdistinct hx hy hxy
  obtain ⟨later, earlier, rfl⟩ := List.append_of_mem hw.mem
  have hwv : v.validTime.upTo w.validTime = true :=
    hw.greatest v (h.sublist.subset hv.mem) hv.upTo
  rcases h.split with hmem | ⟨ks₀, more, u, rfl, hmore, hearlier, hu, he⟩
  · have hvw := hv.greatest w hmem hw.upTo
    rw [hone v (h.sublist.subset hv.mem) w hw.mem (Instant.upTo_antisymm hwv hvw)]
  · -- nothing that was taken stands between the repeated version and the newest write
    have huv : u.validTime.upTo v.validTime = true :=
      hv.greatest u (List.mem_append_right _ hu.mem) (Instant.upTo_trans hu.upTo hw.upTo)
    have hvu : v.validTime.upTo u.validTime = true := by
      rcases List.mem_append.1 hv.mem with hmem | hmem
      · have hlater : v ∈ later := hmore.subset hmem
        rcases Instant.upTo_iff.1 hwv with hbefore | heq
        · cases hbetween : u.validTime.before v.validTime with
          | true =>
            exact absurd ⟨later, earlier, ks₀, u, v, rfl, hearlier, hu, he, hlater, hbetween,
              hbefore⟩ hover
          | false => exact Instant.not_before_iff.1 hbetween
        · have hvw : v = w := hone v (List.mem_append_left _ hlater) w hw.mem heq
          have hnot : v.validTime ∉ (w :: earlier).map Version.validTime := by
            rw [List.map_append] at hdistinct
            exact fun hin => (List.nodup_append.1 hdistinct).2.2 _
              (List.mem_map_of_mem hlater) _ hin rfl
          exact absurd (hvw ▸ List.mem_map_of_mem List.mem_cons_self) hnot
      · exact hu.greatest v hmem hwv
    have hsame : v.validTime = u.validTime := Instant.upTo_antisymm hvu huv
    have hmemu : u ∈ later ++ w :: earlier :=
      List.mem_append_right _ (List.mem_cons_of_mem _ (hearlier.sublist.subset hu.mem))
    rw [hone v (h.sublist.subset hv.mem) u hmemu hsame, he]

end Taken

/-! ## What the store holds of the writes -/

/-- The versions of a reference are the writes to it that were taken. -/
structure Tracks (s : Store) (r : Reference) (ws ks : List Version) : Prop where
  ordered : s.Ordered
  taken : Taken (writesTo r ws) ks
  mem_iff : ∀ v, v ∈ s.versionsOf r ↔ v ∈ ks

section Tracks

variable {s s' : Store} {r : Reference} {ws ks : List Version}

theorem Tracks.congr (h : s.Tracks r ws ks) (hversions : s'.versions = s.versions) :
    s'.Tracks r ws ks where
  ordered := h.ordered.congr hversions
  taken := h.taken
  mem_iff := by
    intro v
    unfold versionsOf
    rw [hversions]
    exact h.mem_iff v

theorem Tracks.visible?_eq_some_iff (h : s.Tracks r ws ks) {t : Instant} {e : Entity} :
    s.visible? r t = some e ↔ ∃ v, Newest t ks v ∧ v.entity = e := by
  rw [h.ordered.visible?_eq_some_iff]
  constructor
  · rintro ⟨v, hv, he⟩
    exact ⟨v, hv.congr h.mem_iff, he⟩
  · rintro ⟨v, hv, he⟩
    exact ⟨v, hv.congr (fun v => (h.mem_iff v).symm), he⟩

theorem Tracks.write (h : s.Tracks r ws ks) (w : Version)
    (hdistinct : ((writesTo r (w :: ws)).map Version.validTime).Nodup) :
    ∃ ks', (s.write w.entity w.validTime).1.Tracks r (w :: ws) ks' := by
  by_cases hr : w.entity.reference = r
  · have hwrites : writesTo r (w :: ws) = w :: writesTo r ws := by simp [writesTo, hr]
    rw [hwrites, List.map_cons, List.nodup_cons] at hdistinct
    by_cases hvisible : s.visible? r w.validTime = some w.entity
    · obtain ⟨u, hu, he⟩ := h.visible?_eq_some_iff.1 hvisible
      refine ⟨ks, ?_⟩
      rw [write_of_visible (hr.symm ▸ hvisible)]
      exact ⟨h.ordered, hwrites ▸ h.taken.passed hu he, h.mem_iff⟩
    · have hpassed : ∀ u, Newest w.validTime ks u → u.entity ≠ w.entity :=
        fun u hu he => hvisible (h.visible?_eq_some_iff.2 ⟨u, hu, he⟩)
      refine ⟨w :: ks, h.ordered.write _ _, hwrites ▸ h.taken.taken hpassed, fun v => ?_⟩
      have hput : (s.write w.entity w.validTime).1.versionsOf r
          = putVersion w (s.versionsOf r) := by
        subst hr
        exact versionsOf_write_of_not_visible hvisible
      -- no write that was taken before has the time of this one, so none gives way to it
      have hfresh : ∀ v ∈ ks, v.validTime ≠ w.validTime := fun v hv heq =>
        hdistinct.1 (heq ▸ List.mem_map_of_mem (h.taken.sublist.subset hv))
      rw [hput, mem_putVersion_iff (h.ordered r), h.mem_iff, List.mem_cons]
      exact or_congr_right (and_iff_left_of_imp (hfresh v))
  · have hwrites : writesTo r (w :: ws) = writesTo r ws := by simp [writesTo, hr]
    refine ⟨ks, h.ordered.write _ _, hwrites ▸ h.taken, fun v => ?_⟩
    rw [versionsOf_write_of_ne (fun heq => hr heq.symm)]
    exact h.mem_iff v

/-- The objects of an observation are written one after the other. -/
theorem Tracks.foldl_record {t : Instant} (os : List Snapshot) (acc : Store × List Commit)
    (h : acc.1.Tracks r ws ks)
    (hdistinct : ((writesTo r ((os.map (fun d => (⟨t, d.entity⟩ : Version))).reverse ++ ws)).map
      Version.validTime).Nodup) :
    ∃ ks', (os.foldl (record t) acc).1.Tracks r
      ((os.map (fun d => ⟨t, d.entity⟩)).reverse ++ ws) ks' := by
  induction os generalizing acc ws ks with
  | nil => exact ⟨ks, h⟩
  | cons d os ih =>
    rw [List.map_cons, List.reverse_cons, List.append_assoc, List.singleton_append] at hdistinct ⊢
    have hhead : ((writesTo r (⟨t, d.entity⟩ :: ws)).map Version.validTime).Nodup := by
      refine hdistinct.sublist (List.Sublist.map _ (List.Sublist.filter _ ?_))
      exact List.sublist_append_right _ _
    obtain ⟨ks', hwritten⟩ := h.write ⟨t, d.entity⟩ hhead
    exact ih (record t acc d) (hwritten.congr (mergeProfile_versions _ _)) hdistinct

theorem exists_tracks (h : Arrived ws s)
    (hdistinct : ((writesTo r ws).map Version.validTime).Nodup) : ∃ ks, s.Tracks r ws ks := by
  induction h with
  | start => exact ⟨[], ordered_empty, .nil, fun v => Iff.rfl⟩
  | @insert ws s s' o t c _ hcall ih =>
    obtain ⟨-, hput⟩ := guarded_eq_ok_iff.1 hcall
    have hs' : (s.put o t).1 = s' := congrArg Prod.fst (Except.ok.inj hput)
    have hrest : ((writesTo r ws).map Version.validTime).Nodup :=
      hdistinct.sublist (List.Sublist.map _ (List.Sublist.filter _ (List.sublist_cons_self _ _)))
    obtain ⟨ks, hks⟩ := ih hrest
    obtain ⟨ks', hwritten⟩ := hks.write ⟨t, o.entity⟩ hdistinct
    exact ⟨ks', hwritten.congr (hs' ▸ put_versions s o t)⟩
  | @observe ws s s' o cs _ hcall ih =>
    obtain ⟨-, -, hcommit⟩ := observe_eq_ok_iff.1 hcall
    have hs' : (s.commit o).1 = s' := congrArg Prod.fst hcommit
    have hrest : ((writesTo r ws).map Version.validTime).Nodup :=
      hdistinct.sublist (List.Sublist.map _ (List.Sublist.filter _ (List.sublist_append_right _ _)))
    obtain ⟨ks, hks⟩ := ih hrest
    obtain ⟨ks', hfold⟩ := Tracks.foldl_record o.result (s, []) hks hdistinct
    exact ⟨ks', hs' ▸ hfold.congr rfl⟩
  | @declare ws s s' r' l t _ hcall ih =>
    obtain ⟨-, -, rfl⟩ := declare_eq_ok_iff.1 hcall
    obtain ⟨ks, hks⟩ := ih hdistinct
    exact ⟨ks, hks.congr (mergeProfile_versions _ _)⟩
  | @recalculate ws s s' t rs _ hcall ih =>
    obtain ⟨-, hrecalculate⟩ := guarded_eq_ok_iff.1 hcall
    have hs' : (s.recalculate t).1 = s' := congrArg Prod.fst (Except.ok.inj hrecalculate)
    obtain ⟨ks, hks⟩ := ih hdistinct
    exact ⟨ks, hs' ▸ hks.congr rfl⟩
  | switch offline _ ih =>
    obtain ⟨ks, hks⟩ := ih hdistinct
    exact ⟨ks, hks.congr rfl⟩

end Tracks

/-! ## Reading -/

/-- The entity that a store answers for a reference at a time. -/
def entityAt (s : Store) (r : Reference) (t : Instant) : Except StoreError (Option Entity) :=
  (s.get r t).map (Option.map Snapshot.entity)

theorem entityAt_of_online {s : Store} (h : s.offline = false) (r : Reference) (t : Instant) :
    s.entityAt r t = .ok (s.visible? r t) := by
  unfold entityAt get guarded read?
  rw [h]
  cases s.visible? r t <;> rfl

/-- After writes of a reference at distinct times, in whatever order they arrived, nothing is found
where no write is so early, and otherwise the newest write that was taken; it has the entity of the
newest write of all, unless that one was overtaken. -/
theorem get_of_arrived {ws : List Version} {s : Store} (h : Arrived ws s)
    (honline : s.offline = false) (r : Reference)
    (hdistinct : ((writesTo r ws).map Version.validTime).Nodup) :
    ∃ ks, Taken (writesTo r ws) ks ∧ ∀ t,
      ((∀ w ∈ writesTo r ws, w.validTime.upTo t = false) → s.entityAt r t = .ok none) ∧
      ∀ w, Newest t (writesTo r ws) w →
        ∃ v, Newest t ks v ∧ s.entityAt r t = .ok (some v.entity) ∧
          (¬ Overtaken (writesTo r ws) w → v.entity = w.entity) := by
  obtain ⟨ks, hks⟩ := exists_tracks h hdistinct
  refine ⟨ks, hks.taken, fun t => ⟨fun hnone => ?_, fun w hw => ?_⟩⟩
  · rw [entityAt_of_online honline]
    cases hvisible : s.visible? r t with
    | none => rfl
    | some e =>
      obtain ⟨v, hv, -⟩ := hks.visible?_eq_some_iff.1 hvisible
      have hlate := hnone v (hks.taken.sublist.subset hv.mem)
      exact absurd (hv.upTo.symm.trans hlate) (by decide)
  · -- some write that was taken is not after `w`, so something is visible
    obtain ⟨k, hk, hup⟩ := hks.taken.exists_upTo hw.mem
    have hknown : s.Known t r := by
      unfold Known
      rw [visible?_eq_latest]
      exact exists_latest_iff.2
        ⟨k, (hks.mem_iff k).2 hk, Instant.upTo_trans hup hw.upTo⟩
    obtain ⟨e, he⟩ := hknown
    obtain ⟨v, hv, rfl⟩ := hks.visible?_eq_some_iff.1 he
    refine ⟨v, hv, ?_, fun hover => hks.taken.entity_eq hdistinct hw hv hover⟩
    rw [entityAt_of_online honline, he]

namespace Backdated

/-- A finding type with a description. -/
def described (text : String) : Entity :=
  .katFindingType "KAT-X" (some text) none

/-- The reference of that finding type. -/
def type : Reference :=
  (described "old").reference

/-- The finding type as it is written at a second. -/
def write (second : Int) (text : String) : Version :=
  ⟨.ofSecond second, described text⟩

/-- The writes, the last to arrive first: a description is confirmed later on, and then another one
of a time in between arrives. -/
def writes : List Version :=
  [write 200 "new", write 300 "old", write 100 "old"]

/-- The store that the writes lead to. -/
def store : Store :=
  writes.foldr (fun w s => (s.put (.ofEntity w.entity) w.validTime).1) .empty

theorem arrived : Arrived writes store :=
  .insert (o := .ofEntity (described "new")) (.insert (o := .ofEntity (described "old"))
    (.insert (o := .ofEntity (described "old")) .start rfl) rfl) rfl

theorem newest : Newest (.ofSecond 300) (writesTo type writes) (write 300 "old") where
  mem := by decide
  upTo := by decide
  greatest := by decide

/-- The confirmed description is not found at the time of its confirmation. -/
theorem get_differs_from_newest :
    Arrived writes store ∧ store.offline = false ∧
      ((writesTo type writes).map Version.validTime).Nodup ∧
      Newest (.ofSecond 300) (writesTo type writes) (write 300 "old") ∧
      store.entityAt type (.ofSecond 300) = .ok (some (described "new")) ∧
      described "new" ≠ (write 300 "old").entity :=
  ⟨arrived, by decide, by decide, newest, by decide, by decide⟩

theorem newest_between : Newest (.ofSecond 250) (writesTo type writes) (write 200 "new") where
  mem := by decide
  upTo := by decide
  greatest := by decide

theorem not_overtaken_last : ¬ Overtaken (writesTo type writes) (write 200 "new") := by
  rintro ⟨later, earlier, ks, u, v, heq, -, -, -, hv, -, -⟩
  have hwrites : writesTo type writes = [write 200 "new", write 300 "old", write 100 "old"] := by
    decide
  rw [hwrites] at heq
  cases later with
  | nil => exact absurd hv List.not_mem_nil
  | cons x later =>
    have htail : [write 300 "old", write 100 "old"] = later ++ write 200 "new" :: earlier :=
      (List.cons.inj heq).2
    have hmem : write 200 "new" ∈ [write 300 "old", write 100 "old"] :=
      htail ▸ List.mem_append_right _ List.mem_cons_self
    exact absurd hmem (by decide)

def earlier : Store :=
  [write 300 "old", write 100 "old"].foldr
    (fun w s => (s.put (.ofEntity w.entity) w.validTime).1) .empty

/-- The last write as an observation on the finding type. -/
def observation : Observation :=
  ⟨"manual", type, none, .ofSecond 200, [.ofEntity (described "new")]⟩

/-- The store if the last write is that observation. -/
def observed : Store :=
  (earlier.commit observation).1

theorem arrived_observed : Arrived writes observed :=
  .observe (o := observation) (.insert (o := .ofEntity (described "old"))
    (.insert (o := .ofEntity (described "old")) .start rfl) rfl) rfl

theorem get_of_arrived_backdated :
    ((writesTo type writes).map Version.validTime).Nodup ∧
      (Arrived writes store ∧ store.offline = false ∧
        store.entityAt type (.ofSecond 250) = .ok (some (described "new"))) ∧
      Arrived writes observed ∧ observed.offline = false ∧
        observed.entityAt type (.ofSecond 250) = .ok (some (described "new")) := by
  have hdistinct : ((writesTo type writes).map Version.validTime).Nodup := by decide
  have hfound : ∀ s, Arrived writes s → s.offline = false →
      s.entityAt type (.ofSecond 250) = .ok (some (described "new")) := by
    intro s hs honline
    obtain ⟨ks, -, hreads⟩ := get_of_arrived hs honline type hdistinct
    obtain ⟨v, -, hread, hsame⟩ := (hreads (.ofSecond 250)).2 _ newest_between
    rw [hread, hsame not_overtaken_last]
    rfl
  have honline : store.offline = false := by decide
  have honline' : observed.offline = false := by decide
  exact ⟨hdistinct, ⟨arrived, honline, hfound _ arrived honline⟩,
    arrived_observed, honline', hfound _ arrived_observed honline'⟩

end Backdated

end Store

end ScanGraph
