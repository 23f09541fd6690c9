/-
Observations saved again.

Saving an observation a second time, right after the first, leaves the versions
and the profiles as they are.  It commits nothing exactly if the objects of the
observation that have one reference have one content: `observe_again`.  What an
observation does to the store is a fold over its objects; the objects of other
references do not matter to the versions of a reference, nor to its profile, so
that each of them goes through a fold of its own, and repeating that fold changes
nothing.

## What is asked

The store is reachable and online, and something is visible under the reference of the
source at the time of the observation, without which the observation is refused.

## What is proved

Saved once and once more right after, both times are taken; versions and profiles are
the same after the second time as after the first; and the second time commits nothing
if and only if any two objects of one reference are one object.

## What is not

`observe_again_commits` shows that the condition cannot be dropped: an observation with
two contents for one reference commits both of them each time, as the second one
replaces the first and is replaced in turn.  The list of observations grows each time,
since it keeps what was saved and not what came of it.  With other calls in between
nothing is said.
-/
import ScanGraph.Proofs.Store.Versions
import ScanGraph.Proofs.Table.Canonical

namespace ScanGraph

namespace Store

/-! ## The versions of one reference -/

/-- The versions of a reference, if it has any, after an entity of it was written at `t`. -/
def rewritten (t : Instant) (vs : Option (List Version)) (e : Entity) : Option (List Version) :=
  if vs.bind (latest t) = some e then vs else some (putVersion ⟨t, e⟩ (vs.getD []))

section Rewritten

variable {t : Instant} {e : Entity} {vs : Option (List Version)} {r : Reference}

theorem rewritten_of_visible (h : vs.bind (latest t) = some e) : rewritten t vs e = vs := by
  simp [rewritten, h]

theorem rewritten_of_not_visible (h : vs.bind (latest t) ≠ some e) :
    rewritten t vs e = some (putVersion ⟨t, e⟩ (vs.getD [])) := by
  simp [rewritten, h]

theorem get?_write (s : Store) (e : Entity) (t : Instant) (r : Reference) :
    (s.write e t).1.versions.get? r
      = if e.reference = r then rewritten t (s.versions.get? r) e else s.versions.get? r := by
  split
  · rename_i hr
    subst hr
    by_cases hvisible : s.visible? e.reference t = some e
    · rw [write_of_visible hvisible, rewritten_of_visible hvisible]
    · rw [(write_of_not_visible hvisible).1, Table.get?_insert_self,
        rewritten_of_not_visible hvisible]
      rfl
  · rename_i hr
    rcases write_versions s e t with hv | hv
    · rw [hv]
    · rw [hv, Table.get?_insert_of_ne _ _ (fun h => hr h.symm)]

/-- The entities of a reference among some objects. -/
def entitiesOf (r : Reference) (os : List Snapshot) : List Entity :=
  (os.map Snapshot.entity).filter (fun e => decide (e.reference = r))

theorem get?_versions_foldl_record (t : Instant) (os : List Snapshot) (acc : Store × List Commit)
    (r : Reference) :
    (os.foldl (record t) acc).1.versions.get? r
      = (entitiesOf r os).foldl (rewritten t) (acc.1.versions.get? r) := by
  induction os generalizing acc with
  | nil => rfl
  | cons o os ih =>
    have hstep : (record t acc o).1.versions.get? r
        = if o.entity.reference = r then rewritten t (acc.1.versions.get? r) o.entity
          else acc.1.versions.get? r := by
      rw [record_fst, mergeProfile_versions, get?_write]
    rw [List.foldl_cons, ih, hstep]
    by_cases hr : o.entity.reference = r <;> simp [entitiesOf, hr]

theorem latest_putVersion (e : Entity) {l : List Version} (h : InOrder l) :
    latest t (putVersion ⟨t, e⟩ l) = some e := by
  refine (latest_eq_some_iff (inOrder_putVersion _ h)).2 ⟨⟨t, e⟩, ?_, rfl⟩
  exact ⟨mem_putVersion_self _ _, upTo_refl t, fun _ _ hup => hup⟩

theorem latest_rewritten (h : InOrder (vs.getD [])) :
    (rewritten t vs e).bind (latest t) = some e := by
  by_cases hvisible : vs.bind (latest t) = some e
  · rw [rewritten_of_visible hvisible, hvisible]
  · rw [rewritten_of_not_visible hvisible]
    exact latest_putVersion e h

/-- Of several writes at one time the last one stays, or they were all of what is visible. -/
theorem foldl_rewritten (es : List Entity) (h : InOrder (vs.getD [])) :
    es.foldl (rewritten t) vs = vs ∨
      ∃ e, es.getLast? = some e ∧
        es.foldl (rewritten t) vs = some (putVersion ⟨t, e⟩ (vs.getD [])) := by
  induction es using List.reverseRecOn with
  | nil => exact .inl rfl
  | append_singleton es e ih =>
    rw [List.foldl_concat, List.getLast?_concat]
    by_cases hvisible : (es.foldl (rewritten t) vs).bind (latest t) = some e
    · rw [rewritten_of_visible hvisible]
      rcases ih with ih | ⟨d, -, ih⟩
      · exact .inl ih
      · -- what was put and is visible is what is written now
        rw [ih, Option.bind_some, latest_putVersion d h] at hvisible
        cases hvisible
        exact .inr ⟨e, rfl, ih⟩
    · rw [rewritten_of_not_visible hvisible]
      right
      refine ⟨e, rfl, ?_⟩
      rcases ih with ih | ⟨d, -, ih⟩
      · rw [ih]
      · have hsame : (⟨t, d⟩ : Version).validTime = (⟨t, e⟩ : Version).validTime := rfl
        rw [ih, Option.getD_some, putVersion_putVersion hsame]

theorem foldl_rewritten_twice (es : List Entity) (h : InOrder (vs.getD [])) :
    es.foldl (rewritten t) (es.foldl (rewritten t) vs) = es.foldl (rewritten t) vs := by
  rcases foldl_rewritten (t := t) es h with hfirst | ⟨e, hlast, hfirst⟩
  · rw [hfirst, hfirst]
  · have horder : InOrder ((es.foldl (rewritten t) vs).getD []) := by
      rw [hfirst]
      exact inOrder_putVersion _ h
    rcases foldl_rewritten (t := t) es horder with hagain | ⟨d, hlast', hagain⟩
    · exact hagain
    · rw [hlast] at hlast'
      cases hlast'
      rw [hagain, hfirst, Option.getD_some, putVersion_putVersion rfl]

theorem latest_foldl_rewritten {es : List Entity} (h : InOrder (vs.getD []))
    (hlast : es.getLast? = some e) : (es.foldl (rewritten t) vs).bind (latest t) = some e := by
  obtain ⟨es, rfl⟩ := List.getLast?_eq_some_iff.1 hlast
  rw [List.foldl_concat]
  refine latest_rewritten ?_
  rcases foldl_rewritten (t := t) es h with hfirst | ⟨d, -, hfirst⟩
  · rw [hfirst]
    exact h
  · rw [hfirst]
    exact inOrder_putVersion _ h

end Rewritten

/-! ## The profile of one reference -/

/-- The profile of a reference, if it has one, after another one was merged. -/
def merged (present : Option Profile) (p : Profile) : Option Profile :=
  if replaces p present then some p else present

section Merged

variable {p q : Profile} {present : Option Profile}

theorem get?_mergeProfile (s : Store) (p : Profile) (r : Reference) :
    (s.mergeProfile p).profiles.get? r
      = if p.reference = r then merged (s.profiles.get? r) p else s.profiles.get? r := by
  split
  · rename_i hr
    subst hr
    unfold merged
    cases hrep : replaces p (s.profiles.get? p.reference) with
    | true => rw [mergeProfile_of_replaces hrep, Table.get?_insert_self, if_pos rfl]
    | false =>
      rw [mergeProfile_of_not_replaces hrep]
      rfl
  · rename_i hr
    exact get?_mergeProfile_of_ne (fun h => hr h.symm)

/-- The profiles of a reference that some objects bring. -/
def profilesOf (r : Reference) (os : List Snapshot) : List Profile :=
  (os.map (fun o => o.profile.getD (.empty o.reference))).filter (fun p => decide (p.reference = r))

theorem get?_profiles_foldl_record (t : Instant) (os : List Snapshot) (acc : Store × List Commit)
    (r : Reference) :
    (os.foldl (record t) acc).1.profiles.get? r
      = (profilesOf r os).foldl merged (acc.1.profiles.get? r) := by
  induction os generalizing acc with
  | nil => rfl
  | cons o os ih =>
    rw [List.foldl_cons, ih, record_fst, get?_mergeProfile, write_profiles]
    by_cases hr : (o.profile.getD (.empty o.reference)).reference = r <;> simp [profilesOf, hr]

theorem merged_of_declared (h : p.isDeclared = true) : merged present p = some p := by
  have hkind : p.kind = .declared := eq_of_beq h
  simp [merged, replaces, hkind]

theorem foldl_merged_of_declared {ps : List Profile} (h : ∃ p ∈ ps, p.isDeclared = true)
    (present present' : Option Profile) : ps.foldl merged present = ps.foldl merged present' := by
  induction ps generalizing present present' with
  | nil =>
    obtain ⟨p, hp, -⟩ := h
    exact absurd hp List.not_mem_nil
  | cons q ps ih =>
    by_cases hq : q.isDeclared = true
    · rw [List.foldl_cons, List.foldl_cons, merged_of_declared hq, merged_of_declared hq]
    · obtain ⟨p, hp, hdeclared⟩ := h
      rcases List.mem_cons.1 hp with rfl | hp
      · exact absurd hdeclared hq
      · exact ih ⟨p, hp, hdeclared⟩ _ _

theorem replaces_eq_false_iff (hp : p.isDeclared = false) :
    replaces p present = false ↔
      ∃ o, present = some o ∧ (p.kind = .empty ∨ o.isDeclared = true ∨ ¬ o.level < p.level) := by
  cases present with
  | none => cases hkind : p.kind <;> simp [replaces, hkind]
  | some o =>
    cases hkind : p.kind with
    | empty => simp [replaces, hkind]
    | declared => simp [Profile.isDeclared, hkind] at hp
    | inherited =>
      cases ho : o.isDeclared <;> simp [replaces, hkind, ho]

/-- What takes the place of a profile without being declared raises its level. -/
theorem level_lt_of_replaces {o : Profile} (hq : q.isDeclared = false)
    (h : replaces q (some o) = true) : o.isDeclared = false ∧ o.level < q.level := by
  cases hkind : q.kind with
  | empty => simp [replaces, hkind] at h
  | declared => simp [Profile.isDeclared, hkind] at hq
  | inherited => simpa [replaces, hkind] using h

/-- What does not replace a profile replaces none that takes the place of it either. -/
theorem replaces_merged (hp : p.isDeclared = false) (hq : q.isDeclared = false)
    (h : replaces p present = false) : replaces p (merged present q) = false := by
  unfold merged
  split
  · rename_i hreplaces
    obtain ⟨o, rfl, ho⟩ := (replaces_eq_false_iff hp).1 h
    obtain ⟨hundeclared, hraise⟩ := level_lt_of_replaces hq hreplaces
    refine (replaces_eq_false_iff hp).2 ⟨q, rfl, ?_⟩
    rcases ho with hempty | hdeclared | hlow
    · exact .inl hempty
    · exact absurd (hdeclared.symm.trans hundeclared) (by decide)
    · exact .inr (.inr (fun hlt => hlow (Nat.lt_trans hraise hlt)))
  · exact h

theorem replaces_merged_self (hp : p.isDeclared = false) :
    replaces p (merged present p) = false := by
  unfold merged
  split
  · exact (replaces_eq_false_iff hp).2 ⟨p, rfl, .inr (.inr (Nat.lt_irrefl _))⟩
  · rename_i hreplaces
    exact Bool.eq_false_iff.2 hreplaces

theorem replaces_foldl_merged {ps : List Profile} (hundeclared : ∀ q ∈ ps, q.isDeclared = false)
    (hp : p.isDeclared = false) (h : replaces p present = false) :
    replaces p (ps.foldl merged present) = false := by
  induction ps generalizing present with
  | nil => exact h
  | cons q ps ih =>
    exact ih (fun d hd => hundeclared d (List.mem_cons_of_mem _ hd))
      (replaces_merged hp (hundeclared q List.mem_cons_self) h)

/-- After some profiles were merged none of them replaces what is there, unless it is declared. -/
theorem not_replaces_of_mem {ps : List Profile} (hundeclared : ∀ q ∈ ps, q.isDeclared = false)
    (hp : p ∈ ps) : replaces p (ps.foldl merged present) = false := by
  induction ps generalizing present with
  | nil => exact absurd hp List.not_mem_nil
  | cons q ps ih =>
    have hrest : ∀ d ∈ ps, d.isDeclared = false :=
      fun d hd => hundeclared d (List.mem_cons_of_mem _ hd)
    rcases List.mem_cons.1 hp with rfl | hp
    · have hself : p.isDeclared = false := hundeclared p List.mem_cons_self
      rw [List.foldl_cons]
      exact replaces_foldl_merged hrest hself (replaces_merged_self hself)
    · exact ih hrest hp

theorem foldl_merged_of_not_replaces {ps : List Profile}
    (h : ∀ p ∈ ps, replaces p present = false) : ps.foldl merged present = present := by
  induction ps with
  | nil => rfl
  | cons p ps ih =>
    have hp : merged present p = present := by simp [merged, h p List.mem_cons_self]
    rw [List.foldl_cons, hp]
    exact ih (fun q hq => h q (List.mem_cons_of_mem _ hq))

theorem foldl_merged_twice (ps : List Profile) (present : Option Profile) :
    ps.foldl merged (ps.foldl merged present) = ps.foldl merged present := by
  by_cases h : ∃ p ∈ ps, p.isDeclared = true
  · exact foldl_merged_of_declared h _ _
  · have hundeclared : ∀ p ∈ ps, p.isDeclared = false := by
      intro p hp
      exact Bool.eq_false_iff.2 (fun hdeclared => h ⟨p, hp, hdeclared⟩)
    exact foldl_merged_of_not_replaces (fun p hp => not_replaces_of_mem hundeclared hp)

end Merged

/-! ## What is committed -/

section Commits

variable {t : Instant}

theorem record_snd_eq_nil_iff {acc : Store × List Commit} {o : Snapshot} :
    (record t acc o).2 = [] ↔ acc.2 = [] ∧ acc.1.visible? o.reference t = some o.entity := by
  have hsnd : (record t acc o).2 = acc.2 ++ ((acc.1.write o.entity t).2).toList := rfl
  rw [hsnd, List.append_eq_nil_iff]
  refine and_congr_right (fun _ => ?_)
  constructor
  · intro h
    by_contra hvisible
    obtain ⟨-, c, hc⟩ := write_of_not_visible hvisible
    simp [hc] at h
  · intro h
    rw [write_of_visible h]
    rfl

/-- Objects commit nothing exactly if each of them is visible as it is. -/
theorem foldl_record_snd_eq_nil_iff (os : List Snapshot) (acc : Store × List Commit) :
    (os.foldl (record t) acc).2 = [] ↔
      acc.2 = [] ∧ ∀ o ∈ os, acc.1.visible? o.reference t = some o.entity := by
  induction os generalizing acc with
  | nil => simp
  | cons o os ih =>
    rw [List.foldl_cons, ih, record_snd_eq_nil_iff, List.forall_mem_cons, and_assoc]
    refine and_congr_right (fun _ => and_congr_right (fun hvisible => ?_))
    have hsame : ∀ r, (record t acc o).1.visible? r t = acc.1.visible? r t := by
      intro r
      rw [record_fst, visible?_mergeProfile, write_of_visible hvisible]
    simp only [hsame]

end Commits

/-! ## Saving twice -/

section Twice

variable {s : Store}

theorem commit_fst_versions (s : Store) (o : Observation) :
    (s.commit o).1.versions = (o.result.foldl (record o.validTime) (s, [])).1.versions := rfl

theorem commit_fst_profiles (s : Store) (o : Observation) :
    (s.commit o).1.profiles = (o.result.foldl (record o.validTime) (s, [])).1.profiles := rfl

/-- The versions are the same after an observation was committed twice. -/
theorem versions_commit_commit (hs : s.WellFormed) (hordered : s.Ordered) (o : Observation) :
    ((s.commit o).1.commit o).1.versions = (s.commit o).1.versions := by
  refine Table.Ascending.ext ((hs.commit o).commit o).versions_ascending
    (hs.commit o).versions_ascending ?_
  intro r
  rw [commit_fst_versions, get?_versions_foldl_record, commit_fst_versions,
    get?_versions_foldl_record]
  exact foldl_rewritten_twice _ (hordered r)

/-- The profiles are the same after an observation was committed twice. -/
theorem profiles_commit_commit (hs : s.WellFormed) (o : Observation) :
    ((s.commit o).1.commit o).1.profiles = (s.commit o).1.profiles := by
  refine Table.Ascending.ext ((hs.commit o).commit o).profiles_ascending
    (hs.commit o).profiles_ascending ?_
  intro r
  rw [commit_fst_profiles, get?_profiles_foldl_record, commit_fst_profiles,
    get?_profiles_foldl_record]
  exact foldl_merged_twice _ _

/-- After an observation the last of its objects of a reference is visible. -/
theorem visible?_commit (hordered : s.Ordered) (o : Observation) {r : Reference} {e : Entity}
    (hlast : (entitiesOf r o.result).getLast? = some e) :
    (s.commit o).1.visible? r o.validTime = some e := by
  unfold visible?
  rw [commit_fst_versions, get?_versions_foldl_record]
  exact latest_foldl_rewritten (hordered r) hlast

theorem mem_entitiesOf_iff {r : Reference} {os : List Snapshot} {e : Entity} :
    e ∈ entitiesOf r os ↔ ∃ o ∈ os, o.entity = e ∧ o.reference = r := by
  simp only [entitiesOf, List.mem_filter, List.mem_map, decide_eq_true_eq]
  constructor
  · rintro ⟨⟨o, ho, rfl⟩, hr⟩
    exact ⟨o, ho, rfl, hr⟩
  · rintro ⟨o, ho, rfl, hr⟩
    exact ⟨⟨o, ho, rfl⟩, hr⟩

/-- Committed for the second time, an observation brings a commit only where two of its objects of
one reference differ. -/
theorem commit_commit_snd_eq_nil_iff (hordered : s.Ordered) (o : Observation) :
    ((s.commit o).1.commit o).2 = [] ↔
      ∀ d ∈ o.result, ∀ d' ∈ o.result, d.reference = d'.reference → d.entity = d'.entity := by
  have hcommit : ((s.commit o).1.commit o).2 = [] ↔
      ∀ d ∈ o.result, (s.commit o).1.visible? d.reference o.validTime = some d.entity :=
    (foldl_record_snd_eq_nil_iff o.result ((s.commit o).1, [])).trans (and_iff_right rfl)
  rw [hcommit]
  constructor
  · intro h d hd d' hd' href
    have hsame := (h d hd).symm.trans (href ▸ h d' hd')
    exact Option.some.inj hsame
  · intro h d hd
    have hmem : d.entity ∈ entitiesOf d.reference o.result := mem_entitiesOf_iff.2 ⟨d, hd, rfl, rfl⟩
    obtain ⟨e, hlast⟩ : ∃ e, (entitiesOf d.reference o.result).getLast? = some e :=
      ⟨_, List.getLast?_eq_some_getLast (List.ne_nil_of_mem hmem)⟩
    obtain ⟨d', hd', rfl, href⟩ := mem_entitiesOf_iff.1 (List.mem_of_getLast? hlast)
    rw [visible?_commit hordered o hlast, h d hd d' hd' href.symm]

/-- An observation of a visible source that is saved twice leaves the versions and the profiles as
the first time left them, and commits nothing the second time exactly if its objects of one
reference have one content. -/
theorem observe_again (hs : s.Reachable) (honline : s.offline = false) (o : Observation)
    (hsource : s.Known o.validTime o.source) :
    ∃ s₁ cs₁ s₂ cs₂, s.observe o = .ok (s₁, cs₁) ∧ s₁.observe o = .ok (s₂, cs₂) ∧
      s₂.versions = s₁.versions ∧ s₂.profiles = s₁.profiles ∧
      (cs₂ = [] ↔
        ∀ d ∈ o.result, ∀ d' ∈ o.result, d.reference = d'.reference → d.entity = d'.entity) := by
  have hfirst : s.observe o = .ok ((s.commit o).1, (s.commit o).2) :=
    observe_eq_ok_iff.2 ⟨honline, Option.isSome_iff_exists.2 hsource, rfl⟩
  have honline' : (s.commit o).1.offline = false := (commit_offline s o).trans honline
  have hsource' := (Call.observe hfirst).known hsource
  refine ⟨_, _, _, _, hfirst, observe_eq_ok_iff.2 ⟨honline', Option.isSome_iff_exists.2 hsource',
    rfl⟩, ?_, ?_, ?_⟩
  · exact versions_commit_commit hs.wellFormed hs.ordered o
  · exact profiles_commit_commit hs.wellFormed o
  · exact commit_commit_snd_eq_nil_iff hs.ordered o

namespace Conflicting

def rated (severity : Severity) : Entity :=
  .katFindingType "KAT-X" none (some severity)

def store : Store :=
  holding [rated .low] (.ofSecond 100)

/-- The finding type observed with some severities. -/
def observation (severities : List Severity) : Observation :=
  ⟨"manual", (rated .low).reference, none, .ofSecond 200,
    severities.map (fun severity => .ofEntity (rated severity))⟩

theorem known : store.Known (.ofSecond 200) (rated .low).reference :=
  ⟨rated .low, by decide⟩

/-- Two severities of one finding type are committed each time. -/
theorem observe_again_commits :
    store.Reachable ∧ store.Known (.ofSecond 200) (rated .low).reference ∧
      ∃ s₁ cs₁ s₂ c c', store.observe (observation [.medium, .high]) = .ok (s₁, cs₁) ∧
        s₁.observe (observation [.medium, .high]) = .ok (s₂, [c, c']) :=
  ⟨reachable_holding _ _, known, _, _, _, _, _, rfl, rfl⟩

theorem observe_again_once :
    store.Reachable ∧ store.offline = false ∧
      store.Known (.ofSecond 200) (rated .low).reference ∧
      ∃ s₁ cs₁ s₂, store.observe (observation [.high, .high]) = .ok (s₁, cs₁) ∧
        s₁.observe (observation [.high, .high]) = .ok (s₂, []) ∧ s₂.versions = s₁.versions := by
  refine ⟨reachable_holding _ _, online_holding _ _, known, ?_⟩
  obtain ⟨s₁, cs₁, s₂, cs₂, hfirst, hsecond, hversions, -, hnone⟩ :=
    observe_again (reachable_holding _ _) (online_holding _ _) (observation [.high, .high])
      known
  have hcs : cs₂ = [] := hnone.2 (by decide)
  exact ⟨s₁, cs₁, s₂, hfirst, hcs ▸ hsecond, hversions⟩

end Conflicting

end Twice

end Store

end ScanGraph
