/-
Observations in either order.

Two observations of one time commute if their objects that have one reference
have one content, and if none of them brings a declared profile.  Each reference
goes through a fold of its own: that of its versions is over one and the same
entity, and of two profiles that are not declared the one with the lower level
makes no difference.  Main statement: `observations_commute`.

## What is asked

Both observations are at one time and are taken by the store in both orders, their
objects of one reference agree, within each of them and between them, and profiles are
none or inherited above the lowest level (`Weak`).  Declared profiles are excluded: of
two of them the last one stays.

## What is proved and what is not

Every reference shows the same at every time, whichever observation came first, and so
do the profiles.  The commits need not be the same: what the first one created, the
second one finds unchanged.  `get_of_observeBoth` and `Commute.last_eq` are the converse
for versions, by which pairs that do not commute are found.
-/
import ScanGraph.Proofs.Store.Again

namespace ScanGraph

/-! ## Objects that agree -/

namespace Snapshot

/-- Objects of one reference have one content. -/
def Agree (os os' : List Snapshot) : Prop :=
  ∀ o ∈ os, ∀ o' ∈ os', o.reference = o'.reference → o.entity = o'.entity

variable {os os' : List Snapshot}

theorem Agree.symm (h : Agree os os') : Agree os' os := by
  intro o ho o' ho' href
  exact (h o' ho' o ho href.symm).symm

theorem Agree.append (h : Agree os os) (hboth : Agree os os') (h' : Agree os' os') :
    Agree (os ++ os') (os ++ os') := by
  intro o ho o' ho'
  rcases List.mem_append.1 ho with ho | ho <;> rcases List.mem_append.1 ho' with ho' | ho'
  · exact h o ho o' ho'
  · exact hboth o ho o' ho'
  · exact hboth.symm o ho o' ho'
  · exact h' o ho o' ho'

end Snapshot

namespace Profile

/-- The profile is none, or inherited above the lowest level. -/
def Weak (p : Profile) : Prop :=
  p = .empty p.reference ∨ p.kind = .inherited ∧ .l0 < p.level

variable {p q : Profile} {r : Reference}

theorem weak_empty (r : Reference) : (empty r).Weak :=
  .inl rfl

theorem Weak.isDeclared (h : p.Weak) : p.isDeclared = false := by
  rcases h with h | ⟨h, -⟩
  · rw [h]
    rfl
  · simp [Profile.isDeclared, h]

theorem Weak.kind_of_lt {l : Level} (h : p.Weak) (hlt : l < p.level) : p.kind = .inherited := by
  rcases h with h | ⟨h, -⟩
  · rw [h] at hlt
    exact absurd hlt (Nat.not_lt_zero _)
  · exact h

theorem Weak.eq_of_level (hp : p.Weak) (hq : q.Weak) (href : p.reference = q.reference)
    (hlevel : p.level = q.level) : p = q := by
  have hkind : p.kind = q.kind := by
    rcases hp with hp | ⟨hp, hpos⟩
    · rcases hq with hq | ⟨-, hpos⟩
      · rw [hp, hq]
        rfl
      · rw [← hlevel, hp] at hpos
        exact absurd hpos (Nat.not_lt_zero _)
    · rw [hp, hq.kind_of_lt (hlevel ▸ hpos)]
  cases p
  cases q
  cases href
  cases hlevel
  cases hkind
  rfl

end Profile

namespace Store

/-! ## The profile of one reference -/

section Merged

variable {p q : Profile} {present : Option Profile}

theorem merged_of_not_replaces (h : replaces p present = false) : merged present p = present := by
  simp [merged, h]

theorem merged_of_lt {o : Profile} (hq : q.Weak) (ho : o.isDeclared = false)
    (hlt : o.level < q.level) : merged (some o) q = some q := by
  simp [merged, replaces, hq.kind_of_lt hlt, ho, hlt]

theorem merged_merged_of_lt (hp : p.Weak) (hq : q.Weak) (hlt : p.level < q.level) :
    merged (merged present p) q = merged present q := by
  cases hreplaces : replaces p present with
  | false => rw [merged_of_not_replaces hreplaces]
  | true =>
    have hfirst : merged present p = some p := by simp [merged, hreplaces]
    rw [hfirst, merged_of_lt hq hp.isDeclared hlt]
    cases present with
    | none => simp [merged, replaces, hq.kind_of_lt hlt]
    | some o =>
      obtain ⟨ho, hraise⟩ := level_lt_of_replaces hp.isDeclared hreplaces
      rw [merged_of_lt hq ho (Nat.lt_trans hraise hlt)]

theorem merged_merged_of_gt (hp : p.Weak) (hq : q.Weak) (hlt : p.level < q.level) :
    merged (merged present q) p = merged present q := by
  refine merged_of_not_replaces ?_
  cases hreplaces : replaces q present with
  | true =>
    have hfirst : merged present q = some q := by simp [merged, hreplaces]
    rw [hfirst]
    exact (replaces_eq_false_iff hp.isDeclared).2
      ⟨q, rfl, .inr (.inr (Nat.not_lt.2 (Nat.le_of_lt hlt)))⟩
  | false =>
    rw [merged_of_not_replaces hreplaces]
    obtain ⟨o, rfl, ho⟩ := (replaces_eq_false_iff hq.isDeclared).1 hreplaces
    refine (replaces_eq_false_iff hp.isDeclared).2 ⟨o, rfl, ?_⟩
    rcases ho with hkind | hdeclared | hlow
    · exact absurd (hkind.symm.trans (hq.kind_of_lt hlt)) (by decide)
    · exact .inr (.inl hdeclared)
    · exact .inr (.inr (fun hraise => hlow (Nat.lt_trans hraise hlt)))

/-- Weak profiles of one reference can be merged in either order. -/
theorem merged_right_comm (hp : p.Weak) (hq : q.Weak) (href : p.reference = q.reference) :
    merged (merged present p) q = merged (merged present q) p := by
  rcases Nat.lt_trichotomy p.level.number q.level.number with hlt | heq | hgt
  · rw [merged_merged_of_lt hp hq hlt, merged_merged_of_gt hp hq hlt]
  · rw [hp.eq_of_level hq href (Level.number_inj heq)]
  · rw [merged_merged_of_lt hq hp hgt, merged_merged_of_gt hq hp hgt]

end Merged

/-! ## Two observations -/

theorem get_congr {s s' : Store} (hversions : s.versions = s'.versions)
    (hprofiles : s.profiles = s'.profiles) (hoffline : s.offline = s'.offline) (r : Reference)
    (t : Instant) : s.get r t = s'.get r t := by
  cases s
  cases s'
  cases hversions
  cases hprofiles
  cases hoffline
  rfl

/-- The store after two observations, if it takes both of them. -/
def observeBoth (s : Store) (a b : Observation) : Except StoreError Store :=
  match s.observe a with
  | .error e => .error e
  | .ok (s, _) => (s.observe b).map Prod.fst

/-- The store takes both observations in either order, and in the end the same is visible. -/
def Commute (s : Store) (a b : Observation) : Prop :=
  ∃ ab ba, s.observeBoth a b = .ok ab ∧ s.observeBoth b a = .ok ba ∧
    ∀ r t, ab.get r t = ba.get r t

section Commute

variable {s : Store} {a b : Observation}

theorem observeBoth_eq_ok_iff {ab : Store} :
    s.observeBoth a b = .ok ab ↔
      ∃ s₁ cs cs', s.observe a = .ok (s₁, cs) ∧ s₁.observe b = .ok (ab, cs') := by
  unfold observeBoth
  cases s.observe a with
  | error _ => simp
  | ok first =>
    obtain ⟨s₁, cs⟩ := first
    cases hsecond : s₁.observe b <;> simp [Except.map, hsecond, Prod.ext_iff]

theorem observeBoth_eq (honline : s.offline = false) (ha : s.Known a.validTime a.source)
    (hb : s.Known b.validTime b.source) :
    s.observeBoth a b = .ok ((s.commit a).1.commit b).1 := by
  have hfirst : s.observe a = .ok ((s.commit a).1, (s.commit a).2) :=
    observe_eq_ok_iff.2 ⟨honline, Option.isSome_iff_exists.2 ha, rfl⟩
  have honline' : (s.commit a).1.offline = false := (commit_offline s a).trans honline
  have hknown := (Call.observe hfirst).known hb
  exact observeBoth_eq_ok_iff.2 ⟨_, _, _, hfirst,
    observe_eq_ok_iff.2 ⟨honline', Option.isSome_iff_exists.2 hknown, rfl⟩⟩

/-- Of the second observation, the last object of a reference is what is seen in the end. -/
theorem get_of_observeBoth {ab : Store} (hordered : s.Ordered) (h : s.observeBoth a b = .ok ab)
    {r : Reference} {e : Entity} (hlast : (entitiesOf r b.result).getLast? = some e) :
    ab.get r b.validTime = .ok (some (ab.snapshot b.validTime r e)) := by
  obtain ⟨s₁, cs, cs', hfirst, hsecond⟩ := observeBoth_eq_ok_iff.1 h
  obtain ⟨-, -, hcommit⟩ := observe_eq_ok_iff.1 hsecond
  have hvisible := visible?_commit (hordered.call (.observe hfirst)) b hlast
  rw [hcommit] at hvisible
  exact guarded_eq_ok_iff.2 ⟨online_of_observe hsecond, by rw [read?, hvisible]; rfl⟩

/-- Of what commutes, the objects that come last for a reference have one content. -/
theorem Commute.last_eq (h : s.Commute a b) (hordered : s.Ordered)
    (htime : a.validTime = b.validTime) {r : Reference} {e e' : Entity}
    (ha : (entitiesOf r a.result).getLast? = some e)
    (hb : (entitiesOf r b.result).getLast? = some e') : e = e' := by
  obtain ⟨ab, ba, hab, hba, hget⟩ := h
  have hsame := hget r b.validTime
  rw [get_of_observeBoth hordered hab hb, ← htime, get_of_observeBoth hordered hba ha] at hsame
  exact (congrArg Snapshot.entity (Option.some.inj (Except.ok.inj hsame))).symm

theorem get?_versions_commit_commit (htime : a.validTime = b.validTime) (r : Reference) :
    ((s.commit a).1.commit b).1.versions.get? r
      = (entitiesOf r (a.result ++ b.result)).foldl (rewritten b.validTime)
          (s.versions.get? r) := by
  have happend : entitiesOf r (a.result ++ b.result)
      = entitiesOf r a.result ++ entitiesOf r b.result := by
    simp [entitiesOf]
  rw [commit_fst_versions, get?_versions_foldl_record, commit_fst_versions,
    get?_versions_foldl_record, htime, happend, List.foldl_append]

theorem get?_profiles_commit_commit (r : Reference) :
    ((s.commit a).1.commit b).1.profiles.get? r
      = (profilesOf r (a.result ++ b.result)).foldl merged (s.profiles.get? r) := by
  have happend : profilesOf r (a.result ++ b.result)
      = profilesOf r a.result ++ profilesOf r b.result := by
    simp [profilesOf]
  rw [commit_fst_profiles, get?_profiles_foldl_record, commit_fst_profiles,
    get?_profiles_foldl_record, happend, List.foldl_append]

/-- Where objects agree, the versions do not depend on the order. -/
theorem versions_commit_comm (hs : s.WellFormed) (htime : a.validTime = b.validTime)
    (hagree : Snapshot.Agree (a.result ++ b.result) (a.result ++ b.result)) :
    ((s.commit a).1.commit b).1.versions = ((s.commit b).1.commit a).1.versions := by
  refine Table.Ascending.ext ((hs.commit a).commit b).versions_ascending
    ((hs.commit b).commit a).versions_ascending ?_
  intro r
  rw [get?_versions_commit_commit htime, get?_versions_commit_commit htime.symm, htime]
  have hperm : (entitiesOf r (a.result ++ b.result)).Perm (entitiesOf r (b.result ++ a.result)) :=
    (List.perm_append_comm.map _).filter _
  -- all entities of one reference are the same, so it does not matter which comes first
  refine hperm.foldl_eq' ?_ _
  intro e he e' he' vs
  obtain ⟨o, ho, rfl, href⟩ := mem_entitiesOf_iff.1 he
  obtain ⟨o', ho', rfl, href'⟩ := mem_entitiesOf_iff.1 he'
  rw [hagree o ho o' ho' (href.trans href'.symm)]

theorem profiles_commit_comm (hs : s.WellFormed)
    (hweak : ∀ o ∈ a.result ++ b.result, (o.profile.getD (.empty o.reference)).Weak) :
    ((s.commit a).1.commit b).1.profiles = ((s.commit b).1.commit a).1.profiles := by
  refine Table.Ascending.ext ((hs.commit a).commit b).profiles_ascending
    ((hs.commit b).commit a).profiles_ascending ?_
  intro r
  rw [get?_profiles_commit_commit, get?_profiles_commit_commit]
  have hperm : (profilesOf r (a.result ++ b.result)).Perm (profilesOf r (b.result ++ a.result)) :=
    (List.perm_append_comm.map _).filter _
  have hmem : ∀ p ∈ profilesOf r (a.result ++ b.result), p.Weak ∧ p.reference = r := by
    intro p hp
    obtain ⟨hp, href⟩ := List.mem_filter.1 hp
    obtain ⟨o, ho, rfl⟩ := List.mem_map.1 hp
    exact ⟨hweak o ho, of_decide_eq_true href⟩
  refine hperm.foldl_eq' ?_ _
  intro p hp q hq present
  obtain ⟨hp, hpr⟩ := hmem p hp
  obtain ⟨hq, hqr⟩ := hmem q hq
  exact merged_right_comm hp hq (hpr.trans hqr.symm)

/-- Observations of one time that agree, and whose profiles are weak, commute. -/
theorem observations_commute (hs : s.WellFormed) (honline : s.offline = false)
    (htime : a.validTime = b.validTime) (ha : s.Known a.validTime a.source)
    (hb : s.Known b.validTime b.source)
    (hagree : Snapshot.Agree (a.result ++ b.result) (a.result ++ b.result))
    (hweak : ∀ o ∈ a.result ++ b.result, (o.profile.getD (.empty o.reference)).Weak) :
    s.Commute a b := by
  refine ⟨_, _, observeBoth_eq honline ha hb, observeBoth_eq honline hb ha, ?_⟩
  intro r t
  have hversions := versions_commit_comm hs htime hagree
  have hprofiles := profiles_commit_comm (a := a) (b := b) hs hweak
  exact get_congr hversions hprofiles (by simp) r t

end Commute

end Store

end ScanGraph
