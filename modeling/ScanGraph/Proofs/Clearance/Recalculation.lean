/-
Implied clearance and recalculated clearance.

Recalculating propagates from the declared levels over all visible objects.
More objects bring more walks, so what was recalculated stays at least as high
when new objects are committed.  What a source implies for new objects is
propagated over these alone; it survives a recalculation along every walk that
enters no declared object, since only those stop walks that the source did not
see stopped.  Main statement: `implied_level_survives`.

## What is asked

The store was recalculated just before, the source is visible, and the objects are found
at the same time, have references of their own and are new to the store, with neither a
version that is visible nor a profile.  Of the objects nothing else is asked; they may
refer to each other, to the source and to anything that is stored.

## What is proved and what is not

Nothing is lower after the next recalculation, with the one exception named.  The
exception is real: `implied_level_lowered` is a store in which an address with a
declared level stops the walk by which a port got its own.  It is needed only for new
objects, and of them only where every walk that carries the level enters a declared
object.

Other writes between the commit and the recalculation are not considered, nor is a
source that is declared anew.
-/
import ScanGraph.Proofs.Clearance.Implied
import ScanGraph.Proofs.Clearance.Propagation
import ScanGraph.Proofs.Store.Reachable

namespace ScanGraph

namespace ClearanceGraph

theorem edges_ofEntities_subset {es es' : List Entity} (h : es ⊆ es') :
    (ofEntities es).edges ⊆ (ofEntities es').edges := by
  intro e he
  obtain ⟨x, hx, hex⟩ := List.mem_flatMap.1 he
  exact List.mem_flatMap.2 ⟨x, h hx, hex⟩

end ClearanceGraph

namespace Store

/-! ## The levels after a recalculation -/

/-- The graph of the objects visible at `t`. -/
def graph (s : Store) (t : Instant) : ClearanceGraph :=
  .ofEntities ((s.visible t).map Prod.snd)

section Recalculate

variable {s s' : Store} {t : Instant} {r : Reference} {e : Entity} {l : Level}

theorem WellFormed.edges_graph_subset (hs : s.WellFormed) (hs' : s'.WellFormed)
    (h : ∀ r e, s.visible? r t = some e → s'.visible? r t = some e) :
    (s.graph t).edges ⊆ (s'.graph t).edges := by
  refine ClearanceGraph.edges_ofEntities_subset (fun e he => ?_)
  obtain ⟨⟨r, e⟩, hmem, rfl⟩ := List.mem_map.1 he
  exact List.mem_map_of_mem (hs'.mem_visible_iff.2 (h r e (hs.mem_visible_iff.1 hmem)))

theorem profileOf_congr (h : s'.profiles.get? r = s.profiles.get? r) :
    s'.profileOf r = s.profileOf r := by
  unfold profileOf
  rw [h]

/-- A visible object without a declared profile gets the level that is carried to it. -/
theorem WellFormed.level_recalculate (hs : s.WellFormed)
    (hdeclared : s.declaredLevels.get? r = none) (hvisible : s.visible? r t = some e) :
    ((s.recalculate t).1.profileOf r).level = ((s.carriedLevels t).get? r).getD .l0 := by
  have hget := get?_recalculate s t r
  rw [if_pos (hs.mem_undeclared_iff.2 ⟨hdeclared, e, hvisible⟩)] at hget
  unfold profileOf
  rw [hget]
  exact ClearanceGraph.implied_level _ _

theorem WellFormed.declared_recalculate (hs : s.WellFormed) (t : Instant) {p : Profile}
    (hp : p.isDeclared = true) :
    (s.recalculate t).1.profiles.get? r = some p ↔ s.profiles.get? r = some p := by
  rw [get?_recalculate]
  split
  · rename_i hmem
    obtain ⟨hnone, -⟩ := hs.mem_undeclared_iff.1 hmem
    constructor
    · intro himplied
      rw [← Option.some.inj himplied, ClearanceGraph.implied_isDeclared] at hp
      cases hp
    · intro hstored
      rw [hs.get?_declaredLevels.2 ⟨p, hstored, hp, rfl⟩] at hnone
      cases hnone
  · exact Iff.rfl

theorem WellFormed.get?_declaredLevels_recalculate (hs : s.WellFormed) (t : Instant)
    (r : Reference) :
    (s.recalculate t).1.declaredLevels.get? r = s.declaredLevels.get? r :=
  hs.get?_declaredLevels_congr (hs.recalculate t) (fun _ hp => hs.declared_recalculate t hp)

/-- After a recalculation an object has at least what arrives at it. -/
theorem WellFormed.le_level_recalculate (hs : s.WellFormed) (hvisible : s.visible? r t = some e)
    (h : (s.graph t).Arrives s.declaredLevels r l) :
    l ≤ ((s.recalculate t).1.profileOf r).level := by
  rw [hs.level_recalculate h.not_seed hvisible]
  by_cases hl : l = .l0
  · subst hl
    exact Level.l0_le _
  · obtain ⟨k, hk, hlk⟩ :=
      (ClearanceGraph.assigns_propagate (s.graph t) s.declaredLevels).le_of_arrives h hl
    have hcarried : (s.carriedLevels t).get? r = some k := hk
    rw [hcarried]
    exact hlk

/-- The level that a recalculation gives an object is one that arrives at it. -/
theorem WellFormed.arrives_level_recalculate (hs : s.WellFormed)
    (hdeclared : s.declaredLevels.get? r = none) (hvisible : s.visible? r t = some e)
    (hlevel : ((s.recalculate t).1.profileOf r).level ≠ .l0) :
    (s.graph t).Arrives s.declaredLevels r ((s.recalculate t).1.profileOf r).level := by
  rw [hs.level_recalculate hdeclared hvisible] at hlevel ⊢
  cases hcarried : (s.carriedLevels t).get? r with
  | none =>
    rw [hcarried] at hlevel
    exact absurd rfl hlevel
  | some k =>
    have hassigns := ClearanceGraph.assigns_propagate (s.graph t) s.declaredLevels
    exact ((hassigns.get?_eq_some_iff hdeclared).1 hcarried).2.1

end Recalculate

/-! ## New objects -/

/-- Objects found from a visible source, whose references are distinct and new to the store, put
to it at `t` with the clearance that the source implies. -/
structure Emission (s : Store) (t : Instant) (source : Snapshot) (objects : List Snapshot)
    (s' : Store) : Prop where
  read : s.read? source.reference t = some source
  distinct : (objects.map Snapshot.reference).Nodup
  hidden : ∀ o ∈ objects, s.visible? o.reference t = none
  unknown : ∀ o ∈ objects, s.profiles.get? o.reference = none
  committed : ∃ o : Observation, o.validTime = t ∧ o.result = source.imply objects ∧
    s' = (s.commit o).1

namespace Emission

section

variable {s s' : Store} {t : Instant} {source : Snapshot} {objects : List Snapshot} {r : Reference}

theorem source_visible (h : Emission s t source objects s') :
    s.visible? source.reference t = some source.entity := by
  obtain ⟨e, he, hsource⟩ := Option.map_eq_some_iff.1 h.read
  rw [he, ← hsource]
  rfl

theorem wellFormed (h : Emission s t source objects s') (hs : s.WellFormed) : s'.WellFormed := by
  obtain ⟨o, -, -, rfl⟩ := h.committed
  exact hs.commit o

theorem map_reference_imply (source : Snapshot) (objects : List Snapshot) :
    (source.imply objects).map Snapshot.reference = objects.map Snapshot.reference := by
  have hentities := congrArg (List.map Entity.reference)
    (Snapshot.map_entity_imply source objects)
  rw [List.map_map, List.map_map] at hentities
  exact hentities

theorem visible?_of_not_mem (h : Emission s t source objects s')
    (hr : r ∉ objects.map Snapshot.reference) : s'.visible? r t = s.visible? r t := by
  obtain ⟨o, rfl, hresult, rfl⟩ := h.committed
  have hnot : r ∉ o.result.map Snapshot.reference := by
    rw [hresult, map_reference_imply]
    exact hr
  exact visible?_foldl_record_of_not_mem o.result (s, []) hnot _

theorem not_mem_of_visible (h : Emission s t source objects s') {e : Entity}
    (he : s.visible? r t = some e) : r ∉ objects.map Snapshot.reference := by
  intro hmem
  obtain ⟨x, hx, rfl⟩ := List.mem_map.1 hmem
  rw [h.hidden x hx] at he
  cases he

theorem visible?_of_visible (h : Emission s t source objects s') {e : Entity}
    (he : s.visible? r t = some e) : s'.visible? r t = some e :=
  (h.visible?_of_not_mem (h.not_mem_of_visible he)).trans he

theorem source_not_mem (h : Emission s t source objects s') :
    source.reference ∉ objects.map Snapshot.reference :=
  h.not_mem_of_visible h.source_visible

theorem profile_of_mem (h : Emission s t source objects s') {o : Snapshot}
    (ho : o ∈ source.imply objects) :
    o.profile.getD (.empty o.reference)
      = ClearanceGraph.implied (source.impliedLevels objects) o.reference := by
  rw [Snapshot.profile_of_mem_imply h.source_not_mem ho]
  rfl

theorem visible?_of_mem (h : Emission s t source objects s') {x : Snapshot} (hx : x ∈ objects) :
    s'.visible? x.reference t = some x.entity := by
  obtain ⟨o, rfl, hresult, rfl⟩ := h.committed
  have hentity : x.entity ∈ o.result.map Snapshot.entity := by
    rw [hresult, Snapshot.map_entity_imply]
    exact List.mem_map_of_mem hx
  obtain ⟨y, hy, hyx⟩ := List.mem_map.1 hentity
  have hdistinct : (o.result.map Snapshot.reference).Nodup := by
    rw [hresult, map_reference_imply]
    exact h.distinct
  have hreference : y.reference = x.reference := congrArg Entity.reference hyx
  have hmem := visible?_foldl_record_of_mem (s, []) hdistinct hy (hreference ▸ h.hidden x hx)
  rw [hreference, hyx] at hmem
  exact hmem

theorem get?_profiles (h : Emission s t source objects s') (r : Reference) :
    s'.profiles.get? r
      = if r ∈ objects.map Snapshot.reference then
          some (ClearanceGraph.implied (source.impliedLevels objects) r)
        else s.profiles.get? r := by
  obtain ⟨o, -, hresult, rfl⟩ := h.committed
  have hown : ∀ y ∈ o.result, (y.profile.getD (.empty y.reference)).reference = y.reference := by
    intro y hy
    rw [h.profile_of_mem (hresult ▸ hy)]
    exact implied_reference _ _
  have hreferences : o.result.map Snapshot.reference = objects.map Snapshot.reference := by
    rw [hresult, map_reference_imply]
  rw [← hreferences]
  split
  · rename_i hr
    obtain ⟨y, hy, rfl⟩ := List.mem_map.1 hr
    have hunknown : s.profiles.get? y.reference = none := by
      have hmem : y.reference ∈ objects.map Snapshot.reference :=
        hreferences ▸ List.mem_map_of_mem hy
      obtain ⟨x, hx, hreference⟩ := List.mem_map.1 hmem
      exact hreference ▸ h.unknown x hx
    have hget := get?_foldl_record_of_mem (t := o.validTime) (s, []) (hreferences ▸ h.distinct)
      hown hy hunknown
    rw [h.profile_of_mem (hresult ▸ hy)] at hget
    exact hget
  · rename_i hr
    refine get?_foldl_record_of_ne (t := o.validTime) o.result (s, []) (fun y hy heq => hr ?_)
    exact (heq.trans (hown y hy)) ▸ List.mem_map_of_mem hy

theorem get?_declaredLevels (h : Emission s t source objects s') (hs : s.WellFormed)
    (r : Reference) : s'.declaredLevels.get? r = s.declaredLevels.get? r := by
  refine hs.get?_declaredLevels_congr (h.wellFormed hs) (fun p hp => ?_)
  rw [h.get?_profiles]
  split
  · rename_i hr
    obtain ⟨x, hx, rfl⟩ := List.mem_map.1 hr
    rw [h.unknown x hx]
    constructor
    · intro himplied
      rw [← Option.some.inj himplied, ClearanceGraph.implied_isDeclared] at hp
      cases hp
    · intro hnone
      cases hnone
  · exact Iff.rfl

/-- The graph that a source implies clearance over is a part of the whole one. -/
theorem edges_subset (h : Emission s t source objects s') (hs : s.WellFormed) :
    (ClearanceGraph.ofEntities (source.entity :: objects.map Snapshot.entity)).edges
      ⊆ (s'.graph t).edges := by
  refine ClearanceGraph.edges_ofEntities_subset (fun e he => ?_)
  have hvisible : ∃ r, s'.visible? r t = some e := by
    rcases List.mem_cons.1 he with rfl | he
    · exact ⟨_, h.visible?_of_visible h.source_visible⟩
    · obtain ⟨x, hx, rfl⟩ := List.mem_map.1 he
      exact ⟨_, h.visible?_of_mem hx⟩
  obtain ⟨r, hr⟩ := hvisible
  exact List.mem_map_of_mem ((h.wellFormed hs).mem_visible_iff.2 hr)

end

/-! ## What a recalculation leaves of implied levels -/

section Survival

variable {s s₁ s₂ : Store} {t : Instant} {source : Snapshot} {objects : List Snapshot}
  {r : Reference}

/-- What was recalculated before, a recalculation with more objects does not lower. -/
theorem level_le_of_visible (hs : s.WellFormed) (hs₁ : s₁ = (s.recalculate t).1)
    (h : Emission s₁ t source objects s₂) {e : Entity} (hvisible : s₁.visible? r t = some e)
    (hdeclared : s₁.declaredLevels.get? r = none) :
    (s₂.profileOf r).level ≤ ((s₂.recalculate t).1.profileOf r).level := by
  have hwell₁ : s₁.WellFormed := hs₁ ▸ hs.recalculate t
  have hwell₂ := h.wellFormed hwell₁
  have hprofile : s₂.profileOf r = s₁.profileOf r :=
    profileOf_congr (by rw [h.get?_profiles, if_neg (h.not_mem_of_visible hvisible)])
  rw [hprofile]
  by_cases hl0 : (s₁.profileOf r).level = .l0
  · rw [hl0]
    exact Level.l0_le _
  · subst hs₁
    have harrives := hs.arrives_level_recalculate
      (hs.get?_declaredLevels_recalculate t r ▸ hdeclared) hvisible hl0
    refine hwell₂.le_level_recalculate (h.visible?_of_visible hvisible) (harrives.mono ?_ ?_)
    · exact hs.edges_graph_subset hwell₂ (fun _ _ he => h.visible?_of_visible he)
    · intro n
      rw [h.get?_declaredLevels hwell₁, hs.get?_declaredLevels_recalculate]

/-- What a walk from the source carries over new objects, arrives in the whole graph if the walk
enters no declared object. -/
theorem exists_arrives_of_walk (hs : s.WellFormed) (hs₁ : s₁ = (s.recalculate t).1)
    (h : Emission s₁ t source objects s₂) {walk : List Edge} (hne : walk ≠ [])
    (hwalk : (ClearanceGraph.ofEntities (source.entity :: objects.map Snapshot.entity)).IsWalk
      (Table.empty.insert source.reference source.level) source.reference walk r)
    (hfree : ∀ e ∈ walk, s₁.declaredLevels.get? e.target = none)
    (hcarried : ClearanceGraph.carried source.level walk ≠ .l0) :
    (s₂.graph t).Arrives s₂.declaredLevels r (ClearanceGraph.carried source.level walk) := by
  have hwell₁ : s₁.WellFormed := hs₁ ▸ hs.recalculate t
  have hwell₂ := h.wellFormed hwell₁
  have hwide : (s₂.graph t).IsWalk s₂.declaredLevels source.reference walk r := by
    refine hwalk.imp (fun e _ he => h.edges_subset hwell₁ he) (fun e he _ => ?_)
    rw [h.get?_declaredLevels hwell₁]
    exact hfree e he
  have hread := h.read
  have hlevel : source.level = (s₁.profileOf source.reference).level := by
    obtain ⟨e, -, hsource⟩ := Option.map_eq_some_iff.1 hread
    exact congrArg Snapshot.level hsource.symm
  cases hdeclared : s₁.declaredLevels.get? source.reference with
  | some m =>
    -- the source is a seed of the whole graph as well
    obtain ⟨p, hp, -, hm⟩ := hwell₁.get?_declaredLevels.1 hdeclared
    have hsame : source.level = m := by
      rw [hlevel, ← hm]
      unfold profileOf
      rw [hp]
      rfl
    exact ⟨source.reference, m, walk, (h.get?_declaredLevels hwell₁ _).trans hdeclared, hne, hwide,
      by rw [hsame]⟩
  | none =>
    -- its level was brought by another walk, which goes on as this one
    have hsource : (s₁.profileOf source.reference).level ≠ .l0 := by
      intro hl0
      have hstart := (ClearanceGraph.le_carried_iff.1 (Level.le_refl
        (ClearanceGraph.carried source.level walk))).1
      rw [hlevel, hl0] at hstart
      exact hcarried (hlevel ▸ hl0 ▸ Level.le_l0_iff.1 hstart)
    subst hs₁
    have harrives := hs.arrives_level_recalculate
      (hs.get?_declaredLevels_recalculate t _ ▸ hdeclared) h.source_visible hsource
    have hwider : (s₂.graph t).Arrives s₂.declaredLevels source.reference
        ((s.recalculate t).1.profileOf source.reference).level :=
      harrives.mono (hs.edges_graph_subset hwell₂ (fun _ _ he => h.visible?_of_visible he))
        (fun n => by rw [h.get?_declaredLevels hwell₁, hs.get?_declaredLevels_recalculate])
    obtain ⟨seed, m, first, hseed, -, hfirst, hbrought⟩ := hwider
    refine ⟨seed, m, first ++ walk, hseed, by simp [hne], hfirst.append hwide, ?_⟩
    rw [hlevel, ← hbrought]
    exact List.foldl_append

/-- Only a new object can be lowered, and only if every walk that carries its level from the source
enters a declared object. -/
theorem le_level_or_blocked (hs : s.WellFormed) (hs₁ : s₁ = (s.recalculate t).1)
    (h : Emission s₁ t source objects s₂) (r : Reference) :
    (s₂.profileOf r).level ≤ ((s₂.recalculate t).1.profileOf r).level ∨
      r ∈ objects.map Snapshot.reference ∧ ∀ walk : List Edge,
        (ClearanceGraph.ofEntities (source.entity :: objects.map Snapshot.entity)).IsWalk
          (Table.empty.insert source.reference source.level) source.reference walk r →
        (s₂.profileOf r).level ≤ ClearanceGraph.carried source.level walk →
        ∃ e ∈ walk, ∃ p, s₁.profiles.get? e.target = some p ∧ p.isDeclared = true := by
  have hwell₁ : s₁.WellFormed := hs₁ ▸ hs.recalculate t
  have hwell₂ := h.wellFormed hwell₁
  rcases Classical.em ((s₂.profileOf r).level ≤ ((s₂.recalculate t).1.profileOf r).level)
    with hle | hlower
  · exact .inl hle
  refine .inr ?_
  have hchanged : s₂.declaredLevels.get? r = none ∧ ∃ e, s₂.visible? r t = some e := by
    refine hwell₂.mem_undeclared_iff.1 (Decidable.byContradiction (fun hnot => hlower ?_))
    have hget := get?_recalculate s₂ t r
    rw [if_neg hnot] at hget
    exact Level.le_of_eq (congrArg Profile.level (profileOf_congr hget).symm)
  obtain ⟨hdeclared, e, hvisible⟩ := hchanged
  rw [h.get?_declaredLevels hwell₁] at hdeclared
  have hmem : r ∈ objects.map Snapshot.reference :=
    Decidable.byContradiction (fun hnot => hlower
      (level_le_of_visible hs hs₁ h ((h.visible?_of_not_mem hnot).symm.trans hvisible) hdeclared))
  refine ⟨hmem, fun walk hwalk hcarried => Classical.byContradiction (fun hopen => hlower ?_)⟩
  have hne : walk ≠ [] := by
    rintro rfl
    have hr : source.reference = r := hwalk
    exact h.source_not_mem (hr ▸ hmem)
  have hfree : ∀ e ∈ walk, s₁.declaredLevels.get? e.target = none := by
    intro e he
    cases hget : s₁.declaredLevels.get? e.target with
    | none => rfl
    | some m =>
      obtain ⟨p, hp, hpdeclared, -⟩ := hwell₁.get?_declaredLevels.1 hget
      exact absurd ⟨e, he, p, hp, hpdeclared⟩ hopen
  by_cases hl0 : ClearanceGraph.carried source.level walk = .l0
  · rw [hl0] at hcarried
    exact Level.le_trans hcarried (Level.l0_le _)
  · exact Level.le_trans hcarried
      (hwell₂.le_level_recalculate hvisible (exists_arrives_of_walk hs hs₁ h hne hwalk hfree hl0))

end Survival

end Emission

namespace Blocked

def address : Entity :=
  .ipv4 (.ofTokens .network ["internet"]) ⟨127, 0, 0, 1⟩

/-- A name that resolves to the address. -/
def resolution : Entity :=
  .resolvedHostname (.ofTokens .hostname ["internet", "localhost"]) address.reference

def port : Entity :=
  .ipPort address.reference .tcp 80 none

/-- The address declared at the lowest level, and the resolution at the highest. -/
def stored : Store :=
  ((Store.empty.put ((Snapshot.ofEntity address).declare .l0) default).1.put
    ((Snapshot.ofEntity resolution).declare .l4) default).1

def recalculated : Store :=
  (stored.recalculate default).1

/-- The resolution as read from the store. -/
def source : Snapshot :=
  recalculated.snapshot default resolution.reference resolution

/-- The port found from the resolution. -/
def observation : Observation :=
  ⟨"ports", resolution.reference, none, default, source.imply [.ofEntity port]⟩

def committed : Store :=
  (recalculated.commit observation).1

/-- The store after another recalculation. -/
def recalculatedAgain : Store :=
  (committed.recalculate default).1

theorem reachable_stored : stored.Reachable :=
  .insert (o := (Snapshot.ofEntity resolution).declare .l4) (t := default)
    (.insert (o := (Snapshot.ofEntity address).declare .l0) (t := default) .empty rfl) rfl

theorem read_source : recalculated.read? resolution.reference default = some source := by
  decide +kernel

theorem port_new : recalculated.visible? port.reference default = none ∧
    recalculated.profiles.get? port.reference = none := by
  decide +kernel

theorem observe_observation :
    recalculated.observe observation = .ok (committed, (recalculated.commit observation).2) :=
  observe_eq_ok_iff.2 ⟨rfl, by decide +kernel, rfl⟩

theorem recalculate_stored :
    stored.recalculateProfiles default = .ok (recalculated, (stored.recalculate default).2) :=
  guarded_eq_ok_iff.2 ⟨by decide +kernel, rfl⟩

theorem recalculate_committed : committed.recalculateProfiles default
    = .ok (recalculatedAgain, (committed.recalculate default).2) := by
  have honline : committed.offline = false := by decide +kernel
  exact guarded_eq_ok_iff.2 ⟨honline, by rw [recalculatedAgain]⟩

theorem port_lowered : (committed.profileOf port.reference).level = .l4 ∧
    (recalculatedAgain.profileOf port.reference).level = .l0 := by
  decide +kernel

end Blocked

end Store

end ScanGraph
