/-
Walks along paths, forwards and backwards.

The references that a path leads to are the ends of walks along its steps.  A
step is walked backwards by its flip, except that an incoming step asks for the
type of the holder, which an outgoing step does not.  So a walk can be walked
backwards if it starts at the type that the path expects, fields point at what
the schema says, and the steps follow one another: `Walks.reversed`.

A walk lists what it reaches by reference, each reference once.  In a well
formed store an object stands under its own reference, so the objects of a walk
ascend strictly by their references: `pairwise_walk`.

## What is asked

Paths that were parsed have steps that follow one another and the schema
(`leads_of_parse`).  `Typed` says that the fields of all objects visible at the time
point at what the schema says, and is decidable for a store at hand.  Without it, walks
are still what they are, but need not lead back.

## What is proved and what is not

* `mem_walk_iff`: what a walk returns are the objects of the type at the ends of walks.
* `mem_walk_reversed`: whoever is found along a parsed path finds its start along the
  reversed one.
* `pairwise_walk`: what is returned ascends strictly by references.

The walks here run through whatever the store holds under a reference.  In terms of
visible objects and the fields that join them, they are described in `Store.Chains`.
-/
import ScanGraph.Proofs.Store.Reachable

namespace ScanGraph

/-! ## Fields by name -/

section Fields

variable {α : Type}

theorem mem_iff_find?_fst {l : List (String × α)} (h : (l.map Prod.fst).Nodup) {k : String}
    {v : α} : (k, v) ∈ l ↔ (l.find? (fun x => x.1 == k)).map Prod.snd = some v := by
  induction l with
  | nil => simp
  | cons x rest ih =>
    obtain ⟨a, w⟩ := x
    obtain ⟨ha, hrest⟩ := List.nodup_cons.1 h
    rw [List.mem_cons, ih hrest, List.find?_cons]
    by_cases hk : a = k
    · subst hk
      have hnone : (rest.find? (fun x => x.1 == a)).map Prod.snd ≠ some v := fun hfind =>
        ha (List.mem_map.2 ⟨(a, v), (ih hrest).2 hfind, rfl⟩)
      simp [hnone, eq_comm]
    · have hk' : k ≠ a := fun h => hk h.symm
      have hfalse : (a == k) = false := beq_eq_false_iff_ne.2 hk
      simp [hk', hfalse]

theorem Entity.nodup_relations (e : Entity) : (e.relations.map Prod.fst).Nodup := by
  cases e with
  | dnsMX host value mail => cases mail <;> simp [relations]
  | _ => simp [relations]

theorem Entity.mem_relations_iff {e : Entity} {name : String} {target : Reference} :
    (name, target) ∈ e.relations ↔ e.relation? name = some target :=
  mem_iff_find?_fst e.nodup_relations

end Fields

/-! ## Paths that follow the schema -/

/-- An outgoing step follows a field of the type it starts from to the type that the schema says. -/
def Step.Sound (s : Step) : Prop :=
  s.direction = .outgoing →
    s.relation ∈ Relation.schema ∧ s.near.isA s.relation.source = true ∧ s.far = s.relation.target

namespace Path

/-- The steps follow one another from a type on, and follow the schema. -/
def Leads : ObjectType → List Step → Prop
  | _, [] => True
  | current, step :: rest => step.near = current ∧ step.Sound ∧ Leads step.far rest

section Reading

variable {current : ObjectType} {cs : List Char} {step : Step}

theorem sound_of_incomingStep {holder : ObjectType} {name : String}
    (h : incomingStep current holder name = .ok step) : step.near = current ∧ step.Sound := by
  unfold incomingStep at h
  split at h
  · cases h
  · split at h
    · cases h
      exact ⟨rfl, fun hdirection => nomatch hdirection⟩
    · cases h

theorem sound_of_outgoingStep {name : String} (h : outgoingStep current name = .ok step) :
    step.near = current ∧ step.Sound := by
  unfold outgoingStep at h
  split at h
  · cases h
  · rename_i r hfind
    cases h
    have hholder := List.find?_some hfind
    rw [Bool.and_eq_true] at hholder
    exact ⟨rfl, fun _ => ⟨List.mem_of_find?_eq_some hfind, hholder.2, rfl⟩⟩

theorem sound_of_readStep (h : readStep current cs = .ok step) :
    step.near = current ∧ step.Sound := by
  unfold readStep at h
  split at h
  · split at h
    · cases h
    · exact sound_of_incomingStep h
  · split at h
    · exact sound_of_outgoingStep h
    · cases h

theorem leads_of_readSteps {parts : List (List Char)} {steps : List Step}
    (h : readSteps current parts = .ok steps) : Leads current steps := by
  induction parts generalizing current steps with
  | nil =>
    cases h
    trivial
  | cons part rest ih =>
    unfold readSteps at h
    split at h
    · cases h
    · rename_i step hstep
      split at h
      · cases h
      · rename_i more hmore
        cases h
        obtain ⟨hnear, hsound⟩ := sound_of_readStep hstep
        exact ⟨hnear, hsound, ih hmore⟩

theorem leads_of_readParts {parts : List (List Char)} {p : Path} (h : readParts parts = .ok p) :
    Leads p.root p.steps := by
  unfold readParts at h
  split at h
  · cases h
  · dsimp only at h
    split at h
    · cases h
    · split at h
      · cases h
      · rename_i root steps hsteps
        cases h
        exact leads_of_readSteps hsteps

/-- The steps of a path that was read follow one another from its root on. -/
theorem leads_of_parse {text : String} {p : Path} (h : parse text = .ok p) :
    Leads p.root p.steps := by
  unfold parse at h
  split at h
  · rename_i q hparts
    cases h
    exact leads_of_readParts hparts
  · cases h

end Reading

end Path

/-! ## Stores whose fields follow the schema -/

/-- Every reference field of an entity points at the type that the schema says or a subtype. -/
def Entity.Typed (e : Entity) : Prop :=
  ∀ rel ∈ Relation.schema, e.type.isA rel.source = true →
    ∀ target ∈ e.relation? rel.name, target.type.isA rel.target = true

instance (e : Entity) : Decidable e.Typed :=
  inferInstanceAs (Decidable (∀ rel ∈ Relation.schema, e.type.isA rel.source = true →
    ∀ target ∈ e.relation? rel.name, target.type.isA rel.target = true))

namespace Store

/-- The reference fields of all objects visible at `t` point at the types that the schema says. -/
def Typed (s : Store) (t : Instant) : Prop :=
  ∀ x ∈ s.visible t, x.2.Typed

instance (s : Store) (t : Instant) : Decidable (s.Typed t) :=
  inferInstanceAs (Decidable (∀ x ∈ s.visible t, x.2.Typed))

/-- An object of a type or its subtypes is visible under a reference. -/
def Shows (s : Store) (t : Instant) (r : Reference) (type : ObjectType) : Prop :=
  ∃ e, s.visible? r t = some e ∧ e.type.isA type = true

/-! ## Single steps -/

section Steps

variable {s : Store} {t : Instant} {step : Step} {a b : Reference}

theorem mem_stepFrom_outgoing (h : step.direction = .outgoing) :
    b ∈ s.stepFrom t step a ↔
      ∃ e, s.visible? a t = some e ∧ e.relation? step.relation.name = some b ∧
        ∃ e', s.visible? b t = some e' := by
  unfold stepFrom
  rw [h]
  simp only
  constructor
  · intro hb
    split at hb
    · rename_i target htarget
      obtain ⟨e, he, hrelation⟩ := Option.bind_eq_some_iff.1 htarget
      split at hb
      · rename_i hvisible
        obtain rfl := List.mem_singleton.1 hb
        exact ⟨e, he, hrelation, Option.isSome_iff_exists.1 hvisible⟩
      · exact absurd hb List.not_mem_nil
    · exact absurd hb List.not_mem_nil
  · rintro ⟨e, he, hrelation, e', he'⟩
    simp [he, hrelation, he']

theorem WellFormed.mem_stepFrom_incoming (hs : s.WellFormed) (h : step.direction = .incoming) :
    b ∈ s.stepFrom t step a ↔
      ∃ e, s.visible? b t = some e ∧ e.type.isA step.far = true ∧
        e.relation? step.relation.name = some a := by
  unfold stepFrom
  rw [h]
  simp only [List.mem_map, List.mem_filter, Bool.and_eq_true, List.contains_iff_mem]
  constructor
  · rintro ⟨⟨r, e⟩, ⟨hmem, htype, hrelation⟩, rfl⟩
    exact ⟨e, hs.mem_visible_iff.1 hmem, htype, Entity.mem_relations_iff.1 hrelation⟩
  · rintro ⟨e, he, htype, hrelation⟩
    exact ⟨(b, e), ⟨hs.mem_visible_iff.2 he, htype, Entity.mem_relations_iff.2 hrelation⟩, rfl⟩

theorem WellFormed.type_of_visible? (hs : s.WellFormed) {e : Entity}
    (he : s.visible? a t = some e) : e.type = a.type := by
  rw [← hs.reference_of_visible? he, Entity.reference_type]

/-- A step from an object of the type that it expects can be taken back, and leads to an object of
the type that it promises. -/
theorem WellFormed.step_back (hs : s.WellFormed) (htyped : s.Typed t) (hsound : step.Sound)
    (ha : s.Shows t a step.near) (h : b ∈ s.stepFrom t step a) :
    a ∈ s.stepFrom t step.flip b ∧ s.Shows t b step.far := by
  obtain ⟨e, he, htype⟩ := ha
  cases hdirection : step.direction with
  | outgoing =>
    -- backwards the holder is asked for its type, and only the schema tells that of the target
    have hflip : step.flip.direction = .incoming := by
      unfold Step.flip
      rw [hdirection]
      rfl
    obtain ⟨e₀, he₀, hrelation, e', he'⟩ := (mem_stepFrom_outgoing hdirection).1 h
    obtain rfl : e = e₀ := Option.some.inj (he.symm.trans he₀)
    obtain ⟨hschema, hholder, hfar⟩ := hsound hdirection
    refine ⟨(hs.mem_stepFrom_incoming hflip).2 ⟨e, he, htype, hrelation⟩, e', he', ?_⟩
    rw [hfar, hs.type_of_visible? he']
    exact htyped (a, e) (hs.mem_visible_iff.2 he) step.relation hschema
      (ObjectType.isA_trans htype hholder) b hrelation
  | incoming =>
    have hflip : step.flip.direction = .outgoing := by
      unfold Step.flip
      rw [hdirection]
      rfl
    obtain ⟨e', he', hfar, hrelation⟩ := (hs.mem_stepFrom_incoming hdirection).1 h
    exact ⟨(mem_stepFrom_outgoing hflip).2 ⟨e', he', hrelation, e, he⟩, e', he', hfar⟩

end Steps

/-! ## Walks -/

/-- Steps lead from one reference to another. -/
def Walks (s : Store) (t : Instant) : Reference → List Step → Reference → Prop
  | a, [], b => a = b
  | a, step :: rest, b => ∃ m ∈ s.stepFrom t step a, Walks s t m rest b

section Walks

variable {s : Store} {t : Instant} {a b : Reference} {steps : List Step}

theorem walks_append {more : List Step} :
    s.Walks t a (steps ++ more) b ↔ ∃ m, s.Walks t a steps m ∧ s.Walks t m more b := by
  induction steps generalizing a with
  | nil =>
    constructor
    · intro h
      exact ⟨a, rfl, h⟩
    · rintro ⟨m, rfl, h⟩
      exact h
  | cons step steps ih =>
    constructor
    · rintro ⟨n, hn, h⟩
      obtain ⟨m, hsteps, hmore⟩ := ih.1 h
      exact ⟨m, ⟨n, hn, hsteps⟩, hmore⟩
    · rintro ⟨m, ⟨n, hn, hsteps⟩, hmore⟩
      exact ⟨n, hn, ih.2 ⟨m, hsteps, hmore⟩⟩

theorem mem_foldl_stepAll {rs : List Reference} :
    b ∈ steps.foldl (s.stepAll t) rs ↔ ∃ a ∈ rs, s.Walks t a steps b := by
  induction steps generalizing rs with
  | nil =>
    constructor
    · intro h
      exact ⟨b, h, rfl⟩
    · rintro ⟨a, ha, rfl⟩
      exact ha
  | cons step steps ih =>
    rw [List.foldl_cons, ih]
    simp only [stepAll, List.mem_eraseDups, List.mem_flatMap]
    constructor
    · rintro ⟨m, ⟨a, ha, hm⟩, h⟩
      exact ⟨a, ha, m, hm, h⟩
    · rintro ⟨a, ha, m, hm, h⟩
      exact ⟨m, ⟨a, ha, hm⟩, h⟩

theorem mem_reached_iff : b ∈ s.reached t a steps ↔ s.Walks t a steps b := by
  unfold reached
  rw [List.mem_mergeSort, mem_foldl_stepAll]
  simp

/-- A walk from the type that its steps expect, walked backwards. -/
theorem Walks.reversed (hs : s.WellFormed) (htyped : s.Typed t) {current : ObjectType}
    (hleads : Path.Leads current steps) (ha : s.Shows t a current) (h : s.Walks t a steps b) :
    s.Walks t b (steps.reverse.map Step.flip) a := by
  induction steps generalizing a current with
  | nil => exact h.symm
  | cons step steps ih =>
    obtain ⟨rfl, hsound, hrest⟩ := hleads
    obtain ⟨m, hm, hwalk⟩ := h
    obtain ⟨hback, hshows⟩ := hs.step_back htyped hsound ha hm
    rw [List.reverse_cons, List.map_append, walks_append]
    exact ⟨m, ih hrest hshows hwalk, a, hback, rfl⟩

theorem mem_walk_iff {path : Path} {type : ObjectType} {o : Snapshot} :
    o ∈ s.walk a path type t ↔
      (∃ e, s.visible? a t = some e) ∧ ∃ b e, s.Walks t a path.steps b ∧
        s.visible? b t = some e ∧ e.type.isA type = true ∧ o = s.snapshot t b e := by
  unfold walk
  cases ha : s.visible? a t with
  | none => simp
  | some e₀ =>
    simp only [Option.isNone_some, Bool.false_eq_true, if_false, List.mem_filterMap,
      mem_reached_iff, Option.some.injEq, exists_eq', true_and]
    constructor
    · rintro ⟨b, hb, ho⟩
      cases hvisible : s.visible? b t with
      | none => simp [hvisible] at ho
      | some e =>
        simp only [hvisible] at ho
        split at ho
        · rename_i htype
          exact ⟨b, e, hb, hvisible, htype, (Option.some.inj ho).symm⟩
        · cases ho
    · rintro ⟨b, e, hb, he, htype, rfl⟩
      exact ⟨b, hb, by simp [he, htype]⟩

/-- Whoever leads to an object along a path that was read, is found from the object along the
reversed path. -/
theorem mem_walk_reversed (hs : s.WellFormed) (htyped : s.Typed t) {path : Path}
    {type root : ObjectType} {o : Snapshot} {e : Entity} (hleads : Path.Leads path.root path.steps)
    (he : s.visible? a t = some e) (hroot : e.type.isA path.root = true)
    (hkeep : e.type.isA root = true) (h : o ∈ s.walk a path type t) :
    s.snapshot t a e ∈ s.walk o.reference path.reversed root t := by
  obtain ⟨-, b, e', hwalk, he', -, rfl⟩ := mem_walk_iff.1 h
  have hreference : (s.snapshot t b e').reference = b := hs.reference_of_visible? he'
  rw [hreference, mem_walk_iff]
  exact ⟨⟨e', he'⟩, a, e, hwalk.reversed hs htyped hleads ⟨e, he, hroot⟩, he, hkeep, rfl⟩

end Walks

end Store

end ScanGraph

namespace ScanGraph

theorem nodup_eraseDups {α : Type} [DecidableEq α] (l : List α) : l.eraseDups.Nodup := by
  induction hlength : l.length using Nat.strongRecOn generalizing l with
  | ind n ih =>
    cases l with
    | nil => exact List.nodup_nil
    | cons a l =>
      rw [List.eraseDups_cons]
      refine List.nodup_cons.2 ⟨by simp, ih _ ?_ _ rfl⟩
      rw [← hlength]
      exact Nat.lt_succ_of_le (List.length_filter_le _ l)

theorem Reference.lt_of_precedes {a b : Reference} (h : a.precedes b = true) (hne : a ≠ b) :
    a < b := by
  have hle : a.text ≤ b.text := of_decide_eq_true h
  exact String.not_le.1 (fun hba => hne (Reference.text_injective (String.le_antisymm hle hba)))

namespace Store

section Order

variable {s : Store} {t : Instant}

theorem nodup_foldl_stepAll (steps : List Step) {rs : List Reference} (h : rs.Nodup) :
    (steps.foldl (s.stepAll t) rs).Nodup := by
  induction steps generalizing rs with
  | nil => exact h
  | cons step steps ih => exact ih (nodup_eraseDups _)

theorem pairwise_reached (s : Store) (t : Instant) (root : Reference) (steps : List Step) :
    (s.reached t root steps).Pairwise (fun a b => a < b) := by
  have hnodup : (s.reached t root steps).Nodup :=
    (List.mergeSort_perm _ _).nodup_iff.2 (nodup_foldl_stepAll steps (by simp))
  have hsorted : (s.reached t root steps).Pairwise (fun a b => a.precedes b = true) := by
    refine List.pairwise_mergeSort (fun a b c hab hbc => ?_) (fun a b => ?_) _
    · exact decide_eq_true (String.le_trans (of_decide_eq_true hab) (of_decide_eq_true hbc))
    · simpa [Reference.precedes] using String.le_total a.text b.text
  exact hsorted.imp₂ (fun _ _ hle hne => Reference.lt_of_precedes hle hne) hnodup

/-- What a walk lists for a reference stands under that reference. -/
theorem WellFormed.reference_of_listed (hs : s.WellFormed) {type : ObjectType} {r : Reference}
    {o : Snapshot}
    (h : (match s.visible? r t with
      | some e => if e.type.isA type then some (s.snapshot t r e) else none
      | none => none) = some o) : o.reference = r := by
  split at h
  · rename_i e he
    split at h
    · cases h
      exact hs.reference_of_visible? he
    · cases h
  · cases h

theorem WellFormed.pairwise_walk (hs : s.WellFormed) (root : Reference) (path : Path)
    (type : ObjectType) :
    (s.walk root path type t).Pairwise (fun a b => a.reference < b.reference) := by
  unfold walk
  split
  · exact List.Pairwise.nil
  · refine (s.pairwise_reached t root path.steps).filterMap _ (fun r r' hlt a ha b hb => ?_)
    rw [hs.reference_of_listed ha, hs.reference_of_listed hb]
    exact hlt

end Order

end Store

end ScanGraph
