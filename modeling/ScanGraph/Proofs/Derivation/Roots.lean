/-
The roots of what rules come to.

An evaluation reads its roots from the store, and changes nothing but the memory and
the clock.
What is visible stays so; by the time that an evaluation is over each of its roots
is therefore visible, whatever others did between its calls: `obeys_deriveBy`.

## What is proved

`obeys_deriveBy`, for every way in which the evaluations of a commit are gone through
and whatever else happens between their calls: each outcome is for a root that is
visible when the evaluations are over, and so from then on.  The step is `Recalls`,
which nothing in an evaluation exceeds, and the invariant `Rooted`, which every change
of a reachable store keeps, since what is visible stays so.

Which rules and roots there are is not said; uninterrupted, this is
`Derivation.Dispatch`, while with others in between each reading of the store may show
another moment.
-/
import ScanGraph.Proofs.Derivation.Evaluator
import ScanGraph.Proofs.Pipeline.Calls
import ScanGraph.Proofs.Store.Backward

namespace ScanGraph

/-! ## Reading -/

namespace Store

variable {s : Store} {r : Reference} {t : Instant} {o : Snapshot}

theorem WellFormed.known_of_get (hs : s.WellFormed) (h : s.get r t = .ok (some o)) :
    s.Known t o.reference := by
  obtain ⟨-, hread⟩ := get_eq_ok_iff.1 h
  obtain ⟨e, he, rfl⟩ := Option.map_eq_some_iff.1 hread
  have hreference : (s.snapshot t r e).reference = r := hs.reference_of_visible? he
  exact ⟨e, hreference.symm ▸ he⟩

theorem WellFormed.known_of_follow (hs : s.WellFormed) {path : Path} {type : ObjectType}
    {found : List Snapshot} (h : s.follow r path type t = .ok found) (ho : o ∈ found) :
    s.Known t o.reference := by
  obtain ⟨-, rfl⟩ := follow_eq_ok_iff.1 h
  obtain ⟨-, b, e, -, he, -, rfl⟩ := mem_walk_iff.1 ho
  have hreference : (s.snapshot t b e).reference = b := hs.reference_of_visible? he
  exact ⟨e, hreference.symm ▸ he⟩

end Store

namespace Pipeline

/-- Nothing but the memory changes, and time passes. -/
def Recalls (p q : Pipeline) : Prop :=
  ∃ memory clock, q = { p with memory, clock }

theorem Recalls.refl (p : Pipeline) : Recalls p p :=
  ⟨p.memory, p.clock, rfl⟩

variable {rely : Pipeline → Pipeline → Prop} [Rely rely] {p q : Pipeline}

theorem Recalls.within (p q : Pipeline) (h : Recalls p q) : rely p q := by
  obtain ⟨memory, clock, rfl⟩ := h
  exact Rely.of_stays ⟨⟨rfl, .refl⟩, rfl⟩ (.refl _)

theorem Later.reachable (h : p.Later q) (hp : p.store.Reachable) : q.store.Reachable := by
  have hcalls := h.store
  generalize q.store = s at hcalls
  induction hcalls with
  | refl => exact hp
  | tail _ hcall ih => exact ih.call hcall

end Pipeline

/-! ## Courses as routines -/

namespace Course

open Pipeline

variable {α β : Type}

/-- The routine that makes the calls of a course. -/
def routine : Course α → Routine α
  | done x => .done x
  | call _ act next => .call act (fun answer => (next answer).routine)

theorem routine_bind (w : Course α) (f : α → Course β) :
    (w >>= f).routine = w.routine >>= fun a => (f a).routine := by
  rw [Routine.bind_def]
  show (w.andThen _).routine = _
  induction w with
  | done x => cases x <;> rfl
  | call hashed act next ih => simp only [andThen, routine, Routine.bind, ih]

section Every

variable {step : Pipeline → Pipeline → Prop}

theorem every_bind {w : Course α} {f : α → Course β} (h : w.routine.Every step)
    (hf : ∀ a, (f a).routine.Every step) : (w >>= f).routine.Every step := by
  rw [routine_bind]
  exact h.bind hf

theorem every_reading (f : Pipeline → α) : (reading f).routine.Every Recalls :=
  ⟨Recalls.refl, fun _ => trivial⟩

end Every

section Obeys

variable {rely step : Pipeline → Pipeline → Prop} [Rely rely] {p : Pipeline}

theorem obeys_bind (hrely : ∀ p q, step p q → rely p q) {w : Course α} {f : α → Course β}
    {post : α → Pipeline → Prop} {post' : β → Pipeline → Prop}
    (h : w.routine.Obeys rely step post p)
    (hf : ∀ a q, rely p q → post a q → (f a).routine.Obeys rely step post' q) :
    (w >>= f).routine.Obeys rely step post' p := by
  rw [routine_bind]
  exact h.bind hrely hf

omit [Rely rely] in
theorem obeys_reading {f : Pipeline → α} {post : α → Pipeline → Prop}
    (h : ∀ q, rely p q → post (f q) q) : (reading f).routine.Obeys rely Recalls post p :=
  fun q hq => ⟨.refl q, h q hq⟩

/-- Courses that are gone through at once obey if each of them does. -/
theorem Gathers.obeys (hrely : ∀ p q, step p q → rely p q) {post : α → Pipeline → Prop}
    (hpost : ∀ a p q, rely p q → post a p → post a q) {ws : List (Course α)}
    {gathered : Course (List α)} (h : Gathers ws gathered)
    (hws : ∀ w ∈ ws, w.routine.Obeys rely step post p) :
    gathered.routine.Obeys rely step (fun as q => ∀ a ∈ as, post a q) p := by
  induction h generalizing p with
  | done as => exact fun a ha => hws _ (List.mem_map_of_mem ha)
  | fault fault => trivial
  | @call γ us vs hashed act next gathered _ ih =>
    intro q hq
    obtain ⟨hstep, hnext⟩ := hws (.call hashed act next)
      (List.mem_append_right _ List.mem_cons_self) q hq
    have hlater : rely p (act q).2 := Rely.trans hq (hrely _ _ hstep)
    have hothers : ∀ w : Course α, w.routine.Obeys rely step post p →
        w.routine.Obeys rely step post (act q).2 :=
      fun w hw => hw.later hlater (fun a => hpost a p _ hlater)
    refine ⟨hstep, ih _ (fun w hw => ?_)⟩
    simp only [List.mem_append, List.mem_cons] at hw hws
    rcases hw with hw | rfl | hw
    · exact hothers w (hws w (.inl hw))
    · exact hnext
    · exact hothers w (hws w (.inr (.inr hw)))

end Obeys

end Course

namespace Evaluator

open Course Pipeline

/-! ## Evaluations change the memory and the clock alone -/

section Every

variable (t : Instant)

theorem every_resolveContext (root : Reference) (ps : List RuleParameter) :
    (resolveContext root t ps).routine.Every Recalls := by
  induction ps with
  | nil => trivial
  | cons x ps ih =>
    have hlookUp : (lookUp x root t).routine.Every Recalls := by
      refine every_bind (every_reading _) (fun found => ?_)
      cases found <;> trivial
    refine every_bind hlookUp (fun found => ?_)
    cases found with
    | error e => trivial
    | ok objects =>
      dsimp only
      split
      · trivial
      · refine every_bind ih (fun rest => ?_)
        rcases rest with e | ⟨slots⟩ | name <;> trivial

theorem every_loadSettings (d : RuleDefinition) (root : Reference) :
    (loadSettings d root t).routine.Every Recalls := by
  have hsettings : ∀ settings holders,
      (settingsOn d.id t settings holders).routine.Every Recalls := by
    intro settings holders
    induction holders generalizing settings with
    | nil => trivial
    | cons o holders ih =>
      refine every_bind (every_reading _) (fun found => ?_)
      cases found with
      | error e => trivial
      | ok found => exact ih _
  unfold loadSettings
  split
  · trivial
  · refine every_bind (every_reading _) (fun found => ?_)
    cases found with
    | error e => trivial
    | ok holders => exact hsettings _ holders

theorem every_prepare (policy : DerivationPolicy) (d : RuleDefinition) (root : Snapshot) :
    (prepare policy d root t).routine.Every Recalls := by
  unfold prepare
  split
  · trivial
  · split
    · trivial
    · refine every_bind (every_resolveContext t _ _) (fun resolved => ?_)
      rcases resolved with e | ⟨context⟩ | name
      · trivial
      · refine every_bind (every_loadSettings t d _) (fun settings => ?_)
        cases settings <;> trivial
      · trivial

theorem every_judge (d : RuleDefinition) (made : Outcome String (List Snapshot)) :
    (judge d t made).routine.Every Recalls := by
  have hobject : ∀ output o, (checkObject d output t o).routine.Every Recalls := by
    intro output o
    unfold checkObject
    split
    · trivial
    · split
      · trivial
      · split
        · trivial
        · refine every_bind (every_reading _) (fun found => ?_)
          rcases found with why | (_ | found) <;> trivial
  have hobjects : ∀ output os, (checkObjects d output t os).routine.Every Recalls := by
    intro output os
    induction os with
    | nil => trivial
    | cons o os ih =>
      refine every_bind (hobject output o) (fun checked => ?_)
      cases checked with
      | error why => trivial
      | ok _ => exact ih
  cases made with
  | returned output =>
    refine every_bind (hobjects output output) (fun checked => ?_)
    cases checked <;> trivial
  | failed m => trivial
  | panicked m => trivial

theorem every_elapse : elapse.routine.Every Recalls :=
  ⟨fun _ => ⟨_, _, rfl⟩, fun _ => trivial⟩

theorem every_apply (policy : DerivationPolicy) (rule : RegisteredRule) (root : Snapshot)
    (context : RuleContext) (settings : RuleSettings) :
    (apply policy rule root context settings t).routine.Every Recalls := by
  have hask : ∀ octets ttl, (consult rule.definition.id octets ttl).routine.Every Recalls := by
    intro octets ttl
    refine ⟨fun p => ?_, fun _ => trivial⟩
    unfold ask
    rcases p.memory.cache.get rule.definition.id (keyOf octets) p.clock ttl with
      ⟨cache, _ | output⟩ <;> exact ⟨_, _, rfl⟩
  refine every_bind (hask _ _) (fun found => ?_)
  cases found with
  | some output => trivial
  | none =>
    refine every_bind (every_judge t _ _) (fun status => ?_)
    cases status with
    | derived output cached =>
      have hkeep : (keep rule.definition.id
          (Fingerprint.octets rule.definition.id root context settings) output).routine.Every
          Recalls :=
        ⟨fun _ => ⟨_, _, rfl⟩, fun _ => trivial⟩
      exact every_bind hkeep (fun _ => trivial)
    | skipped reason => trivial
    | failed why => trivial

end Every

/-! ## Roots are visible -/

section Roots

variable {rely : Pipeline → Pipeline → Prop} [Rely rely] {p : Pipeline} {t : Instant}

/-- The roots of some targets are visible. -/
def Rooted (t : Instant) (found : Except PipelineError (List (RegisteredRule × Snapshot)))
    (p : Pipeline) : Prop :=
  ∀ targets, found = .ok targets → ∀ target ∈ targets, p.store.Known t target.2.reference

theorem rooted_error (why : PipelineError) (p : Pipeline) : Rooted t (.error why) p := by
  rintro targets ⟨⟩

theorem rooted_nil (p : Pipeline) : Rooted t (.ok []) p := by
  rintro targets ⟨⟩ target ⟨⟩

theorem Rooted.append {found more : List (RegisteredRule × Snapshot)} (h : Rooted t (.ok found) p)
    (hmore : Rooted t (.ok more) p) : Rooted t (.ok (found ++ more)) p := by
  rintro targets ⟨⟩ target htarget
  rcases List.mem_append.1 htarget with htarget | htarget
  · exact h found rfl target htarget
  · exact hmore more rfl target htarget

theorem Rooted.later {q : Pipeline}
    {found : Except PipelineError (List (RegisteredRule × Snapshot))} (h : Rooted t found p)
    (hq : p.Later q) : Rooted t found q :=
  fun targets htargets target htarget => hq.known (h targets htargets target htarget)

theorem obeys_rootsAlong (changed : Reference) (rule : RegisteredRule) (start : Reference)
    (path : Path) (hp : p.store.Reachable) :
    (rootsAlong changed rule start path t).routine.Obeys rely Recalls (Rooted t) p := by
  have hfollow : (follow start path.reversed rule.definition.consumes t).routine.Obeys rely Recalls
      (fun found q => ∀ os, found = .ok os → ∀ o ∈ os, q.store.Known t o.reference) p :=
    obeys_reading (fun q hq os hos o ho =>
      ((Rely.later hq).reachable hp).wellFormed.known_of_follow hos ho)
  refine obeys_bind Recalls.within hfollow (fun found q _ hknown => ?_)
  cases found with
  | error why => exact rooted_error _ q
  | ok roots =>
    rintro targets ⟨⟩ target htarget
    obtain ⟨root, hroot, rfl⟩ := List.mem_map.1 htarget
    exact hknown roots rfl root hroot

theorem obeys_parameterTargets (changed : Reference)
    (xs : List (RegisteredRule × RuleParameter)) (hp : p.store.Reachable) :
    (parameterTargets changed t xs).routine.Obeys rely Recalls (Rooted t) p := by
  induction xs generalizing p with
  | nil => exact rooted_nil p
  | cons x xs ih =>
    refine obeys_bind Recalls.within (obeys_rootsAlong changed x.1 changed x.2.path hp)
      (fun found q hq hfound => ?_)
    cases found with
    | error why => exact rooted_error _ q
    | ok roots =>
      refine obeys_bind Recalls.within (ih ((Rely.later hq).reachable hp))
        (fun more s hs hmore => ?_)
      cases more with
      | error why => exact rooted_error _ s
      | ok more => exact (hfound.later (Rely.later hs)).append hmore

theorem obeys_configTargets (registry : Registry) (changed : Snapshot) (hp : p.store.Reachable) :
    (configTargets registry changed t).routine.Obeys rely Recalls (Rooted t) p := by
  unfold configTargets
  split
  · split
    · split
      · exact obeys_rootsAlong _ _ _ _ hp
      · exact rooted_nil p
    · exact rooted_nil p
  · exact rooted_nil p

theorem obeys_dependentTargets (registry : Registry) (changed : Snapshot)
    (hp : p.store.Reachable) :
    (dependentTargets registry changed t).routine.Obeys rely Recalls (Rooted t) p := by
  refine obeys_bind Recalls.within (obeys_parameterTargets changed.reference _ hp)
    (fun byParameter q hq hfound => ?_)
  cases byParameter with
  | error why => exact rooted_error _ q
  | ok byParameter =>
    refine obeys_bind Recalls.within (obeys_configTargets registry changed
      ((Rely.later hq).reachable hp)) (fun byConfig s hs hmore => ?_)
    cases byConfig with
    | error why => exact rooted_error _ s
    | ok byConfig => exact (hfound.later (Rely.later hs)).append hmore

theorem obeys_targets (registry : Registry) (changed : Reference) (hp : p.store.Reachable) :
    (targets registry changed t).routine.Obeys rely Recalls (Rooted t) p := by
  have hget : (get changed t).routine.Obeys rely Recalls
      (fun found q => ∀ o, found = .ok (some o) → q.store.Known t o.reference) p :=
    obeys_reading (fun q hq o ho => ((Rely.later hq).reachable hp).wellFormed.known_of_get ho)
  refine obeys_bind Recalls.within hget (fun found q hq hknown => ?_)
  rcases found with why | (_ | object)
  · exact rooted_error _ q
  · exact rooted_nil q
  · refine obeys_bind Recalls.within (obeys_dependentTargets registry object
      ((Rely.later hq).reachable hp)) (fun dependent s hs hdependent => ?_)
    cases dependent with
    | error why => exact rooted_error _ s
    | ok dependent =>
      have hown : Rooted t (.ok ((registry.rulesForRoot object.type).map
          (fun rule => (rule, object)))) s := by
        rintro targets ⟨⟩ target htarget
        obtain ⟨rule, -, rfl⟩ := List.mem_map.1 htarget
        exact (Rely.later hs).known (hknown object rfl)
      rintro targets ⟨⟩ target htarget
      exact hown.append hdependent _ rfl target ((distinctBy_sublist _ _).subset htarget)

theorem obeys_evaluate (policy : DerivationPolicy) (target : RegisteredRule × Snapshot)
    (hroot : p.store.Known t target.2.reference) :
    (evaluate policy t target).routine.Obeys rely Recalls
      (fun o q => q.store.Known t o.root.reference) p := by
  have hstays : ∀ p q : Pipeline, rely p q → p.store.Known t target.2.reference →
      q.store.Known t target.2.reference :=
    fun p q hq h => (Rely.later hq).known h
  refine obeys_bind Recalls.within
    ((every_prepare t _ _ _).obeys Recalls.within hstays hroot) (fun prepared q _ hroot => ?_)
  cases prepared with
  | error status =>
    exact obeys_bind Recalls.within (every_elapse.obeys Recalls.within hstays hroot)
      (fun _ _ _ hroot => hroot)
  | ok inputs =>
    refine obeys_bind Recalls.within
      ((every_apply t _ _ _ _ _).obeys Recalls.within hstays hroot) (fun status s _ hroot => ?_)
    exact hroot

/-- However the evaluations are gone through and whatever others do meanwhile, the roots of what
they come to are visible when they are over. -/
theorem obeys_deriveBy {gather : List (Course RuleOutcome) → Course (List RuleOutcome)}
    (hgather : ∀ ws, Gathers ws (gather ws)) (changed : Reference) (hp : p.store.Reachable) :
    (deriveBy gather changed t).routine.Obeys rely Recalls
      (fun found q => ∀ o ∈ found, q.store.Known t o.root.reference) p := by
  have hread : (reading id).routine.Obeys rely Recalls (fun _ _ => True) p :=
    obeys_reading (fun _ _ => trivial)
  refine obeys_bind Recalls.within hread (fun s q hq _ => ?_)
  refine obeys_bind Recalls.within (obeys_targets s.registry changed
    ((Rely.later hq).reachable hp)) (fun found q' _ hfound => ?_)
  cases found with
  | error why => trivial
  | ok found =>
    have hstays : ∀ (o : RuleOutcome) (p q : Pipeline), rely p q →
        p.store.Known t o.root.reference → q.store.Known t o.root.reference :=
      fun o p q hq h => (Rely.later hq).known h
    refine (hgather _).obeys Recalls.within hstays (fun w hw => ?_)
    obtain ⟨target, htarget, rfl⟩ := List.mem_map.1 hw
    exact obeys_evaluate _ target (hfound found rfl target htarget)

end Roots

end Evaluator

end ScanGraph
