/-
Evaluations while the store changes.

What a running pipeline derives is of the types that the rules at hand declare,
which are no records, and what its cache has of the rule that links hosts to
addresses is what the rule's body returned: `safe_deriveBy`.  So the link that an
address record asks for is derived for a commit of the record, whatever changes
between the calls of the evaluation, as long as the record stands: a context that
shows the record, or one with its fingerprint, gives the address.

## How it is set up

`Running` is what is known of a pipeline at any moment, and `Tended` how it may change
between two calls: the store goes on, and what waits goes on waiting.  `safe_deriveBy`
and the lemmas before it go through the calls of an evaluation and show for each that it
leads from a running pipeline to one, and what its answer is good for.

## What is asked

That no two of the octets that were hashed have one digest is asked for a set which all
octets of the run lie in, since an entry may be found that was made long before.  The
plugins are those at hand and hosts are to be linked to addresses; other policies may be
anything.  That the evaluations come to an end is not a matter here, as a course that is
never continued owes nothing.
-/
import Mathlib.Data.Set.Function
import ScanGraph.Proofs.Derivation.Evaluator
import ScanGraph.Proofs.Derivation.Fingerprint
import ScanGraph.Proofs.Derivation.Resolving
import ScanGraph.Proofs.Pipeline.Services

namespace ScanGraph

open Builtin

/-! ## Caches to be trusted -/

/-- What is in a cache is no record, and what it has of the rule that links hosts to addresses is
what the rule's body returned for inputs that were hashed. -/
structure Cache.Trusted (c : Cache) (hashes : Set (List UInt8)) : Prop where
  unrecorded : ∀ rule key entry, c.Holds rule key entry →
    ∀ o ∈ entry.output, o.type.isA .dnsRecord = false
  made : ∀ key entry, c.Holds dnsResolving key entry → ∃ root context settings,
    Fingerprint.octets dnsResolving root context settings ∈ hashes ∧
      key = Evaluator.keyOf (Fingerprint.octets dnsResolving root context settings) ∧
      resolving root context settings = .returned entry.output

namespace Cache

variable {c c' : Cache} {hashes : Set (List UInt8)}

theorem trusted_empty (hashes : Set (List UInt8)) : Cache.empty.Trusted hashes where
  unrecorded _ _ _ h := absurd h not_holds_empty
  made _ _ h := absurd h not_holds_empty

theorem Trusted.of_get (h : c.Trusted hashes) (rule key : String) (now ttl : Nat) :
    (c.get rule key now ttl).1.Trusted hashes where
  unrecorded rule key entry hentry := h.unrecorded rule key entry hentry.of_get
  made key entry hentry := h.made key entry hentry.of_get

theorem Trusted.insert (h : c.Trusted hashes) {rule : RegisteredRule} {root : Snapshot}
    {context : RuleContext} {settings : RuleSettings} {output : List Snapshot}
    (hresolving : rule.definition.id = dnsResolving → rule = resolvingRule)
    (hhashed : Fingerprint.octets rule.definition.id root context settings ∈ hashes)
    (hreturned : rule.body root context settings = .returned output)
    (hunrecorded : ∀ o ∈ output, o.type.isA .dnsRecord = false) (now : Nat) :
    (c.insert rule.definition.id
      (Evaluator.keyOf (Fingerprint.octets rule.definition.id root context settings)) now
      output).Trusted hashes where
  unrecorded rule' key entry hentry := by
    rcases hentry.of_insert with hheld | ⟨-, -, rfl⟩
    · exact h.unrecorded rule' key entry hheld
    · exact hunrecorded
  made key entry hentry := by
    rcases hentry.of_insert with hheld | ⟨hrule, rfl, rfl⟩
    · exact h.made key entry hheld
    · obtain rfl := hresolving hrule.symm
      exact ⟨root, context, settings, hhashed, rfl, hreturned⟩

end Cache

namespace Builtin

theorem eq_resolvingRule {rule : RegisteredRule} (hrule : rule ∈ rules)
    (hid : rule.id = dnsResolving) : rule = resolvingRule := by
  simp only [rules, List.mem_cons, List.not_mem_nil, or_false] at hrule
  rcases hrule with rfl | rfl | rfl
  · rfl
  · exact absurd hid (by decide)
  · exact absurd hid (by decide)

theorem isA_dnsRecord_of_declares {rule : RegisteredRule} (hrule : rule ∈ rules)
    {type : ObjectType} (h : rule.definition.declares type = true) :
    type.isA .dnsRecord = false := by
  simp only [rules, List.mem_cons, List.not_mem_nil, or_false] at hrule
  rcases hrule with rfl | rfl | rfl <;> revert h <;> cases type <;> decide

end Builtin

/-! ## Running pipelines -/

namespace Pipeline

/-- The services work, the plugins are those at hand, hosts are to be linked to addresses, and the
cache can be trusted. -/
structure Running (hashes : Set (List UInt8)) (p : Pipeline) : Prop where
  working : p.Working
  registry : AtHand p.registry
  enabled : p.policy.derivation.isEnabled dnsResolving true = true
  reachable : p.store.Reachable
  trusted : p.memory.cache.Trusted hashes

/-- A pipeline goes on running with the store that it has, and what waits goes on waiting. -/
structure Tended (hashes : Set (List UInt8)) (p q : Pipeline) : Prop where
  running : q.Running hashes
  waiting : ∀ r ∈ p.queue.waiting, r ∈ q.queue.waiting
  store : q.store = p.store

variable {hashes : Set (List UInt8)} {p : Pipeline}

theorem Running.tended (h : p.Running hashes) : Tended hashes p p :=
  ⟨h, fun _ hr => hr, rfl⟩

theorem Running.remembering (h : p.Running hashes) {memory : Memory}
    (hmemory : memory.cache.Trusted hashes) (clock : Nat) :
    Tended hashes p { p with memory, clock } :=
  ⟨⟨⟨h.working.outages, h.working.online⟩, h.registry, h.enabled, h.reachable, hmemory⟩,
    fun _ hr => hr, rfl⟩

end Pipeline

namespace Evaluator

open Course Pipeline

/-- As it should be the pipeline is running, and to tend it is to take such a step. -/
structure Suits (hashes : Set (List UInt8)) (holds : Pipeline → Prop)
    (step : Pipeline → Pipeline → Prop) : Prop where
  running : ∀ p, holds p → p.Running hashes
  step : ∀ p q, holds p → Tended hashes p q → step p q

section Suits

variable {hashes : Set (List UInt8)} {holds : Pipeline → Prop} {step : Pipeline → Pipeline → Prop}
  (h : Suits hashes holds step) {root changed : Reference} {t : Instant}

include h

/-! ## Reading -/

theorem safe_get (r : Reference) (t : Instant) : (get r t).Safe hashes holds step
    (fun x => ∃ p, holds p ∧ x = .ok (p.store.read? r t)) := by
  refine safe_reading (fun p hp => ?_)
  exact ⟨h.step p p hp (h.running p hp).tended, p, hp, (h.running p hp).working.get r t⟩

theorem safe_follow (start : Reference) (path : Path) (type : ObjectType) (t : Instant) :
    (follow start path type t).Safe hashes holds step
      (fun x => ∃ p, holds p ∧ x = .ok (p.store.walk start path type t)) := by
  refine safe_reading (fun p hp => ?_)
  have hfollow : p.store.follow start path type t = .ok (p.store.walk start path type t) :=
    Store.guarded_eq_ok_iff.2 ⟨(h.running p hp).working.online, rfl⟩
  exact ⟨h.step p p hp (h.running p hp).tended, p, hp, hfollow⟩

theorem safe_lookUp (x : RuleParameter) : (lookUp x root t).Safe hashes holds step
    (fun found => ∃ p, holds p ∧ found = .ok (x.eligible (p.store.walk root x.path x.type t))) := by
  refine (safe_follow h root x.path x.type t).bind ?_
  rintro _ ⟨p, hp, rfl⟩
  exact ⟨p, hp, rfl⟩

end Suits

/-- A slot was filled for a parameter at a moment at which the pipeline was as it should be. -/
def Fills (holds : Pipeline → Prop) (root : Reference) (t : Instant) (x : RuleParameter)
    (s : Slot) : Prop :=
  ∃ p, holds p ∧ s = ⟨x.name, x.type, x.eligible (p.store.walk root x.path x.type t)⟩

section Suits

variable {hashes : Set (List UInt8)} {holds : Pipeline → Prop} {step : Pipeline → Pipeline → Prop}
  (h : Suits hashes holds step) {root changed : Reference} {t : Instant}

include h

theorem safe_resolveContext (xs : List RuleParameter) :
    (resolveContext root t xs).Safe hashes holds step (fun found =>
      (∃ context, found = .ok (.ready context) ∧ List.Forall₂ (Fills holds root t) xs context) ∨
        ∃ x ∈ xs, x.optional = false ∧ found = .ok (.missing x.name)) := by
  induction xs with
  | nil => exact .inl ⟨[], rfl, .nil⟩
  | cons x xs ih =>
    unfold resolveContext
    refine (safe_lookUp h x).bind ?_
    rintro _ ⟨p, hp, rfl⟩
    dsimp only
    split
    · rename_i hmissing
      have hoptional : x.optional = false := by simpa using (Bool.and_eq_true_iff.1 hmissing).2
      exact .inr ⟨x, List.mem_cons_self, hoptional, rfl⟩
    · refine ih.bind ?_
      rintro _ (⟨context, rfl, hcontext⟩ | ⟨y, hy, hoptional, rfl⟩)
      · exact .inl ⟨_, rfl, .cons ⟨p, hp, rfl⟩ hcontext⟩
      · exact .inr ⟨y, List.mem_cons_of_mem _ hy, hoptional, rfl⟩

theorem safe_settingsOn (rule : String) (settings : RuleSettings) (holders : List Snapshot) :
    (settingsOn rule t settings holders).Safe hashes holds step (fun _ => True) := by
  induction holders generalizing settings with
  | nil => trivial
  | cons o rest ih =>
    refine (safe_get h _ t).bind ?_
    rintro _ ⟨p, hp, rfl⟩
    exact ih _

theorem safe_loadSettings (d : RuleDefinition) :
    (loadSettings d root t).Safe hashes holds step (fun _ => True) := by
  unfold loadSettings
  split
  · trivial
  · refine (safe_follow h _ _ _ t).bind ?_
    rintro _ ⟨p, hp, rfl⟩
    exact safe_settingsOn h d.id .empty _

theorem safe_prepare (policy : DerivationPolicy) (d : RuleDefinition) (o : Snapshot) :
    (prepare policy d o t).Safe hashes holds step
      (fun x => ∀ status, x = .error status → status.objects = []) := by
  unfold prepare
  split
  · rintro _ ⟨⟩
    rfl
  · split
    · rintro _ ⟨⟩
      rfl
    · refine (safe_resolveContext h d.parameters).bind ?_
      rintro _ (⟨context, rfl, -⟩ | ⟨x, -, -, rfl⟩)
      · refine (safe_loadSettings h d).bind (fun settings _ => ?_)
        cases settings with
        | error why =>
          rintro _ ⟨⟩
          rfl
        | ok settings => rintro _ ⟨⟩
      · rintro _ ⟨⟩
        rfl

/-! ## Output -/

theorem safe_checkObject (d : RuleDefinition) (output : List Snapshot) (o : Snapshot) :
    (checkObject d output t o).Safe hashes holds step
      (fun x => x = .ok () → d.declares o.type = true) := by
  unfold checkObject
  split
  · rintro ⟨⟩
  · rename_i hdeclares
    have hdeclares : d.declares o.type = true := by simpa using hdeclares
    split
    · exact fun _ => hdeclares
    · split
      · exact fun _ => hdeclares
      · refine (safe_get h _ t).bind ?_
        rintro _ ⟨p, hp, rfl⟩
        cases p.store.read? _ t <;> exact fun _ => hdeclares

theorem safe_checkObjects (d : RuleDefinition) (output os : List Snapshot) :
    (checkObjects d output t os).Safe hashes holds step
      (fun x => x = .ok () → ∀ o ∈ os, d.declares o.type = true) := by
  induction os with
  | nil => exact fun _ o ho => absurd ho List.not_mem_nil
  | cons o os ih =>
    refine (safe_checkObject h d output o).bind (fun x hx => ?_)
    cases x with
    | error why => rintro ⟨⟩
    | ok _ =>
      refine ih.weaken (fun x hrest hok o' ho' => ?_)
      rcases List.mem_cons.1 ho' with rfl | ho'
      · exact hx rfl
      · exact hrest hok o' ho'

theorem safe_judge (d : RuleDefinition) (outcome : Outcome String (List Snapshot)) :
    (judge d t outcome).Safe hashes holds step (fun status => ∀ output cached,
      status = .derived output cached →
        outcome = .returned output ∧ ∀ o ∈ output, d.declares o.type = true) := by
  cases outcome with
  | returned output =>
    refine (safe_checkObjects h d output output).bind (fun x hx => ?_)
    cases x with
    | ok _ =>
      rintro _ _ ⟨⟩
      exact ⟨rfl, hx rfl⟩
    | error why => rintro _ _ ⟨⟩
  | failed m => rintro _ _ ⟨⟩
  | panicked m => rintro _ _ ⟨⟩

/-! ## The cache -/

/-- What is found is in a cache that can be trusted, and the octets were hashed. -/
theorem safe_consult (rule : String) (octets : List UInt8) (ttl : Nat) :
    (consult rule octets ttl).Safe hashes holds step (fun found => octets ∈ hashes ∧
      ∀ output, found = some output → ∃ c entry, Cache.Trusted c hashes ∧
        c.Holds rule (keyOf octets) entry ∧ entry.output = output) := by
  intro hhashed p hp
  have hmem : octets ∈ hashes := hhashed octets (List.mem_singleton_self _)
  have hrunning := h.running p hp
  have hleft := hrunning.trusted.of_get rule (keyOf octets) p.clock ttl
  rcases hget : p.memory.cache.get rule (keyOf octets) p.clock ttl with ⟨cache, _ | output⟩
  · rw [hget] at hleft
    rw [ask_of_none hget]
    refine ⟨h.step p _ hp (hrunning.remembering hleft _), hmem, ?_⟩
    rintro _ ⟨⟩
  · rw [hget] at hleft
    rw [ask_of_found hget]
    refine ⟨h.step p _ hp (hrunning.remembering hleft _), hmem, ?_⟩
    rintro _ ⟨⟩
    obtain ⟨entry, hentry, houtput⟩ := Cache.holds_of_get (congrArg Prod.snd hget)
    exact ⟨_, entry, hrunning.trusted, hentry, houtput⟩

theorem safe_elapse : elapse.Safe hashes holds step (fun _ => True) := by
  intro _ p hp
  have hrunning := h.running p hp
  exact ⟨h.step p _ hp (hrunning.remembering hrunning.trusted _), trivial⟩

theorem safe_keep {rule : RegisteredRule} {o : Snapshot} {context : RuleContext}
    {settings : RuleSettings} {output : List Snapshot} (hrule : rule ∈ rules)
    (hhashed : Fingerprint.octets rule.definition.id o context settings ∈ hashes)
    (hreturned : rule.body o context settings = .returned output)
    (hunrecorded : ∀ o ∈ output, o.type.isA .dnsRecord = false) :
    (keep rule.definition.id (Fingerprint.octets rule.definition.id o context settings)
      output).Safe hashes holds step (fun _ => True) := by
  intro _ p hp
  have hkept := (h.running p hp).trusted.insert (eq_resolvingRule hrule) hhashed hreturned
    hunrecorded p.clock
  exact ⟨h.step p _ hp ((h.running p hp).remembering hkept _), trivial⟩

/-! ## No rule derives records -/

theorem safe_apply (policy : DerivationPolicy) {rule : RegisteredRule}
    (hrule : rule ∈ rules) (o : Snapshot) (context : RuleContext)
    (settings : RuleSettings) : (apply policy rule o context settings t).Safe hashes holds step
      (fun status => ∀ o ∈ status.objects, o.type.isA .dnsRecord = false) := by
  refine (safe_consult h _ _ _).bind ?_
  rintro (_ | output) ⟨hhashed, hfound⟩
  · refine (safe_judge h rule.definition _).bind (fun status hjudged => ?_)
    cases status with
    | derived output cached =>
      obtain ⟨hreturned, hdeclared⟩ := hjudged output cached rfl
      have hunrecorded : ∀ o ∈ output, o.type.isA .dnsRecord = false :=
        fun o ho => isA_dnsRecord_of_declares hrule (hdeclared o ho)
      exact (safe_keep h hrule hhashed hreturned hunrecorded).bind (fun _ _ => hunrecorded)
    | skipped reason => exact fun o ho => absurd ho List.not_mem_nil
    | failed why => exact fun o ho => absurd ho List.not_mem_nil
  · obtain ⟨c, entry, htrusted, hentry, rfl⟩ := hfound output rfl
    exact htrusted.unrecorded _ _ entry hentry

theorem safe_evaluate (policy : DerivationPolicy) {target : RegisteredRule × Snapshot}
    (hrule : target.1 ∈ rules) : (evaluate policy t target).Safe hashes holds step
      (fun outcome => ∀ o ∈ outcome.status.objects, o.type.isA .dnsRecord = false) := by
  refine (safe_prepare h policy target.1.definition target.2).bind (fun x hx => ?_)
  rcases x with status | ⟨context, settings⟩
  · have hnone : status.objects = [] := hx status rfl
    refine (safe_elapse h).bind (fun _ _ o ho => ?_)
    have ho : o ∈ status.objects := ho
    rw [hnone] at ho
    exact absurd ho List.not_mem_nil
  · exact (safe_apply h policy hrule target.2 context settings).bind (fun _ hstatus => hstatus)

/-! ## Targets -/

/-- The roots found are those that were led back to at some moment, and for each parameter all of
one moment are among them. -/
theorem safe_parameterTargets (xs : List (RegisteredRule × RuleParameter)) :
    (parameterTargets changed t xs).Safe hashes holds step (fun x => ∃ found, x = .ok found ∧
      (∀ target ∈ found, ∃ y ∈ xs, target.1 = y.1 ∧ ∃ p, holds p ∧
        target.2 ∈ p.store.walk changed y.2.path.reversed y.1.definition.consumes t) ∧
      ∀ y ∈ xs, ∃ p, holds p ∧
        ∀ o ∈ p.store.walk changed y.2.path.reversed y.1.definition.consumes t,
          (y.1, o) ∈ found) := by
  induction xs with
  | nil =>
    exact ⟨[], rfl, fun _ ho => absurd ho List.not_mem_nil, fun _ hy => absurd hy List.not_mem_nil⟩
  | cons y xs ih =>
    obtain ⟨rule, parameter⟩ := y
    have hroots : (rootsAlong changed rule changed parameter.path t).Safe hashes holds step
        (fun x => ∃ p, holds p ∧ x = .ok ((p.store.walk changed parameter.path.reversed
          rule.definition.consumes t).map (fun o => (rule, o)))) := by
      refine (safe_follow h _ _ _ t).bind ?_
      rintro _ ⟨p, hp, rfl⟩
      exact ⟨p, hp, rfl⟩
    refine hroots.bind ?_
    rintro _ ⟨p, hp, rfl⟩
    refine ih.bind ?_
    rintro _ ⟨found, rfl, hback, hall⟩
    refine ⟨_, rfl, fun target htarget => ?_, fun y hy => ?_⟩
    · rcases List.mem_append.1 htarget with hnew | hold
      · obtain ⟨o, ho, rfl⟩ := List.mem_map.1 hnew
        exact ⟨_, List.mem_cons_self, rfl, p, hp, ho⟩
      · obtain ⟨y, hy, hwalked⟩ := hback target hold
        exact ⟨y, List.mem_cons_of_mem _ hy, hwalked⟩
    · rcases List.mem_cons.1 hy with rfl | hy
      · exact ⟨p, hp, fun o ho => List.mem_append_left _ (List.mem_map_of_mem ho)⟩
      · obtain ⟨q, hq, hfound⟩ := hall y hy
        exact ⟨q, hq, fun o ho => List.mem_append_right _ (hfound o ho)⟩

theorem safe_configTargets (registry : Registry) (o : Snapshot) :
    (configTargets registry o t).Safe hashes holds step
      (fun x => ∃ found, x = .ok found ∧ ∀ target ∈ found, target.1 ∈ registry.rules.values) := by
  have hnone : (pure (.ok []) : Course (Except PipelineError (List (RegisteredRule × Snapshot)))).Safe
      hashes holds step
      (fun x => ∃ found, x = .ok found ∧ ∀ target ∈ found, target.1 ∈ registry.rules.values) :=
    ⟨[], rfl, fun _ ho => absurd ho List.not_mem_nil⟩
  unfold configTargets
  split
  · split
    · rename_i rule hget
      split
      · refine (safe_follow h _ _ _ t).bind ?_
        rintro _ ⟨p, hp, rfl⟩
        refine ⟨_, rfl, fun target htarget => ?_⟩
        obtain ⟨o, -, rfl⟩ := List.mem_map.1 htarget
        exact List.mem_map_of_mem (f := Prod.snd) (Table.mem_entries_of_get? hget)
      · exact hnone
    · exact hnone
  · exact hnone

omit h in
theorem mem_values_of_mem_rulesWithParameter {registry : Registry} {type : ObjectType}
    {y : RegisteredRule × RuleParameter} (hy : y ∈ registry.rulesWithParameter type) :
    y.1 ∈ registry.rules.values := by
  obtain ⟨rule, hrule, hy⟩ := List.mem_flatMap.1 hy
  obtain ⟨parameter, -, rfl⟩ := List.mem_map.1 hy
  exact hrule

theorem safe_dependentTargets (registry : Registry) (object : Snapshot) :
    (dependentTargets registry object t).Safe hashes holds step (fun x => ∃ found, x = .ok found ∧
      (∀ target ∈ found, target.1 ∈ registry.rules.values) ∧
      ∀ y ∈ registry.rulesWithParameter object.type, ∃ p, holds p ∧
        ∀ o ∈ p.store.walk object.reference y.2.path.reversed y.1.definition.consumes t,
          (y.1, o) ∈ found) := by
  refine (safe_parameterTargets h _).bind ?_
  rintro _ ⟨byParameter, rfl, hback, hall⟩
  refine (safe_configTargets h registry object).bind ?_
  rintro _ ⟨byConfig, rfl, hconfig⟩
  refine ⟨_, rfl, fun target htarget => ?_, fun y hy => ?_⟩
  · rcases List.mem_append.1 htarget with htarget | htarget
    · obtain ⟨y, hy, hrule, -⟩ := hback target htarget
      exact hrule ▸ mem_values_of_mem_rulesWithParameter hy
    · exact hconfig target htarget
  · obtain ⟨p, hp, hfound⟩ := hall y hy
    exact ⟨p, hp, fun o ho => List.mem_append_left _ (hfound o ho)⟩

omit h in
theorem mem_values_of_mem_distinctBy {registry : Registry} {object : Snapshot}
    {dependent : List (RegisteredRule × Snapshot)}
    (hrules : ∀ target ∈ dependent, target.1 ∈ registry.rules.values)
    {target : RegisteredRule × Snapshot}
    (htarget : target ∈ distinctBy Engine.targetKey
      ((registry.rulesForRoot object.type).map (fun rule => (rule, object)) ++ dependent)) :
    target.1 ∈ registry.rules.values := by
  rcases List.mem_append.1 ((distinctBy_sublist _ _).subset htarget) with htarget | htarget
  · obtain ⟨rule, hrule, rfl⟩ := List.mem_map.1 htarget
    exact (List.mem_filter.1 hrule).1
  · exact hrules target htarget

theorem safe_targets (registry : Registry) : (targets registry changed t).Safe hashes holds step
    (fun x => ∃ found, x = .ok found ∧ ∀ target ∈ found, target.1 ∈ registry.rules.values) := by
  refine (safe_get h changed t).bind ?_
  rintro _ ⟨p, hp, rfl⟩
  cases p.store.read? changed t with
  | none => exact ⟨[], rfl, fun _ ho => absurd ho List.not_mem_nil⟩
  | some object =>
    refine (safe_dependentTargets h registry object).bind ?_
    rintro _ ⟨dependent, rfl, hrules, -⟩
    exact ⟨_, rfl, fun target => mem_values_of_mem_distinctBy hrules⟩

/-- Whatever a running pipeline derives for a commit, there is no record among it. -/
theorem safe_deriveBy {gather : List (Course RuleOutcome) → Course (List RuleOutcome)}
    (hgather : ∀ ws, Gathers ws (gather ws)) :
    (deriveBy gather changed t).Safe hashes holds step (fun outcomes => ∀ outcome ∈ outcomes,
      ∀ o ∈ outcome.status.objects, o.type.isA .dnsRecord = false) := by
  have hread : (reading id).Safe hashes holds step (fun p => AtHand p.registry) :=
    safe_reading (fun p hp => ⟨h.step p p hp (h.running p hp).tended, (h.running p hp).registry⟩)
  refine hread.bind (fun p hplugins => ?_)
  refine (safe_targets h p.registry).bind ?_
  rintro _ ⟨found, rfl, hrules⟩
  refine (hgather _).safe (fun w hw => ?_)
  obtain ⟨target, htarget, rfl⟩ := List.mem_map.1 hw
  exact safe_evaluate h _ (hplugins.values_rules ▸ hrules target htarget)

end Suits

end Evaluator

end ScanGraph
