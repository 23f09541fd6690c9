/-
What a commit is dispatched to.

A commit concerns the rules that have the object as a root, the rules whose
parameters it may fill, at the roots that the paths lead back to, and the rule whose
settings it holds, at the roots that these are for.  The three overlap in many ways:
an object may stand in its own context, and several parameters, or several chains
along one path, may lead back to one root.  Every pair of a rule and a root is
evaluated once all the same, with the root as it is read at the time, and no other
pair is: `derives_concerned`.

Repetitions are told by ids and references alone.  That drops no pair that differs,
because a built registry has one rule for an id, and all roots are read from one
store at one time.

## What is asked, and what is not

The store is reachable and online, the registry was built, and the changed object is
visible at the time that is asked for.  The outcomes are then there, whatever the rules'
bodies do and whatever the clock shows; that one body fails or panics is an outcome of
its own and takes no other one away.

`Concerned` is what the engine takes a change to concern.  It does not say that every
root whose context a change touches is among them, which is false: see
`Derivation.Triggers`.  That the object itself is read from the store before anything
else is why it must be visible; for one that is not, there are no outcomes at all.
-/
import ScanGraph.Proofs.Derivation.Triggers
import ScanGraph.Proofs.Store.Chains

namespace ScanGraph

namespace Engine

/-- An object hangs settings of a rule on a subject, and the rule looks for them along a path from
its roots. -/
def Configures (e : Engine) (o : Snapshot) (rule : RegisteredRule) (subject : Reference)
    (path : Path) : Prop :=
  rule ∈ e.registry.rules.values ∧ (∃ settings, o.entity = .config subject rule.id settings) ∧
    rule.definition.configPath = some path

/-- The change of an object concerns a rule at a root. -/
inductive Concerned (e : Engine) (t : Instant) (o : Snapshot) (rule : RegisteredRule) :
    Snapshot → Prop
  /-- The object is a root of the rule. -/
  | own : o.type.isA rule.definition.consumes = true → Concerned e t o rule o
  /-- The object may fill a parameter, and the path leads back from it to the root. -/
  | parameter {p : RuleParameter} {root : Snapshot} : p ∈ rule.definition.parameters →
      o.type.isA p.type = true →
      root ∈ e.store.walk o.reference p.path.reversed rule.definition.consumes t →
      Concerned e t o rule root
  /-- The object holds settings of the rule, and the path to them leads back to the root. -/
  | settings {subject : Reference} {path : Path} {root : Snapshot} :
      e.Configures o rule subject path →
      root ∈ e.store.walk subject path.reversed rule.definition.consumes t →
      Concerned e t o rule root

section Targets

variable {e : Engine} {t : Instant} {changed : Reference} {o root : Snapshot}
  {rule : RegisteredRule} {d : Registry.Draft}

/-! ## Targets -/

theorem mem_back_iff {start : Reference} {rule' : RegisteredRule} {path : Path} :
    (rule, root) ∈ e.back t start rule' path ↔
      rule' = rule ∧ root ∈ e.store.walk start path.reversed rule'.definition.consumes t := by
  unfold back
  rw [List.mem_map]
  constructor
  · rintro ⟨found, hfound, heq⟩
    obtain ⟨rfl, rfl⟩ := Prod.mk.inj heq
    exact ⟨rfl, hfound⟩
  · rintro ⟨rfl, hroot⟩
    exact ⟨root, hroot, rfl⟩

theorem mem_ownTargets_iff :
    (rule, root) ∈ e.ownTargets o ↔
      rule ∈ e.registry.rules.values ∧ o.type.isA rule.definition.consumes = true ∧ root = o := by
  unfold ownTargets Registry.rulesForRoot
  rw [List.mem_map]
  constructor
  · rintro ⟨found, hfound, heq⟩
    obtain ⟨rfl, rfl⟩ := Prod.mk.inj heq
    obtain ⟨hrule, htype⟩ := List.mem_filter.1 hfound
    exact ⟨hrule, htype, rfl⟩
  · rintro ⟨hrule, htype, rfl⟩
    exact ⟨rule, List.mem_filter.2 ⟨hrule, htype⟩, rfl⟩

theorem mem_rulesWithParameter_iff {type : ObjectType} {p : RuleParameter} :
    (rule, p) ∈ e.registry.rulesWithParameter type ↔
      rule ∈ e.registry.rules.values ∧ p ∈ rule.definition.parameters ∧ type.isA p.type = true := by
  unfold Registry.rulesWithParameter
  rw [List.mem_flatMap]
  constructor
  · rintro ⟨found, hfound, hp⟩
    obtain ⟨q, hq, heq⟩ := List.mem_map.1 hp
    obtain ⟨rfl, rfl⟩ := Prod.mk.inj heq
    exact ⟨hfound, List.mem_filter.1 hq⟩
  · rintro ⟨hrule, hp⟩
    exact ⟨rule, hrule, List.mem_map_of_mem (List.mem_filter.2 hp)⟩

/-- A configuration object is for one rule, one subject and one path. -/
theorem Configures.unique (hbuild : d.build = .ok e.registry) {rule' : RegisteredRule}
    {subject subject' : Reference} {path path' : Path} (h : e.Configures o rule subject path)
    (h' : e.Configures o rule' subject' path') :
    rule = rule' ∧ subject = subject' ∧ path = path' := by
  obtain ⟨hrule, ⟨settings, hentity⟩, hpath⟩ := h
  obtain ⟨hrule', ⟨settings', hentity'⟩, hpath'⟩ := h'
  obtain ⟨rfl, hid, -⟩ := Entity.config.inj (hentity.symm.trans hentity')
  obtain rfl := Registry.eq_of_id hbuild hrule hrule' hid
  exact ⟨rfl, rfl, Option.some.inj (hpath.symm.trans hpath')⟩

theorem Configures.configTargets_eq (hbuild : d.build = .ok e.registry)
    (honline : e.store.offline = false) {subject : Reference} {path : Path}
    (h : e.Configures o rule subject path) :
    e.configTargets o t = .ok (e.back t subject rule path) := by
  obtain ⟨hrule, ⟨settings, hentity⟩, hpath⟩ := h
  unfold configTargets
  rw [hentity]
  dsimp only
  rw [Registry.get?_id_of_build hbuild hrule]
  dsimp only
  rw [hpath]
  exact rootsAlong_eq honline rule subject path

theorem configTargets_eq_nil_of_not (hbuild : d.build = .ok e.registry)
    (h : ∀ rule subject path, ¬ e.Configures o rule subject path) :
    e.configTargets o t = .ok [] := by
  unfold configTargets
  split
  · rename_i subject ruleId settings hentity
    split
    · rename_i rule hget
      obtain ⟨hrule, rfl⟩ := (Registry.get?_eq_some_iff_of_build hbuild).1 hget
      split
      · rename_i path hpath
        exact absurd ⟨hrule, ⟨settings, hentity⟩, hpath⟩ (h rule subject path)
      · rfl
    · rfl
  · rfl

/-- A configuration object has targets for the rule that it names alone. -/
theorem exists_configTargets (hbuild : d.build = .ok e.registry)
    (honline : e.store.offline = false) (o : Snapshot) :
    ∃ found, e.configTargets o t = .ok found ∧ ∀ rule root, (rule, root) ∈ found ↔
      ∃ subject path, e.Configures o rule subject path ∧
        root ∈ e.store.walk subject path.reversed rule.definition.consumes t := by
  by_cases hconfigures : ∃ rule subject path, e.Configures o rule subject path
  · obtain ⟨named, subject, path, hnamed⟩ := hconfigures
    refine ⟨_, hnamed.configTargets_eq hbuild honline, fun rule root => ?_⟩
    rw [mem_back_iff]
    constructor
    · rintro ⟨rfl, hroot⟩
      exact ⟨subject, path, hnamed, hroot⟩
    · rintro ⟨subject', path', hrule, hroot⟩
      obtain ⟨rfl, rfl, rfl⟩ := hnamed.unique hbuild hrule
      exact ⟨rfl, hroot⟩
  · simp only [not_exists] at hconfigures
    refine ⟨[], configTargets_eq_nil_of_not hbuild hconfigures, fun rule root => ?_⟩
    refine iff_of_false List.not_mem_nil ?_
    rintro ⟨subject, path, hrule, -⟩
    exact hconfigures rule subject path hrule

theorem Concerned.read (hs : e.store.Reachable) (ho : e.store.read? changed t = some o)
    (h : e.Concerned t o rule root) : e.store.read? root.reference t = some root := by
  cases h with
  | own =>
    obtain ⟨x, hx, rfl⟩ := Option.map_eq_some_iff.1 ho
    have hreference : (e.store.snapshot t changed x).reference = changed :=
      hs.wellFormed.reference_of_visible? hx
    rw [hreference]
    exact ho
  | parameter _ _ hroot => exact (hs.wellFormed.mem_walk_iff_chain.1 hroot).1
  | settings _ hroot => exact (hs.wellFormed.mem_walk_iff_chain.1 hroot).1

theorem Concerned.eq_of_targetKey (hs : e.store.Reachable) (hbuild : d.build = .ok e.registry)
    (ho : e.store.read? changed t = some o) {x y : RegisteredRule × Snapshot}
    (hx : x.1 ∈ e.registry.rules.values ∧ e.Concerned t o x.1 x.2)
    (hy : y.1 ∈ e.registry.rules.values ∧ e.Concerned t o y.1 y.2)
    (hkey : targetKey x = targetKey y) : x = y := by
  obtain ⟨hid, hreference⟩ : x.1.id = y.1.id ∧ x.2.reference = y.2.reference := Prod.mk.inj hkey
  have hrule : x.1 = y.1 := Registry.eq_of_id hbuild hx.1 hy.1 hid
  have hread := hx.2.read hs ho
  rw [hreference, hy.2.read hs ho] at hread
  exact Prod.ext hrule (Option.some.inj hread).symm

/-- Before repetitions are dropped, the targets of a commit are what it concerns. -/
theorem exists_targets (honline : e.store.offline = false) (hbuild : d.build = .ok e.registry)
    (ho : e.store.read? changed t = some o) :
    ∃ all, e.targets changed t = .ok (distinctBy targetKey all) ∧
      ∀ rule root, (rule, root) ∈ all ↔
        rule ∈ e.registry.rules.values ∧ e.Concerned t o rule root := by
  obtain ⟨more, hmore, hconfig⟩ := exists_configTargets (t := t) hbuild honline o
  refine ⟨e.ownTargets o ++ ((e.registry.rulesWithParameter o.type).flatMap
    (fun x => e.back t o.reference x.1 x.2.path) ++ more), ?_, ?_⟩
  · have hget : e.store.get changed t = .ok (some o) :=
      Store.guarded_eq_ok_iff.2 ⟨honline, by rw [ho]⟩
    simp only [targets, hget, dependentTargets, parameterTargets_eq honline, hmore]
  · intro rule root
    rw [List.mem_append, List.mem_append, mem_ownTargets_iff, List.mem_flatMap, hconfig]
    constructor
    · rintro (⟨hrule, htype, rfl⟩ | ⟨⟨rule', p⟩, hp, hback⟩ |
        ⟨subject, path, hconfigures, hroot⟩)
      · exact ⟨hrule, .own htype⟩
      · obtain ⟨rfl, hroot⟩ := mem_back_iff.1 hback
        obtain ⟨hrule, hp, htype⟩ := mem_rulesWithParameter_iff.1 hp
        exact ⟨hrule, .parameter hp htype hroot⟩
      · exact ⟨hconfigures.1, .settings hconfigures hroot⟩
    · rintro ⟨hrule, hconcerned⟩
      cases hconcerned with
      | own htype => exact .inl ⟨hrule, htype, rfl⟩
      | @parameter p _ hp htype hroot =>
        exact .inr (.inl ⟨(rule, p), mem_rulesWithParameter_iff.2 ⟨hrule, hp, htype⟩,
          mem_back_iff.2 ⟨rfl, hroot⟩⟩)
      | settings hconfigures hroot => exact .inr (.inr ⟨_, _, hconfigures, hroot⟩)

theorem targets_eq_concerned (hs : e.store.Reachable) (honline : e.store.offline = false)
    (hbuild : d.build = .ok e.registry) (ho : e.store.read? changed t = some o) :
    ∃ found, e.targets changed t = .ok found ∧ (found.map targetKey).Nodup ∧
      ∀ rule root, (rule, root) ∈ found ↔
        rule ∈ e.registry.rules.values ∧ e.Concerned t o rule root := by
  obtain ⟨all, htargets, hall⟩ := exists_targets honline hbuild ho
  have hone : ∀ x ∈ all, ∀ y ∈ all, targetKey x = targetKey y → x = y := by
    intro x hx y hy hkey
    exact Concerned.eq_of_targetKey hs hbuild ho ((hall x.1 x.2).1 hx) ((hall y.1 y.2).1 hy) hkey
  refine ⟨_, htargets, nodup_map_distinctBy targetKey all, fun rule root => ?_⟩
  rw [mem_distinctBy_iff targetKey hone, hall]

end Targets

/-! ## Outcomes -/

section Outcomes

variable {e : Engine} {t : Instant} {changed : Reference} {o : Snapshot} {d : Registry.Draft}

theorem exists_evaluate {times : Nat → Timing} {m : Memory}
    {found : List (RegisteredRule × Snapshot)} {x : RuleOutcome}
    (hx : x ∈ (e.evaluateAll t times m found).2) :
    ∃ target ∈ found, ∃ i m₀, (e.evaluate (times i) m₀ target.1 target.2 t).2 = x := by
  induction found generalizing times m with
  | nil => exact absurd hx List.not_mem_nil
  | cons target found ih =>
    rcases List.mem_cons.1 hx with rfl | hx
    · exact ⟨target, List.mem_cons_self, 0, m, rfl⟩
    · obtain ⟨target', htarget, i, m₀, hevaluate⟩ := ih hx
      exact ⟨target', List.mem_cons_of_mem _ htarget, i + 1, m₀, hevaluate⟩

theorem map_key_evaluateAll (times : Nat → Timing) (m : Memory)
    (found : List (RegisteredRule × Snapshot)) :
    (e.evaluateAll t times m found).2.map (fun x => (x.rule, x.root.reference))
      = found.map targetKey := by
  have hmap := congrArg (List.map (fun y : String × Snapshot => (y.1, y.2.reference)))
    (map_evaluateAll e t times m found)
  rwa [List.map_map, List.map_map] at hmap

theorem exists_outcome_iff {times : Nat → Timing} {m : Memory}
    {found : List (RegisteredRule × Snapshot)} {id : String} {root : Snapshot} :
    (∃ x ∈ (e.evaluateAll t times m found).2, x.rule = id ∧ x.root = root) ↔
      ∃ target ∈ found, target.1.id = id ∧ target.2 = root := by
  have hmem : (id, root) ∈ (e.evaluateAll t times m found).2.map (fun x => (x.rule, x.root)) ↔
      (id, root) ∈ found.map (fun target => (target.1.id, target.2)) := by
    rw [map_evaluateAll]
  simpa only [List.mem_map, Prod.mk.injEq] using hmem

/-- The evaluations for a commit are one for every rule and root that it concerns, on the root as it
is read, and no others. -/
theorem derives_concerned (hs : e.store.Reachable) (honline : e.store.offline = false)
    (hbuild : d.build = .ok e.registry) (ho : e.store.read? changed t = some o)
    (times : Nat → Timing) (m : Memory) :
    ∃ m' outcomes, e.deriveFor times m changed t = .ok (m', outcomes) ∧
      (outcomes.map (fun x => (x.rule, x.root.reference))).Nodup ∧
      (∀ rule ∈ e.registry.rules.values, ∀ root,
        (∃ x ∈ outcomes, x.rule = rule.id ∧ x.root = root) ↔ e.Concerned t o rule root) ∧
      ∀ x ∈ outcomes, e.store.read? x.root.reference t = some x.root ∧
        ∃ rule ∈ e.registry.rules.values, x.rule = rule.id ∧
          ∃ i m₀, (e.evaluate (times i) m₀ rule x.root t).2 = x := by
  obtain ⟨found, htargets, hnodup, hfound⟩ := targets_eq_concerned hs honline hbuild ho
  have hderive : e.deriveFor times m changed t = .ok (e.evaluateAll t times m found) := by
    unfold deriveFor
    rw [htargets]
  refine ⟨_, _, hderive, ?_, ?_, ?_⟩
  · rw [map_key_evaluateAll]
    exact hnodup
  · intro rule hrule root
    rw [exists_outcome_iff]
    constructor
    · rintro ⟨⟨rule', root'⟩, htarget, hid, rfl⟩
      obtain ⟨hrule', hconcerned⟩ := (hfound rule' root').1 htarget
      obtain rfl := Registry.eq_of_id hbuild hrule' hrule hid
      exact hconcerned
    · intro hconcerned
      exact ⟨(rule, root), (hfound rule root).2 ⟨hrule, hconcerned⟩, rfl, rfl⟩
  · intro x hx
    obtain ⟨⟨rule, root⟩, htarget, i, m₀, rfl⟩ := exists_evaluate hx
    obtain ⟨hrule, hconcerned⟩ := (hfound rule root).1 htarget
    exact ⟨hconcerned.read hs ho, rule, hrule, rfl, i, m₀, rfl⟩

end Outcomes

end Engine

namespace Watch

def zone : Entity :=
  .hostname (.ofTokens .network ["internet"]) "zone"

/-- The host serves itself and a zone, and the hosts that serve a host are watched. -/
def served : Watch :=
  ⟨.hostname, .hostname, "Hostname.<hostname[is DNSNSRecord].name_server_hostname", false,
    [zone, .dnsNS host.reference "ns" host.reference none,
      .dnsNS zone.reference "ns" host.reference none], host, .created, host⟩

theorem apt_served : served.Apt :=
  apt (by decide +kernel) (by decide +kernel) (by decide +kernel) (by decide)

/-- The roots that the path leads back to from the host: itself and the zone. -/
theorem mem_walk_served {root : Snapshot} :
    root ∈ served.after.walk host.reference served.parameter.path.reversed .hostname default ↔
      root = served.after.snapshot default host.reference host ∨
        root = served.after.snapshot default zone.reference zone := by
  have hends : served.parameter.path.reversed.steps.foldl (served.after.stepAll default)
      [host.reference] = [host.reference, zone.reference] := by
    decide +kernel
  have hhost : served.after.visible? host.reference default = some host := by decide +kernel
  have hzone : served.after.visible? zone.reference default = some zone := by decide +kernel
  rw [Store.mem_walk_iff]
  simp only [← Store.mem_reached_iff, Store.reached, List.mem_mergeSort, hends, List.mem_pair]
  constructor
  · rintro ⟨-, b, x, rfl | rfl, hx, -, rfl⟩
    · obtain rfl := Option.some.inj (hhost.symm.trans hx)
      exact .inl rfl
    · obtain rfl := Option.some.inj (hzone.symm.trans hx)
      exact .inr rfl
  · rintro (rfl | rfl)
    · exact ⟨⟨_, hhost⟩, _, _, .inl rfl, hhost, by decide, rfl⟩
    · exact ⟨⟨_, hhost⟩, _, _, .inr rfl, hzone, by decide, rfl⟩

/-- The host is a root and stands in its own context, and is evaluated once; so is the zone. -/
theorem derives_concerned_served :
    served.after.Reachable ∧ served.after.offline = false ∧
      ∃ m outcomes, served.engine.deriveFor (fun i => ⟨i, i⟩) .empty host.reference default
          = .ok (m, outcomes) ∧
        (outcomes.map (fun x => (x.rule, x.root.reference))).Nodup ∧
        (∃ x ∈ outcomes, x.rule = "watch" ∧ x.root.entity = host) ∧
        (∃ x ∈ outcomes, x.rule = "watch" ∧ x.root.entity = zone) ∧
        ∀ x ∈ outcomes, x.root.entity = host ∨ x.root.entity = zone := by
  have hserved := apt_served
  have hreachable : served.after.Reachable := hserved.saves.reachable hserved.reachable
  have honline : served.after.offline = false := hserved.saves.online
  obtain ⟨m, outcomes, hderive, hnodup, hconcerned, hevaluated⟩ :=
    Engine.derives_concerned (e := served.engine) hreachable honline hserved.built hserved.read
      (fun i => ⟨i, i⟩) .empty
  refine ⟨hreachable, honline, m, outcomes, hderive, hnodup, ?_, ?_, ?_⟩
  · obtain ⟨x, hx, hrule, hroot⟩ := (hconcerned served.rule hserved.listed _).2 (.own (by decide))
    exact ⟨x, hx, hrule, congrArg Snapshot.entity hroot⟩
  · obtain ⟨x, hx, hrule, hroot⟩ := (hconcerned served.rule hserved.listed _).2
      (.parameter (List.mem_singleton_self _) (by decide) (mem_walk_served.2 (.inr rfl)))
    exact ⟨x, hx, hrule, congrArg Snapshot.entity hroot⟩
  · intro x hx
    obtain ⟨-, rule, hrule, hid, -⟩ := hevaluated x hx
    obtain rfl := List.mem_singleton.1 hrule
    have hroot := (hconcerned served.rule hserved.listed x.root).1 ⟨x, hx, hid, rfl⟩
    generalize x.root = root at hroot ⊢
    cases hroot with
    | own => exact .inl rfl
    | parameter hp _ hback =>
      obtain rfl := List.mem_singleton.1 hp
      exact (mem_walk_served.1 hback).imp (congrArg Snapshot.entity) (congrArg Snapshot.entity)
    | settings hconfigures =>
      obtain ⟨-, ⟨_, hentity⟩, -⟩ := hconfigures
      cases hentity

end Watch

end ScanGraph
