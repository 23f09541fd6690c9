/-
Which rules and roots a commit triggers.

A commit triggers the rules whose roots the object is one of, and those whose
parameters it may fill, at the roots found along the paths walked backwards.  So
every root in whose context the object itself stands is evaluated again:
`derives_of_walked`.  Roots whose context the object changes without standing in
it are not.

## What is proved, and for which changes

The save is of one object, alone or as the only one of an observation, and it must be
committed; an object that is saved as it is leads to nothing.  The paths of the
parameters were parsed, and fields point at what the schema says.  Then an outcome is
there for every rule and every root of it that is the object itself or has the object in
its context after the save, whatever the bodies do and whatever the clock shows.

## What is not

`context_changes_unnoticed` gives a save for each limit of this.  A link between the
root and an object changes the context though it does not stand in it; an object that
moved away stands in no context any more; a field that points at what it should not
leads to an object that cannot be walked back from; and a path that was reversed instead
of parsed may narrow the type of what it goes through, which the walk back does not.
-/
import ScanGraph.Proofs.Derivation.Run
import ScanGraph.Proofs.Store.Walk

namespace ScanGraph

/-! ## Saving one object -/

/-- One object is put into a store at `t`, alone or as all of an observation, and is committed. -/
inductive Store.Saves (s : Store) (o : Snapshot) (t : Instant) (s' : Store) (c : Commit) : Prop
  | insert : s.insert o t = .ok (s', some c) → Saves s o t s' c
  | observe {obs : Observation} : obs.validTime = t → obs.result = [o] →
      s.observe obs = .ok (s', [c]) → Saves s o t s' c

namespace Store.Saves

variable {s s' : Store} {o : Snapshot} {t : Instant} {c : Commit}

theorem reachable (h : s.Saves o t s' c) (hs : s.Reachable) : s'.Reachable := by
  cases h with
  | insert hcall => exact .insert hs hcall
  | observe _ _ hcall => exact .observe hs hcall

theorem online (h : s.Saves o t s' c) : s'.offline = false := by
  cases h with
  | insert hcall =>
    obtain ⟨honline, hput⟩ := guarded_eq_ok_iff.1 hcall
    have hs' : (s.put o t).1 = s' := congrArg Prod.fst (Except.ok.inj hput)
    rw [← hs', put_offline, honline]
  | @observe obs _ hresult hcall =>
    obtain ⟨honline, -, hcommit⟩ := observe_eq_ok_iff.1 hcall
    have hs' : (s.commit obs).1 = s' := congrArg Prod.fst hcommit
    have hrecord : (s.commit obs).1.offline = (record obs.validTime (s, []) o).1.offline := by
      unfold commit
      rw [hresult]
      rfl
    rw [← hs', hrecord, record_fst, mergeProfile_offline, write_offline, honline]

theorem commit_reference (h : s.Saves o t s' c) : c.reference = o.reference ∧ c.validTime = t := by
  cases h with
  | insert hcall =>
    obtain ⟨-, hput⟩ := guarded_eq_ok_iff.1 hcall
    have hc : (s.put o t).2 = some c := congrArg Prod.snd (Except.ok.inj hput)
    exact commit_of_write ((put_snd s o t).symm.trans hc)
  | @observe obs htime hresult hcall =>
    obtain ⟨-, -, hcommit⟩ := observe_eq_ok_iff.1 hcall
    have hc : (s.commit obs).2 = [c] := congrArg Prod.snd hcommit
    have hrecord : (s.commit obs).2 = (s.write o.entity t).2.toList := by
      unfold commit
      rw [hresult, htime]
      rfl
    rw [hrecord] at hc
    cases hwrite : (s.write o.entity t).2 with
    | none => rw [hwrite] at hc; cases hc
    | some c' =>
      rw [hwrite] at hc
      cases hc
      exact commit_of_write hwrite

end Store.Saves

namespace Engine

variable {e : Engine} {t : Instant} {changed : Reference}

/-! ## Targets -/

/-- The roots that a path leads back to, for a rule. -/
def back (e : Engine) (t : Instant) (start : Reference) (rule : RegisteredRule) (path : Path) :
    List (RegisteredRule × Snapshot) :=
  (e.store.walk start path.reversed rule.definition.consumes t).map (fun root => (rule, root))

theorem rootsAlong_eq (h : e.store.offline = false) (rule : RegisteredRule) (start : Reference)
    (path : Path) : e.rootsAlong changed rule start path t = .ok (e.back t start rule path) := by
  have hfollow : e.store.follow start path.reversed rule.definition.consumes t
      = .ok (e.store.walk start path.reversed rule.definition.consumes t) :=
    Store.guarded_eq_ok_iff.2 ⟨h, rfl⟩
  unfold rootsAlong
  rw [hfollow]
  rfl

theorem parameterTargets_eq (h : e.store.offline = false)
    (ps : List (RegisteredRule × RuleParameter)) :
    e.parameterTargets changed t ps
      = .ok (ps.flatMap (fun x => e.back t changed x.1 x.2.path)) := by
  induction ps with
  | nil => rfl
  | cons x ps ih =>
    obtain ⟨rule, p⟩ := x
    simp only [parameterTargets, rootsAlong_eq h, ih, List.flatMap_cons]

theorem configTargets_eq_ok (h : e.store.offline = false) (o : Snapshot) :
    ∃ found, e.configTargets o t = .ok found := by
  unfold configTargets
  split
  · split
    · split
      · exact ⟨_, rootsAlong_eq h _ _ _⟩
      · exact ⟨[], rfl⟩
    · exact ⟨[], rfl⟩
  · exact ⟨[], rfl⟩

/-- While the store is online, a visible object has the targets of its own type and of every
parameter that it may fill, each once. -/
theorem targets_eq (h : e.store.offline = false) {o : Snapshot}
    (ho : e.store.read? changed t = some o) :
    ∃ more, e.targets changed t = .ok (distinctBy targetKey (e.ownTargets o ++
      ((e.registry.rulesWithParameter o.type).flatMap
        (fun x => e.back t o.reference x.1 x.2.path) ++ more))) := by
  have hget : e.store.get changed t = .ok (some o) := Store.guarded_eq_ok_iff.2 ⟨h, by rw [ho]⟩
  obtain ⟨more, hmore⟩ := configTargets_eq_ok (t := t) h o
  refine ⟨more, ?_⟩
  simp only [targets, hget, dependentTargets, parameterTargets_eq h, hmore]

/-! ## Outcomes -/

/-- Among the outcomes is one for every rule and root that were targets before repetitions were
dropped. -/
theorem exists_outcome {found : List (RegisteredRule × Snapshot)}
    (htargets : e.targets changed t = .ok (distinctBy targetKey found))
    {rule : RegisteredRule} {root : Snapshot} (h : (rule, root) ∈ found) (times : Nat → Timing)
    (m : Memory) :
    ∃ m' outcomes, e.deriveFor times m changed t = .ok (m', outcomes) ∧
      ∃ outcome ∈ outcomes, outcome.rule = rule.id ∧ outcome.root.reference = root.reference := by
  obtain ⟨x, hx, hkey⟩ := exists_mem_distinctBy targetKey h
  have hderive : e.deriveFor times m changed t
      = .ok (e.evaluateAll t times m (distinctBy targetKey found)) := by
    unfold deriveFor
    rw [htargets]
  refine ⟨_, _, hderive, ?_⟩
  have hmem : (x.1.id, x.2) ∈ (e.evaluateAll t times m (distinctBy targetKey found)).2.map
      (fun o => (o.rule, o.root)) := by
    rw [map_evaluateAll]
    exact List.mem_map_of_mem hx
  obtain ⟨outcome, houtcome, heq⟩ := List.mem_map.1 hmem
  refine ⟨outcome, houtcome, ?_, ?_⟩
  · exact (congrArg Prod.fst heq).trans (congrArg Prod.fst hkey)
  · exact (congrArg (fun y => y.2.reference) heq).trans (congrArg Prod.snd hkey)

/-- A visible object triggers the rules whose roots it is one of. -/
theorem derives_own (honline : e.store.offline = false) {rule : RegisteredRule} {o : Snapshot}
    (ho : e.store.read? changed t = some o) (hrule : rule ∈ e.registry.rules.values)
    (htype : o.type.isA rule.definition.consumes = true) (times : Nat → Timing) (m : Memory) :
    ∃ m' outcomes, e.deriveFor times m changed t = .ok (m', outcomes) ∧
      ∃ outcome ∈ outcomes, outcome.rule = rule.id ∧ outcome.root.reference = o.reference := by
  obtain ⟨more, htargets⟩ := targets_eq honline ho
  have hown : (rule, o) ∈ e.ownTargets o :=
    List.mem_map_of_mem (List.mem_filter.2 ⟨hrule, htype⟩)
  exact exists_outcome htargets (List.mem_append_left _ hown) times m

/-- A visible object triggers the rules whose parameters it may fill, at the roots that the reversed
path leads back to. -/
theorem derives_back (honline : e.store.offline = false) {rule : RegisteredRule}
    {p : RuleParameter} {o root : Snapshot} (ho : e.store.read? changed t = some o)
    (hrule : rule ∈ e.registry.rules.values) (hp : p ∈ rule.definition.parameters)
    (hfills : o.type.isA p.type = true)
    (hroot : root ∈ e.store.walk o.reference p.path.reversed rule.definition.consumes t)
    (times : Nat → Timing) (m : Memory) :
    ∃ m' outcomes, e.deriveFor times m changed t = .ok (m', outcomes) ∧
      ∃ outcome ∈ outcomes, outcome.rule = rule.id ∧
        outcome.root.reference = root.reference := by
  obtain ⟨more, htargets⟩ := targets_eq honline ho
  have hparameter : (rule, p) ∈ e.registry.rulesWithParameter o.type :=
    List.mem_flatMap.2 ⟨rule, hrule, List.mem_map_of_mem (List.mem_filter.2 ⟨hp, hfills⟩)⟩
  have hdependent : (rule, root) ∈ (e.registry.rulesWithParameter o.type).flatMap
      (fun x => e.back t o.reference x.1 x.2.path) :=
    List.mem_flatMap.2 ⟨(rule, p), hparameter, List.mem_map_of_mem hroot⟩
  exact exists_outcome htargets
    (List.mem_append_right _ (List.mem_append_left _ hdependent)) times m

/-- A saved object triggers every rule whose roots it is one of, and every rule and root whose
context it stands in after the save. -/
theorem derives_of_walked {s s' : Store} {o root : Snapshot} {t : Instant} {c : Commit}
    {d : Registry.Draft} {registry : Registry} {rule : RegisteredRule} {r : Reference}
    (hs : s.Reachable) (hsave : s.Saves o t s' c) (hbuild : d.build = .ok registry)
    (hrule : rule ∈ registry.rules.values)
    (hpaths : ∀ p ∈ rule.definition.parameters, ∃ text, Path.parse text = .ok p.path)
    (htyped : s'.Typed t) (hroot : s'.read? r t = some root)
    (htype : root.type.isA rule.definition.consumes = true)
    (hconcerns : r = o.reference ∨ ∃ p ∈ rule.definition.parameters,
      o.reference ∈ (s'.walk r p.path p.type t).map Snapshot.reference)
    (policy : DerivationPolicy) (times : Nat → Timing) (m : Memory) :
    ∃ m' outcomes, deriveFor ⟨s', registry, policy⟩ times m c.reference c.validTime
        = .ok (m', outcomes) ∧
      ∃ outcome ∈ outcomes, outcome.rule = rule.id ∧ outcome.root.reference = r := by
  obtain ⟨hreference, htime⟩ := hsave.commit_reference
  have hwell : s'.WellFormed := (hsave.reachable hs).wellFormed
  obtain ⟨e, he, rfl⟩ := Option.map_eq_some_iff.1 hroot
  have hr : (s'.snapshot t r e).reference = r := hwell.reference_of_visible? he
  rw [hreference, htime]
  rcases hconcerns with rfl | ⟨p, hp, hwalked⟩
  · have hderives := derives_own (e := ⟨s', registry, policy⟩) hsave.online hroot hrule htype
      times m
    rwa [hr] at hderives
  · -- the object fills the parameter, and the reversed path leads back to the root
    obtain ⟨x, hx, hxo⟩ := List.mem_map.1 hwalked
    obtain ⟨text, hparse⟩ := hpaths p hp
    have hfaults := Registry.faults_of_build hbuild hrule
    obtain ⟨hstart, -⟩ := RuleDefinition.paths_of_faults hfaults p hp
    have hback := Store.mem_walk_reversed hwell htyped (Path.leads_of_parse hparse) he
      (ObjectType.isA_trans htype hstart) htype hx
    obtain ⟨-, b, e', -, he', hfills, rfl⟩ := Store.mem_walk_iff.1 hx
    have hb : (s'.snapshot t b e').reference = b := hwell.reference_of_visible? he'
    have hread : s'.read? o.reference t = some (s'.snapshot t b e') :=
      Option.map_eq_some_iff.2 ⟨e', hxo ▸ hb.symm ▸ he', by rw [← hxo, hb]⟩
    have hderives := derives_back (e := ⟨s', registry, policy⟩) hsave.online hread hrule hp hfills
      hback times m
    rwa [hr] at hderives

theorem deriveFor_of_no_targets (h : e.targets changed t = .ok []) (times : Nat → Timing)
    (m : Memory) : e.deriveFor times m changed t = .ok (m, []) := by
  unfold deriveFor
  rw [h]
  rfl

end Engine

/-! ## A rule that watches one parameter -/

/-- A rule with one parameter, a store of some objects, and an object that is saved to it. -/
structure Watch where
  consumes : ObjectType
  type : ObjectType
  text : String
  /-- The path of the parameter is that of the text, or the same walk backwards. -/
  backwards : Bool
  stored : List Entity
  saved : Entity
  kind : CommitKind
  /-- The object at which the rule is watched. -/
  root : Entity

namespace Watch

/-- The path of a text, without steps if the text is none. -/
def pathOf (text : String) : Path :=
  match Path.parse text with
  | .ok p => p
  | .error _ => .identity .object

/-- The parameter that the rule watches. -/
def parameter (w : Watch) : RuleParameter :=
  ⟨"watched", w.type, if w.backwards then (pathOf w.text).reversed else pathOf w.text, true, .l0⟩

def rule (w : Watch) : RegisteredRule :=
  ⟨⟨"watch", w.consumes, [w.parameter], .ofList [.katFindingType], .l0, true, none, none⟩,
    fun _ _ _ => .returned []⟩

/-- The draft that holds the rule alone. -/
def draft (w : Watch) : Registry.Draft :=
  Registry.Draft.empty.addRule w.rule.definition w.rule.body

def registry (w : Watch) : Registry :=
  w.draft.registry

def before (w : Watch) : Store :=
  w.stored.foldl (fun s e => (s.put (.ofEntity e) default).1) .empty

def after (w : Watch) : Store :=
  (w.before.put (.ofEntity w.saved) default).1

def commit (w : Watch) : Commit :=
  .of w.kind w.saved.reference default

/-- What the parameter stands for at the root in a store. -/
def walked (w : Watch) (s : Store) : List Snapshot :=
  s.walk w.root.reference w.parameter.path w.parameter.type default

/-- What evaluations read after the save. -/
def engine (w : Watch) : Engine :=
  ⟨w.after, w.registry, Policy.defaultDerivation⟩

/-- The save and the registry are as they should be, and the root is one of the rule's. -/
structure Apt (w : Watch) : Prop where
  reachable : w.before.Reachable
  saves : w.before.Saves (.ofEntity w.saved) default w.after w.commit
  built : w.draft.build = .ok w.registry
  listed : w.rule ∈ w.registry.rules.values
  read : w.after.read? w.root.reference default
    = some (w.after.snapshot default w.root.reference w.root)
  consumed : w.root.type.isA w.rule.definition.consumes = true

/-- Moreover, the path of the parameter is that of a text. -/
structure Valid (w : Watch) : Prop extends Apt w where
  parsed : Path.parse w.text = .ok w.parameter.path

/-- The save changes what the parameter stands for at the root, and nothing is evaluated. -/
structure Missed (w : Watch) : Prop extends Apt w where
  changed : w.walked w.before ≠ w.walked w.after
  silent : ∀ times m,
    w.engine.deriveFor times m w.commit.reference w.commit.validTime = .ok (m, [])

/-- The same of a parameter whose path is that of a text. -/
structure Unnoticed (w : Watch) : Prop extends Valid w, Missed w

theorem parse_of_toOption {text : String} (h : (Path.parse text).toOption.isSome = true) :
    Path.parse text = .ok (pathOf text) := by
  unfold pathOf
  cases hparse : Path.parse text with
  | ok p => rfl
  | error e => rw [hparse] at h; cases h

theorem apt {w : Watch}
    (hcommit : (w.before.put (.ofEntity w.saved) default).2 = some w.commit)
    (hfaults : w.draft.faults = [])
    (hvisible : w.after.visible? w.root.reference default = some w.root)
    (hconsumed : w.root.type.isA w.rule.definition.consumes = true) : w.Apt := by
  have hreachable : w.before.Reachable := Store.reachable_holding w.stored default
  have honline : w.before.offline = false := Store.online_holding w.stored default
  exact {
    reachable := hreachable
    saves := .insert
      (Store.guarded_eq_ok_iff.2 ⟨honline, congrArg Except.ok (Prod.ext rfl hcommit)⟩)
    built := Registry.build_eq_ok_iff.2 ⟨hfaults, rfl⟩
    listed := List.mem_singleton_self _
    read := Option.map_eq_some_iff.2 ⟨w.root, hvisible, rfl⟩
    consumed := hconsumed }

theorem Apt.valid {w : Watch} (h : w.Apt) (hbackwards : w.backwards = false)
    (hparse : (Path.parse w.text).toOption.isSome = true) : w.Valid where
  toApt := h
  parsed := by
    unfold parameter
    rw [hbackwards]
    exact parse_of_toOption hparse

theorem Apt.missed {w : Watch} (h : w.Apt) (hchanged : w.walked w.before ≠ w.walked w.after)
    (hnone : (w.engine.targets w.commit.reference w.commit.validTime).toOption.map List.length
      = some 0) : w.Missed where
  toApt := h
  changed := hchanged
  silent := by
    refine Engine.deriveFor_of_no_targets ?_
    cases htargets : w.engine.targets w.commit.reference w.commit.validTime with
    | error why => rw [htargets] at hnone; cases hnone
    | ok found =>
      rw [htargets] at hnone
      rw [List.length_eq_zero_iff.1 (Option.some.inj hnone)]

theorem Missed.unnoticed {w : Watch} (h : w.Missed) (hbackwards : w.backwards = false)
    (hparse : (Path.parse w.text).toOption.isSome = true) : w.Unnoticed where
  toValid := h.toApt.valid hbackwards hparse
  changed := h.changed
  silent := h.silent

/-! ## Saves that are noticed and saves that are not -/

def host : Entity :=
  .hostname (.ofTokens .network ["internet"]) "localhost"

def address : Entity :=
  .ipv4 (.ofTokens .network ["internet"]) ⟨127, 0, 0, 1⟩

def address6 : Entity :=
  .ipv6 (.ofTokens .network ["internet"]) ⟨#v[0x2001, 0xDB8, 0, 0, 0, 0, 0, 1]⟩

def resolution (address : Entity) : Entity :=
  .resolvedHostname host.reference address.reference

def servedBy (server : Reference) : Entity :=
  .dnsNS (.ofTokens .hostname ["internet", "zone"]) "ns" server none

/-- An address record that points at a host. -/
def misplaced : Entity :=
  .dnsA host.reference "127.0.0.1" host.reference none

/-- Resolutions of a host are watched, and one is saved. -/
def found : Watch :=
  ⟨.hostname, .resolvedHostname, "Hostname.<hostname[is ResolvedHostname]", false,
    [host, address], resolution address, .created, host⟩

/-- Addresses of a host are watched, and a resolution that links one to it is saved. -/
def linked : Watch :=
  ⟨.hostname, .ipAddress, "Hostname.<hostname[is ResolvedHostname].address", false,
    [host, address], resolution address, .created, host⟩

/-- Zones that a host serves are watched, and one is moved to another host. -/
def moved : Watch :=
  ⟨.hostname, .dnsNS, "Hostname.<name_server_hostname[is DNSNSRecord]", false,
    [host, servedBy host.reference], servedBy (.ofTokens .hostname ["internet", "other"]),
    .updated, host⟩

/-- Networks of addresses are watched, and the network of what is no address is saved. -/
def untyped : Watch :=
  ⟨.dnsA, .network, "DNSARecord.address.network", false, [misplaced, host], .network "internet",
    .created, misplaced⟩

/-- Networks of what resolves to an IPv4 address are watched by a path that is read backwards, and
the network of an IPv6 address is saved. -/
def narrowed : Watch :=
  ⟨.resolvedHostname, .network, "Network.<network[is IPAddressV4].<address[is ResolvedHostname]",
    true, [host, address6, resolution address6], .network "internet", .created,
    resolution address6⟩

theorem valid_found : found.Valid :=
  (apt (by decide +kernel) (by decide +kernel) (by decide +kernel) (by decide)).valid rfl
    (by decide +kernel)

theorem derives_of_walked_found :
    ∃ m outcomes, found.engine.deriveFor (fun i => ⟨i, i⟩) .empty found.commit.reference
        found.commit.validTime = .ok (m, outcomes) ∧
      ∃ outcome ∈ outcomes, outcome.rule = "watch" ∧ outcome.root.reference = host.reference := by
  have hvalid := valid_found
  have hwalked : (Snapshot.ofEntity found.saved).reference
      ∈ (found.walked found.after).map Snapshot.reference := by
    decide +kernel
  have htyped : found.after.Typed default := by decide +kernel
  exact Engine.derives_of_walked hvalid.reachable hvalid.saves hvalid.built hvalid.listed
    (List.forall_mem_singleton.2 ⟨_, hvalid.parsed⟩) htyped hvalid.read hvalid.consumed
    (.inr ⟨found.parameter, List.mem_singleton_self _, hwalked⟩) Policy.defaultDerivation _ .empty

/-- A save can change a context unnoticed: by linking an object to the root, by moving away from the
root, and through a field that points at what it should not.  And it can do so by an object that
stands in the context afterwards, in a store where all fields point at what they should, if the path
of the parameter is a text's read backwards: walked from the root, such a path narrows no step to a
subtype, but walked to the root it does. -/
theorem context_changes_unnoticed :
    linked.Unnoticed ∧ moved.Unnoticed ∧ untyped.Unnoticed ∧
      narrowed.Missed ∧ Path.parse narrowed.text = .ok narrowed.parameter.path.reversed ∧
        narrowed.after.Typed default ∧
        narrowed.saved.reference ∈ (narrowed.walked narrowed.after).map Snapshot.reference := by
  have hlinked : linked.Missed :=
    (apt (by decide +kernel) (by decide +kernel) (by decide +kernel) (by decide)).missed
      (by decide +kernel) (by decide +kernel)
  have hmoved : moved.Missed :=
    (apt (by decide +kernel) (by decide +kernel) (by decide +kernel) (by decide)).missed
      (by decide +kernel) (by decide +kernel)
  have huntyped : untyped.Missed :=
    (apt (by decide +kernel) (by decide +kernel) (by decide +kernel) (by decide)).missed
      (by decide +kernel) (by decide +kernel)
  have hnarrowed : narrowed.Missed :=
    (apt (by decide +kernel) (by decide +kernel) (by decide +kernel) (by decide)).missed
      (by decide +kernel) (by decide +kernel)
  have hreversed : pathOf narrowed.text = narrowed.parameter.path.reversed := by decide +kernel
  exact ⟨hlinked.unnoticed rfl (by decide +kernel), hmoved.unnoticed rfl (by decide +kernel),
    huntyped.unnoticed rfl (by decide +kernel), hnarrowed,
    hreversed ▸ parse_of_toOption (by decide +kernel), by decide +kernel, by decide +kernel⟩

end Watch

end ScanGraph
