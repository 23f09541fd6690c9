/-
The rules at hand about the records of hosts.

A commit of an address record concerns the rule that links its host to its
addresses, with that host as root, and a commit of an IPv6 one also the rule about
name servers; a commit of an address or of a link concerns no rule.  The rule
links its root to the addresses of the records in its context, of whatever
clearance these are.

The rules at hand are taken from a registry whose plugins are those at hand, however
names are looked up (`AtHand`), so that nothing here depends on who answers the scans.

`targets_record` is exact: it lists the evaluations that a commit of an address record
leads to, rule by rule, and `Inert.targets_eq_nil` says which commits lead to none.
`prepare_resolving` and `prepare_nameserver` give the context that each of the two rules
is shown, and `resolving_eq` what the first one makes of it.

What the rule about name servers concludes is not looked at here, as a survey of
addresses only has to know that it is skipped or derives nothing that is a record.  The
rule about ports is among the rules at hand but never concerned by a record.
-/
import ScanGraph.Builtin
import ScanGraph.Proofs.Derivation.Run
import ScanGraph.Proofs.Derivation.Triggers
import ScanGraph.Proofs.Store.Walk

namespace ScanGraph

namespace Builtin

/-! ## The rules -/

/-- The rule that links a host to its addresses. -/
def resolvingRule : RegisteredRule :=
  ⟨dnsResolvingDefinition, resolving⟩

/-- The rule about name servers without an IPv6 address. -/
def nameserverRule : RegisteredRule :=
  ⟨ipv6OnNameserversDefinition, nameserverIpv6⟩

def portRule : RegisteredRule :=
  ⟨portClassificationDefinition, classifyPort⟩

def rules : List RegisteredRule :=
  [resolvingRule, nameserverRule, portRule]

/-! ## The plugins -/

/-- The registry of the plugins at hand. -/
def plugins (resolve : Dns.Resolver) : Registry :=
  (addAll resolve .empty).registry

/-- The plugins of a registry are those at hand, however names are looked up. -/
def AtHand (r : Registry) : Prop :=
  ∃ resolve, r = plugins resolve

theorem atHand_plugins (resolve : Dns.Resolver) : AtHand (plugins resolve) :=
  ⟨resolve, rfl⟩

theorem build_addAll (resolve : Dns.Resolver) :
    (addAll resolve .empty).build = .ok (plugins resolve) := by
  -- what is wrong with a draft does not depend on the bodies
  have hfaults : (addAll resolve .empty).faults = (addAll (fun _ => .ok []) .empty).faults := rfl
  exact Registry.build_eq_ok_iff.2 ⟨hfaults.trans (by decide +kernel), rfl⟩

theorem AtHand.values_rules {r : Registry} (h : AtHand r) : r.rules.values = rules := by
  obtain ⟨resolve, rfl⟩ := h
  have hids : (rules.map (fun rule => (rule.id, rule))).Pairwise (fun x y => x.1 < y.1) :=
    List.pairwise_map.1 (by decide)
  exact congrArg (List.map Prod.snd) (Table.entries_foldl_insert (t := .empty) hids)

section Rules

variable {r : Registry} {t : ObjectType}

theorem AtHand.rulesForRoot_eq_nil (h : AtHand r) (hhost : t.isA .hostname = false)
    (hport : t.isA .ipPort = false) :
    r.rulesForRoot t = [] := by
  unfold Registry.rulesForRoot
  rw [h.values_rules]
  refine List.filter_eq_nil_iff.2 (fun rule hrule => ?_)
  simp only [rules, List.mem_cons, List.not_mem_nil, or_false] at hrule
  rcases hrule with rfl | rfl | rfl
  · exact Bool.eq_false_iff.1 hhost
  · exact Bool.eq_false_iff.1 hhost
  · exact Bool.eq_false_iff.1 hport

/-- Only records of addresses and of name servers fill parameters. -/
theorem AtHand.rulesWithParameter_eq_nil (h : AtHand r) (ha : t.isA .dnsA = false)
    (haaaa : t.isA .dnsAAAA = false) (hns : t.isA .dnsNS = false) :
    r.rulesWithParameter t = [] := by
  have hresolving : resolvingRule.definition.parameters = [aRecords, aaaaRecords] := rfl
  have hnameserver : nameserverRule.definition.parameters = [nsRecords, aaaaRecords] := rfl
  have hport : portRule.definition.parameters = [] := rfl
  have ha' : t.isA aRecords.type = false := ha
  have haaaa' : t.isA aaaaRecords.type = false := haaaa
  have hns' : t.isA nsRecords.type = false := hns
  unfold Registry.rulesWithParameter
  rw [h.values_rules]
  simp [rules, hresolving, hnameserver, hport, ha', haaaa', hns']

theorem AtHand.rulesWithParameter_dnsA (h : AtHand r) :
    r.rulesWithParameter .dnsA = [(resolvingRule, aRecords)] := by
  unfold Registry.rulesWithParameter
  rw [h.values_rules]
  rfl

theorem AtHand.rulesWithParameter_dnsAAAA (h : AtHand r) :
    r.rulesWithParameter .dnsAAAA
      = [(resolvingRule, aaaaRecords), (nameserverRule, aaaaRecords)] := by
  unfold Registry.rulesWithParameter
  rw [h.values_rules]
  rfl

end Rules

/-! ## What a commit concerns -/

section Targets

variable {e : Engine} {t : Instant} {r h : Reference} {x y : Entity}

/-- Objects of the type are neither roots, nor in the context of a root, nor settings. -/
def Inert (type : ObjectType) : Prop :=
  type = .ipv4 ∨ type = .ipv6 ∨ type = .resolvedHostname

theorem configTargets_eq_nil {o : Snapshot} (htype : o.type ≠ .config) :
    e.configTargets o t = .ok [] := by
  obtain ⟨x, p, t₀⟩ := o
  cases x with
  | config => exact absurd rfl htype
  | _ => rfl

theorem targets_of_read (honline : e.store.offline = false) {o : Snapshot}
    (ho : e.store.read? r t = some o) (htype : o.type ≠ .config) :
    e.targets r t = .ok (distinctBy Engine.targetKey (e.ownTargets o ++
      (e.registry.rulesWithParameter o.type).flatMap
        (fun x => e.back t o.reference x.1 x.2.path))) := by
  have hget : e.store.get r t = .ok (some o) := Store.guarded_eq_ok_iff.2 ⟨honline, by rw [ho]⟩
  simp only [Engine.targets, hget, Engine.dependentTargets, Engine.parameterTargets_eq honline,
    configTargets_eq_nil htype, List.append_nil]

theorem Inert.targets_eq_nil (hregistry : AtHand e.registry)
    (honline : e.store.offline = false) (hs : e.store.WellFormed) (htype : Inert r.type) :
    e.targets r t = .ok [] := by
  cases hvisible : e.store.visible? r t with
  | none =>
    have hget : e.store.get r t = .ok none :=
      Store.guarded_eq_ok_iff.2 ⟨honline, by simp [Store.read?, hvisible]⟩
    unfold Engine.targets
    rw [hget]
  | some x =>
    have hx : (e.store.snapshot t r x).type = r.type := hs.type_of_visible? hvisible
    have hread : e.store.read? r t = some (e.store.snapshot t r x) := by
      simp [Store.read?, hvisible]
    have hnone : r.type ≠ .config ∧ e.registry.rulesForRoot r.type = [] ∧
        e.registry.rulesWithParameter r.type = [] := by
      rcases htype with hr | hr | hr <;> rw [hr] <;>
        exact ⟨by decide, hregistry.rulesForRoot_eq_nil (by decide) (by decide),
          hregistry.rulesWithParameter_eq_nil (by decide) (by decide) (by decide)⟩
    rw [targets_of_read honline hread (hx ▸ hnone.1), hx, hnone.2.2, Engine.ownTargets, hx,
      hnone.2.1]
    rfl

theorem back_host {rule : RegisteredRule} {holder : ObjectType}
    (hconsumes : rule.definition.consumes = .hostname) (hrecord : e.store.visible? r t = some x)
    (hfield : x.relation? recordHost.name = some h) (hhost : e.store.visible? h t = some y)
    (htype : y.type = .hostname) :
    e.back t r rule (hostPath recordHost holder)
      = [(rule, e.store.snapshot t h y)] := by
  have hstep : e.store.stepFrom t (Step.flip ⟨.incoming, recordHost, .hostname, holder⟩) r = [h] := by
    simp [Store.stepFrom, Step.flip, Direction.flip, hrecord, hfield, hhost]
  have hreached : e.store.reached t r (hostPath recordHost holder).reversed.steps = [h] := by
    show ((([r].flatMap (e.store.stepFrom t _)).eraseDups)).mergeSort Reference.precedes = [h]
    simp [hstep, List.eraseDups_cons]
  have hisA : y.type.isA rule.definition.consumes = true := by
    rw [hconsumes, htype]
    decide
  simp [Engine.back, Store.walk, hrecord, hreached, hhost, hisA]

/-- The rules that a commit of a record of such a type concerns. -/
def recordRules (type : ObjectType) : List RegisteredRule :=
  if type = .dnsAAAA then [resolvingRule, nameserverRule] else [resolvingRule]

/-- A commit of an address record of a host concerns the rules about such records, with the host as
root. -/
theorem targets_record (hregistry : AtHand e.registry) (honline : e.store.offline = false)
    (hs : e.store.WellFormed) (hrecord : e.store.visible? r t = some x)
    (htype : x.type = .dnsA ∨ x.type = .dnsAAAA)
    (hfield : x.relation? recordHost.name = some h) (hhost : e.store.visible? h t = some y)
    (hy : y.type = .hostname) :
    e.targets r t = .ok ((recordRules x.type).map (fun rule => (rule, e.store.snapshot t h y))) := by
  have hread : e.store.read? r t = some (e.store.snapshot t r x) := by
    simp [Store.read?, hrecord]
  have hreference : (e.store.snapshot t r x).reference = r := hs.reference_of_visible? hrecord
  have hresolving (holder : ObjectType) : e.back t r resolvingRule (hostPath recordHost holder)
      = [(resolvingRule, e.store.snapshot t h y)] := back_host rfl hrecord hfield hhost hy
  have hnameserver (holder : ObjectType) : e.back t r nameserverRule (hostPath recordHost holder)
      = [(nameserverRule, e.store.snapshot t h y)] := back_host rfl hrecord hfield hhost hy
  have hown : e.ownTargets (e.store.snapshot t r x) = [] := by
    have hroot : e.registry.rulesForRoot x.type = [] := by
      rcases htype with hx | hx <;> rw [hx] <;>
        exact hregistry.rulesForRoot_eq_nil (by decide) (by decide)
    exact List.map_eq_nil_iff.2 hroot
  have hconfig : (e.store.snapshot t r x).type ≠ .config := by
    intro hx'
    have hx'' : x.type = .config := hx'
    rcases htype with hx | hx <;> rw [hx] at hx'' <;> cases hx''
  rw [targets_of_read honline hread hconfig, hown, hreference]
  have hsnapshot : (e.store.snapshot t r x).type = x.type := rfl
  rw [hsnapshot]
  rcases htype with hx | hx
  · rw [hx, hregistry.rulesWithParameter_dnsA, List.flatMap_singleton]
    exact congrArg (fun found => Except.ok (distinctBy Engine.targetKey ([] ++ found)))
      (hresolving .dnsA)
  · rw [hx, hregistry.rulesWithParameter_dnsAAAA, List.flatMap_cons, List.flatMap_singleton]
    have hboth := congrArg₂ (fun a b => Except.ok (ε := PipelineError)
      (distinctBy Engine.targetKey ([] ++ (a ++ b))))
      (hresolving .dnsAAAA) (hnameserver .dnsAAAA)
    refine hboth.trans ?_
    have hids : nameserverRule.id ≠ resolvingRule.id := by decide
    simp [distinctBy, distinctFrom, Engine.targetKey, recordRules, hids]

end Targets

/-! ## What the rules make of it -/

section Output

variable {e : Engine} {s : Store} {t : Instant} {h : Reference} {o root : Snapshot}

theorem mem_walk_hostPath (hs : s.WellFormed) {field : Relation} {holder : ObjectType} :
    o ∈ s.walk h (hostPath field holder) holder t ↔ (∃ y, s.visible? h t = some y) ∧
      ∃ r x, s.visible? r t = some x ∧ x.type.isA holder = true ∧
        x.relation? field.name = some h ∧ o = s.snapshot t r x := by
  have hstep : ∀ r, s.Walks t h (hostPath field holder).steps r ↔
      ∃ x, s.visible? r t = some x ∧ x.type.isA holder = true ∧
        x.relation? field.name = some h := by
    intro r
    have hwalks : s.Walks t h (hostPath field holder).steps r ↔
        r ∈ s.stepFrom t ⟨.incoming, field, .hostname, holder⟩ h :=
      ⟨fun ⟨_, hm, heq⟩ => heq ▸ hm, fun hm => ⟨r, hm, rfl⟩⟩
    exact hwalks.trans (hs.mem_stepFrom_incoming rfl)
  rw [Store.mem_walk_iff]
  refine and_congr_right (fun _ => exists_congr (fun r => ?_))
  constructor
  · rintro ⟨x, hwalk, hx, htype, ho⟩
    obtain ⟨x', hx', -, hfield⟩ := (hstep r).1 hwalk
    obtain rfl := Option.some.inj (hx.symm.trans hx')
    exact ⟨x, hx, htype, hfield, ho⟩
  · rintro ⟨x, hx, htype, hfield, ho⟩
    exact ⟨x, (hstep r).2 ⟨x, hx, htype, hfield⟩, hx, htype, ho⟩

/-- The slot of a parameter that asks for no clearance. -/
def slotOf (s : Store) (h : Reference) (t : Instant) (p : RuleParameter) : Slot :=
  ⟨p.name, p.type, (s.walk h p.path p.type t).map (fun o => o.clampTo p.path.firewallBound)⟩

/-- The context of the rule that links a host to its addresses. -/
def recordContext (s : Store) (h : Reference) (t : Instant) : RuleContext :=
  [slotOf s h t aRecords, slotOf s h t aaaaRecords]

theorem not_lt_l0 (l : Level) : ¬ l < .l0 :=
  Nat.not_lt_zero _

theorem lookUp_eq (honline : s.offline = false) {p : RuleParameter} (hlevel : p.minLevel = .l0) :
    p.lookUp s h t = .ok (slotOf s h t p).objects := by
  have hfollow : s.follow h p.path p.type t = .ok (s.walk h p.path p.type t) :=
    Store.guarded_eq_ok_iff.2 ⟨honline, rfl⟩
  have hall : ∀ l : Level, p.minLevel ≤ l := fun l => hlevel ▸ Nat.zero_le _
  simp [RuleParameter.lookUp, hfollow, RuleParameter.eligible, slotOf, hall]

theorem prepare_resolving (honline : e.store.offline = false)
    (henabled : e.policy.isEnabled dnsResolving true = true) :
    e.prepare dnsResolvingDefinition root t
      = .ok (recordContext e.store root.reference t, .empty) := by
  have hparameters : dnsResolvingDefinition.parameters = [aRecords, aaaaRecords] := rfl
  have henabled' : e.policy.isEnabled dnsResolvingDefinition.id
      dnsResolvingDefinition.defaultEnabled = true := henabled
  have hresolve : resolveContext e.store root.reference t dnsResolvingDefinition.parameters
      = .ok (.ready (recordContext e.store root.reference t)) := by
    simp only [hparameters, resolveContext, lookUp_eq honline (p := aRecords) rfl,
      lookUp_eq honline (p := aaaaRecords) rfl, show aRecords.optional = true from rfl,
      show aaaaRecords.optional = true from rfl, Bool.not_true, Bool.and_false,
      Bool.false_eq_true, if_false]
    rfl
  have hlevel : ¬ root.level < dnsResolvingDefinition.minLevel := not_lt_l0 _
  unfold Engine.prepare
  rw [henabled', Bool.not_true, if_neg Bool.false_ne_true, if_neg hlevel, hresolve]
  rfl

/-- Without a record that names the root as a server nothing is said of it. -/
theorem prepare_nameserver (honline : e.store.offline = false)
    (hnone : e.store.walk root.reference nsRecords.path nsRecords.type t = []) :
    ∃ reason, e.prepare ipv6OnNameserversDefinition root t = .error (.skipped reason) := by
  have hresolve : resolveContext e.store root.reference t ipv6OnNameserversDefinition.parameters
      = .ok (.missing nsRecords.name) := by
    have hparameters : ipv6OnNameserversDefinition.parameters = [nsRecords, aaaaRecords] := rfl
    simp only [hparameters, resolveContext, lookUp_eq honline (p := nsRecords) rfl, slotOf, hnone,
      List.map_nil, List.isEmpty_nil, show nsRecords.optional = false from rfl, Bool.not_false,
      Bool.and_true, if_true]
  have hlevel : ¬ root.level < ipv6OnNameserversDefinition.minLevel := not_lt_l0 _
  unfold Engine.prepare
  rw [if_neg hlevel, hresolve]
  split
  · exact ⟨_, rfl⟩
  · exact ⟨_, rfl⟩

/-- The links from a host to some addresses. -/
def linksTo (host : Reference) (addresses : List Reference) : List Snapshot :=
  addresses.map (fun address => .ofEntity (.resolvedHostname host address))

theorem resolving_eq (hroot : root.type = .hostname) (context : RuleContext)
    (settings : RuleSettings) :
    resolving root context settings
      = .returned (linksTo root.reference (resolvedAddresses context)) := by
  obtain ⟨x, p, t₀⟩ := root
  cases x with
  | hostname => rfl
  | _ => cases hroot

theorem judge_linksTo (h : Reference) (addresses : List Reference) :
    e.judge dnsResolvingDefinition t (.returned (linksTo h addresses))
      = .derived (linksTo h addresses) false := by
  have hcheck : ∀ os : List Reference,
      e.checkObjects dnsResolvingDefinition (linksTo h addresses) t (linksTo h os) = .ok () := by
    intro os
    induction os with
    | nil => rfl
    | cons a os ih =>
      have hone : e.checkObject dnsResolvingDefinition (linksTo h addresses) t
          (.ofEntity (.resolvedHostname h a)) = .ok () := rfl
      show e.checkObjects _ _ t (.ofEntity (.resolvedHostname h a) :: linksTo h os) = .ok ()
      unfold Engine.checkObjects
      rw [hone]
      exact ih
  unfold Engine.judge
  dsimp only
  rw [hcheck addresses]

def addressOf? (x : Entity) : Option Reference :=
  (aAddress? x).or (aaaaAddress? x)

end Output

end Builtin

end ScanGraph
