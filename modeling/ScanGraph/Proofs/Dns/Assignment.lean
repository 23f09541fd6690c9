/-
What an address record asks for.

A record that gives a host an address asks for the link between the two.  While
it stands, whatever else changes between the calls of an evaluation, its host is
among the roots that a commit of it concerns, and it is in the context of that
root, so that the link is derived: `safe_deriveBy_link`.  Where the output comes
from the cache, it was made in a context with the same objects, unless two of the
texts that were hashed have one digest.

## What is proved, and where it ends

An evaluation that is gone through while the record stands derives the link, unless it
fails because the store is offline, which a running pipeline's is not.  The record may
be saved again, other records may come and go, and clearance may be recalculated between
any two calls; what must not happen is that the record is replaced by another one of the
same reference and time.

Whether the link is then committed is `Dns.Duties`.  A record that nobody evaluates, as
its derive job was lost, is no matter of this module: that no such job is lost is
`Dns.Resolved`.
-/
import ScanGraph.Proofs.Dns.Answers
import ScanGraph.Proofs.Text.Reading

namespace ScanGraph

open Builtin

/-! ## Addresses in contexts -/

namespace Builtin

/-- Contexts that agree have the same objects for each parameter. -/
theorem mem_objects_of_agrees {context context' : RuleContext}
    (h : List.Forall₂ Slot.Agrees context context') (parameter : String) {e : Entity}
    (he : e ∈ (context.objects parameter).map Snapshot.entity) :
    e ∈ (context'.objects parameter).map Snapshot.entity := by
  induction h with
  | nil => exact he
  | @cons s s' context context' hslot _ ih =>
    unfold RuleContext.objects at he ih ⊢
    rw [List.find?_cons, hslot.1] at he
    rw [List.find?_cons]
    cases hname : s'.parameter == parameter with
    | true =>
      rw [hname] at he
      exact (hslot.2 e).1 he
    | false =>
      rw [hname] at he
      exact ih he

theorem mem_resolvedAddresses_iff {context : RuleContext} {address : Reference} :
    address ∈ resolvedAddresses context ↔
      (∃ e ∈ (context.objects aRecords.name).map Snapshot.entity, aAddress? e = some address) ∨
        ∃ e ∈ (context.objects aaaaRecords.name).map Snapshot.entity,
          aaaaAddress? e = some address := by
  simp [resolvedAddresses]

theorem mem_resolvedAddresses_of_agrees {context context' : RuleContext}
    (h : List.Forall₂ Slot.Agrees context context') {address : Reference}
    (ha : address ∈ resolvedAddresses context) : address ∈ resolvedAddresses context' := by
  rw [mem_resolvedAddresses_iff] at ha ⊢
  refine ha.imp ?_ ?_ <;>
  · rintro ⟨e, he, haddress⟩
    exact ⟨e, mem_objects_of_agrees h _ he, haddress⟩

/-- Only hosts are linked, and what the rule returns has no other inputs than the host and the
addresses. -/
theorem type_of_resolving {root : Snapshot} {context : RuleContext} {settings : RuleSettings}
    {output : List Snapshot} (h : resolving root context settings = .returned output) :
    root.type = .hostname := by
  obtain ⟨e, profile, time⟩ := root
  cases e with
  | hostname => rfl
  | _ => cases h

end Builtin

/-! ## Assignments -/

/-- A record that gives a host an address from a time on. -/
structure Assignment where
  record : Reference
  time : Instant
  entity : Entity
  host : Reference
  address : Reference

namespace Assignment

/-- The link that the record asks for. -/
def link (a : Assignment) : Entity :=
  .resolvedHostname a.host a.address

/-- The entity is an address record, of this host and with this address. -/
structure Sound (a : Assignment) : Prop where
  record : a.entity.reference = a.record
  host : a.entity.relation? recordHost.name = some a.host
  address : addressOf? a.entity = some a.address
  hostname : a.host.type = .hostname

/-- The record is visible at its time, and so is its host. -/
structure Stands (a : Assignment) (s : Store) : Prop where
  record : s.visible? a.record a.time = some a.entity
  host : s.Known a.time a.host

/-- A pipeline is running where the record stands. -/
def Live (a : Assignment) (hashes : Set (List UInt8)) (p : Pipeline) : Prop :=
  p.Running hashes ∧ a.Stands p.store

/-- The link is among what was derived for the host. -/
def Linked (a : Assignment) (outcomes : List RuleOutcome) : Prop :=
  ∃ outcome ∈ outcomes, outcome.root.reference = a.host ∧
    ∃ objects cached, outcome.status = .derived objects cached ∧
      ∃ o ∈ objects, o.reference = a.link.reference

section Sound

variable {a : Assignment} {s : Store} {hashes : Set (List UInt8)}

theorem Sound.type (h : a.Sound) : a.entity.type = .dnsA ∧ aAddress? a.entity = some a.address ∨
    a.entity.type = .dnsAAAA ∧ aaaaAddress? a.entity = some a.address := by
  have haddress := h.address
  generalize a.entity = e at haddress
  cases e with
  | dnsA => exact .inl ⟨rfl, haddress⟩
  | dnsAAAA => exact .inr ⟨rfl, haddress⟩
  | _ => cases haddress

theorem Sound.isA_dnsRecord (h : a.Sound) : a.record.type.isA .dnsRecord = true := by
  rw [← h.record, Entity.reference_type]
  rcases h.type with ⟨htype, -⟩ | ⟨htype, -⟩ <;> rw [htype] <;> decide

/-- The record is on the path from its host to the records of its type. -/
theorem Stands.mem_walk (h : a.Stands s) (ha : a.Sound) (hs : s.WellFormed) :
    s.snapshot a.time a.record a.entity
      ∈ s.walk a.host (hostPath recordHost a.entity.type) a.entity.type a.time := by
  have hself : ∀ type : ObjectType, type.isA type = true := by
    intro type
    cases type <;> rfl
  exact (mem_walk_hostPath hs).2 ⟨h.host, _, _, h.record, hself _, ha.host, rfl⟩

theorem Stands.exists_walk_back (h : a.Stands s) (ha : a.Sound) (hs : s.WellFormed)
    (holder : ObjectType) : ∃ root ∈ s.walk a.record (hostPath recordHost holder).reversed
      .hostname a.time, root.reference = a.host := by
  obtain ⟨y, hy⟩ := h.host
  have htype : y.type = .hostname := (hs.type_of_visible? hy).trans ha.hostname
  let e : Engine := ⟨s, Registry.Draft.empty.registry, Policy.defaultDerivation⟩
  have hback : e.back a.time a.record resolvingRule (hostPath recordHost holder)
      = [(resolvingRule, s.snapshot a.time a.host y)] :=
    back_host rfl h.record ha.host hy htype
  have hmem : (resolvingRule, s.snapshot a.time a.host y)
      ∈ e.back a.time a.record resolvingRule (hostPath recordHost holder) := by
    rw [hback]
    exact List.mem_singleton_self _
  obtain ⟨root, hroot, heq⟩ := List.mem_map.1 hmem
  obtain rfl := (Prod.mk.inj heq).2
  exact ⟨_, hroot, hs.reference_of_visible? hy⟩

end Sound

end Assignment

/-! ## The link is derived -/

namespace Evaluator

open Course Pipeline

section Output

variable {hashes : Set (List UInt8)} {holds : Pipeline → Prop} {step : Pipeline → Pipeline → Prop}
  (h : Suits hashes holds step) {a : Assignment} {t : Instant} {policy : DerivationPolicy}

theorem judge_links (host : Reference) (addresses : List Reference) :
    judge dnsResolvingDefinition t (.returned (linksTo host addresses))
      = pure (.derived (linksTo host addresses) false) := by
  have hcheck : ∀ os : List Reference, checkObjects dnsResolvingDefinition
      (linksTo host addresses) t (linksTo host os) = pure (.ok ()) := by
    intro os
    induction os with
    | nil => rfl
    | cons o os ih => exact ih
  unfold judge
  dsimp only
  rw [hcheck addresses]
  rfl

include h

theorem safe_apply_link (hdigest : Set.InjOn Sha256.digest hashes) {root : Snapshot}
    {context : RuleContext} {settings : RuleSettings} (htype : root.type = .hostname)
    (hroot : root.reference = a.host) (haddress : a.address ∈ resolvedAddresses context) :
    (apply policy resolvingRule root context settings t).Safe hashes holds step
      (fun status => ∃ objects cached, status = .derived objects cached ∧
        ∃ o ∈ objects, o.reference = a.link.reference) := by
  have hlink : ∀ context', a.address ∈ resolvedAddresses context' →
      ∃ o ∈ linksTo a.host (resolvedAddresses context'), o.reference = a.link.reference :=
    fun context' h' => ⟨_, List.mem_map_of_mem h', rfl⟩
  have hrule : resolvingRule ∈ rules := List.mem_cons_self
  have hreturned : resolving root context settings
      = .returned (linksTo a.host (resolvedAddresses context)) := by
    rw [resolving_eq htype, hroot]
  refine (safe_consult h _ _ _).bind ?_
  rintro (_ | output) ⟨hhashed, hfound⟩
  · have hjudge : (judge dnsResolvingDefinition t (resolving root context settings)).Safe hashes
        holds step
        (fun status => status = .derived (linksTo a.host (resolvedAddresses context)) false) := by
      rw [hreturned, judge_links]
      rfl
    refine hjudge.bind ?_
    rintro _ rfl
    have hunrecorded : ∀ o ∈ linksTo a.host (resolvedAddresses context),
        o.type.isA .dnsRecord = false := by
      intro o ho
      obtain ⟨address, -, rfl⟩ := List.mem_map.1 ho
      rfl
    exact (safe_keep h hrule hhashed hreturned hunrecorded).bind
      (fun _ _ => ⟨_, _, rfl, hlink _ haddress⟩)
  · obtain ⟨c, entry, htrusted, hentry, rfl⟩ := hfound output rfl
    obtain ⟨root', context', settings', hhashed', hkey, hreturned'⟩ :=
      htrusted.made _ entry hentry
    -- one digest, so one text, so the same host and the same records
    have hoctets := hdigest hhashed hhashed' (Text.hex_injective hkey)
    have hordered : ∀ o : Snapshot, o.type = .hostname → o.entity.Ordered := by
      rintro ⟨e, profile, time⟩ ho
      cases e with
      | hostname => trivial
      | _ => cases ho
    have htype' := type_of_resolving hreturned'
    have hcanonical := Fingerprint.canonical_of_octets (hordered root htype)
      (hordered root' htype') hoctets
    obtain ⟨-, hentity, hagrees, -⟩ :=
      (Fingerprint.canonical_eq_iff (hordered root htype) (hordered root' htype')).1 hcanonical
    have hroot' : root'.reference = a.host :=
      (congrArg Entity.reference hentity).symm.trans hroot
    rw [resolving_eq htype', hroot'] at hreturned'
    obtain ⟨o, ho, hreference⟩ := hlink context' (mem_resolvedAddresses_of_agrees hagrees haddress)
    exact ⟨_, _, rfl, o, Outcome.returned.inj hreturned' ▸ ho, hreference⟩

theorem safe_prepare_resolving (henabled : policy.isEnabled dnsResolving true = true)
    (root : Snapshot) : (prepare policy dnsResolvingDefinition root t).Safe hashes holds step
      (fun x => ∃ context, x = .ok (context, .empty) ∧
        List.Forall₂ (Fills holds root.reference t) [aRecords, aaaaRecords] context) := by
  have henabled' : policy.isEnabled dnsResolvingDefinition.id
      dnsResolvingDefinition.defaultEnabled = true := henabled
  have hlevel : ¬ root.level < dnsResolvingDefinition.minLevel := not_lt_l0 _
  unfold prepare
  rw [henabled', Bool.not_true, if_neg Bool.false_ne_true, if_neg hlevel]
  refine (safe_resolveContext h dnsResolvingDefinition.parameters).bind ?_
  rintro _ (⟨context, rfl, hcontext⟩ | ⟨x, hx, hoptional, -⟩)
  · exact ⟨context, rfl, hcontext⟩
  · have hparameters : x = aRecords ∨ x = aaaaRecords := by
      simpa [dnsResolvingDefinition] using hx
    rcases hparameters with rfl | rfl <;> cases hoptional

end Output

section Live

variable {hashes : Set (List UInt8)} {a : Assignment} {step : Pipeline → Pipeline → Prop}
  (h : Suits hashes (a.Live hashes) step) (ha : a.Sound)

/-- What fills a parameter without a minimum are the objects on its path. -/
theorem mem_eligible {x : RuleParameter} (hlevel : x.minLevel = .l0) {o : Snapshot}
    {found : List Snapshot} (ho : o ∈ found) :
    o.entity ∈ (x.eligible found).map Snapshot.entity := by
  have hall : ∀ l : Level, x.minLevel ≤ l := fun l => hlevel ▸ Nat.zero_le _
  have hmem : o.clampTo x.path.firewallBound ∈ x.eligible found := by
    simpa [RuleParameter.eligible, hall] using ⟨o, ho, rfl⟩
  exact List.mem_map.2 ⟨_, hmem, rfl⟩

include ha in
/-- Whenever each of its two parameters was filled, the address is in the context. -/
theorem mem_resolvedAddresses_of_fills {context : RuleContext}
    (hcontext : List.Forall₂ (Fills (a.Live hashes) a.host a.time) [aRecords, aaaaRecords]
      context) : a.address ∈ resolvedAddresses context := by
  obtain ⟨s, context, hfills, hrest, rfl⟩ := List.forall₂_cons_left_iff.1 hcontext
  obtain ⟨s', context, hfills', hnil, rfl⟩ := List.forall₂_cons_left_iff.1 hrest
  obtain rfl := List.forall₂_nil_left_iff.1 hnil
  obtain ⟨p, ⟨hrunning, hstands⟩, rfl⟩ := hfills
  obtain ⟨p', ⟨hrunning', hstands'⟩, rfl⟩ := hfills'
  rw [mem_resolvedAddresses_iff]
  rcases ha.type with ⟨htype, haddress⟩ | ⟨htype, haddress⟩
  · have hmem := hstands.mem_walk ha hrunning.reachable.wellFormed
    rw [htype] at hmem
    exact .inl ⟨a.entity, mem_eligible rfl hmem, haddress⟩
  · have hmem := hstands'.mem_walk ha hrunning'.reachable.wellFormed
    rw [htype] at hmem
    exact .inr ⟨a.entity, mem_eligible rfl hmem, haddress⟩

include h ha in
theorem safe_evaluate_link (hdigest : Set.InjOn Sha256.digest hashes) {policy : DerivationPolicy}
    (henabled : policy.isEnabled dnsResolving true = true) {root : Snapshot}
    (hroot : root.reference = a.host) :
    (evaluate policy a.time (resolvingRule, root)).Safe hashes (a.Live hashes) step
      (fun outcome => outcome.root.reference = a.host ∧
        ∃ objects cached, outcome.status = .derived objects cached ∧
          ∃ o ∈ objects, o.reference = a.link.reference) := by
  have htype : root.type = .hostname := by
    have hreference : root.reference.type = root.type := Entity.reference_type _
    rw [← hreference, hroot, ha.hostname]
  refine (safe_prepare_resolving h henabled root).bind ?_
  rintro _ ⟨context, rfl, hcontext⟩
  rw [hroot] at hcontext
  have haddress := mem_resolvedAddresses_of_fills ha hcontext
  exact (safe_apply_link h hdigest htype hroot haddress).bind
    (fun status hstatus => ⟨hroot, hstatus⟩)

include h ha in
/-- The host is among the roots that a commit of the record concerns. -/
theorem safe_targets_link {r : Registry} (hplugins : AtHand r) :
    (targets r a.record a.time).Safe hashes (a.Live hashes) step (fun x => ∃ found, x = .ok found ∧
      (∀ target ∈ found, target.1 ∈ rules) ∧
      ∃ root, (resolvingRule, root) ∈ found ∧ root.reference = a.host) := by
  refine (safe_get h a.record a.time).bind ?_
  rintro _ ⟨p, ⟨hrunning, hstands⟩, rfl⟩
  have hread : p.store.read? a.record a.time = some (p.store.snapshot a.time a.record a.entity) := by
    simp [Store.read?, hstands.record]
  have hreference : (p.store.snapshot a.time a.record a.entity).reference = a.record :=
    hrunning.reachable.wellFormed.reference_of_visible? hstands.record
  rw [hread]
  refine (safe_dependentTargets h r _).bind ?_
  rintro _ ⟨dependent, rfl, hrules, hall⟩
  rw [hreference] at hall
  have hparameter : ∃ x holder, (resolvingRule, x) ∈ r.rulesWithParameter
      (p.store.snapshot a.time a.record a.entity).type ∧ x.path = hostPath recordHost holder := by
    show ∃ x holder, (resolvingRule, x) ∈ r.rulesWithParameter a.entity.type ∧ _
    rcases ha.type with ⟨htype, -⟩ | ⟨htype, -⟩ <;> rw [htype]
    · exact ⟨aRecords, .dnsA, hplugins.rulesWithParameter_dnsA ▸ List.mem_cons_self, rfl⟩
    · exact ⟨aaaaRecords, .dnsAAAA, hplugins.rulesWithParameter_dnsAAAA ▸ List.mem_cons_self, rfl⟩
  obtain ⟨x, holder, hx, hpath⟩ := hparameter
  obtain ⟨p', ⟨hrunning', hstands'⟩, hfound⟩ := hall _ hx
  obtain ⟨root, hroot, hhost⟩ :=
    hstands'.exists_walk_back ha hrunning'.reachable.wellFormed holder
  have hmem : (resolvingRule, root) ∈ dependent := hfound root (hpath ▸ hroot)
  -- of the pairs with this rule and this root the first is kept
  obtain ⟨⟨rule, root'⟩, hkept, hkey⟩ := exists_mem_distinctBy Engine.targetKey
    (List.mem_append_right
      ((r.rulesForRoot (p.store.snapshot a.time a.record a.entity).type).map
        (fun rule => (rule, p.store.snapshot a.time a.record a.entity))) hmem)
  obtain ⟨hid, hroot'⟩ := Prod.mk.inj hkey
  have hall' : ∀ target ∈ distinctBy Engine.targetKey ((r.rulesForRoot
      (p.store.snapshot a.time a.record a.entity).type).map
        (fun rule => (rule, p.store.snapshot a.time a.record a.entity)) ++ dependent),
      target.1 ∈ rules :=
    fun target htarget => hplugins.values_rules ▸ mem_values_of_mem_distinctBy hrules htarget
  have hrule : rule = resolvingRule :=
    eq_resolvingRule (hall' _ hkept) hid
  subst hrule
  exact ⟨_, rfl, hall', root', hkept,
    hroot'.trans hhost⟩

include h ha in
/-- Whatever happens in between, an evaluation of a commit of a record that stands derives the link
that it asks for. -/
theorem safe_deriveBy_link (hdigest : Set.InjOn Sha256.digest hashes)
    {gather : List (Course RuleOutcome) → Course (List RuleOutcome)}
    (hgather : ∀ ws, Gathers ws (gather ws)) :
    (deriveBy gather a.record a.time).Safe hashes (a.Live hashes) step a.Linked := by
  have hread : (reading id).Safe hashes (a.Live hashes) step (fun p => p.Running hashes) :=
    safe_reading (fun p hp => ⟨h.step p p hp (h.running p hp).tended, h.running p hp⟩)
  refine hread.bind (fun p hp => ?_)
  refine (safe_targets_link h ha hp.registry).bind ?_
  rintro _ ⟨found, rfl, hrules, root, hroot, hhost⟩
  refine (hgather _).safe_mem (fun w hw => ?_) ?_
  · obtain ⟨target, htarget, rfl⟩ := List.mem_map.1 hw
    exact (safe_evaluate h _ (hrules target htarget)).weaken (fun _ _ => trivial)
  · exact ⟨_, List.mem_map_of_mem hroot, safe_evaluate_link h ha hdigest hp.enabled hhost⟩

end Live

end Evaluator

end ScanGraph
