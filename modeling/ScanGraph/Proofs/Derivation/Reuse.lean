/-
Outputs that are used again are what the rule would derive now.

A rule that sees only the objects of its inputs cannot tell two evaluations of
one fingerprint apart.  For the fingerprint determines the root, the settings
and of every parameter the set of its objects, and a walk lists a set of objects
in one order only.  So an output that is found in the cache is the one that the
body gives for the inputs of this very evaluation, if no two texts that were
hashed have one digest: `reused_eq_returned`.

## What is asked

* The bodies of all rules are functions of what they are shown, but for clearance and
  times (`Pure`).  A body that reads the level of a slot's object can be given the
  output of an evaluation in which that level was another.
* No two octets that were hashed in the run have one digest.
* The settings of every root list their keys in order.

## What is proved and what is not

An output that is found again is one that the body returns for the present inputs, and
the cache has no entry of an evaluation that was skipped or failed.  That output was
checked when it was made, and is not checked again now: what that means for the types of
its findings is in `Derivation.Validation`.  Whether an output is found again, which
depends on its age, is `answer_again` in `Derivation.Run`.
-/
import Mathlib.Data.Set.Function
import ScanGraph.Proofs.Derivation.Fingerprint
import ScanGraph.Proofs.Derivation.Run
import ScanGraph.Proofs.Store.Walk

namespace ScanGraph

/-! ## What a body sees -/

/-- A slot without clearance and times. -/
def Slot.bare (s : Slot) : String × ObjectType × List Entity :=
  (s.parameter, s.type, s.objects.map Snapshot.entity)

/-- What a body does depends on the objects of its inputs alone, not on clearance and times. -/
def RuleBody.Pure (body : RuleBody) : Prop :=
  ∀ {root root' : Snapshot} {context context' : RuleContext} (settings : RuleSettings),
    root.entity = root'.entity → context.map Slot.bare = context'.map Slot.bare →
    body root context settings = body root' context' settings

/-! ## Contexts in order -/

/-- The objects of a slot ascend strictly by their references. -/
def Slot.Listed (s : Slot) : Prop :=
  s.objects.Pairwise (fun a b => a.reference < b.reference)

section Contexts

instance : Std.Irrefl (fun a b : Entity => a.reference < b.reference) :=
  ⟨fun a => String.lt_irrefl a.reference.text⟩

instance : Std.Antisymm (fun a b : Entity => a.reference < b.reference) :=
  ⟨fun _ _ hab hba => absurd hba (String.lt_asymm hab)⟩

theorem Slot.Agrees.bare_eq {a b : Slot} (h : a.Agrees b) (htype : a.type = b.type)
    (ha : a.Listed) (hb : b.Listed) : a.bare = b.bare := by
  obtain ⟨hparameter, hobjects⟩ := h
  have hlist : a.objects.map Snapshot.entity = b.objects.map Snapshot.entity :=
    List.Pairwise.eq_of_mem_iff (r := fun a b : Entity => a.reference < b.reference)
      (List.pairwise_map.2 ha) (List.pairwise_map.2 hb) hobjects
  unfold bare
  rw [hparameter, htype, hlist]

structure RuleParameter.Fills (p : RuleParameter) (s : Slot) : Prop where
  parameter : s.parameter = p.name
  type : s.type = p.type
  listed : s.Listed

theorem RuleParameter.pairwise_lookUp {p : RuleParameter} {s : Store} {root : Reference}
    {t : Instant} {objects : List Snapshot} (hs : s.Reachable)
    (h : p.lookUp s root t = .ok objects) :
    objects.Pairwise (fun a b => a.reference < b.reference) := by
  unfold lookUp at h
  split at h
  · rename_i found hfollow
    obtain ⟨-, hwalk⟩ := Store.guarded_eq_ok_iff.1 hfollow
    obtain rfl := Except.ok.inj h
    obtain rfl := Except.ok.inj hwalk
    have hclamped : ((s.walk root p.path p.type t).map
        (fun o => o.clampTo p.path.firewallBound)).Pairwise
          (fun a b => a.reference < b.reference) :=
      List.pairwise_map.2 (hs.wellFormed.pairwise_walk root p.path p.type)
    exact hclamped.filter _
  · cases h

theorem resolveContext_fills {s : Store} {root : Reference} {t : Instant} (hs : s.Reachable)
    {ps : List RuleParameter} {context : RuleContext}
    (h : resolveContext s root t ps = .ok (.ready context)) :
    List.Forall₂ RuleParameter.Fills ps context := by
  induction ps generalizing context with
  | nil =>
    cases h
    exact .nil
  | cons p ps ih =>
    unfold resolveContext at h
    split at h
    · cases h
    · rename_i objects hobjects
      split at h
      · cases h
      · split at h
        · rename_i slots hslots
          cases h
          exact .cons ⟨rfl, rfl, p.pairwise_lookUp hs hobjects⟩ (ih hslots)
        · rename_i hother
          exact absurd h (hother _)

/-- Contexts of the same parameters that have the same objects differ in clearance and times
only. -/
theorem bare_eq_of_agrees {ps : List RuleParameter} {context context' : RuleContext}
    (hfills : List.Forall₂ RuleParameter.Fills ps context)
    (hfills' : List.Forall₂ RuleParameter.Fills ps context')
    (hagrees : List.Forall₂ Slot.Agrees context context') :
    context.map Slot.bare = context'.map Slot.bare := by
  induction hagrees generalizing ps with
  | nil => rfl
  | cons hslot _ ih =>
    cases hfills with
    | cons hfill hfills =>
      cases hfills' with
      | cons hfill' hfills' =>
        have hbare := hslot.bare_eq (hfill.type.trans hfill'.type.symm) hfill.listed hfill'.listed
        rw [List.map_cons, List.map_cons, hbare, ih hfills hfills']

theorem agrees_of_bare_eq {context context' : RuleContext}
    (h : context.map Slot.bare = context'.map Slot.bare) :
    List.Forall₂ Slot.Agrees context context' := by
  induction context generalizing context' with
  | nil =>
    rw [List.map_eq_nil_iff.1 h.symm]
    exact .nil
  | cons s context ih =>
    cases context' with
    | nil => cases h
    | cons s' context' =>
      obtain ⟨hslot, hrest⟩ := List.cons.inj h
      obtain ⟨hparameter, hslot⟩ := Prod.mk.inj hslot
      have hobjects : s.objects.map Snapshot.entity = s'.objects.map Snapshot.entity :=
        (Prod.mk.inj hslot).2
      exact .cons ⟨hparameter, fun e => by rw [hobjects]⟩ (ih hrest)

/-- The objects found for a parameter, without clearance and times. -/
theorem objects_of_bare_eq {context context' : RuleContext}
    (h : context.map Slot.bare = context'.map Slot.bare) (parameter : String) :
    (context.objects parameter).map Snapshot.entity
      = (context'.objects parameter).map Snapshot.entity := by
  induction context generalizing context' with
  | nil => rw [List.map_eq_nil_iff.1 h.symm]
  | cons s context ih =>
    cases context' with
    | nil => cases h
    | cons s' context' =>
      obtain ⟨hslot, hrest⟩ := List.cons.inj h
      obtain ⟨hparameter, hslot⟩ := Prod.mk.inj hslot
      have hmore := ih hrest
      unfold RuleContext.objects at hmore ⊢
      rw [List.find?_cons, List.find?_cons, hparameter]
      cases s'.parameter == parameter with
      | true => exact (Prod.mk.inj hslot).2
      | false => exact hmore

end Contexts

namespace Engine

section Reuse

variable {d : Registry.Draft} {registry : Registry} {policy : DerivationPolicy}
  {past : List (Store × Query)} {s : Store} {m : Memory} {q : Query}

theorem resolved_of_prepare {e : Engine} {rule : RuleDefinition} {root : Snapshot} {t : Instant}
    {context : RuleContext} {settings : RuleSettings}
    (h : e.prepare rule root t = .ok (context, settings)) :
    resolveContext e.store root.reference t rule.parameters = .ok (.ready context) := by
  unfold prepare at h
  split at h
  · cases h
  · split at h
    · cases h
    · split at h
      · cases h
      · cases h
      · rename_i found hresolved
        split at h
        · cases h
        · cases h
          exact hresolved

/-- The octets that an evaluation takes the fingerprint of, if it comes to that. -/
def hashed (e : Engine) (q : Query) : Set (List UInt8) :=
  { o | ∃ context settings, e.prepare q.rule.definition q.root q.time = .ok (context, settings) ∧
    o = Fingerprint.octets q.rule.id q.root context settings }

theorem octets_of_key {q' : Query} {context context' : RuleContext}
    {settings settings' : RuleSettings} {hashes : Set (List UInt8)}
    (hdigest : Set.InjOn Sha256.digest hashes)
    (ho : Fingerprint.octets q.rule.id q.root context settings ∈ hashes)
    (ho' : Fingerprint.octets q'.rule.id q'.root context' settings' ∈ hashes)
    (hkey : key q context settings = key q' context' settings') :
    Fingerprint.octets q.rule.id q.root context settings
      = Fingerprint.octets q'.rule.id q'.root context' settings' :=
  hdigest ho ho' (Text.hex_injective hkey)

/-- An output that is found again is what the body returns for the inputs of this evaluation; and an
evaluation that is skipped or fails leaves nothing in the cache. -/
theorem reused_eq_returned (hbuild : d.build = .ok registry)
    (hpure : ∀ rule ∈ registry.rules.values, rule.body.Pure)
    (hrun : Run registry policy past s m) (hrule : q.rule ∈ registry.rules.values)
    (hordered : ∀ x ∈ (s, q) :: past, x.2.root.entity.Ordered)
    (hdigest : Set.InjOn Sha256.digest
      { o | ∃ x ∈ (s, q) :: past, o ∈ hashed ⟨x.1, registry, policy⟩ x.2 }) :
    (∀ objects, (answer ⟨s, registry, policy⟩ m q).2.status = .derived objects true →
      ∃ context settings,
        prepare ⟨s, registry, policy⟩ q.rule.definition q.root q.time = .ok (context, settings) ∧
          q.rule.body q.root context settings = .returned objects) ∧
      (((∃ why, (answer ⟨s, registry, policy⟩ m q).2.status = .skipped why) ∨
          ∃ why, (answer ⟨s, registry, policy⟩ m q).2.status = .failed why) →
        (answer ⟨s, registry, policy⟩ m q).1.cache.Within m.cache) := by
  have hevaluates := evaluates_answer ⟨s, registry, policy⟩ m q
  constructor
  · intro objects hderived
    rw [hderived] at hevaluates
    obtain ⟨context, settings, hprepare, ⟨hcached, -⟩ | ⟨-, entry, hentry, rfl⟩⟩ :=
      hevaluates.of_derived
    · cases hcached
    obtain ⟨x, hx, hid, context', settings', hkey, hmade⟩ := hrun.exists_made hentry
    obtain ⟨hlisted, hreachable⟩ := hrun.mem_past x hx
    have hsame : x.2.rule = q.rule := Registry.eq_of_id hbuild hlisted hrule hid
    have hx' : x ∈ (s, q) :: past := List.mem_cons_of_mem _ hx
    have hoctets := octets_of_key hdigest ⟨x, hx', context', settings', hmade.prepared, rfl⟩
      ⟨(s, q), List.mem_cons_self, context, settings, hprepare, rfl⟩ hkey
    have hroot := hordered (s, q) List.mem_cons_self
    have hcanonical := Fingerprint.canonical_of_octets (hordered x hx') hroot hoctets
    obtain ⟨-, hentity, hagrees, hsettings⟩ :=
      (Fingerprint.canonical_eq_iff (hordered x hx') hroot).1 hcanonical
    have hfills := resolveContext_fills hreachable (resolved_of_prepare hmade.prepared)
    have hfills' := resolveContext_fills hrun.reachable (resolved_of_prepare hprepare)
    rw [hsame] at hfills
    have hbare := bare_eq_of_agrees hfills hfills' hagrees
    refine ⟨context, settings, hprepare, ?_⟩
    rw [← hpure q.rule hrule settings hentity hbare, ← hsettings, ← hsame]
    exact hmade.returned
  · rintro (⟨why, hstatus⟩ | ⟨why, hstatus⟩)
    · exact hevaluates.within (fun _ _ h => nomatch hstatus.symm.trans h)
    · exact hevaluates.within (fun _ _ h => nomatch hstatus.symm.trans h)

theorem eq_of_mem_hashed {e : Engine} {context : RuleContext} {settings : RuleSettings}
    (h : e.prepare q.rule.definition q.root q.time = .ok (context, settings)) {o : List UInt8}
    (ho : o ∈ hashed e q) : o = Fingerprint.octets q.rule.id q.root context settings := by
  obtain ⟨context', settings', hprepare, rfl⟩ := ho
  obtain ⟨rfl, rfl⟩ := Prod.mk.inj (Except.ok.inj (h.symm.trans hprepare))
  rfl

end Reuse

end Engine

/-! ## Hosts of a network whose clearance changes -/

namespace Hosts

def network : Entity :=
  .network "internet"

def host : Entity :=
  .hostname network.reference "localhost"

def parameter : RuleParameter :=
  ⟨"hosts", .hostname,
    (Path.parse "Network.<network[is Hostname]").toOption.getD (.identity .object), false, .l0⟩

/-- The rule that lists the hosts of a network. -/
def rule : RegisteredRule :=
  ⟨⟨"hosts", .network, [parameter], .ofList [.hostname], .l0, true, none, none⟩,
    fun _ context _ => .returned ((context.objects "hosts").map (fun o => .ofEntity o.entity))⟩

def draft : Registry.Draft :=
  Registry.Draft.empty.addRule rule.definition rule.body

/-- The store that holds the network and the host. -/
def before : Store :=
  .holding [network, host] default

/-- The store after the host got a declared level. -/
def after : Store :=
  before.mergeProfile (.declared host.reference .l2)

def engine (s : Store) : Engine :=
  ⟨s, draft.registry, Policy.defaultDerivation⟩

/-- The evaluation of the rule for the network. -/
def query : Engine.Query :=
  ⟨⟨0, 0⟩, rule, .ofEntity network, default⟩

/-- The hosts of the network as read from a store. -/
def context (s : Store) : RuleContext :=
  [⟨"hosts", .hostname,
    parameter.eligible (s.walk network.reference parameter.path .hostname default)⟩]

def output : List Snapshot :=
  [.ofEntity host]

/-- What is left after the first evaluation. -/
def memory : Memory :=
  ((engine before).answer .empty query).1

theorem built : draft.build = .ok draft.registry :=
  Registry.build_eq_ok_iff.2 ⟨by decide +kernel, rfl⟩

theorem pure_body : rule.body.Pure := by
  intro root root' context context' settings _ hbare
  have hobjects := congrArg (List.map Snapshot.ofEntity) (objects_of_bare_eq hbare "hosts")
  rw [List.map_map, List.map_map] at hobjects
  exact congrArg Outcome.returned hobjects

theorem prepared_before : (engine before).prepare query.rule.definition query.root query.time
    = .ok (context before, .empty) := by
  decide +kernel

theorem prepared_after : (engine after).prepare query.rule.definition query.root query.time
    = .ok (context after, .empty) := by
  decide +kernel

theorem bare_context : (context after).map Slot.bare = (context before).map Slot.bare := by
  decide +kernel

theorem made : (engine before).Made query (context before) .empty output where
  prepared := prepared_before
  returned := by
    have hobjects : ((context before).objects "hosts").map (fun o => Snapshot.ofEntity o.entity)
        = output := by
      decide +kernel
    exact congrArg Outcome.returned hobjects
  checked := by decide +kernel

theorem ordered_root : query.root.entity.Ordered :=
  trivial

theorem octets_after : Fingerprint.octets query.rule.id query.root (context after) .empty
    = Fingerprint.octets query.rule.id query.root (context before) .empty := by
  have hcanonical : Fingerprint.canonical query.rule.id query.root (context after) .empty
      = Fingerprint.canonical query.rule.id query.root (context before) .empty :=
    (Fingerprint.canonical_eq_iff ordered_root ordered_root).2
      ⟨rfl, rfl, agrees_of_bare_eq bare_context, rfl⟩
  exact congrArg (fun v => Text.octets v.render) hcanonical

theorem key_after : Engine.key query (context after) .empty
    = Engine.key query (context before) .empty :=
  congrArg (fun o => Text.hex (Sha256.digest o)) octets_after

theorem eq_of_mem_hashed_before {o : List UInt8} (h : o ∈ Engine.hashed (engine before) query) :
    o = Fingerprint.octets query.rule.id query.root (context before) .empty :=
  Engine.eq_of_mem_hashed prepared_before h

theorem eq_of_mem_hashed_after {o : List UInt8} (h : o ∈ Engine.hashed (engine after) query) :
    o = Fingerprint.octets query.rule.id query.root (context before) .empty :=
  (Engine.eq_of_mem_hashed prepared_after h).trans octets_after

theorem injOn_hashed : Set.InjOn Sha256.digest
    { o | ∃ x ∈ [(after, query), (before, query)],
      o ∈ Engine.hashed ⟨x.1, draft.registry, Policy.defaultDerivation⟩ x.2 } := by
  have hsame : ∀ o ∈ { o | ∃ x ∈ [(after, query), (before, query)],
      o ∈ Engine.hashed ⟨x.1, draft.registry, Policy.defaultDerivation⟩ x.2 },
      o = Fingerprint.octets query.rule.id query.root (context before) .empty := by
    rintro o ⟨x, hx, ho⟩
    rcases List.mem_pair.1 hx with rfl | rfl
    · exact eq_of_mem_hashed_after ho
    · exact eq_of_mem_hashed_before ho
  exact fun a ha b hb _ => (hsame a ha).trans (hsame b hb).symm

theorem run :
    Engine.Run draft.registry Policy.defaultDerivation [(before, query)] after memory := by
  have honline : before.offline = false := Store.online_holding _ default
  have hcall : before.declare host.reference .l2 default = .ok after :=
    Store.declare_eq_ok_iff.2 ⟨honline, by decide +kernel, rfl⟩
  exact .call (.evaluate query (.start (Store.reachable_holding _ default))
    (List.mem_singleton_self rule)) (.declare hcall)

theorem reused_eq_returned_declared :
    context after ≠ context before ∧
      ((engine after).answer memory query).2.status = .derived output true ∧
      ∃ context settings,
        (engine after).prepare query.rule.definition query.root query.time
          = .ok (context, settings) ∧
        rule.body query.root context settings = .returned output := by
  have hchanged : context after ≠ context before := by decide +kernel
  have hyoung : query.timing.asked - query.timing.kept
      < (engine after).cacheNanos query.rule.definition := by
    decide +kernel
  have hderived := (Engine.answer_again made prepared_after rfl key_after hyoung).2
  have hordered : ∀ x ∈ [(after, query), (before, query)], x.2.root.entity.Ordered := by
    intro x hx
    rcases List.mem_pair.1 hx with rfl | rfl <;> exact ordered_root
  have hreused := Engine.reused_eq_returned built (List.forall_mem_singleton.2 pure_body) run
    (List.mem_singleton_self rule) hordered injOn_hashed
  exact ⟨hchanged, hderived, hreused.1 output hderived⟩

end Hosts

end ScanGraph
