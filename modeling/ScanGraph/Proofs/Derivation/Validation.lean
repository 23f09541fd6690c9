/-
What derived objects are checked for.

A new output is checked: its types are declared, and every finding has its type
beside it or in the store.  An output that is used again is not checked again.
Its types are declared still, and the finding types that it refers to stay
visible, but only from the time of the evaluation that made it on:
`derived_backed`.  At an earlier time it may refer to a finding type that is
nowhere visible, although a new output like it would be refused.

## What is proved

For every history of evaluations and every output that is derived, new or found again:
its objects have declared types; and if it was found again, and every evaluation of the
rule before was at a time not after this one, then the types of its findings are beside
them or visible now.

## What is not

The condition on times is needed.  `reused_finding_unbacked` evaluates a rule at two
hundred seconds and then at one hundred, at which the finding type is not yet visible:
the output of the first evaluation is derived again, and the rule is refused once the
cache is empty.  Whether an object of another rule's output could stand for the finding
type is not considered; a check sees one output at a time.
-/
import ScanGraph.Proofs.Derivation.Run

namespace ScanGraph

/-- The type of a finding is that of another object of the output or visible at `t`. -/
def Snapshot.Backed (s : Store) (t : Instant) (output : List Snapshot) (o : Snapshot) : Prop :=
  ∀ type, Engine.findingType? o.entity = some type →
    (∃ other ∈ output, other ≠ o ∧ other.reference = type) ∨ s.Known t type

theorem Snapshot.Backed.mono {s s' : Store} {t t' : Instant} {output : List Snapshot}
    {o : Snapshot} (h : o.Backed s t output) (hknown : ∀ r, s.Known t r → s'.Known t' r) :
    o.Backed s' t' output :=
  fun type htype => (h type htype).imp_right (hknown type)

namespace Engine

/-! ## The checks -/

section Checks

variable {e : Engine} {d : RuleDefinition} {output : List Snapshot} {t : Instant} {o : Snapshot}

/-- The key of a finding ends in that of its type, so the two are different objects. -/
theorem reference_ne_findingType {type : Reference} (h : findingType? o.entity = some type) :
    o.reference ≠ type := by
  obtain ⟨entity, profile, time⟩ := o
  cases entity with
  | finding type' subject =>
    obtain rfl : type' = type := Option.some.inj h
    intro heq
    have hkey := congrArg (fun r => r.naturalKey.length) heq
    simp [Snapshot.reference, Entity.reference, Entity.keyTokens, Reference.ofTokens, Entity.type,
      Reference.naturalKey, Text.join, String.intercalate_cons_cons] at hkey
  | _ => cases h

theorem known_of_get {r : Reference} {found : Option Snapshot} (h : e.store.get r t = .ok found)
    (hfound : found.isSome = true) : e.store.Known t r := by
  obtain ⟨-, hread⟩ := Store.guarded_eq_ok_iff.1 h
  obtain ⟨x, rfl⟩ := Option.isSome_iff_exists.1 hfound
  obtain ⟨entity, hentity, -⟩ := Option.map_eq_some_iff.1 (Except.ok.inj hread)
  exact ⟨entity, hentity⟩

theorem backed_of_knowsFindingType {type : Reference} (htype : findingType? o.entity = some type)
    (h : e.knowsFindingType output t type = .ok true) : o.Backed e.store t output := by
  intro type' htype'
  obtain rfl : type = type' := Option.some.inj (htype.symm.trans htype')
  unfold knowsFindingType at h
  split at h
  · rename_i hany
    obtain ⟨other, hother, hreference⟩ := List.any_eq_true.1 hany
    refine .inl ⟨other, hother, ?_, eq_of_beq hreference⟩
    rintro rfl
    exact reference_ne_findingType htype (eq_of_beq hreference)
  · split at h
    · rename_i found hget
      exact .inr (known_of_get hget (Except.ok.inj h))
    · cases h

/-- An object that passes is of a declared type, and if it is a finding, its type is known. -/
theorem backed_of_checkObject (h : e.checkObject d output t o = .ok ()) :
    d.declares o.type = true ∧ o.Backed e.store t output := by
  unfold checkObject at h
  split at h
  · cases h
  · rename_i hdeclares
    refine ⟨by simpa using hdeclares, ?_⟩
    split at h
    · rename_i hnone
      intro type htype
      exact absurd (hnone.symm.trans htype) (Option.some_ne_none type).symm
    · rename_i type htype
      split at h
      · cases h
      · rename_i hknows
        exact backed_of_knowsFindingType htype hknows
      · cases h

theorem checkObject_of_checkObjects {os : List Snapshot}
    (h : e.checkObjects d output t os = .ok ()) :
    ∀ o ∈ os, e.checkObject d output t o = .ok () := by
  induction os with
  | nil => exact fun _ ho => absurd ho List.not_mem_nil
  | cons o os ih =>
    unfold checkObjects at h
    split at h
    · rename_i hcheck
      exact List.forall_mem_cons.2 ⟨hcheck, ih h⟩
    · cases h

theorem Made.backed {q : Query} {context : RuleContext} {settings : RuleSettings}
    (h : e.Made q context settings output) : ∀ o ∈ output,
    q.rule.definition.declares o.type = true ∧ o.Backed e.store q.time output :=
  fun o ho => backed_of_checkObject (checkObject_of_checkObjects h.checked o ho)

end Checks

/-! ## What is derived over a run -/

section Runs

variable {d : Registry.Draft} {registry : Registry} {policy : DerivationPolicy}
  {past : List (Store × Query)} {s : Store} {m : Memory} {q : Query}
  {objects : List Snapshot} {cached : Bool}

/-- Whatever is derived has declared types, and the types of its findings are beside them or visible
from now on, if the output was not made at a later time. -/
theorem derived_backed (hbuild : d.build = .ok registry) (hrun : Run registry policy past s m)
    (hrule : q.rule ∈ registry.rules.values)
    (hderived : (answer ⟨s, registry, policy⟩ m q).2.status = .derived objects cached) :
    (∀ o ∈ objects, q.rule.definition.declares o.type = true) ∧
      ((cached = true → ∀ x ∈ past, x.2.rule.id = q.rule.id → x.2.time.upTo q.time = true) →
        ∀ o ∈ objects, o.Backed s q.time objects) := by
  have hevaluates := evaluates_answer ⟨s, registry, policy⟩ m q
  rw [hderived] at hevaluates
  obtain ⟨context, settings, -, ⟨rfl, hmade⟩ | ⟨rfl, entry, hentry, rfl⟩⟩ := hevaluates.of_derived
  · exact ⟨fun o ho => (hmade.backed o ho).1, fun _ o ho => (hmade.backed o ho).2⟩
  · obtain ⟨x, hx, hid, _, _, -, hmade⟩ := hrun.exists_made hentry
    have hsame : x.2.rule = q.rule := Registry.eq_of_id hbuild (hrun.mem_past x hx).1 hrule hid
    refine ⟨fun o ho => hsame ▸ (hmade.backed o ho).1, fun htimes o ho => ?_⟩
    have htime : x.2.time.upTo q.time = true := htimes rfl x hx hid
    exact (hmade.backed o ho).2.mono
      (fun r hknown => (hrun.known x hx hknown).later htime)

end Runs

end Engine

/-! ## Findings whose type is not there yet -/

namespace Flag

def type : Entity :=
  .katFindingType "KAT-X" none none

def network : Snapshot :=
  .ofEntity (.network "internet")

/-- A finding of the type on the network. -/
def finding : Snapshot :=
  .ofEntity (.finding type.reference network.reference none none none)

/-- The rule that reports the finding on every network. -/
def rule : RegisteredRule :=
  ⟨.plain "flag" .network [.finding], fun _ _ _ => .returned [finding]⟩

def draft : Registry.Draft :=
  Registry.Draft.empty.addRule rule.definition rule.body

/-- The store to which the finding type was put at second 200. -/
def store : Store :=
  .holding [type] (.ofSecond 200)

def engine : Engine :=
  ⟨store, draft.registry, Policy.defaultDerivation⟩

/-- The evaluation of the rule at a second. -/
def query (second : Int) : Engine.Query :=
  ⟨⟨0, 0⟩, rule, network, .ofSecond second⟩

/-- What is left after the evaluation at second 200. -/
def memory : Memory :=
  (engine.answer .empty (query 200)).1

theorem built : draft.build = .ok draft.registry :=
  Registry.build_eq_ok_iff.2 ⟨by decide +kernel, rfl⟩

theorem run : Engine.Run draft.registry Policy.defaultDerivation [(store, query 200)] store
    memory :=
  .evaluate (query 200) (.start (Store.reachable_holding [type] (.ofSecond 200)))
    (List.mem_singleton_self rule)

theorem made : engine.Made (query 200) [] .empty [finding] where
  prepared := by decide +kernel
  returned := rfl
  checked := by decide +kernel

theorem again (second : Int) :
    (engine.answer .empty (query 200)).2.status = .derived [finding] false ∧
      (engine.answer memory (query second)).2.status = .derived [finding] true := by
  have hyoung : 0 - 0 < 3600 * Instant.perSecond := by decide
  exact Engine.answer_again made rfl rfl rfl hyoung

/-- The finding is derived again, at a time at which its type is not visible, and at which it is
refused if it is new. -/
theorem reused_finding_unbacked :
    draft.build = .ok draft.registry ∧ (query 100).rule ∈ draft.registry.rules.values ∧
      Engine.Run draft.registry Policy.defaultDerivation [(store, query 200)] store memory ∧
      (engine.answer memory (query 100)).2.status = .derived [finding] true ∧
      ¬ finding.Backed store (query 100).time [finding] ∧
      (engine.answer .empty (query 100)).2.status
        = .failed (.ruleExecution "flag"
          "finding references unknown type KATFindingType|KAT-X") := by
  refine ⟨built, List.mem_singleton_self rule, run, (again 100).2, fun hbacked => ?_, ?_⟩
  · have hnone : store.visible? type.reference (.ofSecond 100) = none := by decide +kernel
    rcases hbacked type.reference rfl with ⟨other, hother, hne, -⟩ | ⟨e, he⟩
    · exact hne (List.mem_singleton.1 hother)
    · exact Option.some_ne_none e (he.symm.trans hnone)
  · have hjudge : engine.judge rule.definition (.ofSecond 100) (.returned [finding])
        = .failed (.ruleExecution "flag"
          "finding references unknown type KATFindingType|KAT-X") := by
      decide +kernel
    have hprepare : engine.prepare (query 100).rule.definition (query 100).root
        (query 100).time = .ok ([], .empty) := by
      decide +kernel
    rw [Engine.answer_eq_apply hprepare]
    exact congrArg Prod.snd (Engine.apply_of_failed rfl hjudge)

theorem derived_backed_later :
    (engine.answer memory (query 300)).2.status = .derived [finding] true ∧
      rule.definition.declares finding.type = true ∧
      finding.Backed store (query 300).time [finding] := by
  have hderived := (again 300).2
  have hfinding := List.mem_singleton_self finding
  obtain ⟨hdeclared, hbacked⟩ :=
    Engine.derived_backed built run (List.mem_singleton_self rule) hderived
  refine ⟨hderived, hdeclared finding hfinding, hbacked (fun _ => ?_) finding hfinding⟩
  exact List.forall_mem_singleton.2 (fun _ => by decide)

end Flag

end ScanGraph
