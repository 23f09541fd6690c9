/-
Derivation: which rules a commit concerns, and what they make of it.

A rule is evaluated for a root unless it is disabled, the root lacks clearance
or a mandatory parameter is missing.  An output is used again while its
fingerprint is in the cache; a new one must have declared types, and a finding
needs its finding type beside it or in the store.

The order of the steps is that of the engine, since it decides which reason is given
where several apply, and what the cache has afterwards: settings are loaded after the
context, the fingerprint is taken of both, an output that is found is not checked again,
and one that fails its check is not kept.

The clock is read when the cache is asked and when an output is kept.  The two readings
of an evaluation are a `Timing`, and a run over several evaluations is given one for
each of them, so that a rule may take any time between the two.  A body that panics is a
failed evaluation and takes no other one with it.

A commit concerns three kinds of rules: those whose roots the object is one of, those
whose parameters it may fill, and the one whose settings it holds.  Repetitions are
dropped by rule and root before anything is evaluated.
-/
import ScanGraph.Derivation.Cache
import ScanGraph.Derivation.Context
import ScanGraph.Distinct
import ScanGraph.Event
import ScanGraph.Policy
import ScanGraph.Registry

namespace ScanGraph

/-- Why a rule is not evaluated. -/
inductive SkipReason where
  | disabled
  | belowMinLevel (required actual : Level)
  | missingParameter (name : String)
deriving DecidableEq, Repr

def SkipReason.message : SkipReason → String
  | disabled => "rule disabled"
  | belowMinLevel required actual =>
      "root clearance " ++ actual.name ++ " below required " ++ required.name
  | missingParameter name => "mandatory parameter " ++ name ++ " resolved to nothing"

/-- What an evaluation comes to. -/
inductive RuleStatus where
  | derived (objects : List Snapshot) (cached : Bool)
  | skipped (reason : SkipReason)
  | failed (error : PipelineError)
deriving DecidableEq, Repr

namespace RuleStatus

/-- The objects derived; none if the rule was skipped or failed. -/
def objects : RuleStatus → List Snapshot
  | derived os _ => os
  | _ => []

def evaluation : RuleStatus → Evaluation
  | derived os cached => .derived os.length cached
  | skipped reason => .skipped reason.message
  | failed e => .failed e.message

end RuleStatus

/-- What the evaluation of a rule for a root came to. -/
structure RuleOutcome where
  rule : String
  root : Snapshot
  status : RuleStatus
deriving DecidableEq, Repr

/-- What evaluations leave behind: cached outputs, and how often each rule's body ran. -/
structure Memory where
  cache : Cache
  runs : Table String Nat
deriving DecidableEq, Repr

namespace Memory

/-- The memory of an engine that has evaluated nothing. -/
def empty : Memory :=
  ⟨.empty, .empty⟩

instance : Inhabited Memory :=
  ⟨empty⟩

/-- One more run of a rule's body. -/
def countRun (m : Memory) (rule : String) : Memory :=
  { m with runs := m.runs.alter rule (fun n => n.getD 0 + 1) }

end Memory

/-- What the clock shows during an evaluation, in nanoseconds: when the cache is asked, and when
an output is kept. -/
structure Timing where
  asked : Nat
  kept : Nat
deriving DecidableEq, Repr

/-- What evaluations read. -/
structure Engine where
  store : Store
  registry : Registry
  policy : DerivationPolicy

namespace Engine

/-! ## Output -/

def findingType? : Entity → Option Reference
  | .finding type .. => some type
  | _ => none

def knowsFindingType (e : Engine) (output : List Snapshot) (t : Instant) (type : Reference) :
    Except PipelineError Bool :=
  if output.any (fun o => o.reference == type) then .ok true
  else match e.store.get type t with
    | .ok found => .ok found.isSome
    | .error why => .error (.unresolved type.text why)

/-- What is wrong with one object of an output. -/
def checkObject (e : Engine) (d : RuleDefinition) (output : List Snapshot) (t : Instant)
    (o : Snapshot) : Except PipelineError Unit :=
  if !d.declares o.type then
    .error (.ruleExecution d.id ("emitted undeclared type " ++ o.type.name))
  else match findingType? o.entity with
    | none => .ok ()
    | some type =>
        match e.knowsFindingType output t type with
        | .error why => .error why
        | .ok true => .ok ()
        | .ok false =>
            .error (.ruleExecution d.id ("finding references unknown type " ++ type.text))

/-- What is wrong with the first object at fault among some of an output. -/
def checkObjects (e : Engine) (d : RuleDefinition) (output : List Snapshot) (t : Instant) :
    List Snapshot → Except PipelineError Unit
  | [] => .ok ()
  | o :: rest =>
      match e.checkObject d output t o with
      | .ok () => e.checkObjects d output t rest
      | .error why => .error why

/-! ## Evaluation -/

/-- The nanoseconds of a number of seconds. -/
def nanosOf (seconds : Nat) : Nat :=
  seconds * Instant.perSecond

/-- How long the outputs of a rule may be used again, in nanoseconds. -/
def cacheNanos (e : Engine) (d : RuleDefinition) : Nat :=
  nanosOf (d.cacheSeconds.getD e.policy.cacheSeconds)

/-- The status of a call of a rule's body, its output checked. -/
def judge (e : Engine) (d : RuleDefinition) (t : Instant) :
    Outcome String (List Snapshot) → RuleStatus
  | .returned output =>
      match e.checkObjects d output t output with
      | .ok () => .derived output false
      | .error why => .failed why
  | .failed m => .failed (.ruleExecution d.id m)
  | .panicked m => .failed (.ruleExecution d.id ("rule panicked: " ++ m))

/-- An evaluation whose inputs are known, through the cache. -/
def apply (e : Engine) (timing : Timing) (m : Memory) (rule : RegisteredRule) (root : Snapshot)
    (context : RuleContext) (settings : RuleSettings) (t : Instant) : Memory × RuleStatus :=
  let d := rule.definition
  let key := fingerprint d.id root context settings
  match m.cache.get d.id key timing.asked (e.cacheNanos d) with
  | (cache, some output) => ({ m with cache }, .derived output true)
  | (cache, none) =>
      let m := { m with cache }.countRun d.id
      match e.judge d t (rule.body root context settings) with
      | .derived output cached =>
          ({ m with cache := m.cache.insert d.id key timing.kept output }, .derived output cached)
      | other => (m, other)

/-- The inputs of an evaluation, or why there is none. -/
def prepare (e : Engine) (d : RuleDefinition) (root : Snapshot) (t : Instant) :
    Except RuleStatus (RuleContext × RuleSettings) :=
  if !e.policy.isEnabled d.id d.defaultEnabled then .error (.skipped .disabled)
  else if root.level < d.minLevel then .error (.skipped (.belowMinLevel d.minLevel root.level))
  else match resolveContext e.store root.reference t d.parameters with
    | .error why => .error (.failed why)
    | .ok (.missing name) => .error (.skipped (.missingParameter name))
    | .ok (.ready context) =>
        match loadSettings e.store d root.reference t with
        | .error why => .error (.failed why)
        | .ok settings => .ok (context, settings)

/-- The evaluation of a rule for a root. -/
def evaluate (e : Engine) (timing : Timing) (m : Memory) (rule : RegisteredRule) (root : Snapshot)
    (t : Instant) : Memory × RuleOutcome :=
  let (m, status) := match e.prepare rule.definition root t with
    | .error status => (m, status)
    | .ok (context, settings) => e.apply timing m rule root context settings t
  (m, ⟨rule.id, root, status⟩)

/-- Evaluations one after the other, each with its own readings of the clock. -/
def evaluateAll (e : Engine) (t : Instant) :
    (Nat → Timing) → Memory → List (RegisteredRule × Snapshot) → Memory × List RuleOutcome
  | _, m, [] => (m, [])
  | times, m, (rule, root) :: rest =>
      let (m, outcome) := e.evaluate (times 0) m rule root t
      let (m, outcomes) := e.evaluateAll t (fun i => times (i + 1)) m rest
      (m, outcome :: outcomes)

/-! ## Targets -/

/-- The rules that have an object as root. -/
def ownTargets (e : Engine) (object : Snapshot) : List (RegisteredRule × Snapshot) :=
  (e.registry.rulesForRoot object.type).map (fun rule => (rule, object))

/-- The roots that a path from `start` leads back to, for a rule. -/
def rootsAlong (e : Engine) (changed : Reference) (rule : RegisteredRule) (start : Reference)
    (path : Path) (t : Instant) : Except PipelineError (List (RegisteredRule × Snapshot)) :=
  match e.store.follow start path.reversed rule.definition.consumes t with
  | .ok roots => .ok (roots.map (fun root => (rule, root)))
  | .error why => .error (.unresolved changed.text why)

/-- The roots in whose context an object may stand. -/
def parameterTargets (e : Engine) (changed : Reference) (t : Instant) :
    List (RegisteredRule × RuleParameter) →
      Except PipelineError (List (RegisteredRule × Snapshot))
  | [] => .ok []
  | (rule, p) :: rest =>
      match e.rootsAlong changed rule changed p.path t with
      | .error why => .error why
      | .ok roots =>
          match e.parameterTargets changed t rest with
          | .error why => .error why
          | .ok more => .ok (roots ++ more)

/-- The roots whose settings a configuration object holds. -/
def configTargets (e : Engine) (changed : Snapshot) (t : Instant) :
    Except PipelineError (List (RegisteredRule × Snapshot)) :=
  match changed.entity with
  | .config subject ruleId _ =>
      match e.registry.rules.get? ruleId with
      | some rule =>
          match rule.definition.configPath with
          | some path => e.rootsAlong changed.reference rule subject path t
          | none => .ok []
      | none => .ok []
  | _ => .ok []

/-- The roots that depend on an object. -/
def dependentTargets (e : Engine) (changed : Snapshot) (t : Instant) :
    Except PipelineError (List (RegisteredRule × Snapshot)) :=
  match e.parameterTargets changed.reference t (e.registry.rulesWithParameter changed.type) with
  | .error why => .error why
  | .ok byParameter =>
      match e.configTargets changed t with
      | .error why => .error why
      | .ok byConfig => .ok (byParameter ++ byConfig)

/-- A rule and a root by their names. -/
def targetKey (target : RegisteredRule × Snapshot) : String × Reference :=
  (target.1.id, target.2.reference)

/-- What a commit concerns: rules and roots, each pair once. -/
def targets (e : Engine) (changed : Reference) (t : Instant) :
    Except PipelineError (List (RegisteredRule × Snapshot)) :=
  match e.store.get changed t with
  | .error why => .error (.unresolved changed.text why)
  | .ok none => .ok []
  | .ok (some object) =>
      match e.dependentTargets object t with
      | .error why => .error why
      | .ok dependent => .ok (distinctBy targetKey (e.ownTargets object ++ dependent))

/-- The evaluations of the rules that have an object as root. -/
def derive (e : Engine) (times : Nat → Timing) (m : Memory) (root : Snapshot) (t : Instant) :
    Memory × List RuleOutcome :=
  e.evaluateAll t times m (e.ownTargets root)

/-- The evaluations of what a commit concerns. -/
def deriveFor (e : Engine) (times : Nat → Timing) (m : Memory) (changed : Reference)
    (t : Instant) : Except PipelineError (Memory × List RuleOutcome) :=
  match e.targets changed t with
  | .error why => .error why
  | .ok found => .ok (e.evaluateAll t times m found)

def evaluateId (e : Engine) (timing : Timing) (m : Memory) (rule : String) (root : Snapshot)
    (t : Instant) : Except PipelineError (Memory × RuleOutcome) :=
  match e.registry.rules.get? rule with
  | some r => .ok (e.evaluate timing m r root t)
  | none => .error (.notFound ("rule " ++ rule))

end Engine

end ScanGraph
