/-
Rules evaluated in calls.

An evaluation reads the store many times: the object that was committed, the roots
it belongs to, the context of each rule, its settings, and the finding types of its
output; and it asks the cache, which it may add to.  Each of these is a call, and
the store may change between any two of them.  The evaluations of one commit are
gone through at once.  Uninterrupted and one after the other, they come to what the
engine makes of one moment: `run_derive`.

## How it is set up

The definitions of the engine are gone through one by one, each with the calls that it
makes written out as a course, and each with an equation that says what the course comes
to if nobody interrupts it (`run_get` to `run_deriveBy`).  So a statement about courses
is one about the engine, and nothing is evaluated here that the engine does not
evaluate.

The clock is read when the cache is asked and again when an output is kept, each time at
the moment of that call.  Uninterrupted, the readings of a whole run are determined by
where it begins (`ticks_succ`, `paced_succ`); with others in between they are whatever
the pipeline shows by then.

## What is left open

How the evaluations of one commit are gone through, whether at once or one after the
other, is a parameter of `deriveBy`.  `run_deriveBy` fixes it, for the order in which
the targets are listed.
-/
import ScanGraph.Proofs.Derivation.Run
import ScanGraph.Proofs.Pipeline.Course
import ScanGraph.Proofs.Store.Reachable

namespace ScanGraph

namespace Evaluator

open Course

/-! ## Reading -/

/-- The object visible at a time, or why the store cannot say. -/
def get (r : Reference) (t : Instant) : Course (Except StoreError (Option Snapshot)) :=
  reading (fun p => p.store.get r t)

/-- The objects at the end of a path, or why the store cannot say. -/
def follow (start : Reference) (path : Path) (type : ObjectType) (t : Instant) :
    Course (Except StoreError (List Snapshot)) :=
  reading (fun p => p.store.follow start path type t)

/-! ## Context and settings -/

/-- The objects that a parameter stands for. -/
def lookUp (p : RuleParameter) (root : Reference) (t : Instant) :
    Course (Except PipelineError (List Snapshot)) := do
  match ← follow root p.path p.type t with
  | .ok found => pure (.ok (p.eligible found))
  | .error e => pure (.error (.unresolved p.name e))

/-- The context of some parameters, up to the first one that is missing or fails. -/
def resolveContext (root : Reference) (t : Instant) :
    List RuleParameter → Course (Except PipelineError Resolution)
  | [] => pure (.ok (.ready []))
  | p :: rest => do
      match ← lookUp p root t with
      | .error e => pure (.error e)
      | .ok objects =>
          if objects.isEmpty && !p.optional then pure (.ok (.missing p.name))
          else
            match ← resolveContext root t rest with
            | .ok (.ready slots) => pure (.ok (.ready (⟨p.name, p.type, objects⟩ :: slots)))
            | other => pure other

/-- Settings with those in place of their own that hang on some holders. -/
def settingsOn (rule : String) (t : Instant) (settings : RuleSettings) :
    List Snapshot → Course (Except PipelineError RuleSettings)
  | [] => pure (.ok settings)
  | o :: rest => do
      match ← get (Entity.configReference o.reference rule) t with
      | .error e => pure (.error (.unresolved "config" e))
      | .ok found =>
          let own := (found.bind (fun c => c.entity.settings?)).getD .empty
          settingsOn rule t (settings.override own) rest

/-- The settings of a rule: those of every holder, later ones taking precedence. -/
def loadSettings (d : RuleDefinition) (root : Reference) (t : Instant) :
    Course (Except PipelineError RuleSettings) :=
  match d.configPath with
  | none => pure (.ok .empty)
  | some path => do
      match ← follow root path path.endType t with
      | .error e => pure (.error (.unresolved "config" e))
      | .ok holders => settingsOn d.id t .empty holders

/-- The inputs of an evaluation, or why there is none. -/
def prepare (policy : DerivationPolicy) (d : RuleDefinition) (root : Snapshot) (t : Instant) :
    Course (Except RuleStatus (RuleContext × RuleSettings)) :=
  if !policy.isEnabled d.id d.defaultEnabled then pure (.error (.skipped .disabled))
  else if root.level < d.minLevel then
    pure (.error (.skipped (.belowMinLevel d.minLevel root.level)))
  else do
    match ← resolveContext root.reference t d.parameters with
    | .error why => pure (.error (.failed why))
    | .ok (.missing name) => pure (.error (.skipped (.missingParameter name)))
    | .ok (.ready context) =>
        match ← loadSettings d root.reference t with
        | .error why => pure (.error (.failed why))
        | .ok settings => pure (.ok (context, settings))

/-! ## Output -/

/-- What is wrong with one object of an output. -/
def checkObject (d : RuleDefinition) (output : List Snapshot) (t : Instant) (o : Snapshot) :
    Course (Except PipelineError Unit) :=
  if !d.declares o.type then
    pure (.error (.ruleExecution d.id ("emitted undeclared type " ++ o.type.name)))
  else match Engine.findingType? o.entity with
    | none => pure (.ok ())
    | some type =>
        if output.any (fun o => o.reference == type) then pure (.ok ())
        else do
          match ← get type t with
          | .error why => pure (.error (.unresolved type.text why))
          | .ok (some _) => pure (.ok ())
          | .ok none =>
              pure (.error (.ruleExecution d.id ("finding references unknown type " ++ type.text)))

/-- What is wrong with the first object at fault among some of an output. -/
def checkObjects (d : RuleDefinition) (output : List Snapshot) (t : Instant) :
    List Snapshot → Course (Except PipelineError Unit)
  | [] => pure (.ok ())
  | o :: rest => do
      match ← checkObject d output t o with
      | .ok () => checkObjects d output t rest
      | .error why => pure (.error why)

/-- The status of a call of a rule's body, its output checked. -/
def judge (d : RuleDefinition) (t : Instant) : Outcome String (List Snapshot) → Course RuleStatus
  | .returned output => do
      match ← checkObjects d output t output with
      | .ok () => pure (.derived output false)
      | .error why => pure (.failed why)
  | .failed m => pure (.failed (.ruleExecution d.id m))
  | .panicked m => pure (.failed (.ruleExecution d.id ("rule panicked: " ++ m)))

/-! ## The cache -/

/-- The digest of octets, as a key of the cache. -/
def keyOf (octets : List UInt8) : String :=
  Text.hex (Sha256.digest octets)

/-- A tick later, with such a memory. -/
def spent (p : Pipeline) (memory : Memory) : Pipeline :=
  { p with memory, clock := p.clock + Pipeline.tick }

/-- The cache asked for the output of an evaluation; if it has none, the rule's body runs. -/
def ask (rule : String) (octets : List UInt8) (ttl : Nat) : Action (Option (List Snapshot)) :=
  fun p =>
    match p.memory.cache.get rule (keyOf octets) p.clock ttl with
    | (cache, some output) => (.ok (some output), spent p { p.memory with cache })
    | (cache, none) => (.ok none, spent p (Memory.countRun { p.memory with cache } rule))

def consult (rule : String) (octets : List UInt8) (ttl : Nat) : Course (Option (List Snapshot)) :=
  .call [octets] (ask rule octets ttl) .done

def keep (rule : String) (octets : List UInt8) (output : List Snapshot) : Course Unit :=
  .call [] (fun p => (.ok (), { p with
    memory := { p.memory with
      cache := p.memory.cache.insert rule (keyOf octets) p.clock output } })) .done

/-- An evaluation whose inputs are known, through the cache. -/
def apply (policy : DerivationPolicy) (rule : RegisteredRule) (root : Snapshot)
    (context : RuleContext) (settings : RuleSettings) (t : Instant) : Course RuleStatus := do
  let d := rule.definition
  let octets := Fingerprint.octets d.id root context settings
  match ← consult d.id octets (Engine.nanosOf (d.cacheSeconds.getD policy.cacheSeconds)) with
  | some output => pure (.derived output true)
  | none =>
      match ← judge d t (rule.body root context settings) with
      | .derived output cached => do
          keep d.id octets output
          pure (.derived output cached)
      | other => pure other

/-- The time that an evaluation takes which does not come to the cache. -/
def elapse : Course Unit :=
  .call [] (fun p => (.ok (), spent p p.memory)) .done

/-- The evaluation of a rule for a root. -/
def evaluate (policy : DerivationPolicy) (t : Instant) (target : RegisteredRule × Snapshot) :
    Course RuleOutcome := do
  match ← prepare policy target.1.definition target.2 t with
  | .error status => do
      elapse
      pure ⟨target.1.id, target.2, status⟩
  | .ok (context, settings) =>
      let status ← apply policy target.1 target.2 context settings t
      pure ⟨target.1.id, target.2, status⟩

/-! ## Targets -/

/-- The roots that a path from `start` leads back to, for a rule. -/
def rootsAlong (changed : Reference) (rule : RegisteredRule) (start : Reference) (path : Path)
    (t : Instant) : Course (Except PipelineError (List (RegisteredRule × Snapshot))) := do
  match ← follow start path.reversed rule.definition.consumes t with
  | .ok roots => pure (.ok (roots.map (fun root => (rule, root))))
  | .error why => pure (.error (.unresolved changed.text why))

/-- The roots in whose context an object may stand. -/
def parameterTargets (changed : Reference) (t : Instant) :
    List (RegisteredRule × RuleParameter) →
      Course (Except PipelineError (List (RegisteredRule × Snapshot)))
  | [] => pure (.ok [])
  | (rule, p) :: rest => do
      match ← rootsAlong changed rule changed p.path t with
      | .error why => pure (.error why)
      | .ok roots =>
          match ← parameterTargets changed t rest with
          | .error why => pure (.error why)
          | .ok more => pure (.ok (roots ++ more))

/-- The roots whose settings a configuration object holds. -/
def configTargets (registry : Registry) (changed : Snapshot) (t : Instant) :
    Course (Except PipelineError (List (RegisteredRule × Snapshot))) :=
  match changed.entity with
  | .config subject ruleId _ =>
      match registry.rules.get? ruleId with
      | some rule =>
          match rule.definition.configPath with
          | some path => rootsAlong changed.reference rule subject path t
          | none => pure (.ok [])
      | none => pure (.ok [])
  | _ => pure (.ok [])

/-- The roots that depend on an object. -/
def dependentTargets (registry : Registry) (changed : Snapshot) (t : Instant) :
    Course (Except PipelineError (List (RegisteredRule × Snapshot))) := do
  match ← parameterTargets changed.reference t (registry.rulesWithParameter changed.type) with
  | .error why => pure (.error why)
  | .ok byParameter =>
      match ← configTargets registry changed t with
      | .error why => pure (.error why)
      | .ok byConfig => pure (.ok (byParameter ++ byConfig))

/-- What a commit concerns: rules and roots, each pair once. -/
def targets (registry : Registry) (changed : Reference) (t : Instant) :
    Course (Except PipelineError (List (RegisteredRule × Snapshot))) := do
  match ← get changed t with
  | .error why => pure (.error (.unresolved changed.text why))
  | .ok none => pure (.ok [])
  | .ok (some object) =>
      match ← dependentTargets registry object t with
      | .error why => pure (.error why)
      | .ok dependent =>
          let own := (registry.rulesForRoot object.type).map (fun rule => (rule, object))
          pure (.ok (distinctBy Engine.targetKey (own ++ dependent)))

/-- What a commit concerns found and evaluated, given how the evaluations are gone through. -/
def deriveBy (gather : List (Course RuleOutcome) → Course (List RuleOutcome))
    (changed : Reference) (t : Instant) : Course (List RuleOutcome) := do
  let p ← reading id
  match ← targets p.registry changed t with
  | .error why => .done (.error (.error why))
  | .ok found => gather (found.map (evaluate p.policy.derivation t))

/-! ## Uninterrupted -/

section Run

variable {p : Pipeline} {root changed : Reference} {t : Instant}

theorem run_get (r : Reference) : (get r t).run p = (.ok (p.store.get r t), p) := rfl

theorem run_follow (path : Path) (type : ObjectType) :
    (follow root path type t).run p = (.ok (p.store.follow root path type t), p) := rfl

theorem run_lookUp (x : RuleParameter) :
    (lookUp x root t).run p = (.ok (x.lookUp p.store root t), p) := by
  unfold lookUp RuleParameter.lookUp
  rw [run_bind_of_ok (run_follow _ _)]
  cases p.store.follow root x.path x.type t <;> rfl

theorem run_resolveContext (xs : List RuleParameter) :
    (resolveContext root t xs).run p = (.ok (ScanGraph.resolveContext p.store root t xs), p) := by
  induction xs with
  | nil => rfl
  | cons x xs ih =>
    unfold resolveContext ScanGraph.resolveContext
    rw [run_bind_of_ok (run_lookUp x)]
    cases x.lookUp p.store root t with
    | error e => rfl
    | ok objects =>
      dsimp only
      split
      · rfl
      · rw [run_bind_of_ok ih]
        rcases ScanGraph.resolveContext p.store root t xs with e | ⟨slots⟩ | name <;> rfl

theorem run_settingsOn (honline : p.store.offline = false) (rule : String) (holders : List Snapshot)
    (settings : RuleSettings) : (settingsOn rule t settings holders).run p
      = (.ok (.ok (holders.foldl (fun settings o =>
          RuleSettings.override settings (p.store.settingsOn rule o.reference t)) settings)), p) := by
  induction holders generalizing settings with
  | nil => rfl
  | cons o rest ih =>
    have hget : p.store.get (Entity.configReference o.reference rule) t
        = .ok (p.store.read? (Entity.configReference o.reference rule) t) :=
      Store.guarded_eq_ok_iff.2 ⟨honline, rfl⟩
    have hsettings : ((p.store.read? (Entity.configReference o.reference rule) t).bind
        (fun c => c.entity.settings?)).getD .empty = p.store.settingsOn rule o.reference t := by
      unfold Store.read? Store.settingsOn
      cases p.store.visible? (Entity.configReference o.reference rule) t <;> rfl
    unfold settingsOn
    rw [run_bind_of_ok (run_get _), hget]
    dsimp only
    rw [hsettings]
    exact ih _

theorem run_loadSettings (d : RuleDefinition) :
    (loadSettings d root t).run p = (.ok (ScanGraph.loadSettings p.store d root t), p) := by
  unfold loadSettings ScanGraph.loadSettings
  cases d.configPath with
  | none => rfl
  | some path =>
    dsimp only
    rw [run_bind_of_ok (run_follow _ _)]
    cases hfollow : p.store.follow root path path.endType t with
    | error e => rfl
    | ok holders => exact run_settingsOn (Store.guarded_eq_ok_iff.1 hfollow).1 _ _ _

theorem run_prepare (d : RuleDefinition) (o : Snapshot) :
    (prepare p.policy.derivation d o t).run p = (.ok (p.engine.prepare d o t), p) := by
  have hpolicy : p.engine.policy = p.policy.derivation := rfl
  have hstore : p.engine.store = p.store := rfl
  unfold prepare Engine.prepare
  rw [hpolicy, hstore]
  split
  · rfl
  · split
    · rfl
    · rw [run_bind_of_ok (run_resolveContext _)]
      rcases ScanGraph.resolveContext p.store o.reference t d.parameters with e | ⟨context⟩ | name
      · rfl
      · dsimp only
        rw [run_bind_of_ok (run_loadSettings d)]
        cases ScanGraph.loadSettings p.store d o.reference t <;> rfl
      · rfl

theorem run_checkObject (d : RuleDefinition) (output : List Snapshot) (o : Snapshot) :
    (checkObject d output t o).run p = (.ok (p.engine.checkObject d output t o), p) := by
  unfold checkObject Engine.checkObject
  split
  · rfl
  · cases Engine.findingType? o.entity with
    | none => rfl
    | some type =>
      unfold Engine.knowsFindingType
      dsimp only
      split
      · rfl
      · rw [run_bind_of_ok (run_get type), show p.engine.store = p.store from rfl]
        rcases p.store.get type t with why | (_ | found) <;> rfl

theorem run_checkObjects (d : RuleDefinition) (output os : List Snapshot) :
    (checkObjects d output t os).run p = (.ok (p.engine.checkObjects d output t os), p) := by
  induction os with
  | nil => rfl
  | cons o os ih =>
    unfold checkObjects Engine.checkObjects
    rw [run_bind_of_ok (run_checkObject d output o)]
    rcases p.engine.checkObject d output t o with why | _
    · rfl
    · exact ih

theorem run_judge (d : RuleDefinition) (outcome : Outcome String (List Snapshot)) :
    (judge d t outcome).run p = (.ok (p.engine.judge d t outcome), p) := by
  cases outcome with
  | returned output =>
    unfold judge Engine.judge
    rw [run_bind_of_ok (run_checkObjects d output output)]
    dsimp only
    rcases p.engine.checkObjects d output t output with why | _ <;> rfl
  | failed m => rfl
  | panicked m => rfl

section Ask

variable {rule : String} {octets : List UInt8} {ttl : Nat} {cache : Cache}

theorem ask_of_found {output : List Snapshot}
    (h : p.memory.cache.get rule (keyOf octets) p.clock ttl = (cache, some output)) :
    ask rule octets ttl p = (.ok (some output), spent p { p.memory with cache }) := by
  unfold ask
  rw [h]

theorem ask_of_none (h : p.memory.cache.get rule (keyOf octets) p.clock ttl = (cache, none)) :
    ask rule octets ttl p
      = (.ok none, spent p (Memory.countRun { p.memory with cache } rule)) := by
  unfold ask
  rw [h]

end Ask

theorem run_apply (rule : RegisteredRule) (o : Snapshot) (context : RuleContext)
    (settings : RuleSettings) : (apply p.policy.derivation rule o context settings t).run p
      = (.ok (p.engine.apply (Pipeline.paced p.clock 0) p.memory rule o context settings t).2,
        spent p
          (p.engine.apply (Pipeline.paced p.clock 0) p.memory rule o context settings t).1) := by
  let d := rule.definition
  let octets := Fingerprint.octets d.id o context settings
  have hkey : fingerprint d.id o context settings = keyOf octets := rfl
  have httl : p.engine.cacheNanos d
      = Engine.nanosOf (d.cacheSeconds.getD p.policy.derivation.cacheSeconds) := rfl
  have hconsult : (consult d.id octets (p.engine.cacheNanos d)).run p
      = ask d.id octets (p.engine.cacheNanos d) p := rfl
  have hasked : (Pipeline.paced p.clock 0).asked = p.clock := by simp [Pipeline.paced]
  have hkept : (Pipeline.paced p.clock 0).kept = p.clock + Pipeline.tick := by
    simp [Pipeline.paced]
  unfold apply Engine.apply
  dsimp only
  rw [hkey, ← httl, hasked, hkept]
  rcases hget : p.memory.cache.get d.id (keyOf octets) p.clock (p.engine.cacheNanos d)
    with ⟨cache, _ | output⟩
  · rw [ask_of_none hget] at hconsult
    rw [run_bind_of_ok hconsult]
    let asked : Pipeline := spent p (Memory.countRun { p.memory with cache } d.id)
    have hjudge : (judge d t (rule.body o context settings)).run asked
        = (.ok (p.engine.judge d t (rule.body o context settings)), asked) := run_judge d _
    dsimp only
    rw [run_bind_of_ok hjudge]
    rcases p.engine.judge d t (rule.body o context settings) with ⟨os, cached⟩ | reason | why <;>
      rfl
  · rw [ask_of_found hget] at hconsult
    rw [run_bind_of_ok hconsult]
    rfl

theorem run_evaluate (target : RegisteredRule × Snapshot) :
    (evaluate p.policy.derivation t target).run p
      = (.ok (p.engine.evaluate (Pipeline.paced p.clock 0) p.memory target.1 target.2 t).2,
        spent p
          (p.engine.evaluate (Pipeline.paced p.clock 0) p.memory target.1 target.2 t).1) := by
  unfold evaluate Engine.evaluate
  rw [run_bind_of_ok (run_prepare _ _)]
  rcases p.engine.prepare target.1.definition target.2 t with status | ⟨context, settings⟩
  · rfl
  · dsimp only
    rw [run_bind_of_ok (run_apply target.1 target.2 context settings)]
    rfl

theorem ticks_succ (clock n : Nat) :
    clock + (n + 1) * Pipeline.tick = clock + Pipeline.tick + n * Pipeline.tick := by
  rw [Nat.succ_mul, Nat.add_comm (n * Pipeline.tick), Nat.add_assoc]

/-- The readings of the evaluations after the first one are those from a tick later on. -/
theorem paced_succ (clock : Nat) :
    (fun i => Pipeline.paced clock (i + 1)) = Pipeline.paced (clock + Pipeline.tick) :=
  funext (fun _ => congrArg₂ Timing.mk (ticks_succ _ _) (ticks_succ _ _))

theorem run_evaluateAll (found : List (RegisteredRule × Snapshot)) (before : List RuleOutcome) :
    (inOrder before (found.map (evaluate p.policy.derivation t))).run p
      = (.ok (before ++ (p.engine.evaluateAll t (Pipeline.paced p.clock) p.memory found).2),
        { p with
          memory := (p.engine.evaluateAll t (Pipeline.paced p.clock) p.memory found).1
          clock := p.clock + found.length * Pipeline.tick }) := by
  induction found generalizing p before with
  | nil =>
    unfold Engine.evaluateAll
    rw [List.append_nil, List.length_nil, Nat.zero_mul, Nat.add_zero]
    rfl
  | cons target found ih =>
    obtain ⟨rule, root⟩ := target
    let q : Pipeline := spent p
      (p.engine.evaluate (Pipeline.paced p.clock 0) p.memory rule root t).1
    have hrest := ih (p := q)
      (before ++ [(p.engine.evaluate (Pipeline.paced p.clock 0) p.memory rule root t).2])
    have hclock : p.clock + (found.length + 1) * Pipeline.tick
        = q.clock + found.length * Pipeline.tick := ticks_succ _ _
    rw [List.map_cons]
    unfold inOrder Engine.evaluateAll
    rw [run_bind_of_ok (run_evaluate (rule, root)), paced_succ, List.length_cons, hclock]
    rw [List.append_assoc] at hrest
    exact hrest

theorem run_rootsAlong (rule : RegisteredRule) (start : Reference) (path : Path) :
    (rootsAlong changed rule start path t).run p
      = (.ok (p.engine.rootsAlong changed rule start path t), p) := by
  unfold rootsAlong Engine.rootsAlong
  rw [run_bind_of_ok (run_follow _ _), show p.engine.store = p.store from rfl]
  cases p.store.follow start path.reversed rule.definition.consumes t <;> rfl

theorem run_parameterTargets (xs : List (RegisteredRule × RuleParameter)) :
    (parameterTargets changed t xs).run p
      = (.ok (p.engine.parameterTargets changed t xs), p) := by
  induction xs with
  | nil => rfl
  | cons x xs ih =>
    obtain ⟨rule, parameter⟩ := x
    unfold parameterTargets Engine.parameterTargets
    rw [run_bind_of_ok (run_rootsAlong _ _ _)]
    cases p.engine.rootsAlong changed rule changed parameter.path t with
    | error why => rfl
    | ok roots =>
      dsimp only
      rw [run_bind_of_ok ih]
      cases p.engine.parameterTargets changed t xs <;> rfl

theorem run_configTargets (o : Snapshot) :
    (configTargets p.registry o t).run p = (.ok (p.engine.configTargets o t), p) := by
  unfold configTargets Engine.configTargets
  rw [show p.engine.registry = p.registry from rfl]
  cases o.entity with
  | config subject ruleId settings =>
    dsimp only
    cases p.registry.rules.get? ruleId with
    | none => rfl
    | some rule =>
      dsimp only
      cases rule.definition.configPath with
      | none => rfl
      | some path => exact run_rootsAlong _ _ _
  | _ => rfl

theorem run_dependentTargets (o : Snapshot) :
    (dependentTargets p.registry o t).run p = (.ok (p.engine.dependentTargets o t), p) := by
  unfold dependentTargets Engine.dependentTargets
  rw [run_bind_of_ok (run_parameterTargets _), show p.engine.registry = p.registry from rfl]
  cases p.engine.parameterTargets o.reference t (p.registry.rulesWithParameter o.type) with
  | error why => rfl
  | ok byParameter =>
    dsimp only
    rw [run_bind_of_ok (run_configTargets o)]
    cases p.engine.configTargets o t <;> rfl

theorem run_targets :
    (targets p.registry changed t).run p = (.ok (p.engine.targets changed t), p) := by
  unfold targets Engine.targets
  rw [run_bind_of_ok (run_get _), show p.engine.store = p.store from rfl]
  rcases p.store.get changed t with why | (_ | object)
  · rfl
  · rfl
  · dsimp only
    rw [run_bind_of_ok (run_dependentTargets object)]
    cases p.engine.dependentTargets object t <;> rfl

/-- One evaluation after the other, uninterrupted, comes to what the engine makes of the moment. -/
theorem run_deriveBy : (deriveBy (inOrder []) changed t).run = Pipeline.deriveFor changed t := by
  funext p
  unfold deriveBy Pipeline.deriveFor
  have hread : (reading id).run p = (.ok p, p) := rfl
  rw [run_bind_of_ok hread, run_bind_of_ok run_targets, Action.get_bind]
  unfold Engine.deriveFor
  cases p.engine.targets changed t with
  | error why => rfl
  | ok found =>
    dsimp only
    rw [Engine.length_evaluateAll]
    exact run_evaluateAll found []

end Run

end Evaluator

end ScanGraph
