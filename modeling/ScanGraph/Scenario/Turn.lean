/-
Scenarios: a setting, and a pipeline on which steps are played.

A setting is read from JSON: whether the plugins at hand are used, scripted
plugins by the names of their entrypoints, declarations of plugins, and of
scanners that run elsewhere.

A turn reads and changes the scenario and may fail; what it changed before it
failed stays.  Jobs that the pipeline queued by itself are named by number, in
the order in which they were queued, and chains of jobs by the order in which
they appear.

Naming jobs and chains by numbers makes answers independent of ids, which are taken in
order here and would be random elsewhere.
-/
import ScanGraph.Pipeline.Drain
import ScanGraph.Plugin.Codec
import ScanGraph.Scenario.Script
import ScanGraph.Scenario.Surroundings
import ScanGraph.Summary.Work

namespace ScanGraph

open Json

structure Setting where
  /-- The plugins at hand are used. -/
  builtins : Bool
  entrypoints : Entrypoints
  /-- The names of the scripted rules. -/
  scriptedRules : List String
  plugins : List PluginEntry
  externals : List ScannerDefinition

namespace Setting

def decoder : Decoder Setting := fun v => do
  let scripts := (v.arg "entrypoints").membersOf
  let entrypoints ← Builtin.entrypoints.withScripts scripts
  let plugins ← v.many "plugins" (PluginEntry.decoder .byPlace)
  let externals ← v.many "externals" ScannerDefinition.decoder
  let isRule (script : String × Json) : Bool := script.2.arg "kind" == .str "rule"
  pure ⟨v.isSet "builtins", entrypoints, (scripts.filter isRule).map Prod.fst, plugins, externals⟩

def draft (s : Setting) : Registry.Draft :=
  let d : Registry.Draft := if s.builtins then Builtin.addAll .closed .empty else .empty
  let d := s.plugins.foldl (fun d e => d.add e.definition e.entrypoint s.entrypoints) d
  s.externals.foldl (fun d x => d.addScanner x none) d

/-- The rules of the setting that are scripted, with the names of their scripts. -/
def rulesByScript (s : Setting) : List (String × String) :=
  s.plugins.filterMap (fun e =>
    let name := e.entrypoint.getD e.definition.id
    if e.definition.kind == .rule && s.scriptedRules.contains name then
      some (e.definition.id, name)
    else none)

end Setting

/-! ## Questions -/

namespace Registry

/-- A question that a registry does not know. -/
inductive QueryError where
  | unknown
  | form (e : DecodeError)
  | refused (e : PipelineError)

def ruleIds (l : List RegisteredRule) : Json :=
  list (fun r => .str r.id) l

/-- What a registry knows under an id: whether a scanner has a body, and what else there is. -/
def findings (r : Registry) (id : String) : Json :=
  .obj [("boefje", orNull (fun x => .bool x.body.isSome) (r.scanners.get? id)),
    ("normalizer", .bool (r.normalizers.contains id)), ("rule", .bool (r.rules.contains id))]

def asked {α : Type} (q : Json) (key : String) (d : Decoder α) : Except QueryError α :=
  (q.need key d).mapError .form

def answer (r : Registry) (q : Json) : Except QueryError Json := do
  match q.arg "q" with
  | .str "all" => pure (texts (r.all.map PluginDefinition.id))
  | .str "rules" => pure (ruleIds r.rules.values)
  | .str "rules_for_root" => do
      pure (ruleIds (r.rulesForRoot (← asked q "type" ObjectType.decoder)))
  | .str "rules_with_parameter" => do
      let t ← asked q "type" ObjectType.decoder
      pure (list (fun (rule, p) => .str (rule.id ++ "." ++ p.name)) (r.rulesWithParameter t))
  | .str "normalizers_for" => do
      let tags ← (q.many "tags" .text).mapError .form
      let scanner ← asked q "boefje" .text
      pure (list (fun n => .str n.definition.id) (r.normalizersFor (.ofList tags) scanner))
  | .str "boefjes_for" => do
      let t ← asked q "type" ObjectType.decoder
      let level ← asked q "level" Level.decoder
      pure (list (fun s => .str s.definition.id) (r.scannersFor t level))
  | .str "resolve" => do
      pure (← (r.resolve (← asked q "id" .text)).mapError .refused).toJson
  | .str "find" => do pure (r.findings (← asked q "id" .text))
  | _ => .error .unknown

end Registry

end ScanGraph

namespace ScanGraph

open Json

/-- A pipeline, and what the answers of its steps refer to. -/
structure Scenario where
  pipeline : Pipeline
  /-- Where the steps on the store go if the pipeline has a store of its own. -/
  apart : Option Pipeline
  /-- The ids of jobs that steps made. -/
  crafted : List Uuid
  /-- The chains that have appeared. -/
  chains : List Uuid
  /-- The scripted rules, with the names of their scripts. -/
  scripted : List (String × String)

namespace Scenario

inductive Failure where
  | form (e : DecodeError)
  /-- The step itself makes no sense. -/
  | badStep (why : String)
  | store (e : StoreError)
  | pipeline (e : PipelineError)
  | panic (message : String)

def Failure.summary : Failure → Json
  | form e => e.summary
  | badStep why => failureWith "BadInput" why
  | store e => e.summary
  | pipeline e => e.summary
  | panic message => failureWith "Panic" message

abbrev Turn (α : Type) := ExceptT Failure (StateM Scenario) α

/-- The scenario of a pipeline that nothing was played on. -/
def ofPipeline (p : Pipeline) : Scenario :=
  ⟨p, none, [], [], []⟩

/-! ## Arguments -/

/-- A turn that ends in a value of JSON, or in its fault. -/
def reading {α : Type} : Except DecodeError α → Turn α
  | .ok a => pure a
  | .error e => throw (.form e)

def argument {α : Type} (step : Json) (key : String) (d : Decoder α) : Turn α :=
  reading (step.need key d)

/-- An object that is put into a store: an entity, its clearance, and a level to declare. -/
def seed : Decoder Snapshot := fun v => do
  let o : Snapshot := .ofEntity (← v.need "object" Entity.decoder)
  let o := { o with profile := ← v.maybe "profile" Profile.decoder }
  match ← v.maybe "level" Level.decoder with
  | some l => pure (o.declare l)
  | none => pure o

/-- A time: a second of the calendar, or `now`. -/
def timeAt? (now : Instant) : Json → Option Instant
  | .int s => Instant.ofSecond? s
  | .str "now" => some now
  | _ => none

/-! ## Acting -/

/-- The failure of an action on a pipeline. -/
def faultOf : Fault → Failure
  | .error e => .pipeline e
  | .panic m => .panic m

def storeFaultOf : Fault → Failure
  | .error (.store e) => .store e
  | f => faultOf f

def perform {α : Type} (act : Action α) : Turn α := do
  let s ← get
  let (result, pipeline) := act s.pipeline
  set { s with pipeline }
  match result with
  | .ok a => pure a
  | .error f => throw (faultOf f)

/-- An action where the steps on the store go. -/
def performOnStore {α : Type} (act : Action α) : Turn α := do
  let s ← get
  let (result, p) := act (s.apart.getD s.pipeline)
  set (if s.apart.isSome then { s with apart := some p } else { s with pipeline := p })
  match result with
  | .ok a => pure a
  | .error f => throw (storeFaultOf f)

def changeStore {α : Type} (change : Store → Except StoreError (Store × α)) : Turn α :=
  performOnStore (do
    let p ← get
    match change p.store with
    | .ok (store, a) =>
        set { p with store }
        pure a
    | .error e => throw (.error (.store e)))

def readStore {α : Type} (read : Store → Except StoreError α) : Turn α :=
  changeStore (fun s => (read s).map (fun a => (s, a)))

def timeOf (step : Json) : Turn Instant := do
  match timeAt? (← perform Pipeline.now) (step.arg "t") with
  | some t => pure t
  | none => throw (.badStep "time")

/-! ## Names -/

/-- The ids of the jobs that the pipeline queued by itself, in order. -/
def ownJobs (s : Scenario) : List Uuid :=
  s.pipeline.queue.log.filter (fun id => !s.crafted.contains id)

def jobName (n : Nat) : String :=
  "#" ++ Text.decimalText n

/-- The names of the jobs that the pipeline queued by itself. -/
def jobNames (s : Scenario) : List (Uuid × String) :=
  (ownJobs s).zipIdx.map (fun (id, n) => (id, jobName n))

def numbered : Decoder Uuid :=
  fun v => (Decoder.nat64 v).map Uuid.ofNat

/-- The job that a step is about, by its name or the number of its id. -/
def jobOf (step : Json) : Turn Uuid := do
  match step.arg "job" with
  | .str name =>
      match (jobNames (← get)).find? (fun x => x.2 == name) with
      | some (id, _) => pure id
      | none => throw (.badStep "no such job")
  | v => reading (numbered v)

def chainName (chain : Option Uuid) : Turn Json := do
  match chain with
  | none => pure (.str "self")
  | some id =>
      let s ← get
      let chains := if s.chains.contains id then s.chains else s.chains ++ [id]
      set { s with chains }
      pure (.str ("c" ++ Text.decimalText (chains.idxOf id)))

/-- The object that a step is about: read from the store, or given by the step. -/
def rootOf (step : Json) (t : Instant) : Turn Snapshot := do
  match step.arg "ref" with
  | .null => argument step "root" seed
  | v =>
      let r ← reading (Reference.decoder v)
      match ← readStore (fun s => s.get r t) with
      | some o => pure o
      | none => throw (.badStep "no such object")

end Scenario

end ScanGraph
