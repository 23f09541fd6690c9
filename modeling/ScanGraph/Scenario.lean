/-
Playing scenarios.

The steps of a scenario are played one after the other, a step that fails
leaving what it has changed; after every step the reader of the bus collects
what was published.  In the answers jobs go by their names, and times by their
seconds if they are early and whole, all others being `now`.

Scenarios are how the library is tried out, and nothing in it depends on them.  They are
played in one go: a worker that is started works only when a step waits for it, so that
the answers of a scenario are determined.
-/
import ScanGraph.Scenario.Steps

namespace ScanGraph.Scenario

open Json

/-! ## Playing -/

def playStep (step : Json) : Turn Json := do
  let name ← argument step "step" .text
  match (storeSteps ++ ruleSteps ++ jobSteps).lookup name with
  | some turn => turn step
  | none => throw (.badStep "step")

def answerTo : Except Failure Json → Json
  | .ok v => v
  | .error f => f.summary

/-- The scenario after the reader of the bus has collected what was published. -/
def collected (s : Scenario) : Scenario :=
  { s with pipeline := { s.pipeline with bus := s.pipeline.bus.collect } }

/-- Steps played in order, and the answers. -/
def play : Scenario → List Json → Scenario × List Json
  | s, [] => (s, [])
  | s, step :: rest =>
      let (result, s) := playStep step s
      let (s, answers) := play s.collected rest
      (s, answerTo result :: answers)

/-! ## Answers -/

/-- The first second that is not shown. -/
def lateSecond : Int := 1000000000

def timeText (t : Instant) : Json :=
  if t.second < lateSecond ∧ t.nano = 0 then .int t.second else .str "now"

/-- A text in which the ids of jobs are replaced by their names. -/
def renamed (names : List (String × String)) (s : String) : String :=
  if s.utf8ByteSize < 36 then s
  else names.foldl (fun s x => s.replace x.1 x.2) s

def shownText (names : List (String × String)) (s : String) : Json :=
  match Instant.parseStrict? s with
  | some t => timeText t
  | none => .str (renamed names s)

mutual

def shown (names : List (String × String)) : Json → Json
  | .str s => shownText names s
  | .arr items => .arr (shownItems names items)
  | .obj ms => .obj (shownMembers names ms)
  | v => v

def shownItems (names : List (String × String)) : List Json → List Json
  | [] => []
  | v :: rest => shown names v :: shownItems names rest

def shownMembers (names : List (String × String)) : List (String × Json) → List (String × Json)
  | [] => []
  | (k, v) :: rest => (k, shown names v) :: shownMembers names rest

end

/-- The answers to some steps as they are shown. -/
def answers (s : Scenario) (steps : List Json) : Json :=
  let (s, vs) := s.play steps
  shown ((jobNames s).map (fun x => (x.1.text, x.2))) (.arr vs)

/-! ## Beginning -/

/-- The nanosecond at which scenarios begin. -/
def beginning : Nat :=
  4000000000 * Instant.perSecond

/-- The number of the first id that a scenario gives out. -/
def firstId : Nat :=
  0x0199000000007000800000000000 * 0x10000

def assemble (parts : Pipeline.Parts) : Except PipelineError Pipeline :=
  Pipeline.build parts ScanPolicy.backendOf beginning firstId

/-- The parts of a pipeline of which some are left out by name. -/
def partsWithout (omitted : List String) (policy : Policy) (registry : Registry)
    (bus : Bus) (backend : Option ScannerBody) : Pipeline.Parts :=
  let given {α : Type} (part : String) (a : α) : Option α :=
    if omitted.contains part then none else some a
  ⟨policy, given "registry" registry, given "queue" .empty,
    given "events" bus, given "store" .empty, backend⟩

def setUp (request : Json) : Except Failure Scenario := do
  let setting ← (Setting.decoder (request.arg "registry")).mapError .form
  let registry ← setting.draft.build.mapError .pipeline
  let policy ← (request.orElse "config" Policy.decoder .default).mapError .form
  let backend ← (request.maybe "backend" ScanScript.backendDecoder).mapError .form
  let omitted ← (request.many "omit" .text).mapError .form
  let bus ← (Bus.ofCapacity policy.eventCapacity).mapError .panic
  let p ← (assemble (partsWithout omitted policy registry bus backend)).mapError .pipeline
  let apart := if omitted.contains "store" then some p else none
  pure ⟨p, apart, [], [], setting.rulesByScript⟩

/-! ## A whole run -/

/-- A source put into the store, objects observed on it, a scan of it if one is asked for, and
all jobs run: what came of it. -/
def runThrough (request : Json) : Turn Json := do
  let source ← reading (seed (request.arg "source"))
  let objects ← reading (request.many "objects" seed)
  let t ← timeOf request
  let _ ← changeStore (fun s => s.insert source t)
  let handles ← perform (Pipeline.submitObservation "manual" source.reference objects t)
  let scan ← match ← reading (request.maybe "scan" .text) with
    | none => pure .null
    | some scanner =>
        match ← perform (Action.result (Pipeline.submitScan scanner source.reference)) with
        | .ok _ => pure (.bool true)
        | .error e => pure e.summary
  let summary ← drainAll
  let t ← perform Pipeline.now
  let p := (← get).pipeline
  pure (.obj [("submitted", list (fun h => h.kind.toJson) handles), ("scan", scan),
    ("completed", .nat summary.completed), ("failed", .nat summary.failed),
    ("all", list (fun o => .arr [o.reference.toJson, o.level.toJson]) (p.store.all t)),
    ("organization", .str p.policy.organization), ("cache", p.memory.cache.summary),
    ("attempts", .nat p.archive.attempts.length), ("stored", .bool true)])

end ScanGraph.Scenario
