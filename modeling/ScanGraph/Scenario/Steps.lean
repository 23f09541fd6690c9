/-
The steps of scenarios: on the store, on the rules and on the jobs.

Every step has a name and a turn that reads its arguments from the step and
answers in JSON.

Steps that drain or wait have a bound on how much is done, so that every scenario ends.
Failures of a step are part of its answer, by kind and wording.
-/
import ScanGraph.Scenario.Turn

namespace ScanGraph.Scenario

open Json

abbrev Steps := List (String × (Json → Turn Json))

/-! ## The store -/

def insertStep (step : Json) : Turn Json := do
  let o ← reading (seed step)
  let t ← timeOf step
  pure (orNull Commit.toJson (← changeStore (fun s => s.insert o t)))

def getStep (step : Json) : Turn Json := do
  let r ← argument step "ref" Reference.decoder
  let t ← timeOf step
  pure (orNull Snapshot.toJson (← readStore (fun s => s.get r t)))

/-- The objects of a type at the end of a path. -/
def walkStep (step : Json) : Turn Json := do
  let r ← argument step "ref" Reference.decoder
  let path ← argument step "path" Path.decoder
  let type ← reading (step.orElse "filter" ObjectType.decoder .object)
  let t ← timeOf step
  pure (Snapshot.listing (step.isSet "full") (← readStore (fun s => s.follow r path type t)))

def allStep (step : Json) : Turn Json := do
  let t ← timeOf step
  pure (Snapshot.listing (step.isSet "full") (← readStore (fun s => .ok (s.all t))))

def listStep (step : Json) : Turn Json := do
  let type ← argument step "type" ObjectType.decoder
  let t ← timeOf step
  pure (Snapshot.listing (step.isSet "full") (← readStore (fun s => .ok (s.ofType type t))))

def observeStep (step : Json) : Turn Json := do
  let method ← argument step "method" .text
  let source ← argument step "source" Reference.decoder
  let objects ← reading (step.many "objects" seed)
  let t ← timeOf step
  pure (list Commit.toJson
    (← performOnStore (Pipeline.observe ⟨method, source, none, t, objects⟩)))

def declareStep (step : Json) : Turn Json := do
  let r ← argument step "ref" Reference.decoder
  let level ← argument step "level" Level.decoder
  let t ← timeOf step
  changeStore (fun s => (s.declare r level t).map (fun s => (s, ())))
  pure .null

def recalculateStep (step : Json) : Turn Json := do
  let t ← timeOf step
  pure (list Reference.toJson (← changeStore (fun s => s.recalculateProfiles t)))

def observationsStep (step : Json) : Turn Json := do
  pure (list (Observation.summary (step.isSet "full")) (← readStore (fun s => .ok s.observations)))

def storeSteps : Steps :=
  [("insert", insertStep), ("get", getStep), ("walk", walkStep), ("all", allStep),
   ("list", listStep), ("observe", observeStep), ("declare", declareStep),
   ("recalc", recalculateStep), ("observations", observationsStep)]

/-! ## Rules -/

def deriveStep (step : Json) : Turn Json := do
  let t ← timeOf step
  let root ← rootOf step t
  pure (list RuleOutcome.summary (← perform (Pipeline.derive root t)))

/-- Everything that a commit of some kind concerns evaluated; it is the same for every kind. -/
def deriveEventStep (step : Json) : Turn Json := do
  let r ← argument step "ref" Reference.decoder
  let t ← timeOf step
  let _ ← reading (step.maybe "kind" CommitKind.decoder)
  pure (list RuleOutcome.summary (← perform (Pipeline.deriveFor r t)))

def evaluateStep (step : Json) : Turn Json := do
  let rule ← argument step "rule" .text
  let t ← timeOf step
  let root ← rootOf step t
  pure (RuleOutcome.summary (← perform (Pipeline.evaluate rule root t)))

def changeCache (change : Cache → Cache) : Turn Json := do
  perform (modify (fun p => { p with memory := { p.memory with cache := change p.memory.cache } }))
  pure .null

def cacheStep (_ : Json) : Turn Json := do
  pure (← get).pipeline.memory.cache.summary

/-- The cache without the outputs of a rule. -/
def invalidateStep (step : Json) : Turn Json := do
  let rule ← argument step "rule" .text
  changeCache (fun c => c.invalidate rule)

/-- How often the scripts of each name ran. -/
def scriptRuns (s : Scenario) : Table String Nat :=
  s.scripted.foldl (fun t (rule, name) =>
    match s.pipeline.memory.runs.get? rule with
    | some n => t.alter name (fun m => m.getD 0 + n)
    | none => t) .empty

def callsStep (_ : Json) : Turn Json := do
  pure (.obj ((scriptRuns (← get)).entries.map (fun (k, n) => (k, .nat n))))

def queryStep (step : Json) : Turn Json := do
  match (← get).pipeline.registry.answer step with
  | .ok v => pure v
  | .error .unknown => throw (.badStep "query")
  | .error (.form e) => throw (.form e)
  | .error (.refused e) => throw (.pipeline e)

def ruleSteps : Steps :=
  [("derive", deriveStep), ("derive_event", deriveEventStep), ("evaluate", evaluateStep),
   ("cache", cacheStep), ("cache_clear", fun _ => changeCache Cache.clear),
   ("cache_invalidate", invalidateStep), ("calls", callsStep), ("query", queryStep)]

/-! ## Outages -/

/-- A switch as a step sets it, or as it was. -/
def switch (step : Json) (key : String) (before : Bool) : Bool :=
  match step.arg key with
  | .bool b => b
  | _ => before

def switchStore (step : Json) (p : Pipeline) : Pipeline :=
  { p with
    store := { p.store with offline := switch step "unavailable" p.store.offline }
    outages := { p.outages with
      storeReadOnly := switch step "reject" p.outages.storeReadOnly
      storeCorrupted := switch step "panic" p.outages.storeCorrupted } }

/-- The pipeline with its queue and archive switched by a step. -/
def switchWork (step : Json) (p : Pipeline) : Pipeline :=
  { p with
    outages := { p.outages with
      queueClosed := switch step "queue_closed" p.outages.queueClosed
      archiveOffline := switch step "artifacts_offline" p.outages.archiveOffline } }

/-- Services put out of order, or back in order. -/
def guardStep (step : Json) : Turn Json := do
  modify (fun s => match s.apart with
    | some p =>
        { s with apart := some (switchStore step p), pipeline := switchWork step s.pipeline }
    | none => { s with pipeline := switchWork step (switchStore step s.pipeline) })
  pure .null

/-! ## Jobs -/

def enough : Nat := 1000000000

def drainAll : Turn DrainSummary := do
  let s ← get
  let (pipeline, summary) := s.pipeline.drain enough
  set { s with pipeline }
  pure summary

def submitScanStep (step : Json) : Turn Json := do
  let scanner ← argument step "boefje" .text
  let r ← argument step "ref" Reference.decoder
  pure (Handle.summary (← perform (Pipeline.submitScan scanner r)))

def submitObservationStep (step : Json) : Turn Json := do
  let method ← argument step "method" .text
  let source ← reading (seed (step.arg "source"))
  let objects ← reading (step.many "objects" seed)
  let t ← timeOf step
  pure (list Handle.summary
    (← perform (Pipeline.submitObservation method source.reference objects t)))

/-- A job made by the step put into the queue. -/
def enqueueStep (step : Json) : Turn Json := do
  let job ← argument step "payload" Job.decoder
  let handle ← perform (do Pipeline.enqueue (← Pipeline.request job none))
  modify (fun s => { s with crafted := job.id :: s.crafted })
  pure handle.summary

/-- A job made by the step dispatched without a queue. -/
def dispatchStep (step : Json) : Turn Json := do
  let job ← argument step "payload" Job.decoder
  pure (JobResult.summary (← perform (do Pipeline.dispatch (← Pipeline.request job none))))

/-- The next job of a kind dispatched and left in flight. -/
def workStep (step : Json) : Turn Json := do
  let kind ← argument step "kind" JobKind.decoder
  let s ← get
  let (pipeline, taken) := s.pipeline.dequeue kind
  set { s with pipeline }
  match taken with
  | none => pure .null
  | some r => do
      let status ← perform (Pipeline.dispatch r)
      pure (.obj [("job", r.job.id.toJson), ("status", status.summary)])

def settleStep (change : Queue → Except PipelineError Queue) : Turn Json := do
  perform (do
    let p ← get
    set { p with queue := ← Action.ofExcept (change p.queue) })
  pure .null

def completeStep (step : Json) : Turn Json := do
  let id ← jobOf step
  settleStep (fun q => q.complete id)

def failStep (step : Json) : Turn Json := do
  let id ← jobOf step
  let message ← reading (step.maybe "message" .text)
  settleStep (fun q => q.fail id message)

def queueStep (_ : Json) : Turn Json := do
  let q := (← get).pipeline.queue
  pure (.obj [("snapshot", q.summary), ("idle", .bool q.isIdle),
    ("in_flight", .nat q.inFlight.size)])

/-- The messages of the jobs that failed. -/
def failuresStep (_ : Json) : Turn Json := do
  let s ← get
  pure (.arr ((ownJobs s).filterMap (fun id =>
    (s.pipeline.queue.failures.get? id).map (fun m => .arr [id.toJson, .str m]))))

/-- The attempts to evaluate a rule, or all. -/
def attemptsStep (step : Json) : Turn Json := do
  let rule ← reading (step.maybe "rule" .text)
  pure (list Attempt.summary ((← get).pipeline.archive.attemptsOf rule))

def jobsStep (_ : Json) : Turn Json := do
  let a := (← get).pipeline.archive
  pure (.obj (JobKind.all.map (fun k => (k.name, list Job.summary (a.jobs k)))))

def evidenceStep (step : Json) : Turn Json := do
  let id ← jobOf step
  pure (orNull Evidence.summary ((← get).pipeline.archive.evidence.get? id))

def eventSummary (e : Event) : Turn Json := do
  pure (.obj [("version", .nat Event.version), ("correlation", ← chainName e.correlation),
    ("payload", e.payload.toJson)])

/-- What the reader of the bus has collected, an event or the number of events that were lost. -/
def deliverySummary : Delivery → Turn Json
  | .event e => eventSummary e
  | .lost n => pure (.obj [("lagged", .nat n)])

/-- What the reader of the bus has collected. -/
def eventsStep (_ : Json) : Turn Json := do
  let s ← get
  let (bus, deliveries) := s.pipeline.bus.deliver
  set { s with pipeline := { s.pipeline with bus } }
  pure (.arr (← deliveries.mapM deliverySummary))

def startStep (_ : Json) : Turn Json := do
  perform Pipeline.start
  pure .null

def shutdownStep (_ : Json) : Turn Json := do
  perform Pipeline.shutdown
  pure .null

def waitStep (_ : Json) : Turn Json := do
  if (← get).pipeline.workers == .running then
    let _ ← drainAll
  pure (.obj [("idle", .bool (← get).pipeline.queue.isIdle)])

def jobSteps : Steps :=
  [("guard", guardStep), ("submit_boefje", submitScanStep),
   ("submit_observation", submitObservationStep), ("enqueue", enqueueStep),
   ("dispatch", dispatchStep), ("work", workStep), ("complete", completeStep), ("fail", failStep),
   ("queue", queueStep), ("failures", failuresStep), ("attempts", attemptsStep),
   ("jobs", jobsStep), ("raw", evidenceStep), ("events", eventsStep), ("start", startStep),
   ("shutdown", shutdownStep), ("wait", waitStep),
   ("drain", fun _ => do pure (← drainAll).summary)]

end ScanGraph.Scenario
