/-
The pipeline: a store, a queue, an archive and a bus, and what works on them.

An action reads and changes the pipeline and may fail; what it changed before
it failed stays.  Failures are errors, which the pipeline reports, and panics,
which end the job at hand.  Services may be out of order: the store may refuse
or corrupt writes, the queue may be closed, and the archive offline.

An `Action` is a function on pipelines that may fail and keeps what it changed.
Services are fields, and time is a number that advances with every reading, so that a
run is determined by where it begins and by what plugins do.

What several workers do at once is not described here, where an action is done in one
go; the calls of which it consists, and what may happen between them, are
`Proofs.Pipeline.Worker` and the modules that use it.  Services that are out of order
are switches (`Outages`), set from outside, as whatever broke them is not part of the
pipeline.

A pipeline is built of parts, some of which have defaults; without a registry there is
none.
-/
import ScanGraph.Archive
import ScanGraph.Event
import ScanGraph.Derivation
import ScanGraph.Queue
import ScanGraph.Scanning

namespace ScanGraph

/-- The services that are out of order, besides a store that is offline. -/
structure Outages where
  /-- The store refuses observations. -/
  storeReadOnly : Bool
  /-- The store panics on observations. -/
  storeCorrupted : Bool
  queueClosed : Bool
  archiveOffline : Bool
deriving DecidableEq, Repr

/-- Every service works. -/
def Outages.none : Outages :=
  ⟨false, false, false, false⟩

/-- Whether workers run: they can be started once, and not after they were stopped. -/
inductive Workers where
  | idle
  | running
  | stopped
deriving DecidableEq, Repr

structure Pipeline where
  registry : Registry
  policy : Policy
  backend : ScannerBody
  store : Store
  memory : Memory
  queue : Queue
  archive : Archive
  bus : Bus
  outages : Outages
  workers : Workers
  /-- The time in nanoseconds since 1970; it advances whenever it is read. -/
  clock : Nat
  /-- The number of the next id. -/
  nextId : Nat

/-- Why an action fails. -/
inductive Fault where
  | error (e : PipelineError)
  | panic (message : String)
deriving DecidableEq, Repr

/-- What reads and changes a pipeline, and may fail. -/
abbrev Action (α : Type) := ExceptT Fault (StateM Pipeline) α

namespace Action

/-- The failure for a reason. -/
def refuse {α : Type} (e : PipelineError) : Action α :=
  throw (.error e)

/-- A result known beforehand. -/
def ofExcept {α : Type} : Except PipelineError α → Action α
  | .ok a => pure a
  | .error e => refuse e

/-- An action whose errors are part of its result; panics go on. -/
def result {α : Type} (act : Action α) : Action (Except PipelineError α) := fun p =>
  match act p with
  | (.ok a, p) => (.ok (.ok a), p)
  | (.error (.error e), p) => (.ok (.error e), p)
  | (.error (.panic m), p) => (.error (.panic m), p)

/-- An action whose errors do not matter. -/
def ignoring (act : Action Unit) : Action Unit := do
  let _ ← result act
  pure ()

end Action

namespace Pipeline

/-! ## Time and ids -/

/-- The instant of a number of nanoseconds since 1970. -/
def instantOf (nanos : Nat) : Instant :=
  ⟨(nanos / Instant.perSecond : Nat), nanos % Instant.perSecond⟩

/-- How far the clock advances when it is read, in nanoseconds. -/
def tick : Nat := 1000

/-- The present time. -/
def now : Action Instant := do
  let p ← get
  set { p with clock := p.clock + tick }
  pure (instantOf p.clock)

/-- An id that was not given out before. -/
def freshId : Action Uuid := do
  let p ← get
  set { p with nextId := p.nextId + 1 }
  pure (.ofNat p.nextId)

/-! ## Services -/

/-- An event about a chain. -/
def publish (correlation : Option Uuid) (payload : EventPayload) : Action Unit := do
  let id ← freshId
  let t ← now
  modify (fun p => { p with bus := p.bus.publish ⟨id, correlation, t, payload⟩ })

/-- The object visible at a time. -/
def lookUp (r : Reference) (t : Instant) : Action (Option Snapshot) := do
  match (← get).store.get r t with
  | .ok found => pure found
  | .error e => Action.refuse (.store e)

/-- What is said of a store that takes no observations. -/
def readOnly : StoreError :=
  .rejected (.other "read-only replica")

/-- The store after an observation, and what was committed. -/
def observed (p : Pipeline) (o : Observation) : Except Fault (Store × List Commit) :=
  if p.outages.storeCorrupted then .error (.panic "write path corrupted")
  else if p.outages.storeReadOnly then .error (.error (.store readOnly))
  else match p.store.observe o with
    | .ok done => .ok done
    | .error e => .error (.error (.store e))

/-- An observation written to the store. -/
def observe (o : Observation) : Action (List Commit) := do
  let p ← get
  match p.observed o with
  | .ok (store, commits) =>
      set { p with store }
      pure commits
  | .error f => throw f

/-- A job at the end of its line. -/
def enqueue (r : Request) : Action Handle := do
  let p ← get
  if p.outages.queueClosed then Action.refuse (.internal "queue closed")
  else
    set { p with queue := p.queue.enqueue r }
    pure (Queue.handleOf r)

/-- Jobs at the ends of their lines, one after the other. -/
def enqueueAll : List Request → Action (List Handle)
  | [] => pure []
  | r :: rest => do
      let h ← enqueue r
      let hs ← enqueueAll rest
      pure (h :: hs)

/-- A change of the archive, unless it is offline. -/
def save (change : Archive → Archive) : Action Unit := do
  let p ← get
  if p.outages.archiveOffline then Action.refuse (.internal "artifacts offline")
  else set { p with archive := change p.archive }

/-- A job with a request for it, made now. -/
def request (job : Job) (correlation : Option Uuid) : Action Request := do
  let t ← now
  pure ⟨job, t, correlation⟩

/-! ## Evaluation -/

/-- What evaluations read. -/
def engine (p : Pipeline) : Engine :=
  ⟨p.store, p.registry, p.policy.derivation⟩

/-- What the clock shows during evaluations that nothing interrupts: each of them takes a tick. -/
def paced (clock i : Nat) : Timing :=
  ⟨clock + i * tick, clock + (i + 1) * tick⟩

/-- The evaluations of what a commit concerns. -/
def deriveFor (changed : Reference) (t : Instant) : Action (List RuleOutcome) := do
  let p ← get
  match p.engine.deriveFor (paced p.clock) p.memory changed t with
  | .ok (memory, outcomes) =>
      set { p with memory, clock := p.clock + outcomes.length * tick }
      pure outcomes
  | .error e => Action.refuse e

/-- The evaluations of the rules that have an object as root. -/
def derive (root : Snapshot) (t : Instant) : Action (List RuleOutcome) := do
  let p ← get
  let (memory, outcomes) := p.engine.derive (paced p.clock) p.memory root t
  set { p with memory, clock := p.clock + outcomes.length * tick }
  pure outcomes

/-- The evaluation of a rule for a root. -/
def evaluate (rule : String) (root : Snapshot) (t : Instant) : Action RuleOutcome := do
  let p ← get
  match p.engine.evaluateId (paced p.clock 0) p.memory rule root t with
  | .ok (memory, outcome) =>
      set { p with memory, clock := p.clock + tick }
      pure outcome
  | .error e => Action.refuse e

/-! ## Assembly -/

/-- The parts of a pipeline that is to be built. -/
structure Parts where
  policy : Policy
  registry : Option Registry
  queue : Option Queue
  bus : Option Bus
  /-- Without a store the pipeline begins with an empty one. -/
  store : Option Store
  /-- Without a backend scans run as the policy says. -/
  backend : Option ScannerBody

/-- What is said of a part that is missing. -/
def missing (part : String) : PipelineError :=
  .internal (part ++ " dependency missing")

/-- The pipeline of some parts, given the backend of a policy, the time and the first id. -/
def build (parts : Parts) (ofPolicy : ScanPolicy → Registry → ScannerBody) (clock firstId : Nat) :
    Except PipelineError Pipeline :=
  match parts.registry, parts.queue, parts.bus with
  | none, _, _ => .error (missing "plugin registry")
  | some _, none, _ => .error (missing "queue")
  | some _, some _, none => .error (missing "event publisher")
  | some registry, some queue, some bus => .ok {
      registry, queue, bus
      policy := parts.policy
      backend := parts.backend.getD (ofPolicy parts.policy.scanning registry)
      store := parts.store.getD .empty
      memory := .empty
      archive := .empty
      outages := .none
      workers := .idle
      clock
      nextId := firstId }

end Pipeline

end ScanGraph
