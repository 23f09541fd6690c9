/-
Working off the queue.

A job is taken from its line, dispatched, settled and announced.  `drain` does
so line by line until no job waits, going on to the next line when one is
empty; the jobs that a dispatch queues are worked off as well.

`drain` is given a budget, as it need not end: every dispatch may queue another job.
With a budget that is large enough it comes to the end of the queue, and all such
budgets agree; where the budget is used up, the summary counts what was done.

A job in flight that nobody settles stays there.  Submissions are here too: a scan of an
object that is stored, if the scanner may scan it, and objects declared by hand, whose
commits begin chains.
-/
import ScanGraph.Pipeline.Dispatch

namespace ScanGraph

/-- How many jobs ended well and how many failed. -/
structure DrainSummary where
  completed : Nat
  failed : Nat
deriving DecidableEq, Repr

namespace DrainSummary

/-- The summary before any job. -/
def zero : DrainSummary :=
  ⟨0, 0⟩

/-- The number of jobs. -/
def total (s : DrainSummary) : Nat :=
  s.completed + s.failed

/-- The summary with one more result. -/
def count (s : DrainSummary) : JobResult → DrainSummary
  | .succeeded => { s with completed := s.completed + 1 }
  | .failed _ => { s with failed := s.failed + 1 }

end DrainSummary

namespace Pipeline

open ScanGraph.Action

/-- The first job of a line, if there is one, taken in flight. -/
def dequeue (p : Pipeline) (k : JobKind) : Pipeline × Option Request :=
  let (queue, r) := p.queue.dequeue k
  ({ p with queue }, r)

/-- The result of a dispatch that may have panicked. -/
def resultOf : Except Fault JobResult → JobResult
  | .ok status => status
  | .error (.error e) => .failed e.message
  | .error (.panic m) => .failed ("dispatch panicked: " ++ m)

/-- The queue after a job in flight came to a result. -/
def settled (q : Queue) (id : Uuid) : JobResult → Except PipelineError Queue
  | .succeeded => q.complete id
  | .failed e => q.fail id (some e)

def announcement (r : Request) : JobResult → EventPayload
  | .succeeded => .jobCompleted r.job.id r.job.kind
  | .failed e => .jobFailed r.job.id r.job.kind e

/-- A job settled, if it is in flight. -/
def settle (p : Pipeline) (id : Uuid) (status : JobResult) : Pipeline :=
  match settled p.queue id status with
  | .ok queue => { p with queue }
  | .error _ => p

/-- A job in flight dispatched, settled and announced. -/
def runJob (p : Pipeline) (r : Request) : Pipeline × JobResult :=
  let (outcome, p) := dispatch r p
  let status := resultOf outcome
  let p := p.settle r.job.id status
  ((publish r.correlation (announcement r status) p).2, status)

/-! ## Draining -/

/-- The line that is worked off after another one. -/
def following : JobKind → JobKind
  | .scan => .normalize
  | .normalize => .derive
  | .derive => .scan

/-- The line to work off: the given one, or else the next one in which a job waits. -/
def nextLine (q : Queue) (k : JobKind) : Option JobKind :=
  [k, following k, following (following k)].find? (fun k => q.depth k != 0)

/-- Jobs run from line `k` on until none waits, at most as many as the budget. -/
def drainFrom : Nat → JobKind → DrainSummary → Pipeline → Pipeline × DrainSummary
  | 0, _, summary, p => (p, summary)
  | budget + 1, k, summary, p =>
      match nextLine p.queue k with
      | none => (p, summary)
      | some k =>
          match p.dequeue k with
          | (p, none) => (p, summary)
          | (p, some r) =>
              let (p, status) := p.runJob r
              drainFrom budget k (summary.count status) p

/-- Jobs run until none waits, at most as many as the budget. -/
def drain (budget : Nat) (p : Pipeline) : Pipeline × DrainSummary :=
  drainFrom budget .scan .zero p

/-! ## Submissions -/

def submitScan (scanner : String) (input : Reference) : Action Handle := do
  let correlation ← freshId
  match (← get).registry.scanners.get? scanner with
  | none => refuse (.notFound ("boefje " ++ scanner))
  | some s =>
      let d := s.definition
      match ← lookUp input (← now) with
      | none => refuse (.notFound ("object " ++ input.text))
      | some object =>
          if !d.consumes.covers object.type then
            refuse (.schemaViolation
              ("boefje " ++ scanner ++ " does not consume " ++ object.type.name))
          else if object.level < d.level then
            refuse (.insufficientClearance d.level object.level)
          else
            let r ← scanRequest d object (some correlation)
            enqueueAnnounced [r]
            pure (Queue.handleOf r)

/-- Objects declared by hand committed, and the jobs they lead to queued. -/
def submitObservation (method : String) (source : Reference) (objects : List Snapshot)
    (t : Instant) : Action (List Handle) := do
  let commits ← observe ⟨method, source, none, t, objects⟩
  let correlation ← freshId
  enqueueAll (← followUps none (some correlation) commits)

/-- Workers started, unless they were stopped before. -/
def start : Action Unit := do
  let p ← get
  match p.workers with
  | .idle => set { p with workers := .running }
  | .running => pure ()
  | .stopped => refuse (.internal "runtime has been shut down")

/-- Workers stopped for good. -/
def shutdown : Action Unit :=
  modify (fun p => { p with workers := .stopped })

end Pipeline

end ScanGraph
