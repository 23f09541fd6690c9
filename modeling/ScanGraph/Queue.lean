/-
The queue of jobs.

Every kind of job has its own first-in-first-out line.  A job taken from its
line is in flight until it is settled, and only a job in flight can be
settled; settled jobs are counted, and the message of a failure is kept.

Taking a job, completing it and failing it are the only ways in which one leaves its
place, and each of them refuses a job that is not where it should be.  Ids are not
checked: two jobs may be queued with one id, and what is said of ids elsewhere asks that
they are distinct.

Counts are kept for each kind.  That they add up to what was queued is no part of the
definition but is proved in `Proofs.Queue.Conservation`.
-/
import ScanGraph.Job
import ScanGraph.PipelineError

namespace ScanGraph

/-- A job to be queued: when it was asked for, and the chain it belongs to. -/
structure Request where
  job : Job
  requestedAt : Instant
  correlation : Option Uuid
deriving BEq, Repr

/-- What the queue says of a job it took. -/
structure Handle where
  id : Uuid
  kind : JobKind
deriving DecidableEq, Repr

/-- One value for every kind of job. -/
structure PerKind (α : Type) where
  scan : α
  normalize : α
  derive : α
deriving DecidableEq, Repr

namespace PerKind

variable {α : Type}

/-- The same value for every kind. -/
def all (a : α) : PerKind α :=
  ⟨a, a, a⟩

/-- The value of a kind. -/
def get (p : PerKind α) : JobKind → α
  | .scan => p.scan
  | .normalize => p.normalize
  | .derive => p.derive

/-- The value of one kind changed by `f`. -/
def modify (p : PerKind α) (k : JobKind) (f : α → α) : PerKind α :=
  match k with
  | .scan => { p with scan := f p.scan }
  | .normalize => { p with normalize := f p.normalize }
  | .derive => { p with derive := f p.derive }

@[simp] theorem get_all (a : α) (k : JobKind) : (all a).get k = a := by
  cases k <;> rfl

theorem get_modify (p : PerKind α) (k l : JobKind) (f : α → α) :
    (p.modify k f).get l = if l = k then f (p.get l) else p.get l := by
  cases k <;> cases l <;> rfl

end PerKind

/-- The counts of one kind of job. -/
structure QueueCounts where
  ready : Nat
  inFlight : Nat
  completed : Nat
  failed : Nat
deriving DecidableEq, Repr

/-- The jobs that wait, those in flight, and what became of the others. -/
structure Queue where
  ready : PerKind (List Request)
  inFlight : Table Uuid Request
  completed : PerKind Nat
  failed : PerKind Nat
  failures : Table Uuid String
  /-- The ids of all jobs that were ever queued, in order. -/
  log : List Uuid

namespace Queue

/-- The queue that never held a job. -/
def empty : Queue :=
  ⟨.all [], .empty, .all 0, .all 0, .empty, []⟩

instance : Inhabited Queue :=
  ⟨empty⟩

def handleOf (r : Request) : Handle :=
  ⟨r.job.id, r.job.kind⟩

/-- A job at the end of its line. -/
def enqueue (q : Queue) (r : Request) : Queue :=
  { q with ready := q.ready.modify r.job.kind (· ++ [r])
           log := q.log ++ [r.job.id] }

/-- Jobs at the ends of their lines, in order. -/
def enqueueAll (q : Queue) (rs : List Request) : Queue :=
  rs.foldl enqueue q

/-- The first job of a line taken in flight. -/
def dequeue (q : Queue) (k : JobKind) : Queue × Option Request :=
  match q.ready.get k with
  | [] => (q, none)
  | r :: rest =>
      ({ q with ready := q.ready.modify k (fun _ => rest)
                inFlight := q.inFlight.insert r.job.id r }, some r)

/-- What is said of a job that is not in flight. -/
def notInFlight (id : Uuid) : PipelineError :=
  .notFound ("in-flight job " ++ id.text)

/-- A job in flight that ended well. -/
def complete (q : Queue) (id : Uuid) : Except PipelineError Queue :=
  match q.inFlight.get? id with
  | none => .error (notInFlight id)
  | some r => .ok { q with
      inFlight := q.inFlight.erase id
      completed := q.completed.modify r.job.kind (· + 1) }

/-- A job in flight that failed, with the message to keep of it. -/
def fail (q : Queue) (id : Uuid) (message : Option String) : Except PipelineError Queue :=
  match q.inFlight.get? id with
  | none => .error (notInFlight id)
  | some r => .ok { q with
      inFlight := q.inFlight.erase id
      failed := q.failed.modify r.job.kind (· + 1)
      failures := match message with
        | some m => q.failures.insert id m
        | none => q.failures }

/-- The number of jobs that wait in a line. -/
def depth (q : Queue) (k : JobKind) : Nat :=
  (q.ready.get k).length

/-- The counts of a kind of job. -/
def counts (q : Queue) (k : JobKind) : QueueCounts :=
  ⟨q.depth k, (q.inFlight.values.filter (fun r => decide (r.job.kind = k))).length,
   q.completed.get k, q.failed.get k⟩

/-- No job waits or is in flight. -/
def isIdle (q : Queue) : Bool :=
  q.inFlight.entries.isEmpty && JobKind.all.all (fun k => (q.ready.get k).isEmpty)

end Queue

end ScanGraph
