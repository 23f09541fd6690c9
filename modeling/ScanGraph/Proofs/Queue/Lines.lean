/-
The lines of a queue.

Queueing puts jobs at the ends of their lines and changes nothing else.  So what
was queued between two moments can be read off the lines: `since`.

## What is proved

* `mem_since_iff`, `waiting_perm`: what was queued is at the ends of the lines, and what
  waits then is what waited before with it.
* `dequeue_eq_some_iff` and `dequeue_eq_none_iff`: what is taken is the first of its
  line, it is in flight from then on, the others move up and every other line stays; and
  nothing is taken exactly if the line is empty.
* `nextLine_eq_none_iff`: no line has a job exactly if nothing waits at all.
* `waiting_of_dequeue`, `since_of_dequeue`: taking a job queues nothing, and the others
  wait on.

## What is asked, and what is not

Nothing is asked of the ids, so that two jobs with one id are two jobs as long as they
wait.  In flight they are not: the queue keeps one job for an id there, and taking the
second hides the first.  Statements about what is in flight or settled therefore ask for
distinct ids, and stand in `Queue.Conservation`.  Nothing is said about counts, which
are kept apart from the lines, nor about a queue that is closed, which takes nothing.
-/
import Mathlib.Data.List.Perm.Basic
import ScanGraph.Pipeline.Drain

namespace ScanGraph

theorem PerKind.get_modify_succ (counts : PerKind Nat) (k l : JobKind) :
    (counts.modify k (· + 1)).get l = counts.get l + if k = l then 1 else 0 := by
  rw [PerKind.get_modify]
  by_cases hk : k = l
  · rw [if_pos hk, if_pos hk.symm]
  · rw [if_neg hk, if_neg (fun h => hk h.symm), Nat.add_zero]

namespace Queue

/-- The jobs that wait, line by line. -/
def waiting (q : Queue) : List Request :=
  JobKind.all.flatMap q.ready.get

/-- The jobs at the ends of the lines of `q'` that are not in those of `q`. -/
def since (q q' : Queue) : List Request :=
  JobKind.all.flatMap (fun k => (q'.ready.get k).drop (q.ready.get k).length)

def ofKind (k : JobKind) (rs : List Request) : List Request :=
  rs.filter (fun r => decide (r.job.kind = k))

section Lines

variable {q q' : Queue} {r : Request} {rs : List Request} {k : JobKind}

theorem enqueueAll_append (q : Queue) (rs rs' : List Request) :
    q.enqueueAll (rs ++ rs') = (q.enqueueAll rs).enqueueAll rs' :=
  List.foldl_append

theorem ready_enqueueAll (q : Queue) (rs : List Request) (k : JobKind) :
    (q.enqueueAll rs).ready.get k = q.ready.get k ++ ofKind k rs := by
  induction rs generalizing q with
  | nil => simp [enqueueAll, ofKind]
  | cons r rs ih =>
    have hline : (q.enqueue r).ready.get k
        = if k = r.job.kind then q.ready.get k ++ [r] else q.ready.get k :=
      PerKind.get_modify q.ready r.job.kind k (· ++ [r])
    have hstep : (q.enqueueAll (r :: rs)).ready.get k = (q.enqueue r).ready.get k ++ ofKind k rs :=
      ih (q.enqueue r)
    rw [hstep, hline]
    by_cases hk : k = r.job.kind
    · subst hk
      simp [ofKind]
    · have hne : r.job.kind ≠ k := fun h => hk h.symm
      simp [ofKind, hk, hne]

/-- Besides the lines, queueing changes nothing that becomes of a job. -/
theorem enqueueAll_rest (q : Queue) (rs : List Request) :
    (q.enqueueAll rs).inFlight = q.inFlight ∧ (q.enqueueAll rs).completed = q.completed ∧
      (q.enqueueAll rs).failed = q.failed ∧ (q.enqueueAll rs).failures = q.failures := by
  induction rs generalizing q with
  | nil => exact ⟨rfl, rfl, rfl, rfl⟩
  | cons r rs ih => exact ih (q.enqueue r)

theorem mem_all (k : JobKind) : k ∈ JobKind.all := by
  cases k <;> decide

theorem since_eq (h : q'.ready = (q.enqueueAll rs).ready) :
    q.since q' = JobKind.all.flatMap (fun k => ofKind k rs) := by
  unfold since
  simp only [h, ready_enqueueAll, List.drop_left]

theorem mem_since_iff (h : q'.ready = (q.enqueueAll rs).ready) : r ∈ q.since q' ↔ r ∈ rs := by
  rw [since_eq h, List.mem_flatMap]
  constructor
  · rintro ⟨k, -, hr⟩
    exact (List.mem_filter.1 hr).1
  · intro hr
    exact ⟨r.job.kind, mem_all _, List.mem_filter.2 ⟨hr, decide_eq_true rfl⟩⟩

/-- The jobs that wait are those that waited and those queued since. -/
theorem waiting_perm (h : q'.ready = (q.enqueueAll rs).ready) :
    q'.waiting.Perm (q.waiting ++ q.since q') := by
  rw [since_eq h]
  unfold waiting
  rw [h]
  have hlines : (q.enqueueAll rs).ready.get = fun k => q.ready.get k ++ ofKind k rs :=
    funext (ready_enqueueAll q rs)
  rw [hlines]
  exact (List.flatMap_append_perm _ _ _).symm

/-! ## Taking a job -/

/-- What is taken was the first of its line; it is in flight, and the others move up. -/
theorem dequeue_eq_some_iff :
    q.dequeue k = (q', some r) ↔
      ∃ rest, q.ready.get k = r :: rest ∧
        q' = { q with ready := q.ready.modify k (fun _ => rest)
                      inFlight := q.inFlight.insert r.job.id r } := by
  unfold dequeue
  split
  · rename_i hempty
    simp [hempty]
  · rename_i r' rest hline
    rw [hline]
    constructor
    · rintro ⟨⟩
      exact ⟨rest, rfl, rfl⟩
    · rintro ⟨_, ⟨⟩, rfl⟩
      rfl

theorem inFlight_dequeue (h : q.dequeue k = (q', some r)) :
    q'.inFlight.get? r.job.id = some r := by
  obtain ⟨rest, -, rfl⟩ := dequeue_eq_some_iff.1 h
  exact Table.get?_insert_self _ _ _

theorem dequeue_eq_none_iff : q.dequeue k = (q', none) ↔ q.ready.get k = [] ∧ q' = q := by
  unfold dequeue
  split
  · rename_i hempty
    simp [hempty, eq_comm]
  · rename_i hline
    simp [hline]

theorem ready_of_dequeue (h : q.dequeue k = (q', some r)) (l : JobKind) :
    q.ready.get l = (if l = k then [r] else []) ++ q'.ready.get l := by
  obtain ⟨rest, hline, rfl⟩ := dequeue_eq_some_iff.1 h
  have hget := PerKind.get_modify q.ready k l (fun _ => rest)
  by_cases hl : l = k
  · subst hl
    simp [hget, hline]
  · simp [hget, hl]

theorem since_of_dequeue (h : q.dequeue k = (q', some r)) : q.since q' = [] := by
  unfold since
  rw [List.flatMap_eq_nil_iff]
  intro l _
  rw [ready_of_dequeue h l, List.drop_eq_nil_iff, List.length_append]
  exact Nat.le_add_left _ _

theorem waiting_of_dequeue (h : q.dequeue k = (q', some r)) :
    q.waiting.Perm (r :: q'.waiting) := by
  have hlines : q.ready.get = fun l => (if l = k then [r] else []) ++ q'.ready.get l :=
    funext (ready_of_dequeue h)
  have htaken : JobKind.all.flatMap (fun l => if l = k then [r] else []) = [r] := by
    cases k <;> rfl
  have hperm := List.flatMap_append_perm JobKind.all (fun l => if l = k then [r] else [])
    q'.ready.get
  rw [htaken] at hperm
  unfold waiting
  rw [hlines]
  exact hperm.symm

theorem exists_dequeue (h : q.depth k ≠ 0) : ∃ q' r, q.dequeue k = (q', some r) := by
  cases hline : q.ready.get k with
  | nil => exact absurd (by simp [depth, hline]) h
  | cons r rest => exact ⟨_, r, dequeue_eq_some_iff.2 ⟨rest, hline, rfl⟩⟩

end Lines

end Queue

namespace Pipeline

variable {p p' : Pipeline} {k l : JobKind} {r : Request}

theorem dequeue_eq_some_iff :
    p.dequeue k = (p', some r) ↔
      p' = { p with queue := p'.queue } ∧ p.queue.dequeue k = (p'.queue, some r) := by
  unfold dequeue
  cases hdequeue : p.queue.dequeue k with
  | mk queue taken =>
    constructor
    · rintro ⟨⟩
      exact ⟨rfl, rfl⟩
    · rintro ⟨hp, hqueue⟩
      rw [hp]
      cases hqueue
      rfl

theorem exists_dequeue_of_nextLine (h : nextLine p.queue k = some l) :
    ∃ p' r, p.dequeue l = (p', some r) := by
  have hdepth : p.queue.depth l ≠ 0 := by
    have hfind := List.find?_some h
    simpa using hfind
  obtain ⟨q, r, hq⟩ := Queue.exists_dequeue hdepth
  exact ⟨{ p with queue := q }, r, dequeue_eq_some_iff.2 ⟨rfl, hq⟩⟩

theorem nextLine_eq_none_iff {q : Queue} : nextLine q k = none ↔ q.waiting = [] := by
  have hdepth : ∀ l, (q.depth l != 0) = false ↔ q.ready.get l = [] := by
    intro l
    simp [Queue.depth]
  unfold nextLine Queue.waiting
  rw [List.find?_eq_none, List.flatMap_eq_nil_iff]
  constructor
  · intro h l _
    refine (hdepth l).1 (Bool.eq_false_iff.2 (h l ?_))
    cases k <;> cases l <;> decide
  · intro h l _
    exact Bool.eq_false_iff.1 ((hdepth l).2 (h l (Queue.mem_all l)))

end Pipeline

end ScanGraph
