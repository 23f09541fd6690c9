/-
Draining comes to an end.

A drain works in rounds: a job is taken, dispatched, settled and announced.  What
a round queues is of lower rank than the job of the round: normalize jobs come
after scans, derive jobs after those, and derive jobs of greater depth after
these, as long as no scans are scheduled automatically.  So the ranks of the jobs
that wait go down in the order of multisets, and after finitely many rounds none
waits: `drain_drained`.

## What is asked

No scans are scheduled automatically, the depth at which chains end can be counted on by
one, and the derive jobs that wait are no deeper than that (`Drainable`); and no id
belongs to two of the jobs that are drained.  Services may be out of order, and plugins
may do whatever they like, panics included.

## What is proved

There are rounds that lead to a pipeline in which no job waits, every drain with a
budget of that many rounds or more comes to it, and its summary is the tally of the
rounds.  Each job that waited or was queued on the way was run once, and what was in
flight before still is.

## What is not

A bound on the number of rounds is not given: it depends on what the plugins return.
With automatic scans a scan may lead to another one, and a drain need not end at all;
such a drain is cut off by its budget, after which the pipeline is wherever it is.
-/
import Mathlib.Logic.Hydra
import ScanGraph.Proofs.Pipeline.Clearance
import ScanGraph.Proofs.Pipeline.Discipline
import ScanGraph.Proofs.Table.Canonical

namespace ScanGraph

/-- The derive jobs are no deeper than a depth. -/
def Request.Within (maxDepth : UInt32) (r : Request) : Prop :=
  ∀ j, r.job = .derive j → j.depth ≤ maxDepth

/-- How many dispatches may follow a job one after the other, at most. -/
def Request.rank (maxDepth : UInt32) (r : Request) : Nat :=
  match r.job with
  | .scan _ => maxDepth.toNat + 2
  | .normalize _ => maxDepth.toNat + 1
  | .derive j => maxDepth.toNat - j.depth.toNat

/-- One round of a drain: the job that was run, how it ended, and the jobs queued meanwhile. -/
structure Round where
  request : Request
  status : JobResult
  queued : List Request

namespace Round

def completes (k : JobKind) (x : Round) : Bool :=
  decide (x.status = .succeeded) && decide (x.request.job.kind = k)

def fails (k : JobKind) (x : Round) : Bool :=
  !decide (x.status = .succeeded) && decide (x.request.job.kind = k)

/-- How many jobs ended well and how many failed, counted on from a summary. -/
def tally (rounds : List Round) (summary : DrainSummary) : DrainSummary :=
  rounds.foldl (fun s x => s.count x.status) summary

theorem total_tally (rounds : List Round) (summary : DrainSummary) :
    (tally rounds summary).total = summary.total + rounds.length := by
  induction rounds generalizing summary with
  | nil => rfl
  | cons x rounds ih =>
    have hcount : (summary.count x.status).total = summary.total + 1 := by
      cases x.status <;> simp [DrainSummary.count, DrainSummary.total] <;> omega
    show (tally rounds (summary.count x.status)).total = _
    rw [ih, hcount, List.length_cons]
    omega

end Round

namespace Pipeline

/-- The rounds from line `k` on until no job waits, and what they lead to. -/
inductive Drains : JobKind → Pipeline → List Round → Pipeline → Prop
  | idle {k : JobKind} {p : Pipeline} : nextLine p.queue k = none → Drains k p [] p
  | round {k l : JobKind} {p p' q : Pipeline} {r : Request} {rounds : List Round} :
      nextLine p.queue k = some l → p.dequeue l = (p', some r) →
      Drains l (p'.runJob r).1 rounds q →
      Drains k p (⟨r, (p'.runJob r).2, p'.queue.since (p'.runJob r).1.queue⟩ :: rounds) q

/-! ## One round -/

/-- What a round does: one job no longer waits and was settled, and those that were queued do. -/
structure Turn (p : Pipeline) (x : Round) (q : Pipeline) : Prop where
  policy : q.policy = p.policy
  taken : x.request ∈ p.queue.waiting
  expected : ∀ r ∈ x.queued, Expected (some x.request) q r
  waiting : (p.queue.waiting ++ x.queued).Perm (x.request :: q.queue.waiting)
  inFlight : p.queue.inFlight.get? x.request.job.id = none → q.queue.inFlight = p.queue.inFlight
  completed : ∀ k,
    q.queue.completed.get k = p.queue.completed.get k + if x.completes k then 1 else 0
  failed : ∀ k, q.queue.failed.get k = p.queue.failed.get k + if x.fails k then 1 else 0

section Turn

variable {p p' q : Pipeline} {r : Request} {k : JobKind}

theorem queues_dispatch (r : Request) (p : Pipeline) :
    Queues Later (Due Later (some r)) p (dispatch r p).2 := by
  rw [← Worker.run_dispatch]
  exact (Worker.obeys_dispatch r p).run Queues.within (Queues.refl _)
    (fun _ _ _ => Queues.trans (Worker.due_later _)) (fun _ _ _ => .of_core rfl)

/-- The queue after a job in flight was settled. -/
def settledQueue (q : Queue) (r : Request) : JobResult → Queue
  | .succeeded => { q with
      inFlight := q.inFlight.erase r.job.id
      completed := q.completed.modify r.job.kind (· + 1) }
  | .failed e => { q with
      inFlight := q.inFlight.erase r.job.id
      failed := q.failed.modify r.job.kind (· + 1)
      failures := q.failures.insert r.job.id e }

theorem settled_of_inFlight {q : Queue} (h : q.inFlight.get? r.job.id = some r)
    (status : JobResult) : settled q r.job.id status = .ok (settledQueue q r status) := by
  cases status <;> simp [settled, Queue.complete, Queue.fail, settledQueue, h]

theorem settle_of_inFlight (h : p.queue.inFlight.get? r.job.id = some r) (status : JobResult) :
    p.settle r.job.id status = { p with queue := settledQueue p.queue r status } := by
  unfold settle
  rw [settled_of_inFlight h]

/-- A job in flight that is run is settled after it has queued what it leads to. -/
theorem runJob_of_inFlight (h : p.queue.inFlight.get? r.job.id = some r) :
    ∃ rs, (p.runJob r).1.policy = p.policy ∧
      (p.runJob r).1.queue = settledQueue (p.queue.enqueueAll rs) r (p.runJob r).2 ∧
      ∀ r' ∈ rs, Expected (some r) (p.runJob r).1 r' := by
  obtain ⟨hlater, rs, hqueue, hrs⟩ := queues_dispatch r p
  have hflight : (dispatch r p).2.queue.inFlight.get? r.job.id = some r := by
    rw [hqueue, (Queue.enqueueAll_rest p.queue rs).1, h]
  have hcore : (p.runJob r).1.core
      = ((dispatch r p).2.settle r.job.id (p.runJob r).2).core :=
    steady_core.publish _ _ _
  have hlater' : (dispatch r p).2.Later (p.runJob r).1 :=
    Later.trans (rely_settle _ _ _) (Later.of_core hcore)
  refine ⟨rs, hlater'.policy.trans hlater.policy, ?_, fun r' hr' => (hrs r' hr').1.later hlater'⟩
  have hpublished : (p.runJob r).1.queue
      = ((dispatch r p).2.settle r.job.id (p.runJob r).2).queue :=
    congrArg (fun c => c.2.2.2.1) hcore
  rw [hpublished, settle_of_inFlight hflight, hqueue]

theorem ready_settledQueue (q : Queue) (r : Request) (status : JobResult) :
    (settledQueue q r status).ready = q.ready := by
  cases status <;> rfl

theorem completed_settledQueue (q : Queue) (x : Round) (k : JobKind) :
    (settledQueue q x.request x.status).completed.get k
      = q.completed.get k + if x.completes k then 1 else 0 := by
  obtain ⟨r, status, queued⟩ := x
  cases status with
  | succeeded => simp [settledQueue, Round.completes, PerKind.get_modify_succ]
  | failed e => simp [settledQueue, Round.completes]

theorem failed_settledQueue (q : Queue) (x : Round) (k : JobKind) :
    (settledQueue q x.request x.status).failed.get k
      = q.failed.get k + if x.fails k then 1 else 0 := by
  obtain ⟨r, status, queued⟩ := x
  cases status with
  | succeeded => simp [settledQueue, Round.fails]
  | failed e => simp [settledQueue, Round.fails, PerKind.get_modify_succ]

theorem turn_of_dequeue (h : p.dequeue k = (p', some r)) :
    Turn p ⟨r, (p'.runJob r).2, p'.queue.since (p'.runJob r).1.queue⟩ (p'.runJob r).1 := by
  obtain ⟨hpipeline, hdequeue⟩ := dequeue_eq_some_iff.1 h
  obtain ⟨rest, -, htaken⟩ := Queue.dequeue_eq_some_iff.1 hdequeue
  have hflight := Queue.inFlight_dequeue hdequeue
  obtain ⟨rs, hpolicy, hqueue, hrs⟩ := runJob_of_inFlight hflight
  have hready : (p'.runJob r).1.queue.ready = (p'.queue.enqueueAll rs).ready := by
    rw [hqueue, ready_settledQueue]
  obtain ⟨hrestFlight, hcompleted, hfailed, -⟩ := Queue.enqueueAll_rest p'.queue rs
  have hp' : p'.policy = p.policy := by
    rw [hpipeline]
  generalize hx : (p'.runJob r).2 = status at hqueue
  have hwaiting := Queue.waiting_of_dequeue hdequeue
  have hexpected : ∀ r' ∈ p'.queue.since (p'.runJob r).1.queue,
      Expected (some r) (p'.runJob r).1 r' :=
    fun r' hr' => hrs r' ((Queue.mem_since_iff hready).1 hr')
  refine ⟨hpolicy.trans hp', hwaiting.mem_iff.2 List.mem_cons_self, hexpected, ?_,
    fun hnone => ?_, fun k => ?_, fun k => ?_⟩
  · have hsince := Queue.waiting_perm hready
    exact (hwaiting.append_right _).trans (hsince.symm.cons r)
  · have herase : (p'.runJob r).1.queue.inFlight = p'.queue.inFlight.erase r.job.id := by
      rw [hqueue, ← hrestFlight]
      cases status <;> rfl
    rw [herase, htaken, Table.erase_insert, Table.erase_of_none hnone]
  · rw [hqueue, completed_settledQueue _ ⟨r, status, _⟩, hcompleted, htaken]
  · rw [hqueue, failed_settledQueue _ ⟨r, status, _⟩, hfailed, htaken]

end Turn

/-! ## Ranks go down -/

section Rank

variable {p q : Pipeline} {r c : Request} {x : Round}

/-- What a job leads to is of lower rank, and no deeper than the policy allows. -/
theorem rank_lt_of_expected (hauto : p.policy.autoSchedule = false)
    (hmax : p.policy.derivation.maxDepth.toNat + 1 < UInt32.size)
    (hc : c.Within p.policy.derivation.maxDepth) (h : Expected (some c) p r) :
    r.rank p.policy.derivation.maxDepth < c.rank p.policy.derivation.maxDepth ∧
      r.Within p.policy.derivation.maxDepth := by
  obtain ⟨-, hleads⟩ := h
  unfold Request.rank Request.Within
  generalize hjob : c.job = job at hleads
  generalize r.job = job' at hleads
  cases hleads with
  | normalize => exact ⟨Nat.lt_succ_self _, fun j hj => nomatch hj⟩
  | @derive n j hdepth _ =>
    refine ⟨?_, ?_⟩
    · exact Nat.lt_succ_of_le (Nat.sub_le _ _)
    · rintro _ ⟨⟩
      rw [hdepth]
      exact UInt32.zero_le
  | scan hscan => exact absurd (hscan.symm.trans hauto) (by decide)
  | scanDerived hscan => exact absurd (hscan.symm.trans hauto) (by decide)
  | @followUp j j' rule root objects _ hle hdepth _ _ =>
    have hnext : (j.depth + 1).toNat = j.depth.toNat + 1 := toNat_succ_of_le (hc j hjob) hmax
    have hle' : j.depth.toNat + 1 ≤ p.policy.derivation.maxDepth.toNat :=
      hnext ▸ UInt32.le_iff_toNat_le.1 hle
    refine ⟨?_, ?_⟩
    · show p.policy.derivation.maxDepth.toNat - j'.depth.toNat
        < p.policy.derivation.maxDepth.toNat - j.depth.toNat
      rw [hdepth, hnext]
      omega
    · rintro _ ⟨⟩
      exact hdepth ▸ hle

def ranks (p : Pipeline) : Multiset Nat :=
  p.queue.waiting.map (Request.rank p.policy.derivation.maxDepth)

/-- A pipeline of which every drain comes to an end. -/
structure Drainable (p : Pipeline) : Prop where
  manual : p.policy.autoSchedule = false
  maxDepth : p.policy.derivation.maxDepth.toNat + 1 < UInt32.size
  waiting : ∀ r ∈ p.queue.waiting, r.Within p.policy.derivation.maxDepth

/-- A round keeps every drain coming to an end, and replaces a rank by lower ones. -/
theorem Turn.drainable (h : Turn p x q) (hp : p.Drainable) :
    q.Drainable ∧ Relation.CutExpand (· < ·) q.ranks p.ranks := by
  obtain ⟨hmanual, hmax, hwithin⟩ := hp
  have hlower : ∀ r ∈ x.queued,
      r.rank p.policy.derivation.maxDepth < x.request.rank p.policy.derivation.maxDepth ∧
        r.Within p.policy.derivation.maxDepth := by
    intro r hr
    have hexpected := h.expected r hr
    rw [← h.policy] at hmanual hmax hwithin ⊢
    exact rank_lt_of_expected hmanual hmax (hwithin _ h.taken) hexpected
  refine ⟨⟨h.policy ▸ hmanual, h.policy ▸ hmax, fun r hr => ?_⟩, ?_⟩
  · rw [h.policy]
    rcases List.mem_append.1 (h.waiting.mem_iff.2 (List.mem_cons_of_mem _ hr)) with hold | hnew
    · exact hwithin r hold
    · exact (hlower r hnew).2
  · refine ⟨x.queued.map (Request.rank p.policy.derivation.maxDepth),
      x.request.rank p.policy.derivation.maxDepth, fun n hn => ?_, ?_⟩
    · obtain ⟨r, hr, rfl⟩ := List.mem_map.1 (Multiset.mem_coe.1 hn)
      exact (hlower r hr).1
    · have hperm := h.waiting.map (Request.rank p.policy.derivation.maxDepth)
      rw [List.map_append, List.map_cons, ← Multiset.coe_eq_coe, ← Multiset.coe_add,
        ← Multiset.cons_coe, ← Multiset.singleton_add] at hperm
      unfold ranks
      rw [h.policy, hperm]
      exact add_comm _ _

theorem exists_drains (hp : p.Drainable) (k : JobKind) : ∃ rounds q, Drains k p rounds q := by
  have hwf : WellFounded (Relation.CutExpand (α := Nat) (· < ·)) :=
    WellFounded.cutExpand (wellFounded_lt)
  generalize hranks : p.ranks = m
  induction m using hwf.induction generalizing p k with
  | h m ih =>
    cases hline : nextLine p.queue k with
    | none => exact ⟨[], p, .idle hline⟩
    | some l =>
      obtain ⟨p', r, hdequeue⟩ := exists_dequeue_of_nextLine hline
      obtain ⟨hnext, hlower⟩ := (turn_of_dequeue hdequeue).drainable hp
      obtain ⟨rounds, q, hrest⟩ := ih _ (hranks ▸ hlower) hnext l rfl
      exact ⟨_, q, .round hline hdequeue hrest⟩

end Rank

/-! ## Whole drains -/

section Whole

variable {p q : Pipeline} {k : JobKind} {rounds : List Round}

theorem Drains.drainFrom_eq (h : Drains k p rounds q) {budget : Nat}
    (hbudget : rounds.length ≤ budget) (summary : DrainSummary) :
    drainFrom budget k summary p = (q, Round.tally rounds summary) := by
  induction h generalizing budget summary with
  | @idle k p hline =>
    cases budget with
    | zero => rfl
    | succ budget =>
      unfold drainFrom
      rw [hline]
      rfl
  | @round k l p p' q r rounds hline hdequeue _ ih =>
    cases budget with
    | zero => exact absurd hbudget (Nat.not_succ_le_zero _)
    | succ budget =>
      unfold drainFrom
      simp only [hline, hdequeue]
      exact ih (Nat.le_of_succ_le_succ hbudget) _

/-- Every job that waits or is queued on the way is run in one round. -/
theorem Drains.perm (h : Drains k p rounds q) :
    q.queue.waiting = [] ∧
      (rounds.map Round.request).Perm (p.queue.waiting ++ rounds.flatMap Round.queued) := by
  induction h with
  | idle hline =>
    have hnone := nextLine_eq_none_iff.1 hline
    rw [hnone]
    exact ⟨rfl, .nil⟩
  | @round k l p p' q r rounds hline hdequeue _ ih =>
    obtain ⟨hempty, hperm⟩ := ih
    have hwaiting := (turn_of_dequeue hdequeue).waiting
    refine ⟨hempty, ?_⟩
    calc (r :: rounds.map Round.request).Perm
          (r :: ((p'.runJob r).1.queue.waiting ++ rounds.flatMap Round.queued)) := hperm.cons r
      _ = (r :: (p'.runJob r).1.queue.waiting) ++ rounds.flatMap Round.queued := rfl
      List.Perm _ ((p.queue.waiting ++ p'.queue.since (p'.runJob r).1.queue)
          ++ rounds.flatMap Round.queued) := (hwaiting.symm.append_right _)
      _ = p.queue.waiting ++ (p'.queue.since (p'.runJob r).1.queue
          ++ rounds.flatMap Round.queued) := List.append_assoc _ _ _

theorem Drains.counts (h : Drains k p rounds q) (l : JobKind) :
    q.queue.completed.get l = p.queue.completed.get l + rounds.countP (Round.completes l) ∧
      q.queue.failed.get l = p.queue.failed.get l + rounds.countP (Round.fails l) := by
  induction h with
  | idle _ => exact ⟨rfl, rfl⟩
  | round _ hdequeue _ ih =>
    have hturn := turn_of_dequeue hdequeue
    rw [ih.1, ih.2, hturn.completed l, hturn.failed l, List.countP_cons, List.countP_cons]
    omega

theorem Drains.inFlight (h : Drains k p rounds q)
    (hothers : ∀ x ∈ rounds, p.queue.inFlight.get? x.request.job.id = none) :
    q.queue.inFlight = p.queue.inFlight := by
  induction h with
  | idle _ => rfl
  | round _ hdequeue _ ih =>
    have hturn := (turn_of_dequeue hdequeue).inFlight (hothers _ List.mem_cons_self)
    rw [ih (fun x hx => hturn ▸ hothers x (List.mem_cons_of_mem _ hx)), hturn]

theorem Drains.unique {rounds' : List Round} {q' : Pipeline} (h : Drains k p rounds q)
    (h' : Drains k p rounds' q') : rounds = rounds' ∧ q = q' := by
  induction h generalizing rounds' q' with
  | idle hline =>
    cases h' with
    | idle _ => exact ⟨rfl, rfl⟩
    | round hline' _ _ =>
      rw [hline] at hline'
      cases hline'
  | round hline hdequeue _ ih =>
    cases h' with
    | idle hline' =>
      rw [hline] at hline'
      cases hline'
    | round hline' hdequeue' hrest' =>
      rw [hline] at hline'
      cases hline'
      rw [hdequeue] at hdequeue'
      cases hdequeue'
      obtain ⟨rfl, rfl⟩ := ih hrest'
      exact ⟨rfl, rfl⟩

/-- At most so many rounds from line `k` on, and what they lead to. -/
def roundsFrom : Nat → JobKind → Pipeline → List Round × Pipeline
  | 0, _, p => ([], p)
  | n + 1, k, p =>
      match nextLine p.queue k with
      | none => ([], p)
      | some l =>
          match p.dequeue l with
          | (_, none) => ([], p)
          | (p', some r) =>
              let (q, status) := p'.runJob r
              let (rounds, s) := roundsFrom n l q
              (⟨r, status, p'.queue.since q.queue⟩ :: rounds, s)

/-- If no job waits after so many rounds, these are all rounds of a drain. -/
theorem drains_roundsFrom (n : Nat) (k : JobKind) (p : Pipeline)
    (h : (roundsFrom n k p).2.queue.waiting = []) :
    Drains k p (roundsFrom n k p).1 (roundsFrom n k p).2 := by
  induction n generalizing k p with
  | zero => exact .idle (nextLine_eq_none_iff.2 h)
  | succ n ih =>
    cases hline : nextLine p.queue k with
    | none =>
      have hrounds : roundsFrom (n + 1) k p = ([], p) := by
        unfold roundsFrom
        rw [hline]
      rw [hrounds]
      exact .idle hline
    | some l =>
      obtain ⟨p', r, hdequeue⟩ := exists_dequeue_of_nextLine hline
      have hrounds : roundsFrom (n + 1) k p
          = (⟨r, (p'.runJob r).2, p'.queue.since (p'.runJob r).1.queue⟩
              :: (roundsFrom n l (p'.runJob r).1).1, (roundsFrom n l (p'.runJob r).1).2) := by
        rw [roundsFrom]
        simp only [hline, hdequeue]
      rw [hrounds] at h ⊢
      exact .round hline hdequeue (ih l _ h)

/-- No id belongs to two of the jobs that were in flight or waited at the beginning or were queued
on the way. -/
def DistinctIds (p : Pipeline) (rounds : List Round) : Prop :=
  (p.queue.inFlight.keys
    ++ (p.queue.waiting ++ rounds.flatMap Round.queued).map (fun r => r.job.id)).Nodup

/-- What a drain in some rounds comes to. -/
structure Drained (p : Pipeline) (rounds : List Round) (q : Pipeline) : Prop where
  empty : ∀ k, q.queue.ready.get k = []
  /-- Every job that waited or was queued on the way was run, and no other. -/
  run : (rounds.map Round.request).Perm (p.queue.waiting ++ rounds.flatMap Round.queued)
  once : (rounds.map (fun x => x.request.job.id)).Nodup
  inFlight : q.queue.inFlight = p.queue.inFlight
  completed : ∀ k,
    q.queue.completed.get k = p.queue.completed.get k + rounds.countP (Round.completes k)
  failed : ∀ k, q.queue.failed.get k = p.queue.failed.get k + rounds.countP (Round.fails k)
  total : (Round.tally rounds .zero).total = rounds.length

theorem Drains.drained (h : Drains k p rounds q) (hdistinct : DistinctIds p rounds) :
    Drained p rounds q := by
  obtain ⟨hempty, hperm⟩ := h.perm
  obtain ⟨-, hnodup, hapart⟩ := List.nodup_append.1 hdistinct
  have hids := hperm.map (fun r => r.job.id)
  rw [List.map_map] at hids
  refine ⟨fun l => ?_, hperm, hids.nodup_iff.2 hnodup, h.inFlight (fun x hx => ?_),
    fun l => (h.counts l).1, fun l => (h.counts l).2, ?_⟩
  · exact List.flatMap_eq_nil_iff.1 hempty l (Queue.mem_all l)
  · have hid : x.request.job.id ∈ (p.queue.waiting ++ rounds.flatMap Round.queued).map
        (fun r => r.job.id) := hids.mem_iff.1 (List.mem_map_of_mem hx)
    exact Table.find?_eq_none_of_not_mem (fun hkey => hapart _ hkey _ hid rfl)
  · rw [Round.total_tally]
    exact Nat.zero_add _

/-- Without automatic scans, draining comes to an end: after finitely many rounds no job waits, each
job that waited or was queued on the way was run once and settled, and what was in flight before
still is. -/
theorem drain_drained (p : Pipeline) (hp : p.Drainable)
    (hdistinct : ∀ rounds q, Drains .scan p rounds q → DistinctIds p rounds) :
    ∃ rounds q, Drains .scan p rounds q ∧ Drained p rounds q ∧
      ∀ budget, rounds.length ≤ budget → p.drain budget = (q, Round.tally rounds .zero) := by
  obtain ⟨rounds, q, hdrains⟩ := exists_drains hp .scan
  refine ⟨rounds, q, hdrains, hdrains.drained (hdistinct rounds q hdrains), ?_⟩
  exact fun budget hbudget => hdrains.drainFrom_eq hbudget .zero

namespace Backlog

def network : Entity :=
  .network "internet"

/-- The rule that a network has a host. -/
def rule : RegisteredRule :=
  ⟨⟨"host", .network, [], .ofList [.hostname], .l0, true, none, none⟩,
    fun root _ _ => .returned [.ofEntity (.hostname root.reference "a.example")]⟩

def draft : Registry.Draft :=
  Registry.Draft.empty.addRule rule.definition rule.body

/-- A scan job without an object to scan. -/
def scan : Request :=
  ⟨.scan ⟨.ofNat 100, ⟨"scanner", none⟩, network.reference, .null, .empty, "default", .pending⟩,
    default, none⟩

/-- A derive job for the commit of the network. -/
def derive : Request :=
  ⟨.derive (.ofCommit (.ofNat 101) (.of .created network.reference default)), default, none⟩

/-- A pipeline in which both jobs wait. -/
def start : Pipeline :=
  { ofStore (Store.holding [network] default) with
    registry := draft.registry
    queue := Queue.empty.enqueueAll [scan, derive] }

theorem drainable : start.Drainable where
  manual := rfl
  maxDepth := by decide
  waiting := by
    have hwaiting : start.queue.waiting = [scan, derive] := rfl
    intro r hr j hj
    simp only [hwaiting, List.mem_cons, List.not_mem_nil, or_false] at hr
    rcases hr with rfl | rfl
    · cases hj
    · cases hj
      exact UInt32.zero_le

/-- The scan fails, the derive job commits a host, and the job that this leads to commits nothing. -/
theorem drain_drained_backlog :
    start.Drainable ∧
      (∀ rounds q, Drains .scan start rounds q → DistinctIds start rounds) ∧
      ∃ rounds q, Drained start rounds q ∧ rounds.map (fun x => x.queued.length) = [0, 1, 0] ∧
        start.drain 3 = (q, ⟨2, 1⟩) := by
  have hwaiting : (roundsFrom 3 .scan start).2.queue.waiting.isEmpty = true := by decide +kernel
  have hrounds := drains_roundsFrom 3 .scan start (List.isEmpty_iff.1 hwaiting)
  have hqueued : (roundsFrom 3 .scan start).1.map (fun x => x.queued.length) = [0, 1, 0] := by
    decide +kernel
  have hids : (start.queue.inFlight.keys ++ (start.queue.waiting
      ++ (roundsFrom 3 .scan start).1.flatMap Round.queued).map (fun r => r.job.id)).Nodup := by
    decide +kernel
  have htally : Round.tally (roundsFrom 3 .scan start).1 .zero = ⟨2, 1⟩ := by decide +kernel
  have hdistinct : ∀ rounds q, Drains .scan start rounds q → DistinctIds start rounds := by
    intro rounds q h
    obtain ⟨rfl, rfl⟩ := hrounds.unique h
    exact hids
  obtain ⟨rounds, q, hdrains, hdrained, hreturns⟩ := drain_drained start drainable hdistinct
  obtain ⟨rfl, rfl⟩ := hrounds.unique hdrains
  have hlength : (roundsFrom 3 .scan start).1.length = 3 := by
    rw [← List.length_map (fun x : Round => x.queued.length), hqueued]
    rfl
  exact ⟨drainable, hdistinct, _, _, hdrained, hqueued,
    htally ▸ hreturns 3 (Nat.le_of_eq hlength)⟩

end Backlog

end Whole

end Pipeline

end ScanGraph
