/-
How a job ended is one story.

A drain dispatches a job, settles it in the queue and counts how it ended.  What it
counts, what the queue keeps and what is archived are written at different places, and
the store may go offline and come back in between.  Still they agree: the job is
archived when it is over, and it has failed exactly if the queue keeps a failure for
it and exactly if the drain counts one.  Other rounds leave that alone, as long as no
id belongs to two jobs: `drained_settled`.

## What is asked

No service is out of order at the beginning.  Between any two calls the store may go
offline and come back, and be changed otherwise; queue and archive are used by the drain
alone.  No id belongs to two jobs that are run, or to one that failed before.

## What is proved

For every job that was dispatched: the archive has it, over; it has failed exactly if
the queue keeps a failure for it, and exactly if its round counts as one; and a scan has
its evidence.  The number of failures in the summary is that of such rounds.  Any drain
is a run of this kind, whatever its budget.

## What is not

That every job is dispatched: a drain with too small a budget stops early, and one that
does not is `Pipeline.Draining`.  Which message is kept for a failure is not stated.
-/
import ScanGraph.Proofs.Pipeline.Conclusion
import ScanGraph.Proofs.Pipeline.Draining

namespace ScanGraph

/-- What becomes of the job of a round: it is archived and over, and whether it failed is said in
one way. -/
structure Round.SettledIn (x : Round) (q : Pipeline) : Prop where
  archived : q.archive.Tells x.request.job.kind x.request.job.id (x.status ≠ .succeeded)
  failure : (q.queue.failures.get? x.request.job.id).isSome = true ↔ x.status ≠ .succeeded

theorem Round.failed_tally (rounds : List Round) (summary : DrainSummary) :
    (tally rounds summary).failed
      = summary.failed + rounds.countP (fun x => decide (x.status ≠ .succeeded)) := by
  induction rounds generalizing summary with
  | nil => rfl
  | cons x rounds ih =>
    have hcount : (summary.count x.status).failed
        = summary.failed + if x.status ≠ .succeeded then 1 else 0 := by
      cases x.status <;> rfl
    show (tally rounds (summary.count x.status)).failed = _
    simp only [ih, hcount, List.countP_cons, decide_eq_true_eq]
    omega

namespace Pipeline

/-- Some rounds from line `k` on, and what they lead to if others are busy elsewhere between any two
calls. -/
inductive Interrupted : JobKind → Pipeline → List Round → Pipeline → Prop
  | stop {k : JobKind} {p q : Pipeline} : p.Elsewhere q → Interrupted k p [] q
  | round {k l : JobKind} {p p₀ p' s s' t q : Pipeline} {r : Request}
      {found : Except Fault JobResult} {rounds : List Round} :
      p.Elsewhere p₀ → nextLine p₀.queue k = some l → p₀.dequeue l = (p', some r) →
      (Worker.dispatch r).Executes p' found s →
      s.Elsewhere s' → (s'.settle r.job.id (resultOf found)).Elsewhere t →
      Interrupted l (publish r.correlation (announcement r (resultOf found)) t).2 rounds q →
      Interrupted k p (⟨r, resultOf found, p'.queue.since t.queue⟩ :: rounds) q

/-- No id belongs to two of the jobs that are run, or to one that failed before. -/
structure Singly (p : Pipeline) (rounds : List Round) : Prop where
  once : (rounds.map (fun x => x.request.job.id)).Nodup
  unfailed : ∀ x ∈ rounds, p.queue.failures.get? x.request.job.id = none

/-- A job was archived and settled as it ended. -/
structure Settles (p : Pipeline) (r : Request) (status : JobResult) (q : Pipeline) : Prop where
  outages : q.outages = p.outages
  tells : q.archive.Tells r.job.kind r.job.id (status ≠ .succeeded)
  apart : p.archive.Apart r.job.id q.archive
  failures : q.queue.failures = (settledQueue p.queue r status).failures

section Round

variable {p p₀ p' q s s' t : Pipeline} {k l : JobKind} {r : Request} {rounds : List Round}
  {status : JobResult}

theorem failures_settledQueue {a b : Queue} (h : a.failures = b.failures) (r : Request)
    (status : JobResult) :
    (settledQueue a r status).failures = (settledQueue b r status).failures := by
  cases status with
  | succeeded => exact h
  | failed e => exact congrArg (fun failures => failures.insert r.job.id e) h

theorem settles_round {found : Except Fault JobResult} (hp : p.outages = .none)
    (hbefore : p.Elsewhere p₀) (hdequeue : p₀.dequeue l = (p', some r))
    (hdispatch : (Worker.dispatch r).Executes p' found s) (hafter : s.Elsewhere s')
    (hsettled : (s'.settle r.job.id (resultOf found)).Elsewhere t) :
    p.Settles r (resultOf found)
      (publish r.correlation (announcement r (resultOf found)) t).2 := by
  obtain ⟨hpipeline, hline⟩ := dequeue_eq_some_iff.1 hdequeue
  obtain ⟨rest, -, htaken⟩ := Queue.dequeue_eq_some_iff.1 hline
  have houtages : p'.outages = p.outages := by
    rw [hpipeline]
    exact hbefore.outages
  have harchive : p'.archive = p.archive := by
    rw [hpipeline]
    exact hbefore.archive
  obtain ⟨status, rfl, hconcludes⟩ := Worker.concludes_dispatch (houtages.trans hp) hdispatch
  have hstatus : resultOf (.ok status) = status := rfl
  rw [hstatus] at hsettled ⊢
  obtain ⟨rs, hqueue⟩ := hconcludes.queue
  obtain ⟨hflight, -, -, hfailures⟩ := Queue.enqueueAll_rest p'.queue rs
  have hstays : s'.queue.inFlight.get? r.job.id = some r := by
    rw [hafter.queue, hqueue, hflight]
    exact Queue.inFlight_dequeue hline
  rw [settle_of_inFlight hstays] at hsettled
  have hpublish : t.Elsewhere (publish r.correlation (announcement r status) t).2 :=
    .of_still (steady_still.publish _ _ _)
  have hend := hsettled.trans hpublish
  refine ⟨?_, ?_, ?_, ?_⟩
  · exact hend.outages.trans (hafter.outages.trans (hconcludes.outages.trans houtages))
  · rw [hend.archive]
    exact hafter.archive ▸ hconcludes.tells
  · rw [hend.archive, ← harchive]
    exact hafter.archive ▸ hconcludes.apart
  · rw [hend.queue]
    refine failures_settledQueue ?_ r status
    rw [hafter.queue, hqueue, hfailures, htaken, hbefore.queue]

/-- What is told of a job is told after it was archived and settled as well. -/
theorem Settles.settledIn (h : p.Settles r status q)
    (hunfailed : p.queue.failures.get? r.job.id = none) (queued : List Request) :
    Round.SettledIn ⟨r, status, queued⟩ q where
  archived := h.tells
  failure := by
    show (q.queue.failures.get? r.job.id).isSome = true ↔ status ≠ .succeeded
    rw [h.failures]
    cases status with
    | succeeded => simp [settledQueue, hunfailed]
    | failed e => simp [settledQueue, Table.get?_insert_self]

theorem Settles.failure_of_ne (h : p.Settles r status q) {id : Uuid} (hid : id ≠ r.job.id) :
    q.queue.failures.get? id = p.queue.failures.get? id := by
  rw [h.failures]
  cases status with
  | succeeded => rfl
  | failed e => exact Table.get?_insert_of_ne _ _ hid

/-! ## Whole drains -/

theorem Interrupted.settledIn {x : Round} (h : Interrupted k p rounds q)
    (hp : p.outages = .none) (hx : x.SettledIn p)
    (hothers : x.request.job.id ∉ rounds.map (fun y => y.request.job.id)) : x.SettledIn q := by
  induction h with
  | stop helsewhere =>
    refine ⟨?_, ?_⟩
    · rw [helsewhere.archive]
      exact hx.archived
    · rw [helsewhere.queue]
      exact hx.failure
  | round hbefore hline hdequeue hdispatch hafter hsettled _ ih =>
    rw [List.map_cons, List.mem_cons, not_or] at hothers
    obtain ⟨hid, hothers⟩ := hothers
    have hsettles := settles_round hp hbefore hdequeue hdispatch hafter hsettled
    refine ih (hsettles.outages.trans hp) ⟨hx.archived.apart hsettles.apart hid, ?_⟩ hothers
    rw [hsettles.failure_of_ne hid]
    exact hx.failure

theorem Interrupted.settled (h : Interrupted k p rounds q) (hp : p.outages = .none)
    (hsingly : p.Singly rounds) : ∀ x ∈ rounds, x.SettledIn q := by
  induction h with
  | stop _ => exact fun x hx => absurd hx List.not_mem_nil
  | @round k l p p₀ p' s s' t q r found rounds hbefore hline hdequeue hdispatch hafter hsettled
      hrest ih =>
    obtain ⟨hid, honce⟩ := List.nodup_cons.1 hsingly.once
    have hsettles := settles_round hp hbefore hdequeue hdispatch hafter hsettled
    have hp' := hsettles.outages.trans hp
    refine List.forall_mem_cons.2 ⟨?_, ih hp' ⟨honce, fun x hx => ?_⟩⟩
    · exact hrest.settledIn hp'
        (hsettles.settledIn (hsingly.unfailed _ List.mem_cons_self) _) hid
    · have hne : x.request.job.id ≠ r.job.id := by
        intro he
        exact hid (List.mem_map.2 ⟨x, hx, he⟩)
      rw [hsettles.failure_of_ne hne]
      exact hsingly.unfailed x (List.mem_cons_of_mem _ hx)

theorem Interrupted.undisturbed (hbefore : p.Elsewhere p₀) (hline : nextLine p₀.queue k = some l)
    (hdequeue : p₀.dequeue l = (p', some r)) (hrest : Interrupted l (p'.runJob r).1 rounds q) :
    Interrupted k p
      (⟨r, (p'.runJob r).2, p'.queue.since (p'.runJob r).1.queue⟩ :: rounds) q := by
  have hdispatch := Routine.executes_run (Worker.dispatch r) p'
  rw [Worker.run_dispatch] at hdispatch
  exact .round (t := (dispatch r p').2.settle r.job.id (p'.runJob r).2) hbefore hline hdequeue
    hdispatch (.refl _) (.refl _) hrest

theorem interrupted_drainFrom (budget : Nat) (k : JobKind) (summary : DrainSummary) (p : Pipeline) :
    ∃ rounds, Interrupted k p rounds (drainFrom budget k summary p).1 ∧
      (drainFrom budget k summary p).2 = Round.tally rounds summary := by
  induction budget generalizing k summary p with
  | zero => exact ⟨[], .stop (.refl p), rfl⟩
  | succ budget ih =>
    unfold drainFrom
    cases hline : nextLine p.queue k with
    | none => exact ⟨[], .stop (.refl p), rfl⟩
    | some l =>
      obtain ⟨p', r, hdequeue⟩ := exists_dequeue_of_nextLine hline
      simp only [hdequeue]
      obtain ⟨rounds, hrounds, htally⟩ := ih l (summary.count (p'.runJob r).2) (p'.runJob r).1
      exact ⟨_, .undisturbed (.refl p) hline hdequeue hrounds, htally⟩

/-- The store may go offline and come back at any point of a drain: each job that was dispatched is
archived when it is over, a scan with its evidence, and failed exactly if the queue keeps a failure
for it and exactly if the drain counts one. -/
theorem drained_settled (p : Pipeline) (hp : p.outages = .none) :
    (∀ k rounds q, Interrupted k p rounds q → p.Singly rounds →
      (∀ x ∈ rounds, x.SettledIn q) ∧
      (Round.tally rounds .zero).total = rounds.length ∧
      (Round.tally rounds .zero).failed
        = rounds.countP (fun x => decide (x.status ≠ .succeeded))) ∧
    ∀ budget, ∃ rounds, Interrupted .scan p rounds (p.drain budget).1 ∧
      (p.drain budget).2 = Round.tally rounds .zero := by
  refine ⟨fun k rounds q h hsingly => ⟨h.settled hp hsingly, ?_, ?_⟩, fun budget => ?_⟩
  · rw [Round.total_tally]
    exact Nat.zero_add _
  · rw [Round.failed_tally]
    exact Nat.zero_add _
  · exact interrupted_drainFrom budget .scan .zero p

namespace Backlog

/-- The pipeline whose store is offline or back online. -/
def withStore (offline : Bool) (p : Pipeline) : Pipeline :=
  { p with store := { p.store with offline } }

/-- The pipeline when the scan is taken, its store offline. -/
def scanning : Pipeline :=
  ((withStore true start).dequeue .scan).1

/-- The pipeline after the scan was run, its store back online. -/
def resumed : Pipeline :=
  withStore false (scanning.runJob scan).1

/-- The job that is run next: its id, and whether it ends well. -/
def next : Option (Uuid × Bool) :=
  match resumed.dequeue .derive with
  | (p, r) => r.map (fun r => (r.job.id, decide ((p.runJob r).2 = .succeeded)))

theorem interrupted : ∃ rounds q, Interrupted .scan start rounds q ∧
    rounds.map (fun x => x.request.job.id) = [.ofNat 100, .ofNat 101] ∧
    rounds.map (fun x => decide (x.status = .succeeded)) = [false, true] := by
  have hscan : decide ((scanning.runJob scan).2 = .succeeded) = false := by decide +kernel
  have hline : nextLine resumed.queue .scan = some .derive := by decide +kernel
  have hnext : next = some (.ofNat 101, true) := by decide +kernel
  have hoffline : start.Elsewhere (withStore true start) := ⟨rfl, rfl, rfl⟩
  have htaken : (withStore true start).dequeue .scan = (scanning, some scan) := rfl
  have honline : (scanning.runJob scan).1.Elsewhere resumed := ⟨rfl, rfl, rfl⟩
  unfold next at hnext
  cases hdequeue : resumed.dequeue .derive with
  | mk p r =>
    rw [hdequeue] at hnext
    cases r with
    | none => cases hnext
    | some r =>
      obtain ⟨hid, hderive⟩ := Prod.mk.inj (Option.some.inj hnext)
      have hrest : Interrupted .scan (scanning.runJob scan).1 [_] (p.runJob r).1 :=
        .undisturbed honline hline hdequeue (.stop (.refl _))
      refine ⟨_, _, .undisturbed hoffline (by decide) htaken hrest, ?_, ?_⟩
      · exact congrArg (fun id => [Uuid.ofNat 100, id]) hid
      · simp only [List.map_cons, List.map_nil, hscan, hderive]

theorem drained_settled_backlog :
    start.outages = .none ∧ ∃ rounds q, Interrupted .scan start rounds q ∧ start.Singly rounds ∧
      rounds.map (fun x => decide (x.status = .succeeded)) = [false, true] ∧
      (∀ x ∈ rounds, x.SettledIn q) ∧
      (Round.tally rounds .zero).total = 2 := by
  obtain ⟨rounds, q, hrounds, hids, hstatus⟩ := interrupted
  have hsingly : start.Singly rounds := by
    refine ⟨?_, fun x _ => rfl⟩
    rw [hids]
    decide
  obtain ⟨hsettled, htotal, -⟩ := (drained_settled start rfl).1 .scan rounds q hrounds hsingly
  have hlength : rounds.length = 2 := by
    have hmap := congrArg List.length hids
    rwa [List.length_map] at hmap
  exact ⟨rfl, rounds, q, hrounds, hsingly, hstatus, hsettled, htotal.trans hlength⟩

end Backlog

end Round

end Pipeline

end ScanGraph
