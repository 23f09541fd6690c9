/-
Rounds of a drain that end well.

Where every service works, what the dispatch of a job comes to can be written
down, and after it the job is settled and announced, which leaves alone all that
later rounds depend on.  A drain that goes through rounds of which every one ends
well counts just these: `Finishes.drain_eq`.

## What is proved

* `Finishes.drain_eq`: a drain whose rounds all end well settles as many jobs, and its
  summary says that none failed, for every budget that suffices.
* `drain_of_failed`: a drain whose one job fails and leads to nothing counts just that,
  and the queue keeps the message.
* `dispatch_of_refused`: a job whose dispatch fails does so with that message.
* `Working.commitDerived`: what the commit of a rule's output leads to, written out.

## What is asked

That every service works (`Pipeline.Working`), and that what waits stands in one line,
with the other lines empty (`only`).  Drains in general, of any lines and with failures,
are `Pipeline.Draining`; this module serves runs whose rounds are known one by one.
-/
import ScanGraph.Proofs.Pipeline.Draining
import ScanGraph.Proofs.Pipeline.Services

namespace ScanGraph

namespace Pipeline

open ScanGraph.Action

/-! ## One line at a time -/

/-- These jobs wait in one line, and none in the others. -/
def only (k : JobKind) (rs : List Request) : PerKind (List Request) :=
  (PerKind.all []).modify k (fun _ => rs)

theorem only_nil (k : JobKind) : only k [] = .all [] := by
  cases k <;> rfl

section Line

variable {q : Queue} {k l : JobKind} {r : Request} {rs new : List Request}

theorem nextLine_of_only (h : q.ready = only l (r :: rs)) (k : JobKind) :
    nextLine q k = some l := by
  have hdepth : ∀ k', (q.depth k' != 0) = decide (k' = l) := by
    intro k'
    unfold Queue.depth
    rw [h]
    cases k' <;> cases l <;> rfl
  unfold nextLine
  simp only [hdepth]
  cases k <;> cases l <;> rfl

theorem nextLine_of_none (h : q.ready = .all []) (k : JobKind) : nextLine q k = none := by
  have hdepth : ∀ k', (q.depth k' != 0) = false := by
    intro k'
    unfold Queue.depth
    rw [h, PerKind.get_all]
    rfl
  unfold nextLine
  simp only [hdepth]
  rfl

theorem ready_enqueueAll (h : q.ready = only k rs) (hnew : ∀ r ∈ new, r.job.kind = k) :
    (q.enqueueAll new).ready = only k (rs ++ new) := by
  induction new generalizing q rs with
  | nil => rw [List.append_nil]; exact h
  | cons r new ih =>
    have hone : (q.enqueue r).ready = only k (rs ++ [r]) := by
      unfold Queue.enqueue
      rw [hnew r List.mem_cons_self, h]
      cases k <;> rfl
    have hrest := ih hone (fun r' hr' => hnew r' (List.mem_cons_of_mem _ hr'))
    rwa [List.append_assoc] at hrest

end Line

/-! ## What rounds depend on -/

/-- All of a pipeline that the dispatch of a job depends on but the clock and the ids. -/
def desk (p : Pipeline) : Registry × Policy × ScannerBody × Store × Memory ×
    PerKind (List Request) × Archive × Outages :=
  (p.registry, p.policy, p.backend, p.store, p.memory, p.queue.ready, p.archive, p.outages)

theorem steady_desk : Steady desk where
  clock _ _ := rfl
  ids _ _ := rfl
  bus _ _ := rfl

section Desk

variable {p q : Pipeline} {r : Request} {rs : List Request} {k : JobKind}

theorem desk_of_still (h : q.still = p.still) : q.desk = p.desk := by
  simp only [still, Prod.mk.injEq] at h
  obtain ⟨hregistry, hpolicy, hbackend, hstore, hmemory, hqueue, harchive, houtages, -⟩ := h
  simp only [desk, hregistry, hpolicy, hbackend, hstore, hmemory, hqueue, harchive, houtages]

theorem desk_settle (p : Pipeline) (id : Uuid) (status : JobResult) :
    (p.settle id status).desk = p.desk := by
  have hready := ready_settle p id status
  unfold settle at hready ⊢
  cases hsettled : settled p.queue id status with
  | error e => rfl
  | ok queue =>
    rw [hsettled] at hready
    have hqueue : queue.ready = p.queue.ready := hready
    simp only [desk, hqueue]

theorem dequeue_of_only (h : p.queue.ready = only k (r :: rs)) :
    ∃ queue, p.dequeue k = ({ p with queue }, some r) ∧ queue.ready = only k rs := by
  have hline : p.queue.ready.get k = r :: rs := by
    rw [h]
    cases k <;> rfl
  refine ⟨(p.queue.dequeue k).1, ?_, ?_⟩
  · unfold Pipeline.dequeue Queue.dequeue
    rw [hline]
  · unfold Queue.dequeue
    rw [hline, h]
    cases k <;> rfl

theorem dispatch_of_handle (h : handle r p = (.ok (), q)) :
    dispatch r p = (.ok .succeeded, q) := by
  unfold dispatch
  rw [bind_of_ok (result_of_ok h)]
  rfl

theorem dispatch_of_refused {e : PipelineError} (h : handle r p = (.error (.error e), q)) :
    dispatch r p = (.ok (.failed e.message), q) := by
  unfold dispatch
  rw [bind_of_ok (result_of_error h)]
  rfl

theorem runJob_of_dispatch {status : JobResult} (h : dispatch r p = (.ok status, q)) :
    (p.runJob r).2 = status ∧ (p.runJob r).1.desk = q.desk := by
  unfold runJob
  rw [h]
  exact ⟨rfl, (steady_desk.publish _ _ _).trans (desk_settle q r.job.id status)⟩

end Desk

/-! ## Rounds one after the other -/

/-- From line `k` on, a drain goes through so many rounds, all of which end well, until no job
waits. -/
def Finishes (k : JobKind) (p : Pipeline) (n : Nat) (post : Pipeline → Prop) : Prop :=
  ∃ rounds q, Drains k p rounds q ∧ rounds.length = n ∧
    (∀ x ∈ rounds, x.status = .succeeded) ∧ post q

section Finishes

variable {p p' q : Pipeline} {k l : JobKind} {r : Request} {rs : List Request} {n : Nat}
  {post : Pipeline → Prop}

theorem finishes_idle (h : p.queue.ready = .all []) (hpost : post p) : Finishes k p 0 post :=
  ⟨[], p, .idle (nextLine_of_none h k), rfl, fun _ hx => absurd hx List.not_mem_nil, hpost⟩

theorem Finishes.round (hready : p.queue.ready = only l (r :: rs))
    (hdequeue : p.dequeue l = (p', some r)) (hdispatch : dispatch r p' = (.ok .succeeded, q))
    (h : ∀ q', q'.desk = q.desk → Finishes l q' n post) : Finishes k p (n + 1) post := by
  obtain ⟨hstatus, hdesk⟩ := runJob_of_dispatch hdispatch
  obtain ⟨rounds, s, hdrains, hlength, hsucceeded, hpost⟩ := h _ hdesk
  refine ⟨_, s, .round (nextLine_of_only hready k) hdequeue hdrains, ?_, ?_, hpost⟩
  · rw [List.length_cons, hlength]
  · exact List.forall_mem_cons.2 ⟨hstatus, hsucceeded⟩

theorem tally_of_succeeded {rounds : List Round} (h : ∀ x ∈ rounds, x.status = .succeeded)
    (summary : DrainSummary) :
    Round.tally rounds summary = ⟨summary.completed + rounds.length, summary.failed⟩ := by
  induction rounds generalizing summary with
  | nil => rfl
  | cons x rounds ih =>
    obtain ⟨hx, hrest⟩ := List.forall_mem_cons.1 h
    show Round.tally rounds (summary.count x.status) = _
    rw [ih hrest, hx, List.length_cons]
    simp only [DrainSummary.count, DrainSummary.mk.injEq, and_true]
    omega

/-- A drain whose rounds all end well settles as many jobs, and none of them fails. -/
theorem Finishes.drain_eq (h : Finishes .scan p n post) :
    ∃ q, post q ∧ ∀ budget, n ≤ budget → p.drain budget = (q, ⟨n, 0⟩) := by
  obtain ⟨rounds, q, hdrains, rfl, hsucceeded, hpost⟩ := h
  refine ⟨q, hpost, fun budget hbudget => ?_⟩
  have hdrain := hdrains.drainFrom_eq hbudget .zero
  rw [tally_of_succeeded hsucceeded] at hdrain
  simpa [Pipeline.drain, DrainSummary.zero] using hdrain

/-- The last job that waits is dispatched, fails and leads to no other: a drain counts just that, and
keeps what went wrong. -/
theorem drain_of_failed {e : String} (hready : p.queue.ready = only .scan [r])
    (hdequeue : p.dequeue .scan = (p', some r))
    (hdispatch : dispatch r p' = (.ok (.failed e), q))
    (hidle : q.queue.ready = .all []) :
    ∃ s, s.desk = q.desk ∧ s.queue.failures.get? r.job.id = some e ∧
      ∀ budget, 1 ≤ budget → p.drain budget = (s, ⟨0, 1⟩) := by
  obtain ⟨hstatus, hdesk⟩ := runJob_of_dispatch hdispatch
  have hflight := Queue.inFlight_dequeue (dequeue_eq_some_iff.1 hdequeue).2
  obtain ⟨rs, -, hqueue, -⟩ := runJob_of_inFlight hflight
  refine ⟨_, hdesk, ?_, fun budget hbudget => ?_⟩
  · rw [hqueue, hstatus]
    exact Table.get?_insert_self _ _ _
  · have hwaiting : (p'.runJob r).1.queue.ready = .all [] :=
      (congrArg (fun d => d.2.2.2.2.2.1) hdesk).trans hidle
    have hdrains := Drains.round (nextLine_of_only hready .scan) hdequeue
      (.idle (nextLine_of_none hwaiting .scan))
    refine (hdrains.drainFrom_eq hbudget .zero).trans ?_
    simp only [Round.tally, List.foldl_cons, List.foldl_nil, hstatus]
    rfl

end Finishes

/-! ## Commits -/

section Commits

variable {p q : Pipeline} {r : Request} {o : Observation} {parent : Option (DeriveJob × Visit)}

theorem Working.observe (h : p.Working)
    (hsource : (p.store.visible? o.source o.validTime).isSome = true) :
    observe o p = (.ok (p.store.commit o).2, { p with store := (p.store.commit o).1 }) :=
  observe_of_ok (h.observed hsource)

/-- An observation is committed, and what its commits lead to is queued. -/
theorem Working.observe_bind_announce (h : p.Working)
    (hsource : (p.store.visible? o.source o.validTime).isSome = true) (r : Request)
    (parent : Option (DeriveJob × Visit)) :
    ∃ q rs, (Pipeline.observe o >>= Pipeline.announceCommits r parent) p = (.ok (), q) ∧
      q.still = { p with store := (p.store.commit o).1, queue := p.queue.enqueueAll rs }.still ∧
      IsFollowUps { p with store := (p.store.commit o).1 } parent r.correlation
        (p.store.commit o).2 rs := by
  have hnext : Working { p with store := (p.store.commit o).1 } :=
    ⟨h.outages, (Store.commit_offline p.store o).trans h.online⟩
  obtain ⟨q, rs, hannounce, hstill, hfollow⟩ :=
    hnext.announceCommits r parent (p.store.commit o).2
  refine ⟨q, rs, ?_, hstill, hfollow⟩
  rw [bind_of_ok (h.observe hsource)]
  exact hannounce

/-- What a rule derived is committed, and what that leads to is queued, if the chain may go on. -/
theorem Working.commitDerived (h : p.Working) {j : DeriveJob} {root : Snapshot} (rule : String)
    (objects : List Snapshot)
    (hroot : (p.store.visible? root.reference j.commit.validTime).isSome = true)
    (hdeep : ¬ p.policy.derivation.maxDepth < j.depth + 1) (r : Request) :
    ∃ s commits q rs,
      p.store.commit ⟨rule, root.reference, some j.id, j.commit.validTime, root.imply objects⟩
        = (s, commits) ∧
      Pipeline.commitDerived r j rule root objects p = (.ok (), q) ∧
      q.still = { p with store := s, queue := p.queue.enqueueAll rs }.still ∧
      IsFollowUps { p with store := s } (some (j, ⟨rule, root.reference⟩)) r.correlation
        commits rs := by
  obtain ⟨q, rs, hbind, hstill, hfollow⟩ := h.observe_bind_announce
    (o := ⟨rule, root.reference, some j.id, j.commit.validTime, root.imply objects⟩) hroot r
    (some (j, ⟨rule, root.reference⟩))
  refine ⟨_, _, q, rs, rfl, ?_, hstill, hfollow⟩
  rw [bind_of_ok (h.observe hroot)] at hbind
  unfold Pipeline.commitDerived
  rw [bind_of_ok (h.observe hroot), get_bind, if_neg hdeep]
  exact hbind

/-- Where no scans are scheduled, commits lead to a derive job each. -/
theorem IsFollowUps.derives {correlation : Option Uuid} {cs : List Commit} {rs : List Request}
    (h : IsFollowUps p parent correlation cs rs) (hauto : p.policy.autoSchedule = false) :
    List.Forall₂ (IsDerive parent correlation) cs rs := by
  obtain ⟨groups, derives, rfl, hgroups, hderives⟩ := h
  have hnone : ∀ rs ∈ groups, rs = [] := by
    intro rs hrs
    obtain ⟨c, -, hscans⟩ := exists_of_forall₂ hgroups rs hrs
    unfold IsScans at hscans
    rw [hauto] at hscans
    exact hscans
  rw [List.flatten_eq_nil_iff.2 hnone, List.nil_append]
  exact hderives

end Commits

/-! ## Derive jobs -/

section Derive

variable {p q : Pipeline} {r : Request} {j : DeriveJob} {o : RuleOutcome}

theorem deriveFor_of_ok {changed : Reference} {t : Instant} {m : Memory}
    {outcomes : List RuleOutcome}
    (h : p.engine.deriveFor (paced p.clock) p.memory changed t = .ok (m, outcomes)) :
    deriveFor changed t p
      = (.ok outcomes, { p with memory := m, clock := p.clock + outcomes.length * tick }) := by
  unfold deriveFor
  rw [get_bind, h]
  rfl

theorem settleOutcome_of_skipped {reason : SkipReason} (h : o.status = .skipped reason)
    (p : Pipeline) : ∃ settled, settleOutcome r j o p = (.ok settled, p) := by
  unfold settleOutcome
  rw [h]
  exact ⟨_, rfl⟩

theorem settleOutcome_of_committed {objects : List Snapshot} {cached : Bool}
    (h : o.status = .derived objects cached) (hnew : ⟨o.rule, o.root.reference⟩ ∉ j.lineage)
    (hcommit : commitDerived r j o.rule o.root objects p = (.ok (), q)) :
    ∃ settled, settleOutcome r j o p = (.ok settled, q) := by
  have hvisited : ¬ j.hasVisited ⟨o.rule, o.root.reference⟩ = true := by
    simpa [DeriveJob.hasVisited] using hnew
  unfold settleOutcome
  rw [h]
  simp only
  rw [if_neg hvisited, bind_of_ok (result_of_ok hcommit)]
  exact ⟨_, rfl⟩

theorem recordOutcome_of_settled {settled : Evaluation × List Reference}
    (h : settleOutcome r j o p = (.ok settled, q)) (hworking : q.Working) :
    ∃ s archive, recordOutcome r j o p = (.ok (), s) ∧ s.desk = { q with archive }.desk := by
  unfold recordOutcome
  rw [bind_of_ok h]
  simp only [freshId_bind, now_bind]
  have hnext : Working { q with nextId := q.nextId + 1, clock := q.clock + tick } :=
    ⟨hworking.outages, hworking.online⟩
  rw [bind_of_ok (ignoring_of_ok (hnext.save _))]
  obtain ⟨_, s, hpublish, hstill, -⟩ := yields_publish r.correlation
    (.ruleEvaluated o.rule o.root.reference settled.1)
    { q with
      nextId := q.nextId + 1, clock := q.clock + tick
      archive := q.archive.saveAttempt ⟨.ofNat q.nextId, some j.id, o.rule, o.root.reference,
        settled.1, settled.2, instantOf q.clock⟩ }
  exact ⟨s, _, hpublish, desk_of_still hstill⟩

theorem dispatchDerive_of_deriveAll
    (h : deriveAll r { j with life := j.life.start (instantOf p.clock) }
      { p with clock := p.clock + tick } = (.ok (), q)) (hworking : q.Working) :
    ∃ s archive, dispatchDerive r j p = (.ok (), s) ∧ s.desk = { q with archive }.desk := by
  unfold dispatchDerive
  simp only [now_bind]
  rw [bind_of_ok (result_of_ok h)]
  simp only [now_bind]
  have hnext : Working { q with clock := q.clock + tick } := ⟨hworking.outages, hworking.online⟩
  rw [bind_of_ok (ignoring_of_ok (hnext.save _))]
  exact ⟨_, _, rfl, rfl⟩

end Derive

end Pipeline

end ScanGraph
