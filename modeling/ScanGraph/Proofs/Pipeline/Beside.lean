/-
One worker beside a crew.

A crew takes steps, and beside it a worker that took a job makes its calls, one after
the other; what its calls queue is collected.  Nothing else can happen to a worker that
is one of a crew: `exists_beside`.  Worker and crew stay tidy, and the worker can always
finish.

`Routine.Tracks` follows a routine through its calls: between any two of them others may
do what is `Stable`, and what was queued so far is known.  A call after which nothing
changed that a dispatch of a scan depends on is `Quiet`; one that saves something is
described by `Saved`.

## Why one worker is taken out

What a worker has queued so far cannot be read off the queue, as others queue besides
and take jobs away.  So the worker is put beside its crew, with an account of its own,
and `exists_beside` says that nothing is lost by it: whatever becomes of a crew one of
whose tasks is this worker, becomes of worker and crew.

## What is asked, and what is not

Nobody exchanges the plugins, changes the policy or repairs a service while the worker
is at work, and nobody but the tasks keeps anything of scans.  Ids are those of
different jobs.  That the worker comes to an end is proved as possible from everywhere
(`exists_done`), since it makes finitely many calls; that its turn does come is up to
whoever calls.
-/
import ScanGraph.Proofs.Pipeline.Ownership

namespace ScanGraph

open Pipeline

/-- A crew, and beside it a worker with what is left of its routine and the jobs that its calls
queued. -/
structure Beside where
  others : Crew
  rest : Routine Unit
  queued : List Request

namespace Beside

def pipeline (b : Beside) : Pipeline :=
  b.others.pipeline

/-- The crew takes a step, or the worker makes its next call. -/
inductive Step : Beside → Beside → Prop
  | others {c c' : Crew} {cause : Option Request} {w : Routine Unit} {queued : List Request} :
      c.Abides cause c' → Step ⟨c, w, queued⟩ ⟨c', w, queued⟩
  | call {β : Type} {p : Pipeline} {ts : List Task} {act : Action β}
      {next : Except Fault β → Routine Unit} {queued : List Request} :
      Step ⟨⟨p, ts⟩, .call act next, queued⟩
        ⟨⟨(act p).2, ts⟩, next (act p).1, queued ++ p.queue.since (act p).2.queue⟩
  | evaluate {p : Pipeline} {ts : List Task} {changed : Reference} {t : Instant}
      {next : Except Fault (List RuleOutcome) → Routine Unit} {queued : List Request}
      (memory : Memory) (clock : Nat) (answer : Except Fault (List RuleOutcome)) :
      Step ⟨⟨p, ts⟩, .evaluate changed t next, queued⟩
        ⟨⟨{ p with memory, clock }, ts⟩, next answer, queued⟩

/-- What worker and crew come to by any number of steps. -/
def Reached : Beside → Beside → Prop :=
  Relation.ReflTransGen Step

/-- A worker that took a job, beside a crew. -/
def start (c : Crew) (r : Request) : Beside :=
  ⟨c, Worker.runJob r, []⟩

/-- The crew is tidy, and the worker keeps to what belongs to its job. -/
structure Tidy (r : Request) (b : Beside) : Prop where
  others : b.others.Tidy [r]
  rest : b.rest.Every (Confined (some r))

section Steps

variable {r : Request} {b b' : Beside}

theorem Tidy.step (h : b.Tidy r) (hstep : Step b b') : b'.Tidy r ∧
    b.pipeline.Constant b'.pipeline ∧ b.pipeline.queue.log <+: b'.pipeline.queue.log := by
  obtain ⟨hothers, hrest⟩ := h
  cases hstep with
  | others habides =>
    have hmoves := hothers.step habides
    exact ⟨⟨hmoves.tidy, hrest⟩, hmoves.constant, hmoves.log⟩
  | @call β p ts act next queued =>
    have hcall := hrest.1 p
    exact ⟨⟨hothers.move hcall.logs (.refl _) hothers.tasks, hrest.2 _⟩, hcall.constant,
      hcall.logs.log_prefix⟩
  | @evaluate p ts changed t next queued memory clock answer =>
    exact ⟨⟨hothers.move (.of_lines rfl rfl) (.refl _) hothers.tasks, hrest answer⟩,
      ⟨rfl, rfl, rfl, rfl⟩, List.prefix_rfl⟩

theorem Tidy.run (h : b.Tidy r) (hrun : Reached b b') : b'.Tidy r := by
  induction hrun with
  | refl => exact h
  | tail _ hstep ih => exact (ih.step hstep).1

theorem exists_done (b : Beside) : ∃ b', Reached b b' ∧
    b'.rest = .done (b.rest.run b.pipeline).1 ∧ b'.pipeline = (b.rest.run b.pipeline).2 := by
  obtain ⟨⟨p, ts⟩, w, queued⟩ := b
  induction w generalizing p queued with
  | done x => exact ⟨_, .refl, rfl, rfl⟩
  | call act next ih =>
    obtain ⟨b', hrest, hend⟩ := ih (act p).1 (queued ++ p.queue.since (act p).2.queue) (act p).2
    exact ⟨b', .head .call hrest, hend⟩
  | evaluate changed t next ih =>
    obtain ⟨memory, clock, hmemory⟩ := exists_memory_deriveFor changed t p
    have hstep : Step ⟨⟨p, ts⟩, .evaluate changed t next, queued⟩
        ⟨⟨{ p with memory, clock }, ts⟩, next (deriveFor changed t p).1, queued⟩ :=
    .evaluate memory clock _
    rw [← hmemory] at hstep
    obtain ⟨b', hrest, hend⟩ := ih (deriveFor changed t p).1 queued (deriveFor changed t p).2
    exact ⟨b', .head hstep hrest, hend⟩

theorem tidy_start {p q : Pipeline} {ts : List Task} {k : JobKind} (h : Crew.Tidy [] ⟨p, ts⟩)
    (hdequeue : p.dequeue k = (q, some r)) : (start ⟨q, ts⟩ r).Tidy r where
  others := by
    obtain ⟨-, hqueue⟩ := dequeue_eq_some_iff.1 hdequeue
    obtain ⟨rest, -, hq⟩ := Queue.dequeue_eq_some_iff.1 hqueue
    have hlog : q.queue.log = p.queue.log := by rw [hq]
    refine ⟨?_, h.tasks⟩
    show ((r :: (q.queue.waiting ++ Crew.causes ts)).map _).Subperm q.queue.log
    have hperm := (Queue.waiting_of_dequeue hqueue).append_right (Crew.causes ts)
    rw [hlog]
    exact (hperm.map (fun r => r.job.id)).symm.subperm.trans h.ids
  rest := confined_runJob r

end Steps

/-! ## Watching a task of a crew -/

/-- The worker is a task of the crew, or was one, and so is everybody else. -/
structure Watches (r : Request) (b : Beside) (d : Crew) : Prop where
  pipeline : b.pipeline = d.pipeline
  tasks : d.tasks.Subperm (⟨some r, b.rest⟩ :: b.others.tasks)

section Watches

variable {r : Request} {b : Beside} {d d' : Crew} {cause : Option Request} {p : Pipeline}
  {us vs : List Task} {task : Task}

theorem Watches.worker_or_other (h : Watches r b ⟨p, us ++ task :: vs⟩) :
    (task = ⟨some r, b.rest⟩ ∧ (us ++ vs).Subperm b.others.tasks) ∨
      ∃ us' vs', b.others.tasks = us' ++ task :: vs' ∧
        (us ++ vs).Subperm (⟨some r, b.rest⟩ :: (us' ++ vs')) := by
  have htasks : (task :: (us ++ vs)).Subperm (⟨some r, b.rest⟩ :: b.others.tasks) :=
    List.perm_middle.symm.subperm.trans h.tasks
  rcases List.mem_cons.1 (htasks.subset List.mem_cons_self) with rfl | hother
  · exact .inl ⟨rfl, (List.subperm_cons _).1 htasks⟩
  · obtain ⟨us', vs', hsplit⟩ := List.append_of_mem hother
    have hperm : (⟨some r, b.rest⟩ :: (us' ++ task :: vs')).Perm
        (task :: ⟨some r, b.rest⟩ :: (us' ++ vs')) :=
      (List.perm_middle.cons _).trans (.swap _ _ _)
    rw [hsplit] at htasks
    exact .inr ⟨us', vs', hsplit, (List.subperm_cons _).1 (htasks.trans hperm.subperm)⟩

theorem Watches.step_other {q : Pipeline} {task' : Task} {us' vs' : List Task}
    (h : Watches r b ⟨p, us ++ task :: vs⟩) (hothers : b.others.tasks = us' ++ task :: vs')
    (hrest : (us ++ vs).Subperm (⟨some r, b.rest⟩ :: (us' ++ vs')))
    (habides : Crew.Abides ⟨p, us' ++ task :: vs'⟩ cause ⟨q, us' ++ task' :: vs'⟩) :
    ∃ b', Reached b b' ∧ Watches r b' ⟨q, us ++ task' :: vs⟩ := by
  obtain ⟨⟨p', ts⟩, w, queued⟩ := b
  obtain rfl := h.pipeline
  subst hothers
  refine ⟨_, .single (.others habides), rfl, ?_⟩
  have hperm : (task' :: ⟨some r, w⟩ :: (us' ++ vs')).Perm
      (⟨some r, w⟩ :: (us' ++ task' :: vs')) :=
    (List.Perm.swap _ _ _).trans (List.perm_middle.symm.cons _)
  exact List.perm_middle.subperm.trans
    (((List.subperm_cons task').2 hrest).trans hperm.subperm)

theorem Watches.step_join {q : Pipeline} (h : Watches r b d)
    (hstep : ∀ ts, Crew.Step ⟨d.pipeline, ts⟩ none ⟨q, task :: ts⟩) :
    ∃ b', Reached b b' ∧ Watches r b' ⟨q, task :: d.tasks⟩ := by
  obtain ⟨⟨p, ts⟩, w, queued⟩ := b
  obtain ⟨rfl, htasks⟩ := h
  have habides : Crew.Abides ⟨d.pipeline, ts⟩ none ⟨q, task :: ts⟩ :=
    ⟨hstep ts, fun hsame => absurd hsame (List.cons_ne_self _ _)⟩
  refine ⟨_, .single (.others habides), rfl, ?_⟩
  exact ((List.subperm_cons task).2 htasks).trans (List.Perm.swap _ _ _).subperm

theorem Watches.step (h : Watches r b d) (hstep : Crew.Abides d cause d') :
    ∃ b', Reached b b' ∧ Watches r b' d' := by
  obtain ⟨hstep, hothers⟩ := hstep
  cases hstep with
  | submitScan scanner input => exact h.step_join (fun _ => .submitScan scanner input)
  | submitObservation method source objects t =>
    exact h.step_join (fun _ => .submitObservation method source objects t)
  | take hdequeue => exact h.step_join (fun _ => .take hdequeue)
  | @call β p us vs cause act next =>
    rcases h.worker_or_other with ⟨hworker, hrest⟩ | ⟨us', vs', hother, hrest⟩
    · obtain ⟨⟨p', ts⟩, w, queued⟩ := b
      cases hworker
      cases h.pipeline
      exact ⟨_, .single .call, rfl, List.perm_middle.subperm.trans ((List.subperm_cons _).2 hrest)⟩
    · refine h.step_other hother hrest ⟨.call, fun hsame => hothers ?_⟩
      have htask := (List.cons.inj (List.append_cancel_left hsame)).1
      exact congrArg (fun task => us ++ task :: vs) htask
  | @evaluate p us vs cause changed t next memory clock answer =>
    rcases h.worker_or_other with ⟨hworker, hrest⟩ | ⟨us', vs', hother, hrest⟩
    · obtain ⟨⟨p', ts⟩, w, queued⟩ := b
      cases hworker
      cases h.pipeline
      exact ⟨_, .single (.evaluate memory clock answer), rfl,
        List.perm_middle.subperm.trans ((List.subperm_cons _).2 hrest)⟩
    · refine h.step_other hother hrest ⟨.evaluate memory clock answer, fun hsame => hothers ?_⟩
      have htask := (List.cons.inj (List.append_cancel_left hsame)).1
      exact congrArg (fun task => us ++ task :: vs) htask
  | @leave p us vs task =>
    have hsublist : (us ++ vs).Sublist (us ++ task :: vs) :=
      (List.Sublist.refl us).append (List.sublist_cons_self task vs)
    exact ⟨b, .refl, h.pipeline, hsublist.subperm.trans h.tasks⟩
  | @others p p' ts hlater hqueue =>
    obtain ⟨⟨q, us⟩, w, queued⟩ := b
    have hpipeline : q = p := h.pipeline
    subst q
    have habides : Crew.Abides ⟨p, us⟩ none ⟨p', us⟩ :=
      ⟨.others hlater hqueue, fun _ => hothers rfl⟩
    exact ⟨⟨⟨p', us⟩, w, queued⟩, .single (.others habides), rfl, h.tasks⟩

/-- Whatever becomes of a crew, one of whose workers has just taken a job, that worker can be
watched. -/
theorem exists_beside {p : Pipeline} {ts : List Task}
    (h : Crew.Abiding ⟨p, ⟨some r, Worker.runJob r⟩ :: ts⟩ d) :
    ∃ b, Reached (start ⟨p, ts⟩ r) b ∧ Watches r b d := by
  induction h with
  | refl => exact ⟨_, .refl, rfl, .refl _⟩
  | tail _ hstep ih =>
    obtain ⟨b, hreached, hwatches⟩ := ih
    obtain ⟨cause, hstep⟩ := hstep
    obtain ⟨b', hmore, hwatches'⟩ := hwatches.step hstep
    exact ⟨b', hreached.trans hmore, hwatches'⟩

end Watches

end Beside

/-! ## Following a routine -/

namespace Pipeline

/-- Nothing changed that the dispatch of a scan depends on. -/
structure Stable (id : Uuid) (p q : Pipeline) : Prop where
  constant : p.Constant q
  leaves : p.Leaves id q

section Stable

variable {p q s : Pipeline} {id : Uuid}

theorem Stable.refl (id : Uuid) (p : Pipeline) : p.Stable id p :=
  ⟨.refl p, .refl id p⟩

theorem Stable.trans (h : p.Stable id q) (h' : q.Stable id s) : p.Stable id s :=
  ⟨h.constant.trans h'.constant, h.leaves.trans h'.leaves⟩

theorem Stable.of_still (h : q.still = p.still) : p.Stable id q := by
  have hparts := h
  simp only [still, Prod.mk.injEq] at hparts
  obtain ⟨-, -, -, -, -, -, harchive, -, -⟩ := hparts
  exact ⟨.of_still h, .of_archive harchive⟩

theorem save_of_offline (change : Archive → Archive) (h : p.outages.archiveOffline = true) :
    save change p = (.error (.error (.internal "artifacts offline")), p) := by
  unfold save
  rw [Action.get_bind, if_pos h]
  rfl

end Stable

end Pipeline

namespace Routine

/-- Whatever others do that is stable, between any two calls of a routine `holds` is true of the
pipeline and of the jobs that its calls queued, and so is `post` from its end on. -/
def Tracks {α : Type} (id : Uuid) (holds : Pipeline → List Request → Prop)
    (post : Except Fault α → Pipeline → List Request → Prop) :
    Routine α → Pipeline → List Request → Prop
  | done x, p, queued => ∀ q, p.Stable id q → holds q queued ∧ post x q queued
  | call act next, p, queued => ∀ q, p.Stable id q → holds q queued ∧
      (next (act q).1).Tracks id holds post (act q).2
        (queued ++ q.queue.since (act q).2.queue)
  | evaluate _ _ next, p, queued => ∀ q answer, p.Stable id q → holds q queued ∧
      (next answer).Tracks id holds post q queued

/-- A call after which nothing changed that the dispatch of a scan depends on, nor was queued. -/
structure Quiet (id : Uuid) (p q : Pipeline) : Prop where
  stable : p.Stable id q
  lines : q.queue.ready = p.queue.ready

section Tracks

variable {α β : Type} {id : Uuid} {holds : Pipeline → List Request → Prop} {w : Routine α}
  {post : Except Fault α → Pipeline → List Request → Prop} {p q : Pipeline}
  {queued : List Request}

theorem Tracks.later (h : w.Tracks id holds post p queued) (hq : p.Stable id q) :
    w.Tracks id holds post q queued := by
  cases w with
  | done x => exact fun s hs => h s (hq.trans hs)
  | call act next => exact fun s hs => h s (hq.trans hs)
  | evaluate changed t next => exact fun s answer hs => h s answer (hq.trans hs)

theorem Tracks.now (h : w.Tracks id holds post p queued) : holds p queued := by
  cases w with
  | done x => exact (h p (.refl id p)).1
  | call act next => exact (h p (.refl id p)).1
  | evaluate changed t next => exact (h p (.ok []) (.refl id p)).1

theorem Tracks.imp {holds' : Pipeline → List Request → Prop}
    {post' : Except Fault α → Pipeline → List Request → Prop}
    (h : w.Tracks id holds post p queued) (hholds : ∀ q queued, holds q queued → holds' q queued)
    (hpost : ∀ x q queued, post x q queued → post' x q queued) :
    w.Tracks id holds' post' p queued := by
  induction w generalizing p queued with
  | done x => exact fun q hq => ⟨hholds _ _ (h q hq).1, hpost _ _ _ (h q hq).2⟩
  | call act next ih => exact fun q hq => ⟨hholds _ _ (h q hq).1, ih _ (h q hq).2⟩
  | evaluate changed t next ih =>
    exact fun q answer hq => ⟨hholds _ _ (h q answer hq).1, ih _ (h q answer hq).2⟩

theorem Tracks.bind {f : α → Routine β} {post' : Except Fault β → Pipeline → List Request → Prop}
    (h : w.Tracks id holds post p queued)
    (hok : ∀ a q queued, post (.ok a) q queued → (f a).Tracks id holds post' q queued)
    (herror : ∀ fault q queued, post (.error fault) q queued → post' (.error fault) q queued) :
    (w >>= f).Tracks id holds post' p queued := by
  rw [bind_def]
  induction w generalizing p queued with
  | done x =>
    cases x with
    | ok a => exact hok a p queued (h p (.refl id p)).2
    | error fault => exact fun q hq => ⟨(h q hq).1, herror fault q queued (h q hq).2⟩
  | call act next ih => exact fun q hq => ⟨(h q hq).1, ih _ (h q hq).2⟩
  | evaluate changed t next ih =>
    exact fun q answer hq => ⟨(h q answer hq).1, ih _ (h q answer hq).2⟩

section Uniform

variable {R : Pipeline → List Request → Prop}

theorem Tracks.outcome (h : w.Tracks id holds (fun _ => R) p queued) :
    w.outcome.Tracks id holds (fun _ => R) p queued := by
  induction w generalizing p queued with
  | done x => exact h
  | call act next ih => exact fun q hq => ⟨(h q hq).1, ih _ (h q hq).2⟩
  | evaluate changed t next ih =>
    exact fun q answer hq => ⟨(h q answer hq).1, ih _ (h q answer hq).2⟩

/-- What holds of quiet changes holds throughout a routine that makes no others. -/
theorem tracks_of_every (hclosed : ∀ p q queued, p.Stable id q → R p queued → R q queued)
    (hholds : ∀ p queued, R p queued → holds p queued) (h : w.Every (Quiet id))
    (hp : R p queued) : w.Tracks id holds (fun _ => R) p queued := by
  induction w generalizing p with
  | done x =>
    intro q hq
    have hR := hclosed _ _ _ hq hp
    exact ⟨hholds _ _ hR, hR⟩
  | call act next ih =>
    intro q hq
    have hR := hclosed _ _ _ hq hp
    refine ⟨hholds _ _ hR, ?_⟩
    rw [since_of_lines (h.1 q).lines, List.append_nil]
    exact ih _ (h.2 _) (hclosed _ _ _ (h.1 q).stable hR)
  | evaluate changed t next ih =>
    intro q answer hq
    have hR := hclosed _ _ _ hq hp
    exact ⟨hholds _ _ hR, ih answer (h answer) hR⟩

theorem Tracks.result (hclosed : ∀ p q queued, p.Stable id q → R p queued → R q queued)
    (hholds : ∀ p queued, R p queued → holds p queued)
    (h : w.Tracks id holds (fun _ => R) p queued) :
    w.result.Tracks id holds (fun _ => R) p queued := by
  refine h.outcome.bind (fun x q queued hq => ?_) (fun _ _ _ h => h)
  refine tracks_of_every hclosed hholds ?_ hq
  rcases x with (e | m) | a <;> trivial

theorem Tracks.ignoring {w : Routine Unit}
    (hclosed : ∀ p q queued, p.Stable id q → R p queued → R q queued)
    (hholds : ∀ p queued, R p queued → holds p queued)
    (h : w.Tracks id holds (fun _ => R) p queued) :
    w.ignoring.Tracks id holds (fun _ => R) p queued :=
  (h.result hclosed hholds).bind
    (fun _ _ _ hq => tracks_of_every hclosed hholds trivial hq) (fun _ _ _ h => h)

end Uniform

theorem quiet_of_still (h : q.still = p.still) : Quiet id p q := by
  refine ⟨.of_still h, ?_⟩
  simp only [still, Prod.mk.injEq] at h
  obtain ⟨-, -, -, -, -, hqueue, -⟩ := h
  exact congrArg Queue.ready hqueue

theorem quiet_once {act : Action α} (h : Action.Keeps still act) : (once act).Every (Quiet id) :=
  every_once (fun q => quiet_of_still (h q))

theorem quiet_settle (id job : Uuid) (status : JobResult) (p : Pipeline) :
    Quiet id p (p.settle job status) where
  stable := ⟨.settle p job status, .of_archive (archive_settle p job status)⟩
  lines := congrArg Journal.lines (journal_settle p job status)

/-- One call is tracked through whatever others do before it and after it. -/
theorem tracks_once {act : Action α}
    (h : ∀ q, p.Stable id q → holds q queued ∧
      ∀ s, (act q).2.Stable id s → holds s (queued ++ q.queue.since (act q).2.queue) ∧
        post (act q).1 s (queued ++ q.queue.since (act q).2.queue)) :
    (once act).Tracks id holds post p queued :=
  h

/-- After a call that only reads the clock, takes ids or publishes, a worker goes on with its
result. -/
theorem tracks_of_yields {act : Action α} {f : α → Routine β} {P : α → Prop}
    {post : Except Fault β → Pipeline → List Request → Prop}
    (hholds : ∀ q, p.Stable id q → holds q queued)
    (hact : ∀ q, p.Stable id q → Yields act q P)
    (hf : ∀ a q, p.Stable id q → P a → (f a).Tracks id holds post q queued) :
    (once act >>= f).Tracks id holds post p queued := by
  intro q hq
  refine ⟨hholds q hq, ?_⟩
  obtain ⟨a, s, hs, hstill, ha⟩ := hact q hq
  have hquiet : Quiet id q s := quiet_of_still hstill
  rw [hs, since_of_lines hquiet.lines, List.append_nil]
  exact hf a s (hq.trans hquiet.stable) ha

/-! ## Saving -/

/-- What one save comes to where others leave alone what belongs to the scan. -/
structure Saved (id : Uuid) (change : Archive → Archive) (p : Pipeline) (x : Except Fault Unit)
    (q : Pipeline) (queued : List Request) : Prop where
  none : queued = []
  constant : p.Constant q
  online : q.outages.archiveOffline = false → x = .ok ()
  saved : x = .ok () → ∃ s, p.Leaves id s ∧ Leaves id { s with archive := change s.archive } q

theorem tracks_save {holds : Pipeline → List Request → Prop} (hholds : ∀ q, holds q []) (id : Uuid)
    (change : Archive → Archive) (p : Pipeline) :
    (once (save change)).Tracks id holds (Saved id change p) p [] := by
  have hlines : ∀ {q s : Pipeline}, s.queue = q.queue → [] ++ q.queue.since s.queue = [] :=
    fun h => since_of_lines (congrArg Queue.ready h)
  refine tracks_once (fun q hq => ⟨hholds q, fun s hs => ?_⟩)
  by_cases hoffline : q.outages.archiveOffline = true
  · rw [save_of_offline change hoffline] at hs ⊢
    rw [hlines rfl]
    refine ⟨hholds s, rfl, hq.constant.trans hs.constant, fun honline => ?_, nofun⟩
    rw [hs.constant.outages, hoffline] at honline
    cases honline
  · rw [save_of_online change (Bool.eq_false_iff.2 hoffline)] at hs ⊢
    rw [hlines rfl]
    have hconstant : q.Constant { q with archive := change q.archive } := ⟨rfl, rfl, rfl, rfl⟩
    exact ⟨hholds s, rfl, hq.constant.trans (hconstant.trans hs.constant), fun _ => rfl,
      fun _ => ⟨q, hq.leaves, hs.leaves⟩⟩

end Tracks

end Routine

end ScanGraph
