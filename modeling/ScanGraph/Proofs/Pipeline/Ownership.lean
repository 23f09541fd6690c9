/-
What belongs to a job.

A worker keeps the scan that it ran and the evidence of it under the id of its own
job, and nobody else keeps anything of scans (`Confined`).  Every job that is queued
is put down in the log; as no job that waits or is worked on was taken from there
twice (`Tidy`), as long as no id was put down twice what a worker kept stays as it
was, whatever the crew does besides: `Tidy.step`.

## What is asked

Nobody but the tasks changes what the dispatch of a scan depends on (`Undisturbed`), the
jobs that wait at the beginning are in the log, and in the end the log has no
repetition.  The log has every job that was ever queued, so that this is what it means
for ids to be distinct.

## What is proved

A step of a tidy crew leaves it tidy, and what is kept of a given job stays as it is,
unless the step belongs to the dispatch of that job.  `Tidy.run` says the same of any
number of steps.

## What is not

Evidence and scans that are saved by hand are excluded by what is asked of others.  What
is kept under an id when two jobs have it is whatever was saved last.
-/
import ScanGraph.Proofs.Pipeline.Announcements
import ScanGraph.Proofs.Pipeline.Calls
import ScanGraph.Proofs.Pipeline.Crew

namespace ScanGraph

/-! ## Lists within lists -/

section Subperm

variable {α β : Type} {l l' : List α}

theorem subperm_map (f : α → β) (h : l.Subperm l') : (l.map f).Subperm (l'.map f) := by
  obtain ⟨m, hperm, hsublist⟩ := h
  exact ⟨m.map f, hperm.map f, hsublist.map f⟩

theorem nodup_of_subperm (h : l.Subperm l') (hnodup : l'.Nodup) : l.Nodup := by
  obtain ⟨m, hperm, hsublist⟩ := h
  exact hperm.nodup_iff.1 (hsublist.nodup hnodup)

end Subperm

namespace Pipeline

/-! ## What calls leave alone -/

/-- Plugins, policy, backend and services are those from before. -/
structure Constant (p q : Pipeline) : Prop where
  registry : q.registry = p.registry
  policy : q.policy = p.policy
  backend : q.backend = p.backend
  outages : q.outages = p.outages

/-- What is kept of a scan is what was kept of it before. -/
structure Leaves (id : Uuid) (p q : Pipeline) : Prop where
  scan : q.archive.scans.get? id = p.archive.scans.get? id
  evidence : q.archive.evidence.get? id = p.archive.evidence.get? id

/-- Jobs may be queued, and those that are queued are put down in the log. -/
structure Logs (p q : Pipeline) : Prop where
  lines : ∃ rs, q.queue.ready = (p.queue.enqueueAll rs).ready
  log : q.queue.log = p.queue.log ++ (p.queue.since q.queue).map (fun r => r.job.id)

/-- What a call may do that belongs to the dispatch of a request, or to none: of scans it keeps
nothing but what belongs to that request. -/
structure Confined (cause : Option Request) (p q : Pipeline) : Prop where
  constant : p.Constant q
  logs : p.Logs q
  leaves : ∀ id, (∀ r, cause = some r → r.job.id ≠ id) → p.Leaves id q

section Relations

variable {p q s : Pipeline} {id : Uuid} {cause : Option Request}

theorem Constant.refl (p : Pipeline) : p.Constant p :=
  ⟨rfl, rfl, rfl, rfl⟩

theorem Constant.trans (h : p.Constant q) (h' : q.Constant s) : p.Constant s :=
  ⟨h'.registry.trans h.registry, h'.policy.trans h.policy, h'.backend.trans h.backend,
    h'.outages.trans h.outages⟩

theorem Leaves.refl (id : Uuid) (p : Pipeline) : p.Leaves id p :=
  ⟨rfl, rfl⟩

theorem Leaves.trans (h : p.Leaves id q) (h' : q.Leaves id s) : p.Leaves id s :=
  ⟨h'.scan.trans h.scan, h'.evidence.trans h.evidence⟩

theorem Leaves.of_archive (h : q.archive = p.archive) : p.Leaves id q :=
  ⟨h ▸ rfl, h ▸ rfl⟩

theorem Logs.of_lines (hready : q.queue.ready = p.queue.ready) (hlog : q.queue.log = p.queue.log) :
    p.Logs q where
  lines := ⟨[], hready⟩
  log := by
    rw [since_of_lines hready, hlog]
    exact (List.append_nil _).symm

theorem Logs.waiting (h : p.Logs q) :
    q.queue.waiting.Perm (p.queue.waiting ++ p.queue.since q.queue) := by
  obtain ⟨rs, hlines⟩ := h.lines
  exact Queue.waiting_perm hlines

theorem Constant.of_still (h : q.still = p.still) : p.Constant q := by
  simp only [still, Prod.mk.injEq] at h
  obtain ⟨hregistry, hpolicy, hbackend, -, -, -, -, houtages, -⟩ := h
  exact ⟨hregistry, hpolicy, hbackend, houtages⟩

theorem Constant.settle (p : Pipeline) (id : Uuid) (status : JobResult) :
    p.Constant (p.settle id status) := by
  unfold Pipeline.settle
  cases settled p.queue id status <;> exact ⟨rfl, rfl, rfl, rfl⟩

theorem archive_settle (p : Pipeline) (id : Uuid) (status : JobResult) :
    (p.settle id status).archive = p.archive := by
  unfold Pipeline.settle
  cases settled p.queue id status <;> rfl

theorem Logs.log_prefix (h : p.Logs q) : p.queue.log <+: q.queue.log :=
  h.log ▸ List.prefix_append _ _

/-- Calls are confined unless they keep something of a scan. -/
instance : Writes (Confined cause) where
  still h := by
    have hparts := h
    simp only [Pipeline.still, Prod.mk.injEq] at hparts
    obtain ⟨-, -, -, -, -, hqueue, harchive, -, -⟩ := hparts
    exact ⟨.of_still h, .of_lines (congrArg Queue.ready hqueue) (congrArg Queue.log hqueue),
      fun _ _ => .of_archive harchive⟩
  enqueue p r := by
    refine ⟨⟨rfl, rfl, rfl, rfl⟩, ⟨⟨[r], rfl⟩, ?_⟩, fun _ _ => ⟨rfl, rfl⟩⟩
    rw [since_enqueue rfl]
    rfl
  saveJob p j hj := by
    refine ⟨⟨rfl, rfl, rfl, rfl⟩, .of_lines rfl rfl, fun id _ => ?_⟩
    cases j with
    | scan j => exact absurd rfl hj
    | normalize j => exact ⟨rfl, rfl⟩
    | derive j => exact ⟨rfl, rfl⟩
  settle p id status := by
    have hjournal := journal_settle p id status
    exact ⟨.settle p id status,
      .of_lines (congrArg Journal.lines hjournal) (congrArg Journal.log hjournal),
      fun _ _ => .of_archive (archive_settle p id status)⟩
  observe _ := ⟨⟨rfl, rfl, rfl, rfl⟩, .of_lines rfl rfl, fun _ _ => ⟨rfl, rfl⟩⟩

theorem confined_archives (r : Request) : Archives (Confined (some r)) r.job.id where
  scan p j hj := by
    refine ⟨⟨rfl, rfl, rfl, rfl⟩, .of_lines rfl rfl, fun id hid => ⟨?_, rfl⟩⟩
    exact Table.get?_insert_of_ne _ _ (fun heq => hid r rfl (hj.symm.trans heq.symm))
  evidence p e := by
    refine ⟨⟨rfl, rfl, rfl, rfl⟩, .of_lines rfl rfl, fun id hid => ⟨rfl, ?_⟩⟩
    exact Table.get?_insert_of_ne _ _ (fun heq => hid r rfl heq.symm)

theorem confined_runJob (r : Request) : (Worker.runJob r).Every (Confined (some r)) := by
  have hattempt : ∀ (p : Pipeline) (a : Attempt),
      Confined (some r) p { p with archive := p.archive.saveAttempt a } :=
    fun p _ => ⟨⟨rfl, rfl, rfl, rfl⟩, .of_lines rfl rfl, fun _ _ => ⟨rfl, rfl⟩⟩
  refine Worker.every_runJob (Worker.every_dispatch_of_archives hattempt (fun j hj => ?_))
  have hid : r.job.id = j.id := congrArg Job.id hj
  exact hid ▸ confined_archives r

end Relations

end Pipeline

open Pipeline

namespace Crew

/-! ## Crews -/

/-- Nobody but the tasks changes anything that dispatching a scan depends on. -/
structure Undisturbed (p q : Pipeline) : Prop where
  constant : p.Constant q
  leaves : ∀ id, p.Leaves id q

/-- A step of a crew in which nobody but the tasks changes anything that dispatching a scan depends
on. -/
structure Abides (c : Crew) (cause : Option Request) (c' : Crew) : Prop where
  step : Step c cause c'
  others : c'.tasks = c.tasks → Undisturbed c.pipeline c'.pipeline

/-- What a crew comes to by such steps. -/
def Abiding : Crew → Crew → Prop :=
  Relation.ReflTransGen (fun c c' => ∃ cause, Abides c cause c')

/-- The requests that are being dispatched. -/
def causes (ts : List Task) : List Request :=
  ts.filterMap Task.cause

/-- The given jobs, those that wait and those that are dispatched were put down in the log one by
one, and the tasks keep to their own. -/
structure Tidy (own : List Request) (c : Crew) : Prop where
  ids : ((own ++ (c.pipeline.queue.waiting ++ causes c.tasks)).map (fun r => r.job.id)).Subperm
    c.pipeline.queue.log
  tasks : ∀ task ∈ c.tasks, task.rest.Every (Confined task.cause)

/-- What a step of a tidy crew comes to. -/
structure Moves (own : List Request) (c c' : Crew) : Prop where
  tidy : c'.Tidy own
  constant : c.pipeline.Constant c'.pipeline
  log : c.pipeline.queue.log <+: c'.pipeline.queue.log
  leaves : c.pipeline.queue.log.Nodup → ∀ r ∈ own, c.pipeline.Leaves r.job.id c'.pipeline

section Steps

variable {own : List Request} {c c' : Crew} {cause : Option Request} {p q : Pipeline}
  {ts ts' : List Task}

theorem Tidy.move (h : Tidy own ⟨p, ts⟩) (hlogs : p.Logs q)
    (hcauses : (causes ts').Subperm (causes ts))
    (htasks : ∀ task ∈ ts', task.rest.Every (Confined task.cause)) : Tidy own ⟨q, ts'⟩ := by
  refine ⟨?_, htasks⟩
  show ((own ++ (q.queue.waiting ++ causes ts')).map _).Subperm q.queue.log
  have hperm : (own ++ (q.queue.waiting ++ causes ts)).Perm
      ((own ++ (p.queue.waiting ++ causes ts)) ++ p.queue.since q.queue) := by
    refine ((hlogs.waiting.append_right (causes ts)).append_left own).trans ?_
    rw [List.append_assoc own, List.append_assoc, List.append_assoc]
    exact ((List.perm_append_comm).append_left _).append_left _
  have hsub : (own ++ (q.queue.waiting ++ causes ts')).Subperm
      ((own ++ (p.queue.waiting ++ causes ts)) ++ p.queue.since q.queue) := by
    refine List.Subperm.trans ?_ hperm.subperm
    exact (List.subperm_append_left own).2 ((List.subperm_append_left _).2 hcauses)
  have hids := (List.subperm_append_right
    ((p.queue.since q.queue).map (fun r => r.job.id))).2 h.ids
  rw [← List.map_append] at hids
  rw [hlogs.log]
  exact (subperm_map _ hsub).trans hids

/-- Of a job that is dispatched the id differs from those of the given jobs. -/
theorem Tidy.ne_of_mem (h : c.Tidy own) (hids : c.pipeline.queue.log.Nodup) {r r' : Request}
    (hr : r ∈ own) (hr' : r' ∈ causes c.tasks) : r'.job.id ≠ r.job.id := by
  have hnodup := nodup_of_subperm h.ids hids
  rw [List.map_append, List.nodup_append] at hnodup
  refine (hnodup.2.2 _ (List.mem_map_of_mem hr) _ ?_).symm
  exact List.mem_map_of_mem (List.mem_append_right _ hr')

/-- Requests that are dispatched go on being dispatched when a task makes a call. -/
theorem causes_replaced (us vs : List Task) (cause : Option Request) (w w' : Routine Unit) :
    causes (us ++ ⟨cause, w⟩ :: vs) = causes (us ++ ⟨cause, w'⟩ :: vs) := by
  simp only [causes, List.filterMap_append]
  cases cause <;> rfl

theorem mem_causes {us vs : List Task} {r : Request} {w : Routine Unit} :
    r ∈ causes (us ++ ⟨some r, w⟩ :: vs) :=
  List.mem_filterMap.2 ⟨_, List.mem_append_right _ List.mem_cons_self, rfl⟩

/-- Where tasks come and go and nothing is called, nothing changes. -/
theorem Tidy.moves_of_tasks (h : Tidy own ⟨p, ts⟩) (hcauses : (causes ts').Subperm (causes ts))
    (htasks : ∀ task ∈ ts', task.rest.Every (Confined task.cause)) :
    Moves own ⟨p, ts⟩ ⟨p, ts'⟩ where
  tidy := h.move (.of_lines rfl rfl) hcauses htasks
  constant := ⟨rfl, rfl, rfl, rfl⟩
  log := List.prefix_rfl
  leaves _ _ _ := ⟨rfl, rfl⟩

theorem Tidy.moves_of_confined {us vs : List Task} {w w' : Routine Unit}
    (h : Tidy own ⟨p, us ++ ⟨cause, w⟩ :: vs⟩) (hcall : Confined cause p q)
    (hrest : w'.Every (Confined cause)) :
    Moves own ⟨p, us ++ ⟨cause, w⟩ :: vs⟩ ⟨q, us ++ ⟨cause, w'⟩ :: vs⟩ where
  tidy := by
    refine h.move hcall.logs (causes_replaced us vs cause w' w ▸ .refl _) (fun task htask => ?_)
    rcases mem_or_eq_of_replaced ⟨cause, w⟩ htask with hold | rfl
    · exact h.tasks task hold
    · exact hrest
  constant := hcall.constant
  log := hcall.logs.log_prefix
  leaves hids r hr := by
    refine hcall.leaves r.job.id (fun r' hr' => ?_)
    subst hr'
    exact h.ne_of_mem hids hr mem_causes

theorem Tidy.moves_of_dequeue {k : JobKind} {r : Request} (h : Tidy own ⟨p, ts⟩)
    (hdequeue : p.dequeue k = (q, some r)) :
    Moves own ⟨p, ts⟩ ⟨q, ⟨some r, Worker.runJob r⟩ :: ts⟩ := by
  obtain ⟨hpipeline, hqueue⟩ := dequeue_eq_some_iff.1 hdequeue
  obtain ⟨rest, -, hq⟩ := Queue.dequeue_eq_some_iff.1 hqueue
  have hlog : q.queue.log = p.queue.log := by rw [hq]
  refine ⟨⟨?_, List.forall_mem_cons.2 ⟨confined_runJob r, h.tasks⟩⟩, ?_, hlog ▸ List.prefix_rfl, ?_⟩
  · have hperm : (own ++ (p.queue.waiting ++ causes ts)).Perm
        (own ++ (q.queue.waiting ++ r :: causes ts)) := by
      refine List.Perm.append_left own ?_
      exact ((Queue.waiting_of_dequeue hqueue).append_right _).trans List.perm_middle.symm
    show ((own ++ (q.queue.waiting ++ r :: causes ts)).map _).Subperm q.queue.log
    rw [hlog]
    exact (hperm.map (fun r => r.job.id)).symm.subperm.trans h.ids
  · rw [hpipeline]
    exact ⟨rfl, rfl, rfl, rfl⟩
  · intro _ _ _
    rw [hpipeline]
    exact ⟨rfl, rfl⟩

/-- Whatever the step, a crew stays tidy, and what is kept of the given jobs is left alone. -/
theorem Tidy.step (h : c.Tidy own) (hstep : Abides c cause c') : Moves own c c' := by
  obtain ⟨hstep, hothers⟩ := hstep
  cases hstep with
  | submitScan scanner input =>
    refine h.moves_of_tasks (.refl _) (List.forall_mem_cons.2 ⟨?_, h.tasks⟩)
    exact (Worker.every_submitScan scanner input).bind (fun _ => trivial)
  | submitObservation method source objects t =>
    refine h.moves_of_tasks (.refl _) (List.forall_mem_cons.2 ⟨?_, h.tasks⟩)
    exact (Worker.every_submitObservation method source objects t).bind (fun _ => trivial)
  | take hdequeue => exact h.moves_of_dequeue hdequeue
  | @call β p us vs cause act next =>
    have hcalls := h.tasks ⟨cause, .call act next⟩ (List.mem_append_right _ List.mem_cons_self)
    exact h.moves_of_confined (hcalls.1 p) (hcalls.2 _)
  | @evaluate p us vs cause changed t next memory clock answer =>
    have hcalls := h.tasks ⟨cause, .evaluate changed t next⟩
      (List.mem_append_right _ List.mem_cons_self)
    refine h.moves_of_confined ?_ (hcalls answer)
    exact ⟨⟨rfl, rfl, rfl, rfl⟩, .of_lines rfl rfl, fun _ _ => ⟨rfl, rfl⟩⟩
  | @leave p us vs task =>
    have hsublist : (us ++ vs).Sublist (us ++ task :: vs) :=
      (List.Sublist.refl us).append (List.sublist_cons_self task vs)
    exact h.moves_of_tasks (hsublist.filterMap _).subperm
      (fun task' htask' => h.tasks task' (hsublist.subset htask'))
  | @others p p' ts hlater hqueue =>
    obtain ⟨hconstant, hleaves⟩ := hothers rfl
    have hlogs : p.Logs p' := .of_lines (congrArg Queue.ready hqueue) (congrArg Queue.log hqueue)
    exact ⟨h.move hlogs (.refl _) h.tasks, hconstant, hlogs.log_prefix, fun _ r _ => hleaves _⟩

theorem Tidy.run (h : c.Tidy own) (hrun : Abiding c c') :
    c'.Tidy own ∧ c.pipeline.Constant c'.pipeline := by
  induction hrun with
  | refl => exact ⟨h, .refl _⟩
  | tail _ hstep ih =>
    obtain ⟨htidy, hconstant⟩ := ih
    obtain ⟨cause, hstep⟩ := hstep
    have hmoves := htidy.step hstep
    exact ⟨hmoves.tidy, hconstant.trans hmoves.constant⟩

end Steps

end Crew

end ScanGraph
