/-
Crews: workers and callers at one pipeline.

Any number of workers and callers go through their routines at once, one call of
one of them at a time, while others use the services besides them.  Whatever the
order of the calls, every derive job that is queued knows the chain that led to
it, and every job that is queued while another one is dispatched is one that this
one may lead to: `enqueued_expected`.  Draining and submitting without
interruption are runs of a crew, in which nobody exchanges the plugins or takes
anything out of the archive: `within_drain`, `within_submitScan`,
`within_submitObservation`.

## What is asked

The depth at which chains end is less than the greatest number of 32 bits, so that a
depth can be counted on by one, and the derive jobs that wait at the beginning know
their chains.  Nothing is asked of plugins, store, services or of what the others do.

## What is proved

In every step of every run: what waits was there before or was queued in the step; what
was queued in it knows its chain, is as long as its depth says, no longer than the
policy allows and without repetition; and it is one that the dispatched job may lead to,
with its correlation.  So no chain goes round, and no derive job is deeper than the
policy says.

## What is not

That a run comes to an end, which with automatic scans it need not; without them,
draining is `Pipeline.Draining`.  Nor that a job which may be queued is queued:
`Expected` is a bound from above.
-/
import ScanGraph.Proofs.Pipeline.Clearance
import ScanGraph.Proofs.Pipeline.Discipline

namespace ScanGraph

/-- A derive job knows its chain: as long as its depth says, no longer than the policy allows, and
never through the same rule and root twice. -/
def Request.Sound (maxDepth : UInt32) (r : Request) : Prop :=
  ∀ j, r.job = .derive j →
    j.depth.toNat = j.lineage.length ∧ j.depth ≤ maxDepth ∧ j.lineage.Nodup

namespace Pipeline

/-- What may be queued while a request is dispatched, or by a submission, as long as the derive jobs
know their chains. -/
def Allowed (cause : Option Request) (p : Pipeline) (r : Request) : Prop :=
  r.Sound p.policy.derivation.maxDepth ∧ Expected cause p r

/-- Some jobs are queued, each of which is allowed; others may be settled. -/
def Serves (rely : Pipeline → Pipeline → Prop) (allowed : Pipeline → Request → Prop)
    (p q : Pipeline) : Prop :=
  rely p q ∧ ∃ rs, q.queue.ready = (p.queue.enqueueAll rs).ready ∧ ∀ r ∈ rs, allowed q r

section Serves

open Routine

variable {rely : Pipeline → Pipeline → Prop} {allowed allowed' : Pipeline → Request → Prop}
  {p q : Pipeline} {r : Request}

theorem Serves.within (p q : Pipeline) (h : Serves rely allowed p q) : rely p q :=
  h.1

theorem Serves.of_ready (hrely : rely p q) (hready : q.queue.ready = p.queue.ready) :
    Serves rely allowed p q :=
  ⟨hrely, [], hready, fun _ hr => absurd hr List.not_mem_nil⟩

theorem Queues.serves (h : Queues rely allowed p q) (hallowed : ∀ r, allowed q r → allowed' q r) :
    Serves rely allowed' p q := by
  obtain ⟨hrely, rs, hqueue, hrs⟩ := h
  exact ⟨hrely, rs, congrArg Queue.ready hqueue, fun r hr => hallowed r (hrs r hr)⟩

variable [Rely rely]

/-- A routine that queues what is expected serves, where what is expected later is allowed. -/
theorem serves_of_queues {α : Type} {w : Routine α} {post : α → Pipeline → Prop}
    (h : w.Obeys rely (Queues rely allowed) post p)
    (hallowed : ∀ s r, rely p s → allowed s r → allowed' s r) :
    w.Obeys rely (Serves rely allowed') (fun _ _ => True) p := by
  refine h.imp Queues.within (fun q s hq hstep => ?_) (fun _ _ _ => trivial)
  exact hstep.serves (fun r => hallowed s r (Rely.trans hq hstep.1))

theorem serves_runJob
    (hdispatch : (Worker.dispatch r).Obeys rely (Serves rely allowed) (fun _ _ => True) p) :
    (Worker.runJob r).Obeys rely (Serves rely allowed) (fun _ _ => True) p := by
  refine hdispatch.outcome.bind Serves.within (fun found q _ _ => ?_)
  have hsettle : (once (modify (fun s : Pipeline => s.settle r.job.id (resultOf found)))).Obeys
      rely (Serves rely allowed) (fun _ _ => True) q := by
    refine obeys_once (fun s _ => ?_) (fun _ _ _ _ _ => trivial)
    exact .of_ready (rely_settle s _ _) (ready_settle s _ _)
  refine hsettle.bind Serves.within (fun _ s _ _ => ?_)
  refine obeys_once (fun s' _ => ?_) (fun _ _ _ _ _ => trivial)
  exact (Queues.of_core (steady_core.publish _ _ s')).serves (fun _ h => h)

theorem serves_discard {α : Type} {w : Routine α}
    (h : w.Obeys rely (Serves rely allowed) (fun _ _ => True) p) :
    (discard w).Obeys rely (Serves rely allowed) (fun _ _ => True) p :=
  h.bind Serves.within (fun _ _ _ _ => trivial)

end Serves

end Pipeline

open Pipeline

/-- A worker or a caller: the request that it dispatches, if it does, and what is left to do. -/
structure Task where
  cause : Option Request
  rest : Routine Unit

/-- A pipeline and who is at work there. -/
structure Crew where
  pipeline : Pipeline
  tasks : List Task

namespace Crew

/-- One call of one task, or a change of who is at work, with the request that the call belongs to
the dispatch of. -/
inductive Step : Crew → Option Request → Crew → Prop
  | submitScan {p : Pipeline} {ts : List Task} (scanner : String) (input : Reference) :
      Step ⟨p, ts⟩ none ⟨p, ⟨none, discard (Worker.submitScan scanner input)⟩ :: ts⟩
  | submitObservation {p : Pipeline} {ts : List Task} (method : String) (source : Reference)
      (objects : List Snapshot) (t : Instant) :
      Step ⟨p, ts⟩ none
        ⟨p, ⟨none, discard (Worker.submitObservation method source objects t)⟩ :: ts⟩
  /-- A worker, or someone who drains the queue, takes a job. -/
  | take {p p' : Pipeline} {ts : List Task} {k : JobKind} {r : Request} :
      p.dequeue k = (p', some r) → Step ⟨p, ts⟩ none ⟨p', ⟨some r, Worker.runJob r⟩ :: ts⟩
  | call {β : Type} {p : Pipeline} {us vs : List Task} {cause : Option Request} {act : Action β}
      {next : Except Fault β → Routine Unit} :
      Step ⟨p, us ++ ⟨cause, .call act next⟩ :: vs⟩ cause
        ⟨(act p).2, us ++ ⟨cause, next (act p).1⟩ :: vs⟩
  /-- Rules are evaluated, on whatever the store answered meanwhile. -/
  | evaluate {p : Pipeline} {us vs : List Task} {cause : Option Request} {changed : Reference}
      {t : Instant} {next : Except Fault (List RuleOutcome) → Routine Unit} (memory : Memory)
      (clock : Nat) (answer : Except Fault (List RuleOutcome)) :
      Step ⟨p, us ++ ⟨cause, .evaluate changed t next⟩ :: vs⟩ cause
        ⟨{ p with memory, clock }, us ++ ⟨cause, next answer⟩ :: vs⟩
  /-- A task is over or is given up. -/
  | leave {p : Pipeline} {us vs : List Task} {task : Task} :
      Step ⟨p, us ++ task :: vs⟩ none ⟨p, us ++ vs⟩
  /-- Something else happens, which leaves the policy and the queue alone. -/
  | others {p p' : Pipeline} {ts : List Task} :
      p.Later p' → p'.queue = p.queue → Step ⟨p, ts⟩ none ⟨p', ts⟩

/-- What a crew comes to by any number of steps. -/
def Reached : Crew → Crew → Prop :=
  Relation.ReflTransGen (fun c c' => ∃ cause, Step c cause c')

/-- A step in which nobody exchanges the plugins. -/
structure Keeps (c : Crew) (cause : Option Request) (c' : Crew) : Prop where
  step : Step c cause c'
  registry : c'.pipeline.registry = c.pipeline.registry

/-- What a crew comes to by steps in which nobody exchanges the plugins. -/
def Kept : Crew → Crew → Prop :=
  Relation.ReflTransGen (fun c c' => ∃ cause, Keeps c cause c')

/-- What a crew comes to by steps that stay within a relation. -/
def Within (rely : Pipeline → Pipeline → Prop) : Crew → Crew → Prop :=
  Relation.ReflTransGen
    (fun c c' => ∃ cause, Step c cause c' ∧ rely c.pipeline c'.pipeline)

theorem step_first {β : Type} {p : Pipeline} {ts : List Task} {cause : Option Request}
    {act : Action β} {next : Except Fault β → Routine Unit} :
    Step ⟨p, ⟨cause, .call act next⟩ :: ts⟩ cause
      ⟨(act p).2, ⟨cause, next (act p).1⟩ :: ts⟩ := by
  have hstep : Step ⟨p, [] ++ ⟨cause, .call act next⟩ :: ts⟩ cause
      ⟨(act p).2, [] ++ ⟨cause, next (act p).1⟩ :: ts⟩ := .call
  exact hstep

theorem evaluate_first {p : Pipeline} {ts : List Task} {cause : Option Request}
    {changed : Reference} {t : Instant} {next : Except Fault (List RuleOutcome) → Routine Unit}
    (memory : Memory) (clock : Nat) (answer : Except Fault (List RuleOutcome)) :
    Step ⟨p, ⟨cause, .evaluate changed t next⟩ :: ts⟩ cause
      ⟨{ p with memory, clock }, ⟨cause, next answer⟩ :: ts⟩ := by
  have hstep : Step ⟨p, [] ++ ⟨cause, .evaluate changed t next⟩ :: ts⟩ cause
      ⟨{ p with memory, clock }, [] ++ ⟨cause, next answer⟩ :: ts⟩ := .evaluate memory clock answer
  exact hstep

/-! ## Tasks serve -/

/-- What waits after a step waited before or was queued in it. -/
def Accounted (q q' : Queue) : Prop :=
  ∀ r ∈ q'.waiting, r ∈ q.waiting ∨ r ∈ q.since q'

def Serving (rely : Pipeline → Pipeline → Prop)
    (allowed : Option Request → Pipeline → Request → Prop) (p : Pipeline) (task : Task) : Prop :=
  task.rest.Obeys rely (Serves rely (allowed task.cause)) (fun _ _ => True) p

/-- What a step of a crew whose tasks serve comes to. -/
structure Advances (rely : Pipeline → Pipeline → Prop)
    (allowed : Option Request → Pipeline → Request → Prop) (c : Crew) (cause : Option Request)
    (c' : Crew) : Prop where
  within : rely c.pipeline c'.pipeline
  tasks : ∀ task ∈ c'.tasks, Serving rely allowed c'.pipeline task
  accounted : Accounted c.pipeline.queue c'.pipeline.queue
  allowed : ∀ r ∈ c.pipeline.queue.since c'.pipeline.queue, allowed cause c'.pipeline r

/-- The tasks are those before but for the one that was replaced. -/
theorem mem_or_eq_of_replaced {us vs : List Task} {new task : Task} (old : Task)
    (h : task ∈ us ++ new :: vs) : task ∈ us ++ old :: vs ∨ task = new := by
  simp only [List.mem_append, List.mem_cons] at h ⊢
  rcases h with h | h | h
  · exact .inl (.inl h)
  · exact .inr h
  · exact .inl (.inr (.inr h))

section Serving

variable {rely : Pipeline → Pipeline → Prop} [Rely rely]
  {allowed : Option Request → Pipeline → Request → Prop} {c c' : Crew} {cause : Option Request}

omit [Rely rely] in
theorem serving_of_joined {p : Pipeline} {ts : List Task} {new : Task}
    (h : Serving rely allowed p new) :
    ∀ task ∈ new :: ts, task ∈ ts ∨ Serving rely allowed p task := by
  intro task htask
  rcases List.mem_cons.1 htask with rfl | htask
  · exact .inr h
  · exact .inl htask

omit [Rely rely] in
theorem serving_of_replaced {p : Pipeline} {us vs : List Task} {old new : Task}
    (h : Serving rely allowed p new) :
    ∀ task ∈ us ++ new :: vs, task ∈ us ++ old :: vs ∨ Serving rely allowed p task := by
  intro task htask
  rcases mem_or_eq_of_replaced old htask with hold | rfl
  · exact .inl hold
  · exact .inr h

theorem serving_tasks {p q : Pipeline} {ts ts' : List Task}
    (h : ∀ task ∈ ts, Serving rely allowed p task) (hrely : rely p q)
    (htasks : ∀ task ∈ ts', task ∈ ts ∨ Serving rely allowed q task) :
    ∀ task ∈ ts', Serving rely allowed q task := by
  intro task htask
  rcases htasks task htask with hold | hserving
  · exact (h task hold).later hrely (fun _ _ => trivial)
  · exact hserving

/-- A crew whose pipeline served: the lines tell what was queued. -/
theorem advances_of_serves (h : ∀ task ∈ c.tasks, Serving rely allowed c.pipeline task)
    (hserves : Serves rely (allowed cause) c.pipeline c'.pipeline)
    (htasks : ∀ task ∈ c'.tasks, task ∈ c.tasks ∨ Serving rely allowed c'.pipeline task) :
    Advances rely allowed c cause c' := by
  obtain ⟨hrely, rs, hready, hrs⟩ := hserves
  refine ⟨hrely, serving_tasks h hrely htasks, fun r hr => ?_, fun r hr => ?_⟩
  · exact List.mem_append.1 ((Queue.waiting_perm hready).mem_iff.1 hr)
  · exact hrs r ((Queue.mem_since_iff hready).1 hr)

theorem advances_of_dequeue {p p' : Pipeline} {ts : List Task} {k : JobKind} {r : Request}
    (h : ∀ task ∈ ts, Serving rely allowed p task) (hdequeue : p.dequeue k = (p', some r))
    (hwork : ∀ q, rely p q → Serving rely allowed q ⟨some r, Worker.runJob r⟩) :
    Advances rely allowed ⟨p, ts⟩ none ⟨p', ⟨some r, Worker.runJob r⟩ :: ts⟩ := by
  obtain ⟨hpipeline, hqueue⟩ := dequeue_eq_some_iff.1 hdequeue
  have hrely : rely p p' := by
    rw [hpipeline]
    exact Rely.of_stays ⟨⟨rfl, .refl⟩, rfl⟩ (.refl _)
  have htasks := serving_tasks h hrely (serving_of_joined (hwork p' hrely))
  refine ⟨hrely, htasks, fun r' hr' => ?_, ?_⟩
  · exact .inl ((Queue.waiting_of_dequeue hqueue).mem_iff.2 (List.mem_cons_of_mem _ hr'))
  · show ∀ r' ∈ p.queue.since p'.queue, allowed none p' r'
    rw [Queue.since_of_dequeue hqueue]
    exact fun r' hr' => absurd hr' List.not_mem_nil

/-- Where submissions serve, and workers do with the jobs that wait, every task does after a step
as before, and what is queued in the step is allowed. -/
theorem Step.advances (hstep : Step c cause c')
    (htasks : ∀ task ∈ c.tasks, Serving rely allowed c.pipeline task)
    (hscan : ∀ p scanner input,
      Serving rely allowed p ⟨none, discard (Worker.submitScan scanner input)⟩)
    (hobservation : ∀ p method source objects t,
      Serving rely allowed p ⟨none, discard (Worker.submitObservation method source objects t)⟩)
    (hwork : ∀ r ∈ c.pipeline.queue.waiting, ∀ q, rely c.pipeline q →
      Serving rely allowed q ⟨some r, Worker.runJob r⟩)
    (hothers : c'.tasks = c.tasks → c.pipeline.Later c'.pipeline →
      rely c.pipeline c'.pipeline) :
    Advances rely allowed c cause c' := by
  cases hstep with
  | @submitScan p ts scanner input =>
    exact advances_of_serves htasks (.of_ready (Rely.refl p) rfl)
      (serving_of_joined (hscan p scanner input))
  | @submitObservation p ts method source objects t =>
    exact advances_of_serves htasks (.of_ready (Rely.refl p) rfl)
      (serving_of_joined (hobservation p method source objects t))
  | @take p p' ts k r hdequeue =>
    have hwaits : r ∈ p.queue.waiting :=
      (Queue.waiting_of_dequeue (dequeue_eq_some_iff.1 hdequeue).2).mem_iff.2 List.mem_cons_self
    exact advances_of_dequeue htasks hdequeue (hwork r hwaits)
  | @call β p us vs cause act next =>
    have hmem : (⟨cause, .call act next⟩ : Task) ∈ us ++ ⟨cause, .call act next⟩ :: vs :=
      List.mem_append_right _ List.mem_cons_self
    obtain ⟨hserves, hnext⟩ := htasks _ hmem p (Rely.refl p)
    exact advances_of_serves htasks hserves (serving_of_replaced hnext)
  | @evaluate p us vs cause changed t next memory clock answer =>
    have hmem : (⟨cause, .evaluate changed t next⟩ : Task) ∈
        us ++ ⟨cause, .evaluate changed t next⟩ :: vs :=
      List.mem_append_right _ List.mem_cons_self
    have hrely : rely p { p with memory, clock } := Rely.of_stays ⟨⟨rfl, .refl⟩, rfl⟩ (.refl _)
    have hnext := htasks _ hmem { p with memory, clock } answer hrely
    exact advances_of_serves htasks (.of_ready hrely rfl) (serving_of_replaced hnext)
  | @leave p us vs task =>
    refine advances_of_serves htasks (.of_ready (Rely.refl p) rfl) (fun task' htask' => .inl ?_)
    rcases List.mem_append.1 htask' with htask' | htask'
    · exact List.mem_append_left _ htask'
    · exact List.mem_append_right _ (List.mem_cons_of_mem _ htask')
  | others hlater hqueue =>
    exact advances_of_serves htasks (.of_ready (hothers rfl hlater) (congrArg Queue.ready hqueue))
      (fun _ htask => .inl htask)

/-! ### What is due -/

theorem serving_scan (p : Pipeline) (scanner : String) (input : Reference) :
    Serving rely (Due rely) p ⟨none, discard (Worker.submitScan scanner input)⟩ :=
  serves_discard (serves_of_queues (Worker.obeys_submitScan scanner input) (fun _ _ _ hr => hr))

theorem serving_observation (p : Pipeline) (method : String) (source : Reference)
    (objects : List Snapshot) (t : Instant) :
    Serving rely (Due rely) p ⟨none, discard (Worker.submitObservation method source objects t)⟩ :=
  serves_discard (serves_of_queues (Worker.obeys_submitObservation method source objects t)
    (fun _ _ _ hr => hr))

theorem serving_work (p : Pipeline) (r : Request) :
    Serving rely (Due rely) p ⟨some r, Worker.runJob r⟩ :=
  serves_runJob (serves_of_queues (Worker.obeys_dispatch r p) (fun _ _ _ hr => hr))

/-- Where the tasks queue what is due, every task does after a step as before, and so does the
step. -/
theorem Keeps.advances (h : Keeps c cause c')
    (htasks : ∀ task ∈ c.tasks, Serving Stays (Due Stays) c.pipeline task) :
    Advances Stays (Due Stays) c cause c' :=
  h.step.advances htasks serving_scan serving_observation (fun r _ q _ => serving_work q r)
    (fun _ hlater => ⟨hlater, h.registry⟩)

theorem Kept.serving (h : Kept c c')
    (htasks : ∀ task ∈ c.tasks, Serving Stays (Due Stays) c.pipeline task) :
    (∀ task ∈ c'.tasks, Serving Stays (Due Stays) c'.pipeline task) ∧
      c'.pipeline.registry = c.pipeline.registry := by
  induction h with
  | refl => exact ⟨htasks, rfl⟩
  | tail _ hstep ih =>
    obtain ⟨hserving, hregistry⟩ := ih
    obtain ⟨cause, hstep⟩ := hstep
    exact ⟨(hstep.advances hserving).tasks, hstep.registry.trans hregistry⟩

end Serving

/-! ## Derive jobs know their chains -/

section Chains

open Routine

variable {p : Pipeline} {r : Request}

theorem sound_of_expected_none (h : Expected none p r) (maxDepth : UInt32) : r.Sound maxDepth := by
  intro j hj
  obtain ⟨hdepth, hlineage⟩ := h j hj
  rw [hdepth, hlineage]
  exact ⟨rfl, UInt32.zero_le, List.nodup_nil⟩

theorem sound_of_expected {c : Request} (hc : c.Sound p.policy.derivation.maxDepth)
    (hmax : p.policy.derivation.maxDepth.toNat + 1 < UInt32.size) (h : Expected (some c) p r) :
    r.Sound p.policy.derivation.maxDepth := by
  intro j' hj'
  obtain ⟨-, hleads⟩ := h
  rw [hj'] at hleads
  generalize hjob : c.job = job at hleads
  cases hleads with
  | derive hdepth hlineage =>
    rw [hdepth, hlineage]
    exact ⟨rfl, UInt32.zero_le, List.nodup_nil⟩
  | @followUp j j' rule root objects hvisit hle hdepth hlineage htook =>
    obtain ⟨hlength, hbound, hnodup⟩ := hc j hjob
    have hnext : (j.depth + 1).toNat = j.depth.toNat + 1 := toNat_succ_of_le hbound hmax
    refine ⟨?_, hdepth ▸ hle, ?_⟩
    · rw [hdepth, hlineage, hnext, hlength, List.length_append, List.length_singleton]
    · rw [hlineage]
      exact List.nodup_append.2 ⟨hnodup, List.pairwise_singleton _ _, fun v hv w hw => by
        rw [List.mem_singleton.1 hw]
        exact fun heq => hvisit (heq ▸ hv)⟩

theorem chains_submission {α : Type} {w : Routine α}
    (h : w.Obeys Later (Queues Later (Due Later none)) (fun _ _ => True) p) :
    Serving Later Allowed p ⟨none, discard w⟩ :=
  serves_discard (serves_of_queues h (fun s _ _ hr =>
    ⟨sound_of_expected_none hr.1 s.policy.derivation.maxDepth, hr.1⟩))

/-- A worker that runs a job which knows its chain makes it longer. -/
theorem chains_work (hr : r.Sound p.policy.derivation.maxDepth)
    (hmax : p.policy.derivation.maxDepth.toNat + 1 < UInt32.size) :
    Serving Later Allowed p ⟨some r, Worker.runJob r⟩ := by
  refine serves_runJob (serves_of_queues (Worker.obeys_dispatch r p) (fun s r' hs hr' => ?_))
  rw [← hs.policy] at hr hmax
  exact ⟨sound_of_expected hr hmax hr'.1, hr'.1⟩

/-- The derive jobs that wait know their chains, and the tasks serve. -/
structure Orderly (c : Crew) : Prop where
  waiting : ∀ r ∈ c.pipeline.queue.waiting, r.Sound c.pipeline.policy.derivation.maxDepth
  tasks : ∀ task ∈ c.tasks, Serving Later Allowed c.pipeline task

variable {c c' : Crew} {cause : Option Request}

theorem Orderly.advances (h : c.Orderly)
    (hmax : c.pipeline.policy.derivation.maxDepth.toNat + 1 < UInt32.size)
    (hstep : Step c cause c') : Advances Later Allowed c cause c' := by
  refine hstep.advances h.tasks (fun _ _ _ => chains_submission (Worker.obeys_submitScan _ _))
    (fun _ _ _ _ _ => chains_submission (Worker.obeys_submitObservation _ _ _ _))
    (fun r hr q hq => ?_) (fun _ hlater => hlater)
  exact chains_work (hq.policy ▸ h.waiting r hr) (hq.policy ▸ hmax)

theorem Orderly.step (h : c.Orderly)
    (hmax : c.pipeline.policy.derivation.maxDepth.toNat + 1 < UInt32.size)
    (hstep : Step c cause c') : c'.Orderly := by
  obtain ⟨hlater, htasks, haccounted, hallowed⟩ := h.advances hmax hstep
  refine ⟨fun r hr => ?_, htasks⟩
  rcases haccounted r hr with hold | hnew
  · exact hlater.policy ▸ h.waiting r hold
  · exact (hallowed r hnew).1

theorem Orderly.reached (h : c.Orderly)
    (hmax : c.pipeline.policy.derivation.maxDepth.toNat + 1 < UInt32.size) (hrun : Reached c c') :
    c'.Orderly ∧ c.pipeline.Later c'.pipeline := by
  induction hrun with
  | refl => exact ⟨h, .refl _⟩
  | tail _ hstep ih =>
    obtain ⟨horderly, hlater⟩ := ih
    obtain ⟨cause, hstep⟩ := hstep
    have hmax' := hlater.policy.symm ▸ hmax
    exact ⟨horderly.step hmax' hstep, hlater.trans (horderly.advances hmax' hstep).within⟩

end Chains

/-- From a pipeline whose derive jobs know their chains, whoever submits, drains and works there in
whatever order, every job that is queued in a step is one that the dispatched job may lead to, with
its correlation, and the derive jobs among them know their chains. -/
theorem enqueued_expected {p : Pipeline}
    (hmax : p.policy.derivation.maxDepth.toNat + 1 < UInt32.size)
    (hstart : ∀ r ∈ p.queue.waiting, r.Sound p.policy.derivation.maxDepth) {c c' : Crew}
    {cause : Option Request} (hrun : Reached ⟨p, []⟩ c) (hstep : Step c cause c') :
    Accounted c.pipeline.queue c'.pipeline.queue ∧
      ∀ r ∈ c.pipeline.queue.since c'.pipeline.queue,
        r.Sound p.policy.derivation.maxDepth ∧ Expected cause c'.pipeline r := by
  have horderly : Orderly ⟨p, []⟩ := ⟨hstart, fun task htask => absurd htask List.not_mem_nil⟩
  obtain ⟨hreached, hlater⟩ := horderly.reached hmax hrun
  obtain ⟨hmore, -, haccounted, hallowed⟩ := hreached.advances (hlater.policy.symm ▸ hmax) hstep
  refine ⟨haccounted, fun r hr => ?_⟩
  obtain ⟨hsound, hexpected⟩ := hallowed r hr
  rw [hmore.policy, hlater.policy] at hsound
  exact ⟨hsound, hexpected⟩

namespace Submitted

/-- A pipeline whose store holds a network. -/
def start : Pipeline :=
  ofStore (Store.holding [.network "internet"] (.ofSecond 100))

def submission : Routine Unit :=
  discard (Worker.submitObservation "manual" (Entity.network "internet").reference
    [.ofEntity (.network "intranet")] (.ofSecond 200))

/-- The derive job that this leads to. -/
def job : DeriveJob :=
  .ofCommit (.ofNat 1) (.of .created (Entity.network "intranet").reference (.ofSecond 200))

def request : Request :=
  ⟨.derive job, default, some (.ofNat 0)⟩

/-- A pipeline in which the network is stored and the job waits. -/
def waiting : Pipeline :=
  { ofStore (Store.holding [.network "internet", .network "intranet"] (.ofSecond 200)) with
    queue := Queue.empty.enqueue request }

/-- A rule derives a host for the network. -/
def outcome : RuleOutcome :=
  ⟨"host", .ofEntity (.network "intranet"),
    .derived [.ofEntity (.hostname (Entity.network "intranet").reference "a.example")] false⟩

/-- The submission leads to a derive job, and the dispatch of that job to a deeper one. -/
theorem enqueued_expected_submitted :
    (∃ c c' : Crew, Reached ⟨start, []⟩ c ∧ Step c none c' ∧
      (c.pipeline.queue.since c'.pipeline.queue).map (fun r => r.job.kind) = [.derive] ∧
      ∀ r ∈ c.pipeline.queue.since c'.pipeline.queue,
        r.Sound start.policy.derivation.maxDepth ∧ Expected none c'.pipeline r) ∧
    ∃ c c' : Crew, Reached ⟨waiting, []⟩ c ∧ Step c (some request) c' ∧
      (c.pipeline.queue.since c'.pipeline.queue).map (fun r => r.job.kind) = [.derive] ∧
      ∀ r ∈ c.pipeline.queue.since c'.pipeline.queue,
        r.Sound waiting.policy.derivation.maxDepth ∧ Expected (some request) c'.pipeline r := by
  constructor
  · have hsubmit : Reached ⟨start, []⟩ ⟨start, [⟨none, submission⟩]⟩ :=
      .single ⟨none, .submitObservation _ _ _ _⟩
    have hobserve := hsubmit.tail ⟨none, step_first⟩
    have hid := hobserve.tail ⟨none, step_first⟩
    have hpolicy := hid.tail ⟨none, step_first⟩
    have hrequests := hpolicy.tail ⟨none, step_first⟩
    have hstart : ∀ r ∈ start.queue.waiting, r.Sound start.policy.derivation.maxDepth :=
      fun r hr => absurd hr List.not_mem_nil
    refine ⟨_, _, hrequests, step_first, rfl, ?_⟩
    exact (enqueued_expected (by decide) hstart hrequests step_first).2
  · have hdequeue : waiting.dequeue .derive = ((waiting.dequeue .derive).1, some request) := rfl
    have htake : Reached ⟨waiting, []⟩
        ⟨(waiting.dequeue .derive).1, [⟨some request, Worker.runJob request⟩]⟩ :=
      .single ⟨none, .take hdequeue⟩
    have hstarted := htake.tail ⟨_, step_first⟩
    have hevaluated := hstarted.tail ⟨_, evaluate_first .empty tick (.ok [outcome])⟩
    have hobserve := hevaluated.tail ⟨_, step_first⟩
    have hdepth := hobserve.tail ⟨_, step_first⟩
    have hpublish := hdepth.tail ⟨_, step_first⟩
    have hpolicy := hpublish.tail ⟨_, step_first⟩
    have hrequests := hpolicy.tail ⟨_, step_first⟩
    have hwaiting : ∀ r ∈ waiting.queue.waiting, r.Sound waiting.policy.derivation.maxDepth := by
      intro r hr j hj
      obtain rfl := List.mem_singleton.1 hr
      cases hj
      exact ⟨rfl, by decide, .nil⟩
    refine ⟨_, _, hrequests, step_first, rfl, ?_⟩
    exact (enqueued_expected (by decide) hwaiting hrequests step_first).2

end Submitted

/-! ## Uninterrupted runs -/

section Uninterrupted

variable {rely : Pipeline → Pipeline → Prop} [Rely rely] {cause : Option Request} {p : Pipeline}

theorem within_run {w : Routine Unit} (h : Serving rely (Due rely) p ⟨cause, w⟩) (ts : List Task) :
    Within rely ⟨p, ⟨cause, w⟩ :: ts⟩ ⟨(w.run p).2, ts⟩ := by
  induction w generalizing p with
  | done x =>
    have hstep : Step ⟨p, [] ++ ⟨cause, .done x⟩ :: ts⟩ none ⟨p, ts⟩ := .leave
    exact .single ⟨none, hstep, Rely.refl p⟩
  | call act next ih =>
    obtain ⟨hserves, hnext⟩ := h p (Rely.refl p)
    exact .head ⟨cause, step_first, hserves.1⟩ (ih (act p).1 hnext)
  | evaluate changed t next ih =>
    obtain ⟨memory, clock, hmemory⟩ := exists_memory_deriveFor changed t p
    have hstep : Step ⟨p, ⟨cause, .evaluate changed t next⟩ :: ts⟩ cause
        ⟨{ p with memory, clock }, ⟨cause, next (deriveFor changed t p).1⟩ :: ts⟩ :=
      evaluate_first memory clock _
    have hrely : rely p { p with memory, clock } := Rely.of_stays ⟨⟨rfl, .refl⟩, rfl⟩ (.refl _)
    rw [← hmemory] at hstep hrely
    exact .head ⟨cause, hstep, hrely⟩ (ih _ (h _ _ hrely))

theorem within_discard {α : Type} {w : Routine α}
    (h : Serving rely (Due rely) p ⟨cause, discard w⟩) (ts : List Task) :
    Within rely ⟨p, ⟨cause, discard w⟩ :: ts⟩ ⟨(w.run p).2, ts⟩ := by
  have hrun : ((discard w).run p).2 = (w.run p).2 := by
    show ((w >>= fun _ => pure ()).run p).2 = (w.run p).2
    rw [Routine.run_bind]
    exact Action.bind_pure_snd _ _ p
  exact hrun ▸ within_run h ts

theorem within_drain (budget : Nat) (p : Pipeline) (ts : List Task) :
    Within rely ⟨p, ts⟩ ⟨(p.drain budget).1, ts⟩ := by
  suffices hfrom : ∀ k summary, Within rely ⟨p, ts⟩ ⟨(drainFrom budget k summary p).1, ts⟩ from
    hfrom .scan .zero
  induction budget generalizing p with
  | zero => exact fun _ _ => .refl
  | succ budget ih =>
    intro k summary
    unfold drainFrom
    cases hline : nextLine p.queue k with
    | none => exact .refl
    | some l =>
      obtain ⟨p', r, hdequeue⟩ := exists_dequeue_of_nextLine hline
      have hrely : rely p p' := by
        rw [(dequeue_eq_some_iff.1 hdequeue).1]
        exact Rely.of_stays ⟨⟨rfl, .refl⟩, rfl⟩ (.refl _)
      have hjob : Within rely ⟨p', ⟨some r, Worker.runJob r⟩ :: ts⟩ ⟨(p'.runJob r).1, ts⟩ :=
        Worker.run_runJob r p' ▸ within_run (serving_work p' r) ts
      simp only [hdequeue]
      exact .head ⟨none, .take hdequeue, hrely⟩ (hjob.trans (ih _ l _))

theorem within_submitScan (scanner : String) (input : Reference) (p : Pipeline) (ts : List Task) :
    Within rely ⟨p, ts⟩ ⟨(submitScan scanner input p).2, ts⟩ := by
  refine .head ⟨none, .submitScan scanner input, Rely.refl p⟩ ?_
  rw [← Worker.run_submitScan]
  exact within_discard (serving_scan p scanner input) ts

theorem within_submitObservation (method : String) (source : Reference) (objects : List Snapshot)
    (t : Instant) (p : Pipeline) (ts : List Task) :
    Within rely ⟨p, ts⟩ ⟨(submitObservation method source objects t p).2, ts⟩ := by
  refine .head ⟨none, .submitObservation method source objects t, Rely.refl p⟩ ?_
  rw [← Worker.run_submitObservation]
  exact within_discard (serving_observation p method source objects t) ts

end Uninterrupted

end Crew

end ScanGraph
