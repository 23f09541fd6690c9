/-
What a job that waits can count on.

A scan is archived with its evidence before the jobs that read it are queued, and
an observation is stored before the jobs for its commits are.  As long as nothing
is taken out of the archive and the store is changed by calls alone, every job that
waits or is worked on therefore finds what led to it, whatever the order in which
workers and callers take their turns: `Preserved.pending_grounded`.  So a normalizer
never misses its evidence, a commit is never found to be invisible, and what rules
derive is never refused for want of its root.

## What is asked

The store is reachable, what is pending at the beginning is grounded, which holds of an
idle pipeline, and in the run nobody but the tasks takes anything out of the archive.
The store may go offline and come back, and plugins may be exchanged.

## What is proved

At every moment of such a run, for a job that waits, is in flight or is being
dispatched: a normalize job finds its scan, over, and its evidence; a derive job's
commit is visible, stays so, and a store that is asked does not answer that there is
nothing.  And whatever an evaluation of a commit comes to, however it is gone through
and whatever happens meanwhile, an observation on the root of each outcome is accepted
from then on while the store is online.

## What is not

That a job ends well: plugins may fail, services may be out of order, and what a rule
derived may be refused by the checks on its output.
-/
import ScanGraph.Proofs.Derivation.Roots
import ScanGraph.Proofs.Pipeline.Crew

namespace ScanGraph

namespace Pipeline

/-- A later moment with nothing gone from the archive. -/
structure Retains (p q : Pipeline) : Prop where
  later : p.Later q
  archive : p.archive.Grows q.archive

instance : Rely Retains where
  refl p := ⟨.refl p, .refl _⟩
  trans h h' := ⟨h.later.trans h'.later, h.archive.trans h'.archive⟩
  later := Retains.later
  of_stays h harchive := ⟨h.later, harchive⟩

/-- What led to a job is there: for a normalizer a scan that is over and its evidence, for a derive
job the object of its commit. -/
structure Grounded (p : Pipeline) (r : Request) : Prop where
  archived : ∀ n, r.job = .normalize n →
    p.archive.HasScan n.scan.id ∧ p.archive.HasEvidence n.scan.id
  known : ∀ j, r.job = .derive j → p.store.Known j.commit.validTime j.commit.reference

/-- Nothing is in flight that was not. -/
def Lightens (p q : Pipeline) : Prop :=
  ∀ id r, q.queue.inFlight.get? id = some r → p.queue.inFlight.get? id = some r

section Grounded

variable {p q : Pipeline} {r : Request}

theorem Grounded.later (h : p.Grounded r) (hq : p.Retains q) : q.Grounded r where
  archived n hn := by
    obtain ⟨hscan, hevidence⟩ := h.archived n hn
    exact ⟨hq.archive.scans _ hscan, hq.archive.evidence _ hevidence⟩
  known j hj := hq.later.known (h.known j hj)

theorem Due.grounded {cause : Option Request} (h : Due Retains cause p r) : p.Grounded r where
  archived n hn := by
    obtain ⟨⟨q, hq, hscan⟩, ⟨q', hq', hevidence⟩⟩ := h.archived n hn
    exact ⟨hq.archive.scans _ hscan, hq'.archive.evidence _ hevidence⟩
  known := h.known

theorem Lightens.of_inFlight (h : q.queue.inFlight = p.queue.inFlight) : p.Lightens q :=
  fun _ _ hget => h ▸ hget

theorem Lightens.settle (p : Pipeline) (id : Uuid) (status : JobResult) :
    p.Lightens (p.settle id status) := by
  have hget : ∀ id' r, (p.queue.inFlight.erase id).get? id' = some r →
      p.queue.inFlight.get? id' = some r := by
    intro id' r h
    by_cases hsame : id' = id
    · rw [hsame, Table.get?_erase_self] at h
      cases h
    · rwa [Table.get?_erase_of_ne _ hsame] at h
  unfold Pipeline.settle settled Queue.complete Queue.fail
  cases status with
  | succeeded => cases hflight : p.queue.inFlight.get? id with
    | none => exact .of_inFlight rfl
    | some r => exact hget
  | failed e => cases hflight : p.queue.inFlight.get? id with
    | none => exact .of_inFlight rfl
    | some r => exact hget

/-- Whatever a call does, it takes no job. -/
instance : Allows Lightens where
  still h := by
    simp only [Pipeline.still, Prod.mk.injEq] at h
    obtain ⟨-, -, -, -, -, hqueue, -⟩ := h
    exact .of_inFlight (congrArg Queue.inFlight hqueue)
  enqueue _ _ := .of_inFlight rfl
  observe _ := .of_inFlight rfl
  saveJob _ _ := .of_inFlight rfl
  saveEvidence _ _ _ := .of_inFlight rfl
  settle := Lightens.settle

theorem evidenceOf_of_hasEvidence {n : NormalizeJob} (h : p.archive.HasEvidence n.scan.id) :
    ∃ e, evidenceOf n p = (.ok e, p) := by
  obtain ⟨e, he⟩ := h
  refine ⟨e, ?_⟩
  unfold evidenceOf
  rw [Action.get_bind, he]
  rfl

end Grounded

end Pipeline

namespace Store

variable {s : Store} {r : Reference} {t : Instant}

theorem Known.get_ne_none (h : s.Known t r) : s.get r t ≠ .ok none := by
  obtain ⟨e, he⟩ := h
  intro hget
  obtain ⟨-, hread⟩ := get_eq_ok_iff.1 hget
  unfold read? at hread
  rw [he] at hread
  cases hread

/-- An observation of what is visible is taken by every store that is online. -/
theorem Known.observe {o : Observation} (h : s.Known o.validTime o.source)
    (honline : s.offline = false) : ∃ done, s.observe o = .ok done :=
  ⟨s.commit o, observe_eq_ok_iff.2 ⟨honline, Option.isSome_iff_exists.2 h, rfl⟩⟩

end Store

namespace Crew

open Routine Pipeline

/-- A step in which nobody but the tasks takes anything out of the archive. -/
structure Preserves (c : Crew) (cause : Option Request) (c' : Crew) : Prop where
  step : Step c cause c'
  archive : c'.tasks = c.tasks → c.pipeline.archive.Grows c'.pipeline.archive

/-- What a crew comes to by steps in which nobody but the tasks takes anything out of the
archive. -/
def Preserved : Crew → Crew → Prop :=
  Relation.ReflTransGen (fun c c' => ∃ cause, Preserves c cause c')

/-- The request waits, is in flight, or is being dispatched. -/
inductive Pending (c : Crew) (r : Request) : Prop
  | waiting : r ∈ c.pipeline.queue.waiting → Pending c r
  | inFlight {id : Uuid} : c.pipeline.queue.inFlight.get? id = some r → Pending c r
  | dispatched {task : Task} : task ∈ c.tasks → task.cause = some r → Pending c r

/-- A course comes to an outcome while the crew goes on: before each of its calls there may be any
number of steps. -/
inductive Answers {α : Type} : Course α → Crew → Except Fault α → Crew → Prop
  | done {x : Except Fault α} {c : Crew} : Answers (.done x) c x c
  | call {β : Type} {hashed : List (List UInt8)} {act : Action β}
      {next : Except Fault β → Course α} {c c' c'' : Crew} {x : Except Fault α} :
      Preserved c c' →
      Answers (next (act c'.pipeline).1) ⟨(act c'.pipeline).2, c'.tasks⟩ x c'' →
      Answers (.call hashed act next) c x c''

/-- What led to the jobs is there, and the tasks see to it that this stays so. -/
structure Founded (c : Crew) : Prop where
  store : c.pipeline.store.Reachable
  serving : ∀ task ∈ c.tasks, Serving Retains (Due Retains) c.pipeline task
  calls : ∀ task ∈ c.tasks, task.rest.Every Lightens
  pending : ∀ r, c.Pending r → c.pipeline.Grounded r

section Steps

variable {c c' : Crew} {cause : Option Request} {r : Request}

/-! ### What a step does to the jobs -/

theorem Step.calls (hstep : Step c cause c') (h : ∀ task ∈ c.tasks, task.rest.Every Lightens) :
    ∀ task ∈ c'.tasks, task.rest.Every Lightens := by
  have hattempt : ∀ (p : Pipeline) (a : Attempt),
      p.Lightens { p with archive := p.archive.saveAttempt a } := fun _ _ => .of_inFlight rfl
  cases hstep with
  | submitScan scanner input =>
    refine List.forall_mem_cons.2 ⟨?_, h⟩
    exact (Worker.every_submitScan scanner input).bind (fun _ => trivial)
  | submitObservation method source objects t =>
    refine List.forall_mem_cons.2 ⟨?_, h⟩
    exact (Worker.every_submitObservation method source objects t).bind (fun _ => trivial)
  | @take p p' ts k r hdequeue =>
    refine List.forall_mem_cons.2 ⟨?_, h⟩
    exact Worker.every_runJob (Worker.every_dispatch hattempt r)
  | @call β p us vs cause act next =>
    have hold := h ⟨cause, .call act next⟩ (List.mem_append_right _ List.mem_cons_self)
    intro task htask
    rcases mem_or_eq_of_replaced ⟨cause, .call act next⟩ htask with hmem | rfl
    · exact h task hmem
    · exact hold.2 _
  | @evaluate p us vs cause changed t next memory clock answer =>
    have hold := h ⟨cause, .evaluate changed t next⟩ (List.mem_append_right _ List.mem_cons_self)
    intro task htask
    rcases mem_or_eq_of_replaced ⟨cause, .evaluate changed t next⟩ htask with hmem | rfl
    · exact h task hmem
    · exact hold answer
  | @leave p us vs task =>
    intro task' htask'
    rcases List.mem_append.1 htask' with htask' | htask'
    · exact h task' (List.mem_append_left _ htask')
    · exact h task' (List.mem_append_right _ (List.mem_cons_of_mem _ htask'))
  | others hlater hqueue => exact h

theorem Step.pending_of_inFlight (hstep : Step c cause c')
    (h : ∀ task ∈ c.tasks, task.rest.Every Lightens) {id : Uuid}
    (hr : c'.pipeline.queue.inFlight.get? id = some r) : c.Pending r := by
  cases hstep with
  | submitScan scanner input => exact .inFlight hr
  | submitObservation method source objects t => exact .inFlight hr
  | @take p p' ts k r' hdequeue =>
    obtain ⟨hpipeline, hqueue⟩ := dequeue_eq_some_iff.1 hdequeue
    obtain ⟨rest, hready, hp'⟩ := Queue.dequeue_eq_some_iff.1 hqueue
    have hget : (p.queue.inFlight.insert r'.job.id r').get? id = some r := by
      rw [hp'] at hr
      exact hr
    rw [Table.get?_insert] at hget
    split at hget
    · cases hget
      exact .waiting ((Queue.waiting_of_dequeue hqueue).mem_iff.2 List.mem_cons_self)
    · exact .inFlight hget
  | @call β p us vs cause act next =>
    have hold := h ⟨cause, .call act next⟩ (List.mem_append_right _ List.mem_cons_self)
    exact .inFlight (hold.1 p id r hr)
  | evaluate memory clock answer => exact .inFlight hr
  | leave => exact .inFlight hr
  | others hlater hqueue => exact .inFlight (hqueue ▸ hr)

theorem Step.pending_of_dispatched (hstep : Step c cause c') {task : Task} (htask : task ∈ c'.tasks)
    (hcause : task.cause = some r) : c.Pending r := by
  cases hstep with
  | submitScan scanner input =>
    rcases List.mem_cons.1 htask with rfl | htask
    · cases hcause
    · exact .dispatched htask hcause
  | submitObservation method source objects t =>
    rcases List.mem_cons.1 htask with rfl | htask
    · cases hcause
    · exact .dispatched htask hcause
  | @take p p' ts k r' hdequeue =>
    rcases List.mem_cons.1 htask with rfl | htask
    · cases hcause
      have hqueue := (dequeue_eq_some_iff.1 hdequeue).2
      exact .waiting ((Queue.waiting_of_dequeue hqueue).mem_iff.2 List.mem_cons_self)
    · exact .dispatched htask hcause
  | @call β p us vs cause act next =>
    rcases mem_or_eq_of_replaced ⟨cause, .call act next⟩ htask with hmem | rfl
    · exact .dispatched hmem hcause
    · exact .dispatched (List.mem_append_right _ List.mem_cons_self) hcause
  | @evaluate p us vs cause changed t next memory clock answer =>
    rcases mem_or_eq_of_replaced ⟨cause, .evaluate changed t next⟩ htask with hmem | rfl
    · exact .dispatched hmem hcause
    · exact .dispatched (List.mem_append_right _ List.mem_cons_self) hcause
  | @leave p us vs old =>
    rcases List.mem_append.1 htask with hmem | hmem
    · exact .dispatched (List.mem_append_left _ hmem) hcause
    · exact .dispatched (List.mem_append_right _ (List.mem_cons_of_mem _ hmem)) hcause
  | others hlater hqueue => exact .dispatched htask hcause

/-! ### Steps and runs -/

theorem Founded.advances (h : c.Founded) (hstep : Preserves c cause c') :
    Advances Retains (Due Retains) c cause c' :=
  hstep.step.advances h.serving serving_scan serving_observation
    (fun r _ q _ => serving_work q r)
    (fun htasks hlater => ⟨hlater, hstep.archive htasks⟩)

theorem Founded.step (h : c.Founded) (hstep : Preserves c cause c') : c'.Founded := by
  obtain ⟨hretains, hserving, haccounted, hdue⟩ := h.advances hstep
  refine ⟨hretains.later.reachable h.store, hserving, hstep.step.calls h.calls, fun r hr => ?_⟩
  have hold : c.Pending r → c'.pipeline.Grounded r := fun hr => (h.pending r hr).later hretains
  cases hr with
  | waiting hwaits =>
    rcases haccounted r hwaits with hwaited | hnew
    · exact hold (.waiting hwaited)
    · exact (hdue r hnew).grounded
  | inFlight hflight => exact hold (hstep.step.pending_of_inFlight h.calls hflight)
  | dispatched htask hcause => exact hold (hstep.step.pending_of_dispatched htask hcause)

theorem Founded.run (h : c.Founded) (hrun : Preserved c c') :
    c'.Founded ∧ c.pipeline.Retains c'.pipeline := by
  induction hrun with
  | refl => exact ⟨h, Rely.refl _⟩
  | tail _ hstep ih =>
    obtain ⟨hfounded, hretains⟩ := ih
    obtain ⟨cause, hstep⟩ := hstep
    exact ⟨hfounded.step hstep, Rely.trans hretains (hfounded.advances hstep).within⟩

/-- What an evaluation leaves in the memory is one of the things that may happen in a run. -/
theorem preserves_recalls {q : Pipeline} (h : c.pipeline.Recalls q) :
    Preserves c none ⟨q, c.tasks⟩ := by
  obtain ⟨memory, clock, rfl⟩ := h
  exact ⟨.others ⟨rfl, .refl⟩ rfl, fun _ => .refl _⟩

/-- A course that changes nothing but the memory comes to what it obeys. -/
theorem Founded.answers (h : c.Founded) {α : Type} {w : Course α} {x : Except Fault α}
    {post : α → Pipeline → Prop} (hw : w.routine.Obeys Retains Recalls post c.pipeline)
    (hanswers : Answers w c x c') :
    c'.Founded ∧ ∀ a, x = .ok a → post a c'.pipeline := by
  induction hanswers with
  | done =>
    refine ⟨h, ?_⟩
    rintro a rfl
    exact hw
  | @call β hashed act next c c' c'' x hrun _ ih =>
    obtain ⟨hfounded, hretains⟩ := h.run hrun
    obtain ⟨hrecalls, hnext⟩ := hw c'.pipeline hretains
    exact ih (hfounded.step (preserves_recalls hrecalls)) hnext

end Steps

/-- Wherever workers and callers have come to, a normalizer that waits or is worked on finds the
scan, over, and its evidence in the archive; the commit of a derive job that does is visible, and
stays so; and the roots of what an evaluation came to take observations for good. -/
theorem Preserved.pending_grounded {p : Pipeline} {c : Crew} (hstore : p.store.Reachable)
    (hstart : ∀ r, Pending ⟨p, []⟩ r → p.Grounded r) (hrun : Preserved ⟨p, []⟩ c) :
    (∀ r n, c.Pending r → r.job = .normalize n →
      c.pipeline.archive.HasScan n.scan.id ∧
        ∃ e, evidenceOf n c.pipeline = (.ok e, c.pipeline)) ∧
    (∀ r j, c.Pending r → r.job = .derive j → ∀ c', Preserved c c' →
      c'.pipeline.store.Known j.commit.validTime j.commit.reference ∧
        c'.pipeline.store.get j.commit.reference j.commit.validTime ≠ .ok none) ∧
    ∀ (gather : List (Course RuleOutcome) → Course (List RuleOutcome)) (changed : Reference)
      (t : Instant) (found : List RuleOutcome) (c' : Crew),
      (∀ ws, Course.Gathers ws (gather ws)) →
      Answers (Evaluator.deriveBy gather changed t) c (.ok found) c' →
      ∀ o ∈ found, ∀ (c'' : Crew) (job : Option Uuid) (objects : List Snapshot),
        Preserved c' c'' → c''.pipeline.store.offline = false →
        ∃ done, c''.pipeline.store.observe ⟨o.rule, o.root.reference, job, t, objects⟩
          = .ok done := by
  have hfounded : c.Founded := by
    have hbefore : Founded ⟨p, []⟩ :=
      ⟨hstore, fun _ htask => absurd htask List.not_mem_nil,
        fun _ htask => absurd htask List.not_mem_nil, hstart⟩
    exact (hbefore.run hrun).1
  refine ⟨fun r n hr hn => ?_, fun r j hr hj c' hlater => ?_,
    fun gather changed t found c' hgather hanswers o ho c'' job objects hlater honline => ?_⟩
  · obtain ⟨hscan, hevidence⟩ := (hfounded.pending r hr).archived n hn
    exact ⟨hscan, evidenceOf_of_hasEvidence hevidence⟩
  · have hknown := (hfounded.run hlater).2.later.known ((hfounded.pending r hr).known j hj)
    exact ⟨hknown, hknown.get_ne_none⟩
  · have hobeys : (Evaluator.deriveBy gather changed t).routine.Obeys Retains Recalls
        (fun found q => ∀ o ∈ found, q.store.Known t o.root.reference) c.pipeline :=
      Evaluator.obeys_deriveBy hgather changed hfounded.store
    obtain ⟨hfounded', hroots⟩ := hfounded.answers hobeys hanswers
    have hknown := (hfounded'.run hlater).2.later.known (hroots found rfl o ho)
    exact Store.Known.observe hknown honline

theorem Within.preserved {c c' : Crew} (h : Within Retains c c') : Preserved c c' := by
  refine Relation.ReflTransGen.mono (fun c c' hstep => ?_) c c' h
  obtain ⟨cause, hstep, hretains⟩ := hstep
  exact ⟨cause, hstep, fun _ => hretains.archive⟩

/-- A course that is not interrupted comes to what it is run for. -/
theorem answers_run {α : Type} (w : Course α) (c : Crew) :
    Answers w c (w.run c.pipeline).1 ⟨(w.run c.pipeline).2, c.tasks⟩ := by
  induction w generalizing c with
  | done x => exact .done
  | call hashed act next ih => exact .call .refl (ih _ ⟨(act c.pipeline).2, c.tasks⟩)

namespace Sounding

def network : Entity :=
  .network "internet"

def scanner : ScannerDefinition :=
  ⟨"sound", none, .ofList [.network], .empty, .l0⟩

/-- A normalizer that reads what the scanner found. -/
def normalizer : NormalizerDefinition :=
  ⟨"read", .ofList ["sound"], .ofList [.network]⟩

/-- A rule for networks that derives nothing. -/
def rule : RuleDefinition :=
  ⟨"idle", .network, [], .empty, .l0, true, none, none⟩

def plugins : Registry :=
  ((((Registry.Draft.empty.addScanner scanner none).addNormalizer normalizer
    (fun _ _ _ => .returned [])).addRule rule (fun _ _ _ => .returned []))).registry

/-- A pipeline with them, whose store holds the network. -/
def start : Pipeline :=
  { ofStore (Store.holding [network] (.ofSecond 0)) with
    registry := plugins
    backend := fun _ _ => some (.returned ⟨[], .empty⟩) }

/-- The pipeline after the network was sounded and another one was declared. -/
def busy : Pipeline :=
  (submitObservation "manual" network.reference [.ofEntity (.network "intranet")] (.ofSecond 0)
    ((submitScan "sound" network.reference start).2.drain 1).1).2

/-- The evaluations of what the network concerns. -/
def evaluation : Course (List RuleOutcome) :=
  Evaluator.deriveBy (Course.inOrder []) network.reference (.ofSecond 0)

theorem preserved_busy : Preserved ⟨start, []⟩ ⟨busy, []⟩ := by
  have hscan : Within Retains ⟨start, []⟩ ⟨(submitScan "sound" network.reference start).2, []⟩ :=
    within_submitScan _ _ _ _
  have hdrain := hscan.trans (within_drain 1 _ [])
  exact Within.preserved (hdrain.trans (within_submitObservation _ _ _ _ _ []))

theorem pending_grounded_sounding :
    Preserved ⟨start, []⟩ ⟨busy, []⟩ ∧
      (∃ r ∈ busy.queue.waiting, ∃ n, r.job = .normalize n ∧ busy.archive.HasScan n.scan.id ∧
        ∃ e, evidenceOf n busy = (.ok e, busy)) ∧
      (∃ r ∈ busy.queue.waiting, ∃ j, r.job = .derive j ∧
        busy.store.Known j.commit.validTime j.commit.reference) ∧
      ∃ found c', Answers evaluation ⟨busy, []⟩ (.ok found) c' ∧
        found.map RuleOutcome.rule = ["idle"] ∧
        ∀ o ∈ found, ∃ done, c'.pipeline.store.observe
          ⟨o.rule, o.root.reference, none, .ofSecond 0, []⟩ = .ok done := by
  have hstart : ∀ r, Pending ⟨start, []⟩ r → start.Grounded r := by
    rintro r (hwaits | hflight | htask)
    · cases hwaits
    · cases hflight
    · cases htask
  have hkinds : busy.queue.waiting.map (fun r => r.job.kind) = [.normalize, .derive] := by
    decide +kernel
  have hfound : (evaluation.run busy).1.toOption.map (List.map RuleOutcome.rule)
      = some ["idle"] := by
    decide +kernel
  have honline : (evaluation.run busy).2.store.offline = false := by
    decide +kernel
  have hbusy := preserved_busy
  -- from here on it does not matter how the pipeline came to be
  generalize busy = p at hbusy hkinds hfound honline ⊢
  obtain ⟨hnormalize, hderive, hobserve⟩ :=
    hbusy.pending_grounded (Store.reachable_holding _ _) hstart
  have hwaits : ∀ k ∈ [JobKind.normalize, .derive], ∃ r ∈ p.queue.waiting, r.job.kind = k :=
    fun k hk => List.mem_map.1 (hkinds ▸ hk)
  refine ⟨hbusy, ?_, ?_, ?_⟩
  · obtain ⟨r, hr, hkind⟩ := hwaits .normalize (by decide)
    cases hjob : r.job with
    | normalize n => exact ⟨r, hr, n, hjob, hnormalize r n (.waiting hr) hjob⟩
    | scan j => rw [hjob] at hkind; cases hkind
    | derive j => rw [hjob] at hkind; cases hkind
  · obtain ⟨r, hr, hkind⟩ := hwaits .derive (by decide)
    cases hjob : r.job with
    | derive j => exact ⟨r, hr, j, hjob, (hderive r j (.waiting hr) hjob _ .refl).1⟩
    | scan j => rw [hjob] at hkind; cases hkind
    | normalize n => rw [hjob] at hkind; cases hkind
  · have hanswers : Answers evaluation ⟨p, []⟩ (evaluation.run p).1 ⟨(evaluation.run p).2, []⟩ :=
      answers_run evaluation ⟨p, []⟩
    generalize evaluation.run p = ran at hfound hanswers honline
    obtain ⟨_ | found, q⟩ := ran
    · cases hfound
    · refine ⟨found, ⟨q, []⟩, hanswers, Option.some.inj hfound, fun o ho => ?_⟩
      exact hobserve (Course.inOrder []) network.reference (.ofSecond 0) found ⟨q, []⟩
        Course.gathers_inOrder hanswers o ho ⟨q, []⟩ none [] .refl honline

end Sounding

end Crew

end ScanGraph
