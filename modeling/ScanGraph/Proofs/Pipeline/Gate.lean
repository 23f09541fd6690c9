/-
The gate before the scanners.

Callers ask for scans, and workers schedule them for what their jobs commit.
Either way the object is read first and the job is queued some calls later, so
that others may have changed the object and its clearance by then.  But the job
carries the object as it was read, and it was for this object that the plugins
cleared the scan; as nobody exchanges the plugins, every scan job that is queued
is for a registered scanner and carries an object that this scanner may scan.
A caller whose request fails has queued nothing, whatever happened between its
calls: `scans_cleared`.

## What is asked

The registry was built and nobody exchanges it.  Clearance may be declared and
recalculated at any time, also between the moment at which an object is read and the one
at which the job is queued.

## What is proved

* Every scan that is queued in a step of a run is for a registered scanner and carries
  an object of a type which that scanner consumes, with the clearance that it asks for,
  as the object was when it was read.
* A request for a scan that fails has queued nothing, with others acting between its
  calls or not.

## What is not

That the object still has that clearance when the scan is run: a level that was lowered
after the job was queued does not stop it.  The gate is passed once, when the job is
made.
-/
import ScanGraph.Proofs.Pipeline.Crew
import ScanGraph.Proofs.Registry.Built

namespace ScanGraph

/-! ## What calls come to -/

namespace Routine

/-- What a routine comes to, with the pipelines that each of its calls found and left.  What happens
between two calls is left open. -/
inductive Runs {α : Type} : Routine α → List (Pipeline × Pipeline) → Except Fault α → Prop
  | done {x : Except Fault α} : Runs (.done x) [] x
  | call {β : Type} {act : Action β} {next : Except Fault β → Routine α} {p : Pipeline}
      {trace : List (Pipeline × Pipeline)} {x : Except Fault α} :
      Runs (next (act p).1) trace x → Runs (.call act next) ((p, (act p).2) :: trace) x
  | evaluate {changed : Reference} {t : Instant} {next : Except Fault (List RuleOutcome) → Routine α}
      {answer : Except Fault (List RuleOutcome)} {trace : List (Pipeline × Pipeline)}
      {x : Except Fault α} :
      Runs (next answer) trace x → Runs (.evaluate changed t next) trace x

/-- Every call leaves the queue as it found it. -/
def Spared (trace : List (Pipeline × Pipeline)) : Prop :=
  ∀ m ∈ trace, m.2.queue = m.1.queue

def Spares {α : Type} (w : Routine α) : Prop :=
  ∀ trace x, w.Runs trace x → Spared trace

/-- The calls leave the queue alone if the routine fails in the end. -/
def Forgoes {α : Type} (w : Routine α) : Prop :=
  ∀ trace fault, w.Runs trace (.error fault) → Spared trace

/-- The routine does not fail. -/
def Succeeds {α : Type} (w : Routine α) : Prop :=
  ∀ trace fault, ¬ w.Runs trace (.error fault)

section Runs

variable {α β : Type} {w : Routine α} {f : α → Routine β} {act : Action α} {p : Pipeline}
  {trace : List (Pipeline × Pipeline)}

theorem Spared.append {trace' : List (Pipeline × Pipeline)} (h : Spared trace)
    (h' : Spared trace') : Spared (trace ++ trace') :=
  List.forall_mem_append.2 ⟨h, h'⟩

/-- A routine after another fails with the first or goes on from what this one came to. -/
theorem runs_bind {x : Except Fault β} (h : (w >>= f).Runs trace x) :
    (∃ fault, w.Runs trace (.error fault)) ∨
      ∃ a first rest, trace = first ++ rest ∧ w.Runs first (.ok a) ∧ (f a).Runs rest x := by
  rw [bind_def] at h
  induction w generalizing trace with
  | done y =>
    cases y with
    | ok a => exact .inr ⟨a, [], trace, rfl, .done, h⟩
    | error fault =>
      cases h
      exact .inl ⟨fault, .done⟩
  | call act next ih =>
    obtain _ | hrest := h
    rcases ih _ hrest with ⟨fault, hfails⟩ | ⟨a, first, rest, rfl, hfirst, hrest⟩
    · exact .inl ⟨fault, .call hfails⟩
    · exact .inr ⟨a, _ :: first, rest, rfl, .call hfirst, hrest⟩
  | evaluate changed t next ih =>
    cases h with
    | evaluate hrest =>
      rcases ih _ hrest with ⟨fault, hfails⟩ | ⟨a, first, rest, rfl, hfirst, hrest⟩
      · exact .inl ⟨fault, .evaluate hfails⟩
      · exact .inr ⟨a, first, rest, rfl, .evaluate hfirst, hrest⟩

theorem runs_once {x : Except Fault α} (h : (once act).Runs trace x) :
    ∃ p, trace = [(p, (act p).2)] ∧ x = (act p).1 := by
  cases h with
  | call hdone =>
    cases hdone
    exact ⟨_, rfl, rfl⟩

/-! ### Sequences -/

theorem Spares.bind (h : w.Spares) (hf : ∀ a, (f a).Forgoes) : (w >>= f).Forgoes := by
  intro trace fault hruns
  rcases runs_bind hruns with ⟨fault', hfails⟩ | ⟨a, first, rest, rfl, hfirst, hrest⟩
  · exact h _ _ hfails
  · exact (h _ _ hfirst).append (hf a _ _ hrest)

/-- What follows a routine and does not fail adds no way to fail. -/
theorem Forgoes.bind (h : w.Forgoes) (hf : ∀ a, (f a).Succeeds) : (w >>= f).Forgoes := by
  intro trace fault hruns
  rcases runs_bind hruns with ⟨fault', hfails⟩ | ⟨a, first, rest, rfl, -, hrest⟩
  · exact h _ _ hfails
  · exact absurd hrest (hf a _ _)

theorem Succeeds.bind (h : w.Succeeds) (hf : ∀ a, (f a).Succeeds) : (w >>= f).Succeeds := by
  intro trace fault hruns
  rcases runs_bind hruns with ⟨fault', hfails⟩ | ⟨a, first, rest, -, -, hrest⟩
  · exact h _ _ hfails
  · exact hf a _ _ hrest

theorem forgoes_ofExcept (x : Except PipelineError α) : (ofExcept x).Forgoes := by
  intro trace fault hruns
  cases x <;> cases hruns
  exact fun _ hm => absurd hm List.not_mem_nil

theorem succeeds_pure (a : α) : (pure a : Routine α).Succeeds := by
  rintro trace fault ⟨⟩

theorem succeeds_once (h : ∀ p, ∃ a, (act p).1 = .ok a) : (once act).Succeeds := by
  intro trace fault hruns
  obtain ⟨p, -, hfails⟩ := runs_once hruns
  obtain ⟨a, ha⟩ := h p
  rw [ha] at hfails
  cases hfails

theorem succeeds_forM {g : α → Routine Unit} (l : List α) (h : ∀ a ∈ l, (g a).Succeeds) :
    (l.forM g).Succeeds := by
  induction l with
  | nil => exact succeeds_pure ()
  | cons a l ih =>
    have hrest : ∀ b ∈ l, (g b).Succeeds := fun b hb => h b (List.mem_cons_of_mem _ hb)
    exact (h a List.mem_cons_self).bind (fun _ => ih hrest)

theorem spares_once (h : Action.Keeps Pipeline.core act) : (once act).Spares := by
  intro trace x hruns
  obtain ⟨p, rfl, -⟩ := runs_once hruns
  exact List.forall_mem_singleton.2 (congrArg (fun c => c.2.2.2.1) (h p))

/-! ### Uninterrupted -/

/-- Without interruption each call finds what the last one left, so that calls which leave the queue
alone do so together. -/
theorem exists_runs_run (w : Routine α) (p : Pipeline) :
    ∃ trace, w.Runs trace (w.run p).1 ∧ (Spared trace → (w.run p).2.queue = p.queue) := by
  induction w generalizing p with
  | done x => exact ⟨[], .done, fun _ => rfl⟩
  | call act next ih =>
    obtain ⟨trace, hruns, hqueue⟩ := ih (act p).1 (act p).2
    refine ⟨_, .call hruns, fun hspared => ?_⟩
    obtain ⟨hcall, hrest⟩ := List.forall_mem_cons.1 hspared
    exact (hqueue hrest).trans hcall
  | evaluate changed t next ih =>
    obtain ⟨memory, clock, hmemory⟩ := Pipeline.exists_memory_deriveFor changed t p
    obtain ⟨trace, hruns, hqueue⟩ := ih (Pipeline.deriveFor changed t p).1
      (Pipeline.deriveFor changed t p).2
    refine ⟨trace, .evaluate hruns, fun hspared => (hqueue hspared).trans ?_⟩
    rw [hmemory]

end Runs

end Routine

/-! ## Failing requests -/

namespace Worker

open Routine Pipeline

theorem forgoes_enqueue (r : Request) : (once (enqueue r)).Forgoes := by
  intro trace fault hruns
  obtain ⟨p, rfl, hfails⟩ := runs_once hruns
  refine List.forall_mem_singleton.2 ?_
  by_cases hclosed : p.outages.queueClosed = true
  · rw [enqueue_of_closed r hclosed]
  · rw [enqueue_of_not_closed r hclosed] at hfails
    cases hfails

theorem forgoes_enqueueAnnounced (r : Request) : (enqueueAnnounced [r]).Forgoes := by
  have hqueue : (enqueueAll [r]).Forgoes :=
    (forgoes_enqueue r).bind (fun _ => (succeeds_pure []).bind (fun _ => succeeds_pure _))
  exact hqueue.bind (fun _ => succeeds_forM [r] (fun r _ => succeeds_once (fun p => ⟨(), rfl⟩)))

theorem forgoes_submitScan (scanner : String) (input : Reference) :
    (submitScan scanner input).Forgoes := by
  -- every check is made before the one call that queues, so a refusal comes with an untouched queue
  refine (spares_once steady_core.freshId).bind (fun correlation => ?_)
  refine (spares_once Action.Keeps.get).bind (fun p => ?_)
  split
  · exact forgoes_ofExcept _
  · refine (spares_once steady_core.now).bind (fun t => ?_)
    refine (spares_once (keeps_lookUp _ _)).bind (fun found => ?_)
    split
    · exact forgoes_ofExcept _
    · split
      · exact forgoes_ofExcept _
      · split
        · exact forgoes_ofExcept _
        · refine (spares_once (steady_core.scanRequest _ _ _)).bind (fun r => ?_)
          exact (forgoes_enqueueAnnounced r).bind (fun _ => succeeds_pure _)

theorem queue_submitScan_of_error {scanner : String} {input : Reference} {p : Pipeline}
    {fault : Fault} (h : (Pipeline.submitScan scanner input p).1 = .error fault) :
    (Pipeline.submitScan scanner input p).2.queue = p.queue := by
  rw [← run_submitScan] at h ⊢
  obtain ⟨trace, hruns, hqueue⟩ := exists_runs_run (submitScan scanner input) p
  rw [h] at hruns
  exact hqueue (forgoes_submitScan scanner input trace fault hruns)

end Worker

/-! ## Clearance -/

namespace Registry

/-- The job is for a registered scanner and carries an object that this scanner may scan: of a type
that it consumes or a subtype of one, with the clearance that it asks for. -/
def Permits (g : Registry) (j : ScanJob) : Prop :=
  ∃ (s : RegisteredScanner) (o : Snapshot), g.scanners.get? j.scanner.id = some s ∧
    j.scanner.version = s.definition.version ∧
    j.inputReference = o.reference ∧ j.input = o.toJson.sorted ∧
    (∃ t ∈ s.definition.consumes, o.type.isA t = true) ∧ s.definition.level ≤ o.level

/-- In a built registry a scanner stands under its id, so that what is cleared is permitted. -/
theorem Clears.permits {d : Draft} {g : Registry} {j : ScanJob} (h : g.Clears j)
    (hbuilt : d.build = .ok g) : g.Permits j := by
  obtain ⟨s, hs, id, o, organization, hadmits, rfl⟩ := h
  obtain ⟨hcovers, hlevel⟩ := Bool.and_eq_true_iff.1 hadmits
  exact ⟨s, o, get?_scanner_of_build hbuilt hs, rfl, rfl, rfl, List.any_eq_true.1 hcovers,
    of_decide_eq_true hlevel⟩

end Registry

namespace Crew

open Pipeline

/-- Whoever submits, drains and works in whatever order, each scan job that is queued in a step is
for a registered scanner and carries an object of a type that this scanner consumes, with the
clearance that it asks for.  A request for a scan that fails has queued nothing. -/
theorem scans_cleared {p : Pipeline} {d : Registry.Draft} (hbuilt : d.build = .ok p.registry) :
    (∀ (c c' : Crew) (cause : Option Request), Kept ⟨p, []⟩ c → Keeps c cause c' →
      Accounted c.pipeline.queue c'.pipeline.queue ∧
        ∀ r ∈ c.pipeline.queue.since c'.pipeline.queue, ∀ j, r.job = .scan j →
          p.registry.Permits j) ∧
      (∀ scanner input trace fault, (Worker.submitScan scanner input).Runs trace (.error fault) →
        ∀ m ∈ trace, m.2.queue = m.1.queue) ∧
      ∀ scanner input q fault, (submitScan scanner input q).1 = .error fault →
        (submitScan scanner input q).2.queue = q.queue := by
  refine ⟨fun c c' cause hrun hstep => ?_, Worker.forgoes_submitScan,
    fun _ _ _ _ => Worker.queue_submitScan_of_error⟩
  obtain ⟨hserving, hregistry⟩ := hrun.serving (fun task htask => absurd htask List.not_mem_nil)
  obtain ⟨-, -, haccounted, hdue⟩ := hstep.advances hserving
  refine ⟨haccounted, fun r hr j hj => ?_⟩
  obtain ⟨q, hq, hclears⟩ := (hdue r hr).2 j hj
  -- the plugins that cleared the scan some calls ago are those that the run began with
  have hplugins : q.registry = p.registry :=
    (hq.registry.symm.trans hstep.registry).trans hregistry
  exact (hplugins ▸ hclears).permits hbuilt

namespace Gated

/-- A scanner of networks, which asks for a declared one. -/
def scanner : ScannerDefinition :=
  ⟨"scanner", none, .ofList [.network], .empty, .l1⟩

def plugins : Registry.Draft :=
  Registry.Draft.empty.addScanner scanner none

/-- A pipeline with the scanner, whose store holds the internet, declared at `l1`. -/
def start : Pipeline :=
  { declaredInternet with registry := plugins.registry }

/-- A scan of the internet is asked for. -/
def submission : Routine Unit :=
  discard (Worker.submitScan "scanner" (internet .l1).reference)

theorem scans_cleared_gated :
    plugins.build = .ok start.registry ∧
      ∃ (c c' : Crew) (j : ScanJob), Kept ⟨start, []⟩ c ∧ Keeps c none c' ∧
        (c.pipeline.queue.since c'.pipeline.queue).map Request.job = [.scan j] ∧
        start.registry.Permits j := by
  have hbuilt : plugins.build = .ok start.registry := rfl
  have hsubmit : Kept ⟨start, []⟩ ⟨start, [⟨none, submission⟩]⟩ :=
    .single ⟨none, .submitScan _ _, rfl⟩
  have hid := hsubmit.tail ⟨none, step_first, rfl⟩
  have hplugins := hid.tail ⟨none, step_first, rfl⟩
  have htime := hplugins.tail ⟨none, step_first, rfl⟩
  have hobject := htime.tail ⟨none, step_first, rfl⟩
  have hrequest := hobject.tail ⟨none, step_first, rfl⟩
  obtain ⟨-, hpermits⟩ := (scans_cleared hbuilt).1 _ _ none hrequest ⟨step_first, rfl⟩
  exact ⟨hbuilt, _, _, _, hrequest, ⟨step_first, rfl⟩, rfl, hpermits _ List.mem_cons_self _ rfl⟩

end Gated

end Crew

end ScanGraph
