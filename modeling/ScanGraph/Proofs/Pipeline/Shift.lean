/-
Shifts: workers and callers at one pipeline, all of whom only call.

Whoever dispatches a job or submits something goes through a course that spells his
routine out: it makes the calls of the routine, and those of each evaluation on
the way.  On a shift any number of courses are gone through at once, one call of
one of them at a time, and any job that waits may be taken next.  A run keeps
account of what was hashed on the way.  Draining is a run in which nobody is
interrupted: `exists_runs_drain`.

## What a step can be

A course makes its next call, or leaves when it is done; a job that waits, from any line
and any place in it, is taken and its course joins; a submission joins; a level is
declared, or all of them are recalculated; or time passes.  There is no other step, and
in none of them does anybody exchange the plugins or the policy.

`Runs` keeps the octets that were hashed, in order, since statements about cached
outputs speak of them.  `exists_runs_drain` and the lemmas before it say that what a
worker does in one go is such a run, so that a shift is no narrower than draining.

What is queued and committed in a run, and who follows it up, is proved elsewhere
(`Proofs.Dns.Resolved`).  Runs may be infinite in the sense that each can be prolonged;
every statement about them is about an end that was reached.
-/
import ScanGraph.Proofs.Derivation.Evaluator
import ScanGraph.Proofs.Pipeline.Worker
import ScanGraph.Proofs.Queue.Lines

namespace ScanGraph

namespace Routine

/-- A course makes the calls of a routine, and the calls of its evaluations, with those of one
commit gone through at once. -/
inductive Spells {α : Type} : Routine α → Course α → Prop
  | done (x : Except Fault α) : Spells (.done x) (.done x)
  | call {β : Type} {act : Action β} {next : Except Fault β → Routine α}
      {rest : Except Fault β → Course α} :
      (∀ answer, Spells (next answer) (rest answer)) →
      Spells (.call act next) (.call [] act rest)
  | evaluate {changed : Reference} {t : Instant}
      {gather : List (Course RuleOutcome) → Course (List RuleOutcome)}
      {next : Except Fault (List RuleOutcome) → Routine α}
      {rest : Except Fault (List RuleOutcome) → Course α} :
      (∀ ws, Course.Gathers ws (gather ws)) → (∀ answer, Spells (next answer) (rest answer)) →
      Spells (.evaluate changed t next) ((Evaluator.deriveBy gather changed t).andThen rest)

/-- A routine spelled out, with its evaluations one after the other. -/
def spell {α : Type} : Routine α → Course α
  | done x => .done x
  | call act next => .call [] act (fun answer => (next answer).spell)
  | evaluate changed t next =>
      (Evaluator.deriveBy (Course.inOrder []) changed t).andThen (fun answer => (next answer).spell)

theorem spells_spell {α : Type} (w : Routine α) : Spells w w.spell := by
  induction w with
  | done x => exact .done x
  | call act next ih => exact .call ih
  | evaluate changed t next ih => exact .evaluate Course.gathers_inOrder ih

theorem run_spell {α : Type} (w : Routine α) : w.spell.run = w.run := by
  funext p
  induction w generalizing p with
  | done x => rfl
  | call act next ih => exact ih _ _
  | evaluate changed t next ih =>
    unfold spell
    rw [Course.run_andThen, Evaluator.run_deriveBy]
    exact ih _ _

end Routine

/-- A pipeline and the courses that are gone through there. -/
structure Shift where
  pipeline : Pipeline
  courses : List (Course Unit)

namespace Shift

/-- One call of one course, or a change of which courses there are, of declared levels or of the
time. -/
inductive Step : Shift → List (List UInt8) → Shift → Prop
  | submitScan {p : Pipeline} {ws : List (Course Unit)} {w : Course Unit} (scanner : String)
      (input : Reference) :
      (discard (Worker.submitScan scanner input)).Spells w → Step ⟨p, ws⟩ [] ⟨p, w :: ws⟩
  | submitObservation {p : Pipeline} {ws : List (Course Unit)} {w : Course Unit} (method : String)
      (source : Reference) (objects : List Snapshot) (t : Instant) :
      (discard (Worker.submitObservation method source objects t)).Spells w →
      Step ⟨p, ws⟩ [] ⟨p, w :: ws⟩
  /-- Of the jobs that wait any one may be taken. -/
  | take {p : Pipeline} {queue : Queue} {ws : List (Course Unit)} {w : Course Unit} {r : Request} :
      p.queue.waiting.Perm (r :: queue.waiting) → (Worker.runJob r).Spells w →
      Step ⟨p, ws⟩ [] ⟨{ p with queue }, w :: ws⟩
  | call {β : Type} {p : Pipeline} {us vs : List (Course Unit)} {hashed : List (List UInt8)}
      {act : Action β} {next : Except Fault β → Course Unit} :
      Step ⟨p, us ++ .call hashed act next :: vs⟩ hashed
        ⟨(act p).2, us ++ next (act p).1 :: vs⟩
  /-- Only who is done leaves. -/
  | leave {p : Pipeline} {us vs : List (Course Unit)} {x : Except Fault Unit} :
      Step ⟨p, us ++ .done x :: vs⟩ [] ⟨p, us ++ vs⟩
  /-- Time passes between two calls, or the clock is set. -/
  | elapse {p : Pipeline} {ws : List (Course Unit)} (clock : Nat) :
      Step ⟨p, ws⟩ [] ⟨{ p with clock }, ws⟩
  | declare {p : Pipeline} {ws : List (Course Unit)} {store : Store} {r : Reference} {l : Level}
      {t : Instant} :
      p.store.declare r l t = .ok store → Step ⟨p, ws⟩ [] ⟨{ p with store }, ws⟩
  | recalculate {p : Pipeline} {ws : List (Course Unit)} {store : Store} {t : Instant}
      {rs : List Reference} :
      p.store.recalculateProfiles t = .ok (store, rs) → Step ⟨p, ws⟩ [] ⟨{ p with store }, ws⟩

/-- What a shift comes to by any number of steps, with all that was hashed on the way. -/
inductive Runs : Shift → List (List UInt8) → Shift → Prop
  | refl (c : Shift) : Runs c [] c
  | tail {c c' c'' : Shift} {os os' : List (List UInt8)} :
      Runs c os c' → Step c' os' c'' → Runs c (os ++ os') c''

/-! ## Uninterrupted runs -/

section Uninterrupted

variable {c c' c'' : Shift} {os os' : List (List UInt8)} {p : Pipeline} {ws : List (Course Unit)}

theorem Runs.single (h : Step c os c') : Runs c os c' :=
  Runs.tail (.refl c) h

theorem Runs.trans (h : Runs c os c') (h' : Runs c' os' c'') : Runs c (os ++ os') c'' := by
  induction h' with
  | refl => exact (List.append_nil os).symm ▸ h
  | tail _ hstep ih => exact List.append_assoc os _ _ ▸ ih.tail hstep

theorem step_first {β : Type} {hashed : List (List UInt8)} {act : Action β}
    {next : Except Fault β → Course Unit} :
    Step ⟨p, .call hashed act next :: ws⟩ hashed ⟨(act p).2, next (act p).1 :: ws⟩ := by
  have hstep : Step ⟨p, [] ++ .call hashed act next :: ws⟩ hashed
      ⟨(act p).2, [] ++ next (act p).1 :: ws⟩ := .call
  exact hstep

/-- A course that is not interrupted does what its action does, and is over. -/
theorem runs_course (w : Course Unit) (p : Pipeline) (ws : List (Course Unit)) :
    Runs ⟨p, w :: ws⟩ (w.hashes p) ⟨(w.run p).2, ws⟩ := by
  induction w generalizing p with
  | done x =>
    have hstep : Step ⟨p, [] ++ .done x :: ws⟩ [] ⟨p, ws⟩ := .leave
    exact .single hstep
  | call hashed act next ih => exact (Runs.single step_first).trans (ih _ _)

theorem step_dequeue {p' : Pipeline} {k : JobKind} {r : Request}
    (h : p.dequeue k = (p', some r)) :
    Step ⟨p, ws⟩ [] ⟨p', (Worker.runJob r).spell :: ws⟩ := by
  obtain ⟨hpipeline, hqueue⟩ := Pipeline.dequeue_eq_some_iff.1 h
  have hstep : Step ⟨p, ws⟩ [] ⟨{ p with queue := p'.queue }, (Worker.runJob r).spell :: ws⟩ :=
    .take (Queue.waiting_of_dequeue hqueue) (Routine.spells_spell _)
  rwa [← hpipeline] at hstep

theorem runs_round {p' : Pipeline} {k : JobKind} {r : Request} (h : p.dequeue k = (p', some r)) :
    Runs ⟨p, ws⟩ ((Worker.runJob r).spell.hashes p') ⟨(p'.runJob r).1, ws⟩ := by
  have hrun := runs_course (Worker.runJob r).spell p' ws
  rw [Routine.run_spell, Worker.run_runJob] at hrun
  exact (Runs.single (step_dequeue h)).trans hrun

theorem exists_runs_drain (budget : Nat) (p : Pipeline) (ws : List (Course Unit)) :
    ∃ os, Runs ⟨p, ws⟩ os ⟨(p.drain budget).1, ws⟩ := by
  suffices hfrom : ∀ k summary, ∃ os, Runs ⟨p, ws⟩ os
      ⟨(Pipeline.drainFrom budget k summary p).1, ws⟩ from hfrom .scan .zero
  induction budget generalizing p with
  | zero => exact fun _ _ => ⟨[], .refl _⟩
  | succ budget ih =>
    intro k summary
    unfold Pipeline.drainFrom
    cases hline : Pipeline.nextLine p.queue k with
    | none => exact ⟨[], .refl _⟩
    | some l =>
      obtain ⟨p', r, hdequeue⟩ := Pipeline.exists_dequeue_of_nextLine hline
      obtain ⟨os, hrest⟩ := ih (p'.runJob r).1 l (summary.count (p'.runJob r).2)
      simp only [hdequeue]
      exact ⟨_, (runs_round hdequeue).trans hrest⟩

end Uninterrupted

end Shift

end ScanGraph
