/-
Routines: actions in steps, between which others may act.

An action is done in one go.  A routine does the same by calls, each of which is
an action of its own and is done in one go; what happens to the pipeline between
two calls is left open.  An evaluation of rules reads the store many times, so it
is a step of its own whose answer may come from anywhere in between.  Run without
interruption, a routine is an action again: `run`.

A routine is either done, a call with what follows for each of its answers, or the
evaluation of what a commit concerns with what follows for each list of outcomes.  It is
a tree, so that a statement about all ways through it is proved by induction, whatever
happens in between.  `bind_pure` and `bind_assoc` make it a lawful monad, and `run_bind`
takes sequences of routines to sequences of actions.

Nothing is proved about pipelines here.  Which routines there are is `Pipeline.Worker`,
and what may happen between two calls is stated where it matters:
`Pipeline.Interference`, `Pipeline.Meanwhile`, `Pipeline.Crew`.
-/
import ScanGraph.Proofs.Pipeline.Frame

namespace ScanGraph

/-- What is done in steps, with what it comes to. -/
inductive Routine (α : Type) : Type 1
  | done (outcome : Except Fault α)
  | call {β : Type} (act : Action β) (next : Except Fault β → Routine α)
  /-- The evaluations of what a commit concerns. -/
  | evaluate (changed : Reference) (t : Instant)
      (next : Except Fault (List RuleOutcome) → Routine α)

namespace Routine

/-- One routine after another, unless it fails. -/
def bind {α β : Type} : Routine α → (α → Routine β) → Routine β
  | done (.ok a), f => f a
  | done (.error fault), _ => done (.error fault)
  | call act next, f => call act (fun answer => (next answer).bind f)
  | evaluate changed t next, f => evaluate changed t (fun answer => (next answer).bind f)

instance : Monad Routine where
  pure a := done (.ok a)
  bind := bind

section Laws

variable {α β γ : Type}

theorem bind_def (w : Routine α) (f : α → Routine β) : w >>= f = w.bind f := rfl

theorem bind_pure (w : Routine α) : w.bind (fun a => done (.ok a)) = w := by
  induction w with
  | done x => cases x <;> rfl
  | call act next ih => simp only [bind, ih]
  | evaluate changed t next ih => simp only [bind, ih]

theorem bind_assoc (w : Routine α) (f : α → Routine β) (g : β → Routine γ) :
    (w.bind f).bind g = w.bind (fun a => (f a).bind g) := by
  induction w with
  | done x => cases x <;> rfl
  | call act next ih => simp only [bind, ih]
  | evaluate changed t next ih => simp only [bind, ih]

end Laws

instance : LawfulMonad Routine :=
  .mk' Routine bind_pure (fun _ _ => rfl) bind_assoc

def once {α : Type} (act : Action α) : Routine α :=
  call act done

/-- The evaluations of what a commit concerns. -/
def outcomes (changed : Reference) (t : Instant) : Routine (List RuleOutcome) :=
  evaluate changed t done

/-- A routine whose outcome, good or bad, is its result. -/
def outcome {α : Type} : Routine α → Routine (Except Fault α)
  | done x => done (.ok x)
  | call act next => call act (fun answer => (next answer).outcome)
  | evaluate changed t next => evaluate changed t (fun answer => (next answer).outcome)

/-- A routine whose errors are part of its result; panics go on. -/
def result {α : Type} (w : Routine α) : Routine (Except PipelineError α) := do
  match ← w.outcome with
  | .ok a => pure (.ok a)
  | .error (.error e) => pure (.error e)
  | .error (.panic m) => done (.error (.panic m))

/-- A routine whose errors do not matter. -/
def ignoring (w : Routine Unit) : Routine Unit := do
  let _ ← w.result
  pure ()

def ofExcept {α : Type} : Except PipelineError α → Routine α
  | .ok a => pure a
  | .error e => done (.error (.error e))

/-- The action that a routine is if nobody interrupts it. -/
def run {α : Type} : Routine α → Action α
  | done x => fun p => (x, p)
  | call act next => fun p => (next (act p).1).run (act p).2
  | evaluate changed t next => fun p =>
      (next (Pipeline.deriveFor changed t p).1).run (Pipeline.deriveFor changed t p).2

/-! ## Running -/

section Run

variable {α β : Type}

theorem run_pure (a : α) : (pure a : Routine α).run = pure a := rfl

theorem run_once (act : Action α) : (once act).run = act := rfl

theorem run_outcomes (changed : Reference) (t : Instant) :
    (outcomes changed t).run = Pipeline.deriveFor changed t := rfl

theorem run_bind_apply (w : Routine α) (f : α → Routine β) (p : Pipeline) :
    (w >>= f).run p = (w.run >>= fun a => (f a).run) p := by
  rw [bind_def]
  induction w generalizing p with
  | done x =>
    cases x with
    | ok a =>
      have hdone : (done (.ok a) : Routine α).run p = (.ok a, p) := rfl
      exact (Action.bind_of_ok (f := fun a => (f a).run) hdone).symm
    | error fault =>
      have hdone : (done (.error fault) : Routine α).run p = (.error fault, p) := rfl
      exact (Action.bind_of_error (f := fun a => (f a).run) hdone).symm
  | call act next ih => exact ih (act p).1 (act p).2
  | evaluate changed t next ih => exact ih _ _

theorem run_bind (w : Routine α) (f : α → Routine β) :
    (w >>= f).run = w.run >>= fun a => (f a).run := by
  funext p
  exact run_bind_apply w f p

theorem run_outcome (w : Routine α) (p : Pipeline) :
    w.outcome.run p = (.ok (w.run p).1, (w.run p).2) := by
  induction w generalizing p with
  | done x => rfl
  | call act next ih => exact ih (act p).1 (act p).2
  | evaluate changed t next ih => exact ih _ _

theorem run_result (w : Routine α) : w.result.run = Action.result w.run := by
  funext p
  unfold result Action.result
  rw [run_bind, Action.bind_of_ok (run_outcome w p)]
  cases hrun : w.run p with
  | mk x q =>
    rcases x with (e | m) | a <;> rfl

theorem run_ignoring (w : Routine Unit) : w.ignoring.run = Action.ignoring w.run := by
  unfold ignoring Action.ignoring
  rw [run_bind, run_result]
  rfl

theorem run_ofExcept (x : Except PipelineError α) : (ofExcept x).run = Action.ofExcept x := by
  cases x <;> rfl

theorem run_mapM {f : α → Routine β} {g : α → Action β} (h : ∀ a, (f a).run = g a) (l : List α) :
    (l.mapM f).run = l.mapM g := by
  induction l with
  | nil => rfl
  | cons a l ih => simp only [List.mapM_cons, run_bind, h, ih, run_pure]

theorem run_forM {f : α → Routine Unit} {g : α → Action Unit} (h : ∀ a, (f a).run = g a)
    (l : List α) : (l.forM f).run = l.forM g := by
  induction l with
  | nil => rfl
  | cons a l ih =>
    show (f a >>= fun _ => l.forM f).run = g a >>= fun _ => l.forM g
    rw [run_bind, h, ih]

end Run

end Routine

end ScanGraph
