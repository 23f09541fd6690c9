/-
What a routine does while others act.

Between two calls of a routine others may do what a relation on pipelines allows:
at most that the policy stays and the store is only changed by calls (`Rely`).  A
routine obeys if each of its calls is a step that is allowed from any moment on
that others may lead to.  This goes through sequences, so that what a routine
obeys is found by looking at its calls one by one.

`Obeys` is the rule of this kind: a relation that others keep to, one that each call of
the routine must keep to, and what the routine comes to.  It is closed under sequences,
lists and the handling of errors, and `Obeys.run` is its case for a routine that nobody
interrupts, by which what was proved of routines holds of the actions that are run.

A step that reads the outcomes of an evaluation may be given any that a later moment
could lead to; what they have in common is all that is used of them
(`exists_memory_deriveFor`).  Time is not bounded: a routine that is never continued
obeys.
-/
import Mathlib.Logic.Relation
import ScanGraph.Proofs.Archive.Growth
import ScanGraph.Proofs.Pipeline.Routine
import ScanGraph.Proofs.Store.Lasting

namespace ScanGraph

namespace Pipeline

/-- A later moment: the policy is the same, and calls led from the store to that of then. -/
structure Later (p q : Pipeline) : Prop where
  policy : q.policy = p.policy
  store : Relation.ReflTransGen Store.Call p.store q.store

theorem Later.refl (p : Pipeline) : p.Later p :=
  ⟨rfl, .refl⟩

theorem Later.trans {p q s : Pipeline} (h : p.Later q) (h' : q.Later s) : p.Later s :=
  ⟨h'.policy.trans h.policy, h.store.trans h'.store⟩

/-- A later moment with the same plugins. -/
structure Stays (p q : Pipeline) : Prop where
  later : p.Later q
  registry : q.registry = p.registry

/-- What a routine relies on others to keep to: any number of steps that stay within `Later`, and
among them all that leave the plugins alone and keep what is archived besides. -/
class Rely (rely : Pipeline → Pipeline → Prop) : Prop where
  refl : ∀ p, rely p p
  trans : ∀ {p q s}, rely p q → rely q s → rely p s
  later : ∀ {p q}, rely p q → p.Later q
  of_stays : ∀ {p q}, p.Stays q → p.archive.Grows q.archive → rely p q

instance : Rely Later where
  refl := .refl
  trans := .trans
  later := id
  of_stays h _ := h.later

instance : Rely Stays where
  refl p := ⟨.refl p, rfl⟩
  trans h h' := ⟨h.later.trans h'.later, h'.registry.trans h.registry⟩
  later := Stays.later
  of_stays h _ := h

theorem exists_memory_deriveFor (changed : Reference) (t : Instant) (p : Pipeline) :
    ∃ memory clock, (deriveFor changed t p).2 = { p with memory, clock } := by
  unfold deriveFor
  rw [Action.get_bind]
  cases p.engine.deriveFor (paced p.clock) p.memory changed t with
  | ok found => exact ⟨found.1, _, rfl⟩
  | error e => exact ⟨p.memory, p.clock, rfl⟩

end Pipeline

namespace Routine

open Pipeline

/-- Every call of a routine is a step that is allowed, whatever others did before it, and what the
routine comes to is as it should be. -/
def Obeys {α : Type} (rely step : Pipeline → Pipeline → Prop) (post : α → Pipeline → Prop) :
    Routine α → Pipeline → Prop
  | done (.ok a), p => post a p
  | done (.error _), _ => True
  | call act next, p => ∀ q, rely p q →
      step q (act q).2 ∧ (next (act q).1).Obeys rely step post (act q).2
  | evaluate _ _ next, p => ∀ q answer, rely p q → (next answer).Obeys rely step post q

section Obeys

variable {α β : Type} {rely step step' : Pipeline → Pipeline → Prop} [Rely rely]
  {post : α → Pipeline → Prop} {w : Routine α} {p q : Pipeline}

theorem Obeys.imp (hrely : ∀ p q, step p q → rely p q) {post' : α → Pipeline → Prop}
    (h : w.Obeys rely step post p) (hstep : ∀ q s, rely p q → step q s → step' q s)
    (hpost : ∀ a q, post a q → post' a q) : w.Obeys rely step' post' p := by
  induction w generalizing p with
  | done x =>
    cases x with
    | ok a => exact hpost a p h
    | error fault => trivial
  | call act next ih =>
    intro q hq
    obtain ⟨hcall, hnext⟩ := h q hq
    refine ⟨hstep q _ hq hcall, ih _ hnext (fun q' s hq' => hstep q' s ?_)⟩
    exact Rely.trans (Rely.trans hq (hrely _ _ hcall)) hq'
  | evaluate changed t next ih =>
    exact fun q answer hq =>
      ih answer (h q answer hq) (fun q' s hq' => hstep q' s (Rely.trans hq hq'))

/-- What obeys from some moment on obeys from every later one on. -/
theorem Obeys.later (h : w.Obeys rely step post p) (hq : rely p q)
    (hpost : ∀ a, post a p → post a q) : w.Obeys rely step post q := by
  cases w with
  | done x =>
    cases x with
    | ok a => exact hpost a h
    | error fault => trivial
  | call act next => exact fun s hs => h s (Rely.trans hq hs)
  | evaluate changed t next => exact fun s answer hs => h s answer (Rely.trans hq hs)

theorem Obeys.bind (hrely : ∀ p q, step p q → rely p q) {f : α → Routine β}
    {post' : β → Pipeline → Prop} (h : w.Obeys rely step post p)
    (hf : ∀ a q, rely p q → post a q → (f a).Obeys rely step post' q) :
    (w >>= f).Obeys rely step post' p := by
  rw [bind_def]
  induction w generalizing p with
  | done x =>
    cases x with
    | ok a => exact hf a p (Rely.refl p) h
    | error fault => trivial
  | call act next ih =>
    intro q hq
    obtain ⟨hstep, hnext⟩ := h q hq
    refine ⟨hstep, ih _ hnext (fun a s hs => hf a s ?_)⟩
    exact Rely.trans (Rely.trans hq (hrely _ _ hstep)) hs
  | evaluate changed t next ih =>
    exact fun q answer hq =>
      ih answer (h q answer hq) (fun a s hs => hf a s (Rely.trans hq hs))

omit [Rely rely] in
theorem Obeys.outcome (h : w.Obeys rely step post p) :
    w.outcome.Obeys rely step (fun x q => ∀ a, x = .ok a → post a q) p := by
  induction w generalizing p with
  | done x =>
    cases x with
    | ok a =>
      rintro _ ⟨⟩
      exact h
    | error fault =>
      rintro _ ⟨⟩
  | call act next ih => exact fun q hq => ⟨(h q hq).1, ih _ (h q hq).2⟩
  | evaluate changed t next ih => exact fun q answer hq => ih answer (h q answer hq)

theorem Obeys.result (hrely : ∀ p q, step p q → rely p q) (h : w.Obeys rely step post p) :
    w.result.Obeys rely step (fun x q => ∀ a, x = .ok a → post a q) p := by
  refine h.outcome.bind hrely (fun x q _ hx => ?_)
  rcases x with (e | m) | a
  · rintro _ ⟨⟩
  · trivial
  · rintro _ ⟨⟩
    exact hx a rfl

theorem Obeys.ignoring (hrely : ∀ p q, step p q → rely p q) {w : Routine Unit}
    {post : Unit → Pipeline → Prop} (h : w.Obeys rely step post p) :
    w.ignoring.Obeys rely step (fun _ _ => True) p :=
  (h.result hrely).bind hrely (fun _ _ _ _ => trivial)

omit [Rely rely] in
theorem obeys_once {act : Action α} (hstep : ∀ q, rely p q → step q (act q).2)
    (hpost : ∀ q a q', rely p q → act q = (.ok a, q') → post a q') :
    (once act).Obeys rely step post p := by
  intro q hq
  refine ⟨hstep q hq, ?_⟩
  cases hact : act q with
  | mk x q' =>
    cases x with
    | ok a => exact hpost q a q' hq hact
    | error fault => trivial

omit [Rely rely] in
theorem obeys_ofExcept (x : Except PipelineError α) :
    (ofExcept x).Obeys rely step (fun _ _ => True) p := by
  cases x <;> trivial

/-- Routines one after the other, where what one comes to stays as it should be. -/
theorem obeys_mapM (hrely : ∀ p q, step p q → rely p q) {f : α → Routine β}
    {post : β → Pipeline → Prop} (hpost : ∀ b p q, rely p q → post b p → post b q) (l : List α)
    (h : ∀ a ∈ l, ∀ q, rely p q → (f a).Obeys rely step post q) :
    (l.mapM f).Obeys rely step (fun bs q => ∀ b ∈ bs, post b q) p := by
  induction l generalizing p with
  | nil => exact fun b hb => absurd hb List.not_mem_nil
  | cons a l ih =>
    rw [List.mapM_cons]
    refine (h a List.mem_cons_self p (Rely.refl p)).bind hrely (fun b q hq hb => ?_)
    have hrest : ∀ a ∈ l, ∀ s, rely q s → (f a).Obeys rely step post s :=
      fun a ha s hs => h a (List.mem_cons_of_mem _ ha) s (Rely.trans hq hs)
    refine (ih hrest).bind hrely (fun bs s hs hbs => ?_)
    intro b' hb'
    rcases List.mem_cons.1 hb' with rfl | hb'
    · exact hpost _ q s hs hb
    · exact hbs b' hb'

theorem obeys_forM (hrely : ∀ p q, step p q → rely p q) {f : α → Routine Unit} (l : List α)
    (h : ∀ a ∈ l, ∀ q, rely p q → (f a).Obeys rely step (fun _ _ => True) q) :
    (l.forM f).Obeys rely step (fun _ _ => True) p := by
  induction l generalizing p with
  | nil => trivial
  | cons a l ih =>
    refine (h a List.mem_cons_self p (Rely.refl p)).bind hrely (fun _ q hq _ => ?_)
    exact ih (fun a ha s hs => h a (List.mem_cons_of_mem _ ha) s (Rely.trans hq hs))

/-- A routine that obeys and is not interrupted takes a step as a whole. -/
theorem Obeys.run (hrely : ∀ p q, step p q → rely p q) (hrefl : ∀ p, step p p)
    (htrans : ∀ p q s, step p q → step q s → step p s)
    (hmemory : ∀ p memory clock, step p { p with memory, clock }) (h : w.Obeys rely step post p) :
    step p (w.run p).2 := by
  induction w generalizing p with
  | done x => exact hrefl p
  | call act next ih =>
    obtain ⟨hstep, hnext⟩ := h p (Rely.refl p)
    exact htrans _ _ _ hstep (ih _ hnext)
  | evaluate changed t next ih =>
    have hstep : step p (deriveFor changed t p).2 := by
      obtain ⟨memory, clock, hmemory'⟩ := exists_memory_deriveFor changed t p
      exact hmemory' ▸ hmemory p memory clock
    exact htrans _ _ _ hstep (ih _ (h _ _ (hrely _ _ hstep)))

end Obeys

end Routine

end ScanGraph
