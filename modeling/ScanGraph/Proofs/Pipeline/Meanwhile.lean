/-
Routines that are carried out while other things happen.

Between two calls of a routine others may change all of a pipeline but its queue and
its archive; the store above all may go offline and come back at any moment.
`Executes` says what a routine then comes to and what it leaves; without interruption
it is what the routine is run for: `executes_run`.  Most of what a dispatch does only
adds jobs to the queue and attempts to the archive, and does not panic: `Adding`.

Here, unlike in `Pipeline.Interference`, the queue and the archive are fixed while
others act, and everything else is free.  This is the view of a worker who wants to know
what will be found in the archive, and it lets a dispatch be described by what it adds.

`Executes` has a case for the outcomes of rules, which are left open, as the store may
change between two of their reads; only that they are no panic is known.  `executes_run`
says that what is run without interruption is executed, so that a statement about
executions is one about drains.

`Elsewhere` asks that no service breaks down or is repaired meanwhile.  A store that
goes offline is not out of order in this sense, since the store is free to change.
-/
import ScanGraph.Proofs.Pipeline.Services

namespace ScanGraph

namespace Pipeline

/-- Queue and archive are left alone, and no service breaks down or is repaired. -/
structure Elsewhere (p q : Pipeline) : Prop where
  queue : q.queue = p.queue
  archive : q.archive = p.archive
  outages : q.outages = p.outages

theorem Elsewhere.refl (p : Pipeline) : p.Elsewhere p :=
  ⟨rfl, rfl, rfl⟩

theorem Elsewhere.trans {p q s : Pipeline} (h : p.Elsewhere q) (h' : q.Elsewhere s) :
    p.Elsewhere s :=
  ⟨h'.queue.trans h.queue, h'.archive.trans h.archive, h'.outages.trans h.outages⟩

/-- Jobs are queued and attempts recorded, and nothing else becomes of queue and archive. -/
structure Adds (p q : Pipeline) : Prop where
  outages : q.outages = p.outages
  queue : ∃ rs, q.queue = p.queue.enqueueAll rs
  archive : ∃ attempts, q.archive = { p.archive with attempts }

section Adds

variable {p q s : Pipeline}

theorem Elsewhere.adds (h : p.Elsewhere q) : p.Adds q :=
  ⟨h.outages, ⟨[], h.queue⟩, ⟨p.archive.attempts, h.archive⟩⟩

theorem Adds.trans (h : p.Adds q) (h' : q.Adds s) : p.Adds s := by
  obtain ⟨rs, hqueue⟩ := h.queue
  obtain ⟨rs', hqueue'⟩ := h'.queue
  obtain ⟨attempts, harchive⟩ := h.archive
  obtain ⟨attempts', harchive'⟩ := h'.archive
  refine ⟨h'.outages.trans h.outages, ⟨rs ++ rs', ?_⟩, ⟨attempts', ?_⟩⟩
  · rw [hqueue', hqueue, Queue.enqueueAll_append]
  · rw [harchive', harchive]

theorem Elsewhere.of_still (h : q.still = p.still) : p.Elsewhere q := by
  simp only [still, Prod.mk.injEq] at h
  obtain ⟨-, -, -, -, -, hqueue, harchive, houtages, -⟩ := h
  exact ⟨hqueue, harchive, houtages⟩

end Adds

end Pipeline

namespace Routine

open Pipeline

/-- What a routine comes to and leaves while others are busy elsewhere.  What rules come to is left
open, as the store may change between two of their reads, but it is never a panic:
`deriveFor_ne_panic`. -/
inductive Executes {α : Type} : Routine α → Pipeline → Except Fault α → Pipeline → Prop
  | done {x : Except Fault α} {p : Pipeline} : Executes (.done x) p x p
  | call {β : Type} {act : Action β} {next : Except Fault β → Routine α} {p q s : Pipeline}
      {x : Except Fault α} :
      p.Elsewhere q → Executes (next (act q).1) (act q).2 x s → Executes (.call act next) p x s
  | evaluate {changed : Reference} {t : Instant}
      {next : Except Fault (List RuleOutcome) → Routine α} {p q s : Pipeline} {x : Except Fault α}
      (answer : Except Fault (List RuleOutcome)) :
      p.Elsewhere q → (∀ m, answer ≠ .error (.panic m)) → Executes (next answer) q x s →
      Executes (.evaluate changed t next) p x s

section Executes

variable {α β : Type} {w : Routine α} {f : α → Routine β} {p s : Pipeline}

/-- A routine after another fails with the first or goes on from what this one came to. -/
theorem executes_bind {x : Except Fault β} (h : (w >>= f).Executes p x s) :
    (∃ fault, w.Executes p (.error fault) s ∧ x = .error fault) ∨
      ∃ a q, w.Executes p (.ok a) q ∧ (f a).Executes q x s := by
  rw [bind_def] at h
  induction w generalizing p with
  | done y =>
    cases y with
    | ok a => exact .inr ⟨a, p, .done, h⟩
    | error fault =>
      cases h
      exact .inl ⟨fault, .done, rfl⟩
  | call act next ih =>
    cases h with
    | call helsewhere hrest =>
      rcases ih _ hrest with ⟨fault, hfails, rfl⟩ | ⟨a, q, hfirst, hrest⟩
      · exact .inl ⟨fault, .call helsewhere hfails, rfl⟩
      · exact .inr ⟨a, q, .call helsewhere hfirst, hrest⟩
  | evaluate changed t next ih =>
    cases h with
    | evaluate answer helsewhere hanswer hrest =>
      rcases ih _ hrest with ⟨fault, hfails, rfl⟩ | ⟨a, q, hfirst, hrest⟩
      · exact .inl ⟨fault, .evaluate answer helsewhere hanswer hfails, rfl⟩
      · exact .inr ⟨a, q, .evaluate answer helsewhere hanswer hfirst, hrest⟩

theorem executes_once {act : Action α} {x : Except Fault α} (h : (once act).Executes p x s) :
    ∃ q, p.Elsewhere q ∧ act q = (x, s) := by
  cases h with
  | call helsewhere hdone =>
    cases hdone
    exact ⟨_, helsewhere, rfl⟩

theorem executes_outcome {x : Except Fault (Except Fault α)} (h : w.outcome.Executes p x s) :
    ∃ y, x = .ok y ∧ w.Executes p y s := by
  induction w generalizing p with
  | done y =>
    cases h
    exact ⟨y, rfl, .done⟩
  | call act next ih =>
    cases h with
    | call helsewhere hrest =>
      obtain ⟨y, hx, hy⟩ := ih _ hrest
      exact ⟨y, hx, .call helsewhere hy⟩
  | evaluate changed t next ih =>
    cases h with
    | evaluate answer helsewhere hanswer hrest =>
      obtain ⟨y, hx, hy⟩ := ih _ hrest
      exact ⟨y, hx, .evaluate answer helsewhere hanswer hy⟩

theorem executes_result {x : Except Fault (Except PipelineError α)}
    (h : w.result.Executes p x s)
    (hpanic : ∀ m, ¬ w.Executes p (.error (.panic m)) s) :
    (∃ a, x = .ok (.ok a) ∧ w.Executes p (.ok a) s) ∨
      ∃ e, x = .ok (.error e) ∧ w.Executes p (.error (.error e)) s := by
  rcases executes_bind h with ⟨fault, hfails, -⟩ | ⟨y, q, houtcome, hrest⟩
  · obtain ⟨y, hy, -⟩ := executes_outcome hfails
    cases hy
  · obtain ⟨y', hy, hw⟩ := executes_outcome houtcome
    cases hy
    rcases y with (e | m) | a
    · cases hrest
      exact .inr ⟨e, rfl, hw⟩
    · cases hrest
      exact absurd hw (hpanic m)
    · cases hrest
      exact .inl ⟨a, rfl, hw⟩

/-- A routine whose errors do not matter comes to an end unless it panics. -/
theorem executes_ignoring {w : Routine Unit} {x : Except Fault Unit}
    (h : w.ignoring.Executes p x s) (hpanic : ∀ m q, ¬ w.Executes p (.error (.panic m)) q) :
    x = .ok () ∧ ∃ y, w.Executes p y s := by
  rcases executes_bind h with ⟨fault, hfails, -⟩ | ⟨a, q, hw, hdone⟩
  · rcases executes_result hfails (fun m => hpanic m s) with ⟨a, ha, -⟩ | ⟨e, he, -⟩
    · cases ha
    · cases he
  · cases hdone
    rcases executes_result hw (fun m => hpanic m _) with ⟨a, -, hw⟩ | ⟨e, -, hw⟩
    · exact ⟨rfl, _, hw⟩
    · exact ⟨rfl, _, hw⟩

theorem deriveFor_ne_panic (changed : Reference) (t : Instant) (p : Pipeline) (m : String) :
    (deriveFor changed t p).1 ≠ .error (.panic m) := by
  unfold deriveFor
  rw [Action.get_bind]
  cases p.engine.deriveFor (paced p.clock) p.memory changed t with
  | ok found => rintro ⟨⟩
  | error e => rintro ⟨⟩

/-- A routine that is not interrupted comes to what it is run for. -/
theorem executes_run (w : Routine α) (p : Pipeline) : w.Executes p (w.run p).1 (w.run p).2 := by
  induction w generalizing p with
  | done x => exact .done
  | call act next ih => exact .call (.refl p) (ih _ _)
  | evaluate changed t next ih =>
    have helsewhere : p.Elsewhere (deriveFor changed t p).2 := by
      obtain ⟨memory, clock, hmemory⟩ := Pipeline.exists_memory_deriveFor changed t p
      rw [hmemory]
      exact ⟨rfl, rfl, rfl⟩
    exact .evaluate _ helsewhere (deriveFor_ne_panic changed t p) (ih _ _)

end Executes

/-! ## Routines that add -/

/-- Whatever happens elsewhere, the routine only adds and comes to such an outcome, where no service
is out of order. -/
def Adding {α : Type} (w : Routine α) (post : Except Fault α → Prop) : Prop :=
  ∀ p x s, p.outages = .none → w.Executes p x s → p.Adds s ∧ post x

/-- The outcome is not a panic. -/
def Unpanicked {α : Type} (x : Except Fault α) : Prop :=
  ∀ m, x ≠ .error (.panic m)

def Gives {α : Type} (post : α → Prop) (x : Except Fault α) : Prop :=
  ∃ a, x = .ok a ∧ post a

section Adding

variable {α β : Type} {w : Routine α} {f : α → Routine β} {act : Action α}

theorem unpanicked_ok (a : α) : Unpanicked (.ok a : Except Fault α) := by
  rintro m ⟨⟩

theorem unpanicked_error (e : PipelineError) : Unpanicked (.error (.error e) : Except Fault α) := by
  rintro m ⟨⟩

theorem Adding.unpanicked {post : α → Prop} (h : w.Adding (Gives post)) : w.Adding Unpanicked := by
  intro p x s hp hx
  obtain ⟨hadds, a, rfl, -⟩ := h p x s hp hx
  exact ⟨hadds, unpanicked_ok a⟩

theorem Adding.bind {post : Except Fault α → Prop} {post' : Except Fault β → Prop}
    (h : w.Adding post) (herror : ∀ fault, post (.error fault) → post' (.error fault))
    (hf : ∀ a, post (.ok a) → (f a).Adding post') : (w >>= f).Adding post' := by
  intro p x s hp hx
  rcases executes_bind hx with ⟨fault, hfails, rfl⟩ | ⟨a, q, hw, hrest⟩
  · obtain ⟨hadds, hpost⟩ := h p _ s hp hfails
    exact ⟨hadds, herror fault hpost⟩
  · obtain ⟨hadds, hpost⟩ := h p _ q hp hw
    obtain ⟨hmore, hpost'⟩ := hf a hpost q x s (hadds.outages.trans hp) hrest
    exact ⟨hadds.trans hmore, hpost'⟩

theorem Adding.next (h : w.Adding Unpanicked) (hf : ∀ a, (f a).Adding Unpanicked) :
    (w >>= f).Adding Unpanicked := by
  refine h.bind (fun fault hfault m => ?_) (fun a _ => hf a)
  rintro ⟨⟩
  exact hfault m rfl

theorem Adding.after {post : α → Prop} {post' : Except Fault β → Prop} (h : w.Adding (Gives post))
    (hf : ∀ a, post a → (f a).Adding post') : (w >>= f).Adding post' := by
  refine h.bind ?_ ?_
  · rintro fault ⟨a, ⟨⟩, -⟩
  · rintro a ⟨_, ⟨⟩, ha⟩
    exact hf a ha

/-- A routine that does not fail comes to a result, and the next one goes on from there. -/
theorem Adding.executes {post : α → Prop} (h : w.Adding (Gives post)) {p s : Pipeline}
    (hp : p.outages = .none) {x : Except Fault β} (hx : (w >>= f).Executes p x s) :
    ∃ a q, post a ∧ p.Adds q ∧ (f a).Executes q x s := by
  rcases executes_bind hx with ⟨fault, hfails, rfl⟩ | ⟨a, q, hw, hrest⟩
  · obtain ⟨-, a, hfault, -⟩ := h p _ s hp hfails
    cases hfault
  · obtain ⟨hadds, a', ha, hpost⟩ := h p _ q hp hw
    cases ha
    exact ⟨a, q, hpost, hadds, hrest⟩

theorem adding_done {post : Except Fault α → Prop} {x : Except Fault α} (h : post x) :
    (done x).Adding post := by
  rintro p x s hp ⟨⟩
  exact ⟨(Elsewhere.refl p).adds, h⟩

theorem adding_once {post : Except Fault α → Prop}
    (h : ∀ q, q.outages = .none → q.Adds (act q).2 ∧ post (act q).1) : (once act).Adding post := by
  intro p x s hp hx
  obtain ⟨q, helsewhere, hact⟩ := executes_once hx
  obtain ⟨hadds, hpost⟩ := h q (helsewhere.outages.trans hp)
  rw [hact] at hadds hpost
  exact ⟨helsewhere.adds.trans hadds, hpost⟩

theorem adding_yields (h : ∀ q, Yields act q (fun _ => True)) :
    (once act).Adding (Gives (fun _ => True)) := by
  refine adding_once (fun q _ => ?_)
  obtain ⟨a, s, hact, hstill, -⟩ := h q
  rw [hact]
  exact ⟨(Elsewhere.of_still hstill).adds, a, rfl, trivial⟩

theorem adding_keeps (h : Action.Keeps still act) (hpanic : ∀ q, Unpanicked (act q).1) :
    (once act).Adding Unpanicked :=
  adding_once (fun q _ => ⟨(Elsewhere.of_still (h q)).adds, hpanic q⟩)

theorem Adding.result (h : w.Adding Unpanicked) : w.result.Adding (Gives (fun _ => True)) := by
  intro p x s hp hx
  have hpanic : ∀ m, ¬ w.Executes p (.error (.panic m)) s :=
    fun m hm => (h p _ s hp hm).2 m rfl
  rcases executes_result hx hpanic with ⟨a, rfl, hw⟩ | ⟨e, rfl, hw⟩
  · exact ⟨(h p _ s hp hw).1, _, rfl, trivial⟩
  · exact ⟨(h p _ s hp hw).1, _, rfl, trivial⟩

theorem adding_mapM {f : α → Routine β} (l : List α) (h : ∀ a, (f a).Adding Unpanicked) :
    (l.mapM f).Adding Unpanicked := by
  induction l with
  | nil => exact adding_done (unpanicked_ok [])
  | cons a l ih =>
    rw [List.mapM_cons]
    exact (h a).next (fun b => ih.next (fun bs => adding_done (unpanicked_ok (b :: bs))))

theorem adding_forM {f : α → Routine Unit} (l : List α) (h : ∀ a, (f a).Adding Unpanicked) :
    (l.forM f).Adding Unpanicked := by
  induction l with
  | nil => exact adding_done (unpanicked_ok ())
  | cons a l ih => exact (h a).next (fun _ => ih)

end Adding

end Routine

namespace Worker

open Routine Pipeline

/-! ### What a dispatch does besides -/

theorem adding_now : (once now).Adding (Gives (fun _ => True)) :=
  adding_yields yields_now

theorem adding_get : (once (get : Action Pipeline)).Adding (Gives (fun _ => True)) :=
  adding_yields (fun q => (yields_get q).imp (fun _ _ => trivial))

theorem adding_publish (correlation : Option Uuid) (payload : EventPayload) :
    (once (publish correlation payload)).Adding (Gives (fun _ => True)) :=
  adding_yields (yields_publish correlation payload)

theorem unpanicked_lookUp (r : Reference) (t : Instant) (p : Pipeline) :
    Unpanicked (lookUp r t p).1 := by
  unfold lookUp
  rw [Action.get_bind]
  cases p.store.get r t with
  | ok found => exact unpanicked_ok found
  | error e => exact unpanicked_error _

theorem adding_enqueueAll (rs : List Request) : (enqueueAll rs).Adding (Gives (fun _ => True)) := by
  induction rs with
  | nil => exact adding_done ⟨[], rfl, trivial⟩
  | cons r rs ih =>
    have henqueue : (once (enqueue r)).Adding (Gives (fun _ => True)) := by
      refine adding_once (fun q hq => ?_)
      have hopen : ¬ q.outages.queueClosed = true := by
        rw [hq]
        decide
      rw [enqueue_of_not_closed r hopen]
      exact ⟨⟨rfl, ⟨[r], rfl⟩, ⟨_, rfl⟩⟩, _, rfl, trivial⟩
    exact henqueue.after (fun h _ => ih.after (fun hs _ => adding_done ⟨h :: hs, rfl, trivial⟩))

theorem adding_enqueueAnnounced (rs : List Request) :
    (enqueueAnnounced rs).Adding (Gives (fun _ => True)) := by
  refine (adding_enqueueAll rs).after (fun _ _ => ?_)
  induction rs with
  | nil => exact adding_done ⟨(), rfl, trivial⟩
  | cons r rs ih => exact (adding_publish _ _).after (fun _ _ => ih)

theorem adding_followUps (parent : Option (DeriveJob × Visit)) (correlation : Option Uuid)
    (commits : List Commit) : (followUps parent correlation commits).Adding Unpanicked := by
  have hscans : ∀ c, (scansAfter correlation c).Adding Unpanicked := by
    intro c
    have hlookUp := adding_keeps (keeps_lookUp c.reference c.validTime)
      (unpanicked_lookUp c.reference c.validTime)
    refine hlookUp.result.after (fun found _ => ?_)
    split
    · rename_i input
      have hscan : (once (scansOf input correlation)).Adding (Gives (fun _ => True)) :=
        adding_yields (fun q => (yields_scansOf input correlation q).imp (fun _ _ => trivial))
      exact hscan.unpanicked
    · exact adding_done (unpanicked_ok [])
  have hautomatic : (automaticScans commits correlation).Adding Unpanicked := by
    refine adding_get.after (fun p _ => ?_)
    split
    · exact (adding_mapM commits hscans).next (fun _ => adding_done (unpanicked_ok _))
    · exact adding_done (unpanicked_ok _)
  refine hautomatic.next (fun scans => ?_)
  have hderives : (once (commits.mapM (deriveRequest parent correlation))).Adding
      (Gives (fun _ => True)) := by
    refine adding_yields (fun q => ?_)
    have hmade : Yields (commits.mapM (deriveRequest parent correlation)) q
        (List.Forall₂ (IsDerive parent correlation) commits) :=
      yields_mapM commits (fun c _ q' _ => yields_deriveRequest parent correlation c q')
    exact hmade.imp (fun _ _ => trivial)
  exact hderives.after (fun derives _ => adding_done (unpanicked_ok _))

theorem adding_announceCommits (r : Request) (parent : Option (DeriveJob × Visit))
    (commits : List Commit) : (announceCommits r parent commits).Adding Unpanicked := by
  unfold announceCommits
  split
  · exact adding_done (unpanicked_ok ())
  · refine (adding_publish _ _).after (fun _ _ => ?_)
    exact (adding_followUps parent r.correlation commits).next
      (fun rs => (adding_enqueueAnnounced rs).unpanicked)

theorem adding_observe (o : Observation) : (once (observe o)).Adding Unpanicked := by
  refine adding_once (fun q hq => ?_)
  cases hobserved : q.observed o with
  | ok done =>
    rw [observe_of_ok hobserved]
    exact ⟨⟨rfl, ⟨[], rfl⟩, ⟨_, rfl⟩⟩, unpanicked_ok _⟩
  | error fault =>
    rw [observe_of_error hobserved]
    refine ⟨(Elsewhere.refl q).adds, ?_⟩
    rintro m ⟨⟩
    unfold observed at hobserved
    rw [hq] at hobserved
    simp only [Outages.none, Bool.false_eq_true, if_false] at hobserved
    split at hobserved <;> cases hobserved

end Worker

end ScanGraph
