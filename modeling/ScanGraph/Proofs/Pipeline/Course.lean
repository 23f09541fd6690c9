/-
Courses: what is done in calls alone.

A routine leaves open how rules are evaluated; a course does nothing but call.
With every call stand the octets that it takes the digest of, so that a run tells
which texts were hashed.  Where several things are done at once, their calls may
come in any order (`Gathers`); one after the other is one of the orders
(`gathers_inOrder`).

Courses are to evaluations what routines are to dispatches: a routine has a step for an
evaluation as a whole, while a course breaks it up into calls.  The two are kept apart,
as most statements about dispatches need no more of an evaluation than that it takes
place.

`Safe` is the one way in which courses are looked at: at any moment at which the
pipeline is as it should be, every call leads to such a moment, and the course ends
well.  It goes through sequences, and through courses that are done at once
(`Gathers.safe`), since it asks nothing about whose turn it is.  A course that is given
up before its end owes nothing, and so termination is never at issue.
-/
import Mathlib.Data.Set.Basic
import ScanGraph.Proofs.Pipeline.Routine

namespace ScanGraph

/-- What is done in calls, each with the octets that it takes the digest of. -/
inductive Course (α : Type) : Type 1
  | done (outcome : Except Fault α)
  | call {β : Type} (hashed : List (List UInt8)) (act : Action β)
      (next : Except Fault β → Course α)

namespace Course

/-- A course that goes on with whatever another one comes to. -/
def andThen {α β : Type} : Course α → (Except Fault α → Course β) → Course β
  | done x, f => f x
  | call hashed act next, f => call hashed act (fun answer => (next answer).andThen f)

/-- One course after another, unless it fails. -/
def bind {α β : Type} (w : Course α) (f : α → Course β) : Course β :=
  w.andThen (fun
    | .ok a => f a
    | .error fault => done (.error fault))

instance : Monad Course where
  pure a := done (.ok a)
  bind := bind

def reading {α : Type} (f : Pipeline → α) : Course α :=
  call [] (fun p => (.ok (f p), p)) done

/-- The action that a course is if nobody interrupts it. -/
def run {α : Type} : Course α → Action α
  | done x => fun p => (x, p)
  | call _ act next => fun p => (next (act p).1).run (act p).2

/-- The octets that are hashed if nobody interrupts the course. -/
def hashes {α : Type} : Course α → Pipeline → List (List UInt8)
  | done _, _ => []
  | call hashed act next, p => hashed ++ (next (act p).1).hashes (act p).2

/-- Courses one after the other, with what those before them came to. -/
def inOrder {β : Type} (before : List β) : List (Course β) → Course (List β)
  | [] => pure before
  | w :: ws => do
      let b ← w
      inOrder (before ++ [b]) ws

section Run

variable {α β : Type}

theorem run_pure (a : α) : (pure a : Course α).run = pure a := rfl

theorem run_andThen (w : Course α) (f : Except Fault α → Course β) (p : Pipeline) :
    (w.andThen f).run p = (f (w.run p).1).run (w.run p).2 := by
  induction w generalizing p with
  | done x => rfl
  | call hashed act next ih => exact ih (act p).1 (act p).2

theorem run_bind_of_ok {w : Course α} {f : α → Course β} {p q : Pipeline} {a : α}
    (h : w.run p = (.ok a, q)) : (w >>= f).run p = (f a).run q := by
  show (w.andThen _).run p = (f a).run q
  rw [run_andThen, h]

end Run

/-! ## At once -/

/-- What courses come to if they are gone through at once: whose turn it is is open before each
call, and the first to fail ends all of them. -/
inductive Gathers {β : Type} : List (Course β) → Course (List β) → Prop
  | done (bs : List β) : Gathers (bs.map (fun b => .done (.ok b))) (.done (.ok bs))
  | fault {us vs : List (Course β)} (fault : Fault) :
      Gathers (us ++ .done (.error fault) :: vs) (.done (.error fault))
  | call {γ : Type} {us vs : List (Course β)} {hashed : List (List UInt8)} {act : Action γ}
      {next : Except Fault γ → Course β} {gathered : Except Fault γ → Course (List β)} :
      (∀ answer, Gathers (us ++ next answer :: vs) (gathered answer)) →
      Gathers (us ++ .call hashed act next :: vs) (.call hashed act gathered)

theorem gathers_inOrder {β : Type} (ws : List (Course β)) : Gathers ws (inOrder [] ws) := by
  suffices hfrom : ∀ before : List β,
      Gathers (before.map (fun b => .done (.ok b)) ++ ws) (inOrder before ws) from hfrom []
  induction ws with
  | nil =>
    intro before
    rw [List.append_nil]
    exact .done before
  | cons w ws ih =>
    intro before
    -- the turn is with the first course that is not over
    induction w with
    | done x =>
      cases x with
      | ok b =>
        have hrest := ih (before ++ [b])
        rw [List.map_append, List.append_assoc] at hrest
        exact hrest
      | error fault => exact .fault fault
    | call hashed act next ih => exact .call ih

/-! ## What every call does -/

/-- Wherever others lead between the calls, as long as the pipeline is as it should be, every call
is such a step, and the course comes to such a result and does not fail. -/
def Safe {α : Type} (hashes : Set (List UInt8)) (holds : Pipeline → Prop)
    (step : Pipeline → Pipeline → Prop) (post : α → Prop) : Course α → Prop
  | done (.ok a) => post a
  | done (.error _) => False
  | call hashed act next => (∀ o ∈ hashed, o ∈ hashes) → ∀ p, holds p →
      step p (act p).2 ∧ (next (act p).1).Safe hashes holds step post

section Safe

variable {α β : Type} {hashes : Set (List UInt8)} {holds holds' : Pipeline → Prop}
  {step step' : Pipeline → Pipeline → Prop} {post post' : α → Prop} {w : Course α}

theorem Safe.imp (h : w.Safe hashes holds step post) (hholds : ∀ p, holds' p → holds p)
    (hstep : ∀ p q, holds' p → step p q → step' p q) (hpost : ∀ a, post a → post' a) :
    w.Safe hashes holds' step' post' := by
  induction w with
  | done x =>
    cases x with
    | ok a => exact hpost a h
    | error fault => exact h
  | call hashed act next ih =>
    intro hhashed p hp
    obtain ⟨hcall, hnext⟩ := h hhashed p (hholds p hp)
    exact ⟨hstep p _ hp hcall, ih _ hnext⟩

theorem Safe.and (h : w.Safe hashes holds step post) (h' : w.Safe hashes holds step post') :
    w.Safe hashes holds step (fun a => post a ∧ post' a) := by
  induction w with
  | done x =>
    cases x with
    | ok a => exact ⟨h, h'⟩
    | error fault => exact h
  | call hashed act next ih =>
    intro hhashed p hp
    exact ⟨(h hhashed p hp).1, ih _ (h hhashed p hp).2 (h' hhashed p hp).2⟩

theorem Safe.weaken (h : w.Safe hashes holds step post) (hpost : ∀ a, post a → post' a) :
    w.Safe hashes holds step post' :=
  h.imp (fun _ hp => hp) (fun _ _ _ hstep => hstep) hpost

theorem Safe.bind {f : α → Course β} {post' : β → Prop} (h : w.Safe hashes holds step post)
    (hf : ∀ a, post a → (f a).Safe hashes holds step post') :
    (w >>= f).Safe hashes holds step post' := by
  show (w.andThen _).Safe hashes holds step post'
  induction w with
  | done x =>
    cases x with
    | ok a => exact hf a h
    | error fault => exact h.elim
  | call hashed act next ih =>
    intro hhashed p hp
    obtain ⟨hcall, hnext⟩ := h hhashed p hp
    exact ⟨hcall, ih _ hnext⟩

theorem safe_reading {f : Pipeline → α} (h : ∀ p, holds p → step p p ∧ post (f p)) :
    (reading f).Safe hashes holds step post :=
  fun _ p hp => h p hp

/-- Courses that are gone through at once are safe if each of them is. -/
theorem Gathers.safe {ws : List (Course α)} {gathered : Course (List α)}
    (h : Gathers ws gathered) (hws : ∀ w ∈ ws, w.Safe hashes holds step post) :
    gathered.Safe hashes holds step (fun as => ∀ a ∈ as, post a) := by
  induction h with
  | done as => exact fun a ha => hws _ (List.mem_map_of_mem ha)
  | fault fault =>
    exact (hws (.done (.error fault)) (List.mem_append_right _ List.mem_cons_self)).elim
  | @call γ us vs hashed act next gathered _ ih =>
    intro hhashed p hp
    obtain ⟨hstep, hnext⟩ := hws (.call hashed act next)
      (List.mem_append_right _ List.mem_cons_self) hhashed p hp
    refine ⟨hstep, ih _ (fun w hw => ?_)⟩
    simp only [List.mem_append, List.mem_cons] at hw hws
    rcases hw with hw | rfl | hw
    · exact hws w (.inl hw)
    · exact hnext
    · exact hws w (.inr (.inr hw))

theorem Gathers.safe_mem {ws : List (Course α)} {gathered : Course (List α)}
    (h : Gathers ws gathered) (hws : ∀ w ∈ ws, w.Safe hashes holds step (fun _ => True))
    (hone : ∃ w ∈ ws, w.Safe hashes holds step post) :
    gathered.Safe hashes holds step (fun as => ∃ a ∈ as, post a) := by
  induction h with
  | done as =>
    obtain ⟨w, hw, hpost⟩ := hone
    obtain ⟨a, ha, rfl⟩ := List.mem_map.1 hw
    exact ⟨a, ha, hpost⟩
  | fault fault =>
    exact (hws (.done (.error fault)) (List.mem_append_right _ List.mem_cons_self)).elim
  | @call γ us vs hashed act next gathered _ ih =>
    intro hhashed p hp
    obtain ⟨hstep, hnext⟩ := hws (.call hashed act next)
      (List.mem_append_right _ List.mem_cons_self) hhashed p hp
    simp only [List.mem_append, List.mem_cons] at hws hone ih
    refine ⟨hstep, ih _ (fun w hw => ?_) ?_⟩
    · rcases hw with hw | rfl | hw
      · exact hws w (.inl hw)
      · exact hnext
      · exact hws w (.inr (.inr hw))
    · obtain ⟨w, hw | rfl | hw, hpost⟩ := hone
      · exact ⟨w, .inl hw, hpost⟩
      · exact ⟨_, .inr (.inl rfl), (hpost hhashed p hp).2⟩
      · exact ⟨w, .inr (.inr hw), hpost⟩

end Safe

end Course

end ScanGraph
