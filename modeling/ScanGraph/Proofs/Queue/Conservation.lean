/-
No job is lost, repeated or miscounted by a queue.

A ledger keeps the calls made on a queue that began empty, with their answers.
What was queued, what was taken and what was settled are read off the answers
alone; `conserved` says that the queue agrees with them after every sequence of
calls in which no id is queued twice.

## What is asked

No id is queued twice.  Nothing else: calls may come in any order and from anyone, jobs
may be settled that were never taken, and settled again.

## What is proved

* Of each kind, the jobs queued are as many as those that wait, are in flight, completed
  or failed.
* Of each kind, those taken are the first that were queued, in order and without
  repetition, and nothing is taken exactly if all were.
* A job can be settled exactly if it is in flight; otherwise the call is refused and
  changes nothing.  No job is settled twice.
* The queue is idle exactly if every job that was queued has been settled.

## What is not modelled

A call is one step, which is what a lock makes of it.  Waiting for a job to arrive is no
call of its own; whoever waits asks again.
-/
import Mathlib.Data.List.Induction
import ScanGraph.Proofs.Queue.Lines
import ScanGraph.Proofs.Table.Canonical

namespace ScanGraph

namespace Table

variable {κ α : Type} [DecidableEq κ]

theorem perm_values_insert [LT κ] [DecidableLT κ] {t : Table κ α} {k : κ} (v : α)
    (h : t.get? k = none) : (t.insert k v).values.Perm (v :: t.values) :=
  (perm_place v h).map Prod.snd

theorem perm_values_erase {t : Table κ α} {k : κ} {v : α} (hnodup : t.keys.Nodup)
    (h : t.get? k = some v) : t.values.Perm (v :: (t.erase k).values) := by
  obtain ⟨entries⟩ := t
  show (entries.map Prod.snd).Perm
    (v :: (entries.filter (fun e => decide (e.1 ≠ k))).map Prod.snd)
  have hfind : find? k entries = some v := h
  have hkeys : (entries.map Prod.fst).Nodup := hnodup
  clear h hnodup
  induction entries with
  | nil => cases hfind
  | cons e rest ih =>
    obtain ⟨k', v'⟩ := e
    obtain ⟨hnot, hrest⟩ := List.nodup_cons.1 hkeys
    by_cases hk : k = k'
    · subst hk
      simp only [find?, ↓reduceIte, Option.some.injEq] at hfind
      have hall : ∀ e ∈ rest, decide (e.1 ≠ k) = true := fun e he =>
        decide_eq_true (fun heq => hnot (List.mem_map.2 ⟨e, he, heq⟩))
      rw [List.filter_cons_of_neg (by simp), List.filter_eq_self.2 hall, ← hfind]
      exact List.Perm.refl _
    · simp only [find?, if_neg hk] at hfind
      have hk' : k' ≠ k := fun heq => hk heq.symm
      rw [List.filter_cons_of_pos (by simpa using hk')]
      exact ((ih hfind hrest).cons v').trans (List.Perm.swap _ _ _)

theorem nodup_keys_insert [LT κ] [DecidableLT κ] {t : Table κ α} {k : κ} (v : α)
    (hnodup : t.keys.Nodup) (h : t.get? k = none) : (t.insert k v).keys.Nodup := by
  have hperm : (t.insert k v).keys.Perm (k :: t.keys) := (perm_place v h).map Prod.fst
  refine hperm.nodup_iff.2 (List.nodup_cons.2 ⟨fun hk => ?_, hnodup⟩)
  obtain ⟨e, he, heq⟩ := List.mem_map.1 hk
  exact ne_of_find?_eq_none h e he heq

theorem nodup_keys_erase {t : Table κ α} (k : κ) (hnodup : t.keys.Nodup) :
    (t.erase k).keys.Nodup :=
  hnodup.sublist (List.filter_sublist.map Prod.fst)

theorem isEmpty_entries_iff {t : Table κ α} :
    t.entries.isEmpty = true ↔ ∀ k, (t.get? k).isSome = false := by
  obtain ⟨entries⟩ := t
  cases entries with
  | nil => exact ⟨fun _ _ => rfl, fun _ => rfl⟩
  | cons e rest =>
    constructor
    · intro h
      cases h
    · intro h
      have hfirst := h e.1
      simp [get?, find?] at hfirst

end Table

namespace Queue

inductive Call
  | enqueue (r : Request)
  | enqueueAll (rs : List Request)
  | dequeue (k : JobKind)
  | complete (id : Uuid)
  | fail (id : Uuid) (message : Option String)

inductive Answer
  | queued (handles : List Handle)
  | taken (r : Option Request)
  | settled
  | refused (e : PipelineError)

/-- The answer of a change that may be refused; the queue stays if it is. -/
def answered (q : Queue) : Except PipelineError Queue → Queue × Answer
  | .ok q' => (q', .settled)
  | .error e => (q, .refused e)

/-- A queue after a call, and the answer. -/
def call (q : Queue) : Call → Queue × Answer
  | .enqueue r => (q.enqueue r, .queued [handleOf r])
  | .enqueueAll rs => (q.enqueueAll rs, .queued (rs.map handleOf))
  | .dequeue k => ((q.dequeue k).1, .taken (q.dequeue k).2)
  | .complete id => answered q (q.complete id)
  | .fail id message => answered q (q.fail id message)

/-- A job is asked to be settled: completed, or failed with a message or none. -/
def Call.Settles (id : Uuid) (c : Call) : Prop :=
  c = .complete id ∨ ∃ message, c = .fail id message

def Call.requests : Call → List Request
  | .enqueue r => [r]
  | .enqueueAll rs => rs
  | _ => []

/-- A queue, and the calls made on it so far with their answers. -/
structure Ledger where
  queue : Queue
  history : List (Call × Answer)

namespace Ledger

def call (l : Ledger) (c : Call) : Ledger :=
  ⟨(l.queue.call c).1, l.history ++ [(c, (l.queue.call c).2)]⟩

/-- The ledger of a queue that began empty, after calls. -/
def after (cs : List Call) : Ledger :=
  cs.foldl call ⟨.empty, []⟩

/-- The jobs that were queued, in order. -/
def entered (l : Ledger) : List Request :=
  l.history.flatMap (fun e => e.1.requests)

/-- The job that a call took from a line. -/
def takenBy (k : JobKind) : Call × Answer → Option Request
  | (.dequeue l, .taken r) => if l = k then r else none
  | _ => none

/-- The jobs that were taken from a line, in order. -/
def taken (l : Ledger) (k : JobKind) : List Request :=
  l.history.filterMap (takenBy k)

/-- The id of the job that a call settled. -/
def settledBy : Call × Answer → Option Uuid
  | (.complete id, .settled) => some id
  | (.fail id _, .settled) => some id
  | _ => none

/-- The ids of the jobs that were settled, in order. -/
def settled (l : Ledger) : List Uuid :=
  l.history.filterMap settledBy

def Taken (l : Ledger) (id : Uuid) : Prop :=
  ∃ k, ∃ r ∈ l.taken k, r.job.id = id

/-- A job with this id was taken and has not been settled. -/
def InFlight (l : Ledger) (id : Uuid) : Prop :=
  l.Taken id ∧ id ∉ l.settled

/-- No two jobs were queued with the same id. -/
def Distinct (l : Ledger) : Prop :=
  (l.entered.map (fun r => r.job.id)).Nodup

section Steps

variable (l : Ledger) (c : Call)

theorem after_append (cs : List Call) : after (cs ++ [c]) = (after cs).call c :=
  List.foldl_append

theorem entered_call : (l.call c).entered = l.entered ++ c.requests := by
  simp [call, entered]

theorem taken_call (k : JobKind) :
    (l.call c).taken k = l.taken k ++ (takenBy k (c, (l.queue.call c).2)).toList := by
  simp only [call, taken, List.filterMap_append]
  cases h : takenBy k (c, (l.queue.call c).2) <;> simp [h]

theorem settled_call :
    (l.call c).settled = l.settled ++ (settledBy (c, (l.queue.call c).2)).toList := by
  simp only [call, settled, List.filterMap_append]
  cases h : settledBy (c, (l.queue.call c).2) <;> simp [h]

end Steps

/-- A job that is asked to be settled is settled if it is in flight, and refused otherwise. -/
theorem call_of_settles {q : Queue} {c : Call} {id : Uuid} (hc : c.Settles id) :
    (q.inFlight.get? id = none ∧ q.call c = (q, .refused (notInFlight id))) ∨
      ∃ r q', q.inFlight.get? id = some r ∧ q.call c = (q', .settled) ∧
        q'.ready = q.ready ∧ q'.inFlight = q.inFlight.erase id ∧
        ∀ k, q'.completed.get k + q'.failed.get k
          = q.completed.get k + q.failed.get k + if r.job.kind = k then 1 else 0 := by
  cases hflight : q.inFlight.get? id with
  | none =>
    refine Or.inl ⟨rfl, ?_⟩
    rcases hc with rfl | ⟨message, rfl⟩
    · simp [Queue.call, complete, hflight, answered]
    · simp [Queue.call, fail, hflight, answered]
  | some r =>
    have hcompleted : ∀ k, (q.completed.modify r.job.kind (· + 1)).get k + q.failed.get k
        = q.completed.get k + q.failed.get k + if r.job.kind = k then 1 else 0 := fun k => by
      rw [PerKind.get_modify_succ]
      omega
    have hfailed : ∀ k, q.completed.get k + (q.failed.modify r.job.kind (· + 1)).get k
        = q.completed.get k + q.failed.get k + if r.job.kind = k then 1 else 0 := fun k => by
      rw [PerKind.get_modify_succ, Nat.add_assoc]
    rcases hc with rfl | ⟨message, rfl⟩
    · simp only [Queue.call, complete, hflight, answered]
      exact Or.inr ⟨r, _, rfl, rfl, rfl, rfl, hcompleted⟩
    · simp only [Queue.call, fail, hflight, answered]
      exact Or.inr ⟨r, _, rfl, rfl, rfl, rfl, hfailed⟩

/-! ## The queue agrees with its ledger -/

/-- The lines, the jobs in flight and the counts are what the answers tell. -/
structure Agrees (l : Ledger) : Prop where
  lines : ∀ k, ofKind k l.entered = l.taken k ++ l.queue.ready.get k
  keys : l.queue.inFlight.keys.Nodup
  flight : ∀ id, (l.queue.inFlight.get? id).isSome ↔ l.InFlight id
  counts : ∀ k, (l.taken k).length = (l.queue.counts k).inFlight + l.queue.completed.get k
    + l.queue.failed.get k
  settled : ∀ id ∈ l.settled, l.Taken id
  once : l.settled.Nodup

section Agreement

variable {l : Ledger} {c : Call} {k : JobKind} {r : Request} {id : Uuid}

theorem agrees_opened : Agrees ⟨.empty, []⟩ := by
  refine ⟨fun k => ?_, List.nodup_nil, fun id => ?_, fun k => ?_, ?_, List.nodup_nil⟩
  · cases k <;> rfl
  · constructor
    · intro h
      cases h
    · rintro ⟨⟨k, r, hr, -⟩, -⟩
      cases hr
  · cases k <;> rfl
  · intro id hid
    cases hid

theorem Agrees.kind_of_taken (h : l.Agrees) (hr : r ∈ l.taken k) :
    r ∈ l.entered ∧ r.job.kind = k := by
  have hmem : r ∈ ofKind k l.entered := by
    rw [h.lines k]
    exact List.mem_append_left _ hr
  obtain ⟨hentered, hkind⟩ := List.mem_filter.1 hmem
  exact ⟨hentered, of_decide_eq_true hkind⟩

theorem Agrees.kind_of_waiting (h : l.Agrees) (hr : r ∈ l.queue.ready.get k) :
    r ∈ l.entered ∧ r.job.kind = k := by
  have hmem : r ∈ ofKind k l.entered := by
    rw [h.lines k]
    exact List.mem_append_right _ hr
  obtain ⟨hentered, hkind⟩ := List.mem_filter.1 hmem
  exact ⟨hentered, of_decide_eq_true hkind⟩

theorem Agrees.not_taken (h : l.Agrees) (hids : l.Distinct) (hr : r ∈ l.queue.ready.get k) :
    ¬ l.Taken r.job.id := by
  rintro ⟨k', r', hr', hid⟩
  obtain ⟨hentered, hkind⟩ := h.kind_of_waiting hr
  obtain ⟨hentered', hkind'⟩ := h.kind_of_taken hr'
  have heq : r' = r := List.inj_on_of_nodup_map hids hentered' hentered hid
  subst heq
  have hk : k' = k := hkind'.symm.trans hkind
  subst hk
  have hnodup : (ofKind k' l.entered).Nodup := (List.Nodup.of_map _ hids).filter _
  rw [h.lines k'] at hnodup
  exact List.disjoint_of_nodup_append hnodup hr' hr

section Changes

variable {l' : Ledger} (h : l.Agrees)

include h

/-- Where jobs are queued the agreement is kept: only the lines grow. -/
theorem Agrees.queue (rs : List Request) (hentered : l'.entered = l.entered ++ rs)
    (htaken : l'.taken = l.taken) (hsettled : l'.settled = l.settled)
    (hqueue : l'.queue = l.queue.enqueueAll rs) : l'.Agrees := by
  obtain ⟨hflight, hcompleted, hfailed, -⟩ := enqueueAll_rest l.queue rs
  have hTaken : l'.Taken = l.Taken := by
    unfold Taken
    rw [htaken]
  refine ⟨fun k => ?_, ?_, fun id => ?_, fun k => ?_, ?_, hsettled ▸ h.once⟩
  · rw [hentered, htaken, hqueue, ready_enqueueAll, ← List.append_assoc, ← h.lines k]
    exact List.filter_append _ _
  · rw [hqueue, hflight]
    exact h.keys
  · unfold InFlight
    rw [hqueue, hflight, hTaken, hsettled]
    exact h.flight id
  · unfold Queue.counts
    rw [htaken, hqueue, hflight, hcompleted, hfailed]
    exact h.counts k
  · rw [hsettled, hTaken]
    exact h.settled

/-- Where a job is taken the agreement is kept: it goes from its line into flight. -/
theorem Agrees.take (hids : l.Distinct) (hentered : l'.entered = l.entered)
    (htaken : ∀ k', l'.taken k' = l.taken k' ++ if k = k' then [r] else [])
    (hsettled : l'.settled = l.settled)
    (hqueue : l.queue.dequeue k = (l'.queue, some r)) : l'.Agrees := by
  obtain ⟨rest, hline, hafter⟩ := dequeue_eq_some_iff.1 hqueue
  have hwaits : r ∈ l.queue.ready.get k := hline ▸ List.mem_cons_self
  obtain ⟨-, hkind⟩ := h.kind_of_waiting hwaits
  have hnew : ¬ l.Taken r.job.id := h.not_taken hids hwaits
  have hnone : l.queue.inFlight.get? r.job.id = none :=
    Option.not_isSome_iff_eq_none.1 (fun hsome => hnew ((h.flight _).1 hsome).1)
  have hunsettled : r.job.id ∉ l.settled := fun hid => hnew (h.settled _ hid)
  have hTaken : ∀ id, l'.Taken id ↔ l.Taken id ∨ id = r.job.id := by
    intro id
    simp only [Taken, htaken, List.mem_append]
    constructor
    · rintro ⟨k', r', hr' | hr', hid⟩
      · exact Or.inl ⟨k', r', hr', hid⟩
      · split at hr'
        · exact Or.inr (List.mem_singleton.1 hr' ▸ hid.symm)
        · cases hr'
    · rintro (⟨k', r', hr', hid⟩ | hid)
      · exact ⟨k', r', Or.inl hr', hid⟩
      · exact ⟨k, r, Or.inr (by rw [if_pos rfl]; exact List.mem_singleton_self r), hid.symm⟩
  have hflight : l'.queue.inFlight = l.queue.inFlight.insert r.job.id r := by
    rw [hafter]
  refine ⟨fun k' => ?_, ?_, fun id => ?_, fun k' => ?_, fun id hid => ?_, hsettled ▸ h.once⟩
  · rw [hentered, htaken, h.lines k', ready_of_dequeue hqueue k', List.append_assoc]
    simp only [eq_comm]
  · rw [hflight]
    exact Table.nodup_keys_insert r h.keys hnone
  · unfold InFlight
    rw [hflight, hTaken, hsettled, Table.get?_insert]
    split
    · rename_i hid
      subst hid
      exact ⟨fun _ => ⟨Or.inr rfl, hunsettled⟩, fun _ => rfl⟩
    · rename_i hid
      rw [h.flight id, or_iff_left hid]
      rfl
  · have hcounts := h.counts k'
    have hvalues := ((Table.perm_values_insert r hnone).filter
      (fun r => decide (r.job.kind = k'))).length_eq
    simp only [Queue.counts] at hcounts ⊢
    rw [htaken, hflight, hvalues, hafter, List.length_append, hcounts]
    by_cases hk : k = k'
    · simp [hkind.trans hk, hk]
      omega
    · simp [hkind, hk]
  · rw [hsettled] at hid
    exact (hTaken id).2 (Or.inl (h.settled id hid))

/-- Where a job in flight is settled the agreement is kept: it is counted instead. -/
theorem Agrees.settle (hflight : l.queue.inFlight.get? id = some r)
    (hentered : l'.entered = l.entered) (htaken : l'.taken = l.taken)
    (hsettled : l'.settled = l.settled ++ [id]) (hready : l'.queue.ready = l.queue.ready)
    (herase : l'.queue.inFlight = l.queue.inFlight.erase id)
    (hcounts : ∀ k, l'.queue.completed.get k + l'.queue.failed.get k
      = l.queue.completed.get k + l.queue.failed.get k + if r.job.kind = k then 1 else 0) :
    l'.Agrees := by
  obtain ⟨htook, hunsettled⟩ := (h.flight id).1 (Option.isSome_of_eq_some hflight)
  have hTaken : l'.Taken = l.Taken := by
    unfold Taken
    rw [htaken]
  refine ⟨fun k => ?_, ?_, fun id' => ?_, fun k => ?_, fun id' hid' => ?_, ?_⟩
  · rw [hentered, htaken, hready]
    exact h.lines k
  · rw [herase]
    exact Table.nodup_keys_erase id h.keys
  · unfold InFlight
    rw [herase, hTaken, hsettled, List.mem_append, List.mem_singleton, not_or]
    by_cases hid : id' = id
    · subst hid
      simp
    · rw [Table.get?_erase_of_ne _ hid, h.flight id', and_iff_left hid]
      rfl
  · have hold := h.counts k
    have hvalues := ((Table.perm_values_erase h.keys hflight).filter
      (fun r => decide (r.job.kind = k))).length_eq
    have hnow := hcounts k
    simp only [Queue.counts] at hold ⊢
    rw [htaken, herase, hold, hvalues]
    by_cases hk : r.job.kind = k
    · rw [if_pos hk] at hnow
      simp only [List.filter_cons, hk, decide_true, ↓reduceIte, List.length_cons]
      omega
    · rw [if_neg hk] at hnow
      simp only [List.filter_cons, hk, decide_false, Bool.false_eq_true, ↓reduceIte]
      omega
  · rw [hTaken]
    rw [hsettled] at hid'
    rcases List.mem_append.1 hid' with hold | hnew
    · exact h.settled id' hold
    · exact List.mem_singleton.1 hnew ▸ htook
  · rw [hsettled]
    exact List.nodup_append.2 ⟨h.once, List.nodup_singleton id, fun a ha b hb hab =>
      hunsettled (List.mem_singleton.1 hb ▸ hab ▸ ha)⟩

end Changes

theorem Agrees.call_settles (h : l.Agrees) (hc : c.Settles id) : (l.call c).Agrees := by
  have hentered : (l.call c).entered = l.entered := by
    rw [entered_call]
    rcases hc with rfl | ⟨message, rfl⟩ <;> exact List.append_nil _
  have htaken : (l.call c).taken = l.taken := by
    funext k
    rw [taken_call]
    rcases hc with rfl | ⟨message, rfl⟩ <;> exact List.append_nil _
  rcases call_of_settles (q := l.queue) hc with
    ⟨-, hcall⟩ | ⟨r, q', hflight, hcall, hready, herase, hcounts⟩
  · have hsettled : (l.call c).settled = l.settled := by
      rw [settled_call, hcall]
      rcases hc with rfl | ⟨message, rfl⟩ <;> exact List.append_nil _
    exact h.queue [] (by rw [hentered, List.append_nil]) htaken hsettled
      (congrArg Prod.fst hcall)
  · have hsettled : (l.call c).settled = l.settled ++ [id] := by
      rw [settled_call, hcall]
      rcases hc with rfl | ⟨message, rfl⟩ <;> rfl
    have hqueue : (l.call c).queue = q' := congrArg Prod.fst hcall
    exact h.settle hflight hentered htaken hsettled (hqueue ▸ hready) (hqueue ▸ herase)
      (hqueue ▸ hcounts)

theorem Agrees.call (h : l.Agrees) (hids : l.Distinct) (c : Call) : (l.call c).Agrees := by
  cases c with
  | enqueue r =>
    exact h.queue [r] (l.entered_call _)
      (funext fun k => (l.taken_call _ k).trans (List.append_nil _))
      ((l.settled_call _).trans (List.append_nil _)) rfl
  | enqueueAll rs =>
    exact h.queue rs (l.entered_call _)
      (funext fun k => (l.taken_call _ k).trans (List.append_nil _))
      ((l.settled_call _).trans (List.append_nil _)) rfl
  | dequeue k =>
    have hentered := (l.entered_call (.dequeue k)).trans (List.append_nil _)
    have hsettled := (l.settled_call (.dequeue k)).trans (List.append_nil _)
    have htaken := l.taken_call (.dequeue k)
    cases hdequeue : l.queue.dequeue k with
    | mk q taken =>
      cases taken with
      | none =>
        have hq : q = l.queue := (dequeue_eq_none_iff.1 hdequeue).2
        refine h.queue [] (hentered.trans (List.append_nil _).symm)
          (funext fun k' => ?_) hsettled ((congrArg Prod.fst hdequeue).trans hq)
        rw [htaken]
        simp [Queue.call, takenBy, hdequeue]
      | some r =>
        refine h.take hids hentered (fun k' => ?_) hsettled
          (hdequeue.trans (congrArg (·, some r) (congrArg Prod.fst hdequeue).symm))
        rw [htaken]
        simp only [Queue.call, takenBy, hdequeue]
        split <;> rfl
  | complete id => exact h.call_settles (Or.inl rfl)
  | fail id message => exact h.call_settles (Or.inr ⟨message, rfl⟩)

theorem Distinct.of_call (hids : (l.call c).Distinct) : l.Distinct := by
  unfold Distinct at hids
  rw [entered_call, List.map_append] at hids
  exact hids.of_append_left

theorem agrees_after (cs : List Call) (hids : (after cs).Distinct) : (after cs).Agrees := by
  induction cs using List.reverseRecOn with
  | nil => exact agrees_opened
  | append_singleton cs c ih =>
    rw [after_append] at hids ⊢
    exact (ih hids.of_call).call hids.of_call c

/-! ## Conservation -/

/-- The jobs of a kind that were queued are those that wait, are in flight, completed or failed. -/
theorem Agrees.length_entered (h : l.Agrees) (k : JobKind) :
    (ofKind k l.entered).length = (l.queue.counts k).ready + (l.queue.counts k).inFlight
      + (l.queue.counts k).completed + (l.queue.counts k).failed := by
  have hcounts := h.counts k
  have hready : (l.queue.counts k).ready = (l.queue.ready.get k).length := rfl
  rw [h.lines k, List.length_append, hready]
  show _ = _ + (l.queue.counts k).inFlight + l.queue.completed.get k + l.queue.failed.get k
  omega

theorem Agrees.nodup_taken (h : l.Agrees) (hids : l.Distinct) (k : JobKind) :
    (l.taken k).Nodup := by
  have hnodup : (ofKind k l.entered).Nodup := (List.Nodup.of_map _ hids).filter _
  rw [h.lines k] at hnodup
  exact hnodup.of_append_left

/-- Nothing is taken from a line exactly if all that was queued in it has been taken. -/
theorem Agrees.taken_none_iff (h : l.Agrees) (k : JobKind) :
    (l.queue.dequeue k).2 = none ↔ ofKind k l.entered = l.taken k := by
  rw [h.lines k, List.append_right_eq_self]
  constructor
  · intro hnone
    exact (dequeue_eq_none_iff.1 (Prod.ext rfl hnone)).1
  · intro hline
    rw [dequeue_eq_none_iff.2 ⟨hline, rfl⟩]

/-- A job is settled if it is in flight; otherwise it is refused and the queue stays. -/
theorem Agrees.settles (h : l.Agrees) (hc : c.Settles id) :
    (l.InFlight id ∧ (l.queue.call c).2 = .settled) ∨
      (¬ l.InFlight id ∧ l.queue.call c = (l.queue, .refused (notInFlight id))) := by
  rw [← h.flight id]
  rcases call_of_settles (q := l.queue) hc with ⟨hnone, hcall⟩ | ⟨r, q', hsome, hcall, -⟩
  · exact Or.inr ⟨by simp [hnone], hcall⟩
  · exact Or.inl ⟨Option.isSome_of_eq_some hsome, congrArg Prod.snd hcall⟩

/-- A queue is idle exactly if every job that was queued has been settled. -/
theorem Agrees.isIdle_iff (h : l.Agrees) (hids : l.Distinct) :
    l.queue.isIdle = true ↔ ∀ r ∈ l.entered, r.job.id ∈ l.settled := by
  have hidle : l.queue.isIdle = true ↔
      (∀ id, ¬ l.InFlight id) ∧ ∀ k, l.queue.ready.get k = [] := by
    unfold isIdle
    rw [Bool.and_eq_true, Table.isEmpty_entries_iff, List.all_eq_true]
    refine and_congr (forall_congr' fun id => ?_) (forall_congr' fun k => ?_)
    · rw [← h.flight id, Bool.not_eq_true]
    · rw [List.isEmpty_iff, imp_iff_right (mem_all k)]
  rw [hidle]
  constructor
  · rintro ⟨hflight, hready⟩ r hr
    have htaken : r ∈ l.taken r.job.kind := by
      have hmem : r ∈ ofKind r.job.kind l.entered := List.mem_filter.2 ⟨hr, decide_eq_true rfl⟩
      rwa [h.lines, hready, List.append_nil] at hmem
    by_contra hunsettled
    exact hflight r.job.id ⟨⟨_, r, htaken, rfl⟩, hunsettled⟩
  · intro hall
    refine ⟨?_, fun k => List.eq_nil_iff_forall_not_mem.2 fun r hr => ?_⟩
    · rintro id ⟨⟨k, r, hr, rfl⟩, hunsettled⟩
      exact hunsettled (hall r (h.kind_of_taken hr).1)
    · exact h.not_taken hids hr (h.settled _ (hall r (h.kind_of_waiting hr).1))

/-- After any calls in which no id is queued twice, the jobs of each kind that were queued are
those that wait, are in flight, completed or failed; those taken are the first that were queued,
in order; exactly the jobs in flight are settled, each once, and all others are refused without
a change; and the queue is idle exactly if all jobs are settled. -/
theorem conserved (cs : List Call) (hids : (after cs).Distinct) :
    (∀ k, (ofKind k (after cs).entered).length
        = ((after cs).queue.counts k).ready + ((after cs).queue.counts k).inFlight
          + ((after cs).queue.counts k).completed + ((after cs).queue.counts k).failed) ∧
      (∀ k, ofKind k (after cs).entered = (after cs).taken k ++ (after cs).queue.ready.get k ∧
        ((after cs).taken k).Nodup ∧
        (((after cs).queue.dequeue k).2 = none
          ↔ ofKind k (after cs).entered = (after cs).taken k)) ∧
      (∀ id c, c.Settles id →
        ((after cs).InFlight id ∧ ((after cs).queue.call c).2 = .settled) ∨
          (¬ (after cs).InFlight id ∧
            (after cs).queue.call c = ((after cs).queue, .refused (notInFlight id)))) ∧
      (after cs).settled.Nodup ∧
      ((after cs).queue.isIdle = true ↔
        ∀ r ∈ (after cs).entered, r.job.id ∈ (after cs).settled) := by
  have h := agrees_after cs hids
  exact ⟨h.length_entered, fun k => ⟨h.lines k, h.nodup_taken hids k, h.taken_none_iff k⟩,
    fun id c hc => h.settles hc, h.once, h.isIdle_iff hids⟩

end Agreement

namespace Shared

/-- A scan to be queued, by its number. -/
def scan (n : Nat) : Request :=
  ⟨.scan { (default : ScanJob) with id := .ofNat n }, default, none⟩

/-- A reading to be queued, by its number. -/
def reading (n : Nat) : Request :=
  ⟨.normalize { (default : NormalizeJob) with id := .ofNat n }, default, none⟩

/-- Two workers take scans while a reading waits; one scan is failed twice. -/
def calls : List Call :=
  [.enqueue (scan 1), .dequeue .scan, .enqueueAll [reading 2, scan 3], .dequeue .scan,
    .dequeue .scan, .complete (.ofNat 1), .fail (.ofNat 3) (some "refused"),
    .fail (.ofNat 3) none, .complete (.ofNat 2)]

/-- In a shared queue the scans are settled and the reading waits. -/
theorem conserved_shared :
    (after calls).Distinct ∧
      ((after calls).queue.counts .scan).completed = 1 ∧
      ((after calls).queue.counts .scan).failed = 1 ∧
      (ofKind .scan (after calls).entered).length = 2 ∧
      (after calls).queue.call (.complete (.ofNat 2))
        = ((after calls).queue, .refused (notInFlight (.ofNat 2))) ∧
      (after calls).queue.isIdle = false := by
  have hids : (after calls).Distinct := by
    unfold Distinct
    decide +kernel
  obtain ⟨hcounts, -, hsettles, -, hidle⟩ := conserved calls hids
  have hwaits : ¬ (after calls).InFlight (.ofNat 2) := by
    rw [← (agrees_after calls hids).flight]
    decide +kernel
  have hunsettled : ¬ ∀ r ∈ (after calls).entered, r.job.id ∈ (after calls).settled := by
    decide +kernel
  refine ⟨hids, rfl, rfl, hcounts .scan, ?_, ?_⟩
  · exact ((hsettles _ _ (Or.inl rfl)).resolve_left (fun h => hwaits h.1)).2
  · exact Bool.eq_false_iff.2 (fun h => hunsettled (hidle.1 h))

end Shared

end Ledger

end Queue

end ScanGraph
