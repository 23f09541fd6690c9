/-
Which actions leave the store alone.

An action reads and changes the whole pipeline, but most of them change one
part of it.  `Keeps` says that an action leaves a part as it was, however it
ends; it goes through sequences, so an action that writes to the store once
leaves behind the store of that one observation.

The lemmas on `Keeps` are stated for any part of the pipeline, given as a function of
it, so that one lemma about an action serves all parts that it leaves alone.  Two kinds
of parts have a name: those that neither clock nor ids belong to (`Timeless`), and those
that the bus does not belong to either (`Steady`).

What an action does to a part that it changes is not said here, apart from the two
equations about observations and queueing: `observe_of_ok` and `enqueue_of_not_closed`.
Everything is about an action in one go; what others do in between is
`Pipeline.Interference`.
-/
import ScanGraph.Pipeline.Dispatch

namespace ScanGraph

namespace Action

section Laws

variable {α β γ : Type}

/-! ## Sequences -/

theorem bind_of_ok {act : Action α} {f : α → Action β} {p p' : Pipeline} {a : α}
    (h : act p = (.ok a, p')) : (act >>= f) p = f a p' := by
  show ExceptT.bindCont f (act p).1 (act p).2 = f a p'
  rw [h]
  rfl

theorem bind_of_error {act : Action α} {f : α → Action β} {p p' : Pipeline} {e : Fault}
    (h : act p = (.error e, p')) : (act >>= f) p = (.error e, p') := by
  show ExceptT.bindCont f (act p).1 (act p).2 = (.error e, p')
  rw [h]
  rfl

theorem bind_eq_ok_iff {act : Action α} {f : α → Action β} {p q : Pipeline} {b : β} :
    (act >>= f) p = (.ok b, q) ↔ ∃ a p', act p = (.ok a, p') ∧ f a p' = (.ok b, q) := by
  cases hact : act p with
  | mk outcome p' =>
    cases outcome with
    | ok a =>
      rw [bind_of_ok hact]
      refine ⟨fun h => ⟨a, p', rfl, h⟩, ?_⟩
      rintro ⟨_, _, ⟨⟩, h⟩
      exact h
    | error e =>
      rw [bind_of_error hact]
      constructor
      · rintro ⟨⟩
      · rintro ⟨_, _, ⟨⟩, -⟩

theorem get_bind (f : Pipeline → Action β) (p : Pipeline) :
    ((MonadState.get : Action Pipeline) >>= f) p = f p p := rfl

theorem result_of_ok {act : Action α} {p p' : Pipeline} {a : α} (h : act p = (.ok a, p')) :
    result act p = (.ok (.ok a), p') := by
  unfold result
  rw [h]

theorem result_of_error {act : Action α} {p p' : Pipeline} {e : PipelineError}
    (h : act p = (.error (.error e), p')) : result act p = (.ok (.error e), p') := by
  unfold result
  rw [h]

@[simp] theorem result_snd (act : Action α) (p : Pipeline) : (result act p).2 = (act p).2 := by
  unfold result
  split <;> rename_i hact <;> rw [hact]

@[simp] theorem bind_pure_snd (act : Action α) (f : α → β) (p : Pipeline) :
    ((act >>= fun a => Pure.pure (f a)) p).2 = (act p).2 := by
  cases hact : act p with
  | mk outcome p' =>
    cases outcome with
    | ok a => exact congrArg Prod.snd (bind_of_ok hact)
    | error e => exact congrArg Prod.snd (bind_of_error hact)

theorem result_of_mapM {f : α → Action β} {P : β → Prop} (l : List α)
    (h : ∀ a ∈ l, ∀ p b q, f a p = (.ok b, q) → P b) {p q : Pipeline} {bs : List β}
    (hmapM : l.mapM f p = (.ok bs, q)) : ∀ b ∈ bs, P b := by
  induction l generalizing p bs with
  | nil =>
    cases hmapM
    exact fun b hb => absurd hb List.not_mem_nil
  | cons a l ih =>
    rw [List.mapM_cons] at hmapM
    obtain ⟨b, p', hb, hrest⟩ := bind_eq_ok_iff.1 hmapM
    obtain ⟨bs', p'', hbs, hpure⟩ := bind_eq_ok_iff.1 hrest
    cases hpure
    intro b' hb'
    rcases List.mem_cons.1 hb' with rfl | hb'
    · exact h a List.mem_cons_self p b' p' hb
    · exact ih (fun a ha => h a (List.mem_cons_of_mem _ ha)) hbs b' hb'

/-! ## What an action keeps -/

/-- Whatever an action does and however it ends, it leaves a part of the pipeline as it was. -/
def Keeps (view : Pipeline → γ) (act : Action α) : Prop :=
  ∀ p, view (act p).2 = view p

variable {view : Pipeline → γ}

theorem Keeps.pure (a : α) : Keeps view (Pure.pure a : Action α) :=
  fun _ => rfl

theorem Keeps.refuse (e : PipelineError) : Keeps view (refuse e : Action α) :=
  fun _ => rfl

theorem Keeps.get : Keeps view (MonadState.get : Action Pipeline) :=
  fun _ => rfl

/-- An action that fails and whose error is only passed on leaves what it left. -/
theorem view_result_bind_of_error {act : Action α} {f : Except PipelineError α → Action β}
    {p q : Pipeline} {fault : Fault} (h : act p = (.error fault, q))
    (hf : ∀ e, Keeps view (f (.error e))) : view ((Action.result act >>= f) p).2 = view q := by
  cases fault with
  | error e =>
    have hresult : Action.result act p = (.ok (.error e), q) := by
      unfold Action.result
      rw [h]
    rw [bind_of_ok hresult, hf e q]
  | panic m =>
    have hresult : Action.result act p = (.error (.panic m), q) := by
      unfold Action.result
      rw [h]
    rw [bind_of_error hresult]

theorem Keeps.bind {act : Action α} {f : α → Action β} (h : Keeps view act)
    (hf : ∀ a, Keeps view (f a)) : Keeps view (act >>= f) := by
  intro p
  have hkeeps := h p
  cases hact : act p with
  | mk outcome p' =>
    rw [hact] at hkeeps
    cases outcome with
    | ok a => rw [bind_of_ok hact, hf a p', hkeeps]
    | error e => rw [bind_of_error hact, hkeeps]

theorem Keeps.result {act : Action α} (h : Keeps view act) : Keeps view (result act) := by
  intro p
  rw [result_snd]
  exact h p

theorem Keeps.mapM {f : α → Action β} (l : List α) (h : ∀ a ∈ l, Keeps view (f a)) :
    Keeps view (l.mapM f) := by
  induction l with
  | nil => exact .pure _
  | cons a l ih =>
    rw [List.mapM_cons]
    exact (h a List.mem_cons_self).bind (fun _ =>
      (ih (fun b hb => h b (List.mem_cons_of_mem _ hb))).bind (fun _ => .pure _))

theorem Keeps.forM {f : α → Action Unit} (l : List α) (h : ∀ a ∈ l, Keeps view (f a)) :
    Keeps view (l.forM f) := by
  induction l with
  | nil => exact .pure _
  | cons a l ih =>
    exact (h a List.mem_cons_self).bind
      (fun _ => ih (fun b hb => h b (List.mem_cons_of_mem _ hb)))

end Laws

end Action

namespace Pipeline

open ScanGraph.Action

/-! ## The services -/

/-- A part of the pipeline that is neither the clock nor the ids. -/
structure Timeless {γ : Type} (view : Pipeline → γ) : Prop where
  clock : ∀ p clock, view { p with clock } = view p
  ids : ∀ p nextId, view { p with nextId } = view p

/-- A part of the pipeline that is none of the clock, the ids and the bus. -/
structure Steady {γ : Type} (view : Pipeline → γ) : Prop extends Timeless view where
  bus : ∀ p bus, view { p with bus } = view p

theorem steady_store : Steady store where
  clock _ _ := rfl
  ids _ _ := rfl
  bus _ _ := rfl

theorem now_bind {β : Type} (f : Instant → Action β) (p : Pipeline) :
    (now >>= f) p = f (instantOf p.clock) { p with clock := p.clock + tick } := rfl

theorem keeps_lookUp {γ : Type} {view : Pipeline → γ} (r : Reference) (t : Instant) :
    Keeps view (lookUp r t) := by
  refine Keeps.get.bind (fun p => ?_)
  cases p.store.get r t with
  | ok found => exact .pure found
  | error e => exact .refuse _

theorem keeps_evidenceOf {γ : Type} {view : Pipeline → γ} (j : NormalizeJob) :
    Keeps view (evidenceOf j) := by
  refine Keeps.get.bind (fun p => ?_)
  split
  · exact .pure _
  · exact .refuse _

namespace Timeless

variable {γ : Type} {view : Pipeline → γ} (h : Timeless view)

include h

theorem now : Keeps view Pipeline.now :=
  fun p => h.clock p _

theorem freshId : Keeps view Pipeline.freshId :=
  fun p => h.ids p _

theorem request (job : Job) (correlation : Option Uuid) :
    Keeps view (Pipeline.request job correlation) :=
  h.now.bind (fun _ => .pure _)

theorem scanRequest (d : ScannerDefinition) (input : Snapshot) (correlation : Option Uuid) :
    Keeps view (Pipeline.scanRequest d input correlation) :=
  h.freshId.bind (fun _ => Keeps.get.bind (fun _ => h.request _ correlation))

theorem scansOf (input : Snapshot) (correlation : Option Uuid) :
    Keeps view (Pipeline.scansOf input correlation) :=
  Keeps.get.bind (fun _ => Keeps.mapM _ (fun s _ => h.scanRequest s.definition input correlation))

theorem scansAfter (correlation : Option Uuid) (c : Commit) :
    Keeps view (Pipeline.scansAfter correlation c) := by
  refine (keeps_lookUp c.reference c.validTime).result.bind (fun found => ?_)
  split
  · exact h.scansOf _ correlation
  · exact .pure _

theorem automaticScans (commits : List Commit) (correlation : Option Uuid) :
    Keeps view (Pipeline.automaticScans commits correlation) := by
  refine Keeps.get.bind (fun p => ?_)
  split
  · exact (Keeps.mapM commits (fun c _ => h.scansAfter correlation c)).bind (fun _ => .pure _)
  · exact .pure _

theorem deriveRequest (parent : Option (DeriveJob × Visit)) (correlation : Option Uuid)
    (c : Commit) : Keeps view (Pipeline.deriveRequest parent correlation c) :=
  h.freshId.bind (fun _ => h.request _ correlation)

theorem followUps (parent : Option (DeriveJob × Visit)) (correlation : Option Uuid)
    (commits : List Commit) : Keeps view (Pipeline.followUps parent correlation commits) :=
  (h.automaticScans commits correlation).bind (fun _ =>
    (Keeps.mapM commits (fun c _ => h.deriveRequest parent correlation c)).bind
      (fun _ => .pure _))

theorem normalizeRequest (j : ScanJob) (correlation : Option Uuid) (n : RegisteredNormalizer) :
    Keeps view (Pipeline.normalizeRequest j correlation n) :=
  h.freshId.bind (fun _ => h.request _ correlation)

theorem normalizeTime (j : NormalizeJob) : Keeps view (Pipeline.normalizeTime j) := by
  unfold Pipeline.normalizeTime
  split
  · exact .pure _
  · exact h.now

theorem normalizeInputs (j : NormalizeJob) : Keeps view (Pipeline.normalizeInputs j) := by
  refine (keeps_evidenceOf j).bind (fun e => (h.normalizeTime j).bind (fun t => ?_))
  refine (keeps_lookUp _ t).bind (fun found => ?_)
  split
  · exact .pure _
  · exact .refuse _

end Timeless

theorem Steady.publish {γ : Type} {view : Pipeline → γ} (h : Steady view)
    (correlation : Option Uuid) (payload : EventPayload) :
    Keeps view (Pipeline.publish correlation payload) :=
  h.freshId.bind (fun _ => h.now.bind (fun _ p => h.bus p _))

/-! ## Observing -/

theorem observe_of_ok {p : Pipeline} {o : Observation} {done : Store × List Commit}
    (h : p.observed o = .ok done) : observe o p = (.ok done.2, { p with store := done.1 }) := by
  unfold observe
  rw [get_bind, h]
  rfl

theorem observe_of_error {p : Pipeline} {o : Observation} {fault : Fault}
    (h : p.observed o = .error fault) : observe o p = (.error fault, p) := by
  unfold observe
  rw [get_bind, h]
  rfl

theorem observe_store_of_observed {p : Pipeline} {o : Observation} {done : Store × List Commit}
    (h : p.observed o = .ok done) : p.store.observe o = .ok done := by
  unfold observed at h
  split at h
  · cases h
  · split at h
    · cases h
    · split at h
      · rename_i hobserve
        cases h
        exact hobserve
      · cases h

/-! ## Queueing -/

theorem enqueue_of_closed (r : Request) {p : Pipeline} (h : p.outages.queueClosed = true) :
    enqueue r p = (.error (.error (.internal "queue closed")), p) := by
  unfold enqueue
  rw [get_bind, if_pos h]
  rfl

theorem enqueue_of_not_closed (r : Request) {p : Pipeline} (h : ¬ p.outages.queueClosed = true) :
    enqueue r p = (.ok (Queue.handleOf r), { p with queue := p.queue.enqueue r }) := by
  unfold enqueue
  rw [get_bind, if_neg h]
  rfl

theorem keeps_store_enqueue (r : Request) : Keeps store (enqueue r) := by
  intro p
  by_cases hclosed : p.outages.queueClosed = true
  · rw [enqueue_of_closed r hclosed]
  · rw [enqueue_of_not_closed r hclosed]

theorem keeps_store_enqueueAll (rs : List Request) : Keeps store (enqueueAll rs) := by
  induction rs with
  | nil => exact .pure _
  | cons r rs ih =>
    exact (keeps_store_enqueue r).bind (fun _ => ih.bind (fun _ => .pure _))

theorem keeps_store_enqueueAnnounced (rs : List Request) : Keeps store (enqueueAnnounced rs) :=
  (keeps_store_enqueueAll rs).bind
    (fun _ => Keeps.forM rs (fun r _ => steady_store.publish r.correlation _))

theorem keeps_store_announceCommits (r : Request) (parent : Option (DeriveJob × Visit))
    (commits : List Commit) : Keeps store (announceCommits r parent commits) := by
  unfold announceCommits
  split
  · exact .pure _
  · exact (steady_store.publish _ _).bind (fun _ =>
      (steady_store.followUps parent r.correlation commits).bind
        (fun rs => keeps_store_enqueueAnnounced rs))

end Pipeline

end ScanGraph
