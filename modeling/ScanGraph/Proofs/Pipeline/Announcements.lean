/-
Who owes an announcement.

Whoever queues a job may announce it by an event, and the worker that runs it
announces how it ended.  Queueing and announcing are calls of their own, so that
between them the job is queued and its announcement is owed.  Every call of a
worker or caller either leaves lines and events alone, or queues one job, or
publishes one event (`Effect`); workers and those who ask for scans announce in
order what they queue and owe nothing in the end, and those who submit an
observation never announce anything: `minds_runJob`, `minds_submitScan`,
`minds_submitObservation`.

## How it is set up

`journal` is what queueing and announcing write to, and `Effect` is the one description
of what a call may do to it; the lemmas on `Effect` are all that the account of a whole
run takes from here.  What a routine owes after a call is `owing`, computed from what
the call queued and announced.  `Owes` follows a routine through its calls; it goes
through sequences, so that each routine is a lemma of a few lines.

## What is asked, and what is not

The queue takes jobs: a queue that is closed refuses them, and then the announcement of
a job that was not queued is never owed.  Who announces at all is fixed for each
routine: workers and those who ask for scans do, those who submit an observation do not,
and the last lemma says so of every one of their calls.  When the announcement comes is
left open.
-/
import ScanGraph.Proofs.Pipeline.Discipline

namespace ScanGraph

/-- The job that an event says was queued. -/
def EventPayload.announced? : EventPayload → Option Handle
  | jobEnqueued id kind => some ⟨id, kind⟩
  | _ => none

/-- The job that an event says has ended. -/
def EventPayload.concluded? : EventPayload → Option Handle
  | jobCompleted id kind => some ⟨id, kind⟩
  | jobFailed id kind _ => some ⟨id, kind⟩
  | _ => none

/-- The jobs that some events announce, in order. -/
def announcedIn (events : List Event) : List Handle :=
  events.filterMap (fun e => e.payload.announced?)

namespace Pipeline

/-- The jobs that were announced, in order. -/
def announced (p : Pipeline) : List Handle :=
  announcedIn p.bus.published

/-- What queueing and announcing write to. -/
structure Journal where
  lines : PerKind (List Request)
  log : List Uuid
  events : List Event
  /-- The queue takes no jobs. -/
  closed : Bool

/-- Nothing was queued or announced, and the queue takes jobs. -/
def Journal.blank : Journal :=
  ⟨.all [], [], [], false⟩

/-- What was queued and announced so far. -/
def journal (p : Pipeline) : Journal :=
  ⟨p.queue.ready, p.queue.log, p.bus.published, p.outages.queueClosed⟩

/-- What is owed after a step that one was responsible for, of what was owed before and of what was
queued in the step: what was not announced in it. -/
def owing (p q : Pipeline) (owed : List Handle) : List Handle :=
  (owed ++ (p.queue.since q.queue).map Queue.handleOf).diff
    (announcedIn (q.bus.published.drop p.bus.published.length))

def Cleared (announces : Bool) (owed : List Handle) : Prop :=
  announces = true → owed = []

/-- What a call comes to with what is owed before and after it, if it belongs to the dispatch of a
request or to none, and if events are published at all. -/
inductive Effect (cause : Option Request) (announces : Bool) (p q : Pipeline)
    (owed owed' : List Handle) : Prop
  | quiet : q.journal = p.journal → owed' = owed → Effect cause announces p q owed owed'
  | enqueue (r : Request) : q.journal = { p with queue := p.queue.enqueue r }.journal →
      owed' = owed ++ [Queue.handleOf r] → Effect cause announces p q owed owed'
  /-- The end of a job is announced while it is dispatched, and a job that was queued is announced
  if it is the first that is owed. -/
  | publish (e : Event) : announces = true →
      q.journal = { p with bus := p.bus.publish e }.journal →
      (∀ h, e.payload.concluded? = some h → cause.map Queue.handleOf = some h) →
      owed = e.payload.announced?.toList ++ owed' → Effect cause announces p q owed owed'

section Journal

open ScanGraph.Action

theorem timeless_journal : Timeless journal where
  clock _ _ := rfl
  ids _ _ := rfl

theorem keeps_journal_observe (o : Observation) : Keeps journal (observe o) := by
  intro p
  cases hobserved : p.observed o with
  | ok done => rw [observe_of_ok hobserved]; rfl
  | error fault => rw [observe_of_error hobserved]

theorem keeps_journal_save (change : Archive → Archive) : Keeps journal (save change) := by
  intro p
  rcases save_cases change p with ⟨e, hsave⟩ | hsave
  · rw [hsave]
  · rw [hsave]; rfl

theorem journal_settle (p : Pipeline) (id : Uuid) (status : JobResult) :
    (p.settle id status).journal = p.journal := by
  cases status with
  | succeeded =>
    unfold settle settled Queue.complete
    cases p.queue.inFlight.get? id <;> rfl
  | failed e =>
    unfold settle settled Queue.fail
    cases p.queue.inFlight.get? id <;> rfl

theorem journal_publish (correlation : Option Uuid) (payload : EventPayload) (p : Pipeline) :
    ∃ e : Event, e.payload = payload ∧
      (publish correlation payload p).2.journal = { p with bus := p.bus.publish e }.journal :=
  ⟨⟨.ofNat p.nextId, correlation, instantOf p.clock, payload⟩, rfl, rfl⟩

theorem concluded?_announcement (r : Request) (status : JobResult) :
    (announcement r status).concluded? = some (Queue.handleOf r) := by
  cases status <;> rfl

theorem announced?_announcement (r : Request) (status : JobResult) :
    (announcement r status).announced? = none := by
  cases status <;> rfl

end Journal

section Effect

variable {cause : Option Request} {announces : Bool} {p q : Pipeline} {owed owed' : List Handle}

theorem since_of_lines (h : q.queue.ready = p.queue.ready) : p.queue.since q.queue = [] := by
  have hlines : q.queue.ready = (p.queue.enqueueAll []).ready := h
  exact Queue.since_eq hlines

theorem since_enqueue {r : Request} (h : q.queue.ready = (p.queue.enqueue r).ready) :
    p.queue.since q.queue = [r] := by
  have hlines : q.queue.ready = (p.queue.enqueueAll [r]).ready := h
  rw [Queue.since_eq hlines]
  cases hkind : r.job.kind <;> simp [Queue.ofKind, JobKind.all, hkind]

/-- What is owed after a call can be told from what it found and what it left. -/
theorem Effect.owing_eq (h : Effect cause announces p q owed owed') : owing p q owed = owed' := by
  unfold owing
  cases h with
  | quiet hjournal howed =>
    have hevents : q.bus.published = p.bus.published := congrArg Journal.events hjournal
    rw [since_of_lines (congrArg Journal.lines hjournal), hevents, List.drop_length, howed]
    exact List.append_nil owed
  | enqueue r hjournal howed =>
    have hevents : q.bus.published = p.bus.published := congrArg Journal.events hjournal
    rw [since_enqueue (congrArg Journal.lines hjournal), hevents, List.drop_length, howed]
    rfl
  | publish e hannounces hjournal hcause howed =>
    have hevents : q.bus.published = p.bus.published ++ [e] := congrArg Journal.events hjournal
    rw [since_of_lines (congrArg Journal.lines hjournal), hevents, List.drop_left, howed]
    cases hpayload : e.payload.announced? with
    | none => simp [announcedIn, hpayload]
    | some h => simp [announcedIn, hpayload]

/-- What was announced or is owed after a call was so before or was queued in it. -/
theorem Effect.accounts (h : Effect cause announces p q owed owed') :
    (q.announced ++ owed').Perm
      ((p.announced ++ owed) ++ (p.queue.since q.queue).map Queue.handleOf) := by
  unfold announced
  cases h with
  | quiet hjournal howed =>
    have hevents : q.bus.published = p.bus.published := congrArg Journal.events hjournal
    rw [since_of_lines (congrArg Journal.lines hjournal), hevents, howed]
    exact .of_eq (List.append_nil _).symm
  | enqueue r hjournal howed =>
    have hevents : q.bus.published = p.bus.published := congrArg Journal.events hjournal
    rw [since_enqueue (congrArg Journal.lines hjournal), hevents, howed]
    exact .of_eq (List.append_assoc _ _ _).symm
  | publish e hannounces hjournal hcause howed =>
    have hevents : q.bus.published = p.bus.published ++ [e] := congrArg Journal.events hjournal
    have hone : announcedIn [e] = e.payload.announced?.toList := by
      cases hpayload : e.payload.announced? <;> simp [announcedIn, hpayload]
    have hsplit : announcedIn (p.bus.published ++ [e])
        = announcedIn p.bus.published ++ announcedIn [e] := List.filterMap_append
    rw [since_of_lines (congrArg Journal.lines hjournal), hevents, howed, hsplit, hone,
      List.map_nil, List.append_nil, List.append_assoc]

theorem Effect.log (h : Effect cause announces p q owed owed') :
    q.queue.log = p.queue.log ++ ((p.queue.since q.queue).map Queue.handleOf).map Handle.id := by
  cases h with
  | quiet hjournal =>
    rw [since_of_lines (congrArg Journal.lines hjournal)]
    exact (congrArg Journal.log hjournal).trans (List.append_nil _).symm
  | enqueue r hjournal =>
    rw [since_enqueue (congrArg Journal.lines hjournal)]
    exact congrArg Journal.log hjournal
  | publish e hannounces hjournal =>
    rw [since_of_lines (congrArg Journal.lines hjournal)]
    exact (congrArg Journal.log hjournal).trans (List.append_nil _).symm

theorem Effect.waiting (h : Effect cause announces p q owed owed') :
    ∀ r ∈ q.queue.waiting, r ∈ p.queue.waiting ∨ r ∈ p.queue.since q.queue := by
  have hlines : ∃ rs, q.queue.ready = (p.queue.enqueueAll rs).ready := by
    cases h with
    | quiet hjournal => exact ⟨[], congrArg Journal.lines hjournal⟩
    | enqueue r hjournal => exact ⟨[r], congrArg Journal.lines hjournal⟩
    | publish e hannounces hjournal => exact ⟨[], congrArg Journal.lines hjournal⟩
  obtain ⟨rs, hlines⟩ := hlines
  exact fun r hr => List.mem_append.1 ((Queue.waiting_perm hlines).mem_iff.1 hr)

theorem Effect.closed (h : Effect cause announces p q owed owed') :
    q.outages.queueClosed = p.outages.queueClosed := by
  cases h with
  | quiet hjournal => exact congrArg Journal.closed hjournal
  | enqueue r hjournal => exact congrArg Journal.closed hjournal
  | publish e hannounces hjournal => exact congrArg Journal.closed hjournal

theorem Effect.concluded {e : Event} {h : Handle} (heffect : Effect cause announces p q owed owed')
    (hevents : q.bus.published = p.bus.published ++ [e])
    (hconcluded : e.payload.concluded? = some h) :
    cause.map Queue.handleOf = some h := by
  have hmore : q.bus.published ≠ p.bus.published := by
    rw [hevents]
    exact fun hsame => List.cons_ne_nil e [] (List.append_right_eq_self.1 hsame)
  cases heffect with
  | quiet hjournal => exact absurd (congrArg Journal.events hjournal) hmore
  | enqueue r hjournal => exact absurd (congrArg Journal.events hjournal) hmore
  | publish e' hannounces hjournal hcause =>
    have hevents' : q.bus.published = p.bus.published ++ [e'] := congrArg Journal.events hjournal
    have hsame : e' = e :=
      List.singleton_inj.1 (List.append_cancel_left (hevents'.symm.trans hevents))
    exact hcause h (hsame ▸ hconcluded)

theorem Effect.prefix_of_silent (h : Effect cause false p q owed owed') : owed <+: owed' := by
  cases h with
  | quiet _ howed => exact howed ▸ List.prefix_rfl
  | enqueue r _ howed => exact howed ▸ List.prefix_append owed _
  | publish e hannounces => cases hannounces

end Effect

end Pipeline

namespace Routine

open Pipeline

/-- Every call of a routine has such an effect while the queue takes jobs, whatever others do
meanwhile; what the routine comes to is as it should be, and where it fails nothing is owed by those
who announce. -/
def Owes {α : Type} (cause : Option Request) (announces : Bool) (post : α → List Handle → Prop) :
    Routine α → List Handle → Prop
  | done (.ok a), owed => post a owed
  | done (.error _), owed => Cleared announces owed
  | call act next, owed => ∀ p : Pipeline, p.outages.queueClosed = false →
      ∃ owed', Effect cause announces p (act p).2 owed owed' ∧
        (next (act p).1).Owes cause announces post owed'
  | evaluate _ _ next, owed => ∀ answer, (next answer).Owes cause announces post owed

/-- Those who announce owe nothing after the routine if they owed nothing before. -/
def Minds {α : Type} (cause : Option Request) (announces : Bool) (w : Routine α) : Prop :=
  ∀ owed, Cleared announces owed → w.Owes cause announces (fun _ => Cleared announces) owed

section Owes

variable {α β : Type} {cause : Option Request} {announces : Bool} {w : Routine α}
  {post : α → List Handle → Prop} {owed : List Handle}

theorem Owes.bind {f : α → Routine β} {post' : β → List Handle → Prop}
    (h : w.Owes cause announces post owed)
    (hf : ∀ a owed', post a owed' → (f a).Owes cause announces post' owed') :
    (w >>= f).Owes cause announces post' owed := by
  rw [bind_def]
  induction w generalizing owed with
  | done x =>
    cases x with
    | ok a => exact hf a owed h
    | error fault => exact h
  | call act next ih =>
    intro p hopen
    obtain ⟨owed', heffect, hnext⟩ := h p hopen
    exact ⟨owed', heffect, ih _ hnext⟩
  | evaluate changed t next ih => exact fun answer => ih answer (h answer)

theorem Owes.imp {post' : α → List Handle → Prop} (h : w.Owes cause announces post owed)
    (hpost : ∀ a owed', post a owed' → post' a owed') : w.Owes cause announces post' owed := by
  induction w generalizing owed with
  | done x =>
    cases x with
    | ok a => exact hpost a owed h
    | error fault => exact h
  | call act next ih =>
    intro p hopen
    obtain ⟨owed', heffect, hnext⟩ := h p hopen
    exact ⟨owed', heffect, ih _ hnext⟩
  | evaluate changed t next ih => exact fun answer => ih answer (h answer)

theorem minds_pure (a : α) : (pure a : Routine α).Minds cause announces :=
  fun _ howed => howed

theorem minds_error (fault : Fault) : (done (.error fault) : Routine α).Minds cause announces :=
  fun _ howed => howed

theorem Minds.bind {f : α → Routine β} (h : w.Minds cause announces)
    (hf : ∀ a, (f a).Minds cause announces) : (w >>= f).Minds cause announces :=
  fun owed howed => (h owed howed).bind (fun a owed' howed' => hf a owed' howed')

theorem Owes.outcome (h : w.Owes cause announces (fun _ => Cleared announces) owed) :
    w.outcome.Owes cause announces (fun _ => Cleared announces) owed := by
  induction w generalizing owed with
  | done x => cases x <;> exact h
  | call act next ih =>
    intro p hopen
    obtain ⟨owed', heffect, hnext⟩ := h p hopen
    exact ⟨owed', heffect, ih _ hnext⟩
  | evaluate changed t next ih => exact fun answer => ih answer (h answer)

theorem Minds.result (h : w.Minds cause announces) : w.result.Minds cause announces := by
  have houtcome : w.outcome.Minds cause announces := fun owed howed => (h owed howed).outcome
  refine houtcome.bind (fun x => ?_)
  rcases x with (e | m) | a
  · exact minds_pure _
  · exact minds_error _
  · exact minds_pure _

theorem Minds.ignoring {w : Routine Unit} (h : w.Minds cause announces) :
    w.ignoring.Minds cause announces :=
  h.result.bind (fun _ => minds_pure ())

theorem minds_ofExcept (x : Except PipelineError α) : (ofExcept x).Minds cause announces := by
  cases x with
  | ok a => exact minds_pure a
  | error e => exact minds_error (.error e)

theorem minds_mapM {f : α → Routine β} (l : List α) (h : ∀ a, (f a).Minds cause announces) :
    (l.mapM f).Minds cause announces := by
  induction l with
  | nil => exact minds_pure []
  | cons a l ih =>
    rw [List.mapM_cons]
    exact (h a).bind (fun _ => ih.bind (fun _ => minds_pure _))

theorem minds_forM {f : α → Routine Unit} (l : List α) (h : ∀ a, (f a).Minds cause announces) :
    (l.forM f).Minds cause announces := by
  induction l with
  | nil => exact minds_pure ()
  | cons a l ih => exact (h a).bind (fun _ => ih)

theorem minds_outcomes (changed : Reference) (t : Instant) :
    (outcomes changed t).Minds cause announces := by
  intro owed howed answer
  cases answer <;> exact howed

theorem minds_quiet {act : Action α} (h : Action.Keeps journal act) :
    (once act).Minds cause announces := by
  intro owed howed p hopen
  refine ⟨owed, .quiet (h p) rfl, ?_⟩
  cases (act p).1 <;> exact howed

theorem minds_publish (correlation : Option Uuid) {payload : EventPayload}
    (hannounced : payload.announced? = none)
    (hconcluded : ∀ h, payload.concluded? = some h → cause.map Queue.handleOf = some h) :
    (once (publish correlation payload)).Minds cause true := by
  intro owed howed p hopen
  obtain ⟨e, rfl, hjournal⟩ := journal_publish correlation payload p
  refine ⟨owed, .publish e rfl hjournal hconcluded ?_, howed⟩
  rw [hannounced]
  rfl

end Owes

end Routine

namespace Worker

open Routine Pipeline

section Minds

variable {cause : Option Request} {announces : Bool} {r : Request}

/-! ## Queueing -/

theorem owes_enqueue (r : Request) (owed : List Handle) :
    (once (enqueue r)).Owes cause announces (fun _ owed' => owed' = owed ++ [Queue.handleOf r])
      owed := by
  intro p hopen
  rw [enqueue_of_not_closed r (Bool.eq_false_iff.1 hopen)]
  exact ⟨owed ++ [Queue.handleOf r], .enqueue r rfl rfl, rfl⟩

theorem owes_enqueueAll (rs : List Request) (owed : List Handle) :
    (enqueueAll rs).Owes cause announces (fun _ owed' => owed' = owed ++ rs.map Queue.handleOf)
      owed := by
  induction rs generalizing owed with
  | nil => exact (List.append_nil owed).symm
  | cons r rs ih =>
    refine (owes_enqueue r owed).bind (fun _ owed' howed' => ?_)
    refine (ih owed').bind (fun _ owed'' howed'' => ?_)
    show owed'' = owed ++ Queue.handleOf r :: rs.map Queue.handleOf
    rw [howed'', howed', List.append_assoc, List.singleton_append]

/-- What is owed is announced in the order in which it was queued. -/
theorem owes_announce (rs : List Request) :
    (rs.forM (fun r => once (publish r.correlation (.jobEnqueued r.job.id r.job.kind)))).Owes cause
      true (fun _ owed => owed = []) (rs.map Queue.handleOf) := by
  induction rs with
  | nil => rfl
  | cons r rs ih =>
    have hfirst : (once (publish r.correlation (.jobEnqueued r.job.id r.job.kind))).Owes cause true
        (fun _ owed => owed = rs.map Queue.handleOf) ((r :: rs).map Queue.handleOf) := by
      intro p hopen
      obtain ⟨e, he, hjournal⟩ :=
        journal_publish r.correlation (.jobEnqueued r.job.id r.job.kind) p
      refine ⟨rs.map Queue.handleOf, .publish e rfl hjournal (fun h hconcluded => ?_) ?_, rfl⟩
      · rw [he] at hconcluded
        cases hconcluded
      · rw [he]
        rfl
    exact hfirst.bind (fun _ owed howed => howed ▸ ih)

theorem minds_enqueueAnnounced (rs : List Request) :
    (enqueueAnnounced rs).Minds cause true := by
  intro owed howed
  refine (owes_enqueueAll rs owed).bind (fun _ owed' howed' => ?_)
  rw [howed', howed rfl, List.nil_append]
  exact (owes_announce rs).imp (fun _ owed'' howed'' _ => howed'')

theorem minds_enqueueAll (rs : List Request) : (enqueueAll rs).Minds cause false :=
  fun owed _ => (owes_enqueueAll rs owed).imp (fun _ _ _ hannounces => by cases hannounces)

/-! ## Follow-up jobs -/

theorem minds_scansAfter (correlation : Option Uuid) (c : Commit) :
    (scansAfter correlation c).Minds cause announces := by
  refine (minds_quiet (keeps_lookUp _ _)).result.bind (fun found => ?_)
  split
  · exact minds_quiet (timeless_journal.scansOf _ correlation)
  · exact minds_pure []

theorem minds_automaticScans (commits : List Commit) (correlation : Option Uuid) :
    (automaticScans commits correlation).Minds cause announces := by
  refine (minds_quiet Action.Keeps.get).bind (fun p => ?_)
  split
  · exact (minds_mapM commits (minds_scansAfter correlation)).bind (fun _ => minds_pure _)
  · exact minds_pure []

theorem minds_followUps (parent : Option (DeriveJob × Visit)) (correlation : Option Uuid)
    (commits : List Commit) : (followUps parent correlation commits).Minds cause announces := by
  refine (minds_automaticScans commits correlation).bind (fun scans => ?_)
  have hmade : Action.Keeps journal (commits.mapM (deriveRequest parent correlation)) :=
    Action.Keeps.mapM commits (fun c _ => timeless_journal.deriveRequest parent correlation c)
  exact (minds_quiet hmade).bind (fun derives => minds_pure _)

theorem minds_announceCommits (r : Request) (parent : Option (DeriveJob × Visit))
    (commits : List Commit) : (announceCommits r parent commits).Minds cause true := by
  unfold announceCommits
  split
  · exact minds_pure ()
  · refine (minds_publish _ rfl (fun _ hconcluded => by cases hconcluded)).bind (fun _ => ?_)
    exact (minds_followUps parent r.correlation commits).bind minds_enqueueAnnounced

/-! ## Dispatching -/

theorem minds_saveScan (j : ScanJob) (e : Evidence) : (saveScan j e).Minds cause announces :=
  (minds_quiet (keeps_journal_save _)).bind (fun _ => minds_quiet (keeps_journal_save _))

theorem minds_dispatchScan (r : Request) (j : ScanJob) :
    (dispatchScan r j).Minds cause true := by
  refine (minds_quiet timeless_journal.now).bind (fun started => ?_)
  refine (minds_quiet timeless_journal.now).bind (fun ended => ?_)
  refine (minds_quiet Action.Keeps.get).bind (fun p => ?_)
  rcases j.run p.backend p.policy.scanning.timeoutSeconds started ended with ⟨j, e | evidence⟩
  · exact (minds_saveScan j _).ignoring.bind (fun _ => minds_ofExcept (.error e))
  · refine (minds_saveScan j evidence).bind (fun _ => ?_)
    have hmade : Action.Keeps journal
        ((p.registry.normalizersFor evidence.tags j.scanner.id).mapM
          (normalizeRequest j r.correlation)) :=
      Action.Keeps.mapM _ (fun n _ => timeless_journal.normalizeRequest j r.correlation n)
    exact (minds_quiet hmade).bind minds_enqueueAnnounced

theorem minds_normalizeInputs (j : NormalizeJob) :
    (normalizeInputs j).Minds cause announces := by
  refine (minds_quiet (keeps_evidenceOf j)).bind (fun evidence => ?_)
  refine (minds_quiet (timeless_journal.normalizeTime j)).bind (fun t => ?_)
  refine (minds_quiet (keeps_lookUp _ t)).bind (fun found => ?_)
  cases found with
  | none => exact minds_ofExcept _
  | some input => exact minds_pure _

theorem minds_commitNormalized (r : Request) (j : NormalizeJob) (input : Snapshot)
    (objects : List Snapshot) (t : Instant) :
    (commitNormalized r j input objects t).Minds cause true :=
  (minds_quiet (keeps_journal_observe _)).bind (minds_announceCommits r none)

theorem minds_normalize (r : Request) (j : NormalizeJob) : (normalize r j).Minds cause true := by
  refine (minds_normalizeInputs j).result.bind (fun inputs => ?_)
  rcases inputs with e | ⟨evidence, t, input⟩
  · exact minds_pure _
  · refine (minds_quiet timeless_journal.now).bind (fun started => ?_)
    refine (minds_quiet timeless_journal.now).bind (fun ended => ?_)
    refine (minds_quiet Action.Keeps.get).bind (fun p => ?_)
    rcases j.run p.registry evidence.octets started ended with ⟨j, e | objects⟩
    · exact minds_pure _
    · exact (minds_commitNormalized r j input objects t).result.bind (fun _ => minds_pure _)

theorem minds_dispatchNormalize (r : Request) (j : NormalizeJob) :
    (dispatchNormalize r j).Minds cause true := by
  refine (minds_normalize r j).bind (fun ran => ?_)
  refine (minds_quiet timeless_journal.now).bind (fun ended => ?_)
  exact (minds_quiet (keeps_journal_save _)).ignoring.bind (fun _ => minds_ofExcept _)

theorem minds_commitDerived (r : Request) (j : DeriveJob) (rule : String) (root : Snapshot)
    (objects : List Snapshot) : (commitDerived r j rule root objects).Minds cause true := by
  refine (minds_quiet (keeps_journal_observe _)).bind (fun commits => ?_)
  refine (minds_quiet Action.Keeps.get).bind (fun p => ?_)
  split
  · exact minds_pure ()
  · exact minds_announceCommits r _ commits

theorem minds_settleOutcome (r : Request) (j : DeriveJob) (o : RuleOutcome) :
    (settleOutcome r j o).Minds cause true := by
  unfold settleOutcome
  split
  · split
    · exact minds_pure _
    · refine (minds_commitDerived r j o.rule o.root _).result.bind (fun found => ?_)
      cases found <;> exact minds_pure _
  · exact minds_pure _

theorem minds_recordOutcome (r : Request) (j : DeriveJob) (o : RuleOutcome) :
    (recordOutcome r j o).Minds cause true := by
  refine (minds_settleOutcome r j o).bind (fun settled => ?_)
  refine (minds_quiet timeless_journal.freshId).bind (fun id => ?_)
  refine (minds_quiet timeless_journal.now).bind (fun t => ?_)
  refine (minds_quiet (keeps_journal_save _)).ignoring.bind (fun _ => ?_)
  exact minds_publish _ rfl (fun _ hconcluded => by cases hconcluded)

theorem minds_dispatchDerive (r : Request) (j : DeriveJob) :
    (dispatchDerive r j).Minds cause true := by
  refine (minds_quiet timeless_journal.now).bind (fun started => ?_)
  have hderive : ∀ j, (deriveAll r j).Minds cause true := fun j =>
    (minds_outcomes _ _).bind (fun found => minds_forM found (minds_recordOutcome r j))
  refine (hderive _).result.bind (fun outcome => ?_)
  refine (minds_quiet timeless_journal.now).bind (fun ended => ?_)
  exact (minds_quiet (keeps_journal_save _)).ignoring.bind (fun _ => minds_ofExcept _)

theorem minds_dispatch (r : Request) : (dispatch r).Minds cause true := by
  have hhandle : (handle r).Minds cause true := by
    unfold handle
    split
    · exact minds_dispatchScan r _
    · exact minds_dispatchNormalize r _
    · exact minds_dispatchDerive r _
  refine hhandle.result.bind (fun found => ?_)
  cases found <;> exact minds_pure _

/-- A worker announces what its job leads to, and then how the job ended. -/
theorem minds_runJob (r : Request) : (runJob r).Minds (some r) true := by
  have houtcome : (dispatch r).outcome.Minds (some r) true :=
    fun owed howed => (minds_dispatch r owed howed).outcome
  refine houtcome.bind (fun found => ?_)
  refine (minds_quiet (fun p => journal_settle p r.job.id _)).bind (fun _ => ?_)
  refine minds_publish _ (announced?_announcement r _) (fun h hconcluded => ?_)
  rw [concluded?_announcement] at hconcluded
  exact hconcluded

/-! ## Submitting -/

theorem minds_submitScan (scanner : String) (input : Reference) :
    (submitScan scanner input).Minds none true := by
  refine (minds_quiet timeless_journal.freshId).bind (fun correlation => ?_)
  refine (minds_quiet Action.Keeps.get).bind (fun p => ?_)
  split
  · exact minds_ofExcept _
  · refine (minds_quiet timeless_journal.now).bind (fun t => ?_)
    refine (minds_quiet (keeps_lookUp _ _)).bind (fun found => ?_)
    split
    · exact minds_ofExcept _
    · split
      · exact minds_ofExcept _
      · split
        · exact minds_ofExcept _
        · refine (minds_quiet (timeless_journal.scanRequest _ _ _)).bind (fun r => ?_)
          exact (minds_enqueueAnnounced [r]).bind (fun _ => minds_pure _)

/-- Whoever submits an observation queues the jobs for its commits and announces none of them. -/
theorem minds_submitObservation (method : String) (source : Reference) (objects : List Snapshot)
    (t : Instant) : (submitObservation method source objects t).Minds none false := by
  refine (minds_quiet (keeps_journal_observe _)).bind (fun commits => ?_)
  refine (minds_quiet timeless_journal.freshId).bind (fun correlation => ?_)
  exact (minds_followUps none (some correlation) commits).bind minds_enqueueAll

end Minds

end Worker

end ScanGraph
