/-
What the events of a crew tell of its jobs.

A chronicle is a crew that keeps account of what each task queued and has not
announced yet.  From an empty queue on, every job that was ever queued was announced
once or is owed by exactly one task (`Balanced`).  So when the end of a job is
announced, the job itself was announced once before, unless a task still owes the
announcement: `concluded_announced`.  Workers and those who ask for a scan owe nothing
when they are done, but may be overtaken by the end of the job; what an observation
leads to stays owed for good.

## What is asked

The queue is empty at the beginning and nothing was announced yet, and no id belongs to
two jobs of the run.  Any number of tasks may come, go on in any order, or be given up
between two calls.

## What is proved

When an event says that a job is over, the job was announced exactly once before, or it
is owed by some task and was not announced at all.  A task that announces owes nothing
when it is over; what one that does not announce owes, it owes for good.

## What is not

Both ways in which the announcement is missing are real: `concluded_unannounced` is a
job that an observation led to, and `concluded_overtaken` a scan whose end comes first.
The second one is a matter of order alone, and the announcement follows.  Nothing is
said about events of other kinds, such as those that report commits.
-/
import ScanGraph.Proofs.Pipeline.Announcements
import ScanGraph.Proofs.Pipeline.Crew

namespace ScanGraph

open Pipeline

/-- A task with what it queued and did not announce yet. -/
structure Scribe where
  task : Task
  /-- Whether the task publishes events at all. -/
  announces : Bool
  owed : List Handle

def Scribe.IsOver (s : Scribe) : Prop :=
  ∃ x, s.task.rest = .done x

/-- The calls that are left to a task have the effects that announcing what is owed asks for. -/
def Scribe.Minding (s : Scribe) : Prop :=
  s.task.rest.Owes s.task.cause s.announces (fun _ => Cleared s.announces) s.owed

/-- A pipeline and who is or was at work there. -/
structure Chronicle where
  pipeline : Pipeline
  scribes : List Scribe

namespace Chronicle

/-- What was queued and not announced yet. -/
def unannounced (c : Chronicle) : List Handle :=
  c.scribes.flatMap Scribe.owed

/-- One call of one task, or one more task.  A task that is over or is given up makes no calls. -/
inductive Step : Chronicle → Chronicle → Prop
  | submitScan {p : Pipeline} {ss : List Scribe} (scanner : String) (input : Reference) :
      Step ⟨p, ss⟩ ⟨p, ⟨⟨none, discard (Worker.submitScan scanner input)⟩, true, []⟩ :: ss⟩
  | submitObservation {p : Pipeline} {ss : List Scribe} (method : String) (source : Reference)
      (objects : List Snapshot) (t : Instant) :
      Step ⟨p, ss⟩
        ⟨p, ⟨⟨none, discard (Worker.submitObservation method source objects t)⟩, false, []⟩ :: ss⟩
  | take {p p' : Pipeline} {ss : List Scribe} {k : JobKind} {r : Request} :
      p.dequeue k = (p', some r) →
      Step ⟨p, ss⟩ ⟨p', ⟨⟨some r, Worker.runJob r⟩, true, []⟩ :: ss⟩
  | call {β : Type} {p : Pipeline} {us vs : List Scribe} {cause : Option Request}
      {act : Action β} {next : Except Fault β → Routine Unit} {announces : Bool}
      {owed : List Handle} :
      Step ⟨p, us ++ ⟨⟨cause, .call act next⟩, announces, owed⟩ :: vs⟩
        ⟨(act p).2, us ++ ⟨⟨cause, next (act p).1⟩, announces, owing p (act p).2 owed⟩ :: vs⟩
  | evaluate {p : Pipeline} {us vs : List Scribe} {cause : Option Request} {changed : Reference}
      {t : Instant} {next : Except Fault (List RuleOutcome) → Routine Unit} {announces : Bool}
      {owed : List Handle} (memory : Memory) (clock : Nat) (answer : Except Fault (List RuleOutcome)) :
      Step ⟨p, us ++ ⟨⟨cause, .evaluate changed t next⟩, announces, owed⟩ :: vs⟩
        ⟨{ p with memory, clock }, us ++ ⟨⟨cause, next answer⟩, announces, owed⟩ :: vs⟩
  /-- Something else happens, by which nothing is queued or announced. -/
  | others {p p' : Pipeline} {ss : List Scribe} :
      p.Later p' → p'.journal = p.journal → Step ⟨p, ss⟩ ⟨p', ss⟩

/-- What a chronicle comes to by any number of steps. -/
def Reached : Chronicle → Chronicle → Prop :=
  Relation.ReflTransGen Step

/-! ## Chronicles of crews -/

/-- A step of a crew in which nobody but the tasks queues or announces anything. -/
structure Told (d : Crew) (cause : Option Request) (d' : Crew) : Prop where
  step : Crew.Step d cause d'
  journal : d'.tasks = d.tasks → d'.pipeline.journal = d.pipeline.journal

/-- The chronicle has the tasks of the crew, and maybe others that are at work no more. -/
structure Tells (c : Chronicle) (d : Crew) : Prop where
  pipeline : c.pipeline = d.pipeline
  tasks : d.tasks.Sublist (c.scribes.map Scribe.task)

theorem Tells.exists_scribe {c : Chronicle} {p : Pipeline} {us vs : List Task} {task : Task}
    (h : c.Tells ⟨p, us ++ task :: vs⟩) :
    ∃ us' announces owed vs', c = ⟨p, us' ++ ⟨task, announces, owed⟩ :: vs'⟩ ∧
      us.Sublist (us'.map Scribe.task) ∧ vs.Sublist (vs'.map Scribe.task) := by
  obtain ⟨q, ss⟩ := c
  obtain ⟨rfl, htasks⟩ := h
  obtain ⟨before, rest, hbefore, hus, hrest⟩ := List.append_sublist_iff.1 htasks
  obtain ⟨upTo, after, rfl, htask, hvs⟩ := List.cons_sublist_iff.1 hrest
  obtain ⟨skipped, skipped', rfl⟩ := List.append_of_mem htask
  have hsplit : ss.map Scribe.task = (before ++ skipped) ++ task :: (skipped' ++ after) := by
    rw [hbefore]
    simp only [List.append_assoc, List.cons_append]
  obtain ⟨us', ts, rfl, hus', hts⟩ := List.map_eq_append_iff.1 hsplit
  obtain ⟨s, vs', rfl, rfl, hvs'⟩ := List.map_eq_cons_iff.1 hts
  refine ⟨us', s.announces, s.owed, vs', rfl, ?_, ?_⟩
  · exact hus' ▸ hus.trans (List.sublist_append_left before skipped)
  · exact hvs' ▸ hvs.trans (List.sublist_append_right skipped' after)

theorem Tells.step {c : Chronicle} {d d' : Crew} {cause : Option Request} (h : c.Tells d)
    (htold : Told d cause d') : ∃ c', Reached c c' ∧ c'.Tells d' := by
  obtain ⟨hstep, hothers⟩ := htold
  have hjoin : ∀ s : Scribe, d'.tasks = s.task :: d.tasks →
      Tells ⟨d'.pipeline, s :: c.scribes⟩ d' := by
    intro s htasks
    refine ⟨rfl, ?_⟩
    rw [htasks]
    exact h.tasks.cons_cons s.task
  obtain ⟨q, ss⟩ := c
  cases hstep with
  | submitScan scanner input =>
    obtain rfl := h.pipeline
    exact ⟨_, .single (.submitScan scanner input), hjoin _ rfl⟩
  | submitObservation method source objects t =>
    obtain rfl := h.pipeline
    exact ⟨_, .single (.submitObservation method source objects t), hjoin _ rfl⟩
  | take hdequeue =>
    obtain rfl := h.pipeline
    exact ⟨_, .single (.take hdequeue), hjoin _ rfl⟩
  | call =>
    obtain ⟨us, announces, owed, vs, hc, hus, hvs⟩ := h.exists_scribe
    cases hc
    refine ⟨_, .single .call, rfl, ?_⟩
    rw [List.map_append]
    exact hus.append (hvs.cons_cons _)
  | evaluate memory clock answer =>
    obtain ⟨us, announces, owed, vs, hc, hus, hvs⟩ := h.exists_scribe
    cases hc
    refine ⟨_, .single (.evaluate memory clock answer), rfl, ?_⟩
    rw [List.map_append]
    exact hus.append (hvs.cons_cons _)
  | @leave p us vs task =>
    refine ⟨_, .refl, h.pipeline, List.Sublist.trans ?_ h.tasks⟩
    exact (List.Sublist.refl us).append (List.sublist_cons_self task vs)
  | others hlater hqueue =>
    obtain rfl := h.pipeline
    exact ⟨_, .single (.others hlater (hothers rfl)), rfl, h.tasks⟩

/-- A chronicle can be kept of every run of a crew from its beginning on. -/
theorem exists_chronicle {p : Pipeline} {d : Crew}
    (h : Relation.ReflTransGen (fun d d' => ∃ cause, Told d cause d') ⟨p, []⟩ d) :
    ∃ c, Reached ⟨p, []⟩ c ∧ c.Tells d := by
  induction h with
  | refl => exact ⟨⟨p, []⟩, .refl, rfl, .slnil⟩
  | tail _ hstep ih =>
    obtain ⟨c, hreached, htells⟩ := ih
    obtain ⟨cause, htold⟩ := hstep
    obtain ⟨c', hmore, htells'⟩ := htells.step htold
    exact ⟨c', hreached.trans hmore, htells'⟩

/-! ## The balance -/

/-- The queue takes jobs, and every job that was ever queued was announced or is owed. -/
structure Balanced (c : Chronicle) : Prop where
  opened : c.pipeline.outages.queueClosed = false
  minding : ∀ s ∈ c.scribes, s.Minding
  log : c.pipeline.queue.log.Perm ((c.pipeline.announced ++ c.unannounced).map Handle.id)
  waiting : ∀ r ∈ c.pipeline.queue.waiting, Queue.handleOf r ∈ c.pipeline.announced ++ c.unannounced
  causes : ∀ s ∈ c.scribes, ∀ r, s.task.cause = some r →
    Queue.handleOf r ∈ c.pipeline.announced ++ c.unannounced

section Balance

variable {c c' : Chronicle}

/-- What keeps the balance: jobs that are queued are announced or owed then. -/
theorem Balanced.move (h : c.Balanced) (rs : List Request)
    (hopened : c'.pipeline.outages.queueClosed = false) (hminding : ∀ s ∈ c'.scribes, s.Minding)
    (hlog : c'.pipeline.queue.log
      = c.pipeline.queue.log ++ (rs.map Queue.handleOf).map Handle.id)
    (haccounts : (c'.pipeline.announced ++ c'.unannounced).Perm
      ((c.pipeline.announced ++ c.unannounced) ++ rs.map Queue.handleOf))
    (hwaiting : ∀ r ∈ c'.pipeline.queue.waiting, r ∈ c.pipeline.queue.waiting ∨ r ∈ rs)
    (hcauses : ∀ s ∈ c'.scribes, ∀ r, s.task.cause = some r →
      r ∈ c.pipeline.queue.waiting ∨ ∃ s' ∈ c.scribes, s'.task.cause = some r) :
    c'.Balanced where
  opened := hopened
  minding := hminding
  log := by
    rw [hlog]
    refine .trans ?_ (haccounts.map Handle.id).symm
    rw [List.map_append]
    exact h.log.append_right _
  waiting r hr := by
    refine haccounts.mem_iff.2 (List.mem_append.2 ?_)
    rcases hwaiting r hr with hold | hnew
    · exact .inl (h.waiting r hold)
    · exact .inr (List.mem_map_of_mem hnew)
  causes s hs r hr := by
    refine haccounts.mem_iff.2 (List.mem_append_left _ ?_)
    rcases hcauses s hs r hr with hwaits | ⟨s', hs', hcause⟩
    · exact h.waiting r hwaits
    · exact h.causes s' hs' r hcause

/-- A task that owes nothing joins, maybe with a job that waited. -/
theorem Balanced.join {p p' : Pipeline} {ss : List Scribe} (h : Balanced ⟨p, ss⟩)
    (hpipeline : p' = { p with queue := p'.queue }) (hlog : p'.queue.log = p.queue.log)
    (hwaiting : ∀ r ∈ p'.queue.waiting, r ∈ p.queue.waiting) {task : Task} {announces : Bool}
    (hminds : task.rest.Minds task.cause announces)
    (hcause : ∀ r, task.cause = some r → r ∈ p.queue.waiting) :
    Balanced ⟨p', ⟨task, announces, []⟩ :: ss⟩ := by
  have hopened : p'.outages.queueClosed = false := by
    rw [hpipeline]
    exact h.opened
  have hannounced : p'.announced = p.announced := by
    rw [hpipeline]
    rfl
  refine h.move [] hopened (List.forall_mem_cons.2 ⟨hminds [] (fun _ => rfl), h.minding⟩)
    (hlog.trans (List.append_nil _).symm) ?_ (fun r hr => .inl (hwaiting r hr))
    (List.forall_mem_cons.2 ⟨fun r hr => .inl (hcause r hr), fun s hs r hr => .inr ⟨s, hs, hr⟩⟩)
  show (p'.announced ++ unannounced ⟨p, ss⟩).Perm _
  rw [hannounced]
  exact .of_eq (List.append_nil _).symm

/-- The scribes are those before but for the one that was replaced. -/
theorem mem_or_eq_of_replaced {us vs : List Scribe} {new s : Scribe} (old : Scribe)
    (h : s ∈ us ++ new :: vs) : s ∈ us ++ old :: vs ∨ s = new := by
  simp only [List.mem_append, List.mem_cons] at h ⊢
  rcases h with h | h | h
  · exact .inl (.inl h)
  · exact .inr h
  · exact .inl (.inr (.inr h))

theorem Balanced.advance {p q : Pipeline} {us vs : List Scribe} {task : Task} {announces : Bool}
    {owed owed' : List Handle} (h : Balanced ⟨p, us ++ ⟨task, announces, owed⟩ :: vs⟩)
    (heffect : Effect task.cause announces p q owed owed') {rest : Routine Unit}
    (hrest : Scribe.Minding ⟨⟨task.cause, rest⟩, announces, owed'⟩) :
    Balanced ⟨q, us ++ ⟨⟨task.cause, rest⟩, announces, owed'⟩ :: vs⟩ := by
  have hmem : (⟨task, announces, owed⟩ : Scribe) ∈ us ++ ⟨task, announces, owed⟩ :: vs :=
    List.mem_append_right _ List.mem_cons_self
  refine h.move (p.queue.since q.queue) (heffect.closed.trans h.opened) (fun s hs => ?_)
    heffect.log (List.perm_iff_count.2 (fun x => ?_)) heffect.waiting (fun s hs r hr => .inr ?_)
  · rcases mem_or_eq_of_replaced ⟨task, announces, owed⟩ hs with hold | rfl
    · exact h.minding s hold
    · exact hrest
  · have hcount := heffect.accounts.count_eq x
    simp only [unannounced, List.flatMap_append, List.flatMap_cons, List.count_append] at hcount ⊢
    omega
  · rcases mem_or_eq_of_replaced ⟨task, announces, owed⟩ hs with hold | rfl
    · exact ⟨s, hold, hr⟩
    · exact ⟨_, hmem, hr⟩

theorem Balanced.step (h : c.Balanced) (hstep : Step c c') : c'.Balanced := by
  cases hstep with
  | submitScan scanner input =>
    have hminds := (Worker.minds_submitScan scanner input).bind (fun _ => Routine.minds_pure ())
    exact h.join rfl rfl (fun _ hr => hr) hminds (fun _ hr => by cases hr)
  | submitObservation method source objects t =>
    have hminds := (Worker.minds_submitObservation method source objects t).bind
      (fun _ => Routine.minds_pure ())
    exact h.join rfl rfl (fun _ hr => hr) hminds (fun _ hr => by cases hr)
  | @take p p' ss k r hdequeue =>
    obtain ⟨hpipeline, hqueue⟩ := dequeue_eq_some_iff.1 hdequeue
    have hwaiting := Queue.waiting_of_dequeue hqueue
    refine h.join hpipeline ?_ (fun r' hr' => ?_) (Worker.minds_runJob r) (fun r' hr' => ?_)
    · obtain ⟨rest, -, hrest⟩ := Queue.dequeue_eq_some_iff.1 hqueue
      rw [hrest]
    · exact hwaiting.mem_iff.2 (List.mem_cons_of_mem r hr')
    · exact hwaiting.mem_iff.2 (Option.some.inj hr' ▸ List.mem_cons_self)
  | @call β p us vs cause act next announces owed =>
    have hmem : (⟨⟨cause, .call act next⟩, announces, owed⟩ : Scribe) ∈
        us ++ ⟨⟨cause, .call act next⟩, announces, owed⟩ :: vs :=
      List.mem_append_right _ List.mem_cons_self
    obtain ⟨owed', heffect, hnext⟩ := h.minding _ hmem p h.opened
    rw [heffect.owing_eq]
    exact h.advance heffect hnext
  | @evaluate p us vs cause changed t next announces owed memory clock answer =>
    have hmem : (⟨⟨cause, .evaluate changed t next⟩, announces, owed⟩ : Scribe) ∈
        us ++ ⟨⟨cause, .evaluate changed t next⟩, announces, owed⟩ :: vs :=
      List.mem_append_right _ List.mem_cons_self
    have hnext : Scribe.Minding ⟨⟨cause, next answer⟩, announces, owed⟩ := h.minding _ hmem answer
    have heffect : Effect cause announces p { p with memory, clock } owed owed := .quiet rfl rfl
    exact h.advance heffect hnext
  | @others p p' ss hlater hjournal =>
    have hlines : p'.queue.ready = p.queue.ready := congrArg Journal.lines hjournal
    have hevents : p'.bus.published = p.bus.published := congrArg Journal.events hjournal
    refine h.move [] ((congrArg Journal.closed hjournal).trans h.opened) h.minding
      ((congrArg Journal.log hjournal).trans (List.append_nil _).symm) ?_ (fun r hr => .inl ?_)
      (fun s hs r hr => .inr ⟨s, hs, hr⟩)
    · show (announcedIn p'.bus.published ++ unannounced ⟨p, ss⟩).Perm _
      rw [hevents]
      exact .of_eq (List.append_nil _).symm
    · have hsame : p'.queue.waiting = p.queue.waiting := by
        unfold Queue.waiting
        rw [hlines]
      exact hsame ▸ hr

theorem Balanced.reached (h : c.Balanced) (hrun : Reached c c') : c'.Balanced := by
  induction hrun with
  | refl => exact h
  | tail _ hstep ih => exact ih.step hstep

/-- A job was announced once if nobody owes its announcement, and not at all otherwise. -/
theorem Balanced.count_announced (h : c.Balanced) (hids : c.pipeline.queue.log.Nodup) {job : Handle}
    (hjob : job ∈ c.pipeline.announced ++ c.unannounced) :
    c.pipeline.announced.count job = if job ∈ c.unannounced then 0 else 1 := by
  have hnodup : (c.pipeline.announced ++ c.unannounced).Nodup :=
    .of_map Handle.id (h.log.nodup_iff.1 hids)
  obtain ⟨hannounced, -, hdisjoint⟩ := List.nodup_append.1 hnodup
  split
  · rename_i howed
    exact List.count_eq_zero.2 (fun hmem => hdisjoint job hmem job howed rfl)
  · rename_i howed
    exact List.count_eq_one_of_mem hannounced ((List.mem_append.1 hjob).resolve_right howed)

theorem Balanced.exists_cause (h : c.Balanced) (hstep : Step c c') {e : Event} {job : Handle}
    (hevents : c'.pipeline.bus.published = c.pipeline.bus.published ++ [e])
    (hconcluded : e.payload.concluded? = some job) :
    ∃ s ∈ c.scribes, ∃ r, s.task.cause = some r ∧ Queue.handleOf r = job := by
  have hmore : c'.pipeline.bus.published ≠ c.pipeline.bus.published := by
    rw [hevents]
    exact fun hsame => List.cons_ne_nil e [] (List.append_right_eq_self.1 hsame)
  cases hstep with
  | submitScan scanner input => exact absurd rfl hmore
  | submitObservation method source objects t => exact absurd rfl hmore
  | take hdequeue =>
    obtain ⟨hpipeline, -⟩ := dequeue_eq_some_iff.1 hdequeue
    exact absurd (congrArg (fun q : Pipeline => q.bus.published) hpipeline) hmore
  | @call β p us vs cause act next announces owed =>
    have hmem : (⟨⟨cause, .call act next⟩, announces, owed⟩ : Scribe) ∈
        us ++ ⟨⟨cause, .call act next⟩, announces, owed⟩ :: vs :=
      List.mem_append_right _ List.mem_cons_self
    obtain ⟨owed', heffect, -⟩ := h.minding _ hmem p h.opened
    obtain ⟨r, hr, hhandle⟩ := Option.map_eq_some_iff.1 (heffect.concluded hevents hconcluded)
    exact ⟨_, hmem, r, hr, hhandle⟩
  | evaluate memory clock answer => exact absurd rfl hmore
  | others hlater hjournal => exact absurd (congrArg Journal.events hjournal) hmore

theorem Balanced.silent (h : c.Balanced) (hstep : Step c c') {s : Scribe} (hs : s ∈ c.scribes)
    (hsilent : s.announces = false) :
    ∃ s' ∈ c'.scribes, s'.announces = false ∧ s.owed <+: s'.owed := by
  cases hstep with
  | submitScan scanner input =>
    exact ⟨s, List.mem_cons_of_mem _ hs, hsilent, List.prefix_rfl⟩
  | submitObservation method source objects t =>
    exact ⟨s, List.mem_cons_of_mem _ hs, hsilent, List.prefix_rfl⟩
  | take hdequeue => exact ⟨s, List.mem_cons_of_mem _ hs, hsilent, List.prefix_rfl⟩
  | @call β p us vs cause act next announces owed =>
    rcases mem_or_eq_of_replaced ⟨⟨cause, next (act p).1⟩, announces, owing p (act p).2 owed⟩ hs
      with hmem | rfl
    · exact ⟨s, hmem, hsilent, List.prefix_rfl⟩
    · obtain ⟨owed', heffect, -⟩ := h.minding _ hs p h.opened
      have hprefix : owed <+: owing p (act p).2 owed :=
        heffect.owing_eq.symm ▸ (hsilent ▸ heffect).prefix_of_silent
      exact ⟨_, List.mem_append_right _ List.mem_cons_self, hsilent, hprefix⟩
  | @evaluate p us vs cause changed t next announces owed memory clock answer =>
    rcases mem_or_eq_of_replaced ⟨⟨cause, next answer⟩, announces, owed⟩ hs with hmem | rfl
    · exact ⟨s, hmem, hsilent, List.prefix_rfl⟩
    · exact ⟨_, List.mem_append_right _ List.mem_cons_self, hsilent, List.prefix_rfl⟩
  | others hlater hjournal => exact ⟨s, hs, hsilent, List.prefix_rfl⟩

theorem Balanced.over (h : c.Balanced) {s : Scribe} (hs : s ∈ c.scribes)
    (hannounces : s.announces = true) (hover : s.IsOver) : s.owed = [] := by
  obtain ⟨x, hx⟩ := hover
  have hminding : s.task.rest.Owes s.task.cause s.announces (fun _ => Cleared s.announces) s.owed :=
    h.minding s hs
  rw [hx] at hminding
  cases x <;> exact hminding hannounces

end Balance

theorem balanced_of_blank {p : Pipeline} (h : p.journal = .blank) : Balanced ⟨p, []⟩ := by
  have hannounced : p.announced = [] := by
    unfold announced
    rw [show p.bus.published = [] from congrArg Journal.events h]
    rfl
  have hwaiting : p.queue.waiting = [] := by
    unfold Queue.waiting
    rw [show p.queue.ready = .all [] from congrArg Journal.lines h]
    rfl
  refine ⟨congrArg Journal.closed h, fun s hs => absurd hs List.not_mem_nil, ?_, ?_,
    fun s hs => absurd hs List.not_mem_nil⟩
  · show p.queue.log.Perm ((p.announced ++ []).map Handle.id)
    rw [hannounced]
    exact .of_eq (congrArg Journal.log h)
  · show ∀ r ∈ p.queue.waiting, _
    rw [hwaiting]
    exact fun r hr => absurd hr List.not_mem_nil

/-- From an empty queue on, whoever submits and works in whatever order: if the end of a job is
announced, the job was announced exactly once before, unless its announcement is owed, and then not
at all.  Workers and those who ask for a scan owe nothing when they are over; those who submit an
observation owe for good the announcements of all that they queued. -/
theorem concluded_announced {p : Pipeline} (hblank : p.journal = .blank) {c c' : Chronicle}
    (hrun : Reached ⟨p, []⟩ c) (hids : c.pipeline.queue.log.Nodup) (hstep : Step c c') :
    (∀ e job, c'.pipeline.bus.published = c.pipeline.bus.published ++ [e] →
        e.payload.concluded? = some job →
        c.pipeline.announced.count job = if job ∈ c.unannounced then 0 else 1) ∧
      (∀ s ∈ c.scribes, s.announces = true → s.IsOver → s.owed = []) ∧
      ∀ s ∈ c.scribes, s.announces = false →
        ∃ s' ∈ c'.scribes, s'.announces = false ∧ s.owed <+: s'.owed := by
  have hbalanced := (balanced_of_blank hblank).reached hrun
  refine ⟨fun e job hevents hconcluded => ?_, fun s hs => hbalanced.over hs,
    fun s hs => hbalanced.silent hstep hs⟩
  obtain ⟨s, hs, r, hcause, rfl⟩ := hbalanced.exists_cause hstep hevents hconcluded
  exact hbalanced.count_announced hids (hbalanced.causes s hs r hcause)

/-! ## One task at a time -/

/-- The chronicle after the next call of the first task, if one is left to it. -/
def next : Chronicle → Chronicle
  | ⟨p, ⟨⟨cause, .call act next⟩, announces, owed⟩ :: ss⟩ =>
      ⟨(act p).2, ⟨⟨cause, next (act p).1⟩, announces, owing p (act p).2 owed⟩ :: ss⟩
  | ⟨p, ⟨⟨cause, .evaluate changed t next⟩, announces, owed⟩ :: ss⟩ =>
      ⟨(deriveFor changed t p).2, ⟨⟨cause, next (deriveFor changed t p).1⟩, announces, owed⟩ :: ss⟩
  | c => c

/-- The chronicle after a worker took the first job of a line, if there is one. -/
def taking (k : JobKind) (c : Chronicle) : Chronicle :=
  match c.pipeline.dequeue k with
  | (p, some r) => ⟨p, ⟨⟨some r, Worker.runJob r⟩, true, []⟩ :: c.scribes⟩
  | (_, none) => c

/-- The chronicle after someone came to submit an observation. -/
def observing (c : Chronicle) (method : String) (source : Reference) (objects : List Snapshot)
    (t : Instant) : Chronicle :=
  ⟨c.pipeline,
    ⟨⟨none, discard (Worker.submitObservation method source objects t)⟩, false, []⟩ :: c.scribes⟩

/-- The chronicle after someone came to ask for a scan. -/
def asking (c : Chronicle) (scanner : String) (input : Reference) : Chronicle :=
  ⟨c.pipeline, ⟨⟨none, discard (Worker.submitScan scanner input)⟩, true, []⟩ :: c.scribes⟩

theorem next_cases (c : Chronicle) : c.next = c ∨ Step c c.next := by
  obtain ⟨p, ss⟩ := c
  cases ss with
  | nil => exact .inl rfl
  | cons s ss =>
    obtain ⟨⟨cause, rest⟩, announces, owed⟩ := s
    cases rest with
    | done x => exact .inl rfl
    | call act next =>
      have hstep : Step ⟨p, [] ++ ⟨⟨cause, .call act next⟩, announces, owed⟩ :: ss⟩
          ⟨(act p).2, [] ++ ⟨⟨cause, next (act p).1⟩, announces, owing p (act p).2 owed⟩ :: ss⟩ :=
        .call
      exact .inr hstep
    | evaluate changed t next =>
      obtain ⟨memory, clock, hmemory⟩ := exists_memory_deriveFor changed t p
      have hstep : Step ⟨p, [] ++ ⟨⟨cause, .evaluate changed t next⟩, announces, owed⟩ :: ss⟩
          ⟨{ p with memory, clock },
            [] ++ ⟨⟨cause, next (deriveFor changed t p).1⟩, announces, owed⟩ :: ss⟩ :=
        .evaluate memory clock _
      rw [← hmemory] at hstep
      exact .inr hstep

theorem Reached.next {c d : Chronicle} (h : Reached d c) : Reached d c.next := by
  rcases c.next_cases with hsame | hstep
  · exact hsame.symm ▸ h
  · exact h.tail hstep

theorem Reached.calls {c d : Chronicle} (h : Reached d c) (n : Nat) :
    Reached d (Chronicle.next^[n] c) := by
  induction n with
  | zero => exact h
  | succ n ih =>
    rw [Function.iterate_succ_apply']
    exact ih.next

theorem Reached.taking {c d : Chronicle} (h : Reached d c) (k : JobKind) :
    Reached d (c.taking k) := by
  unfold Chronicle.taking
  cases hdequeue : c.pipeline.dequeue k with
  | mk p taken =>
    cases taken with
    | none => exact h
    | some r => exact h.tail (.take hdequeue)

/-- A call of the first task by which an event is published is a step. -/
theorem step_next {c : Chronicle} {e : Event}
    (h : c.next.pipeline.bus.published = c.pipeline.bus.published ++ [e]) : Step c c.next := by
  refine c.next_cases.resolve_left (fun hsame => ?_)
  rw [hsame] at h
  exact List.cons_ne_nil e [] (List.append_right_eq_self.1 h.symm)

namespace Probing

/-- The scanner that may scan every network. -/
def probe : RegisteredScanner :=
  ⟨⟨"probe", none, .ofList [.network], .empty, .l0⟩, none⟩

/-- A pipeline with that scanner whose store holds a network. -/
def start : Pipeline :=
  { ofStore (Store.holding [.network "internet"] (.ofSecond 0)) with
    registry := (Registry.Draft.empty.addScanner probe.definition probe.body).registry }

/-- A scan of the network is asked for. -/
def asked : Chronicle :=
  asking ⟨start, []⟩ "probe" (Entity.network "internet").reference

/-- The scan was asked for and is over, and its end is still to be announced. -/
def scanned : Chronicle :=
  next^[7] ((next^[7] asked).taking .scan)

/-- The same while who asked for the scan did not come to announce it. -/
def overtaken : Chronicle :=
  next^[7] ((next^[6] asked).taking .scan)

/-- Another network was declared, and the derive job for it is over. -/
def observed : Chronicle :=
  next^[5] ((next^[5] (observing ⟨start, []⟩ "manual" (Entity.network "internet").reference
    [.ofEntity (.network "intranet")] (.ofSecond 200))).taking .derive)

def scan : Handle :=
  ⟨.ofNat 1, .scan⟩

/-- The derive job for what was declared. -/
def derivation : Handle :=
  ⟨.ofNat 1, .derive⟩

theorem reached_asked : Reached ⟨start, []⟩ asked :=
  .single (.submitScan "probe" _)

theorem reached_scanned : Reached ⟨start, []⟩ scanned :=
  ((reached_asked.calls 7).taking .scan).calls 7

theorem concluded_announced_scanned :
    start.journal = .blank ∧ Reached ⟨start, []⟩ scanned ∧ scanned.pipeline.queue.log.Nodup ∧
      Step scanned scanned.next ∧ ∃ e : Event, e.payload.concluded? = some scan ∧
        scanned.next.pipeline.bus.published = scanned.pipeline.bus.published ++ [e] ∧
        scanned.pipeline.announced.count scan = 1 := by
  have hblank : start.journal = .blank := rfl
  have hids : scanned.pipeline.queue.log.Nodup := by decide +kernel
  let e : Event := ⟨.ofNat 3, some (.ofNat 0), ⟨0, 5000⟩, .jobCompleted scan.id scan.kind⟩
  have hevents :
      scanned.next.pipeline.bus.published = scanned.pipeline.bus.published ++ [e] := by
    decide +kernel
  have hstep := step_next hevents
  have howed : scan ∉ scanned.unannounced := by decide +kernel
  obtain ⟨hconcluded, -, -⟩ := concluded_announced hblank reached_scanned hids hstep
  have hcount := hconcluded e scan hevents rfl
  rw [if_neg howed] at hcount
  exact ⟨hblank, reached_scanned, hids, hstep, e, rfl, hevents, hcount⟩

/-- The end of a job that an observation led to is announced, and the job itself never was. -/
theorem concluded_unannounced :
    start.journal = .blank ∧ Reached ⟨start, []⟩ observed ∧ Step observed observed.next ∧
      ∃ e : Event, e.payload.concluded? = some derivation ∧
        observed.next.pipeline.bus.published = observed.pipeline.bus.published ++ [e] ∧
        observed.pipeline.announced.count derivation = 0 := by
  have hsubmit : Reached ⟨start, []⟩ (observing ⟨start, []⟩ "manual"
      (Entity.network "internet").reference [.ofEntity (.network "intranet")] (.ofSecond 200)) :=
    .single (.submitObservation _ _ _ _)
  let e : Event :=
    ⟨.ofNat 2, some (.ofNat 0), ⟨0, 3000⟩, .jobCompleted derivation.id derivation.kind⟩
  have hevents :
      observed.next.pipeline.bus.published = observed.pipeline.bus.published ++ [e] := by
    decide +kernel
  exact ⟨rfl, ((hsubmit.calls 5).taking .derive).calls 5, step_next hevents, e, rfl, hevents,
    by decide +kernel⟩

/-- The end of a scan that was asked for is announced, and the scan itself only later. -/
theorem concluded_overtaken :
    Reached ⟨start, []⟩ overtaken ∧ Step overtaken overtaken.next ∧
      ∃ e : Event, e.payload.concluded? = some scan ∧
        overtaken.next.pipeline.bus.published = overtaken.pipeline.bus.published ++ [e] ∧
        overtaken.pipeline.announced.count scan = 0 := by
  let e : Event := ⟨.ofNat 2, some (.ofNat 0), ⟨0, 4000⟩, .jobCompleted scan.id scan.kind⟩
  have hevents :
      overtaken.next.pipeline.bus.published = overtaken.pipeline.bus.published ++ [e] := by
    decide +kernel
  exact ⟨((reached_asked.calls 6).taking .scan).calls 7, step_next hevents, e, rfl, hevents,
    by decide +kernel⟩

end Probing

end Chronicle

end ScanGraph
