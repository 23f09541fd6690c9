/-
What a dispatch concludes.

Each kind of job has its own way to go wrong: a scan that fails is archived with the
error as its evidence, a normalizer may find something that cannot be committed, and a
derivation records what became of each rule.  Whatever plugins return or panic over,
and although the store may go offline and come back between any two calls, the job is
archived when it is over, and as failed exactly if the dispatch reports a failure:
`concludes_dispatch`.

## What is proved

`concludes_dispatch`, for every request, with the store going offline and coming back
between any two calls: the dispatch does not panic; the job is archived under its id,
over, and failed exactly if the dispatch reports a failure; a scan is archived with its
evidence; and what is kept under other ids stays.

## How

`Concludes` says what a dispatch comes to, and `Adds` what most of its calls do.  A
routine that only adds has no bearing on what was archived, so that each dispatch is one
call that saves its job, with routines around it that only add.

## What is asked

That no service is out of order for the run as a whole: the archive and the queue take
what is given to them, so that a job is not lost on its way to the archive.  With the
archive offline there is no record, and nothing to say.
-/
import ScanGraph.Proofs.Pipeline.Meanwhile
import ScanGraph.Summary.Work

namespace ScanGraph

/-! ## What is archived of a job -/

namespace Archive

/-- The job is kept under its id, over and failed exactly if it should be, and a scan with its
evidence. -/
structure Tells (a : Archive) (kind : JobKind) (id : Uuid) (failed : Prop) : Prop where
  kept : ∃ j, a.job? kind id = some j ∧ j.id = id ∧ j.life.IsOver ∧
    (j.life.status = .failed ↔ failed)
  evidence : kind = .scan → a.HasEvidence id

/-- What is kept under other ids stays. -/
structure Apart (id : Uuid) (a b : Archive) : Prop where
  jobs : ∀ kind id', id' ≠ id → b.job? kind id' = a.job? kind id'
  evidence : ∀ id', id' ≠ id → b.evidence.get? id' = a.evidence.get? id'

section Apart

variable {a b c : Archive} {kind : JobKind} {id id' : Uuid} {failed : Prop}

theorem Apart.trans (h : a.Apart id b) (h' : b.Apart id c) : a.Apart id c where
  jobs kind id' hid := (h'.jobs kind id' hid).trans (h.jobs kind id' hid)
  evidence id' hid := (h'.evidence id' hid).trans (h.evidence id' hid)

theorem apart_attempts (a : Archive) (id : Uuid) (attempts : List Attempt) :
    a.Apart id { a with attempts } :=
  ⟨fun kind _ _ => by cases kind <;> rfl, fun _ _ => rfl⟩

theorem apart_saveJob (a : Archive) (job : Job) : a.Apart job.id (a.saveJob job) where
  jobs kind id' hid := by
    cases job <;> cases kind <;>
      first
      | rfl
      | exact congrArg (Option.map _) (Table.get?_insert_of_ne _ _ hid)
  evidence id' _ := by cases job <;> rfl

theorem apart_saveEvidence (a : Archive) (scan : Uuid) (e : Evidence) :
    a.Apart scan (a.saveEvidence scan e) where
  jobs kind _ _ := by cases kind <;> rfl
  evidence _ hid := Table.get?_insert_of_ne _ _ hid

theorem job?_saveJob (a : Archive) (job : Job) :
    (a.saveJob job).job? job.kind job.id = some job := by
  cases job <;> exact congrArg (Option.map _) (Table.get?_insert_self _ _ _)

/-- What the archive tells of a job it goes on telling while others are saved. -/
theorem Tells.apart (h : a.Tells kind id failed) (hapart : a.Apart id' b) (hid : id ≠ id') :
    b.Tells kind id failed where
  kept := by
    obtain ⟨j, hj, hrest⟩ := h.kept
    exact ⟨j, (hapart.jobs _ _ hid).trans hj, hrest⟩
  evidence hscan := by
    obtain ⟨e, he⟩ := h.evidence hscan
    exact ⟨e, (hapart.evidence _ hid).trans he⟩

theorem Tells.attempts (h : a.Tells kind id failed) (attempts : List Attempt) :
    Tells { a with attempts } kind id failed where
  kept := by
    obtain ⟨j, hj, hrest⟩ := h.kept
    refine ⟨j, Eq.trans ?_ hj, hrest⟩
    cases kind <;> rfl
  evidence := h.evidence

theorem Tells.iff (h : a.Tells kind id failed) {failed' : Prop} (hiff : failed ↔ failed') :
    a.Tells kind id failed' where
  kept := by
    obtain ⟨j, hj, hid, hover, hfailed⟩ := h.kept
    exact ⟨j, hj, hid, hover, hfailed.trans hiff⟩
  evidence := h.evidence

theorem tells_saveJob (a : Archive) {job : Job} (hkind : job.kind ≠ .scan)
    (hover : job.life.IsOver) (hfailed : job.life.status = .failed ↔ failed) :
    (a.saveJob job).Tells job.kind job.id failed :=
  ⟨⟨job, a.job?_saveJob job, rfl, hover, hfailed⟩, fun hscan => absurd hscan hkind⟩

theorem tells_saveScan (a : Archive) {j : ScanJob} (e : Evidence) (hover : j.life.IsOver)
    (hfailed : j.life.status = .failed ↔ failed) :
    ((a.saveJob (.scan j)).saveEvidence j.id e).Tells .scan j.id failed :=
  ⟨⟨.scan j, a.job?_saveJob (.scan j), rfl, hover, hfailed⟩,
    fun _ => hasEvidence_saveEvidence _ _ _⟩

end Apart

end Archive

namespace Pipeline

/-- The archive is changed, and neither the queue nor what is out of order. -/
structure Saves (change : Archive → Archive) (p q : Pipeline) : Prop where
  outages : q.outages = p.outages
  queue : q.queue = p.queue
  archive : q.archive = change p.archive

/-- A job was dispatched: others are queued, and it is archived as what it came to. -/
structure Concludes (kind : JobKind) (id : Uuid) (failed : Prop) (p q : Pipeline) : Prop where
  outages : q.outages = p.outages
  queue : ∃ rs, q.queue = p.queue.enqueueAll rs
  tells : q.archive.Tells kind id failed
  apart : p.archive.Apart id q.archive

section Concludes

variable {p q s : Pipeline} {kind : JobKind} {id : Uuid} {failed : Prop}
  {change : Archive → Archive}

theorem Adds.concludes (h : p.Adds q) (hsaves : q.Saves change s)
    (htells : (change q.archive).Tells kind id failed)
    (hapart : q.archive.Apart id (change q.archive)) : Concludes kind id failed p s := by
  obtain ⟨rs, hqueue⟩ := h.queue
  obtain ⟨attempts, harchive⟩ := h.archive
  refine ⟨hsaves.outages.trans h.outages, ⟨rs, hsaves.queue.trans hqueue⟩,
    hsaves.archive ▸ htells, ?_⟩
  have hattempts : p.archive.Apart id q.archive := by
    rw [harchive]
    exact p.archive.apart_attempts id attempts
  exact hsaves.archive ▸ hattempts.trans hapart

theorem Concludes.adds (h : Concludes kind id failed p q) (hadds : q.Adds s) :
    Concludes kind id failed p s := by
  obtain ⟨rs, hqueue⟩ := h.queue
  obtain ⟨rs', hqueue'⟩ := hadds.queue
  obtain ⟨attempts, harchive⟩ := hadds.archive
  refine ⟨hadds.outages.trans h.outages, ⟨rs ++ rs', ?_⟩, ?_, ?_⟩
  · rw [hqueue', hqueue, Queue.enqueueAll_append]
  · exact harchive ▸ h.tells.attempts attempts
  · exact harchive ▸ h.apart.trans (q.archive.apart_attempts id attempts)

theorem Concludes.iff (h : Concludes kind id failed p q) {failed' : Prop}
    (hiff : failed ↔ failed') : Concludes kind id failed' p q :=
  ⟨h.outages, h.queue, h.tells.iff hiff, h.apart⟩

end Concludes

end Pipeline

/-! ## Dispatching -/

namespace Worker

open Routine Pipeline

section Handle

variable {p s : Pipeline} {r : Request}

/-! ### Saving -/

theorem executes_save {change : Archive → Archive} {x : Except Fault Unit}
    (hp : p.outages = .none) (h : (once (save change)).Executes p x s) :
    x = .ok () ∧ p.Saves change s := by
  obtain ⟨q, helsewhere, hsave⟩ := executes_once h
  have honline : q.outages.archiveOffline = false := by
    rw [helsewhere.outages, hp]
    rfl
  rw [save_of_online change honline] at hsave
  cases hsave
  exact ⟨rfl, helsewhere.outages, helsewhere.queue, congrArg change helsewhere.archive⟩

theorem executes_saveScan {j : ScanJob} {e : Evidence} {x : Except Fault Unit}
    (hp : p.outages = .none) (h : (saveScan j e).Executes p x s) :
    x = .ok () ∧ p.Saves (fun a => (a.saveJob (.scan j)).saveEvidence j.id e) s := by
  rcases executes_bind h with ⟨fault, hfails, -⟩ | ⟨_, q, hjob, hevidence⟩
  · cases (executes_save hp hfails).1
  · obtain ⟨-, hsaves⟩ := executes_save hp hjob
    obtain ⟨hx, hsaves'⟩ := executes_save (hsaves.outages.trans hp) hevidence
    refine ⟨hx, hsaves'.outages.trans hsaves.outages, hsaves'.queue.trans hsaves.queue, ?_⟩
    rw [hsaves'.archive, hsaves.archive]

/-- What is saved and not looked at any more, and what the routine comes to after it. -/
theorem executes_ignoring_bind {w : Routine Unit} {change : Archive → Archive} {α : Type}
    {f : Unit → Routine α} {x : Except Fault α}
    (hw : ∀ y q, w.Executes p y q → y = .ok () ∧ p.Saves change q)
    (h : (w.ignoring >>= f).Executes p x s) : ∃ q, p.Saves change q ∧ (f ()).Executes q x s := by
  have hpanic : ∀ m q, ¬ w.Executes p (.error (.panic m)) q := by
    intro m q hm
    cases (hw _ q hm).1
  rcases executes_bind h with ⟨fault, hfails, -⟩ | ⟨_, q, hsave, hrest⟩
  · cases (executes_ignoring hfails hpanic).1
  · obtain ⟨-, y, hy⟩ := executes_ignoring hsave hpanic
    exact ⟨q, (hw y q hy).2, hrest⟩

theorem concludes_saved {q : Pipeline} {job : Job} {outcome : Except PipelineError Unit}
    {x : Except Fault Unit} (hadds : p.Adds q) (hq : q.outages = .none) (hkind : job.kind ≠ .scan)
    (htells : job.life.Tells outcome)
    (h : (ignoring (once (save (fun a => a.saveJob job))) >>= fun _ => ofExcept outcome).Executes
      q x s) :
    Unpanicked x ∧ Concludes job.kind job.id (x.isOk = false) p s := by
  obtain ⟨q', hsaves, hends⟩ := executes_ignoring_bind (fun y q => executes_save hq) h
  have hsaved := hadds.concludes hsaves
    (Archive.tells_saveJob _ hkind htells.isOver htells.failed_iff) (Archive.apart_saveJob _ job)
  cases outcome with
  | ok =>
    cases hends
    exact ⟨unpanicked_ok _, hsaved⟩
  | error e =>
    cases hends
    exact ⟨unpanicked_error e, hsaved⟩

/-! ### Scans -/

theorem concludes_dispatchScan (j : ScanJob) {x : Except Fault Unit} (hp : p.outages = .none)
    (h : (dispatchScan r j).Executes p x s) :
    Unpanicked x ∧ Concludes .scan j.id (x.isOk = false) p s := by
  obtain ⟨started, q₁, -, hq₁, h⟩ := adding_now.executes hp h
  obtain ⟨ended, q₂, -, hq₂, h⟩ := adding_now.executes (hq₁.outages.trans hp) h
  obtain ⟨m, q, -, hq₃, h⟩ := adding_get.executes ((hq₁.trans hq₂).outages.trans hp) h
  have hadds : p.Adds q := (hq₁.trans hq₂).trans hq₃
  have hq : q.outages = .none := hadds.outages.trans hp
  obtain ⟨hid, htells⟩ := j.tells_run m.backend m.policy.scanning.timeoutSeconds started ended
  generalize j.run m.backend m.policy.scanning.timeoutSeconds started ended = ran at hid htells h
  have hapart : ∀ (a : Archive) (j : ScanJob) (e : Evidence),
      a.Apart j.id ((a.saveJob (.scan j)).saveEvidence j.id e) :=
    fun a j e => (a.apart_saveJob (.scan j)).trans (Archive.apart_saveEvidence _ j.id e)
  rw [← hid]
  rcases ran with ⟨j', e | evidence⟩
  · obtain ⟨q', hsaves, hfails⟩ := executes_ignoring_bind (fun y q => executes_saveScan hq) h
    cases hfails
    exact ⟨unpanicked_error e, hadds.concludes hsaves
      (Archive.tells_saveScan _ _ htells.isOver htells.failed_iff) (hapart _ j' _)⟩
  · rcases executes_bind h with ⟨fault, hfails, -⟩ | ⟨_, q', hsave, hrest⟩
    · cases (executes_saveScan hq hfails).1
    · obtain ⟨-, hsaves⟩ := executes_saveScan hq hsave
      have hmade : (once ((m.registry.normalizersFor evidence.tags j'.scanner.id).mapM
          (normalizeRequest j' r.correlation))).Adding (Gives (fun _ => True)) :=
        adding_yields (fun q => (yields_mapM _ (fun n _ q' _ =>
          yields_normalizeRequest j' r.correlation n q')).imp (fun _ _ => trivial))
      obtain ⟨hmore, _, rfl, -⟩ := (hmade.after (fun rs _ => adding_enqueueAnnounced rs)) q' x s
        (hsaves.outages.trans hq) hrest
      have hsaved := hadds.concludes hsaves
        (Archive.tells_saveScan _ _ htells.isOver htells.failed_iff) (hapart _ j' _)
      exact ⟨unpanicked_ok _, hsaved.adds hmore⟩

/-! ### Normalizers -/

theorem adding_commitNormalized (j : NormalizeJob) (input : Snapshot) (objects : List Snapshot)
    (t : Instant) : (commitNormalized r j input objects t).Adding Unpanicked :=
  (adding_observe _).next (adding_announceCommits r none)

theorem unpanicked_evidenceOf (j : NormalizeJob) (p : Pipeline) :
    Unpanicked (evidenceOf j p).1 := by
  unfold evidenceOf
  rw [Action.get_bind]
  cases p.archive.evidence.get? j.scan.id with
  | some e => exact unpanicked_ok e
  | none => exact unpanicked_error _

theorem unpanicked_normalizeTime (j : NormalizeJob) (p : Pipeline) :
    Unpanicked (normalizeTime j p).1 := by
  unfold normalizeTime
  cases j.scan.life.endedAt with
  | some t => exact unpanicked_ok t
  | none => exact unpanicked_ok _

theorem adding_normalizeInputs (j : NormalizeJob) : (normalizeInputs j).Adding Unpanicked := by
  refine (adding_keeps (keeps_evidenceOf j) (unpanicked_evidenceOf j)).next (fun evidence => ?_)
  refine (adding_keeps (steady_still.normalizeTime j) (unpanicked_normalizeTime j)).next
    (fun t => ?_)
  refine (adding_keeps (keeps_lookUp _ t) (unpanicked_lookUp _ t)).next (fun found => ?_)
  cases found with
  | some input => exact adding_done (unpanicked_ok _)
  | none => exact adding_done (unpanicked_error _)

/-- A normalizer that comes to no error leaves a job that ended well. -/
theorem adding_normalize (j : NormalizeJob) : (normalize r j).Adding
    (Gives (fun y => y.1.id = j.id ∧ (y.2 = .ok () → y.1.life.Tells y.2))) := by
  refine (adding_normalizeInputs j).result.after (fun inputs _ => ?_)
  rcases inputs with e | ⟨evidence, t, input⟩
  · exact adding_done ⟨_, rfl, rfl, fun he => (by cases he)⟩
  · refine adding_now.after (fun started _ => adding_now.after (fun ended _ => ?_))
    refine adding_get.after (fun m _ => ?_)
    obtain ⟨hid, htells⟩ := j.tells_run m.registry evidence.octets started ended
    generalize j.run m.registry evidence.octets started ended = ran at hid htells
    rcases ran with ⟨j', e | objects⟩
    · exact adding_done ⟨_, rfl, hid, fun he => (by cases he)⟩
    · refine (adding_commitNormalized j' input objects t).result.after (fun committed _ => ?_)
      refine adding_done ⟨_, rfl, hid, ?_⟩
      rintro rfl
      exact htells.ok ()

theorem concludes_dispatchNormalize (j : NormalizeJob) {x : Except Fault Unit}
    (hp : p.outages = .none) (h : (dispatchNormalize r j).Executes p x s) :
    Unpanicked x ∧ Concludes .normalize j.id (x.isOk = false) p s := by
  obtain ⟨⟨j', outcome⟩, q₁, ⟨hid, hwell⟩, hq₁, h⟩ := (adding_normalize j).executes hp h
  obtain ⟨ended, q, -, hq₂, h⟩ := adding_now.executes (hq₁.outages.trans hp) h
  have hadds : p.Adds q := hq₁.trans hq₂
  have hkind : ∀ j : NormalizeJob, (Job.normalize j).kind ≠ .scan := by
    rintro j ⟨⟩
  rw [← hid]
  -- Whatever the normalizer left of the job, an error that came later makes it a failure.
  cases outcome with
  | ok => exact concludes_saved hadds (hadds.outages.trans hp) (hkind j') (hwell rfl) h
  | error e =>
    exact concludes_saved hadds (hadds.outages.trans hp)
      (hkind { j' with life := j'.life.fail e.message ended })
      (j'.life.tells_fail ended e.message e) h

/-! ### Derivations -/

theorem adding_outcomes (changed : Reference) (t : Instant) :
    (outcomes changed t).Adding Unpanicked := by
  intro p x s hp hx
  cases hx with
  | evaluate answer helsewhere hanswer hdone =>
    cases hdone
    exact ⟨helsewhere.adds, hanswer⟩

theorem adding_commitDerived (j : DeriveJob) (rule : String) (root : Snapshot)
    (objects : List Snapshot) : (commitDerived r j rule root objects).Adding Unpanicked := by
  refine (adding_observe _).next (fun commits => adding_get.after (fun m _ => ?_))
  split
  · exact adding_done (unpanicked_ok ())
  · exact adding_announceCommits r _ commits

theorem adding_settleOutcome (j : DeriveJob) (o : RuleOutcome) :
    (settleOutcome r j o).Adding (Gives (fun _ => True)) := by
  unfold settleOutcome
  cases o.status with
  | derived objects cached =>
    dsimp only
    split
    · exact adding_done ⟨_, rfl, trivial⟩
    · refine (adding_commitDerived j o.rule o.root objects).result.after (fun committed _ => ?_)
      cases committed <;> exact adding_done ⟨_, rfl, trivial⟩
  | _ => exact adding_done ⟨_, rfl, trivial⟩

theorem adding_saveAttempt (attempt : Attempt) :
    (ignoring (once (save (fun a => a.saveAttempt attempt)))).Adding (Gives (fun _ => True)) := by
  intro p x s hp hx
  have hpanic : ∀ m q, ¬ (once (save (fun a => a.saveAttempt attempt))).Executes p
      (.error (.panic m)) q := by
    intro m q hm
    cases (executes_save hp hm).1
  obtain ⟨rfl, y, hy⟩ := executes_ignoring hx hpanic
  obtain ⟨-, hsaves⟩ := executes_save hp hy
  exact ⟨⟨hsaves.outages, ⟨[], hsaves.queue⟩, ⟨_, hsaves.archive⟩⟩, (), rfl, trivial⟩

theorem adding_recordOutcome (j : DeriveJob) (o : RuleOutcome) :
    (recordOutcome r j o).Adding (Gives (fun _ => True)) := by
  refine (adding_settleOutcome j o).after (fun settled _ => ?_)
  refine (adding_yields yields_freshId).after (fun id _ => adding_now.after (fun t _ => ?_))
  exact (adding_saveAttempt _).after (fun _ _ => adding_publish r.correlation _)

theorem adding_deriveAll (j : DeriveJob) : (deriveAll r j).Adding Unpanicked :=
  (adding_outcomes _ _).next
    (fun found => adding_forM found (fun o => (adding_recordOutcome j o).unpanicked))

theorem concludes_dispatchDerive (j : DeriveJob) {x : Except Fault Unit}
    (hp : p.outages = .none) (h : (dispatchDerive r j).Executes p x s) :
    Unpanicked x ∧ Concludes .derive j.id (x.isOk = false) p s := by
  obtain ⟨started, q₁, -, hq₁, h⟩ := adding_now.executes hp h
  obtain ⟨outcome, q₂, -, hq₂, h⟩ :=
    (adding_deriveAll _).result.executes (hq₁.outages.trans hp) h
  have hq : q₂.outages = .none := (hq₁.trans hq₂).outages.trans hp
  obtain ⟨ended, q, -, hq₃, h⟩ := adding_now.executes hq h
  have hadds : p.Adds q := (hq₁.trans hq₂).trans hq₃
  have hkind : ∀ life, (Job.derive { j with life }).kind ≠ .scan := by
    rintro life ⟨⟩
  cases outcome with
  | ok =>
    exact concludes_saved hadds (hadds.outages.trans hp)
      (hkind ((j.life.start started).complete ended)) (Lifecycle.tells_complete _ ended ()) h
  | error e =>
    exact concludes_saved hadds (hadds.outages.trans hp)
      (hkind ((j.life.start started).fail e.message ended))
      (Lifecycle.tells_fail _ ended e.message e) h

/-! ### Every job -/

theorem concludes_handle {x : Except Fault Unit} (hp : p.outages = .none)
    (h : (handle r).Executes p x s) :
    Unpanicked x ∧ Concludes r.job.kind r.job.id (x.isOk = false) p s := by
  unfold handle at h
  cases hjob : r.job with
  | scan j =>
    rw [hjob] at h
    exact concludes_dispatchScan j hp h
  | normalize j =>
    rw [hjob] at h
    exact concludes_dispatchNormalize j hp h
  | derive j =>
    rw [hjob] at h
    exact concludes_dispatchDerive j hp h

/-- A job that is dispatched does not panic, and is archived as failed exactly if it is reported
to have failed. -/
theorem concludes_dispatch {x : Except Fault JobResult} (hp : p.outages = .none)
    (h : (dispatch r).Executes p x s) :
    ∃ status, x = .ok status ∧ Concludes r.job.kind r.job.id (status ≠ .succeeded) p s := by
  have hpanic : ∀ m q, ¬ (handle r).Executes p (.error (.panic m)) q :=
    fun m q hm => (concludes_handle hp hm).1 m rfl
  rcases executes_bind h with ⟨fault, hfails, -⟩ | ⟨result, q, hresult, hends⟩
  · rcases executes_result hfails (fun m => hpanic m s) with ⟨_, hx, -⟩ | ⟨_, hx, -⟩
    · cases hx
    · cases hx
  · rcases executes_result hresult (fun m => hpanic m q) with ⟨_, hx, hw⟩ | ⟨e, hx, hw⟩
    · cases hx
      cases hends
      exact ⟨.succeeded, rfl, (concludes_handle hp hw).2.iff ⟨nofun, fun h => absurd rfl h⟩⟩
    · cases hx
      cases hends
      exact ⟨.failed e.message, rfl, (concludes_handle hp hw).2.iff ⟨fun _ => nofun, fun _ => rfl⟩⟩

end Handle

end Worker

end ScanGraph
