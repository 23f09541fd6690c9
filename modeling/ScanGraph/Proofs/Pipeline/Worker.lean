/-
Workers: what dispatching a job and submitting work come to in steps.

Every worker and every caller goes through the calls of one routine, one after
the other, while others go through theirs.  The routines here make the calls of
the actions that they are named after, in the same order: uninterrupted, each is
that action.  What only takes ids, reads the clock or reads what never changes is
one call together.

Each routine stands next to the action that it is named after and has an equation with
it, `run_dispatch` and `run_submitScan` among them, so that what is proved of routines
is proved of what runs.  The order of calls is that of the action.

## What is one call

Reading the clock, taking ids, publishing an event and reading policy or plugins are put
together with the call that they belong to, since nobody else's calls can make a
difference to them.  Reads and writes of store, queue and archive are calls each.  An
evaluation of rules is one step here, whose calls are listed in
`Proofs.Derivation.Evaluator`.
-/
import ScanGraph.Pipeline.Drain
import ScanGraph.Proofs.Pipeline.Routine

namespace ScanGraph

namespace Worker

open Routine

/-! ## Follow-up jobs -/

/-- Jobs at the ends of their lines, one after the other. -/
def enqueueAll : List Request → Routine (List Handle)
  | [] => pure []
  | r :: rest => do
      let h ← once (Pipeline.enqueue r)
      let hs ← enqueueAll rest
      pure (h :: hs)

/-- Jobs queued and announced, each with its chain. -/
def enqueueAnnounced (rs : List Request) : Routine Unit := do
  let _ ← enqueueAll rs
  rs.forM (fun r => once (Pipeline.publish r.correlation (.jobEnqueued r.job.id r.job.kind)))

/-- The scans that a commit leads to, none if the object cannot be read. -/
def scansAfter (correlation : Option Uuid) (c : Commit) : Routine (List Request) := do
  match ← (once (Pipeline.lookUp c.reference c.validTime)).result with
  | .ok (some input) => once (Pipeline.scansOf input correlation)
  | _ => pure []

/-- The scans that commits lead to, if the policy says so. -/
def automaticScans (commits : List Commit) (correlation : Option Uuid) :
    Routine (List Request) := do
  if (← once get).policy.autoSchedule then
    pure (← commits.mapM (scansAfter correlation)).flatten
  else pure []

/-- The jobs that commits lead to: scans, and a derive job each. -/
def followUps (parent : Option (DeriveJob × Visit)) (correlation : Option Uuid)
    (commits : List Commit) : Routine (List Request) := do
  let scans ← automaticScans commits correlation
  let derives ← once (commits.mapM (Pipeline.deriveRequest parent correlation))
  pure (scans ++ derives)

/-- Commits of a job announced, and the jobs they lead to queued. -/
def announceCommits (r : Request) (parent : Option (DeriveJob × Visit)) (commits : List Commit) :
    Routine Unit := do
  if commits.isEmpty then pure ()
  else
    once (Pipeline.publish r.correlation (.objectsCommitted r.job.id commits))
    enqueueAnnounced (← followUps parent r.correlation commits)

/-! ## Scans -/

/-- A scan job and its evidence put into the archive. -/
def saveScan (j : ScanJob) (e : Evidence) : Routine Unit := do
  once (Pipeline.save (fun a => a.saveJob (.scan j)))
  once (Pipeline.save (fun a => a.saveEvidence j.id e))

/-- A scan job run, and its evidence passed on. -/
def dispatchScan (r : Request) (j : ScanJob) : Routine Unit := do
  let started ← once Pipeline.now
  let ended ← once Pipeline.now
  let p ← once get
  let (j, outcome) := j.run p.backend p.policy.scanning.timeoutSeconds started ended
  match outcome with
  | .error e =>
      ignoring (saveScan j (.ofError e.message))
      ofExcept (.error e)
  | .ok evidence =>
      saveScan j evidence
      enqueueAnnounced
        (← once ((p.registry.normalizersFor evidence.tags j.scanner.id).mapM
          (Pipeline.normalizeRequest j r.correlation)))

/-! ## Normalizers -/

/-- The evidence, the time and the input of a normalize job. -/
def normalizeInputs (j : NormalizeJob) : Routine (Evidence × Instant × Snapshot) := do
  let evidence ← once (Pipeline.evidenceOf j)
  let t ← once (Pipeline.normalizeTime j)
  match ← once (Pipeline.lookUp j.scan.inputReference t) with
  | some input => pure (evidence, t, input)
  | none => ofExcept (.error (.notFound ("input object " ++ j.scan.inputReference.text)))

/-- What a normalizer found committed with the clearance that its input implies. -/
def commitNormalized (r : Request) (j : NormalizeJob) (input : Snapshot) (objects : List Snapshot)
    (t : Instant) : Routine Unit := do
  let commits ← once (Pipeline.observe
    ⟨j.normalizer.id, j.scan.inputReference, some j.id, t, input.imply objects⟩)
  announceCommits r none commits

/-- A normalize job run, and what it found committed. -/
def normalize (r : Request) (j : NormalizeJob) :
    Routine (NormalizeJob × Except PipelineError Unit) := do
  match ← (normalizeInputs j).result with
  | .error e => pure (j, .error e)
  | .ok (evidence, t, input) =>
      let started ← once Pipeline.now
      let ended ← once Pipeline.now
      let (j, outcome) := j.run (← once get).registry evidence.octets started ended
      match outcome with
      | .error e => pure (j, .error e)
      | .ok objects => pure (j, ← (commitNormalized r j input objects t).result)

/-- A normalize job run and put into the archive. -/
def dispatchNormalize (r : Request) (j : NormalizeJob) : Routine Unit := do
  let (j, outcome) ← normalize r j
  let ended ← once Pipeline.now
  let j := match outcome with
    | .error e => { j with life := j.life.fail e.message ended }
    | .ok () => j
  ignoring (once (Pipeline.save (fun a => a.saveJob (.normalize j))))
  ofExcept outcome

/-! ## Derivations -/

/-- What a rule derived committed with the clearance that its root implies. -/
def commitDerived (r : Request) (j : DeriveJob) (rule : String) (root : Snapshot)
    (objects : List Snapshot) : Routine Unit := do
  let commits ← once (Pipeline.observe
    ⟨rule, root.reference, some j.id, j.commit.validTime, root.imply objects⟩)
  if (← once get).policy.derivation.maxDepth < j.depth + 1 then pure ()
  else announceCommits r (some (j, ⟨rule, root.reference⟩)) commits

/-- What is reported of an outcome, and the objects it is credited with. -/
def settleOutcome (r : Request) (j : DeriveJob) (o : RuleOutcome) :
    Routine (Evaluation × List Reference) := do
  let evaluation := o.status.evaluation
  let output := o.status.objects.map Snapshot.reference
  match o.status with
  | .derived objects _ =>
      if j.hasVisited ⟨o.rule, o.root.reference⟩ then pure (evaluation, output)
      else match ← (commitDerived r j o.rule o.root objects).result with
        | .ok () => pure (evaluation, output)
        | .error e => pure (.failed e.message, [])
  | _ => pure (evaluation, output)

def recordOutcome (r : Request) (j : DeriveJob) (o : RuleOutcome) : Routine Unit := do
  let (evaluation, output) ← settleOutcome r j o
  let id ← once Pipeline.freshId
  let t ← once Pipeline.now
  ignoring (once (Pipeline.save (fun a => a.saveAttempt
    ⟨id, some j.id, o.rule, o.root.reference, evaluation, output, t⟩)))
  once (Pipeline.publish r.correlation (.ruleEvaluated o.rule o.root.reference evaluation))

/-- Everything that the commit of a derive job concerns evaluated. -/
def deriveAll (r : Request) (j : DeriveJob) : Routine Unit := do
  let found ← outcomes j.commit.reference j.commit.validTime
  found.forM (recordOutcome r j)

/-- A derive job run and put into the archive. -/
def dispatchDerive (r : Request) (j : DeriveJob) : Routine Unit := do
  let j := { j with life := j.life.start (← once Pipeline.now) }
  let outcome ← (deriveAll r j).result
  let ended ← once Pipeline.now
  let j := match outcome with
    | .ok () => { j with life := j.life.complete ended }
    | .error e => { j with life := j.life.fail e.message ended }
  ignoring (once (Pipeline.save (fun a => a.saveJob (.derive j))))
  ofExcept outcome

/-! ## Jobs -/

def handle (r : Request) : Routine Unit :=
  match r.job with
  | .scan j => dispatchScan r j
  | .normalize j => dispatchNormalize r j
  | .derive j => dispatchDerive r j

/-- A job dispatched; an error is its result. -/
def dispatch (r : Request) : Routine JobResult := do
  match ← (handle r).result with
  | .ok () => pure .succeeded
  | .error e => pure (.failed e.message)

/-- A job in flight dispatched, settled and announced. -/
def runJob (r : Request) : Routine Unit := do
  let status := Pipeline.resultOf (← (dispatch r).outcome)
  once (modify (fun p => p.settle r.job.id status))
  once (Pipeline.publish r.correlation (Pipeline.announcement r status))

/-! ## Submissions -/

def submitScan (scanner : String) (input : Reference) : Routine Handle := do
  let correlation ← once Pipeline.freshId
  match (← once get).registry.scanners.get? scanner with
  | none => ofExcept (.error (.notFound ("boefje " ++ scanner)))
  | some s =>
      let d := s.definition
      match ← once (Pipeline.lookUp input (← once Pipeline.now)) with
      | none => ofExcept (.error (.notFound ("object " ++ input.text)))
      | some object =>
          if !d.consumes.covers object.type then
            ofExcept (.error (.schemaViolation
              ("boefje " ++ scanner ++ " does not consume " ++ object.type.name)))
          else if object.level < d.level then
            ofExcept (.error (.insufficientClearance d.level object.level))
          else
            let r ← once (Pipeline.scanRequest d object (some correlation))
            enqueueAnnounced [r]
            pure (Queue.handleOf r)

/-- Objects declared by hand committed, and the jobs they lead to queued. -/
def submitObservation (method : String) (source : Reference) (objects : List Snapshot)
    (t : Instant) : Routine (List Handle) := do
  let commits ← once (Pipeline.observe ⟨method, source, none, t, objects⟩)
  let correlation ← once Pipeline.freshId
  enqueueAll (← followUps none (some correlation) commits)

/-! ## Uninterrupted -/

@[simp] theorem run_enqueueAll (rs : List Request) :
    (enqueueAll rs).run = Pipeline.enqueueAll rs := by
  induction rs with
  | nil => rfl
  | cons r rs ih => simp only [enqueueAll, Pipeline.enqueueAll, run_bind, run_once, run_pure, ih]

@[simp] theorem run_enqueueAnnounced (rs : List Request) :
    (enqueueAnnounced rs).run = Pipeline.enqueueAnnounced rs := by
  simp only [enqueueAnnounced, Pipeline.enqueueAnnounced, run_bind, run_enqueueAll,
    run_forM (fun _ => run_once _)]

@[simp] theorem run_scansAfter (correlation : Option Uuid) (c : Commit) :
    (scansAfter correlation c).run = Pipeline.scansAfter correlation c := by
  simp only [scansAfter, Pipeline.scansAfter, run_bind, run_result, run_once]
  congr 1
  funext found
  rcases found with e | (_ | input) <;> rfl

@[simp] theorem run_automaticScans (commits : List Commit) (correlation : Option Uuid) :
    (automaticScans commits correlation).run = Pipeline.automaticScans commits correlation := by
  simp only [automaticScans, Pipeline.automaticScans, run_bind, run_once]
  congr 1
  funext p
  split
  · rw [run_bind, run_mapM (run_scansAfter correlation)]
    rfl
  · rfl

@[simp] theorem run_followUps (parent : Option (DeriveJob × Visit)) (correlation : Option Uuid)
    (commits : List Commit) :
    (followUps parent correlation commits).run = Pipeline.followUps parent correlation commits := by
  simp only [followUps, Pipeline.followUps, run_bind, run_once, run_automaticScans, run_pure]

@[simp] theorem run_announceCommits (r : Request) (parent : Option (DeriveJob × Visit))
    (commits : List Commit) :
    (announceCommits r parent commits).run = Pipeline.announceCommits r parent commits := by
  unfold announceCommits Pipeline.announceCommits
  split
  · rfl
  · simp only [run_bind, run_once, run_followUps, run_enqueueAnnounced]

@[simp] theorem run_saveScan (j : ScanJob) (e : Evidence) :
    (saveScan j e).run = Pipeline.saveScan j e := by
  simp only [saveScan, Pipeline.saveScan, run_bind, run_once]

@[simp] theorem run_dispatchScan (r : Request) (j : ScanJob) :
    (dispatchScan r j).run = Pipeline.dispatchScan r j := by
  simp only [dispatchScan, Pipeline.dispatchScan, run_bind, run_once]
  congr 1; funext started
  congr 1; funext ended
  congr 1; funext p
  generalize j.run p.backend p.policy.scanning.timeoutSeconds started ended = ran
  rcases ran with ⟨j, e | evidence⟩
  · simp only [run_bind, run_ignoring, run_saveScan, run_ofExcept]
    rfl
  · simp only [run_bind, run_saveScan, run_once, run_enqueueAnnounced]

@[simp] theorem run_normalizeInputs (j : NormalizeJob) :
    (normalizeInputs j).run = Pipeline.normalizeInputs j := by
  simp only [normalizeInputs, Pipeline.normalizeInputs, run_bind, run_once]
  congr 1; funext evidence
  congr 1; funext t
  congr 1; funext found
  cases found <;> rfl

@[simp] theorem run_commitNormalized (r : Request) (j : NormalizeJob) (input : Snapshot)
    (objects : List Snapshot) (t : Instant) :
    (commitNormalized r j input objects t).run = Pipeline.commitNormalized r j input objects t := by
  simp only [commitNormalized, Pipeline.commitNormalized, run_bind, run_once, run_announceCommits]

@[simp] theorem run_normalize (r : Request) (j : NormalizeJob) :
    (normalize r j).run = Pipeline.normalize r j := by
  simp only [normalize, Pipeline.normalize, run_bind, run_result, run_normalizeInputs]
  congr 1; funext inputs
  rcases inputs with e | ⟨evidence, t, input⟩
  · rfl
  · simp only [run_bind, run_once]
    congr 1; funext started
    congr 1; funext ended
    congr 1; funext p
    generalize j.run p.registry evidence.octets started ended = ran
    rcases ran with ⟨j, e | objects⟩
    · rfl
    · simp only [run_bind, run_result, run_commitNormalized, run_pure]

@[simp] theorem run_dispatchNormalize (r : Request) (j : NormalizeJob) :
    (dispatchNormalize r j).run = Pipeline.dispatchNormalize r j := by
  simp only [dispatchNormalize, run_bind, run_once, run_normalize, run_ignoring, run_ofExcept]
  rfl

@[simp] theorem run_commitDerived (r : Request) (j : DeriveJob) (rule : String) (root : Snapshot)
    (objects : List Snapshot) :
    (commitDerived r j rule root objects).run = Pipeline.commitDerived r j rule root objects := by
  simp only [commitDerived, Pipeline.commitDerived, run_bind, run_once]
  congr 1; funext commits
  congr 1; funext p
  split
  · rfl
  · rw [run_announceCommits]

@[simp] theorem run_settleOutcome (r : Request) (j : DeriveJob) (o : RuleOutcome) :
    (settleOutcome r j o).run = Pipeline.settleOutcome r j o := by
  unfold settleOutcome Pipeline.settleOutcome
  cases o.status with
  | derived objects cached =>
    simp only
    split
    · rfl
    · rw [run_bind, run_result, run_commitDerived]
      congr 1; funext found
      cases found <;> rfl
  | _ => rfl

@[simp] theorem run_recordOutcome (r : Request) (j : DeriveJob) (o : RuleOutcome) :
    (recordOutcome r j o).run = Pipeline.recordOutcome r j o := by
  simp only [recordOutcome, Pipeline.recordOutcome, run_bind, run_once, run_settleOutcome,
    run_ignoring]

@[simp] theorem run_deriveAll (r : Request) (j : DeriveJob) :
    (deriveAll r j).run = Pipeline.deriveAll r j := by
  simp only [deriveAll, Pipeline.deriveAll, run_bind, run_outcomes,
    run_forM (run_recordOutcome r j)]

@[simp] theorem run_dispatchDerive (r : Request) (j : DeriveJob) :
    (dispatchDerive r j).run = Pipeline.dispatchDerive r j := by
  simp only [dispatchDerive, run_bind, run_once, run_result, run_deriveAll, run_ignoring,
    run_ofExcept]
  rfl

@[simp] theorem run_handle (r : Request) : (handle r).run = Pipeline.handle r := by
  unfold handle Pipeline.handle
  cases r.job with
  | scan j => exact run_dispatchScan r j
  | normalize j => exact run_dispatchNormalize r j
  | derive j => exact run_dispatchDerive r j

@[simp] theorem run_dispatch (r : Request) : (dispatch r).run = Pipeline.dispatch r := by
  simp only [dispatch, Pipeline.dispatch, run_bind, run_result, run_handle]
  congr 1; funext found
  cases found <;> rfl

theorem run_runJob (r : Request) (p : Pipeline) :
    ((runJob r).run p).2 = (p.runJob r).1 := by
  unfold runJob Pipeline.runJob
  rw [run_bind, Action.bind_of_ok (run_outcome _ _), run_dispatch]
  rfl

@[simp] theorem run_submitScan (scanner : String) (input : Reference) :
    (submitScan scanner input).run = Pipeline.submitScan scanner input := by
  simp only [submitScan, Pipeline.submitScan, run_bind, run_once]
  congr 1; funext correlation
  congr 1; funext p
  cases p.registry.scanners.get? scanner with
  | none => rfl
  | some s =>
    simp only [run_bind, run_once]
    congr 1; funext t
    congr 1; funext found
    cases found with
    | none => rfl
    | some object =>
      simp only
      split
      · rfl
      · split
        · rfl
        · simp only [run_bind, run_once, run_enqueueAnnounced, run_pure]

@[simp] theorem run_submitObservation (method : String) (source : Reference)
    (objects : List Snapshot) (t : Instant) :
    (submitObservation method source objects t).run
      = Pipeline.submitObservation method source objects t := by
  simp only [submitObservation, Pipeline.submitObservation, run_bind, run_once, run_followUps,
    run_enqueueAll]

end Worker

end ScanGraph
