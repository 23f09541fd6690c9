/-
Dispatching jobs.

A scan leaves evidence and jobs for the normalizers that read it.  What a
normalizer finds is committed with the clearance its input implies, and so is
what rules derive; every commit leads to a derive job, and to scans if the
policy says so.  A chain of derivations ends where a rule meets a root again,
or at the depth that the policy allows.

Whatever is saved and whatever is queued stands in the order in which it happens, since
a failure half way leaves what was done before it: a scan is archived before the jobs
that read it are queued, an observation before the jobs for its commits, and an outcome
before it is announced.

Where the archive is offline, a scan cannot go on, as others are to read its evidence; a
normalize job, a derive job and an attempt are then just not recorded.  What a dispatch
comes to is a `JobResult`, and only a panic goes past it.
-/
import ScanGraph.Pipeline
import ScanGraph.Normalizing

namespace ScanGraph

/-- How the dispatch of a job ends. -/
inductive JobResult where
  | succeeded
  | failed (error : String)
deriving DecidableEq, Repr

namespace Pipeline

open ScanGraph.Action

/-! ## Follow-up jobs -/

/-- Jobs queued and announced, each with its chain. -/
def enqueueAnnounced (rs : List Request) : Action Unit := do
  let _ ← enqueueAll rs
  rs.forM (fun r => publish r.correlation (.jobEnqueued r.job.id r.job.kind))

def scanRequest (d : ScannerDefinition) (input : Snapshot) (correlation : Option Uuid) :
    Action Request := do
  let id ← freshId
  let organization := (← get).policy.organization
  request (.scan (.ofSnapshot id ⟨d.id, d.version⟩ input organization)) correlation

def scansOf (input : Snapshot) (correlation : Option Uuid) : Action (List Request) := do
  let p ← get
  (p.registry.scannersFor input.type input.level).mapM
    (fun s => scanRequest s.definition input correlation)

/-- The scans that a commit leads to, none if the object cannot be read. -/
def scansAfter (correlation : Option Uuid) (c : Commit) : Action (List Request) := do
  match ← result (lookUp c.reference c.validTime) with
  | .ok (some input) => scansOf input correlation
  | _ => pure []

/-- The scans that commits lead to, if the policy says so. -/
def automaticScans (commits : List Commit) (correlation : Option Uuid) :
    Action (List Request) := do
  if (← get).policy.autoSchedule then
    pure (← commits.mapM (scansAfter correlation)).flatten
  else pure []

/-- A derive job for a commit: the next of a chain, or the first one. -/
def deriveRequest (parent : Option (DeriveJob × Visit)) (correlation : Option Uuid) (c : Commit) :
    Action Request := do
  let id ← freshId
  let job := match parent with
    | some (j, visit) => j.followUp id c visit
    | none => .ofCommit id c
  request (.derive job) correlation

/-- The jobs that commits lead to: scans, and a derive job each. -/
def followUps (parent : Option (DeriveJob × Visit)) (correlation : Option Uuid)
    (commits : List Commit) : Action (List Request) := do
  let scans ← automaticScans commits correlation
  let derives ← commits.mapM (deriveRequest parent correlation)
  pure (scans ++ derives)

/-- Commits of a job announced, and the jobs they lead to queued. -/
def announceCommits (r : Request) (parent : Option (DeriveJob × Visit)) (commits : List Commit) :
    Action Unit := do
  if commits.isEmpty then pure ()
  else
    publish r.correlation (.objectsCommitted r.job.id commits)
    enqueueAnnounced (← followUps parent r.correlation commits)

/-! ## Scans -/

/-- A scan job and its evidence put into the archive. -/
def saveScan (j : ScanJob) (e : Evidence) : Action Unit := do
  save (fun a => a.saveJob (.scan j))
  save (fun a => a.saveEvidence j.id e)

/-- A job for a normalizer that reads the evidence of a scan. -/
def normalizeRequest (j : ScanJob) (correlation : Option Uuid) (n : RegisteredNormalizer) :
    Action Request := do
  let id ← freshId
  request (.normalize (.ofScan id j ⟨n.definition.id, none⟩)) correlation

/-- A scan job run, and its evidence passed on. -/
def dispatchScan (r : Request) (j : ScanJob) : Action Unit := do
  let started ← now
  let ended ← now
  let p ← get
  let (j, outcome) := j.run p.backend p.policy.scanning.timeoutSeconds started ended
  match outcome with
  | .error e =>
      ignoring (saveScan j (.ofError e.message))
      refuse e
  | .ok evidence =>
      saveScan j evidence
      enqueueAnnounced
        (← (p.registry.normalizersFor evidence.tags j.scanner.id).mapM
          (normalizeRequest j r.correlation))

/-! ## Normalizers -/

/-- The evidence that a normalize job reads. -/
def evidenceOf (j : NormalizeJob) : Action Evidence := do
  match (← get).archive.evidence.get? j.scan.id with
  | some e => pure e
  | none => refuse (.notFound ("raw output of " ++ j.scan.id.text))

/-- The time at which the findings of a normalize job hold: when the scan ended. -/
def normalizeTime (j : NormalizeJob) : Action Instant := do
  match j.scan.life.endedAt with
  | some t => pure t
  | none => now

/-- The evidence, the time and the input of a normalize job. -/
def normalizeInputs (j : NormalizeJob) : Action (Evidence × Instant × Snapshot) := do
  let evidence ← evidenceOf j
  let t ← normalizeTime j
  match ← lookUp j.scan.inputReference t with
  | some input => pure (evidence, t, input)
  | none => refuse (.notFound ("input object " ++ j.scan.inputReference.text))

/-- What a normalizer found committed with the clearance that its input implies. -/
def commitNormalized (r : Request) (j : NormalizeJob) (input : Snapshot) (objects : List Snapshot)
    (t : Instant) : Action Unit := do
  let commits ← observe
    ⟨j.normalizer.id, j.scan.inputReference, some j.id, t, input.imply objects⟩
  announceCommits r none commits

/-- A normalize job run, and what it found committed. -/
def normalize (r : Request) (j : NormalizeJob) :
    Action (NormalizeJob × Except PipelineError Unit) := do
  match ← result (normalizeInputs j) with
  | .error e => pure (j, .error e)
  | .ok (evidence, t, input) =>
      let started ← now
      let ended ← now
      let (j, outcome) := j.run (← get).registry evidence.octets started ended
      match outcome with
      | .error e => pure (j, .error e)
      | .ok objects => pure (j, ← result (commitNormalized r j input objects t))

/-- A normalize job run and put into the archive. -/
def dispatchNormalize (r : Request) (j : NormalizeJob) : Action Unit := do
  let (j, outcome) ← normalize r j
  let ended ← now
  let j := match outcome with
    | .error e => { j with life := j.life.fail e.message ended }
    | .ok () => j
  ignoring (save (fun a => a.saveJob (.normalize j)))
  ofExcept outcome

/-! ## Derivations -/

/-- What a rule derived committed with the clearance that its root implies. -/
def commitDerived (r : Request) (j : DeriveJob) (rule : String) (root : Snapshot)
    (objects : List Snapshot) : Action Unit := do
  let commits ← observe
    ⟨rule, root.reference, some j.id, j.commit.validTime, root.imply objects⟩
  if (← get).policy.derivation.maxDepth < j.depth + 1 then pure ()
  else announceCommits r (some (j, ⟨rule, root.reference⟩)) commits

/-- What is reported of an outcome, and the objects it is credited with. -/
def settleOutcome (r : Request) (j : DeriveJob) (o : RuleOutcome) :
    Action (Evaluation × List Reference) := do
  let evaluation := o.status.evaluation
  let output := o.status.objects.map Snapshot.reference
  match o.status with
  | .derived objects _ =>
      if j.hasVisited ⟨o.rule, o.root.reference⟩ then pure (evaluation, output)
      else match ← result (commitDerived r j o.rule o.root objects) with
        | .ok () => pure (evaluation, output)
        | .error e => pure (.failed e.message, [])
  | _ => pure (evaluation, output)

def recordOutcome (r : Request) (j : DeriveJob) (o : RuleOutcome) : Action Unit := do
  let (evaluation, output) ← settleOutcome r j o
  let id ← freshId
  let t ← now
  ignoring (save (fun a => a.saveAttempt
    ⟨id, some j.id, o.rule, o.root.reference, evaluation, output, t⟩))
  publish r.correlation (.ruleEvaluated o.rule o.root.reference evaluation)

/-- Everything that the commit of a derive job concerns evaluated. -/
def deriveAll (r : Request) (j : DeriveJob) : Action Unit := do
  let outcomes ← deriveFor j.commit.reference j.commit.validTime
  outcomes.forM (recordOutcome r j)

/-- A derive job run and put into the archive. -/
def dispatchDerive (r : Request) (j : DeriveJob) : Action Unit := do
  let j := { j with life := j.life.start (← now) }
  let outcome ← result (deriveAll r j)
  let ended ← now
  let j := match outcome with
    | .ok () => { j with life := j.life.complete ended }
    | .error e => { j with life := j.life.fail e.message ended }
  ignoring (save (fun a => a.saveJob (.derive j)))
  ofExcept outcome

/-! ## Jobs -/

/-- A job dispatched by its kind. -/
def handle (r : Request) : Action Unit :=
  match r.job with
  | .scan j => dispatchScan r j
  | .normalize j => dispatchNormalize r j
  | .derive j => dispatchDerive r j

/-- A job dispatched; an error is its result. -/
def dispatch (r : Request) : Action JobResult := do
  match ← result (handle r) with
  | .ok () => pure .succeeded
  | .error e => pure (.failed e.message)

end Pipeline

end ScanGraph
