/-
What the calls of workers and callers may change.

A routine makes its calls whatever the answers are, and each of them changes one
part of the pipeline at most: the clock, the ids and the bus, or else the queue,
the store, or the archive.  A relation that allows these few changes (`Allows`)
therefore holds between what every call found and what it left, on every way
through the routine: `every_runJob`.  Most routines never write to the store, and
for these it is enough that the relation allows the other changes (`Tends`).
Where derivation attempts are recorded is left open, since who records what is a
matter of its own; and so may be what is kept of scans, as only their workers keep
it (`Common`, `Writes`).

The lemmas here are the frame rules of the whole pipeline: one for each action that a
worker or caller makes, and one for each routine, `every_runJob` and
`every_submitObservation` at the end.  A new invariant asks for an instance of `Allows`
or `Tends` and gets these routines for nothing, as `confined_runJob` does.

They say what a call may change at most.  What it does change, and whether it fails, is
not said here; where every service works, that is `Pipeline.Services`.  The relation
holds between what a call found and what it left, whatever happened before it, so that
nothing has to be known about those who act in between.
-/
import ScanGraph.Proofs.Pipeline.Services

namespace ScanGraph

namespace Routine

/-- Every call of a routine, on every way through it, is such a step from any pipeline. -/
def Every {α : Type} (step : Pipeline → Pipeline → Prop) : Routine α → Prop
  | done _ => True
  | call act next => (∀ q, step q (act q).2) ∧ ∀ answer, (next answer).Every step
  | evaluate _ _ next => ∀ answer, (next answer).Every step

section Every

variable {α β : Type} {step : Pipeline → Pipeline → Prop} {w : Routine α}

theorem Every.bind {f : α → Routine β} (h : w.Every step) (hf : ∀ a, (f a).Every step) :
    (w >>= f).Every step := by
  rw [bind_def]
  induction w with
  | done x =>
    cases x with
    | ok a => exact hf a
    | error fault => trivial
  | call act next ih => exact ⟨h.1, fun answer => ih answer (h.2 answer)⟩
  | evaluate changed t next ih => exact fun answer => ih answer (h answer)

theorem Every.outcome (h : w.Every step) : w.outcome.Every step := by
  induction w with
  | done x => trivial
  | call act next ih => exact ⟨h.1, fun answer => ih answer (h.2 answer)⟩
  | evaluate changed t next ih => exact fun answer => ih answer (h answer)

theorem Every.result (h : w.Every step) : w.result.Every step := by
  refine h.outcome.bind (fun x => ?_)
  rcases x with (e | m) | a <;> trivial

theorem Every.ignoring {w : Routine Unit} (h : w.Every step) : w.ignoring.Every step :=
  h.result.bind (fun _ => trivial)

theorem every_once {act : Action α} (h : ∀ q, step q (act q).2) : (once act).Every step :=
  ⟨h, fun _ => trivial⟩

theorem every_ofExcept (x : Except PipelineError α) : (ofExcept x).Every step := by
  cases x <;> trivial

theorem every_mapM {f : α → Routine β} (l : List α) (h : ∀ a, (f a).Every step) :
    (l.mapM f).Every step := by
  induction l with
  | nil => trivial
  | cons a l ih =>
    rw [List.mapM_cons]
    exact (h a).bind (fun _ => ih.bind (fun _ => trivial))

theorem every_forM {f : α → Routine Unit} (l : List α) (h : ∀ a, (f a).Every step) :
    (l.forM f).Every step := by
  induction l with
  | nil => trivial
  | cons a l ih => exact (h a).bind (fun _ => ih)

/-- What every call does is what the routine obeys, and what goes on to hold meanwhile holds when it
is done. -/
theorem Every.obeys {rely : Pipeline → Pipeline → Prop} [Pipeline.Rely rely] {holds : Pipeline → Prop}
    {p : Pipeline} (hrely : ∀ p q, step p q → rely p q)
    (hholds : ∀ p q, rely p q → holds p → holds q) (h : w.Every step) (hp : holds p) :
    w.Obeys rely step (fun _ q => holds q) p := by
  induction w generalizing p with
  | done x =>
    cases x with
    | ok a => exact hp
    | error fault => trivial
  | call act next ih =>
    intro q hq
    have hcall : holds (act q).2 := hholds _ _ (hrely _ _ (h.1 q)) (hholds _ _ hq hp)
    exact ⟨h.1 q, ih _ (h.2 _) hcall⟩
  | evaluate changed t next ih => exact fun q answer hq => ih answer (h answer) (hholds _ _ hq hp)

end Every

end Routine

namespace Pipeline

/-- The changes that workers and callers make, one at a time, to anything but the store and the
attempts. -/
class Tends (step : Pipeline → Pipeline → Prop) : Prop where
  still : ∀ {p q}, q.still = p.still → step p q
  enqueue : ∀ p r, step p { p with queue := p.queue.enqueue r }
  saveJob : ∀ p j, step p { p with archive := p.archive.saveJob j }
  saveEvidence : ∀ p id e, step p { p with archive := p.archive.saveEvidence id e }
  settle : ∀ p id status, step p (p.settle id status)

/-- The changes that workers and callers make, one at a time, to anything but the attempts. -/
class Allows (step : Pipeline → Pipeline → Prop) : Prop extends Tends step where
  observe : ∀ {p o done}, p.observed o = .ok done → step p { p with store := done.1 }

/-- The changes that workers and callers make, one at a time, to anything but the store, the
attempts and what is kept of scans. -/
class Common (step : Pipeline → Pipeline → Prop) : Prop where
  still : ∀ {p q}, q.still = p.still → step p q
  enqueue : ∀ p r, step p { p with queue := p.queue.enqueue r }
  saveJob : ∀ p {j : Job}, j.kind ≠ .scan → step p { p with archive := p.archive.saveJob j }
  settle : ∀ p id status, step p (p.settle id status)

/-- The changes that workers and callers make, one at a time, to anything but the attempts and what
is kept of scans. -/
class Writes (step : Pipeline → Pipeline → Prop) : Prop extends Common step where
  observe : ∀ {p o done}, p.observed o = .ok done → step p { p with store := done.1 }

/-- The changes that the worker of a scan makes to what is kept of it. -/
structure Archives (step : Pipeline → Pipeline → Prop) (id : Uuid) : Prop where
  scan : ∀ p (j : ScanJob), j.id = id →
    step p { p with archive := p.archive.saveJob (.scan j) }
  evidence : ∀ p e, step p { p with archive := p.archive.saveEvidence id e }

section Classes

variable {step : Pipeline → Pipeline → Prop}

instance [Tends step] : Common step where
  still := Tends.still
  enqueue := Tends.enqueue
  saveJob p j _ := Tends.saveJob p j
  settle := Tends.settle

instance [Allows step] : Writes step where
  observe := Allows.observe

theorem archives_of_tends [Tends step] (id : Uuid) : Archives step id where
  scan p j _ := Tends.saveJob p (.scan j)
  evidence p e := Tends.saveEvidence p id e

end Classes

/-- Whatever a call does, it is time that passes. -/
instance : Allows Later where
  still h := by
    simp only [Pipeline.still, Prod.mk.injEq] at h
    obtain ⟨-, hpolicy, -, hstore, -⟩ := h
    exact ⟨hpolicy, hstore ▸ .refl⟩
  enqueue _ _ := ⟨rfl, .refl⟩
  observe h := ⟨rfl, .single (.observe (observe_store_of_observed h))⟩
  saveJob _ _ := ⟨rfl, .refl⟩
  saveEvidence _ _ _ := ⟨rfl, .refl⟩
  settle p id status := rely_settle p id status

end Pipeline

namespace Worker

open Routine Pipeline

section Common

variable {step : Pipeline → Pipeline → Prop} [Common step]

/-! ## Single calls -/

theorem every_still {α : Type} {act : Action α} (h : Action.Keeps still act) :
    (once act).Every step :=
  every_once (fun q => Common.still (h q))

theorem step_save {change : Archive → Archive} {p : Pipeline}
    (h : step p { p with archive := change p.archive }) : step p (save change p).2 := by
  show step p ((if p.outages.archiveOffline then Action.refuse (.internal "artifacts offline")
    else set { p with archive := change p.archive } : Action Unit) p).2
  split
  · exact Common.still rfl
  · exact h

theorem step_enqueue (r : Request) (p : Pipeline) : step p (enqueue r p).2 := by
  by_cases hclosed : p.outages.queueClosed = true
  · rw [enqueue_of_closed r hclosed]
    exact Common.still rfl
  · rw [enqueue_of_not_closed r hclosed]
    exact Common.enqueue p r

theorem every_saveJob_of_ne (j : Job) (h : j.kind ≠ .scan) :
    (once (save (fun a => a.saveJob j))).Every step :=
  every_once (fun p => step_save (Common.saveJob p h))

omit [Common step] in
theorem every_saveJob [Tends step] (j : Job) : (once (save (fun a => a.saveJob j))).Every step :=
  every_once (fun p => step_save (Tends.saveJob p j))

/-! ## Follow-up jobs -/

theorem every_enqueueAll (rs : List Request) : (enqueueAll rs).Every step := by
  induction rs with
  | nil => trivial
  | cons r rs ih => exact (every_once (step_enqueue r)).bind (fun _ => ih.bind (fun _ => trivial))

theorem every_enqueueAnnounced (rs : List Request) : (enqueueAnnounced rs).Every step := by
  refine (every_enqueueAll rs).bind (fun _ => ?_)
  exact every_forM rs (fun r => every_still (steady_still.publish _ _))

theorem every_scansAfter (correlation : Option Uuid) (c : Commit) :
    (scansAfter correlation c).Every step := by
  refine (every_still (keeps_lookUp _ _)).result.bind (fun found => ?_)
  split
  · exact every_still (steady_still.scansOf _ _)
  · trivial

theorem every_automaticScans (commits : List Commit) (correlation : Option Uuid) :
    (automaticScans commits correlation).Every step := by
  refine (every_still Action.Keeps.get).bind (fun p => ?_)
  split
  · exact (every_mapM commits (every_scansAfter correlation)).bind (fun _ => trivial)
  · trivial

theorem every_followUps (parent : Option (DeriveJob × Visit)) (correlation : Option Uuid)
    (commits : List Commit) : (followUps parent correlation commits).Every step := by
  refine (every_automaticScans commits correlation).bind (fun _ => ?_)
  have hmade : Action.Keeps still (commits.mapM (deriveRequest parent correlation)) :=
    Action.Keeps.mapM commits (fun c _ => steady_still.deriveRequest parent correlation c)
  exact (every_still hmade).bind (fun _ => trivial)

theorem every_announceCommits (r : Request) (parent : Option (DeriveJob × Visit))
    (commits : List Commit) : (announceCommits r parent commits).Every step := by
  unfold announceCommits
  split
  · trivial
  · refine (every_still (steady_still.publish _ _)).bind (fun _ => ?_)
    exact (every_followUps parent r.correlation commits).bind every_enqueueAnnounced

/-! ## Scans -/

theorem every_saveScan_of_archives {id : Uuid} (h : Archives step id) {j : ScanJob}
    (hj : j.id = id) (e : Evidence) : (saveScan j e).Every step := by
  refine (every_once (fun p => step_save (h.scan p j hj))).bind (fun _ => ?_)
  exact every_once (fun p => step_save (hj ▸ h.evidence p e))

theorem every_dispatchScan_of_archives (r : Request) {j : ScanJob} (h : Archives step j.id) :
    (dispatchScan r j).Every step := by
  refine (every_still steady_still.now).bind (fun started => ?_)
  refine (every_still steady_still.now).bind (fun ended => ?_)
  refine (every_still Action.Keeps.get).bind (fun p => ?_)
  have hid := (j.tells_run p.backend p.policy.scanning.timeoutSeconds started ended).1
  generalize j.run p.backend p.policy.scanning.timeoutSeconds started ended = ran at hid
  rcases ran with ⟨j', e | evidence⟩
  · exact (every_saveScan_of_archives h hid _).ignoring.bind (fun _ => every_ofExcept (.error e))
  · refine (every_saveScan_of_archives h hid evidence).bind (fun _ => ?_)
    have hmade : Action.Keeps still ((p.registry.normalizersFor evidence.tags j'.scanner.id).mapM
        (normalizeRequest j' r.correlation)) :=
      Action.Keeps.mapM _ (fun n _ => steady_still.normalizeRequest j' r.correlation n)
    exact (every_still hmade).bind every_enqueueAnnounced

omit [Common step] in
theorem every_dispatchScan [Tends step] (r : Request) (j : ScanJob) :
    (dispatchScan r j).Every step :=
  every_dispatchScan_of_archives r (archives_of_tends j.id)

/-! ## Normalizers -/

theorem every_normalizeInputs (j : NormalizeJob) : (normalizeInputs j).Every step := by
  refine (every_still (keeps_evidenceOf j)).bind (fun evidence => ?_)
  refine (every_still (steady_still.normalizeTime j)).bind (fun t => ?_)
  refine (every_still (keeps_lookUp _ t)).bind (fun found => ?_)
  cases found <;> trivial

/-! ## Asking for scans -/

theorem every_submitScan (scanner : String) (input : Reference) :
    (submitScan scanner input).Every step := by
  refine (every_still steady_still.freshId).bind (fun correlation => ?_)
  refine (every_still Action.Keeps.get).bind (fun p => ?_)
  split
  · trivial
  · refine (every_still steady_still.now).bind (fun t => ?_)
    refine (every_still (keeps_lookUp _ _)).bind (fun found => ?_)
    split
    · trivial
    · split
      · trivial
      · split
        · trivial
        · refine (every_still (steady_still.scanRequest _ _ _)).bind (fun r => ?_)
          exact (every_enqueueAnnounced [r]).bind (fun _ => trivial)

end Common

section Writes

variable {step : Pipeline → Pipeline → Prop} [Writes step]

/-! ## Observations -/

theorem step_observe (o : Observation) (p : Pipeline) : step p (observe o p).2 := by
  cases hobserved : p.observed o with
  | ok done =>
    rw [observe_of_ok hobserved]
    exact Writes.observe hobserved
  | error fault =>
    rw [observe_of_error hobserved]
    exact Common.still rfl

theorem every_commitNormalized (r : Request) (j : NormalizeJob) (input : Snapshot)
    (objects : List Snapshot) (t : Instant) : (commitNormalized r j input objects t).Every step :=
  (every_once (step_observe _)).bind (every_announceCommits r none)

theorem every_normalize (r : Request) (j : NormalizeJob) : (normalize r j).Every step := by
  refine (every_normalizeInputs j).result.bind (fun inputs => ?_)
  rcases inputs with e | ⟨evidence, t, input⟩
  · trivial
  · refine (every_still steady_still.now).bind (fun started => ?_)
    refine (every_still steady_still.now).bind (fun ended => ?_)
    refine (every_still Action.Keeps.get).bind (fun p => ?_)
    rcases j.run p.registry evidence.octets started ended with ⟨j, e | objects⟩
    · trivial
    · exact (every_commitNormalized r j input objects t).result.bind (fun _ => trivial)

theorem every_dispatchNormalize (r : Request) (j : NormalizeJob) :
    (dispatchNormalize r j).Every step := by
  refine (every_normalize r j).bind (fun ran => ?_)
  refine (every_still steady_still.now).bind (fun ended => ?_)
  exact (every_saveJob_of_ne (.normalize _) nofun).ignoring.bind (fun _ => every_ofExcept _)

/-! ## Derivations -/

theorem every_commitDerived (r : Request) (j : DeriveJob) (rule : String) (root : Snapshot)
    (objects : List Snapshot) : (commitDerived r j rule root objects).Every step := by
  refine (every_once (step_observe _)).bind (fun commits => ?_)
  refine (every_still Action.Keeps.get).bind (fun p => ?_)
  split
  · trivial
  · exact every_announceCommits r _ commits

theorem every_settleOutcome (r : Request) (j : DeriveJob) (o : RuleOutcome) :
    (settleOutcome r j o).Every step := by
  unfold settleOutcome
  split
  · split
    · trivial
    · refine (every_commitDerived r j o.rule o.root _).result.bind (fun found => ?_)
      cases found <;> trivial
  · trivial

section Attempts

variable (hattempt : ∀ (p : Pipeline) (a : Attempt),
  step p { p with archive := p.archive.saveAttempt a })

include hattempt

theorem every_recordOutcome (r : Request) (j : DeriveJob) (o : RuleOutcome) :
    (recordOutcome r j o).Every step := by
  refine (every_settleOutcome r j o).bind (fun settled => ?_)
  refine (every_still steady_still.freshId).bind (fun id => ?_)
  refine (every_still steady_still.now).bind (fun t => ?_)
  refine (every_once (fun p => step_save (hattempt p _))).ignoring.bind (fun _ => ?_)
  exact every_still (steady_still.publish _ _)

theorem every_dispatchDerive (r : Request) (j : DeriveJob) : (dispatchDerive r j).Every step := by
  refine (every_still steady_still.now).bind (fun started => ?_)
  have hderive : ∀ j, (deriveAll r j).Every step := by
    intro j
    have hevaluate : (outcomes j.commit.reference j.commit.validTime).Every step :=
      fun _ => trivial
    exact hevaluate.bind (fun found => every_forM found (every_recordOutcome hattempt r j))
  refine (hderive _).result.bind (fun outcome => ?_)
  refine (every_still steady_still.now).bind (fun ended => ?_)
  exact (every_saveJob_of_ne (.derive _) nofun).ignoring.bind (fun _ => every_ofExcept _)

/-! ## Jobs -/

theorem every_dispatch_of_archives {r : Request} (h : ∀ j, r.job = .scan j → Archives step j.id) :
    (dispatch r).Every step := by
  have hhandle : (handle r).Every step := by
    unfold handle
    split
    · rename_i j hj
      exact every_dispatchScan_of_archives r (h j hj)
    · exact every_dispatchNormalize r _
    · exact every_dispatchDerive hattempt r _
  refine hhandle.result.bind (fun found => ?_)
  cases found <;> trivial

omit [Writes step] in
theorem every_dispatch [Allows step] (r : Request) : (dispatch r).Every step :=
  every_dispatch_of_archives hattempt (fun j _ => archives_of_tends j.id)

end Attempts

/-- A worker settles and announces its job besides dispatching it. -/
theorem every_runJob {r : Request} (hdispatch : (dispatch r).Every step) :
    (runJob r).Every step := by
  refine hdispatch.outcome.bind (fun found => ?_)
  refine (every_once (fun q => ?_)).bind (fun _ => ?_)
  · exact Common.settle q r.job.id (resultOf found)
  · exact every_still (steady_still.publish _ _)

/-! ## Submissions -/

theorem every_submitObservation (method : String) (source : Reference) (objects : List Snapshot)
    (t : Instant) : (submitObservation method source objects t).Every step := by
  refine (every_once (step_observe _)).bind (fun commits => ?_)
  refine (every_still steady_still.freshId).bind (fun correlation => ?_)
  exact (every_followUps none (some correlation) commits).bind every_enqueueAll

end Writes

end Worker

end ScanGraph
