/-
What stays in the archive.

Scanners and normalizers leave a job that is over, failed exactly if they come to
an error.  A scan that is over stays in the archive, and so does evidence,
whatever is saved besides, as long as every scan that is saved is over: `Grows`.

The two halves do not depend on each other.  That a job comes to an end with the right
status is read off its own run (`ScanJob.tells_run`, `NormalizeJob.tells_run`), whatever
plugin it is for and whatever that does, panics included.  That the archive grows is
said of each call that saves something (`grows_saveScan` and the lemmas after it), and
`Grows.trans` makes a statement about any number of them.

`Grows` asks for scans that are over, and does not follow from the calls alone: a caller
who saves a scan that is still running takes the place of one that was over.  That no
worker does so is shown where their routines are looked at.  Normalize jobs, derive jobs
and attempts may be saved in any state, as nothing that comes later depends on them.
-/
import ScanGraph.Archive
import ScanGraph.Normalizing
import ScanGraph.Scanning

namespace ScanGraph

/-! ## Jobs that are over -/

/-- The job is over, and it is said since when. -/
def Lifecycle.IsOver (l : Lifecycle) : Prop :=
  l.status.isTerminal = true ∧ l.endedAt.isSome = true

/-- The job is over, and it has failed exactly if it came to an error. -/
structure Lifecycle.Tells {α : Type} (l : Lifecycle) (x : Except PipelineError α) : Prop where
  isOver : l.IsOver
  failed : l.status = .failed ↔ ∃ e, x = .error e

namespace Lifecycle

section Tells

variable {α β : Type} {l : Lifecycle}

theorem Tells.ok {a : α} (h : l.Tells (.ok a)) (b : β) : l.Tells (.ok b) where
  isOver := h.isOver
  failed := by
    refine h.failed.trans ⟨?_, ?_⟩ <;> rintro ⟨_, ⟨⟩⟩

theorem Tells.failed_iff {x : Except PipelineError α} (h : l.Tells x) :
    l.status = .failed ↔ x.isOk = false := by
  rw [h.failed]
  cases x with
  | ok a =>
    constructor
    · rintro ⟨_, ⟨⟩⟩
    · rintro ⟨⟩
  | error e => exact ⟨fun _ => rfl, fun _ => ⟨e, rfl⟩⟩

end Tells

section Ending

variable {α : Type} (l : Lifecycle) (t : Instant)

theorem tells_complete (a : α) : (l.complete t).Tells (.ok a) where
  isOver := ⟨rfl, rfl⟩
  failed := by
    constructor
    · intro h
      cases h
    · rintro ⟨_, ⟨⟩⟩

theorem tells_completeWith (message : String) (a : α) :
    (l.completeWith message t).Tells (.ok a) :=
  tells_complete _ t a

theorem tells_fail (message : String) (e : PipelineError) :
    (l.fail message t).Tells (.error e : Except PipelineError α) where
  isOver := ⟨rfl, rfl⟩
  failed := ⟨fun _ => ⟨e, rfl⟩, fun _ => rfl⟩

end Ending

end Lifecycle

theorem ScanJob.tells_run (j : ScanJob) (backend : ScannerBody) (seconds : Nat)
    (started ended : Instant) :
    (j.run backend seconds started ended).1.id = j.id ∧
      (j.run backend seconds started ended).1.life.Tells
        (j.run backend seconds started ended).2 := by
  unfold run
  dsimp only
  split
  · exact ⟨rfl, Lifecycle.tells_fail _ _ _ _⟩
  · unfold conclude
    split
    · exact ⟨rfl, Lifecycle.tells_complete _ _ _⟩
    · exact ⟨rfl, Lifecycle.tells_completeWith _ _ _ _⟩
    · exact ⟨rfl, Lifecycle.tells_fail _ _ _ _⟩

theorem NormalizeJob.tells_run (j : NormalizeJob) (r : Registry) (evidence : List UInt8)
    (started ended : Instant) :
    (j.run r evidence started ended).1.id = j.id ∧
      (j.run r evidence started ended).1.life.Tells (j.run r evidence started ended).2 := by
  unfold run
  dsimp only
  split
  · exact ⟨rfl, Lifecycle.tells_fail _ _ _ _⟩
  · split
    · exact ⟨rfl, Lifecycle.tells_fail _ _ _ _⟩
    · unfold conclude
      split
      · exact ⟨rfl, Lifecycle.tells_complete _ _ _⟩
      · exact ⟨rfl, Lifecycle.tells_completeWith _ _ _ _⟩
      · exact ⟨rfl, Lifecycle.tells_fail _ _ _ _⟩
      · exact ⟨rfl, Lifecycle.tells_fail _ _ _ _⟩

/-! ## What is kept -/

namespace Archive

/-- The scan is kept under its id and is over. -/
def HasScan (a : Archive) (id : Uuid) : Prop :=
  ∃ s, a.scans.get? id = some s ∧ s.id = id ∧ s.life.IsOver

def HasEvidence (a : Archive) (id : Uuid) : Prop :=
  ∃ e, a.evidence.get? id = some e

/-- Scans that were over are kept as scans that are over, and evidence is kept. -/
structure Grows (a b : Archive) : Prop where
  scans : ∀ id, a.HasScan id → b.HasScan id
  evidence : ∀ id, a.HasEvidence id → b.HasEvidence id

section Grows

variable {a b c : Archive}

theorem Grows.refl (a : Archive) : a.Grows a :=
  ⟨fun _ h => h, fun _ h => h⟩

theorem Grows.trans (h : a.Grows b) (h' : b.Grows c) : a.Grows c :=
  ⟨fun id hid => h'.scans id (h.scans id hid), fun id hid => h'.evidence id (h.evidence id hid)⟩

theorem hasScan_saveJob (a : Archive) {j : ScanJob} (h : j.life.IsOver) :
    (a.saveJob (.scan j)).HasScan j.id :=
  ⟨j, Table.get?_insert_self _ _ _, rfl, h⟩

theorem hasEvidence_saveEvidence (a : Archive) (id : Uuid) (e : Evidence) :
    (a.saveEvidence id e).HasEvidence id :=
  ⟨e, Table.get?_insert_self _ _ _⟩

theorem grows_saveScan (a : Archive) {j : ScanJob} (h : j.life.IsOver) :
    a.Grows (a.saveJob (.scan j)) where
  scans id hid := by
    by_cases hsame : id = j.id
    · exact hsame ▸ hasScan_saveJob a h
    · obtain ⟨s, hs, hover⟩ := hid
      exact ⟨s, (Table.get?_insert_of_ne _ _ hsame).trans hs, hover⟩
  evidence _ hid := hid

theorem grows_saveNormalize (a : Archive) (j : NormalizeJob) : a.Grows (a.saveJob (.normalize j)) :=
  ⟨fun _ h => h, fun _ h => h⟩

theorem grows_saveDerive (a : Archive) (j : DeriveJob) : a.Grows (a.saveJob (.derive j)) :=
  ⟨fun _ h => h, fun _ h => h⟩

theorem grows_saveEvidence (a : Archive) (scan : Uuid) (e : Evidence) :
    a.Grows (a.saveEvidence scan e) where
  scans _ hid := hid
  evidence id hid := by
    by_cases hsame : id = scan
    · exact hsame ▸ hasEvidence_saveEvidence a scan e
    · obtain ⟨e', he'⟩ := hid
      exact ⟨e', (Table.get?_insert_of_ne _ _ hsame).trans he'⟩

theorem grows_saveAttempt (a : Archive) (attempt : Attempt) : a.Grows (a.saveAttempt attempt) :=
  ⟨fun _ h => h, fun _ h => h⟩

end Grows

end Archive

end ScanGraph
