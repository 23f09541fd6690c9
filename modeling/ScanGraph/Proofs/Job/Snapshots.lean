/-
What a scan job hands to its scanner.

A scan job carries the free form of its object as the store showed it: the entity,
the profile of its reference and the time.  All of these can be read back, for an
entity that was read itself, except for one thing.  The store makes the reference
of the profile from the key of the entity, whatever that is, while no text denotes
a reference with an empty key.  Main statement: `snapshot_ofSnapshot_iff`.

## What is proved

Whatever was read from JSON and put into a reachable store, if the store shows it at a
time of the calendar with the entity that was read, the job that is made of what is
shown carries exactly that, if and only if the natural key of the reference is not
empty.  Every scanner, every organisation and every id will do.

## What is not

Only a key of one token can be empty, which is the name of a network or the id of a type
of findings.  `unnamed_snapshot_refused` reads, stores and shows a network without a
name, and the job does not carry it.  An entity that was not read may fail for other
reasons, such as a field with a reference that no text denotes.
-/
import ScanGraph.Job
import ScanGraph.Proofs.Entity.Decoding
import ScanGraph.Proofs.Store.Backward

namespace ScanGraph

/-- The free form of a snapshot tells it exactly if its references can be read back. -/
theorem Snapshot.decoder_sorted_iff {s : Snapshot} (htime : ∀ t ∈ s.validTime, t.InCalendar) :
    decoder s.toJson.sorted = .ok s ↔
      s.entity.Readable ∧ ∀ p ∈ s.profile, p.reference.Parses := by
  constructor
  · exact readable_of_decoder
  · rintro ⟨hentity, hprofile⟩
    exact decoder_sorted ⟨hentity, hprofile, htime⟩

namespace Store

variable {s : Store} {r : Reference} {t : Instant} {found : Snapshot}

/-- What a store shows at a time is an entity under its own reference, with the profile of that
reference and the time. -/
theorem WellFormed.exists_of_read? (h : s.WellFormed) (hread : s.read? r t = some found) :
    ∃ e p, found = ⟨e, some p, some t⟩ ∧ e.reference = r ∧ p.reference = r := by
  obtain ⟨e, he, rfl⟩ := Option.map_eq_some_iff.1 hread
  refine ⟨e, s.profileOf r, rfl, h.reference_of_visible? he, ?_⟩
  unfold profileOf
  cases hp : s.profiles.get? r with
  | none => rfl
  | some p => exact h.profile_reference r p hp

end Store

namespace ScanJob

variable {s : Store} {t : Instant} {v : Json} {o found : Snapshot}

/-- A job for an object that was read and that the store shows at a time of the calendar carries that
object as the store shows it, exactly if the key of the object is not empty. -/
theorem snapshot_ofSnapshot_iff (hs : s.Reachable) (ht : t.InCalendar)
    (ho : Snapshot.decoder v = .ok o) (hget : s.get o.reference t = .ok (some found))
    (hentity : found.entity = o.entity) (id : Uuid) (scanner : PluginRef) (organization : String) :
    (ofSnapshot id scanner found organization).snapshot = .ok found ↔
      o.reference.naturalKey ≠ "" := by
  have hread : s.read? o.reference t = some found := (Store.get_eq_ok_iff.1 hget).2
  obtain ⟨e, p, rfl, he, hp⟩ := hs.wellFormed.exists_of_read? hread
  have hreadable : e.Readable := by
    rw [show e = o.entity from hentity]
    exact (Snapshot.readable_of_decoder ho).1
  have htime : ∀ t' ∈ (⟨e, some p, some t⟩ : Snapshot).validTime, t'.InCalendar := by
    rintro t' ⟨⟩
    exact ht
  show Snapshot.decoder (Snapshot.toJson ⟨e, some p, some t⟩).sorted = .ok _ ↔ _
  rw [Snapshot.decoder_sorted_iff htime, ← he, ← e.parses_reference_iff]
  constructor
  · rintro ⟨-, hprofile⟩
    have hparses : p.reference.Parses := hprofile p rfl
    rwa [hp, ← he] at hparses
  · intro hparses
    refine ⟨hreadable, ?_⟩
    rintro p' ⟨⟩
    rwa [hp, ← he]

/-! ## A network without a name -/

namespace Unnamed

/-- The time at which the networks are stored and read. -/
def time : Instant :=
  .ofSecond 100

/-- A network as it is read from JSON. -/
def given (name : String) : Snapshot :=
  .ofEntity (.network name)

def store (name : String) : Store :=
  .holding [.network name] time

/-- The network as the store shows it. -/
def shown (name : String) : Snapshot :=
  (store name).snapshot time (given name).reference (.network name)

def job (name : String) : ScanJob :=
  .ofSnapshot (.ofNat 0) ⟨"dns-records", none⟩ (shown name) "acme"

theorem decoder_given (name : String) : Snapshot.decoder (given name).toJson = .ok (given name) :=
  Snapshot.decoder_toJson ⟨⟨nofun, trivial⟩, nofun, nofun⟩

theorem snapshot_ofSnapshot_iff_internet :
    (store "internet").Reachable ∧ time.InCalendar ∧
      Snapshot.decoder (given "internet").toJson = .ok (given "internet") ∧
      (store "internet").get (given "internet").reference time = .ok (some (shown "internet")) ∧
      (job "internet").snapshot = .ok (shown "internet") := by
  have hs : (store "internet").Reachable := Store.reachable_holding _ _
  have ht : time.InCalendar := by decide
  have hget : (store "internet").get (given "internet").reference time
      = .ok (some (shown "internet")) :=
    Store.get_eq_ok_iff.2 ⟨by decide +kernel, by decide +kernel⟩
  refine ⟨hs, ht, decoder_given _, hget, ?_⟩
  exact (snapshot_ofSnapshot_iff hs ht (decoder_given _) hget rfl _ _ _).2 (by decide +kernel)

/-- The network without a name is read, stored and shown, and the job does not carry it. -/
theorem unnamed_snapshot_refused :
    Snapshot.decoder (given "").toJson = .ok (given "") ∧ (store "").Reachable ∧
      time.InCalendar ∧ (store "").get (given "").reference time = .ok (some (shown "")) ∧
      (job "").snapshot = .error (.naming (.noKey "Network|")) := by
  refine ⟨decoder_given _, Store.reachable_holding _ _, by decide,
    Store.get_eq_ok_iff.2 ⟨by decide +kernel, by decide +kernel⟩, by decide +kernel⟩

end Unnamed

end ScanJob

end ScanGraph
