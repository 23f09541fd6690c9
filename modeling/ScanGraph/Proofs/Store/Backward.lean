/-
Walks back to the root.

A path that was read leads from a root to objects, and the reversed path leads
from each of these back to the root: `mem_follow_reversed`.  What it takes is
that the fields of the visible objects point at what the schema says; the types
that the reversed steps ask for are then those of the objects walked through.

## What is asked

The store is reachable, and the fields of all objects visible at the time point at what
the schema says.  The path was parsed, and the root is of the type at which it starts.
Each of these is used: a field that points at an object of some other type leads to what
no step back asks for, and the steps of a path that was not parsed need not follow one
another.

## What is proved and what is not

Every object found along the path finds the root along the reversed path, with no filter
on the type.  With a filter it is found exactly if it passes.  The converse, that what
is found backwards also leads forwards, is the same statement about the reversed path
only where that one can be parsed, which it need not be.
-/
import ScanGraph.Proofs.Store.Walk

namespace ScanGraph

namespace Store

theorem follow_eq_ok_iff {s : Store} {r : Reference} {path : Path} {type : ObjectType}
    {t : Instant} {found : List Snapshot} :
    s.follow r path type t = .ok found ↔ s.offline = false ∧ s.walk r path type t = found := by
  unfold follow
  rw [guarded_eq_ok_iff, Except.ok.injEq]

theorem get_eq_ok_iff {s : Store} {r : Reference} {t : Instant} {found : Option Snapshot} :
    s.get r t = .ok found ↔ s.offline = false ∧ s.read? r t = found := by
  unfold get
  rw [guarded_eq_ok_iff, Except.ok.injEq]

/-- Every object found along a path from a root finds the root along the reversed path. -/
theorem mem_follow_reversed {s : Store} {t : Instant} {text : String} {path : Path}
    {r : Reference} {root o : Snapshot} {found : List Snapshot} (hs : s.Reachable)
    (htyped : s.Typed t) (hparse : Path.parse text = .ok path)
    (hroot : s.get r t = .ok (some root)) (htype : root.type.isA path.root = true)
    (hfound : s.follow r path .object t = .ok found) (ho : o ∈ found) :
    ∃ back, s.follow o.reference path.reversed .object t = .ok back ∧ root ∈ back := by
  obtain ⟨honline, hread⟩ := get_eq_ok_iff.1 hroot
  obtain ⟨-, rfl⟩ := follow_eq_ok_iff.1 hfound
  obtain ⟨e, he, rfl⟩ := Option.map_eq_some_iff.1 hread
  refine ⟨s.walk o.reference path.reversed .object t, follow_eq_ok_iff.2 ⟨honline, rfl⟩, ?_⟩
  exact mem_walk_reversed hs.wellFormed htyped (Path.leads_of_parse hparse) he htype
    (ObjectType.isA_object e.type) ho

/-! ## Names of the addresses of a network -/

namespace Names

/-- A network, an address in it, a host, and that the host resolves to the address. -/
def entities : List Entity :=
  let network : Entity := .network "internet"
  let address : Entity := .ipv4 network.reference ⟨127, 0, 0, 1⟩
  let host : Entity := .hostname network.reference "localhost"
  [network, address, host, .resolvedHostname host.reference address.reference]

def store : Store :=
  holding entities default

/-- From a network to the names of its addresses: through a field that the type of the holder
inherits, through one that may point at other types as well, and along a field. -/
def text : String :=
  "Network.<network[is IPAddressV4].<address[is ResolvedHostname].hostname"

def path : Path :=
  (Path.parse text).toOption.getD (.identity .object)

/-- The network as read from the store. -/
def network : Snapshot :=
  store.snapshot default (.ofTokens .network ["internet"]) (.network "internet")

def host : Snapshot :=
  store.snapshot default (.ofTokens .hostname ["internet", "localhost"])
    (.hostname (.ofTokens .network ["internet"]) "localhost")

theorem parse_text : Path.parse text = .ok path := by
  have hsome : (Path.parse text).toOption.isSome = true := by decide +kernel
  unfold path
  cases hparse : Path.parse text with
  | ok p => rfl
  | error e => rw [hparse] at hsome; cases hsome

theorem mem_follow_reversed_network : host ∈ store.walk network.reference path .object default ∧
    ∃ back, store.follow host.reference path.reversed .object default = .ok back ∧
      network ∈ back := by
  have honline : store.offline = false := online_holding entities default
  have hhost : host ∈ store.walk network.reference path .object default := by decide +kernel
  have hread : store.read? network.reference default = some network := by decide +kernel
  exact ⟨hhost, mem_follow_reversed (reachable_holding entities default) (by decide +kernel)
    parse_text (get_eq_ok_iff.2 ⟨honline, hread⟩) (by decide +kernel)
    (follow_eq_ok_iff.2 ⟨honline, rfl⟩) hhost⟩

end Names

end Store

end ScanGraph
