/-
Fingerprints, and the cache of what rules derived.

An evaluation is fixed by the rule, its root, the objects of its context and
its settings; clearance and times do not count, and the objects found for a
parameter count as a set.  `canonical` writes all of it as one JSON value, and
the fingerprint is the digest of that text.

Entries of the cache are kept per rule and fingerprint, and stamped with the time
at which they were made.  Reading an entry first drops every entry of its rule
that has reached the given age, so entries of rules that nobody asks for stay.
Times are nanoseconds and never go back.

Two things are simpler here than in a running program.  The counts are natural
numbers, where counters of 64 bits would begin anew after 2 ^ 64 calls.  And one
reading of the clock stands for the ages of all entries of a rule, where each age
would be taken on its own, one just after the other.
-/
import ScanGraph.Plugin.Body
import ScanGraph.Json.Printer
import ScanGraph.Sha256
import ScanGraph.Snapshot
import ScanGraph.Table

namespace ScanGraph

/-! ## Fingerprints -/

namespace Fingerprint

def slotTexts (s : Slot) : SortedSet String :=
  .ofList (s.objects.map (fun o => o.entity.toJson.render))

def slotJson (s : Slot) : Json :=
  .arr [.str s.parameter, (slotTexts s).texts]

/-- All that fixes an evaluation, as JSON. -/
def canonical (rule : String) (root : Snapshot) (context : RuleContext)
    (settings : RuleSettings) : Json :=
  .obj [("rule", .str rule), ("root", root.entity.toJson.sorted),
    ("context", .list slotJson context),
    ("config", .obj (settings.map (fun _ v => Json.str v)).entries)]

/-- The octets that fix an evaluation. -/
def octets (rule : String) (root : Snapshot) (context : RuleContext)
    (settings : RuleSettings) : List UInt8 :=
  Text.octets (canonical rule root context settings).render

end Fingerprint

def fingerprint (rule : String) (root : Snapshot) (context : RuleContext)
    (settings : RuleSettings) : String :=
  Text.hex (Sha256.digest (Fingerprint.octets rule root context settings))

/-! ## The cache -/

/-- What a rule derived, and when. -/
structure CacheEntry where
  output : List Snapshot
  madeAt : Nat
deriving DecidableEq, Repr

/-- The entries by rule and fingerprint, and counts of what was asked for, which never wrap. -/
structure Cache where
  groups : Table String (Table String CacheEntry)
  hits : Nat
  misses : Nat
  evictions : Nat
  /-- The evaluations for which there was no fingerprint. -/
  uncacheable : Nat
deriving DecidableEq, Repr

namespace Cache

/-- The cache without entries. -/
def empty : Cache :=
  ⟨.empty, 0, 0, 0, 0⟩

instance : Inhabited Cache :=
  ⟨empty⟩

/-- The entries of a rule. -/
def group (c : Cache) (rule : String) : Table String CacheEntry :=
  (c.groups.get? rule).getD .empty

/-- The number of entries. -/
def size (c : Cache) : Nat :=
  c.groups.values.foldl (fun n g => n + g.size) 0

/-- The entries of a rule that are younger than `ttl`. -/
def young (now ttl : Nat) (g : Table String CacheEntry) : Table String CacheEntry :=
  g.filter (fun _ e => decide (now - e.madeAt < ttl))

/-- The cache after dropping the entries of a rule that have reached the age `ttl`. -/
def sweep (c : Cache) (rule : String) (now ttl : Nat) : Cache :=
  match c.groups.get? rule with
  | none => c
  | some g =>
      let kept := young now ttl g
      { c with
        groups := c.groups.insert rule kept
        evictions := c.evictions + (g.size - kept.size) }

/-- The output under a fingerprint, unless it has reached the age `ttl`. -/
def get (c : Cache) (rule key : String) (now ttl : Nat) : Cache × Option (List Snapshot) :=
  let c := c.sweep rule now ttl
  match (c.group rule).get? key with
  | some e => ({ c with hits := c.hits + 1 }, some e.output)
  | none => ({ c with misses := c.misses + 1 }, none)

/-- The cache with an output under a fingerprint. -/
def insert (c : Cache) (rule key : String) (now : Nat) (output : List Snapshot) : Cache :=
  { c with groups := c.groups.insert rule ((c.group rule).insert key ⟨output, now⟩) }

/-- The cache without the entries of a rule. -/
def invalidate (c : Cache) (rule : String) : Cache :=
  { c with groups := c.groups.erase rule }

/-- The cache without entries, its counts kept. -/
def clear (c : Cache) : Cache :=
  { c with groups := .empty }

/-- The cache after an evaluation for which there was no fingerprint. -/
def countUncacheable (c : Cache) : Cache :=
  { c with uncacheable := c.uncacheable + 1 }

end Cache

end ScanGraph
