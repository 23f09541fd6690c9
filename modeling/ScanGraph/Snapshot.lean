/-
Snapshots: an entity with its clearance and the time it was read at.

A profile says which level a reference has and how it came by it: declared by
hand, inherited over the graph, or none so far.

The level of an object is that of its profile, and the lowest if it has none.  A profile
is kept with its reference, which need not be that of the object beside it: a snapshot
that was read from elsewhere may have any, and the store goes by the profile's own.
-/
import ScanGraph.Entity
import ScanGraph.Instant

namespace ScanGraph

inductive ProfileKind where
  | empty
  | declared
  | inherited
deriving DecidableEq, Repr, Inhabited

def ProfileKind.name : ProfileKind → String
  | empty => "empty"
  | declared => "declared"
  | inherited => "inherited"

/-- The clearance of a reference. -/
structure Profile where
  reference : Reference
  level : Level
  kind : ProfileKind
deriving DecidableEq, Repr, Inhabited

namespace Profile

/-- No clearance. -/
def empty (r : Reference) : Profile :=
  ⟨r, .l0, .empty⟩

/-- Clearance declared by hand. -/
def declared (r : Reference) (level : Level) : Profile :=
  ⟨r, level, .declared⟩

/-- Clearance that comes from neighbours. -/
def inherited (r : Reference) (level : Level) : Profile :=
  ⟨r, level, .inherited⟩

def isDeclared (p : Profile) : Bool :=
  p.kind == .declared

end Profile

/-- An entity, its clearance if known, and the time it was read at. -/
structure Snapshot where
  entity : Entity
  profile : Option Profile
  validTime : Option Instant
deriving DecidableEq, Repr, Inhabited

namespace Snapshot

/-- An entity about which nothing else is known. -/
def ofEntity (e : Entity) : Snapshot :=
  ⟨e, none, none⟩

def type (s : Snapshot) : ObjectType :=
  s.entity.type

def reference (s : Snapshot) : Reference :=
  s.entity.reference

/-- The effective level: without a profile it is the lowest. -/
def level (s : Snapshot) : Level :=
  match s.profile with
  | some p => p.level
  | none => .l0

/-- The snapshot with a declared level. -/
def declare (s : Snapshot) (level : Level) : Snapshot :=
  { s with profile := some (.declared s.reference level) }

/-- The snapshot as read at `t`. -/
def readAt (s : Snapshot) (t : Instant) : Snapshot :=
  { s with validTime := some t }

/-- The snapshot with the level of its profile lowered to a bound. -/
def clampTo (s : Snapshot) (bound : Option Level) : Snapshot :=
  { s with profile := s.profile.map (fun p => { p with level := p.level.clampTo bound }) }

end Snapshot

end ScanGraph
