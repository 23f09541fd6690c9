/-
Clearance over the graph of relations.

A reference-valued field gives up to two directed edges: the holder issues
clearance to the target, and the target passes clearance back to the holder,
each up to its bound; without a bound there is no edge.  `propagate` assigns
levels from the highest down, so that every node ends up with the highest level
that reaches it, and nodes given a level at the start keep that level.

A graph is a list of edges, in the order of the objects and of their fields; the order
has no bearing on what is propagated, which is proved with the graph's main theorem.
Levels are handed on down to the lowest but one, as the lowest is what a node without a
level has.

`imply` gives objects the profiles that their source implies for them.  It looks only at
the source and at the objects themselves, and leaves an object with the reference of the
source as it was emitted.
-/
import ScanGraph.Snapshot

namespace ScanGraph

/-- An edge along which clearance flows up to a bound. -/
structure Edge where
  source : Reference
  target : Reference
  bound : Level
deriving DecidableEq, Repr

/-- The edges along which clearance flows, in the order in which they were added. -/
structure ClearanceGraph where
  edges : List Edge
deriving DecidableEq, Repr

namespace ClearanceGraph

/-- The edges that a field of `holder` pointing at `target` contributes. -/
def edgesOf (holder target : Reference) (r : Relation) : List Edge :=
  (match r.issueBound with
    | some b => [⟨holder, target, b⟩]
    | none => [])
  ++ (match r.inheritBound with
    | some b => [⟨target, holder, b⟩]
    | none => [])

def entityEdges (e : Entity) : List Edge :=
  e.relations.flatMap (fun (name, target) =>
    match Relation.find? e.type name with
    | some r => edgesOf e.reference target r
    | none => [])

def ofEntities (es : List Entity) : ClearanceGraph :=
  ⟨es.flatMap entityEdges⟩

/-- Where clearance flows from a reference, and up to which bound. -/
def neighbours (g : ClearanceGraph) (r : Reference) : List (Reference × Level) :=
  (g.edges.filter (fun e => decide (e.source = r))).map (fun e => (e.target, e.bound))

abbrev Levels := Table Reference Level

/-- One edge at level `l`: its target gets the level if it has none and the source reaches it. -/
def cross (l : Level) (assigned : Levels) (e : Edge) : Levels :=
  match assigned.get? e.source with
  | some m =>
      if l ≤ m ∧ l ≤ e.bound ∧ (assigned.get? e.target).isNone then assigned.insert e.target l
      else assigned
  | none => assigned

/-- Every edge once at level `l`. -/
def sweep (g : ClearanceGraph) (l : Level) (assigned : Levels) : Levels :=
  g.edges.foldl (cross l) assigned

/-- Sweeps at level `l` until nothing is added, at most the given number. -/
def saturate (g : ClearanceGraph) (l : Level) : Nat → Levels → Levels
  | 0, assigned => assigned
  | rounds + 1, assigned =>
      let next := g.sweep l assigned
      if next.size = assigned.size then assigned else g.saturate l rounds next

/-- The levels from the highest down to the lowest that is a clearance at all. -/
def propagationLevels : List Level :=
  [.l4, .l3, .l2, .l1]

/-- The levels reachable from `seeds`, which keep their own; every sweep but the last adds a
target of an edge, so there are at most as many as edges. -/
def propagate (g : ClearanceGraph) (seeds : Levels) : Levels :=
  propagationLevels.foldl (fun assigned l => g.saturate l g.edges.length assigned) seeds

/-- The profile that an assignment of levels implies for a reference. -/
def implied (assigned : Levels) (r : Reference) : Profile :=
  match assigned.get? r with
  | some l => if Level.l0 < l then .inherited r l else .empty r
  | none => .empty r

end ClearanceGraph

/-- The objects with the profiles implied by `source`, from which they were found. -/
def Snapshot.imply (source : Snapshot) (objects : List Snapshot) : List Snapshot :=
  let graph := ClearanceGraph.ofEntities (source.entity :: objects.map Snapshot.entity)
  let assigned := graph.propagate (Table.empty.insert source.reference source.level)
  objects.map (fun s =>
    if s.reference = source.reference then s
    else { s with profile := some (ClearanceGraph.implied assigned s.reference) })

end ScanGraph
