/-
Summaries of the vocabulary: relations, references and paths as they are shown.

A summary is JSON for a reader: beside the text of a value it spells out what
the text stands for.

Summaries are what scenarios answer with.  They are functions of the values and of the
schema, and nothing is decided by them.
-/
import ScanGraph.Entity.Codec
import ScanGraph.Path

namespace ScanGraph

open Json

def ObjectType.names (l : List ObjectType) : Json :=
  list ObjectType.toJson l

def Level.orNull (l : Option Level) : Json :=
  Json.orNull Level.toJson l

/-- A relation with its bounds. -/
def Relation.summary (r : Relation) : Json :=
  .obj [("source", r.source.toJson), ("name", .str r.name), ("target", r.target.toJson),
    ("issue", Level.orNull r.issueBound), ("inherit", Level.orNull r.inheritBound),
    ("firewall", Level.orNull r.firewallBound)]

def Relation.fieldName (r : Relation) : String :=
  r.source.name ++ "." ++ r.name

/-- A type, its place in the hierarchy, and the relations that point at it. -/
def ObjectType.summary (t : ObjectType) : Json :=
  .obj [("name", .str t.name), ("parent", Json.orNull ObjectType.toJson t.parent),
    ("ancestors", names t.ancestors), ("abstract", .bool t.isAbstract),
    ("concrete", names t.concreteSubtypes), ("is_a", names (ObjectType.all.filter t.isA)),
    ("overlaps", names (ObjectType.all.filter t.overlaps)),
    ("incoming", list (fun r => .str r.fieldName) (Relation.pointingAt t))]

def Reference.summary (r : Reference) : Json :=
  .obj [("display", .str r.text), ("type", r.type.toJson), ("key", .str r.naturalKey),
    ("tokens", list .str r.tokens)]

def Direction.name : Direction → String
  | outgoing => "outgoing"
  | incoming => "incoming"

def Step.summary (s : Step) : Json :=
  .obj [("direction", .str s.direction.name), ("display", .str s.text),
    ("field", .str s.relation.fieldName), ("from", s.near.toJson), ("to", s.far.toJson),
    ("issuance", Level.orNull s.issuanceBound)]

/-- A path, its steps and its bounds. -/
def Path.summary (p : Path) : Json :=
  .obj [("display", .str p.text), ("root", p.root.toJson), ("end", p.endType.toJson),
    ("segments", list Step.summary p.steps), ("firewall", Level.orNull p.firewallBound),
    ("issuance", Level.orNull p.issuanceBound)]

end ScanGraph
