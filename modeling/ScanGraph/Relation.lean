/-
The schema of relations.

A relation is a reference-valued field of a type, with the type that it points
at and two bounds on clearance: what the holder may issue to the object it
points at, and what it may inherit from it.  An edge without a bound carries no
clearance and does not clamp what is read across it.

The table is a list, one line for each field, in the order in which they are looked for.
A field of an abstract type stands under that type, and `find?` finds it for every
subtype.  Statements about bounds go through the lines of this table, so that another
one asks for another look at them and at nothing else.
-/
import ScanGraph.ObjectType
import ScanGraph.Level

namespace ScanGraph

/-- A reference-valued field, declared on `source` and pointing at `target`. -/
structure Relation where
  source : ObjectType
  name : String
  target : ObjectType
  issueBound : Option Level
  inheritBound : Option Level
deriving DecidableEq, Repr, Inhabited

namespace Relation

def schema : List Relation :=
  [⟨.hostname, "network", .network, none, none⟩,
   ⟨.ipAddress, "network", .network, none, none⟩,
   ⟨.ipPort, "address", .ipAddress, some .l0, some .l4⟩,
   ⟨.dnsRecord, "hostname", .hostname, some .l0, some .l2⟩,
   ⟨.dnsA, "address", .ipv4, none, none⟩,
   ⟨.dnsAAAA, "address", .ipv6, none, none⟩,
   ⟨.dnsMX, "mail_hostname", .hostname, none, none⟩,
   ⟨.dnsNS, "name_server_hostname", .hostname, some .l1, some .l0⟩,
   ⟨.resolvedHostname, "hostname", .hostname, some .l0, some .l4⟩,
   ⟨.resolvedHostname, "address", .ipAddress, some .l4, some .l0⟩,
   ⟨.finding, "finding_type", .findingType, none, none⟩,
   ⟨.finding, "ooi", .object, none, none⟩,
   ⟨.config, "ooi", .object, none, none⟩]

/-- The lowest bound of the edge in either direction. -/
def firewallBound (r : Relation) : Option Level :=
  Level.lowest? [r.issueBound, r.inheritBound]

/-- The field of a type with the given name, its supertypes' fields included. -/
def find? (holder : ObjectType) (name : String) : Option Relation :=
  schema.find? (fun r => r.name == name && holder.isA r.source)

/-- The relations that may point at an object of type `t`. -/
def pointingAt (t : ObjectType) : List Relation :=
  schema.filter (fun r => t.isA r.target)

end Relation

end ScanGraph
