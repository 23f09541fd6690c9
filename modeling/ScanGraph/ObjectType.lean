/-
The types of objects in the graph.

Types form a tree of three levels under `object`.  Four of them are abstract:
no object has such a type itself, but relations, rules and filters may name
one.  Main definitions: `isA`, the order of the tree, and `ofName?`, which
reads back what `name` writes.

The tree is given by `parent`, and `isA` climbs it; since it has three levels, so many
steps suffice, and every statement about types can be decided by going through them.
Two types overlap if one is above the other.  There are no types but these: what is read
by a name is one of them or refused.
-/

namespace ScanGraph

inductive ObjectType where
  | object
  | network
  | hostname
  | ipAddress
  | ipv4
  | ipv6
  | ipPort
  | dnsRecord
  | dnsA
  | dnsAAAA
  | dnsMX
  | dnsNS
  | dnsTXT
  | resolvedHostname
  | findingType
  | katFindingType
  | cveFindingType
  | cweFindingType
  | finding
  | config
deriving DecidableEq, Repr, Inhabited

namespace ObjectType

/-- Every type, in the order in which sets of types are listed. -/
def all : List ObjectType :=
  [object, network, hostname, ipAddress, ipv4, ipv6, ipPort, dnsRecord, dnsA, dnsAAAA, dnsMX,
    dnsNS, dnsTXT, resolvedHostname, findingType, katFindingType, cveFindingType,
    cweFindingType, finding, config]

theorem mem_all (t : ObjectType) : t ∈ all := by
  cases t <;> decide

def name : ObjectType → String
  | object => "OOI"
  | network => "Network"
  | hostname => "Hostname"
  | ipAddress => "IPAddress"
  | ipv4 => "IPAddressV4"
  | ipv6 => "IPAddressV6"
  | ipPort => "IPPort"
  | dnsRecord => "DNSRecord"
  | dnsA => "DNSARecord"
  | dnsAAAA => "DNSAAAARecord"
  | dnsMX => "DNSMXRecord"
  | dnsNS => "DNSNSRecord"
  | dnsTXT => "DNSTXTRecord"
  | resolvedHostname => "ResolvedHostname"
  | findingType => "FindingType"
  | katFindingType => "KATFindingType"
  | cveFindingType => "CVEFindingType"
  | cweFindingType => "CWEFindingType"
  | finding => "Finding"
  | config => "Config"

/-- The type with the given name. -/
def ofName? (s : String) : Option ObjectType :=
  all.find? (fun t => t.name == s)

/-- The direct supertype; only the root has none. -/
def parent : ObjectType → Option ObjectType
  | object => none
  | ipv4 | ipv6 => some ipAddress
  | dnsA | dnsAAAA | dnsMX | dnsNS | dnsTXT => some dnsRecord
  | katFindingType | cveFindingType | cweFindingType => some findingType
  | _ => some object

/-- The type and its supertypes, at most `height` steps upwards. -/
def climb : Nat → ObjectType → List ObjectType
  | 0, t => [t]
  | height + 1, t => t :: (match parent t with
      | some p => climb height p
      | none => [])

/-- The type itself and then every supertype up to the root. -/
def ancestors (t : ObjectType) : List ObjectType :=
  climb 2 t

/-- A type is another or one of its subtypes. -/
def isA (t u : ObjectType) : Bool :=
  t.ancestors.contains u

/-- One of two types is an ancestor of the other. -/
def overlaps (t u : ObjectType) : Bool :=
  t.isA u || u.isA t

/-- No object has an abstract type itself. -/
def isAbstract : ObjectType → Bool
  | object | ipAddress | dnsRecord | findingType => true
  | _ => false

/-- The types an object that is a `t` may have. -/
def concreteSubtypes (t : ObjectType) : List ObjectType :=
  all.filter (fun u => !u.isAbstract && u.isA t)

instance : LT ObjectType :=
  ⟨fun t u => t.ctorIdx < u.ctorIdx⟩

instance : DecidableLT ObjectType :=
  fun t u => inferInstanceAs (Decidable (t.ctorIdx < u.ctorIdx))

/-! ## The order of the tree -/

theorem ofName?_name (t : ObjectType) : ofName? t.name = some t := by
  cases t <;> decide

theorem name_of_ofName? {s : String} {t : ObjectType} (h : ofName? s = some t) :
    t.name = s := by
  unfold ofName? at h
  have hname := List.find?_some h
  exact eq_of_beq hname

theorem isA_refl (t : ObjectType) : t.isA t = true := by
  cases t <;> decide

theorem isA_object (t : ObjectType) : t.isA object = true := by
  cases t <;> decide

theorem ancestors_closed :
    ∀ t ∈ all, ∀ u ∈ t.ancestors, ∀ v ∈ u.ancestors, v ∈ t.ancestors := by
  decide

theorem isA_iff {t u : ObjectType} : t.isA u = true ↔ u ∈ t.ancestors :=
  List.contains_iff_mem

theorem isA_trans {t u v : ObjectType} (htu : t.isA u = true) (huv : u.isA v = true) :
    t.isA v = true :=
  isA_iff.2 (ancestors_closed t (mem_all t) u (isA_iff.1 htu) v (isA_iff.1 huv))

theorem name_injective {t u : ObjectType} (h : t.name = u.name) : t = u := by
  have ht := ofName?_name t
  rw [h, ofName?_name u] at ht
  exact (Option.some.inj ht).symm

end ObjectType

end ScanGraph
