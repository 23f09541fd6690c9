/-
Entities: what an object is, apart from what is known about its clearance.

Every concrete type has one form.  The fields that make up the natural key
identify the object: a reference-valued key field contributes the key of the
object it points at, except where its target may be of any type, in which case
the whole reference stands in the key.

The fields of an object that are no references, and those that are not part of the key,
are kept as they are and nowhere interpreted.  `relations` lists the reference-valued
fields that are set, in the order of the schema, and `relation?` finds one by its name;
all walks and all edges are made of these two.

Nothing restricts which references a field may hold.  That they point at what the schema
says is a property of an object (`Typed`), and is asked for where it is needed.
-/
import ScanGraph.Reference
import ScanGraph.Relation
import ScanGraph.Table
import ScanGraph.Address

namespace ScanGraph

/-- The transport protocol of a port. -/
inductive Protocol where
  | tcp
  | udp
deriving DecidableEq, Repr

def Protocol.name : Protocol → String
  | tcp => "tcp"
  | udp => "udp"

theorem Protocol.name_injective {p q : Protocol} (h : p.name = q.name) : p = q := by
  revert h
  cases p <;> cases q <;> decide

/-- What a scan found a port to be. -/
inductive PortState where
  | opened
  | closed
  | filtered
deriving DecidableEq, Repr

def PortState.name : PortState → String
  | opened => "open"
  | closed => "closed"
  | filtered => "filtered"

/-- How severe the findings of a type are. -/
inductive Severity where
  | critical
  | high
  | medium
  | low
  | recommendation
  | pending
  | unknown
deriving DecidableEq, Repr

def Severity.name : Severity → String
  | critical => "critical"
  | high => "high"
  | medium => "medium"
  | low => "low"
  | recommendation => "recommendation"
  | pending => "pending"
  | unknown => "unknown"

/-- What an object is. -/
inductive Entity where
  | network (name : String)
  | hostname (network : Reference) (name : String)
  | ipv4 (network : Reference) (address : Address.V4)
  | ipv6 (network : Reference) (address : Address.V6)
  | ipPort (address : Reference) (protocol : Protocol) (port : UInt16) (state : Option PortState)
  | dnsA (hostname : Reference) (value : String) (address : Reference) (ttl : Option UInt32)
  | dnsAAAA (hostname : Reference) (value : String) (address : Reference) (ttl : Option UInt32)
  | dnsMX (hostname : Reference) (value : String) (mailHostname : Option Reference)
      (preference : Option UInt16) (ttl : Option UInt32)
  | dnsNS (hostname : Reference) (value : String) (nameServer : Reference) (ttl : Option UInt32)
  | dnsTXT (hostname : Reference) (value : String) (ttl : Option UInt32)
  | resolvedHostname (hostname : Reference) (address : Reference)
  | katFindingType (id : String) (description : Option String) (severity : Option Severity)
  | cveFindingType (id : String) (description : Option String) (severity : Option Severity)
  | cweFindingType (id : String) (description : Option String) (severity : Option Severity)
  | finding (type : Reference) (subject : Reference) (proof : Option String)
      (description : Option String) (reproduce : Option String)
  | config (subject : Reference) (ruleId : String) (settings : Table String String)
deriving DecidableEq, Repr

namespace Entity

instance : Inhabited Entity :=
  ⟨.network ""⟩

def type : Entity → ObjectType
  | network .. => .network
  | hostname .. => .hostname
  | ipv4 .. => .ipv4
  | ipv6 .. => .ipv6
  | ipPort .. => .ipPort
  | dnsA .. => .dnsA
  | dnsAAAA .. => .dnsAAAA
  | dnsMX .. => .dnsMX
  | dnsNS .. => .dnsNS
  | dnsTXT .. => .dnsTXT
  | resolvedHostname .. => .resolvedHostname
  | katFindingType .. => .katFindingType
  | cveFindingType .. => .cveFindingType
  | cweFindingType .. => .cweFindingType
  | finding .. => .finding
  | config .. => .config

def keyTokens : Entity → List String
  | network name => [name]
  | hostname net name => [net.naturalKey, name]
  | ipv4 net address => [net.naturalKey, address.text]
  | ipv6 net address => [net.naturalKey, address.text]
  | ipPort address protocol port _ =>
      [address.naturalKey, protocol.name, Text.decimalText port.toNat]
  | dnsA host value .. => [host.naturalKey, value]
  | dnsAAAA host value .. => [host.naturalKey, value]
  | dnsMX host value .. => [host.naturalKey, value]
  | dnsNS host value .. => [host.naturalKey, value]
  | dnsTXT host value .. => [host.naturalKey, value]
  | resolvedHostname host address => [host.naturalKey, address.naturalKey]
  | katFindingType id .. => [id]
  | cveFindingType id .. => [id]
  | cweFindingType id .. => [id]
  | finding type subject .. => [subject.text, type.naturalKey]
  | config subject ruleId _ => [subject.text, ruleId]

def reference (e : Entity) : Reference :=
  .ofTokens e.type e.keyTokens

@[simp] theorem reference_type (e : Entity) : e.reference.type = e.type :=
  Reference.ofTokens_type e.type e.keyTokens

/-- The reference-valued fields that are set, by name. -/
def relations : Entity → List (String × Reference)
  | network .. => []
  | hostname net _ => [("network", net)]
  | ipv4 net _ => [("network", net)]
  | ipv6 net _ => [("network", net)]
  | ipPort address .. => [("address", address)]
  | dnsA host _ address _ => [("hostname", host), ("address", address)]
  | dnsAAAA host _ address _ => [("hostname", host), ("address", address)]
  | dnsMX host _ none .. => [("hostname", host)]
  | dnsMX host _ (some mail) .. => [("hostname", host), ("mail_hostname", mail)]
  | dnsNS host _ server _ => [("hostname", host), ("name_server_hostname", server)]
  | dnsTXT host .. => [("hostname", host)]
  | resolvedHostname host address => [("hostname", host), ("address", address)]
  | katFindingType .. => []
  | cveFindingType .. => []
  | cweFindingType .. => []
  | finding type subject .. => [("finding_type", type), ("ooi", subject)]
  | config subject .. => [("ooi", subject)]

/-- The value of the reference-valued field with the given name. -/
def relation? (e : Entity) (name : String) : Option Reference :=
  (e.relations.find? (fun r => r.1 == name)).map Prod.snd

/-- The reference to the settings of a rule on an object. -/
def configReference (subject : Reference) (ruleId : String) : Reference :=
  .ofTokens .config [subject.text, ruleId]

end Entity

end ScanGraph
