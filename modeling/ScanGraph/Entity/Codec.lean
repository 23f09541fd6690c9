/-
Entities, profiles and snapshots as JSON.

Writing lists the fields in a fixed order, the type of an entity first.  Reading
accepts the fields in any order; a field with an optional value may be missing.

Fields without a value are written as null, and read as such where they are missing.  A
number is read if it fits the width of its field.  Members that no field has are passed
over.

What is wrong with a value is a `DecodeError`, which is a naming error or the mere fact
that the shape is wrong; positions in the text are not modelled, and so no message of a
decoder quotes one.
-/
import ScanGraph.Snapshot
import ScanGraph.Path
import ScanGraph.Uuid
import ScanGraph.Json.Record

namespace ScanGraph

/-! ## Names -/

def ObjectType.decoder : Decoder ObjectType :=
  .named (fun s => match ObjectType.ofName? s with
    | some t => .ok t
    | none => .error (.unknownType s))

def ObjectType.toJson (t : ObjectType) : Json :=
  .str t.name

def Reference.decoder : Decoder Reference :=
  .named Reference.parse

def Reference.toJson (r : Reference) : Json :=
  .str r.text

def Path.decoder : Decoder Path :=
  .named Path.parse

def Path.toJson (p : Path) : Json :=
  .str p.text

/-- A level by its number, which must be one of eight bits. -/
def Level.decoder : Decoder Level := fun v =>
  match Decoder.natUpTo 255 v with
  | .error e => .error e
  | .ok n =>
      match Level.ofNat? n with
      | some l => .ok l
      | none => .error (.naming (.invalidLevel n))

def Level.toJson (l : Level) : Json :=
  .nat l.number

def Instant.decoder : Decoder Instant :=
  .parsed Instant.parse?

def Instant.toJson (t : Instant) : Json :=
  .str t.text

/-- An identifier by its text. -/
def Uuid.decoder : Decoder Uuid :=
  .parsed Uuid.parse?

def Uuid.toJson (u : Uuid) : Json :=
  .str u.text

def Protocol.ofName? (s : String) : Option Protocol :=
  [Protocol.tcp, .udp].find? (fun p => p.name == s)

def PortState.ofName? (s : String) : Option PortState :=
  [PortState.opened, .closed, .filtered].find? (fun p => p.name == s)

def Severity.ofName? (s : String) : Option Severity :=
  [Severity.critical, .high, .medium, .low, .recommendation, .pending, .unknown].find?
    (fun p => p.name == s)

def ProfileKind.ofName? (s : String) : Option ProfileKind :=
  [ProfileKind.empty, .declared, .inherited].find? (fun p => p.name == s)

namespace Decoder

/-- A whole number of 16 bits. -/
def nat16 : Decoder UInt16 :=
  fun v => (natUpTo (UInt16.size - 1) v).map UInt16.ofNat

/-- A whole number of 32 bits. -/
def nat32 : Decoder UInt32 :=
  fun v => (natUpTo (UInt32.size - 1) v).map UInt32.ofNat

/-- A whole number of 64 bits. -/
def nat64 : Decoder Nat :=
  natUpTo (UInt64.size - 1)

end Decoder

/-- A 16-bit number as JSON. -/
def Json.nat16 (n : UInt16) : Json :=
  .nat n.toNat

/-- A 32-bit number as JSON. -/
def Json.nat32 (n : UInt32) : Json :=
  .nat n.toNat

/-! ## Entities -/

namespace Entity

open Json Record

/-- The fields of an entity after its type. -/
def fields : Entity → List (String × Json)
  | network name => [("name", .str name)]
  | hostname net name => [("network", net.toJson), ("name", .str name)]
  | ipv4 net address => [("network", net.toJson), ("address", .str address.text)]
  | ipv6 net address => [("network", net.toJson), ("address", .str address.text)]
  | ipPort address protocol port state =>
      [("address", address.toJson), ("protocol", .str protocol.name), ("port", nat16 port),
       ("state", orNull (fun s => .str s.name) state)]
  | dnsA host value address ttl =>
      [("hostname", host.toJson), ("value", .str value), ("address", address.toJson),
       ("ttl", orNull nat32 ttl)]
  | dnsAAAA host value address ttl =>
      [("hostname", host.toJson), ("value", .str value), ("address", address.toJson),
       ("ttl", orNull nat32 ttl)]
  | dnsMX host value mail preference ttl =>
      [("hostname", host.toJson), ("value", .str value),
       ("mail_hostname", orNull Reference.toJson mail),
       ("preference", orNull nat16 preference), ("ttl", orNull nat32 ttl)]
  | dnsNS host value server ttl =>
      [("hostname", host.toJson), ("value", .str value),
       ("name_server_hostname", server.toJson), ("ttl", orNull nat32 ttl)]
  | dnsTXT host value ttl =>
      [("hostname", host.toJson), ("value", .str value), ("ttl", orNull nat32 ttl)]
  | resolvedHostname host address =>
      [("hostname", host.toJson), ("address", address.toJson)]
  | katFindingType id description severity
  | cveFindingType id description severity
  | cweFindingType id description severity =>
      [("id", .str id), ("description", orNull .str description),
       ("risk_severity", orNull (fun s => .str s.name) severity)]
  | finding type subject proof description reproduce =>
      [("finding_type", type.toJson), ("ooi", subject.toJson), ("proof", orNull .str proof),
       ("description", orNull .str description), ("reproduce", orNull .str reproduce)]
  | config subject ruleId settings =>
      [("ooi", subject.toJson), ("bit_id", .str ruleId),
       ("config", .obj (settings.map (fun _ v => Json.str v)).entries)]

def toJson (e : Entity) : Json :=
  .obj (("object_type", e.type.toJson) :: e.fields)

def findingTypeRecord (form : String → Option String → Option Severity → Entity) : Record Entity :=
  form <$> field "id" .text <*> optionalOr "description" .text
    <*> optionalOr "risk_severity" (.keptChoice Severity.ofName?)

/-- The fields of the entities of a concrete type. -/
def record? : ObjectType → Option (Record Entity)
  | .network => some (network <$> field "name" .text)
  | .hostname => some (hostname <$> field "network" Reference.decoder <*> field "name" .text)
  | .ipv4 => some (ipv4 <$> field "network" Reference.decoder
      <*> field "address" (.parsed Address.V4.parse?))
  | .ipv6 => some (ipv6 <$> field "network" Reference.decoder
      <*> field "address" (.parsed Address.V6.parse?))
  | .ipPort => some (ipPort <$> field "address" Reference.decoder
      <*> field "protocol" (.keptChoice Protocol.ofName?) <*> field "port" .nat16
      <*> optionalOr "state" (.keptChoice PortState.ofName?))
  | .dnsA => some (dnsA <$> field "hostname" Reference.decoder <*> field "value" .text
      <*> field "address" Reference.decoder <*> optionalOr "ttl" .nat32)
  | .dnsAAAA => some (dnsAAAA <$> field "hostname" Reference.decoder <*> field "value" .text
      <*> field "address" Reference.decoder <*> optionalOr "ttl" .nat32)
  | .dnsMX => some (dnsMX <$> field "hostname" Reference.decoder <*> field "value" .text
      <*> optionalOr "mail_hostname" Reference.decoder <*> optionalOr "preference" .nat16
      <*> optionalOr "ttl" .nat32)
  | .dnsNS => some (dnsNS <$> field "hostname" Reference.decoder <*> field "value" .text
      <*> field "name_server_hostname" Reference.decoder <*> optionalOr "ttl" .nat32)
  | .dnsTXT => some (dnsTXT <$> field "hostname" Reference.decoder <*> field "value" .text
      <*> optionalOr "ttl" .nat32)
  | .resolvedHostname => some (resolvedHostname <$> field "hostname" Reference.decoder
      <*> field "address" Reference.decoder)
  | .katFindingType => some (findingTypeRecord katFindingType)
  | .cveFindingType => some (findingTypeRecord cveFindingType)
  | .cweFindingType => some (findingTypeRecord cweFindingType)
  | .finding => some (finding <$> field "finding_type" Reference.decoder
      <*> field "ooi" Reference.decoder <*> optionalOr "proof" .text
      <*> optionalOr "description" .text <*> optionalOr "reproduce" .text)
  | .config => some (config <$> field "ooi" Reference.decoder <*> field "bit_id" .text
      <*> fieldOr "config" (.table .text) .empty)
  | .object | .ipAddress | .dnsRecord | .findingType => none

/-- An entity, by the type that its tag names. -/
def decoder : Decoder Entity :=
  .tagged "object_type" (fun s => (ObjectType.ofName? s).bind record?)

end Entity

/-! ## Profiles and snapshots -/

open Json Record

def Profile.toJson (p : Profile) : Json :=
  .obj [("reference", p.reference.toJson), ("level", p.level.toJson), ("kind", .str p.kind.name)]

def Profile.decoder : Decoder Profile :=
  (Profile.mk <$> field "reference" Reference.decoder <*> field "level" Level.decoder
    <*> field "kind" (.choice ProfileKind.ofName?)).decode

/-- The members of an optional value that is left out where there is none. -/
def Json.present {α : Type} (key : String) (f : α → Json) : Option α → List (String × Json)
  | some a => [(key, f a)]
  | none => []

def Snapshot.toJson (s : Snapshot) : Json :=
  .obj (("object", s.entity.toJson) :: (present "scan_profile" Profile.toJson s.profile
    ++ present "valid_time" Instant.toJson s.validTime))

def Snapshot.decoder : Decoder Snapshot :=
  (Snapshot.mk <$> field "object" Entity.decoder <*> optionalOr "scan_profile" Profile.decoder
    <*> optionalOr "valid_time" Instant.decoder).decode

end ScanGraph
