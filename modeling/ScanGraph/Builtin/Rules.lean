/-
The rules about hosts, their DNS records and open ports.

`resolving` links a host to the addresses that its records give it;
`nameserverIpv6` reports hosts that serve names and have no IPv6 address.

`classifyPort` reports an open port by the first class it falls into: system
administration, databases, remote desktop, or else any port that is not a
common one.  The settings of the network may replace each list of ports, and
may ask for reports on the address instead of the port.

All three are pure: they read the root, the objects of their context and their settings,
and neither clearance nor times.  A report consists of a finding and of the type of the
finding, so that it is accepted wherever it is saved.

A port that is closed or filtered is not reported, and its settings are then not looked
at.  Otherwise a list in the settings that holds something else than ports is an error,
with which the evaluation fails.  The texts of the reports, with the number of the port,
are part of the model, as they end up in stored objects.
-/
import ScanGraph.Plugin.Body

namespace ScanGraph.Builtin

/-! ## DNS records of a host -/

def recordHost : Relation :=
  ⟨.dnsRecord, "hostname", .hostname, some .l0, some .l2⟩

def recordServer : Relation :=
  ⟨.dnsNS, "name_server_hostname", .hostname, some .l1, some .l0⟩

/-- The path from a host to the objects of a type that point at it by a field. -/
def hostPath (field : Relation) (holder : ObjectType) : Path :=
  ⟨.hostname, [⟨.incoming, field, .hostname, holder⟩]⟩

/-- The parameter that holds a host's A records, which it may lack. -/
def aRecords : RuleParameter :=
  ⟨"a_records", .dnsA, hostPath recordHost .dnsA, true, .l0⟩

/-- The parameter that holds a host's AAAA records, which it may lack. -/
def aaaaRecords : RuleParameter :=
  ⟨"aaaa_records", .dnsAAAA, hostPath recordHost .dnsAAAA, true, .l0⟩

/-- The parameter that holds the records that name a host as a server. -/
def nsRecords : RuleParameter :=
  ⟨"ns_records", .dnsNS, hostPath recordServer .dnsNS, false, .l0⟩

theorem parse_aRecords : Path.parse "Hostname.<hostname[is DNSARecord]" = .ok aRecords.path :=
  rfl

theorem parse_aaaaRecords :
    Path.parse "Hostname.<hostname[is DNSAAAARecord]" = .ok aaaaRecords.path :=
  rfl

theorem parse_nsRecords :
    Path.parse "Hostname.<name_server_hostname[is DNSNSRecord]" = .ok nsRecords.path :=
  rfl

/-! ## Resolving -/

/-- The id of the rule that links hosts to addresses. -/
def dnsResolving : String := "dns-resolving"

/-- The declaration of the rule that links hosts to addresses. -/
def dnsResolvingDefinition : RuleDefinition :=
  { RuleDefinition.plain dnsResolving .hostname [.resolvedHostname] with
    parameters := [aRecords, aaaaRecords] }

def aAddress? : Entity → Option Reference
  | .dnsA _ _ address _ => some address
  | _ => none

def aaaaAddress? : Entity → Option Reference
  | .dnsAAAA _ _ address _ => some address
  | _ => none

/-- The addresses that the records of a context give. -/
def resolvedAddresses (c : RuleContext) : List Reference :=
  (c.objects aRecords.name).filterMap (fun o => aAddress? o.entity)
    ++ (c.objects aaaaRecords.name).filterMap (fun o => aaaaAddress? o.entity)

/-- The links from a host to its addresses. -/
def resolving : RuleBody := fun root context _ =>
  match root.entity with
  | .hostname .. =>
      .returned ((resolvedAddresses context).map (fun address =>
        .ofEntity (.resolvedHostname root.reference address)))
  | e => .failed ("expected a Hostname root, got " ++ e.type.name)

/-! ## Name servers without IPv6 -/

/-- A finding type about which nothing but its id is known. -/
def findingType (id : String) : Entity :=
  .katFindingType id none none

/-- A finding type and a finding of it on an object. -/
def report (id : String) (subject : Reference) (description : String) : List Snapshot :=
  [.ofEntity (findingType id),
   .ofEntity (.finding (findingType id).reference subject none (some description) none)]

/-- The id of the rule about name servers. -/
def ipv6OnNameservers : String := "ipv6-on-nameservers"

/-- The declaration of the rule about name servers. -/
def ipv6OnNameserversDefinition : RuleDefinition :=
  { RuleDefinition.plain ipv6OnNameservers .hostname [.katFindingType, .finding] with
    parameters := [nsRecords, aaaaRecords] }

/-- The report on a name server that has no IPv6 address. -/
def nameserverIpv6 : RuleBody := fun root context _ =>
  if (context.objects nsRecords.name).isEmpty || !(context.objects aaaaRecords.name).isEmpty then
    .returned []
  else
    .returned (report "KAT-NAMESERVER-NO-IPV6" root.reference
      "This nameserver has no IPv6 address.")

/-! ## Open ports -/

/-- The id of the rule. -/
def portClassification : String := "port-classification-ip"

def portNetwork : Path :=
  ⟨.ipPort, [⟨.outgoing, ⟨.ipPort, "address", .ipAddress, some .l0, some .l4⟩, .ipPort, .ipAddress⟩,
    ⟨.outgoing, ⟨.ipAddress, "network", .network, none, none⟩, .ipAddress, .network⟩]⟩

theorem parse_portNetwork : Path.parse "IPPort.address.network" = .ok portNetwork :=
  rfl

/-- The declaration of the rule. -/
def portClassificationDefinition : RuleDefinition :=
  { RuleDefinition.plain portClassification .ipPort [.katFindingType, .finding] with
    configPath := some portNetwork }

/-! ## Settings of the port rule -/

/-- The ports of a comma-separated list; blank parts are no ports. -/
def readPorts (key : String) : List String → Except String (List UInt16)
  | [] => .ok []
  | part :: rest =>
      let word := Text.trimWhere Text.isBlank part.toList
      if word.isEmpty then readPorts key rest
      else match Text.unsigned? (UInt16.size - 1) word with
        | none => .error ("invalid port " ++ Text.quoted (String.ofList word) ++ " in " ++ key)
        | some n =>
            match readPorts key rest with
            | .error e => .error e
            | .ok more => .ok (UInt16.ofNat n :: more)

/-- The ports that the settings list under a key, or else the given ones. -/
def configuredPorts (settings : RuleSettings) (key : String) (default : List UInt16) :
    Except String (List UInt16) :=
  match settings.get? key with
  | some value => readPorts key (Text.pieces ',' value)
  | none => .ok default

structure PortLists where
  commonTcp : List UInt16
  commonUdp : List UInt16
  administration : List UInt16
  databases : List UInt16
  remoteDesktop : List UInt16

def PortLists.ofSettings (s : RuleSettings) : Except String PortLists := do
  let commonTcp ← configuredPorts s "common_tcp_ports"
    [25, 53, 80, 110, 143, 443, 465, 587, 993, 995]
  let commonUdp ← configuredPorts s "common_udp_ports" [53]
  let administration ← configuredPorts s "sa_tcp_ports" [21, 22, 23, 5900]
  let databases ← configuredPorts s "db_tcp_ports" [1433, 1434, 3050, 3306, 5432]
  let remoteDesktop ← configuredPorts s "microsoft_rdp_ports" [3389]
  pure ⟨commonTcp, commonUdp, administration, databases, remoteDesktop⟩

/-- The settings ask for reports on addresses. -/
def aggregates (s : RuleSettings) : Bool :=
  match s.get? "aggregate_findings" with
  | some value => Text.lowerAscii value == "true"
  | none => false

/-! ## Classes of ports -/

inductive PortClass where
  | administration
  | database
  | remoteDesktop
  | uncommon
deriving DecidableEq, Repr

def PortClass.findingId : PortClass → String
  | administration => "KAT-OPEN-SYSADMIN-PORT"
  | database => "KAT-OPEN-DATABASE-PORT"
  | remoteDesktop => "KAT-REMOTE-DESKTOP-PORT"
  | uncommon => "KAT-UNCOMMON-OPEN-PORT"

def PortClass.verdict : PortClass → String
  | administration => " is a system administrator port and should possibly not be open."
  | database => " is a database port and should not be open."
  | remoteDesktop => " is a Microsoft Remote Desktop port and should possibly not be open."
  | uncommon => " is not a common port and should possibly not be open."

def PortLists.common (l : PortLists) : Protocol → List UInt16
  | .tcp => l.commonTcp
  | .udp => l.commonUdp

/-- The class of a port, unless it is not reported. -/
def classify (l : PortLists) (protocol : Protocol) (port : UInt16) : Option PortClass :=
  if protocol = .tcp ∧ port ∈ l.administration then some .administration
  else if protocol = .tcp ∧ port ∈ l.databases then some .database
  else if port ∈ l.remoteDesktop then some .remoteDesktop
  else if port ∈ l.common protocol then none
  else some .uncommon

/-- A port that a scan found closed or filtered is not open. -/
def isShut (state : Option PortState) : Bool :=
  state == some .closed || state == some .filtered

def portReport (s : RuleSettings) (subject address : Reference) (protocol : Protocol)
    (port : UInt16) (c : PortClass) : List Snapshot :=
  let number := Text.decimalText port.toNat
  if aggregates s then
    report PortClass.uncommon.findingId address
      ("Ports " ++ number ++ " are not common ports and should possibly not be open.")
  else
    report c.findingId subject ("Port " ++ number ++ "/" ++ protocol.name ++ c.verdict)

/-- The report on an open port. -/
def classifyPort : RuleBody := fun root _ settings =>
  match root.entity with
  | .ipPort address protocol port state =>
      if isShut state then .returned []
      else match PortLists.ofSettings settings with
        | .error e => .failed e
        | .ok l =>
            match classify l protocol port with
            | none => .returned []
            | some c => .returned (portReport settings root.reference address protocol port c)
  | e => .failed ("expected an IPPort root, got " ++ e.type.name)

end ScanGraph.Builtin
