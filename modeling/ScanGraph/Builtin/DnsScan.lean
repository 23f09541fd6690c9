/-
The DNS plugins: the scanner that looks up addresses, and the normalizer that
reads its answers.

The scanner asks a resolver.  The normalizer accepts an answer as a whole or not
at all.

A resolver is any function from a name to addresses or to a reason why there are none
(`Resolver`).  How a system looks names up is not modelled; a name that does not exist
is told apart from other faults, as it is an answer of its own.

What the scanner returns is the answer as octets, every address once and in order,
however often and in whatever order the resolver has it.  The normalizer makes objects
of the records of the types that it knows; evidence which says that the name does not
exist has none.
-/
import ScanGraph.Plugin.Body
import ScanGraph.Dns.Answer
import ScanGraph.Dns.ResourceRecord

namespace ScanGraph.Dns

/-- Why a name has no addresses. -/
inductive LookupFault where
  /-- A text that ends at its first NUL cannot be asked for as a whole. -/
  | holdsNul
  | unknownName
  /-- It could be the name of a host, but there is nobody to ask. -/
  | unreachable
deriving DecidableEq, Repr

/-- What is reported of a failed lookup. -/
def LookupFault.message : LookupFault → String
  | holdsNul => "file name contained an unexpected NUL byte"
  | unknownName => "failed to lookup address information: Name or service not known"
  | unreachable =>
      "failed to lookup address information: Temporary failure in name resolution"

/-- How names are looked up: their addresses, or why there are none. -/
abbrev Resolver := String → Except LookupFault (List Address)

end ScanGraph.Dns

namespace ScanGraph.Builtin

/-- The id of the scanner. -/
def dnsRecords : String := "dns-records"

def dnsNormalizer : String := "kat_dns_normalize"

/-- The declaration of the scanner. -/
def dnsRecordsDefinition : ScannerDefinition :=
  ⟨dnsRecords, some "0.1.0", .ofList [.hostname], .ofList [scannerTag dnsRecords], .l1⟩

def dnsNormalizerDefinition : NormalizerDefinition :=
  ⟨dnsNormalizer, .ofList [scannerTag dnsRecords],
   .ofList [.hostname, .ipv4, .ipv6, .dnsA, .dnsAAAA, .dnsMX, .dnsNS, .dnsTXT]⟩

/-- The scan of a host with a resolver. -/
def dnsScan (resolve : Dns.Resolver) : ScannerBody := fun _ input =>
  some (match input.entity with
    | .hostname _ name =>
        match resolve name with
        | .ok addresses => .returned (.ofOctets (Dns.Answer.ofAddresses name addresses).octets)
        | .error why => .failed (.expected ("resolving " ++ name ++ " failed: " ++ why.message))
    | e => .failed (.infrastructure (dnsRecords ++ " cannot scan " ++ e.type.name)))

def noSuchName : List UInt8 :=
  Text.octets "NXDOMAIN"

/-- What is reported of evidence that is no answer: these words stand for those of the JSON parser,
which say what was expected and at which place of the text. -/
def notAnAnswer : String := "the evidence is no DNS answer"

/-- The objects that evidence about a host on a network stands for. -/
def dnsObjects (network : Reference) (name : String) (evidence : List UInt8) :
    Except PipelineError (List Entity) :=
  if Text.trimWhere Text.isAsciiBlank evidence = noSuchName then .ok []
  else match Dns.Answer.ofOctets? evidence with
    | none => .error (.malformedInput notAnAnswer)
    | some answer =>
        match Dns.ofText answer.records with
        | .error (fault, line) =>
            .error (.malformedInput (fault.message ++ ": " ++ Text.quoted line))
        | .ok records => .ok (.hostname network name :: records.flatMap (·.entities network))

/-- The reading of evidence about a host. -/
def dnsNormalize : NormalizerBody := fun _ input evidence =>
  match input.entity with
  | .hostname network name =>
      match dnsObjects network name evidence with
      | .ok es => .returned (es.map Snapshot.ofEntity)
      | .error e => .failed e
  | e => .failed (.malformedInput
      (dnsNormalizer ++ " expects a Hostname input, got " ++ e.type.name))

end ScanGraph.Builtin
