/-
DNS records as lines of a zone file.

A line is `name ttl class type value`, cut at blanks; empty lines, comments and
records of other types say nothing.  `entities` lists the objects that a
record stands for, each host before what refers to it.

Of each record type only the fields are read that an object has: the value as it is
written, and for a mail server its preference.  A name that ends in a dot loses it.
What is wrong with a line is a `LineFault` and has one wording, which the error of a
normalizer quotes together with the line.

Hosts on the way to a record are objects too and come first, on the network of the host
that was asked about; addresses are objects on that network.  Records of types that are
not known are passed over, which is no fault.
-/
import ScanGraph.Entity
import ScanGraph.Address
import ScanGraph.Text.Blank
import ScanGraph.Text.Quoted

namespace ScanGraph.Dns

/-- What a record says of its name. -/
inductive RecordData where
  | a (address : Address.V4)
  | aaaa (address : Address.V6)
  | ns
  | mx (preference : UInt16) (exchange : String)
  | txt
deriving DecidableEq, Repr

/-- A record: the name, the time to live if it is a number, and the value as written. -/
structure ResourceRecord where
  name : String
  ttl : Option UInt32
  value : String
  data : RecordData
deriving DecidableEq, Repr

/-- Why a line is no record. -/
inductive LineFault where
  | tooShort
  | noValue
  | badV4
  | badV6
  | badExchange
  | badPreference
deriving DecidableEq, Repr

def LineFault.message : LineFault → String
  | tooShort => "expected \x60name ttl class type value\x60"
  | noValue => "record without value"
  | badV4 => "invalid IPv4 address"
  | badV6 => "invalid IPv6 address"
  | badExchange => "expected \x60preference exchange\x60"
  | badPreference => "invalid MX preference"

/-- The time to live that a word denotes, if it is one. -/
def ttl? (word : List Char) : Option UInt32 :=
  (Text.unsigned? (UInt32.size - 1) word).map UInt32.ofNat

/-- The preference that a word denotes. -/
def preference? (word : List Char) : Option UInt16 :=
  (Text.unsigned? (UInt16.size - 1) word).map UInt16.ofNat

/-- What the words of a value say in a record of the type with the given name. -/
def data? (type value : String) (words : List (List Char)) :
    Except LineFault (Option RecordData) :=
  if type = "A" then
    match Address.V4.parse? value with
    | some x => .ok (some (.a x))
    | none => .error .badV4
  else if type = "AAAA" then
    match Address.V6.parse? value with
    | some x => .ok (some (.aaaa x))
    | none => .error .badV6
  else if type = "NS" then .ok (some .ns)
  else if type = "MX" then
    match words with
    | [preference, exchange] =>
        match preference? preference with
        | some n => .ok (some (.mx n (String.ofList exchange)))
        | none => .error .badPreference
    | _ => .error .badExchange
  else if type = "TXT" then .ok (some .txt)
  else .ok none

/-- The record that the words of a line make, unless its type is another. -/
def ofWords : List (List Char) → Except LineFault (Option ResourceRecord)
  | name :: ttl :: _ :: type :: rest =>
      if rest.isEmpty then .error .noValue
      else
        let value := Text.join " " (rest.map String.ofList)
        match data? (Text.upperAscii (String.ofList type)) value rest with
        | .ok (some data) => .ok (some ⟨String.ofList name, ttl? ttl, value, data⟩)
        | .ok none => .ok none
        | .error e => .error e
  | _ => .error .tooShort

/-- The record on a line without outer blanks, unless it is empty or a comment. -/
def ofLine (line : List Char) : Except LineFault (Option ResourceRecord) :=
  match line with
  | [] => .ok none
  | ';' :: _ => .ok none
  | _ => ofWords (Text.words line)

/-- The records on some lines, or the first line at fault. -/
def ofLines : List (List Char) → Except (LineFault × String) (List ResourceRecord)
  | [] => .ok []
  | line :: rest =>
      let line := Text.trimWhere Text.isBlank line
      match ofLine line with
      | .error e => .error (e, String.ofList line)
      | .ok r =>
          match ofLines rest with
          | .error e => .error e
          | .ok more => .ok (r.toList ++ more)

def ofText (records : String) : Except (LineFault × String) (List ResourceRecord) :=
  ofLines (records.toList.splitOn '\n')

/-! ## Objects -/

/-- The host with a name, its trailing dots left out. -/
def host (network : Reference) (name : String) : Entity :=
  .hostname network (Text.trimEnd '.' name)

namespace ResourceRecord

/-- The objects that a record stands for. -/
def entities (network : Reference) (r : ResourceRecord) : List Entity :=
  let owner := host network r.name
  match r.data with
  | .a x =>
      let ip := Entity.ipv4 network x
      [owner, ip, .dnsA owner.reference r.value ip.reference r.ttl]
  | .aaaa x =>
      let ip := Entity.ipv6 network x
      [owner, ip, .dnsAAAA owner.reference r.value ip.reference r.ttl]
  | .ns =>
      let server := host network r.value
      [owner, server, .dnsNS owner.reference r.value server.reference r.ttl]
  | .mx preference exchange =>
      if (Text.trimEnd '.' exchange).isEmpty then
        [owner, .dnsMX owner.reference r.value none (some preference) r.ttl]
      else
        let mail := host network exchange
        [owner, mail, .dnsMX owner.reference r.value (some mail.reference) (some preference) r.ttl]
  | .txt =>
      let text := String.ofList (Text.trimWhere (· == '"') r.value.toList)
      [owner, .dnsTXT owner.reference text r.ttl]

end ResourceRecord

end ScanGraph.Dns
