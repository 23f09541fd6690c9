/-
DNS answers, as a scan hands them to the normalizer.

An answer is a text of records, one per line, and travels as a JSON object.

An answer that lists addresses is written as one line per address, each once and in
order, with a time to live of nought.  Reading takes any text of records, so that an
answer from elsewhere, with records of other types, is read as well.

Octets that are no such object are no answer: `ofOctets?` gives nothing, whatever is
wrong with them, and the wording is left to whoever asked.
-/
import ScanGraph.Address
import ScanGraph.SortedSet
import ScanGraph.Json.Printer
import ScanGraph.Json.Reader
import ScanGraph.Json.Record
import ScanGraph.Text.Blank

namespace ScanGraph.Dns

/-- The records that a name has. -/
structure Answer where
  records : String
deriving DecidableEq, Repr

namespace Answer

def recordType : Address → String
  | .v4 _ => "A"
  | .v6 _ => "AAAA"

/-- The record that says that a name has an address. -/
def addressLine (name : String) (address : Address) : String :=
  name ++ ". 0 IN " ++ recordType address ++ " " ++ address.text

/-- The answer that lists the addresses of a name, each once and in order. -/
def ofAddresses (name : String) (addresses : List Address) : Answer :=
  let name := Text.trimEnd '.' name
  ⟨Text.join "\n" ((SortedSet.ofList addresses).toList.map (addressLine name))⟩

def recordsKey : String := "dns_records"

def toJson (a : Answer) : Json :=
  .obj [(recordsKey, .str a.records)]

/-- An answer. -/
def decoder : Decoder Answer :=
  (Answer.mk <$> Record.field recordsKey .text).decode

def octets (a : Answer) : List UInt8 :=
  Text.octets a.toJson.render

/-- The answer that octets hold; of other members only the grammar counts. -/
def ofOctets? (bs : List UInt8) : Option Answer :=
  (Json.ofOctetsOnly? (· == recordsKey) bs).bind (fun v => (decoder v).toOption)

end Answer

end ScanGraph.Dns
