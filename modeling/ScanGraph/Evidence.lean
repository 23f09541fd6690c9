/-
Raw evidence: what a scan brought back, before any normalizer has read it.

Evidence is octets with a set of content tags that say which normalizers may
read it.  One tag marks evidence that only records how a scan failed.

Tags are texts in order, each once.  Octets stand in JSON as a list of numbers, so that
evidence of any kind can be kept, text or not.  The tag of the scanner is put on by
whoever runs the scan, and the tag for failures by `ofError`; nothing else looks into
the octets but normalizers.
-/
import ScanGraph.SortedSet
import ScanGraph.Json.Record
import ScanGraph.Text.Octets

namespace ScanGraph

/-- What a scan brought back. -/
structure Evidence where
  octets : List UInt8
  tags : SortedSet String
deriving DecidableEq, Repr, Inhabited

namespace Evidence

/-- The tag of evidence that records how a scan failed. -/
def errorTag : String := "error/boefje"

/-- Evidence without tags. -/
def ofOctets (octets : List UInt8) : Evidence :=
  ⟨octets, .empty⟩

/-- The octets of a text, without tags. -/
def ofText (text : String) : Evidence :=
  .ofOctets (Text.octets text)

/-- The evidence with one more tag. -/
def tagged (e : Evidence) (tag : String) : Evidence :=
  { e with tags := e.tags.insert tag }

/-- The record of a failed scan: its message, tagged as an error. -/
def ofError (message : String) : Evidence :=
  (ofText message).tagged errorTag

/-- The evidence only records how a scan failed. -/
def isError (e : Evidence) : Bool :=
  e.tags.contains errorTag

end Evidence

/-! ## JSON -/

def SortedSet.texts (s : SortedSet String) : Json :=
  .list .str s.toList

/-- A set from an array of its elements, in any order and with repetitions. -/
def Decoder.set {α : Type} [DecidableEq α] [LT α] [DecidableLT α] (d : Decoder α) :
    Decoder (SortedSet α) :=
  fun v => (Decoder.list d v).map SortedSet.ofList

def Evidence.toJson (e : Evidence) : Json :=
  .obj [("bytes", .list (fun b => .nat b.toNat) e.octets), ("content_tags", e.tags.texts)]

def Decoder.octet : Decoder UInt8 :=
  fun v => (Decoder.natUpTo 255 v).map UInt8.ofNat

def Evidence.decoder : Decoder Evidence :=
  (Evidence.mk <$> Record.field "bytes" (.list .octet)
    <*> Record.field "content_tags" (.set .text)).decode

end ScanGraph
