/-
Octets as characters.

A shell knows no encoding: its texts are octets.  Here such a text is a string
in which each character stands for one octet, so that it can be compared, cut
and matched like any other; `packed` and `unpacked` lead in and out.
-/
import ScanGraph.Text.Octets

namespace ScanGraph.Shell

/-- The character that stands for an octet. -/
def charOf (b : UInt8) : Char :=
  Char.ofNat b.toNat

/-- The octet that a character stands for. -/
def octetOf (c : Char) : UInt8 :=
  UInt8.ofNat c.toNat

def charsOf (bs : List UInt8) : List Char :=
  bs.map charOf

/-- The octets that characters stand for. -/
def octetsOf (cs : List Char) : List UInt8 :=
  cs.map octetOf

def packed (bs : List UInt8) : String :=
  String.ofList (charsOf bs)

def unpacked (s : String) : List UInt8 :=
  octetsOf s.toList

def encoded (s : String) : String :=
  packed (Text.octets s)

end ScanGraph.Shell
