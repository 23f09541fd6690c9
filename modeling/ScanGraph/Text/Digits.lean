/-
Decimal numbers as text.

`decimal` writes a number without sign or leading zero; `natural?` reads
digits, and `unsigned?` also admits one plus sign in front, up to a bound.

Digits are those from 0 to 9; other characters that Unicode counts as digits are none
here.  `padded` writes so many digits at least and cuts nothing.
-/

namespace ScanGraph.Text

/-- The decimal digits of `n`, at least one and without a leading zero. -/
def decimal (n : Nat) : List Char :=
  Nat.toDigits 10 n

def decimalText (n : Nat) : String :=
  String.ofList (decimal n)

def digitValue (c : Char) : Nat :=
  c.toNat - '0'.toNat

/-- The number that digits spell, most significant first. -/
def valueOf (cs : List Char) : Nat :=
  cs.foldl (fun n c => 10 * n + digitValue c) 0

/-- The number that a nonempty list of ASCII digits spells. -/
def natural? (cs : List Char) : Option Nat :=
  if !cs.isEmpty && cs.all Char.isDigit then some (valueOf cs) else none

/-- Exactly `width` digits at the beginning, and the characters after them. -/
def exactly? (width : Nat) (cs : List Char) : Option (Nat × List Char) :=
  let ds := cs.take width
  if ds.length = width ∧ ds.all Char.isDigit then some (valueOf ds, cs.drop width) else none

/-- A number of at most `bound`, with an optional plus sign in front. -/
def unsigned? (bound : Nat) (cs : List Char) : Option Nat :=
  let digits := match cs with
    | '+' :: rest => rest
    | _ => cs
  match natural? digits with
  | some n => if n ≤ bound then some n else none
  | none => none

/-- The decimal digits of `n` with zeros in front up to the given width. -/
def padded (width n : Nat) : List Char :=
  let ds := decimal n
  List.replicate (width - ds.length) '0' ++ ds

end ScanGraph.Text
