/-
The beginning and the end of texts: `head` and `tail`.

An amount counts lines or octets.  `head` takes so many from the beginning, or
all but so many at the end; `tail` takes so many from the end, or all from some
line or octet on.
-/
import ScanGraph.Shell.Utility

namespace ScanGraph.Shell.Utility

/-- An amount of lines or octets, and whether it counts from the other end. -/
structure Portion where
  isOctets : Bool
  isTurned : Bool
  count : Nat

namespace Portion

def unit? (s : List Char) : Option Nat :=
  match s with
  | [] => some 1
  | ['b'] => some 512
  | ['k'] => some 1024
  | ['K'] => some 1024
  | ['k', 'B'] => some 1000
  | ['M'] => some 1048576
  | ['M', 'B'] => some 1000000
  | ['G'] => some 1073741824
  | _ => none

/-- The amount that a text spells; one sign turns it around. -/
def parse? (isOctets : Bool) (turn : Char) (s : String) : Option Portion :=
  let cs := s.toList
  let digits := cs.dropWhile (fun c => c == '-' || c == '+')
  let number := digits.takeWhile Char.isDigit
  if number.isEmpty || cs.length > digits.length + 1 then none
  else (unit? (digits.drop number.length)).map (fun u =>
    ⟨isOctets, cs.head? == some turn, Text.valueOf number * u⟩)

/-- The pieces of a text that are counted: lines with their ends, or octets. -/
def pieces (p : Portion) (cs : List Char) : List (List Char) :=
  if p.isOctets then cs.map ([·]) else endedLines cs

/-- The part of a text from its beginning. -/
def headOf (p : Portion) (cs : List Char) : List Char :=
  let ps := p.pieces cs
  (ps.take (if p.isTurned then ps.length - p.count else p.count)).flatten

def tailOf (p : Portion) (cs : List Char) : List Char :=
  let ps := p.pieces cs
  (ps.drop (if p.isTurned then p.count - 1 else ps.length - p.count)).flatten

end Portion

/-- Arguments of which the first may be a number alone, written as the amount that it stands
for. -/
def spelledOut (signs : List Char) (args : List String) : List String :=
  match args with
  | [] => []
  | a :: others =>
      match a.toList with
      | s :: d :: rest =>
          if signs.contains s && d.isDigit then
            let digits := (d :: rest).takeWhile Char.isDigit
            let left := (d :: rest).drop digits.length
            let number := String.ofList (if s == '+' then '+' :: digits else digits)
            (if left == ['c'] then "-c" ++ number else "-n" ++ number) :: others
          else args
      | _ => args

def titled (isFirst : Bool) (name : String) : List Char :=
  let shown := if name == "-" then "standard input" else name
  ((if isFirst then "" else "\n") ++ "==> " ++ shown ++ " <==\n").toList

/-- Parts of texts one after the other, with their names in front if asked for. -/
def partsOf (c : Call) (isTitled : Bool) (part : List Char → List Char) :
    Bool → List String → Reply → Reply
  | _, [], r => r
  | isFirst, name :: rest, r =>
      match c.read name with
      | .ok text =>
          let r := if isTitled then r.write 1 (titled isFirst name) else r
          partsOf c isTitled part false rest (r.write 1 (part text))
      | .error .isDirectory =>
          let r := if isTitled then r.write 1 (titled isFirst name) else r
          let said := "error reading " ++ Call.quoted name ++ ": Is a directory"
          partsOf c isTitled part false rest
            { r.write 2 (c.complaint said) with status := 1 }
      | .error f =>
          let said := "cannot open " ++ Call.quoted name ++ " for reading: " ++ f.message
          partsOf c isTitled part isFirst rest { r.write 2 (c.complaint said) with status := 1 }

def endRules : OptionRules :=
  ⟨"qvzf", "nc", [("lines", 'n'), ("bytes", 'c'), ("quiet", 'q'), ("silent", 'q'),
    ("verbose", 'v'), ("follow", 'f')], false⟩

/-- What `head` and `tail` have in common: the amount, and its part of each text. -/
def endsOf (c : Call) (turn : Char) (part : Portion → List Char → List Char) : Reply :=
  c.withOptions endRules 1 (fun o =>
    let (isOctets, text) : Bool × String :=
      match o.given.reverse.find? (fun g => g.1 == 'n' || g.1 == 'c') with
      | some (l, v) => (l == 'c', v)
      | none => (false, "10")
    match Portion.parse? isOctets turn text with
    | none => c.refuse ("invalid number of " ++ (if isOctets then "bytes" else "lines") ++ ": "
        ++ Call.quoted text) 1
    | some p =>
        let names := if o.operands.isEmpty then ["-"] else o.operands
        let isTitled := (names.length > 1 && !o.has 'q') || o.has 'v'
        let r := partsOf c isTitled (part p) true names (c.quiet 0)
        if names.any Call.isInput then
          { r with rest := c.leftAfter (part p c.input).length 8192 }
        else r)

def head : Utility := fun c =>
  let c := { c with args := spelledOut ['-'] c.args }
  endsOf c '-' Portion.headOf

/-- The end of texts; all of the input is read for it. -/
def tail : Utility := fun c =>
  let c := { c with args := spelledOut ['-', '+'] c.args }
  let r := endsOf c '+' Portion.tailOf
  { r with rest := if r.rest.length == c.input.length then r.rest else [] }

end ScanGraph.Shell.Utility
