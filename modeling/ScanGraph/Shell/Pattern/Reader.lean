/-
Reading text patterns.

There are two ways of writing a pattern.  In an extended one the signs
`( ) | { + ?` group, choose and repeat, and a backslash takes that meaning
away; in a basic one it gives it to them.  A sign that repeats must follow
something: in a basic pattern it is a plain character otherwise, and in an
extended one it counts for nothing or is a fault, as the dialect has it.
-/
import ScanGraph.Shell.Pattern
import ScanGraph.Text.Digits

namespace ScanGraph.Shell

structure Dialect where
  extended : Bool
  anyCase : Bool
  /-- In an extended pattern signs that cannot mean anything are no fault. -/
  isLenient : Bool
deriving DecidableEq, Repr

/-- What is wrong with a written pattern. -/
inductive PatternFault where
  | openBracket
  | openGroup
  | closedGroup
  | openInterval
  | badInterval
  | badRange
  | badClass
  | badReference
  | nothingRepeated
  | lastBackslash
deriving DecidableEq, Repr

/-- What is said of a pattern that cannot be read. -/
def PatternFault.message : PatternFault → String
  | openBracket => "Unmatched [, [^, [:, [., or [="
  | openGroup => "Unmatched ( or \\("
  | closedGroup => "Unmatched ) or \\)"
  | openInterval => "Unmatched \\\x7b"
  | badInterval => "Invalid content of \\\x7b\\\x7d"
  | badRange => "Invalid range end"
  | badClass => "Invalid character class name"
  | badReference => "Invalid back reference"
  | nothingRepeated => "Invalid preceding regular expression"
  | lastBackslash => "Trailing backslash"

inductive Sign where
  | set (s : CharSet)
  | times (least : Nat) (most : Option Nat)
  | opens
  | closes
  | bar
  | anchor (a : Anchor)
  | same (n : Nat)
deriving DecidableEq, Repr

namespace Pattern

/-! ## Sets -/

def classRanges? (name : String) : Option (List (Char × Char)) :=
  match name with
  | "alpha" => some [('A', 'Z'), ('a', 'z')]
  | "digit" => some [('0', '9')]
  | "alnum" => some [('0', '9'), ('A', 'Z'), ('a', 'z')]
  | "upper" => some [('A', 'Z')]
  | "lower" => some [('a', 'z')]
  | "xdigit" => some [('0', '9'), ('A', 'F'), ('a', 'f')]
  | "space" => some [('\t', '\r'), (' ', ' ')]
  | "blank" => some [('\t', '\t'), (' ', ' ')]
  | "punct" => some [('!', '/'), (':', '@'), ('[', '\x60'), ('\x7b', '~')]
  | "print" => some [(' ', '~')]
  | "graph" => some [('!', '~')]
  | "cntrl" => some [('\x00', '\x1f'), ('\x7f', '\x7f')]
  | _ => none

/-- What stands up to two closing characters, of which the second is a bracket, and what follows
them. -/
def upToClose (mark : Char) : List Char → Option (List Char × List Char)
  | [] => none
  | c :: ']' :: rest =>
      if c = mark then some ([], rest)
      else (upToClose mark (']' :: rest)).map (fun (cs, left) => (c :: cs, left))
  | c :: rest => (upToClose mark rest).map (fun (cs, left) => (c :: cs, left))

/-- The member of a bracket expression that begins here: a character, or the ranges of a class. -/
def readMember (cs : List Char) : Except PatternFault ((Char ⊕ List (Char × Char)) × List Char) :=
  match cs with
  | '[' :: ':' :: rest =>
      match upToClose ':' rest with
      | none => .error .openBracket
      | some (name, left) =>
          match classRanges? (String.ofList name) with
          | some ranges => .ok (.inr ranges, left)
          | none => .error .badClass
  | '[' :: mark :: rest =>
      if mark = '.' ∨ mark = '=' then
        match upToClose mark rest with
        | some ([c], left) => .ok (.inl c, left)
        | _ => .error .openBracket
      else .ok (.inl '[', mark :: rest)
  | c :: rest => .ok (.inl c, rest)
  | [] => .error .openBracket

/-- The ranges of a bracket expression up to its closing bracket, and what follows it. -/
def readRanges : Nat → Bool → List Char → Except PatternFault (List (Char × Char) × List Char)
  | 0, _, _ => .error .openBracket
  | fuel + 1, first, cs =>
      match first, cs with
      | false, ']' :: rest => .ok ([], rest)
      | _, _ => do
          let (member, rest) ← readMember cs
          match member, rest with
          | .inr ranges, _ =>
              let (more, left) ← readRanges fuel false rest
              .ok (ranges ++ more, left)
          | .inl a, '-' :: ']' :: _ =>
              let (more, left) ← readRanges fuel false rest
              .ok ((a, a) :: more, left)
          | .inl a, '-' :: last =>
              match ← readMember last with
              | (.inl b, rest) =>
                  if b < a then .error .badRange
                  else
                    let (more, left) ← readRanges fuel false rest
                    .ok ((a, b) :: more, left)
              | _ => .error .badRange
          | .inl a, _ =>
              let (more, left) ← readRanges fuel false rest
              .ok ((a, a) :: more, left)

/-- The set of a bracket expression, and what follows it. -/
def readSet (d : Dialect) (cs : List Char) : Except PatternFault (CharSet × List Char) :=
  match cs with
  | '^' :: rest =>
      (readRanges (rest.length + 1) true rest).map
        (fun (ranges, left) => (⟨ranges, true, d.anyCase⟩, left))
  | _ =>
      (readRanges (cs.length + 1) true cs).map
        (fun (ranges, left) => (⟨ranges, false, d.anyCase⟩, left))

/-- The characters of words, or those of blanks. -/
def lettersOf (c : Char) : List (Char × Char) :=
  if c.toLower = 'w' then ('_', '_') :: (classRanges? "alnum").getD []
  else (classRanges? "space").getD []

/-- The sign that an escaped character stands for where it is no operator. -/
def escapedSign (d : Dialect) (c : Char) : Sign :=
  match c with
  | 'w' => .set ⟨lettersOf c, false, false⟩
  | 'W' => .set ⟨lettersOf c, true, false⟩
  | 's' => .set ⟨lettersOf c, false, false⟩
  | 'S' => .set ⟨lettersOf c, true, false⟩
  | 'b' => .anchor .wordEdge
  | 'B' => .anchor .wordInside
  | '<' => .anchor .wordStart
  | '>' => .anchor .wordEnd
  | '\x60' => .anchor .start
  | '\'' => .anchor .finish
  | _ =>
      if '1' ≤ c ∧ c ≤ '9' then .same (Text.digitValue c) else .set (.single d.anyCase c)

/-! ## Signs -/

/-- The characters that are signs bare in an extended pattern and escaped in a basic one. -/
def operators : List Char :=
  ['(', ')', '|', '\x7b', '+', '?']

/-- The operator at the beginning of a written pattern, and what follows it. -/
def operator? (d : Dialect) (cs : List Char) : Option (Char × List Char) :=
  match cs with
  | '\\' :: c :: rest => if !d.extended && operators.contains c then some (c, rest) else none
  | c :: rest => if d.extended && operators.contains c then some (c, rest) else none
  | [] => none

def endsBranch (d : Dialect) (cs : List Char) : Bool :=
  match operator? d cs with
  | some (c, _) => c == ')' || c == '|'
  | none => cs.isEmpty

/-- The bounds of an interval, and what follows them. -/
def readBounds (cs : List Char) : Option (Nat × Option Nat) × List Char :=
  let least := cs.takeWhile Char.isDigit
  let rest := cs.dropWhile Char.isDigit
  match rest with
  | ',' :: rest =>
      (some (Text.valueOf least, Text.natural? (rest.takeWhile Char.isDigit)),
        rest.dropWhile Char.isDigit)
  | _ =>
      (if least.isEmpty then none else some (Text.valueOf least, some (Text.valueOf least)), rest)

/-- How often an interval admits, after the brace that opens it, and what follows it. -/
def readInterval (d : Dialect) (cs : List Char) : Except PatternFault (Sign × List Char) :=
  let (bounds, rest) := readBounds cs
  let closed : Option (List Char) := match d.extended, rest with
    | true, '\x7d' :: left => some left
    | false, '\\' :: '\x7d' :: left => some left
    | _, _ => none
  match bounds, closed with
  | some (least, most), some left =>
      if most.any (· < least) then .error .badInterval else .ok (.times least most, left)
  | _, some _ => .error .badInterval
  | _, none => .error (if rest.isEmpty then .openInterval else .badInterval)

/-- The signs of a repetition, of which there are none if it counts for nothing. -/
def repetition (d : Dialect) (first : Bool) (c : Char) (rest : List Char) :
    Except PatternFault (List Sign × List Char) :=
  let plain : List Sign × List Char := ([.set (.single d.anyCase c)], rest)
  if first then
    if !d.extended then
      if c = '\x7b' && !d.isLenient then .error .nothingRepeated else .ok plain
    else if d.isLenient then .ok ([], rest)
    else .error .nothingRepeated
  else if c = '*' then .ok ([.times 0 none], rest)
  else if c = '+' then .ok ([.times 1 none], rest)
  else if c = '?' then .ok ([.times 0 (some 1)], rest)
  else match readInterval d rest with
    | .ok (sign, left) => .ok ([sign], left)
    | .error e => if d.extended && d.isLenient && e = .openInterval then .ok plain else .error e

def operatorSigns (d : Dialect) (first : Bool) (c : Char) (rest : List Char) :
    Except PatternFault (List Sign × List Char) :=
  if c = '(' then .ok ([.opens], rest)
  else if c = ')' then .ok ([.closes], rest)
  else if c = '|' then .ok ([.bar], rest)
  else repetition d first c rest

/-- The signs of a character that is no operator. -/
def plainSigns (d : Dialect) (first : Bool) (c : Char) (rest : List Char) :
    Except PatternFault (List Sign × List Char) :=
  if c = '*' then repetition d first c rest
  else if c = '^' ∧ (first || d.extended) then .ok ([.anchor .start], rest)
  else if c = '$' ∧ (d.extended || endsBranch d rest) then .ok ([.anchor .finish], rest)
  else if c = '.' then .ok ([.set .everything], rest)
  else if c = '[' then (readSet d rest).map (fun (s, left) => ([.set s], left))
  else if c = '\\' then
    match rest with
    | e :: left => .ok ([escapedSign d e], left)
    | [] => .error .lastBackslash
  else .ok ([.set (.single d.anyCase c)], rest)

/-- After these signs a branch is as at its beginning. -/
def opensBranch (d : Dialect) (before : Bool) : List Sign → Bool
  | [.opens] => true
  | [.bar] => true
  | [.anchor a] => a = .start || !d.isLenient
  | [] => before
  | _ => false

def signsFrom (d : Dialect) : Nat → Bool → List Char → Except PatternFault (List Sign)
  | 0, _, _ => .ok []
  | _ + 1, _, [] => .ok []
  | fuel + 1, first, c :: cs => do
      let (signs, rest) ← match operator? d (c :: cs) with
        | some (op, rest) => operatorSigns d first op rest
        | none => plainSigns d first c cs
      let more ← signsFrom d fuel (opensBranch d first signs) rest
      .ok (signs ++ more)

/-! ## Groups -/

/-- What is read of a group: its number, the branches before the one at hand, and the items of
that one, last first. -/
structure Nest where
  number : Nat
  branches : Pattern
  items : List Pattern

namespace Nest

def start (number : Nat) : Nest :=
  ⟨number, .never, []⟩

def add (g : Nest) (p : Pattern) : Nest :=
  { g with items := p :: g.items }

def repeated (g : Nest) (least : Nat) (most : Option Nat) : Nest :=
  match g.items with
  | p :: rest => { g with items := p.times least most :: rest }
  | [] => g

def whole (g : Nest) : Pattern :=
  eitherOf g.branches (g.items.foldl (fun p item => seqOf item p) .empty)

/-- The pattern of a group with its number. -/
def numbered (g : Nest) : Pattern :=
  .group g.number g.whole

end Nest

/-- The pattern of some signs inside of groups that are open; `count` groups have begun. -/
def ofSigns (d : Dialect) :
    Nat → List Nest → Nest → List Sign → Except PatternFault Pattern
  | _, [], g, [] => .ok g.whole
  | _, _ :: _, _, [] => .error .openGroup
  | count, outer, g, .set s :: rest => ofSigns d count outer (g.add (.one s)) rest
  | count, outer, g, .times least most :: rest =>
      ofSigns d count outer (g.repeated least most) rest
  | count, outer, g, .opens :: rest =>
      ofSigns d (count + 1) (g :: outer) (.start (count + 1)) rest
  | count, o :: outer, g, .closes :: rest => ofSigns d count outer (o.add g.numbered) rest
  | count, [], g, .closes :: rest =>
      if d.extended && d.isLenient then
        ofSigns d count [] (g.add (.one (.single false ')'))) rest
      else .error .closedGroup
  | count, outer, g, .bar :: rest => ofSigns d count outer ⟨g.number, g.whole, []⟩ rest
  | count, outer, g, .anchor a :: rest => ofSigns d count outer (g.add (.anchor a)) rest
  | count, outer, g, .same n :: rest =>
      if count < n then .error .badReference else ofSigns d count outer (g.add (.same n)) rest

def groupCount : Pattern → Nat
  | .seq a b => max a.groupCount b.groupCount
  | .either a b => max a.groupCount b.groupCount
  | .many a => a.groupCount
  | .group n a => max n a.groupCount
  | _ => 0

def parse (d : Dialect) (cs : List Char) : Except PatternFault Pattern := do
  ofSigns d 0 [] (.start 0) (← signsFrom d cs.length true cs)

end Pattern

end ScanGraph.Shell
