/-
Searching texts: `grep`.

Of each text the lines are chosen that match one of the patterns, or those that
match none.  Shown are these lines, or the parts of them that match, or lines
around them, or how many they are, or only the names of texts that hold one.
-/
import ScanGraph.Shell.Pattern.Reader
import ScanGraph.Shell.Utility

namespace ScanGraph.Shell.Utility

structure Search where
  pattern : Pattern
  options : Options
  /-- The name of the text stands in front of each line. -/
  isNamed : Bool
  most : Option Nat
  before : Nat
  after : Nat

/-- A line of a text that is searched: its number, how many octets stand before it, and whether it
is chosen. -/
structure SearchLine where
  number : Nat
  offset : Nat
  text : List Char
  isChosen : Bool

namespace Search

def chooses (s : Search) (l : List Char) : Bool :=
  s.pattern.matchesIn l != s.options.has 'v'

/-- What stands in front of a line or a part of it: the name of its text, its number and its
offset, each with a mark. -/
def front (s : Search) (name : String) (number offset : Nat) (mark : Char) : List Char :=
  (if s.isNamed then name.toList ++ [mark] else [])
    ++ (if s.options.has 'n' then Text.decimal number ++ [mark] else [])
    ++ (if s.options.has 'b' then Text.decimal offset ++ [mark] else [])

/-- Lines from a number and an offset on; after as many chosen ones as are asked for no other is
chosen. -/
def marked (s : Search) : Option Nat → Nat → Nat → List (List Char) → List SearchLine
  | _, _, _, [] => []
  | most, n, offset, l :: rest =>
      let chosen := most != some 0 && s.chooses l
      ⟨n, offset, l, chosen⟩
        :: s.marked (if chosen then most.map (· - 1) else most) (n + 1) (offset + l.length + 1) rest

/-- The lines to show: those chosen and those around them, with a mark of the gaps between groups
of lines; `last` is the number of the line shown last. -/
def shownFrom (s : Search) (name : String) (chosen : List Nat) :
    Option Nat → List SearchLine → List Char
  | _, [] => []
  | last, l :: rest =>
      let isNear := chosen.any
        (fun k => decide (k ≤ l.number + s.before) && decide (l.number ≤ k + s.after))
      if !isNear then s.shownFrom name chosen last rest
      else
        let gap := (s.before + s.after > 0) && last.any (fun k => k + 1 < l.number)
        (if gap then ['-', '-', '\n'] else [])
          ++ s.front name l.number l.offset (if l.isChosen then ':' else '-') ++ l.text ++ '\n'
          :: s.shownFrom name chosen (some l.number) rest

/-- The parts of lines that match, each on a line of its own. -/
def parts (s : Search) (name : String) (lines : List SearchLine) : List Char :=
  if s.options.has 'v' then []
  else (lines.filter SearchLine.isChosen).flatMap (fun l =>
    (s.pattern.found l.text).flatMap (fun (place, m) =>
      s.front name l.number (l.offset + place) ':' ++ m ++ ['\n']))

/-- What is shown of a text, and whether a line of it is chosen. -/
def ofText (s : Search) (name : String) (text : List Char) : List Char × Bool :=
  let lines := s.marked s.most 1 0 (textLines text)
  let chosen := (lines.filter SearchLine.isChosen).map SearchLine.number
  let isFound := !chosen.isEmpty
  let o := s.options
  let named (out : List Char) : List Char :=
    if s.isNamed then name.toList ++ ':' :: out else out
  let out : List Char :=
    if o.has 'q' then []
    else if o.has 'l' then (if isFound then name.toList ++ ['\n'] else [])
    else if o.has 'L' then (if isFound then [] else name.toList ++ ['\n'])
    else if o.has 'c' then named (Text.decimal chosen.length ++ ['\n'])
    else if o.has 'o' then s.parts name lines
    else s.shownFrom name chosen none lines
  (out, isFound)

end Search

def searchRules : OptionRules :=
  ⟨"EFGPivcnoqsxwlLhHaybrRUzTI", "efmABC", [("regexp", 'e'), ("file", 'f'), ("ignore-case", 'i'),
    ("invert-match", 'v'), ("count", 'c'), ("line-number", 'n'), ("only-matching", 'o'),
    ("quiet", 'q'), ("silent", 'q'), ("no-messages", 's'), ("line-regexp", 'x'),
    ("word-regexp", 'w'), ("files-with-matches", 'l'), ("files-without-match", 'L'),
    ("no-filename", 'h'), ("with-filename", 'H'), ("max-count", 'm'), ("after-context", 'A'),
    ("before-context", 'B'), ("context", 'C'), ("extended-regexp", 'E'), ("fixed-strings", 'F'),
    ("basic-regexp", 'G'), ("text", 'a'), ("color", '$'), ("colour", '$')], false⟩

def searchUsage : String :=
  "Usage: grep [OPTION]... PATTERNS [FILE]...\nTry 'grep --help' for more information.\n"

def patternOf (o : Options) (isExtended isFixed : Bool) (texts : List String) :
    Except PatternFault Pattern := do
  let anyCase := o.has 'i' || o.has 'y'
  let lines := texts.flatMap (fun t => t.toList.splitOn '\n')
  let ps ← lines.mapM (fun l =>
    if isFixed then .ok (Pattern.literal anyCase l)
    else Pattern.parse ⟨isExtended, anyCase, true⟩ l)
  let p := ps.foldr Pattern.eitherOf .never
  .ok (if o.has 'x' then p.whole else if o.has 'w' then p.wholeWord else p)

/-- The search over the texts under some names. -/
def searchAll (c : Call) (s : Search) (names : List String) : Reply :=
  let shownName (n : String) : String := if n == "-" then "(standard input)" else n
  let all := names.map (fun n => (n, (c.read n).map (s.ofText (shownName n))))
  let isFound := all.any (fun (_, r) => match r with
    | .ok (_, b) => b
    | .error _ => false)
  let isFaulty := all.any (fun (_, r) => !r.isOk)
  let writes := all.map (fun (n, r) => match r with
    | .ok (out, _) => (1, out)
    | .error f => (2, if s.options.has 's' then [] else c.complaint (Call.plainly n f)))
  let status := if isFound && (s.options.has 'q' || !isFaulty) then 0
    else if isFaulty then 2 else 1
  { c.quiet status with writes, rest := if names.any Call.isInput then [] else c.input }

/-- The search that a kind of `grep` makes; `always` says how its patterns are written. -/
def searching (always : Option Char) : Utility := fun c =>
  match Options.parse searchRules (Options.respelled searchRules spelled false c.args) with
  | .error e =>
      { c.quiet 2 with writes := [(2, c.complaint e.message ++ searchUsage.toList)] }
  | .ok o =>
      let fromFiles := (o.values 'f').map (fun f => (c.read f).map (fun cs =>
        String.ofList (if endsOpen cs then cs else cs.dropLast)))
      let given := o.values 'e' ++ fromFiles.filterMap Except.toOption
      let isGiven := o.has 'e' || o.has 'f'
      match isGiven, o.operands with
      | false, [] => { c.quiet 2 with writes := [(2, searchUsage.toList)] }
      | _, operands =>
          let patterns := if isGiven then given else operands.take 1
          let names := if isGiven then operands else operands.drop 1
          let names := if names.isEmpty then ["-"] else names
          let kind := ((o.given.reverse.find? (fun g => "EFGP".toList.contains g.1)).map
            Prod.fst).or always
          match patternOf o (kind == some 'E' || kind == some 'P') (kind == some 'F') patterns with
          | .error f => c.refuse f.message 2
          | .ok pattern =>
              let number (l : Char) : Option Nat :=
                ((o.given.reverse.find? (fun g => g.1 == l)).bind
                  (fun g => Text.natural? g.2.toList))
              let around := (number 'C').getD 0
              let isNamed := (names.length > 1 && !o.has 'h') || o.has 'H'
              searchAll c ⟨pattern, o, isNamed, number 'm', (number 'B').getD around,
                (number 'A').getD around⟩ names
where
  /-- A number alone stands for that many lines around. -/
  spelled (a : String) : String :=
    match a.toList with
    | '-' :: d :: rest =>
        if d.isDigit && rest.all Char.isDigit then "-C" ++ String.ofList (d :: rest) else a
    | _ => a

/-- The lines of texts that match a pattern. -/
def grep : Utility := searching none

/-- The lines of texts that match an extended pattern. -/
def egrep : Utility := searching (some 'E')

def fgrep : Utility := searching (some 'F')

end ScanGraph.Shell.Utility
