/-
Reading edit scripts.

A step is up to two addresses, a letter, and what the letter asks for: a text
to the end of a line, the name of a file or of a label, or parts between marks.
Steps end with a line, a semicolon, or a brace that closes those before it.
-/
import ScanGraph.Shell.Edit
import ScanGraph.Shell.Format

namespace ScanGraph.Shell

inductive EditFault where
  | unknownCommand (c : Char)
  | missingCommand
  | openPattern
  | openSubstitution
  | openTranslation
  | unknownOption
  | doubledOption (c : Char)
  | zeroOption
  | leftover
  | openBlock
  | closedBlock
  | badReference (n : Nat)
  | noText
  | noFile
  | noLabel
  | noPattern
  | unequalLengths
  | strayComma
  | doubledNegation
  | strayAddress (c : Char)
  | oneAddress
  | lineZero
  | relativeFirst
  | pattern (f : PatternFault)
deriving DecidableEq, Repr

def EditFault.message : EditFault → String
  | unknownCommand c => "unknown command: \x60" ++ c.toString ++ "'"
  | missingCommand => "missing command"
  | openPattern => "unterminated address regex"
  | openSubstitution => "unterminated \x60s' command"
  | openTranslation => "unterminated \x60y' command"
  | unknownOption => "unknown option to \x60s'"
  | doubledOption c => "multiple \x60" ++ c.toString ++ "' options to \x60s' command"
  | zeroOption => "number option to \x60s' command may not be zero"
  | leftover => "extra characters after command"
  | openBlock => "unmatched \x60\x7b'"
  | closedBlock => "unexpected \x60\x7d'"
  | badReference n =>
      "invalid reference \\" ++ Text.decimalText n ++ " on \x60s' command's RHS"
  | noText => "expected \\ after \x60a', \x60c' or \x60i'"
  | noFile => "missing filename in r/R/w/W commands"
  | noLabel => "\":\" lacks a label"
  | noPattern => "no previous regular expression"
  | unequalLengths => "strings for \x60y' command are different lengths"
  | strayComma => "unexpected \x60,'"
  | doubledNegation => "multiple \x60!'s"
  | strayAddress c => c.toString ++ " doesn't want any addresses"
  | oneAddress => "command only uses one address"
  | lineZero => "invalid usage of line address 0"
  | relativeFirst => "invalid usage of +N or ~N as first address"
  | pattern f => f.message

/-- Reading an edit script, of which this is left; a fault comes with what was left then. -/
abbrev EditReading := StateT (List Char) (Except (EditFault × Nat))

namespace EditReading

/-- The script cannot be read. -/
def fail {α : Type} (f : EditFault) : EditReading α := do
  throw (f, (← get).length)

/-- The next character, if there is one, is taken. -/
def char? : EditReading (Option Char) := do
  match ← get with
  | [] => return none
  | c :: rest =>
      set rest
      return some c

/-- A character that is no end of a line but can be passed. -/
def isBlank (c : Char) : Bool :=
  c == ' ' || c == '\t' || c == '\r' || c == '\x0b' || c == '\x0c'

def takeWhile (f : Char → Bool) : EditReading (List Char) := do
  let cs ← get
  set (cs.dropWhile f)
  return cs.takeWhile f

def skipBlanks : EditReading Unit := do
  let _ ← takeWhile isBlank

def number? : EditReading (Option Nat) := do
  let ds ← takeWhile Char.isDigit
  return if ds.isEmpty then none else some (Text.valueOf ds)

/-! ## Parts between marks -/

/-- The part up to a mark, and what follows it; none if there is no mark.  A mark after a backslash
stands for itself, and so does one in a set of a pattern, in which `inSet` counts the characters
from the bracket on. -/
def upToMark (mark : Char) (isPattern : Bool) :
    Option Nat → List Char → Option (List Char × List Char)
  | _, [] => none
  | inSet, '\\' :: c :: rest =>
      let kept : List Char :=
        if c == 'n' && isPattern && inSet.isNone then ['\n']
        else if c == '\n' then (if isPattern then ['\n'] else ['\\', '\n'])
        else if c == mark && (isPattern || c != '&') then [c]
        else ['\\', c]
      (upToMark mark isPattern (inSet.map (· + 2)) rest).map (fun (cs, left) => (kept ++ cs, left))
  | inSet, c :: rest =>
      let go (inSet : Option Nat) : Option (List Char × List Char) :=
        (upToMark mark isPattern inSet rest).map (fun (cs, left) => (c :: cs, left))
      match inSet with
      | none =>
          if c == mark then some ([], rest)
          else go (if isPattern && c == '[' then some 0 else none)
      | some n =>
          if c == ']' && n != 0 then go none
          else go (some (if c == '^' && n == 0 then 0 else n + 1))

def part (mark : Char) (isPattern : Bool) (f : EditFault) : EditReading (List Char) := do
  match upToMark mark isPattern none (← get) with
  | some (cs, left) =>
      set left
      return cs
  | none =>
      set ([] : List Char)
      fail f

/-! ## Escapes -/

def valueIn (base : Nat) (ds : List Char) : Nat :=
  ds.foldl (fun n d => base * n + (Text.hexValue? d).getD 0) 0

/-- The character of a numeric escape after its letter, and what follows it. -/
def numericEscape? (c : Char) (rest : List Char) : Option (Char × List Char) :=
  let read (base length : Nat) : Option (Char × List Char) :=
    let ds := (rest.take length).takeWhile (fun d => (Text.hexValue? d).any (· < base))
    if ds.isEmpty then none
    else some (Char.ofNat (valueIn base ds % 256), rest.drop ds.length)
  match c with
  | 'd' => read 10 3
  | 'o' => read 8 3
  | 'x' => read 16 2
  | 'c' => match rest with
      | k :: left => some (Char.ofNat (k.toUpper.toNat ^^^ 64), left)
      | [] => none
  | 'a' => some ('\x07', rest)
  | 'f' => some ('\x0c', rest)
  | 'n' => some ('\n', rest)
  | 'r' => some ('\r', rest)
  | 't' => some ('\t', rest)
  | 'v' => some ('\x0b', rest)
  | _ => none

/-- A text whose escapes stand for characters; other characters after a backslash keep it, and so
do those that would mean something else. -/
def withEscapes (special : List Char) : Nat → List Char → List Char
  | 0, cs => cs
  | fuel + 1, cs =>
      match cs with
      | '\\' :: c :: rest =>
          match numericEscape? c rest with
          | some (e, left) =>
              (if special.contains e then ['\\', e] else [e]) ++ withEscapes special fuel left
          | none => '\\' :: c :: withEscapes special fuel rest
      | c :: rest => c :: withEscapes special fuel rest
      | [] => []

/-- The pattern of a part; none if the part is empty. -/
def patternOf (isExtended anyCase : Bool) (cs : List Char) : EditReading (Option Pattern) := do
  if cs.isEmpty then return none
  let cs := withEscapes ("\\^$.*[]()+?|\x7b\x7d/&".toList) cs.length cs
  match Pattern.parse ⟨isExtended, anyCase, false⟩ cs with
  | .ok p => return some p
  | .error f => fail (.pattern f)

/-- The parts of what takes the place of a match. -/
def substitutes : Nat → List Char → List Substitute
  | 0, _ => []
  | _, [] => []
  | fuel + 1, '&' :: rest => .group 0 :: substitutes fuel rest
  | fuel + 1, '\\' :: c :: rest =>
      if c.isDigit then .group (Text.digitValue c) :: substitutes fuel rest
      else match c with
        | 'U' => .change .upper :: substitutes fuel rest
        | 'L' => .change .lower :: substitutes fuel rest
        | 'u' => .change .upperOnce :: substitutes fuel rest
        | 'l' => .change .lowerOnce :: substitutes fuel rest
        | 'E' => .change .none :: substitutes fuel rest
        | _ =>
            match numericEscape? c rest with
            | some (e, left) => .char e :: substitutes fuel left
            | none => .char c :: substitutes fuel rest
  | fuel + 1, c :: rest => .char c :: substitutes fuel rest

/-! ## Ends of steps -/

def endStep : EditReading Unit := do
  skipBlanks
  match ← get with
  | [] => return ()
  | '\n' :: rest => set rest
  | ';' :: rest => set rest
  | '\x7d' :: _ => return ()
  | '#' :: _ => return ()
  | _ :: rest =>
      set rest
      fail .leftover

def restOfLine : EditReading (List Char) := do
  let cs ← takeWhile (· != '\n')
  set ((← get).drop 1)
  return cs

def fileName : EditReading String := do
  skipBlanks
  let cs ← restOfLine
  if cs.isEmpty then fail .noFile
  return String.ofList cs

def labelName : EditReading String := do
  skipBlanks
  let cs ← takeWhile (fun c => !isBlank c && c != '\n' && c != ';' && c != '\x7d')
  endStep
  return String.ofList cs

/-- A text up to the end of a line that no backslash precedes, and what follows it. -/
def textFrom : Nat → List Char → List Char × List Char
  | 0, cs => ([], cs)
  | _, [] => ([], [])
  | _, '\n' :: rest => ([], rest)
  | fuel + 1, '\\' :: c :: rest =>
      let (e, left) : Char × List Char := match numericEscape? c rest with
        | some r => r
        | none => (c, rest)
      let (more, left) := textFrom fuel left
      (e :: more, left)
  | _, ['\\'] => ([], [])
  | fuel + 1, c :: rest =>
      let (more, left) := textFrom fuel rest
      (c :: more, left)

/-- The text of a step, with the end of its last line. -/
def text : EditReading (List Char) := do
  skipBlanks
  match ← get with
  | [] => fail .noText
  | cs =>
      let (cs, isSkipped) : List Char × Bool := match cs with
        | '\\' :: rest =>
            match rest.dropWhile isBlank with
            | '\n' :: left => (left, true)
            | [] => ([], true)
            | _ => (rest, false)
        | _ => (cs, false)
      let (t, left) := textFrom (cs.length + 1) cs
      set left
      return if isSkipped && cs.isEmpty then [] else t ++ ['\n']

/-! ## Addresses -/

/-- A pattern between marks, with the letters after it. -/
def addressPattern (isExtended : Bool) (mark : Char) : EditReading EditAddress := do
  let cs ← part mark true .openPattern
  let flags ← takeWhile (fun c => c == 'I' || c == 'M')
  return .fits (← patternOf isExtended (flags.contains 'I') cs)

def address? (isExtended : Bool) : EditReading (Option EditAddress) := do
  match ← get with
  | '/' :: rest =>
      set rest
      return some (← addressPattern isExtended '/')
  | '\\' :: mark :: rest =>
      set rest
      return some (← addressPattern isExtended mark)
  | '$' :: rest =>
      set rest
      return some .last
  | _ =>
      match ← number? with
      | none => return none
      | some n =>
          skipBlanks
          match ← get with
          | '~' :: rest =>
              set rest
              return some (.stepwise n ((← number?).getD 0))
          | _ => return some (.line n)

def rangeEnd (isExtended : Bool) : EditReading EditEnd := do
  skipBlanks
  match ← get with
  | '+' :: rest =>
      set rest
      return .more ((← number?).getD 0)
  | '~' :: rest =>
      set rest
      return .multiple ((← number?).getD 0)
  | _ =>
      match ← address? isExtended with
      | some a => return .address a
      | none => do
          let _ ← char?
          fail .strayComma

def range (isExtended : Bool) : EditReading EditRange := do
  if ['+', '~'].contains ((← get).headD ' ') then
    let _ ← char?
    let _ ← char?
    fail .relativeFirst
  let first ← address? isExtended
  skipBlanks
  let last ← match first, ← get with
    | some _, ',' :: rest => do
        set rest
        pure (some (← rangeEnd isExtended))
    | _, _ => pure none
  match first, last with
  | some (.line 0), some (.address (.fits _)) => pure ()
  | some (.line 0), _ => do
      let _ ← char?
      fail .lineZero
  | _, _ => pure ()
  skipBlanks
  match ← get with
  | '!' :: rest => do
      set rest
      skipBlanks
      match ← get with
      | '!' :: rest =>
          set rest
          fail .doubledNegation
      | _ => return ⟨first, last, true⟩
  | _ => return ⟨first, last, false⟩

/-! ## Steps -/

structure SubstitutionFlags where
  isGlobal : Bool
  prints : Bool
  anyCase : Bool
  nth : Option Nat
  file : Option String

/-- The letters after a substitution, at most `fuel`. -/
def flags : Nat → SubstitutionFlags → EditReading SubstitutionFlags
  | 0, f => return f
  | fuel + 1, f => do
      match ← get with
      | [] => return f
      | c :: rest =>
          if c == '\x7d' || c == '#' then return f
          set rest
          match c with
          | '\n' => return f
          | ';' => return f
          | 'g' => if f.isGlobal then fail (.doubledOption 'g')
                   else flags fuel { f with isGlobal := true }
          | 'p' => if f.prints then fail (.doubledOption 'p')
                   else flags fuel { f with prints := true }
          | 'i' => flags fuel { f with anyCase := true }
          | 'I' => flags fuel { f with anyCase := true }
          | 'm' => flags fuel f
          | 'M' => flags fuel f
          | 'w' => return { f with file := some (← fileName) }
          | _ =>
              if isBlank c then flags fuel f
              else if c.isDigit then
                let more ← takeWhile Char.isDigit
                let n := Text.valueOf (c :: more)
                if n = 0 then fail .zeroOption else flags fuel { f with nth := some n }
              else fail .unknownOption

def greatestGroup (ps : List Substitute) : Nat :=
  ps.foldl (fun n p => match p with
    | .group k => max n k
    | _ => n) 0

def substitution (isExtended : Bool) : EditReading Substitution := do
  let some mark ← char? | fail .openSubstitution
  let cs ← part mark true .openSubstitution
  let r ← part mark false .openSubstitution
  let f ← flags ((← get).length + 1) ⟨false, false, false, none, none⟩
  let pattern ← patternOf isExtended f.anyCase cs
  let parts := substitutes (r.length + 1) r
  let group := greatestGroup parts
  if pattern.any (fun p => decide (p.groupCount < group)) then fail (.badReference group)
  return ⟨pattern, parts, f.nth.getD 1, f.isGlobal, f.prints, f.file⟩

/-- The characters of a part of a translation. -/
def translated : List Char → List Char
  | '\\' :: c :: rest => (match c with
      | '\\' => ['\\']
      | 'n' => ['\n']
      | 't' => ['\t']
      | '\n' => ['\n']
      | _ => ['\\', c]) ++ translated rest
  | c :: rest => c :: translated rest
  | [] => []

def translation : EditReading EditAction := do
  let some mark ← char? | fail .openTranslation
  let old ← part mark false .openTranslation
  let new ← part mark false .openTranslation
  let (a, b) := (translated old, translated new)
  if a.length != b.length then fail .unequalLengths
  endStep
  return .translate (a.zip b)

/-- An action without anything after its letter. -/
def alone (a : EditAction) : EditReading EditAction := do
  endStep
  return a

/-- The action of a letter, for some lines. -/
def action (isExtended : Bool) (r : EditRange) (c : Char) : EditReading EditAction := do
  let single : EditReading Unit := if r.last.isSome then fail .oneAddress else return ()
  match c with
  | '\x7b' => return .opens
  | '\x7d' => if r.first.isSome then fail (.strayAddress c) else alone .closes
  | ':' => do
      if r.first.isSome then fail (.strayAddress c)
      skipBlanks
      let name ← takeWhile (fun c => !isBlank c && c != '\n' && c != ';')
      if name.isEmpty then fail .noLabel
      alone (.label (String.ofList name))
  | '=' => alone .number
  | 'a' => return .append (← text)
  | 'i' => return .insert (← text)
  | 'c' => return .replaceAll (← text)
  | 'b' => return .branch (← labelName)
  | 't' => return .branchIfDone (← labelName)
  | 'T' => return .branchIfNot (← labelName)
  | 'd' => alone .delete
  | 'D' => alone .deleteFirst
  | 'g' => alone (.getHeld false)
  | 'G' => alone (.getHeld true)
  | 'h' => alone (.hold false)
  | 'H' => alone (.hold true)
  | 'x' => alone .exchange
  | 'l' => do
      skipBlanks
      alone (.list (← number?))
  | 'n' => alone .next
  | 'N' => alone .nextAppend
  | 'p' => alone .print
  | 'P' => alone .printFirst
  | 'q' => do
      single
      skipBlanks
      alone (.quit ((← number?).getD 0) true)
  | 'Q' => do
      single
      skipBlanks
      alone (.quit ((← number?).getD 0) false)
  | 'r' => return .readFile (← fileName)
  | 'w' => return .writeFile (← fileName) false
  | 'W' => return .writeFile (← fileName) true
  | 's' => return .substitute (← substitution isExtended)
  | 'y' => translation
  | 'z' => alone .clear
  | _ => fail (.unknownCommand c)

/-- The steps of a script, at most `fuel`, of which `depth` blocks are open. -/
def steps (isExtended : Bool) : Nat → Nat → EditReading (List EditStep)
  | 0, _ => return []
  | fuel + 1, depth => do
      let _ ← takeWhile (fun c => isBlank c || c == '\n' || c == ';')
      match ← get with
      | [] => if depth = 0 then return [] else throw (.openBlock, 0)
      | '#' :: _ => do
          let _ ← restOfLine
          steps isExtended fuel depth
      | _ =>
          let r ← range isExtended
          match ← char? with
          | none => fail .missingCommand
          | some '\n' => fail .missingCommand
          | some c =>
              if c == '\x7d' && depth = 0 then fail .closedBlock
              let a ← action isExtended r c
              let depth := match a with
                | .opens => depth + 1
                | .closes => depth - 1
                | _ => depth
              return ⟨r, a⟩ :: (← steps isExtended fuel depth)

end EditReading

/-- Why an edit script cannot be run: what is wrong with it, in which of its pieces, and after how
many characters; or a label that stands nowhere. -/
inductive EditError where
  | fault (f : EditFault) (piece char : Nat)
  | label (name : String)
deriving DecidableEq, Repr

/-- What is said of an edit script that cannot be run. -/
def EditError.message : EditError → String
  | fault f piece char => "-e expression #" ++ Text.decimalText piece ++ ", char "
      ++ Text.decimalText char ++ ": " ++ f.message
  | label name => "can't find label for jump to \x60" ++ name ++ "'"

namespace EditStep

/-- The piece of a script that a position lies in, and the position in it. -/
def pieceAt : Nat → Nat → List String → Nat × Nat
  | k, n, p :: q :: rest =>
      if n ≤ p.length then (k, n) else pieceAt (k + 1) (n - p.length - 1) (q :: rest)
  | k, n, _ => (k, n)

def goal? (s : EditStep) : Option String :=
  match s.action with
  | .branch n => some n
  | .branchIfDone n => some n
  | .branchIfNot n => some n
  | _ => none

/-- The step uses the pattern that was used last. -/
def usesLast (s : EditStep) : Bool :=
  let inAddress (a : EditAddress) : Bool := a == .fits none
  s.range.first.any inAddress || s.range.last.any (fun e => e == .address (.fits none))
    || (match s.action with
      | .substitute t => t.pattern.isNone
      | _ => false)

def hasPattern (s : EditStep) : Bool :=
  let inAddress (a : EditAddress) : Bool := match a with
    | .fits (some _) => true
    | _ => false
  s.range.first.any inAddress
    || s.range.last.any (fun e => match e with
      | .address a => inAddress a
      | _ => false)
    || (match s.action with
      | .substitute t => t.pattern.isSome
      | _ => false)

def parse (isExtended : Bool) (pieces : List String) : Except EditError (List EditStep) :=
  let cs := "\n".toList.intercalate (pieces.map String.toList)
  match (EditReading.steps isExtended (cs.length + 2) 0).run cs with
  | .error (.openBlock, _) => .error (.fault .openBlock 1 0)
  | .error (f, left) =>
      let (k, n) := pieceAt 1 (cs.length - left) pieces
      .error (.fault f k n)
  | .ok (steps, _) =>
      let labels := steps.filterMap (fun s => match s.action with
        | .label n => some n
        | _ => none)
      match (steps.filterMap goal?).find? (fun n => !n.isEmpty && !labels.contains n) with
      | some n => .error (.label n)
      | none =>
          if steps.any usesLast && !steps.any hasPattern then .error (.fault .noPattern 1 0)
          else .ok steps

end EditStep

end ScanGraph.Shell
