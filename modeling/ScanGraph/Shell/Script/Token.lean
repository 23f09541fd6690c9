/-
Tokens of scripts: words, operators and redirections.

A word ends at a blank or an operator outside of quotes.  Between double quotes
a dollar sign and a backquote keep their meaning, and a backslash takes it away
from them; between single quotes nothing has one.  The output of commands holds
a script, so reading a word may mean to read a list of commands: `Nested` is
how that is done.
-/
import ScanGraph.Shell.Script
import ScanGraph.Text.Digits

namespace ScanGraph.Shell

inductive Token where
  | finish
  | newline
  | next
  | ampersand
  | andThen
  | orElse
  | bar
  | opens
  | closes
  | endCase
  | redirect (stream : Nat) (operator : String)
  | word (w : Word)
  | keyword (k : String)

namespace Token

def name : Token → String
  | finish => "end of file"
  | newline => "newline"
  | next => "\";\""
  | ampersand => "\"&\""
  | andThen => "\"&&\""
  | orElse => "\"||\""
  | bar => "\"|\""
  | opens => "\"(\""
  | closes => "\")\""
  | endCase => "\";;\""
  | redirect _ _ => "redirection"
  | word _ => "word"
  | keyword k => "\"" ++ k ++ "\""

/-- The words that have a meaning of their own where a command begins. -/
def keywords : List String :=
  ["!", "case", "do", "done", "elif", "else", "esac", "fi", "for", "if", "in", "then", "until",
   "while", "\x7b", "\x7d"]

def asKeyword (t : Token) : Token :=
  match t with
  | word w =>
      match Word.bare? w with
      | some text => if keywords.contains text then keyword text else t
      | none => t
  | _ => t

/-- A list of commands ends before this token. -/
def endsList : Token → Bool
  | finish => true
  | closes => true
  | endCase => true
  | keyword k => ["do", "done", "elif", "else", "esac", "fi", "then", "\x7d"].contains k
  | _ => false

end Token

/-! ## The state of reading -/

/-- A document whose text comes after the line at hand. -/
structure Announced where
  number : Nat
  mark : String
  stripsTabs : Bool
  isLiteral : Bool

/-- The documents of scripts by their numbers. -/
abbrev Documents := List (Nat × Word)

/-- What is left of a script, and what is known of what was read. -/
structure Source where
  rest : List Char
  line : Nat
  /-- A token that was read and given back. -/
  held : Option Token
  announced : List Announced
  documents : Documents
  /-- The number of the next document. -/
  nextDocument : Nat

/-- A script of which nothing is read; `documents` are numbered from `nextDocument` on. -/
def Source.start (text : String) (nextDocument : Nat) : Source :=
  ⟨text.toList, 1, none, [], [], nextDocument⟩

/-- Reading a part of a script; a fault is reported for the line at which it was found. -/
abbrev Reading := StateT Source (Except (ScriptFault × Nat))

namespace Reading

/-- The script cannot be read. -/
def fail {α : Type} (f : ScriptFault) : Reading α := do
  throw (f, (← get).line)

def rest : Reading (List Char) := do
  return (← get).rest

/-- Some characters are taken, of which what is given is left. -/
def goOn (left : List Char) : Reading Unit :=
  modify (fun s =>
    let taken := s.rest.take (s.rest.length - left.length)
    { s with rest := left, line := s.line + taken.count '\n' })

/-- Something read from another text; the script goes on where it was. -/
def within {α : Type} (text : List Char) (r : Reading α) : Reading α := do
  let before ← get
  set { before with rest := text, held := none, announced := [] }
  let a ← r
  modify (fun s => { before with documents := s.documents, nextDocument := s.nextDocument })
  return a

end Reading

/-- How lists of commands, and single ones, are read inside of something else. -/
structure Nested where
  /-- A list that may be empty. -/
  list : Reading Command
  /-- A list of at least one command. -/
  filled : Reading Command
  command : Reading Command

/-! ## Words -/

inductive Scope where
  | word
  | quotes
  | braces (isQuoted : Bool)
  /-- A sum, in which so many parentheses are open. -/
  | sum (depth : Nat)
  | document
deriving DecidableEq, Repr

def Scope.isQuoted : Scope → Bool
  | word => false
  | braces q => q
  | _ => true

namespace Reading

/-- The pieces read so far, the last one first, and the last character of each first. -/
abbrev Pieces := List Piece

def withChar (acc : Pieces) (c : Char) (isQuoted : Bool) : Pieces :=
  match acc with
  | .literal text q :: rest =>
      if q = isQuoted then .literal (c :: text) q :: rest else .literal [c] isQuoted :: acc
  | _ => .literal [c] isQuoted :: acc

def inOrder (acc : Pieces) : List Piece :=
  acc.reverse.map (fun
    | .literal text q => .literal text.reverse q
    | p => p)

def endsWord (c : Char) : Bool :=
  [' ', '\t', '\n', '|', '&', ';', '<', '>', '(', ')'].contains c

/-- What a script between backquotes spells, and what follows it: a backslash is taken away before
a backslash, a backquote and a dollar sign, and between double quotes before one of these. -/
def backquoted (isQuoted : Bool) : List Char → Option (List Char × List Char)
  | [] => none
  | '\x60' :: rest => some ([], rest)
  | '\\' :: c :: rest =>
      let kept := if ['\\', '\x60', '$'].contains c || (isQuoted && c == '"') then [c]
        else ['\\', c]
      (backquoted isQuoted rest).map (fun (cs, left) => (kept ++ cs, left))
  | c :: rest => (backquoted isQuoted rest).map (fun (cs, left) => (c :: cs, left))

/-- The name of the parameter after a brace, whether its length is asked for, and what follows. -/
def bracedName? (cs : List Char) : Option (String × Bool × List Char) :=
  let named (cs : List Char) : Option (String × List Char) := match cs with
    | c :: rest =>
        if isNameStart c then
          some (String.ofList (cs.takeWhile isNameChar), cs.dropWhile isNameChar)
        else if c.isDigit then
          some (String.ofList (cs.takeWhile Char.isDigit), cs.dropWhile Char.isDigit)
        else if isSign c then some (c.toString, rest)
        else none
    | [] => none
  match cs with
  | '#' :: c :: rest =>
      if isNameChar c then (named (c :: rest)).map (fun (name, left) => (name, true, left))
      else if c = '\x7d' ∨ rest.head? ≠ some '\x7d' then some ("#", false, c :: rest)
      else if isSign c then some (c.toString, true, rest)
      else none
  | _ => (named cs).map (fun (name, left) => (name, false, left))

def fallbackOf? (c : Char) : Option Fallback :=
  match c with
  | '-' => some .instead
  | '=' => some .assigned
  | '?' => some .refused
  | '+' => some .present
  | _ => none

/-- What follows the name of a parameter: a change without a word, or one that takes a word, read
as pieces of a scope. -/
inductive Ending where
  | closed (change : Change) (left : List Char)
  | opened (scope : Scope) (change : List Piece → Option Change) (left : List Char)

/-- The ending of a parameter between braces, in a scope that is quoted or not. -/
def endingOf (isQuoted : Bool) (cs : List Char) : Ending :=
  let inside (change : List Piece → Option Change) (left : List Char) : Ending :=
    .opened (.braces isQuoted) change left
  let falls (f : Fallback) (evenIfEmpty : Bool) (left : List Char) : Ending :=
    inside (fun w => some (.fallback f evenIfEmpty w)) left
  let trims (t : Trim) (left : List Char) : Ending :=
    .opened (.braces false) (fun w => some (.trim t w)) left
  let bad (left : List Char) : Ending := inside (fun _ => none) left
  match cs with
  | '\x7d' :: left => .closed .plain left
  | ':' :: '\x7d' :: left => .closed .plain left
  | ':' :: c :: left =>
      match fallbackOf? c with
      | some f => falls f true left
      | none => bad left
  | '%' :: '%' :: left => trims ⟨true, true⟩ left
  | '%' :: left => trims ⟨true, false⟩ left
  | '#' :: '#' :: left => trims ⟨false, true⟩ left
  | '#' :: left => trims ⟨false, false⟩ left
  | c :: left =>
      match fallbackOf? c with
      | some f => falls f false left
      | none => bad (c :: left)
  | [] => bad []

/-- The parameter between braces, of which the first is passed. -/
def bracedPiece (inner : Scope → Reading (List Piece)) (isQuoted : Bool) : Reading Piece := do
  let bad : Reading Piece := do
    let _ ← inner (.braces isQuoted)
    return .unreadable
  match bracedName? (← rest) with
  | none => bad
  | some (name, true, '\x7d' :: left) =>
      goOn left
      return .parameter name .length isQuoted
  | some (_, true, left) =>
      goOn left
      bad
  | some (name, false, left) =>
      match endingOf isQuoted left with
      | .closed change left =>
          goOn left
          return .parameter name change isQuoted
      | .opened scope change left =>
          goOn left
          match change (← inner scope) with
          | some change => return .parameter name change isQuoted
          | none => return .unreadable

/-- The script inside of something else, up to the parenthesis that closes it; a token given back
before is kept. -/
def outputBody (n : Nested) : Reading Command := do
  let before ← get
  set { before with held := none, announced := [] }
  let body ← n.list
  let s ← get
  let left ← match s.held with
    | some .closes => pure s.rest
    | some t => fail (.unexpected t.name (some "\")\""))
    | none => fail .openOutput
  set { s with rest := left, held := before.held, announced := before.announced }
  return body

/-- The piece after a dollar sign; none if it stands for itself. -/
def dollarPiece (n : Nested) (inner : Scope → Reading (List Piece)) (isQuoted : Bool) :
    Reading (Option Piece) := do
  match ← rest with
  | '(' :: '(' :: left =>
      goOn left
      return some (.sum (← inner (.sum 0)) isQuoted)
  | '(' :: left =>
      goOn left
      return some (.output (← outputBody n) isQuoted)
  | '\x7b' :: left =>
      goOn left
      return some (← bracedPiece inner isQuoted)
  | c :: left =>
      if isNameStart c then
        goOn (left.dropWhile isNameChar)
        return some (.parameter (String.ofList (c :: left.takeWhile isNameChar)) .plain isQuoted)
      else if c.isDigit || isSign c then
        goOn left
        return some (.parameter c.toString .plain isQuoted)
      else return none
  | [] => return none

def backquotePiece (n : Nested) (isQuoted : Bool) : Reading Piece := do
  match backquoted isQuoted (← rest) with
  | none => fail .openOutput
  | some (text, left) =>
      let body ← within text n.list
      goOn left
      return .output body isQuoted

/-- The end of a script inside of a scope. -/
def atFinish (scope : Scope) (acc : Pieces) : Reading (List Piece) :=
  match scope with
  | .word => return inOrder acc
  | .document => return inOrder acc
  | .quotes => fail .openQuote
  | .braces true => fail .openQuote
  | .braces false => fail .openBrace
  | .sum _ => fail .openSum

/-- A backslash between double quotes takes the meaning of this character away. -/
def isEscapable (scope : Scope) (c : Char) : Bool :=
  ['$', '\x60', '\\'].contains c || (c == '"' && scope != .document)
    || (c == '\x7d' && scope == .braces true)

/-- All arguments and nothing else, which may be no word at all between quotes. -/
def isAllArguments : List Piece → Bool
  | [.parameter "@" .plain _] => true
  | _ => false

/-- The pieces of a scope, at most `fuel` characters. -/
def pieces (n : Nested) : Nat → Scope → Pieces → Reading (List Piece)
  | 0, _, _ => fail .openQuote
  | fuel + 1, scope, acc => do
      let q := scope.isQuoted
      let inner (s : Scope) : Reading (List Piece) := pieces n fuel s []
      match ← rest with
      | [] => atFinish scope acc
      | '\\' :: '\n' :: left =>
          goOn left
          pieces n fuel scope acc
      | '\\' :: c :: left =>
          if !q || isEscapable scope c then
            goOn left
            pieces n fuel scope (withChar acc c true)
          else
            goOn (c :: left)
            pieces n fuel scope (withChar acc '\\' true)
      | '$' :: left =>
          goOn left
          match ← dollarPiece n inner q with
          | some p => pieces n fuel scope (p :: acc)
          | none => pieces n fuel scope (withChar acc '$' q)
      | '\x60' :: left =>
          goOn left
          let p ← backquotePiece n q
          pieces n fuel scope (p :: acc)
      | c :: left =>
          let plain (scope : Scope) : Reading (List Piece) := do
            goOn left
            pieces n fuel scope (withChar acc c q)
          match scope with
          | .quotes =>
              if c == '"' then
                goOn left
                return inOrder acc
              else plain scope
          | .document => plain scope
          | .sum depth =>
              if c == '(' then plain (.sum (depth + 1))
              else if c == ')' && depth != 0 then plain (.sum (depth - 1))
              else if c == ')' && left.head? == some ')' then
                goOn left.tail
                return inOrder acc
              else plain scope
          | .braces true =>
              if c == '\x7d' then
                goOn left
                return inOrder acc
              else if c == '"' then
                goOn left
                pieces n fuel scope acc
              else plain scope
          | _ =>
              if c == '\'' then
                let text := left.takeWhile (· != '\'')
                goOn (left.drop text.length)
                match ← rest with
                | [] => fail .openQuote
                | _ :: left =>
                    goOn left
                    pieces n fuel scope (.literal text.reverse true :: acc)
              else if c == '"' then
                goOn left
                let quoted := (← inner .quotes).map (fun
                  | .literal text q => Piece.literal text.reverse q
                  | p => p)
                let opened := if isAllArguments quoted then acc else .literal [] true :: acc
                pieces n fuel scope (quoted.reverse ++ opened)
              else if scope == .word && endsWord c then return inOrder acc
              else if scope != .word && c == '\x7d' then
                goOn left
                return inOrder acc
              else plain scope

/-- The word at the beginning of what is left. -/
def readWord (n : Nested) : Reading Word := do
  pieces n ((← rest).length + 1) .word []

def documentWord (n : Nested) (isLiteral : Bool) (text : List Char) : Reading Word :=
  if isLiteral then return [.literal text true]
  else within text (pieces n (text.length + 1) .document [])

/-! ## Documents -/

/-- The text of a document up to the line that ends it, and what follows; at most `fuel` lines. -/
def documentText (a : Announced) : Nat → List Char → List Char × List Char
  | 0, cs => ([], cs)
  | fuel + 1, cs =>
      let line := cs.takeWhile (· != '\n')
      let left := cs.drop (line.length + 1)
      let isLast := line.length = cs.length
      let shown := if a.stripsTabs then line.dropWhile (· == '\t') else line
      if shown = a.mark.toList then ([], left)
      else if isLast then (shown, [])
      else
        let (more, left) := documentText a fuel left
        (shown ++ '\n' :: more, left)

def readDocuments (n : Nested) : Reading Unit := do
  let s ← get
  set { s with announced := [] }
  for a in s.announced do
    let cs ← rest
    let (text, left) := documentText a (cs.length + 1) cs
    let w ← documentWord n a.isLiteral text
    modify (fun s => { s with documents := (a.number, w) :: s.documents })
    goOn left

/-! ## Tokens -/

/-- What is left after blanks, joined lines and a comment. -/
def skipBlank : List Char → List Char
  | '\\' :: '\n' :: rest => skipBlank rest
  | c :: rest =>
      if c == ' ' || c == '\t' then skipBlank rest
      else if c == '#' then rest.dropWhile (· != '\n')
      else c :: rest
  | [] => []

/-- The operator that redirects, and what follows it. -/
def redirection? (cs : List Char) : Option (Nat × String × List Char) :=
  match cs with
  | '<' :: '<' :: '-' :: left => some (0, "<<-", left)
  | '<' :: '<' :: left => some (0, "<<", left)
  | '<' :: '&' :: left => some (0, "<&", left)
  | '<' :: '>' :: left => some (0, "<>", left)
  | '<' :: left => some (0, "<", left)
  | '>' :: '>' :: left => some (1, ">>", left)
  | '>' :: '|' :: left => some (1, ">", left)
  | '>' :: '&' :: left => some (1, ">&", left)
  | '>' :: left => some (1, ">", left)
  | _ => none

/-- The operator at the beginning, and what follows it. -/
def operatorAt? (cs : List Char) : Option (Token × List Char) :=
  match cs with
  | [] => some (.finish, [])
  | '\n' :: left => some (.newline, left)
  | '&' :: '&' :: left => some (.andThen, left)
  | '&' :: left => some (.ampersand, left)
  | '|' :: '|' :: left => some (.orElse, left)
  | '|' :: left => some (.bar, left)
  | ';' :: ';' :: left => some (.endCase, left)
  | ';' :: left => some (.next, left)
  | '(' :: left => some (.opens, left)
  | ')' :: left => some (.closes, left)
  | d :: left =>
      match redirection? cs with
      | some (stream, operator, left) => some (.redirect stream operator, left)
      | none =>
          if d.isDigit then
            (redirection? left).map (fun (_, operator, left) =>
              (.redirect (Text.digitValue d) operator, left))
          else none

/-- A token that was not given back. -/
def freshToken (n : Nested) : Reading Token := do
  goOn (skipBlank (← rest))
  match operatorAt? (← rest) with
  | some (t, left) =>
      goOn left
      return t
  | none => return .word (← readWord n)

/-- The next token; where a command may begin, some words are keywords. -/
def token (n : Nested) (keywords : Bool) : Reading Token := do
  let s ← get
  let t ← match s.held with
    | some t => do
        set { s with held := none }
        pure t
    | none => freshToken n
  return if keywords then t.asKeyword else t

def giveBack (t : Token) : Reading Unit :=
  modify (fun s => { s with held := some t })

/-- The next token after ends of lines, at most `fuel` of them. -/
def tokenAfterLines (n : Nested) : Nat → Reading Token
  | 0 => return .finish
  | fuel + 1 => do
      match ← token n true with
      | .newline =>
          readDocuments n
          tokenAfterLines n fuel
      | t => return t

def tokenPastLines (n : Nested) : Reading Token := do
  tokenAfterLines n ((← rest).length + 2)

end Reading

end ScanGraph.Shell
