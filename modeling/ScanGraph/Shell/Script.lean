/-
Shell scripts.

A word is made of pieces: literal text, parameters, the output of commands and
the values of sums, each quoted or not.  A simple command is assignments, words
and redirections; the other commands are put together from commands.  The text
that a command reads as its input from the script itself is a document, which
the script keeps apart under a number.
-/

namespace ScanGraph.Shell

inductive Fallback where
  /-- The word, if the parameter is not set. -/
  | instead
  /-- The word, which the parameter is set to. -/
  | assigned
  /-- Nothing: the script ends with the word as its complaint. -/
  | refused
  /-- The word, if the parameter is set. -/
  | present
deriving DecidableEq, Repr

structure Trim where
  atEnd : Bool
  longest : Bool
deriving DecidableEq, Repr

inductive Connection where
  /-- A file to read from. -/
  | source
  /-- A file to write to from its beginning. -/
  | sink
  /-- A file to write to at its end. -/
  | ending
  /-- A file to read from and to write to. -/
  | both
  /-- Where another stream leads, or nowhere. -/
  | copy
deriving DecidableEq, Repr

mutual

inductive Piece where
  | literal (text : List Char) (isQuoted : Bool)
  | parameter (name : String) (change : Change) (isQuoted : Bool)
  | output (body : Command) (isQuoted : Bool)
  | sum (expression : List Piece) (isQuoted : Bool)
  /-- A parameter that cannot be read. -/
  | unreadable

/-- What is made of the value of a parameter. -/
inductive Change where
  | plain
  | length
  | fallback (f : Fallback) (evenIfEmpty : Bool) (word : List Piece)
  | trim (t : Trim) (pattern : List Piece)

inductive Redirect where
  | connect (stream : Nat) (c : Connection) (target : List Piece)
  | document (stream : Nat) (number : Nat)

inductive Command where
  | nothing
  | simple (line : Nat) (assignments : List (String × List Piece)) (words : List (List Piece))
      (redirects : List Redirect)
  /-- Commands of which each reads what the one before it writes. -/
  | pipeline (commands : List Command)
  | negated (a : Command)
  | sequence (a b : Command)
  | andThen (a b : Command)
  | orElse (a b : Command)
  | background (a : Command)
  /-- A command that runs apart. -/
  | apart (line : Nat) (a : Command) (redirects : List Redirect)
  | redirected (line : Nat) (a : Command) (redirects : List Redirect)
  | conditional (test yes no : Command)
  | whileDo (test body : Command)
  | untilDo (test body : Command)
  /-- A command for each of some words, or for each argument. -/
  | forEach (line : Nat) (name : String) (words : Option (List (List Piece))) (body : Command)
  | choice (line : Nat) (subject : List Piece) (cases : List (List (List Piece) × Command))
  | define (name : String) (body : Command)

end

abbrev Word := List Piece

instance : Inhabited Piece :=
  ⟨.unreadable⟩

instance : Inhabited Command :=
  ⟨.nothing⟩

/-- One command after the other; nothing adds nothing. -/
def Command.followedBy : Command → Command → Command
  | .nothing, b => b
  | a, b => .sequence a b

/-! ## Words -/

/-- The text of a word that is literal throughout and nowhere quoted. -/
def Word.bare? : Word → Option String
  | [.literal text false] => some (String.ofList text)
  | _ => none

/-- A character that may begin the name of a variable. -/
def isNameStart (c : Char) : Bool :=
  c.isAlpha || c == '_'

def isNameChar (c : Char) : Bool :=
  c.isAlphanum || c == '_'

def isName (s : String) : Bool :=
  s.toList.head?.any isNameStart && s.toList.all isNameChar

def isSign (c : Char) : Bool :=
  ['?', '$', '#', '@', '*', '!', '-'].contains c

/-- The name and the value of a word that assigns a variable. -/
def Word.assignment? (w : Word) : Option (String × Word) :=
  match w with
  | .literal text false :: rest =>
      let name := text.takeWhile isNameChar
      match text.drop name.length with
      | '=' :: value =>
          if isName (String.ofList name) then
            some (String.ofList name,
              if value.isEmpty then rest else .literal value false :: rest)
          else none
      | _ => none
  | _ => none

/-! ## What cannot be read -/

/-- Why a script cannot be read. -/
inductive ScriptFault where
  | openQuote
  | openBrace
  | openSum
  | openOutput
  | badVariable
  | badFunction
  | badStream
  | unexpected (token : String) (expected : Option String)
deriving DecidableEq, Repr

/-- What is said of a script that cannot be read. -/
def ScriptFault.message : ScriptFault → String
  | openQuote => "Unterminated quoted string"
  | openBrace => "Missing '\x7d'"
  | openSum => "Missing '))'"
  | openOutput => "EOF in backquote substitution"
  | badVariable => "Bad for loop variable"
  | badFunction => "Bad function name"
  | badStream => "Bad fd number"
  | unexpected token none => token ++ " unexpected"
  | unexpected token (some e) => token ++ " unexpected (expecting " ++ e ++ ")"

end ScanGraph.Shell
