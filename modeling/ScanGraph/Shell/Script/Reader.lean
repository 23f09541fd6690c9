/-
Reading scripts.

A script is read line by line: `nextLine?` reads the commands up to the end of
a line, which may be run before the next line is read.  A list of commands
inside of something else goes on over the ends of lines up to a token that ends
it, and that token is given back.
-/
import ScanGraph.Shell.Script.Token

namespace ScanGraph.Shell

namespace Reading

/-- A token is not what is expected here. -/
def refuse {α : Type} (t : Token) (expected : Option String) : Reading α :=
  fail (.unexpected t.name expected)

def expectKeyword (n : Nested) (k : String) : Reading Unit := do
  match ← token n true with
  | .keyword l => if l == k then return () else refuse (.keyword l) (some (Token.keyword k).name)
  | t => refuse t (some (Token.keyword k).name)

/-! ## Redirections -/

/-- The text that ends a document, and whether it is quoted. -/
def markOf (w : Word) : String × Bool :=
  w.foldl (fun (mark, quoted) p => match p with
    | .literal text q => (mark ++ String.ofList text, quoted || q)
    | .parameter name _ _ => (mark ++ "$" ++ name, quoted)
    | _ => (mark, quoted)) ("", false)

def announce (stream : Nat) (stripsTabs : Bool) (w : Word) : Reading Redirect := do
  let number := (← get).nextDocument
  let (mark, isLiteral) := markOf w
  let a : Announced := ⟨number, mark, stripsTabs, isLiteral⟩
  modify (fun s => { s with announced := s.announced ++ [a], nextDocument := number + 1 })
  return .document stream number

/-- The connection that an operator makes. -/
def connectionOf (operator : String) : Connection :=
  match operator with
  | "<" => .source
  | ">" => .sink
  | ">>" => .ending
  | "<>" => .both
  | _ => .copy

/-- The redirection of an operator that was read. -/
def redirectOf (n : Nested) (stream : Nat) (operator : String) : Reading Redirect := do
  match ← token n false with
  | .word w =>
      if operator == "<<" then announce stream false w
      else if operator == "<<-" then announce stream true w
      else return .connect stream (connectionOf operator) w
  | t => refuse t none

/-- The redirections at the beginning of what is left, at most `fuel`. -/
def redirects (n : Nested) : Nat → Reading (List Redirect)
  | 0 => return []
  | fuel + 1 => do
      match ← token n true with
      | .redirect stream operator =>
          let r ← redirectOf n stream operator
          return r :: (← redirects n fuel)
      | t =>
          giveBack t
          return []

/-! ## Simple commands -/

structure Parts where
  assignments : List (String × Word)
  words : List Word
  redirects : List Redirect

def specialNames : List String :=
  [".", ":", "break", "continue", "eval", "exec", "exit", "export", "readonly", "return", "set",
   "shift", "times", "trap", "unset"]

/-- The function whose name was read, after the parenthesis that follows it. -/
def functionOf (n : Nested) (w : Word) : Reading Command := do
  match ← token n false with
  | .closes =>
      match Word.bare? w with
      | some name =>
          if !isName name || specialNames.contains name then fail .badFunction
          else return .define name (← n.command)
      | none => fail .badFunction
  | t => refuse t (some Token.closes.name)

/-- The rest of a simple command, at most `fuel` tokens. -/
def simpleFrom (n : Nested) (line : Nat) : Nat → Parts → Reading Command
  | 0, p => return .simple line p.assignments p.words p.redirects
  | fuel + 1, p => do
      match ← token n false with
      | .word w =>
          match Word.assignment? w with
          | some a =>
              if p.words.isEmpty then
                simpleFrom n line fuel { p with assignments := p.assignments ++ [a] }
              else simpleFrom n line fuel { p with words := p.words ++ [w] }
          | none => simpleFrom n line fuel { p with words := p.words ++ [w] }
      | .redirect stream operator =>
          let r ← redirectOf n stream operator
          simpleFrom n line fuel { p with redirects := p.redirects ++ [r] }
      | t =>
          match t, p with
          | .opens, ⟨[], [w], []⟩ => functionOf n w
          | _, _ =>
              giveBack t
              return .simple line p.assignments p.words p.redirects

def simple (n : Nested) : Reading Command := do
  let s ← get
  simpleFrom n s.line (s.rest.length + 2) ⟨[], [], []⟩

/-! ## Compound commands -/

/-- The branches after the test of a conditional, at most `fuel` of them. -/
def conditionalFrom (n : Nested) : Nat → Reading Command
  | 0 => return .nothing
  | fuel + 1 => do
      let test ← n.filled
      expectKeyword n "then"
      let yes ← n.filled
      match ← token n true with
      | .keyword "elif" => return .conditional test yes (← conditionalFrom n fuel)
      | .keyword "else" => return .conditional test yes (← n.filled)
      | t =>
          giveBack t
          return .conditional test yes .nothing

/-- The words up to the end of a line or a semicolon, at most `fuel` of them. -/
def wordsFrom (n : Nested) : Nat → Reading (List Word)
  | 0 => return []
  | fuel + 1 => do
      match ← token n false with
      | .word w => return w :: (← wordsFrom n fuel)
      | .newline => return []
      | .next => return []
      | t => refuse t none

def loopBody (n : Nested) : Reading Command := do
  expectKeyword n "do"
  let body ← n.filled
  expectKeyword n "done"
  return body

/-- A loop over words, after its keyword. -/
def forEach (n : Nested) (line : Nat) : Reading Command := do
  let name ← match ← token n false with
    | .word w =>
        match Word.bare? w with
        | some name => if isName name then pure name else fail .badVariable
        | none => fail .badVariable
    | _ => fail .badVariable
  let words ← match ← tokenPastLines n with
    | .keyword "in" => pure (some (← wordsFrom n ((← rest).length + 2)))
    | .next => pure none
    | t => do
        giveBack t
        pure none
  match ← tokenPastLines n with
  | .keyword "do" =>
      let body ← n.filled
      expectKeyword n "done"
      return .forEach line name words body
  | t => refuse t (some (Token.keyword "do").name)

/-- The patterns of a case up to the parenthesis that closes them, of which the first token was
read; at most `fuel` of them. -/
def patternsFrom (n : Nested) : Nat → Token → Reading (List Word)
  | 0, _ => return []
  | fuel + 1, t => do
      let w ← match t with
        | .word w => pure w
        | .keyword k => pure [.literal k.toList false]
        | t => refuse t (some Token.closes.name)
      match ← token n false with
      | .bar => return w :: (← patternsFrom n fuel (← token n false))
      | .closes => return [w]
      | t => refuse t (some Token.closes.name)

/-- The cases of a choice up to its end, at most `fuel` of them. -/
def casesFrom (n : Nested) : Nat → Reading (List (List Word × Command))
  | 0 => return []
  | fuel + 1 => do
      match ← tokenPastLines n with
      | .keyword "esac" => return []
      | t =>
          let first ← match t with
            | .opens => token n false
            | t => pure t
          let patterns ← patternsFrom n ((← rest).length + 2) first
          let body ← n.list
          match ← tokenPastLines n with
          | .keyword "esac" => return [(patterns, body)]
          | .endCase => return (patterns, body) :: (← casesFrom n fuel)
          | t => refuse t (some Token.endCase.name)

def choice (n : Nested) (line : Nat) : Reading Command := do
  match ← token n false with
  | .word subject =>
      match ← tokenPastLines n with
      | .keyword "in" => return .choice line subject (← casesFrom n ((← rest).length + 2))
      | t => refuse t (some (Token.keyword "in").name)
  | t => refuse t (some "word")

/-- A command with the redirections that follow it. -/
def withRedirects (n : Nested) (line : Nat) (c : Command) : Reading Command := do
  let rs ← redirects n ((← rest).length + 2)
  match rs, c with
  | [], c => return c
  | rs, .apart line a _ => return .apart line a rs
  | rs, c => return .redirected line c rs

/-- The command that begins with a token. -/
def commandOf (n : Nested) (t : Token) : Reading Command := do
  let line := (← get).line
  match t with
  | .keyword "if" =>
      let c ← conditionalFrom n ((← rest).length + 2)
      expectKeyword n "fi"
      withRedirects n line c
  | .keyword "while" =>
      let test ← n.filled
      withRedirects n line (.whileDo test (← loopBody n))
  | .keyword "until" =>
      let test ← n.filled
      withRedirects n line (.untilDo test (← loopBody n))
  | .keyword "for" => withRedirects n line (← forEach n line)
  | .keyword "case" => withRedirects n line (← choice n line)
  | .keyword "\x7b" =>
      let body ← n.filled
      expectKeyword n "\x7d"
      withRedirects n line body
  | .opens =>
      let body ← n.filled
      match ← token n true with
      | .closes => withRedirects n line (.apart line body [])
      | t => refuse t (some Token.closes.name)
  | .word w =>
      giveBack (.word w)
      simple n
  | .redirect stream operator =>
      giveBack (.redirect stream operator)
      simple n
  | t => refuse t none

/-! ## Lists -/

/-- The commands after bars, at most `fuel` of them. -/
def pipedFrom (n : Nested) : Nat → Reading (List Command)
  | 0 => return []
  | fuel + 1 => do
      match ← token n false with
      | .bar =>
          let c ← commandOf n (← tokenPastLines n)
          return c :: (← pipedFrom n fuel)
      | t =>
          giveBack t
          return []

def pipelineOf (n : Nested) (t : Token) : Reading Command := do
  let piped (t : Token) : Reading Command := do
    let first ← commandOf n t
    match ← pipedFrom n ((← rest).length + 2) with
    | [] => return first
    | more => return .pipeline (first :: more)
  match t with
  | .keyword "!" => return .negated (← piped (← token n true))
  | t => piped t

/-- What follows a pipeline after a success or a failure, at most `fuel` times. -/
def joinedFrom (n : Nested) : Nat → Command → Reading Command
  | 0, c => return c
  | fuel + 1, c => do
      match ← token n false with
      | .andThen => joinedFrom n fuel (.andThen c (← pipelineOf n (← tokenPastLines n)))
      | .orElse => joinedFrom n fuel (.orElse c (← pipelineOf n (← tokenPastLines n)))
      | t =>
          giveBack t
          return c

/-- Pipelines that depend on one another, of which the first begins with a token. -/
def joined (n : Nested) (t : Token) : Reading Command := do
  let first ← pipelineOf n t
  joinedFrom n ((← rest).length + 2) first

/-- A list of commands up to a token that ends it, at most `fuel` of them; `read` are those read
so far, and without any there must be one unless the list may be empty. -/
def listFrom (n : Nested) (mayBeEmpty : Bool) : Nat → Command → Reading Command
  | 0, read => return read
  | fuel + 1, read => do
      let t ← tokenPastLines n
      match t with
      | .finish =>
          giveBack t
          return read
      | t =>
          if mayBeEmpty && t.endsList then
            giveBack t
            return read
          else
            let c ← joined n t
            match ← token n false with
            | .ampersand => listFrom n true fuel (read.followedBy (.background c))
            | .next => listFrom n true fuel (read.followedBy c)
            | .newline =>
                giveBack .newline
                listFrom n true fuel (read.followedBy c)
            | t =>
                giveBack t
                return read.followedBy c

/-- The commands up to the end of a line, at most `fuel` of them; none at the end of a script. -/
def lineFrom (n : Nested) : Nat → Option Command → Reading (Option Command)
  | 0, read => return read
  | fuel + 1, read => do
      match ← token n true with
      | .newline =>
          readDocuments n
          return some (read.getD .nothing)
      | .finish =>
          readDocuments n
          return read
      | t =>
          let c ← joined n t
          let add (c : Command) : Option Command := some ((read.getD .nothing).followedBy c)
          match ← token n false with
          | .ampersand => lineFrom n fuel (add (.background c))
          | .next => lineFrom n fuel (add c)
          | .newline =>
              giveBack .newline
              lineFrom n fuel (add c)
          | .finish =>
              giveBack .finish
              lineFrom n fuel (add c)
          | t => refuse t none

/-- How lists and commands are read inside of `depth` others. -/
def nested : Nat → Nested
  | 0 => ⟨fail .openOutput, fail .openOutput, fail .openOutput⟩
  | depth + 1 =>
      let n := nested depth
      ⟨do listFrom n true ((← rest).length + 2) .nothing,
       do listFrom n false ((← rest).length + 2) .nothing,
       do commandOf n (← tokenPastLines n)⟩

/-- How deep commands may stand in one another. -/
def greatestDepth : Nat := 200

end Reading

/-- The commands on the next line of a script, and what is left of it; none at the end. -/
def Source.nextLine? (s : Source) : Except (ScriptFault × Nat) (Option Command × Source) :=
  (Reading.lineFrom (Reading.nested Reading.greatestDepth) (s.rest.length + 2) none).run s

end ScanGraph.Shell
