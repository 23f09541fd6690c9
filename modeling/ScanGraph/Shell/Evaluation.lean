/-
Running commands.

A simple command is expanded, redirected and called: a command of the shell, all
of which one table lists, a function or a program.  Commands that are split off run
one after the other as far as the disk is concerned, but at the same time as the clock
is: a pipeline takes as long as the slowest of its commands, and what runs in the
background takes no time until it is waited for.
-/
import ScanGraph.Shell.Builtin.Control
import ScanGraph.Shell.Builtin.Input
import ScanGraph.Shell.Builtin.Places
import ScanGraph.Shell.Builtin.Variables

namespace ScanGraph.Shell.Builtin

def table : List (String × Builtin) :=
  [(".", dot), (":", nothing 0), ("[", test), ("alias", aliasNames), ("bg", front),
   ("break", leaveLoops .breaks), ("cd", cd), ("chdir", cd), ("command", command),
   ("continue", leaveLoops .continues), ("echo", echo), ("eval", eval), ("exec", exec),
   ("exit", leaveShell), ("export", exportNames), ("false", nothing 1), ("fg", front),
   ("getopts", getopts), ("hash", hash), ("jobs", jobs), ("kill", kill), ("local", localNames),
   ("printf", printf), ("pwd", pwd), ("read", read), ("readonly", readonly),
   ("return", leaveFunction), ("set", setShell), ("shift", shift), ("test", test), ("times", times),
   ("trap", trap), ("true", nothing 0), ("type", describe), ("ulimit", ulimit), ("umask", umask),
   ("unalias", unalias), ("unset", unset), ("wait", wait)]

/-- The command of the shell with a name. -/
def find? (name : String) : Option Builtin :=
  table.lookup name

end ScanGraph.Shell.Builtin

namespace ScanGraph.Shell

open Run

/-! ## Words -/

/-- The words name variables to be declared, so that assignments among them are not split. -/
def declares : List Word → Bool
  | [] => false
  | w :: rest =>
      match Word.bare? w with
      | some "command" => declares rest
      | some "-p" => declares rest
      | some "--" => declares rest
      | some name => ["export", "readonly", "local"].contains name
      | none => false

/-- The fields of a word that may assign a variable. -/
def assignmentFields (i : Interpreter) (w : Word) : Run (List String) := do
  match Word.assignment? w with
  | some (name, value) => return [name ++ "=" ++ (← wordText i value)]
  | none => wordFields i w

def declaredFields (i : Interpreter) : List Word → Run (List String)
  | [] => return []
  | w :: rest => do
      let fields ← assignmentFields i w
      return fields ++ (← declaredFields i rest)

def commandFields (i : Interpreter) (words : List Word) : Run (List String) :=
  if declares words then declaredFields i words else allFields i words

/-! ## What is called -/

/-- What a name stands for where a command is called. -/
inductive Callee where
  /-- A command of the shell whose faults end it. -/
  | special (b : Builtin)
  | regular (b : Builtin)
  | function (body : Command)
  | program

/-- The arguments after the options of `command`; none if it has others than those that call a
command. -/
def afterCommand : List String → Option (List String)
  | "-p" :: rest => afterCommand rest
  | "--" :: rest => some rest
  | a :: rest => if a.startsWith "-" && a != "-" then none else some (a :: rest)
  | [] => some []

/-- Fields without `command` in front, and whether it was there; at most `fuel` times. -/
def withoutCommand : Nat → Bool → List String → Bool × List String
  | 0, isDirect, fields => (isDirect, fields)
  | fuel + 1, isDirect, fields =>
      match fields with
      | "command" :: rest =>
          match afterCommand rest with
          | some left => withoutCommand fuel true left
          | none => (isDirect, fields)
      | _ => (isDirect, fields)

/-- What a name stands for; what is called directly is no function, and ends no shell. -/
def calleeOf (isDirect : Bool) (name : String) : Run Callee := do
  let functions := (← get).functions
  match Builtin.find? name with
  | some b =>
      if Builtin.specialNames.contains name then
        return if isDirect then .regular b else .special b
      else match functions.lookup name, isDirect with
        | some body, false => return .function body
        | _, _ => return .regular b
  | none =>
      match functions.lookup name, isDirect with
      | some body, false => return .function body
      | _, _ => return .program

/-! ## Assignments -/

/-- Variables are set; each is shown as it is set. -/
def assignAll (i : Interpreter) : List (String × Word) → Run (List String)
  | [] => return []
  | (name, w) :: rest => do
      let value ← wordText i w
      assign name value
      return (name ++ "=" ++ value) :: (← assignAll i rest)

def restoreVariables : List (String × Option Variable) → Run Unit
  | [] => return ()
  | (name, v) :: rest => do
      match v with
      | some v => setVariable name v
      | none => modify (fun s => { s with bindings := s.bindings.erase name })
      restoreVariables rest

/-- Something runs with variables set and handed on to programs, each of which is afterwards as it
was before it was set; `shown` are those that were set. -/
def withVariables (i : Interpreter) (body : List String → Run Unit) (shown : List String) :
    List (String × Word) → Run Unit
  | [] => body shown
  | (name, w) :: rest => do
      let value ← wordText i w
      let before := (← get).bindings.get? name
      let flow ← caught do
        assign name value
        setVariable name { (← known name) with isExported := true }
        withVariables i body (shown ++ [name ++ "=" ++ value]) rest
      restoreVariables [(name, before)]
      match flow with
      | some f => throw f
      | none => return ()

/-- The words of a command are shown before it is called, if that is asked for. -/
def trace (channel : Option Nat) (words : List String) : Run Unit := do
  if (← has 'x') && !words.isEmpty then
    let sign := (← known "PS4").value.getD ""
    match channel with
    | some n => writeTo n (unpacked (sign ++ " ".intercalate words ++ "\n"))
    | none => return ()

/-! ## Calls -/

/-- A command of the shell is called; complaints name it. -/
def callBuiltin (i : Interpreter) (m : Manner) (b : Builtin) (name : String)
    (args : List String) : Run Unit := do
  let before := (← get).command
  modify (fun s => { s with command := some name })
  let flow ← caught (b i m args)
  modify (fun s => { s with command := before })
  match flow with
  | some f => throw f
  | none => return ()

/-- As many calls of functions may be under way at once. -/
def mostCalls : Nat := 1000

def callFunction (i : Interpreter) (m : Manner) (body : Command) (args : List String) :
    Run Unit := do
  let before ← get
  if mostCalls ≤ before.calls then
    fail ("Maximum function recursion depth (" ++ Text.decimalText mostCalls ++ ") reached") 2
  set { before with
    arguments := args
    optionPlace := 0
    calls := before.calls + 1
    loops := 0
    locals := [] :: before.locals }
  let flow ← caught (i.run m body)
  restoreVariables ((← get).locals.headD [])
  modify (fun s => { s with
    arguments := before.arguments
    optionPlace := before.optionPlace
    line := before.line
    calls := before.calls
    loops := before.loops
    locals := before.locals })
  match flow with
  | none => return ()
  | some .returns => return ()
  | some f => throw f

def callProgram (i : Interpreter) (name : String) (args : List String) : Run Unit := do
  match ← Program.find name with
  | .error f => do
      let (said, status) := Program.notFound f
      complain (name ++ ": " ++ (if name.isEmpty then DiskFault.denied.message else said))
      done status
  | .ok program => do
      match ← i.start name program args with
      | .status n => done n
      | .signal n => do
          match Signal.said? n with
          | some said => emit 2 (said ++ "\n")
          | none => pure ()
          done (128 + n)

/-- What goes wrong in a command ends that command only. -/
def sheltered (r : Run Unit) : Run Unit := do
  match ← caught r with
  | some .fails => return ()
  | some f => throw f
  | none => return ()

def call (i : Interpreter) (m : Manner) (callee : Callee) (channel : Option Nat)
    (assignments : List (String × Word)) (name : String) (args : List String) : Run Unit := do
  let setting (r : Run Unit) : Run Unit :=
    withVariables i (fun shown => do
      trace channel (shown ++ name :: args)
      r) [] assignments
  match callee with
  | .special b => do
      let shown ← assignAll i assignments
      trace channel (shown ++ name :: args)
      callBuiltin i m b name args
  | .regular b => setting (sheltered (callBuiltin i m b name args))
  | .function body => setting (callFunction i m body args)
  | .program => setting (callProgram i name args)

/-- A command without words: variables are set. -/
def assignOnly (i : Interpreter) (channel : Option Nat) (assignments : List (String × Word))
    (cs : List Connecting) : Run Unit :=
  restoringStreams do
    if ← Connecting.makeAll i cs then
      trace channel (← assignAll i assignments)
      done ((← get).taken.getD 0)

def simple (i : Interpreter) (m : Manner) (line : Nat) (assignments : List (String × Word))
    (words : List Word) (redirects : List Redirect) : Run Unit := do
  atLine line
  modify (fun s => { s with taken := none })
  let (isDirect, fields) := withoutCommand (words.length + 1) false (← commandFields i words)
  let cs ← Connecting.ofRedirects i redirects
  let channel ← streamChannel? 2
  match fields with
  | [] => assignOnly i channel assignments cs
  | name :: args => do
      let callee ← calleeOf isDirect name
      let isSpecial := match callee with
        | .special _ => true
        | _ => false
      let body : Run Unit := do
        if ← Connecting.makeAll i cs then call i m callee channel assignments name args
        else if isSpecial then throw .fails
      if name == "exec" && args.isEmpty then body else restoringStreams body

/-! ## Commands that are split off -/

/-- Something runs as a shell of its own, which does what is to be done at its end. -/
def splitOff (i : Interpreter) (setup body : Run Unit) : Run (Option Flow) :=
  apart do
    setup
    let flow ← caught body
    finish i
    goOnWith flow

def runApart (i : Interpreter) (m : Manner) (a : Command) (redirects : List Redirect) :
    Run Unit := do
  let cs ← Connecting.ofRedirects i redirects
  let flow ← splitOff i (return ()) do
    if ← Connecting.makeAll i cs then i.run m a
  goOnWith flow

/-- What writes for ever is cut off: so much of what may still be done is left. -/
def cutOff (flow : Option Flow) (budget : Nat) : Run Bool := do
  match flow with
  | some .endless =>
      change (fun w => { w with budget := budget / 2 })
      return true
  | flow =>
      goOnWith flow
      return false

/-- The commands of a pipeline from one on, which began at a time; `source` is what the first of
them reads. -/
def stages (i : Interpreter) (m : Manner) (begun : Nat) : Option Nat → List Command → Run Unit
  | _, [] => return ()
  | source, c :: rest => do
      let last := (← get).world.clock
      let status := (← get).status
      change (fun w => { w with clock := begun })
      let connectSource : Run Unit := match source with
        | some n => connect 0 (some n)
        | none => return ()
      match rest with
      | [] => do
          let flow ← splitOff i connectSource (i.run m c)
          goOnWith flow
          change (fun w => { w with clock := max w.clock last })
      | _ => do
          let n ← newChannel (.sink [])
          let before := (← get).world
          let flow ← splitOff i (do connectSource; connect 1 (some n))
            (i.run m c)
          let isEndless ← cutOff flow before.budget
          settle before.jobs.length
          change (fun w => { w with clock := max w.clock last })
          done status
          let next ← newChannel (.source (← collected n))
          stages i m begun (some next) rest
          match isEndless, ← channel next with
          | true, .source [] => throw .endless
          | _, _ => return ()

/-- A stream is redirected by a command as a whole. -/
def redirectsAway (c : Command) (stream : Nat) : Bool :=
  let isOf (r : Redirect) : Bool := match r with
    | .connect n _ _ => n == stream
    | .document n _ => n == stream
  match c with
  | .simple _ _ _ rs => rs.any isOf
  | .redirected _ _ rs => rs.any isOf
  | .apart _ _ rs => rs.any isOf
  | _ => false

/-- The end of what never ends. -/
def never : Nat := 1000000000000

/-- A command in the background, which reads nothing. -/
def background (i : Interpreter) (c : Command) : Run Unit := do
  let id ← newId
  let before := (← get).world
  let flow ← splitOff i
    (do
      let n ← newChannel .nothing
      connect 0 (some n)
      modify (fun s => { s with job := id }))
    (i.run .plain c)
  let isEndless ← cutOff flow before.budget
  let s ← get
  let keepsOpen := !(redirectsAway c 1 && redirectsAway c 2)
  let job : BackgroundJob :=
    ⟨id, if isEndless then never else s.world.clock, s.status, none, keepsOpen⟩
  set { s with
    status := 0
    lastJob := some id
    children := id :: s.children
    world := { s.world with clock := before.clock, jobs := job :: s.world.jobs } }

/-! ## Loops -/

/-- What becomes of a loop after something that may break it off. -/
inductive Turn where
  | done
  | leaves
  | goesOn

def turnOf (r : Run Unit) : Run Turn := do
  match ← caught r with
  | none => return .done
  | some (.breaks n) => if n ≤ 1 then return .leaves else throw (.breaks (n - 1))
  | some (.continues n) => if n ≤ 1 then return .goesOn else throw (.continues (n - 1))
  | some f => throw f

/-- A loop is run inside of those that are being run. -/
def inLoop (r : Run Unit) : Run Unit := do
  let loops := (← get).loops
  modify (fun s => { s with loops := loops + 1 })
  let flow ← caught r
  modify (fun s => { s with loops })
  match flow with
  | some f => throw f
  | none => return ()

/-- A body is run as long as a test ends in a way, at most `fuel` times; the status is that of the
body. -/
def whileTurns (i : Interpreter) (m : Manner) (ends : Bool) (test body : Command) :
    Nat → Nat → Run Unit
  | 0, _ => throw .endless
  | fuel + 1, status => do
      match ← turnOf (i.run .tested test) with
      | .leaves => done status
      | .goesOn => whileTurns i m ends test body fuel status
      | .done =>
          if ((← get).status == 0) == ends then done status
          else do
            match ← turnOf (i.run m body) with
            | .leaves => return ()
            | _ => whileTurns i m ends test body fuel (← get).status

/-- A body is run for each of some values. -/
def eachTurn (i : Interpreter) (m : Manner) (name : String) (body : Command) :
    List String → Run Unit
  | [] => return ()
  | v :: rest => do
      assign name v
      match ← turnOf (i.run m body) with
      | .leaves => return ()
      | _ => eachTurn i m name body rest

/-- A body is run for each of some words, or for each argument. -/
def forEach (i : Interpreter) (m : Manner) (name : String) (words : Option (List Word))
    (body : Command) : Run Unit := do
  let values ← match words with
    | some ws => allFields i ws
    | none => pure (← get).arguments
  if values.isEmpty then done 0 else inLoop (eachTurn i m name body values)

/-! ## Choices -/

def anyMatches (i : Interpreter) (text : List Char) : List Word → Run Bool
  | [] => return false
  | w :: rest => do
      let glob ← globOf (← i.word (← withHome w))
      if glob.admits text then return true else anyMatches i text rest

/-- The first case of which a pattern matches a text is run. -/
def choose (i : Interpreter) (m : Manner) (text : List Char) :
    List (List Word × Command) → Run Unit
  | [] => done 0
  | (patterns, body) :: rest => do
      if ← anyMatches i text patterns then
        match body with
        | .nothing => done 0
        | body => i.run m body
      else choose i m text rest

/-! ## All commands -/

/-- A command that may end a script that ends at failures. -/
def checked (m : Manner) (r : Run Unit) : Run Bool := do
  r
  return (← has 'e') && m != .tested && (← get).status != 0

/-- A command; whether the script ends, because it failed. -/
def perform (i : Interpreter) (m : Manner) : Command → Run Bool
  | .nothing => return false
  | .simple line assignments words redirects =>
      checked m (simple i m line assignments words redirects)
  | .pipeline cs => checked m do
      stages i m (← get).world.clock none cs
  | .negated a => do
      i.run .tested a
      done (if (← get).status = 0 then 1 else 0)
      return false
  | .sequence a b => do
      i.run m a
      i.run m b
      return false
  | .andThen a b => do
      i.run .tested a
      if (← get).status = 0 then i.run m b
      return false
  | .orElse a b => do
      i.run .tested a
      if (← get).status ≠ 0 then i.run m b
      return false
  | .background a => do
      background i a
      return false
  | .apart line a redirects => checked m do
      atLine line
      runApart i m a redirects
  | .redirected line a redirects => do
      atLine line
      redirected i redirects (i.run m a)
      return false
  | .conditional test yes no => do
      i.run .tested test
      if (← get).status = 0 then i.run m yes
      else match no with
        | .nothing => done 0
        | no => i.run m no
      return false
  | .whileDo test body => do
      inLoop (whileTurns i m false test body ((← get).world.budget + 1) 0)
      return false
  | .untilDo test body => do
      inLoop (whileTurns i m true test body ((← get).world.budget + 1) 0)
      return false
  | .forEach line name words body => do
      atLine line
      forEach i m name words body
      return false
  | .choice line subject cases => do
      atLine line
      let text := (← wordText i subject).toList
      choose i m text cases
      return false
  | .define name body => do
      modify (fun s => { s with
        functions := (name, body) :: s.functions.filter (fun f => f.1 != name) })
      done 0
      return false

/-- A command is run, and signals that have arrived are answered. -/
def evaluate (i : Interpreter) (m : Manner) (c : Command) : Run Unit := do
  spend
  let ends ← perform i m c
  answer i
  if ends then throw .exits

end ScanGraph.Shell
