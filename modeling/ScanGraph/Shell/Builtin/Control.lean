/-
What is run, and what is not: `eval`, `.`, `exec`, `exit`, `return`, `break`,
`continue`, `trap`, `wait` and `kill`.
-/
import ScanGraph.Shell.Builtin.Options
import ScanGraph.Shell.Program

namespace ScanGraph.Shell.Builtin

open Run

/-! ## Running texts and programs -/

def eval : Builtin := fun i m args => do
  match args with
  | [] => done 0
  | _ => runText i m (" ".intercalate args)

/-- The path of a text that a script takes in: a name without a slash is looked for where programs
are. -/
def sourcePath (name : String) : Run String := do
  if name.contains '/' then return name
  let s ← get
  let search := ((← known "PATH").value.getD Program.usualSearch).toList.splitOn ':'
  let paths := search.map (fun d => String.ofList d ++ "/" ++ name)
  match paths.find? (fun p => s.world.disk.kind? p == some .file) with
  | some p => return p
  | none => fail (name ++ ": not found") 2

def dot : Builtin := fun i _ args => do
  let (_, names) ← optionsOf "" "" args
  match names with
  | [] => done 0
  | name :: _ => do
      let path ← sourcePath name
      match (← get).world.disk.read path with
      | .error .isDirectory => done 0
      | .error f => fail (Connecting.cannotOpen name f) 2
      | .ok bs => do
          let before ← get
          modify (fun s => { s with command := none })
          let flow ← caught (runText i .plain (packed bs))
          modify (fun s => { s with line := before.line, command := before.command })
          match flow with
          | none => return ()
          | some .returns => return ()
          | some f => throw f

/-- A program takes the place of the shell. -/
def exec : Builtin := fun i _ args => do
  match args with
  | [] => done 0
  | name :: args => do
      match ← Program.find name with
      | .error f => do
          let (said, status) := Program.notFound f
          fail (name ++ ": " ++ said) status
      | .ok program => do
          let s ← get
          modify (fun s => { s with traps := s.traps.filter (fun t => t.2.isEmpty) })
          match ← i.start name program args with
          | .status n => do
              done n
              throw .exits
          | .signal n =>
              if s.isApart then do
                done (128 + n)
                throw .exits
              else throw (.killed s.id n)

/-! ## Leaving -/

def leaveShell : Builtin := fun _ _ args => do
  match args with
  | a :: _ => done ((← number a) % 256)
  | [] => done (← get).status
  throw .exits

/-- The function at hand ends, or the script. -/
def leaveFunction : Builtin := fun _ _ args => do
  match args with
  | a :: _ => done (← number a)
  | [] => pure ()
  throw .returns

/-- Loops end, or go on with the next turn of one of them. -/
def leaveLoops (flow : Nat → Flow) : Builtin := fun _ _ args => do
  let n ← match args with
    | a :: _ => do
        match ← number a with
        | 0 => fail ("Illegal number: " ++ a) 2
        | n => pure n
    | [] => pure 1
  done 0
  let loops := (← get).loops
  if loops != 0 then throw (flow (min n loops))

/-! ## Signals -/

/-- What is done at signals, as scripts can read it. -/
def listedTraps (traps : List (Nat × String)) : String :=
  let sorted := traps.mergeSort (fun a b => decide (a.1 ≤ b.1))
  String.join (sorted.map (fun (n, action) =>
    "trap -- " ++ quoted action ++ " " ++ Signal.scriptName n ++ "\n"))

/-- What is done at some signals is set; without an action they do what they always do. -/
def setTraps (action : Option String) : List String → Run Unit
  | [] => done 0
  | name :: rest => do
      match Signal.parse? name with
      | none => do
          emit 2 ("trap: " ++ name ++ ": bad trap\n")
          done 1
      | some n => do
          let s ← get
          let others := s.traps.filter (fun t => t.1 != n)
          let guarded := s.world.guarded.filter (fun g => g != (s.id, n))
          set { s with traps := match action with
            | some a => (n, a) :: others
            | none => others }
          unless s.isApart do
            change (fun w => { w with guarded := if action.any (fun a => !a.isEmpty)
              then (s.id, n) :: guarded else guarded })
          setTraps action rest

/-- What is done at signals is set or shown. -/
def trap : Builtin := fun _ _ args => do
  let (_, args) ← optionsOf "" "" args
  match args with
  | [] => say (listedTraps (← get).traps)
  | [name] => setTraps none [name]
  | first :: rest =>
      if (Text.natural? first.toList).any (· < Signal.count) then setTraps none args
      else setTraps (if first == "-" then none else some first) rest

/-- A process in the background is waited for. -/
def waitFor (a : String) : Run Unit := do
  if a.startsWith "%" then fail ("No such job: " ++ a) 2
  let id ← number a
  let s ← get
  match s.world.jobs.find? (fun j => j.id == id) with
  | some j =>
      if s.children.contains id then do
        change (fun w => { w with clock := max w.clock j.endsAt })
        match j.signal.bind Signal.said? with
        | some said => do
            emit 2 (said ++ "\n")
            change (fun w => { w with jobs := w.jobs.map (fun k =>
              if k.id == id then { k with signal := none } else k) })
        | none => pure ()
        done j.status
      else done 127
  | none => done 127

/-- Processes in the background are waited for. -/
def waitForAll : List String → Run Unit
  | [] => return ()
  | a :: rest => do
      waitFor a
      waitForAll rest

/-- Processes in the background are waited for, all of them if none is named. -/
def wait : Builtin := fun _ _ args => do
  let (_, args) ← optionsOf "" "" args
  match args with
  | [] => do
      let s ← get
      let mine := s.world.jobs.filter (fun j => s.children.contains j.id)
      change (fun w => { w with clock := mine.foldl (fun t j => max t j.endsAt) w.clock })
      done 0
  | _ => waitForAll args

def killUsage : String :=
  "Usage: kill [-s sigspec | -signum | -sigspec] [pid | job]... or\nkill -l [exitstatus]"

/-- The signal that a text spells for `kill`. -/
def signalOf? (s : String) : Option Nat :=
  if s.map Char.toUpper == "EXIT" then none else Signal.parse? s

/-- A signal is sent to processes; those that there are not are complained about. -/
def sendAll (signal : Nat) : Nat → List String → Run Unit
  | status, [] => done status
  | status, a :: rest => do
      let n ← number (if a.startsWith "-" then (a.drop 1).toString else a)
      done 0
      if ← send n signal then sendAll signal status rest
      else do
        complain "No such process\n"
        sendAll signal 1 rest

/-- The name of the signal that a status stands for is shown. -/
def nameSignal : List String → Run Unit
  | [] => say (String.join ("0\n" :: (List.range Signal.count).filterMap (fun n =>
      if n = 0 then none else some (Signal.scriptName n ++ "\n"))))
  | a :: _ => do
      let n ← number a
      let n := if 128 < n then n - 128 else n
      if 0 < n ∧ n < Signal.count then say (Signal.scriptName n ++ "\n")
      else fail ("invalid signal number or exit status: " ++ a) 2

def kill : Builtin := fun _ _ args => do
  match args with
  | [] => fail killUsage 2
  | first :: rest => do
      let direct := if first.startsWith "-" then signalOf? (first.drop 1).toString else none
      match direct with
      | some n => if rest.isEmpty then fail killUsage 2 else sendAll n 0 rest
      | none => do
          let (os, names) ← optionsOf "l" "s" args
          let signal ← match (os.find? (fun o => o.1 == 's')).map Prod.snd with
            | none => pure none
            | some v =>
                match signalOf? v with
                | some n => pure (some n)
                | none => fail ("invalid signal number or name: " ++ v) 2
          if given os 'l' then
            if signal.isSome then fail killUsage 2 else nameSignal names
          else if names.isEmpty then fail killUsage 2
          else sendAll (signal.getD 15) 0 names

end ScanGraph.Shell.Builtin
