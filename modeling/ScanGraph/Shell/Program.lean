/-
Programs: how they are found, and how utilities run in a session.

The utilities are known by their names.  A name with a slash is a path; any
other name is looked for in the directories that the variable `PATH` lists.
-/
import ScanGraph.Shell.Condition
import ScanGraph.Shell.Expansion
import ScanGraph.Shell.Utility.Columns
import ScanGraph.Shell.Utility.Copy
import ScanGraph.Shell.Utility.Digest
import ScanGraph.Shell.Utility.Ends
import ScanGraph.Shell.Utility.Names
import ScanGraph.Shell.Utility.Order
import ScanGraph.Shell.Utility.Search
import ScanGraph.Shell.Utility.Stream
import ScanGraph.Shell.Utility.Translate
import ScanGraph.Shell.Utility.Tree

namespace ScanGraph.Shell.Utility

/-- A condition, which decides the status. -/
def test : Utility := fun c =>
  let name := ((Files.parts c.name).getLast?).getD c.name
  match Condition.run c.disk name c.args with
  | .ok b => c.quiet (if b then 0 else 1)
  | .error e => c.refuse e 2

def pwd : Utility := fun c =>
  (c.quiet 0).write 1 ((Disk.pathOf c.disk.place).toList ++ ['\n'])

def answers (text : String) : Utility := fun c =>
  (c.quiet 0).write 1 (text.toList ++ ['\n'])

def table : List (String × Utility) :=
  [("[", test), ("base64", base64), ("basename", basename), ("cat", cat), ("chmod", chmod),
   ("comm", comm), ("cp", cp), ("cut", cut), ("dd", dd), ("dirname", dirname), ("echo", echo),
   ("egrep", egrep), ("expand", expand), ("expr", expr), ("false", fun c => c.quiet 1),
   ("fgrep", fgrep), ("fold", fold), ("grep", grep), ("head", head), ("ls", ls),
   ("md5sum", md5sum), ("mkdir", mkdir), ("mktemp", mktemp), ("mv", mv), ("nl", nl), ("od", od),
   ("paste", paste), ("printenv", printenv), ("printf", printf), ("pwd", pwd), ("rev", rev),
   ("rm", rm), ("rmdir", rmdir), ("sed", sed), ("seq", seq), ("sha256sum", sha256sum),
   ("sleep", sleep), ("sort", sort), ("sync", fun c => c.quiet 0), ("tac", tac), ("tail", tail),
   ("tee", tee), ("test", test), ("touch", touch), ("tr", tr), ("true", fun c => c.quiet 0),
   ("uname", answers "Linux"), ("uniq", uniq), ("wc", wc), ("which", which),
   ("whoami", answers "root"), ("yes", yes)]

def find? (name : String) : Option Utility :=
  table.lookup name

end ScanGraph.Shell.Utility

namespace ScanGraph.Shell

open Run

namespace Program

def atPath (disk : Disk) (path : String) : Except DiskFault String := do
  let place ← disk.placeOf path
  match disk.kindAt? place with
  | some .program => .ok (place.getLast?.getD "")
  | some _ => .error .denied
  | none => .error .missing

/-- The path of a name in one of some directories. -/
def inDirectories (disk : Disk) (name : String) : List String → Except DiskFault String
  | [] => .error .missing
  | d :: rest =>
      let path := (if d.isEmpty then "." else d) ++ "/" ++ name
      match atPath disk path with
      | .ok _ => .ok path
      | .error .denied =>
          match inDirectories disk name rest with
          | .ok path => .ok path
          | .error _ => .error .denied
      | .error _ => inDirectories disk name rest

/-- The path under which a name is found. -/
def pathOf (disk : Disk) (search name : String) : Except DiskFault String :=
  if name.contains '/' then (atPath disk name).map (fun _ => name)
  else if name.isEmpty then .error .missing
  else inDirectories disk name ((search.toList.splitOn ':').map String.ofList)

/-- The directories in which programs are looked for if nothing else is said. -/
def usualSearch : String :=
  "/usr/local/sbin:/usr/local/bin:/usr/sbin:/usr/bin:/sbin:/bin"

/-- The path under which a name is found by the shell. -/
def path (name : String) : Run (Except DiskFault String) := do
  let search := (← known "PATH").value.getD usualSearch
  return pathOf (← get).world.disk search name

def find (name : String) : Run (Except DiskFault String) := do
  let disk := (← get).world.disk
  match ← path name with
  | .ok p => return atPath disk p
  | .error f => return .error f

/-- What is said of a program that is not found, and the status. -/
def notFound (f : DiskFault) : String × Nat :=
  if f = .missing ∨ f = .notDirectory then ("not found", 127) else (f.message, 126)

/-! ## Utilities -/

/-- The variables that are handed on to programs. -/
def environment : Run (List (String × String)) := do
  return (← get).bindings.entries.filterMap (fun (n, v) =>
    if v.isExported then v.value.map (fun s => (n, s)) else none)

/-- What a utility wrote goes where its streams lead; whether something was to be written to an
output that is closed. -/
def emitAll : List (Nat × List Char) → Run Bool
  | [] => return false
  | (stream, cs) :: rest => do
      let isOpen := (← streamChannel? stream).isSome
      if isOpen then emitOctets stream (octetsOf cs)
      return (← emitAll rest) || (stream == 1 && !isOpen && !cs.isEmpty)

def callUtility (u : Utility) (name : String) (args : List String) (closed : ClosedOutput) :
    Run Ending := do
  let s ← get
  let isSeekable ← match ← streamChannel? 0 with
    | none => pure false
    | some n => do
        match ← channel n with
        | .file _ _ _ => pure true
        | _ => pure false
  let r := u ⟨name, args, charsOf (← input 0), isSeekable, s.world.disk, ← environment⟩
  change (fun w => { w with disk := r.disk })
  leave 0 (octetsOf r.rest)
  let isLost ← emitAll r.writes
  pass r.elapsed
  if r.isEndless then throw .endless
  if isLost || (closed.isChecked && (← streamChannel? 1).isNone) then
    emit 2 (closed.said name)
    return .status closed.status
  return .status r.status

def runUtility (u : Utility) (program name : String) (args : List String) : Run Ending := do
  let closed := ClosedOutput.of program
  if closed.isFirst && (← streamChannel? 1).isNone then
    emit 2 (closed.said name)
    return .status closed.status
  callUtility u name args closed

/-- A process does something apart; what it changes of the session is lost. -/
def inProcess (r : Run Ending) : Run Ending := do
  let before ← get
  let result ← tryCatch (r.map Except.ok) (fun f => pure (Except.error f))
  modify (fun s => { before with
    world := { s.world with disk := { s.world.disk with place := before.world.disk.place } } })
  match result with
  | .ok e => return e
  | .error f => throw f

end Program

end ScanGraph.Shell
