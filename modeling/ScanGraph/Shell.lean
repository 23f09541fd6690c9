/-
Processes.

A program is started with arguments and an input; it writes to two streams and
ends with a status or by a signal.  A process is over when nothing keeps its
streams open any longer, so processes that it left in the background count.

This, and all under it, is a stand-in for the machine on which a command is started, so
that scenarios can be played without one.  The library itself takes what starts programs
as a parameter (`Command.Spawn`), and no result about it depends on what follows.

A process is a function of the program, its arguments and its input, and always has an
end: one that runs more commands than `mostCommands` is taken to run for ever, and so is
one that says so of itself.  Time is a number that commands add to; nothing waits in
fact.
-/
import ScanGraph.Shell.Launch

namespace ScanGraph.Shell

open Run

/-- Why a program does not start. -/
inductive StartError where
  | missing
  /-- It is a directory, or a file that is no program. -/
  | refused
  | notDirectory
  | longName
deriving DecidableEq, Repr

/-- What is said of a program that does not start. -/
def StartError.message : StartError → String
  | missing => "No such file or directory (os error 2)"
  | refused => "Permission denied (os error 13)"
  | notDirectory => "Not a directory (os error 20)"
  | longName => "File name too long (os error 36)"

namespace StartError

/-- Why a program does not start whose path cannot be used. -/
def ofFault : DiskFault → StartError
  | .notDirectory => notDirectory
  | .longName => longName
  | .missing => missing
  | _ => refused

end StartError

/-- The program that a text names, where all processes begin. -/
def programOf (name : String) : Except StartError String :=
  if !name.contains '/' && Files.Root.longestName < name.utf8ByteSize then .error .longName
  else
    let found := do
      Program.atPath Disk.start (← Program.pathOf Disk.start Program.usualSearch (encoded name))
    match found with
    | .ok p => .ok p
    | .error f => .error (.ofFault f)

/-! ## The first process -/

/-- The most commands that a process runs; one that would run more is taken to run for ever. -/
def mostCommands : Nat := 300000

/-- The world in which a process starts: its input, and two streams to write to. -/
def World.start (input : List UInt8) : World :=
  { channels := #[.source input, .sink [], .sink []]
    disk := .start
    clock := 0
    jobs := []
    budget := mostCommands
    lastId := 4000
    arrived := []
    guarded := [] }

def startVariables : Table String Variable :=
  .ofList ([("HOME", "/root"), ("PATH", Program.usualSearch),
    ("PWD", Disk.pathOf Disk.start.place)].map (fun (n, v) => (n, ⟨some v, true, false⟩)))

def Session.start (input : List UInt8) : Session :=
  { id := 4000
    isApart := false
    name := ""
    arguments := []
    bindings := startVariables
    functions := []
    status := 0
    taken := none
    options := []
    traps := []
    streams := [(0, 0), (1, 1), (2, 2)]
    documents := []
    nextDocument := 0
    line := 0
    command := none
    job := 0
    children := []
    lastJob := none
    calls := 0
    loops := 0
    locals := []
    optionPlace := 0
    mask := 18
    aliases := .empty
    world := .start input }

/-- When nothing keeps the streams of a script open any longer. -/
def World.finish (w : World) : Nat :=
  (w.jobs.filter BackgroundJob.keepsOpen).foldl (fun t j => max t j.endsAt) w.clock

/-- The process that running a program comes to; one that never ends takes for ever. -/
def Process.ofRun (r : Run Ending) (s : Session) : Process :=
  let gather : Run Process := do
    return ⟨← collected 1, ← collected 2, .status 0, (← get).world.finish⟩
  let (result, s) := r.run s
  let p : Process := match (gather.run s).1 with
    | .ok p => p
    | .error _ => ⟨[], [], .status 0, 0⟩
  match result with
  | .ok e => { p with ending := e }
  | .error (.killed _ n) => { p with ending := .signal n }
  | .error _ => { p with elapsed := never }

/-- The process of a program, or why it does not start. -/
def spawn (program : String) (args : List String) (input : List UInt8) :
    Except StartError Process := do
  let found ← programOf program
  let i := Launch.interpreter Launch.greatestDepth
  .ok (Process.ofRun (Launch.start i (encoded program) found (args.map encoded))
    (.start input))

end ScanGraph.Shell
