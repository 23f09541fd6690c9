/-
What a running shell knows and shares.

A session is what one shell has of its own: variables, functions, arguments,
options, traps and the channels that its streams lead to.  The world is what
all of them share: what the channels hold, the disk, the time, and how much may
still be done.  A step of a session changes it and may break off what runs.

A step is a function from a session to a result and a session, so that whatever a script
does can be followed call by call.  Each command takes one from the budget that the
world has, and where nothing is left, what runs is broken off as one that never ends.
-/
import ScanGraph.Command
import ScanGraph.Shell.Disk
import ScanGraph.Shell.Script.Reader
import ScanGraph.Table

namespace ScanGraph.Shell

/-! ## The world -/

/-- Octets that were written: when, and by which process in the background; 0 stands for none. -/
structure Chunk where
  time : Nat
  job : Nat
  octets : List UInt8
deriving DecidableEq, Repr

inductive Channel where
  /-- Something to read, of which this is left. -/
  | source (rest : List UInt8)
  /-- Something to write to, with what was written, the last first. -/
  | sink (chunks : List Chunk)
  /-- A file from some octet on, or always at its end. -/
  | file (place : List String) (offset : Nat) (atEnd : Bool)
  | nothing

/-- A process in the background: its id, when it ends, how, and whether it keeps the streams of
the script open. -/
structure BackgroundJob where
  id : Nat
  endsAt : Nat
  status : Nat
  signal : Option Nat
  keepsOpen : Bool
deriving DecidableEq, Repr

abbrev Sent := Nat × Nat

/-- What all processes of a script share. -/
structure World where
  channels : Array Channel
  disk : Disk
  /-- How long the script has run, in milliseconds. -/
  clock : Nat
  jobs : List BackgroundJob
  /-- How many commands may still be run. -/
  budget : Nat
  lastId : Nat
  /-- The signals that shells have not answered yet. -/
  arrived : List Sent
  /-- The signals for which shells have traps. -/
  guarded : List Sent

/-! ## Sessions -/

/-- A variable; it may have no value and yet be known. -/
structure Variable where
  value : Option String
  isExported : Bool
  isReadOnly : Bool
deriving DecidableEq, Repr

structure Session where
  /-- The id of the process that the shell is, or was split off from. -/
  id : Nat
  /-- The shell was split off. -/
  isApart : Bool
  name : String
  arguments : List String
  bindings : Table String Variable
  functions : List (String × Command)
  /-- The status of the last command. -/
  status : Nat
  /-- The status of the last command whose output was taken by the command at hand. -/
  taken : Option Nat
  options : List Char
  /-- What is done at a signal; 0 stands for the end of the script. -/
  traps : List (Nat × String)
  /-- The channels that streams lead to. -/
  streams : List (Nat × Nat)
  documents : Documents
  nextDocument : Nat
  /-- The line at hand. -/
  line : Nat
  /-- The command of the shell that is being run. -/
  command : Option String
  /-- The process in the background that the shell is a part of. -/
  job : Nat
  /-- The processes in the background that the shell has begun and not waited for. -/
  children : List Nat
  lastJob : Option Nat
  /-- How many functions are being called. -/
  calls : Nat
  /-- How many loops are being run. -/
  loops : Nat
  /-- The variables of each function being called as they were before. -/
  locals : List (List (String × Option Variable))
  /-- The place in the group of options at hand that `getopts` reads next. -/
  optionPlace : Nat
  /-- The permissions that new files do not get. -/
  mask : Nat
  aliases : Table String String
  world : World

inductive Flow where
  | breaks (loops : Nat)
  | continues (loops : Nat)
  | returns
  | exits
  /-- Something went wrong that ends the shell. -/
  | fails
  | killed (id signal : Nat)
  /-- It would go on for ever. -/
  | endless
deriving DecidableEq, Repr

abbrev Run := ExceptT Flow (StateM Session)

namespace Run

/-! ## Status and complaints -/

def done (status : Nat) : Run Unit :=
  modify (fun s => { s with status })

def change (f : World → World) : Run Unit :=
  modify (fun s => { s with world := f s.world })

/-- What runs is caught where it breaks off. -/
def caught (r : Run Unit) : Run (Option Flow) := do
  try
    r
    return none
  catch f => return some f

/-! ## Channels -/

def newChannel (c : Channel) : Run Nat := do
  let n := (← get).world.channels.size
  change (fun w => { w with channels := w.channels.push c })
  return n

def channel (n : Nat) : Run Channel := do
  return (← get).world.channels.getD n .nothing

def setChannel (n : Nat) (c : Channel) : Run Unit :=
  change (fun w => { w with channels := w.channels.setIfInBounds n c })

def streamChannel? (stream : Nat) : Run (Option Nat) := do
  return (← get).streams.lookup stream

def connect (stream : Nat) (channel : Option Nat) : Run Unit :=
  modify (fun s =>
    let others := s.streams.filter (fun e => e.1 != stream)
    { s with streams := match channel with
        | some n => (stream, n) :: others
        | none => others })

/-- Octets put into a file from an octet on; before it there are zeros. -/
def overwrite (content : List UInt8) (offset : Nat) (octets : List UInt8) : List UInt8 :=
  let before := content.take offset
  before ++ List.replicate (offset - before.length) 0 ++ octets
    ++ content.drop (offset + octets.length)

def writeTo (n : Nat) (octets : List UInt8) : Run Unit := do
  match ← channel n with
  | .sink chunks =>
      let s ← get
      setChannel n (.sink (⟨s.world.clock, s.job, octets⟩ :: chunks))
  | .file place offset atEnd =>
      let disk := (← get).world.disk
      match disk.contentAt place with
      | .ok content =>
          let start := if atEnd then content.length else offset
          change (fun w =>
            { w with disk := disk.put place (.file (overwrite content start octets)) })
          setChannel n (.file place (start + octets.length) atEnd)
      | .error _ => return ()
  | _ => return ()

/-- Octets are written to a stream, if it is open. -/
def emitOctets (stream : Nat) (octets : List UInt8) : Run Unit := do
  if octets.isEmpty then return ()
  match ← streamChannel? stream with
  | some n => writeTo n octets
  | none => return ()

def emit (stream : Nat) (text : String) : Run Unit :=
  emitOctets stream (unpacked text)

def input (stream : Nat) : Run (List UInt8) := do
  match ← streamChannel? stream with
  | none => return []
  | some n =>
      match ← channel n with
      | .source rest => return rest
      | .file place offset _ =>
          match (← get).world.disk.contentAt place with
          | .ok content => return content.drop offset
          | .error _ => return []
      | _ => return []

/-- Of what was left to read of a stream, this is left now. -/
def leave (stream : Nat) (rest : List UInt8) : Run Unit := do
  match ← streamChannel? stream with
  | none => return ()
  | some n =>
      match ← channel n with
      | .source _ => setChannel n (.source rest)
      | .file place _ atEnd =>
          match (← get).world.disk.contentAt place with
          | .ok content => setChannel n (.file place (content.length - rest.length) atEnd)
          | .error _ => return ()
      | _ => return ()

/-- All that was written to a channel, in the order of time. -/
def collected (n : Nat) : Run (List UInt8) := do
  match ← channel n with
  | .sink chunks =>
      let inOrder := chunks.reverse.mergeSort (fun a b => decide (a.time ≤ b.time))
      return inOrder.flatMap Chunk.octets
  | _ => return []

/-! ## Complaints -/

/-- A complaint of the shell about the line at hand, and the command that is being run. -/
def complain (message : String) : Run Unit := do
  let s ← get
  let command := match s.command with
    | some c => c ++ ": "
    | none => ""
  emit 2 (s.name ++ ": " ++ Text.decimalText s.line ++ ": " ++ command ++ message ++ "\n")

def atLine (n : Nat) : Run Unit :=
  modify (fun s => { s with line := n })

/-- Something goes wrong that ends the shell. -/
def fail {α : Type} (message : String) (status : Nat) : Run α := do
  complain message
  done status
  throw .fails

def newId : Run Nat := do
  let n := (← get).world.lastId + 1
  change (fun w => { w with lastId := n })
  return n

def pass (millis : Nat) : Run Unit :=
  change (fun w => { w with clock := w.clock + millis })

def spend : Run Unit := do
  if (← get).world.budget = 0 then throw .endless
  change (fun w => { w with budget := w.budget - 1 })

/-! ## Variables -/

def unset : Variable :=
  ⟨none, false, false⟩

def known (name : String) : Run Variable := do
  return ((← get).bindings.get? name).getD unset

def setVariable (name : String) (v : Variable) : Run Unit :=
  modify (fun s => { s with bindings := s.bindings.insert name v })

/-- A variable gets a value, unless that is forbidden. -/
def assign (name value : String) : Run Unit := do
  let v ← known name
  if v.isReadOnly then fail (name ++ ": is read only") 2
  let isExported := v.isExported || (← get).options.contains 'a'
  setVariable name { v with value := some value, isExported }

/-- The characters at which values are split. -/
def separators : Run (List Char) := do
  return ((← known "IFS").value.getD " \t\n").toList

def has (option : Char) : Run Bool := do
  return (← get).options.contains option

end Run

end ScanGraph.Shell
