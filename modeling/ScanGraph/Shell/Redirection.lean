/-
Redirections: where the streams of a command lead.

The paths of all redirections are expanded first; then streams are connected
one after the other, up to the first that cannot be.
-/
import ScanGraph.Shell.Expansion

namespace ScanGraph.Shell

open Run

/-- A redirection whose words are expanded. -/
inductive Connecting where
  | path (stream : Nat) (c : Connection) (path : String)
  /-- Where another stream leads, or nowhere. -/
  | copy (stream : Nat) (other : Option Nat)
  | document (stream number : Nat)

namespace Connecting

/-- The stream that a text names, or none at all; other texts are refused. -/
def other (text : String) : Run (Option Nat) := do
  match text.toList with
  | ['-'] => return none
  | [d] => if d.isDigit then return some (Text.digitValue d)
           else fail "Syntax error: Bad fd number" 2
  | _ => fail "Syntax error: Bad fd number" 2

/-- A redirection with its words expanded. -/
def ofRedirect (i : Interpreter) : Redirect → Run Connecting
  | .connect stream .copy w => do
      return .copy stream (← other (← wordText i w))
  | .connect stream c w => do
      return .path stream c (← wordText i w)
  | .document stream number => return .document stream number

/-- Redirections with their words expanded. -/
def ofRedirects (i : Interpreter) : List Redirect → Run (List Connecting)
  | [] => return []
  | r :: rest => do
      let c ← ofRedirect i r
      return c :: (← ofRedirects i rest)

/-! ## Opening -/

/-- What is said of a file that cannot be opened. -/
def cannotOpen (path : String) (f : DiskFault) : String :=
  "cannot open " ++ path ++ ": " ++
    (if f = .missing ∨ f = .notDirectory then "No such file" else f.message)

/-- What is said of a file that cannot be written to. -/
def cannotCreate (path : String) (f : DiskFault) : String :=
  "cannot create " ++ path ++ ": " ++
    (if f = .missing ∨ f = .notDirectory then "Directory nonexistent" else f.message)

/-- The stream that a path stands for. -/
def streamOf? (path : String) : Option Nat :=
  if path == "/dev/stdin" then some 0
  else if path == "/dev/stdout" then some 1
  else if path == "/dev/stderr" then some 2
  else ["/dev/fd/", "/proc/self/fd/"].findSome? (fun d =>
    if d.isPrefixOf path then Text.natural? (path.toList.drop d.length) else none)

def openSource (path : String) : Run (Except String Channel) := do
  let disk := (← get).world.disk
  match disk.placeOf path with
  | .error f => return .error (cannotOpen path f)
  | .ok place =>
      match disk.kindAt? place with
      | none => return .error (cannotOpen path .missing)
      | some _ => return .ok (.file place 0 false)

/-- A file to write to, of which what it holds is kept or not. -/
def openSink (path : String) (keeps atEnd : Bool) : Run (Except String Channel) := do
  let disk := (← get).world.disk
  match disk.placeToWrite path with
  | .error f => return .error (cannotCreate path f)
  | .ok place =>
      if disk.kindAt? place == some .device then return .ok .nothing
      else
        let isNew := (disk.kindAt? place).isNone
        if (← has 'C') && !keeps && !isNew then
          return .error (cannotCreate path .present)
        if isNew || !keeps then
          change (fun w => { w with disk := w.disk.put place (.file []) })
        return .ok (.file place 0 atEnd)

def connectOpened (stream : Nat) (c : Except String Channel) : Run (Option String) := do
  match c with
  | .ok c => do
      let n ← newChannel c
      connect stream (some n)
      return none
  | .error message => return some message

/-- A stream is connected with a path; what is said if it cannot be. -/
def connectPath (stream : Nat) (c : Connection) (path : String) : Run (Option String) := do
  match streamOf? path with
  | some other =>
      match ← streamChannel? other with
      | some n => do
          connect stream (some n)
          return none
      | none => return some (cannotOpen path .missing)
  | none =>
      match c with
      | .source => connectOpened stream (← openSource path)
      | .sink => connectOpened stream (← openSink path false false)
      | .ending => connectOpened stream (← openSink path true true)
      | _ => connectOpened stream (← openSink path true false)

/-- A redirection is made; what is said if it cannot be. -/
def make (i : Interpreter) : Connecting → Run (Option String)
  | .path stream c target => connectPath stream c target
  | .copy stream none => do
      connect stream none
      return none
  | .copy stream (some other) => do
      match ← streamChannel? other with
      | some n => do
          connect stream (some n)
          return none
      | none => return some (Text.decimalText other ++ ": Bad file descriptor")
  | .document stream number => do
      let w := ((← get).documents.lookup number).getD []
      let n ← newChannel (.source (unpacked (← textOf (← i.word w))))
      connect stream (some n)
      return none

/-- Redirections are made one after the other, up to the first that cannot be; what goes wrong in
one ends no shell. -/
def makeAll (i : Interpreter) : List Connecting → Run Bool
  | [] => return true
  | c :: rest => do
      let said ← tryCatch ((make i c).map some) (fun f => match f with
        | .fails => return none
        | f => throw f)
      match said with
      | none => return false
      | some none => makeAll i rest
      | some (some message) =>
          complain message
          done 2
          return false

end Connecting

/-- Something runs, after which streams lead where they led before. -/
def restoringStreams (r : Run Unit) : Run Unit := do
  let before := (← get).streams
  let flow ← caught r
  modify (fun s => { s with streams := before })
  match flow with
  | some f => throw f
  | none => return ()

/-- Something runs with its streams redirected, unless they cannot be. -/
def redirected (i : Interpreter) (rs : List Redirect) (r : Run Unit) : Run Unit := do
  let cs ← Connecting.ofRedirects i rs
  restoringStreams do
    if ← Connecting.makeAll i cs then r

end ScanGraph.Shell
