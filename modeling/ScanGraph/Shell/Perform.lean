/-
Signals, running text, and what happens between commands.

A signal is a number below 65.  The first ones have names, and so have, in
scripts, those at the upper end, which are counted from either side.  Most
signals kill the process they are sent to; a few do nothing, and some stop it.

The text of a script is read and run line by line.  A trap is a text that is
run when a signal has arrived, after the command at hand, or when a shell ends.
-/
import ScanGraph.Shell.Expansion
import ScanGraph.Text.Digits

namespace ScanGraph.Shell.Signal

def count : Nat := 65

/-- The name of a signal in scripts; 0 stands for the end of the script. -/
def scriptName (n : Nat) : String :=
  if n = 0 then "EXIT"
  else if n = 34 then "RTMIN"
  else if n = 64 then "RTMAX"
  else if 34 < n ∧ n < 50 then "RTMIN+" ++ Text.decimalText (n - 34)
  else if 50 ≤ n ∧ n < 64 then "RTMAX-" ++ Text.decimalText (64 - n)
  else if n = 16 then "16"
  else (ScanGraph.Signal.name? n).getD (Text.decimalText n)

/-- The signal that a text spells by its number or its name; 0 is no signal but may be sent. -/
def parse? (s : String) : Option Nat :=
  match Text.natural? s.toList with
  | some n => if n < count then some n else none
  | none => (List.range count).find? (fun n => scriptName n == s.map Char.toUpper)

/-- The signals that do nothing to a process that is not prepared for them. -/
def harmless : List Nat :=
  [0, 17, 18, 23, 28]

def stopping : List Nat :=
  [19, 20, 21, 22]

/-- The signals that cannot be trapped. -/
def untrappable : List Nat :=
  [9, 19]

/-- What is said of a process that a signal has ended; some signals end processes silently. -/
def said? (n : Nat) : Option String :=
  match n with
  | 1 => some "Hangup"
  | 3 => some "Quit"
  | 4 => some "Illegal instruction"
  | 5 => some "Trace/breakpoint trap"
  | 6 => some "Aborted"
  | 7 => some "Bus error"
  | 8 => some "Floating point exception"
  | 9 => some "Killed"
  | 10 => some "User defined signal 1"
  | 11 => some "Segmentation fault"
  | 12 => some "User defined signal 2"
  | 14 => some "Alarm clock"
  | 15 => some "Terminated"
  | 16 => some "Stack fault"
  | 24 => some "CPU time limit exceeded"
  | 25 => some "File size limit exceeded"
  | 26 => some "Virtual timer expired"
  | 27 => some "Profiling timer expired"
  | 29 => some "I/O possible"
  | 30 => some "Power failure"
  | 31 => some "Bad system call"
  | _ => none

end ScanGraph.Shell.Signal

namespace ScanGraph.Shell

open Run

/-! ## Text -/

/-- The commands of a text are run line by line, at most `fuel` lines; a text without commands is a
success. -/
def runLines (i : Interpreter) (m : Manner) : Nat → Bool → Source → Run Unit
  | 0, _, _ => return ()
  | fuel + 1, hasRun, s =>
      match s.nextLine? with
      | .error (fault, line) => do
          modify (fun s => { s with line })
          fail ("Syntax error: " ++ fault.message) 2
      | .ok (none, _) => if hasRun then return () else done 0
      | .ok (some c, left) => do
          modify (fun s => { s with
            documents := left.documents ++ s.documents
            nextDocument := left.nextDocument })
          i.run m c
          runLines i m fuel true { left with documents := [] }

/-- The commands of a text are run; its lines are counted from one. -/
def runText (i : Interpreter) (m : Manner) (text : String) : Run Unit := do
  runLines i m (text.length + 1) false (.start text (← get).nextDocument)

/-! ## Traps -/

/-- What is done at a signal, if something is. -/
def trapOf? (signal : Nat) : Run (Option String) := do
  return (← get).traps.lookup signal

/-- A text is run at a signal; the status stays as it was, unless the text ends the shell. -/
def runTrap (i : Interpreter) (text : String) : Run Unit := do
  let status := (← get).status
  runText i .plain text
  done status

/-- The trap of the end of a shell is run, which ends with the status it has then. -/
def finish (i : Interpreter) : Run Unit := do
  match ← trapOf? 0 with
  | none => return ()
  | some text =>
      modify (fun s => { s with traps := s.traps.filter (fun t => t.1 != 0), command := none })
      let flow ← caught (runTrap i text)
      goOnWith flow

/-- The signals that have arrived for a shell are answered one after the other. -/
def answerAll (i : Interpreter) : List Sent → Run Unit
  | [] => return ()
  | (_, signal) :: rest => do
      match ← trapOf? signal with
      | some text => runTrap i text
      | none => return ()
      answerAll i rest

/-- The signals that have arrived for the shell are answered. -/
def answer (i : Interpreter) : Run Unit := do
  let s ← get
  unless s.isApart || s.world.arrived.isEmpty do
    let mine (e : Sent) : Bool := e.1 == s.id
    change (fun w => { w with arrived := w.arrived.filter (fun e => !mine e) })
    answerAll i (s.world.arrived.filter mine)

/-! ## Signals -/

/-- What a signal does to a shell that has no trap for it. -/
def suffer (id signal : Nat) : Run Unit := do
  if Signal.harmless.contains signal then return ()
  else if Signal.stopping.contains signal then throw .endless
  else throw (.killed id signal)

/-- A signal is sent to the shell itself, or to the one that it was split off from. -/
def signalShell (signal : Nat) : Run Unit := do
  let s ← get
  if Signal.untrappable.contains signal then suffer s.id signal
  else
    let trap := s.traps.lookup signal
    if trap == some "" then return ()
    else if (trap.isSome && !s.isApart) || s.world.guarded.contains (s.id, signal) then
      change (fun w => { w with arrived := w.arrived ++ [(s.id, signal)] })
    else suffer s.id signal

/-- What a process in the background wrote after it was killed is taken back. -/
def Channel.withdrawn (c : Channel) (job time : Nat) : Channel :=
  match c with
  | .sink chunks => .sink (chunks.filter (fun k => !(k.job == job && time < k.time)))
  | c => c

/-- A process in the background is killed. -/
def killJob (id signal : Nat) : Run Unit :=
  change (fun w =>
    let killed (j : BackgroundJob) : BackgroundJob :=
      if j.id == id && w.clock < j.endsAt then
        { j with endsAt := w.clock, status := 128 + signal, signal := some signal }
      else j
    { w with
      jobs := w.jobs.map killed
      channels := w.channels.map (fun c => c.withdrawn id w.clock) })

/-- A signal is sent to a process, if there is one. -/
def send (id signal : Nat) : Run Bool := do
  let s ← get
  if id == s.id || id == 0 then
    signalShell signal
    return true
  else if s.children.contains id then
    unless Signal.harmless.contains signal || Signal.stopping.contains signal do
      killJob id signal
    return true
  else return false

end ScanGraph.Shell
