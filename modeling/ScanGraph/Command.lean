/-
Scanners that are programs.

A program gets the id of the scanner as its last argument and the job on its
input, and what it writes is the evidence.  A program that does not end well is
an expected failure, and says why with what it complained about.  What programs
there are and what they do is left open.

`Spawn` is any function from a program, its arguments and its input to how it ended, so
that what is modelled is the contract between the pipeline and a program: what it is
given, which endings are evidence, which are failures, and how each of them is worded.

The text of a failure is what the program complained about, or says how it ended if it
did not complain.  A program that cannot be started is no failure of the target but of
the machinery, and so is one that cannot be given its name or an argument, as these hold
the character nought.
-/
import ScanGraph.Job.Codec
import ScanGraph.Json.Printer
import ScanGraph.Policy
import ScanGraph.Scanning

namespace ScanGraph

inductive Ending where
  | status (n : Nat)
  | signal (n : Nat)
deriving DecidableEq, Repr

/-- What a process wrote, how it ended, and how many milliseconds it took. -/
structure Process where
  out : List UInt8
  err : List UInt8
  ending : Ending
  elapsed : Nat
deriving DecidableEq, Repr

namespace Signal

/-- Signals by their names. -/
def names : List (String × Nat) :=
  [("HUP", 1), ("INT", 2), ("QUIT", 3), ("ILL", 4), ("TRAP", 5), ("ABRT", 6), ("BUS", 7),
   ("FPE", 8), ("KILL", 9), ("USR1", 10), ("SEGV", 11), ("USR2", 12), ("PIPE", 13), ("ALRM", 14),
   ("TERM", 15), ("STKFLT", 16), ("CHLD", 17), ("CONT", 18), ("STOP", 19), ("TSTP", 20),
   ("TTIN", 21), ("TTOU", 22), ("URG", 23), ("XCPU", 24), ("XFSZ", 25), ("VTALRM", 26),
   ("PROF", 27), ("WINCH", 28), ("IO", 29), ("PWR", 30), ("SYS", 31)]

def name? (n : Nat) : Option String :=
  (names.find? (fun s => s.2 == n)).map Prod.fst

end Signal

namespace Command

/-- How programs are started: with arguments and what they read. -/
abbrev Spawn := String → List String → List UInt8 → Except String Process

/-- The names of signals, as they are shown. -/
def signalText (n : Nat) : String :=
  match Signal.name? n with
  | some name => Text.decimalText n ++ " (SIG" ++ name ++ ")"
  | none => Text.decimalText n

/-- How a process ended, as it is shown. -/
def endingText : Ending → String
  | .status n => "exit status: " ++ Text.decimalText n
  | .signal n => "signal: " ++ signalText n

/-- What a program that failed said, or else how it ended. -/
def complaint (program : String) (p : Process) : String :=
  let said := Text.trim (Text.decodeLossy p.err)
  if said.isEmpty then program ++ " exited with " ++ endingText p.ending else said

/-- What a process comes to. -/
def outcome (program : String) (p : Process) : Outcome ScanError Evidence :=
  if p.ending = .status 0 then .returned (.ofOctets p.out)
  else .failed (.expected (complaint program p))

/-- A program could not be started. -/
def notStarted (program why : String) : Outcome ScanError Evidence :=
  .failed (.infrastructure ("failed to spawn " ++ program ++ ": " ++ why))

/-- A text that cannot be handed to a program. -/
def hasNul (s : String) : Bool :=
  s.toList.contains '\x00'

/-- The backend that runs a program for at most some seconds. -/
def backend (spawn : Spawn) (program : String) (args : List String) (seconds : Nat) :
    ScannerBody := fun job _ =>
  let args := args ++ [job.scanner.id]
  if (program :: args).any hasNul then some (notStarted program "nul byte found in provided data")
  else match spawn program args (Text.octets job.toJson.render) with
    | .error why => some (notStarted program why)
    | .ok p => if seconds * 1000 ≤ p.elapsed then none else some (outcome program p)

end Command

def ScanPolicy.backendWith (p : ScanPolicy) (spawn : Command.Spawn) (r : Registry) :
    ScannerBody :=
  match p.backend with
  | .inProcess => r.backend
  | .command program args => Command.backend spawn program args p.timeoutSeconds

end ScanGraph
