/-
Commands of the shell, and what they have in common: options and numbers.

A command of the shell changes the shell itself.  What goes wrong in one ends
it with status 2; for some commands it ends the shell.
-/
import ScanGraph.Shell.Perform
import ScanGraph.Shell.Redirection

namespace ScanGraph.Shell

/-- What a command of the shell does with its arguments. -/
abbrev Builtin := Interpreter → Manner → List String → Run Unit

namespace Builtin

open Run

/-- The options at the beginning of arguments, each with its value, and the other arguments. -/
def options (plain valued : String) : Nat → List String → Run (List (Char × String) × List String)
  | 0, args => return ([], args)
  | fuel + 1, args =>
      match args with
      | [] => return ([], [])
      | a :: rest =>
          match a.toList with
          | ['-', '-'] => return ([], rest)
          | '-' :: l :: more => group fuel rest (l :: more)
          | _ => return ([], a :: rest)
where
  /-- The options of a group of letters, and those after it. -/
  group (fuel : Nat) (rest : List String) : List Char → Run (List (Char × String) × List String)
    | [] => options plain valued fuel rest
    | l :: more => do
        if valued.toList.contains l then
          let (v, rest) ← match more, rest with
            | [], [] => fail ("No arg for -" ++ l.toString ++ " option") 2
            | [], v :: rest => pure (v, rest)
            | more, rest => pure (String.ofList more, rest)
          let (os, left) ← options plain valued fuel rest
          return ((l, v) :: os, left)
        else if plain.toList.contains l then
          let (os, left) ← group fuel rest more
          return ((l, "") :: os, left)
        else fail ("Illegal option -" ++ l.toString) 2

/-- The options at the beginning of arguments, and the other arguments. -/
def optionsOf (plain valued : String) (args : List String) :
    Run (List (Char × String) × List String) :=
  options plain valued (args.length + 1) args

def given (os : List (Char × String)) (l : Char) : Bool :=
  os.any (fun o => o.1 == l)

def number (s : String) : Run Nat := do
  match Text.natural? s.toList with
  | some n => return n
  | none => fail ("Illegal number: " ++ s) 2

/-- A text is written, if the output is open. -/
def say (text : String) : Run Unit := do
  match ← streamChannel? 1 with
  | some _ =>
      emit 1 text
      done 0
  | none =>
      let command := (← get).command.getD ""
      complain (command ++ ": I/O error")
      done 1

/-- A text between single quotes, as scripts can read it. -/
def quoted (s : String) : String :=
  "'" ++ "'\"'\"'".intercalate ((s.toList.splitOn '\'').map String.ofList) ++ "'"

end Builtin

end ScanGraph.Shell
