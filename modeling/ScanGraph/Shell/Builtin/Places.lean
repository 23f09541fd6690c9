/-
Places, names and texts: `cd`, `pwd`, `umask`, `type`, `alias`, `echo` and others.
-/
import ScanGraph.Shell.Builtin.Options
import ScanGraph.Shell.Program

namespace ScanGraph.Shell.Builtin

open Run

/-! ## Texts and conditions -/

def nothing (status : Nat) : Builtin := fun _ _ _ => done status

def echo : Builtin := fun _ _ args => say (String.ofList (Format.echoed args))

/-- What went wrong with arguments is said. -/
def complainAll : List String → Run Unit
  | [] => return ()
  | f :: rest => do
      complain f
      complainAll rest

def printf : Builtin := fun _ _ args => do
  let (_, args) ← optionsOf "" "" args
  match args with
  | [] => fail "usage: printf format [arg ...]" 2
  | format :: args => do
      let p := Format.printed format args
      complainAll p.faults
      say (String.ofList p.out)
      let s ← get
      done (max s.status p.status)

def test : Builtin := fun _ _ args => do
  let s ← get
  match Condition.run s.world.disk (s.command.getD "test") args with
  | .ok b => done (if b then 0 else 1)
  | .error e => fail e 2

/-! ## Places -/

def moveTo (place : List String) : Run Unit := do
  let here := Disk.pathOf (← get).world.disk.place
  change (fun w => { w with disk := { w.disk with place } })
  let exported (v : String) : Variable := ⟨some v, true, false⟩
  setVariable "OLDPWD" (exported here)
  setVariable "PWD" (exported (Disk.pathOf place))

def cd : Builtin := fun _ _ args => do
  let (_, names) ← optionsOf "LP" "" args
  let target ← match names with
    | [] => pure ((← known "HOME").value.getD "")
    | "-" :: _ => pure ((← known "OLDPWD").value.getD "")
    | name :: _ => pure name
  let disk := (← get).world.disk
  if target.isEmpty then done 0
  else match disk.placeOf target with
    | .error _ => fail ("can't cd to " ++ target) 2
    | .ok place =>
        if disk.kindAt? place == some .directory then do
          moveTo place
          if names.head? == some "-" then say (Disk.pathOf place ++ "\n") else done 0
        else fail ("can't cd to " ++ target) 2

/-- The path of the place where the shell stands is written. -/
def pwd : Builtin := fun _ _ args => do
  let _ ← optionsOf "LP" "" args
  say (Disk.pathOf (← get).world.disk.place ++ "\n")

/-- The permissions that a mask leaves, as letters. -/
def permissionsOf (mask : Nat) : String :=
  let letters (k : Nat) : String :=
    let bits := mask / Nat.pow 8 k % 8
    (if bits / 4 % 2 = 0 then "r" else "") ++ (if bits / 2 % 2 = 0 then "w" else "")
      ++ (if bits % 2 = 0 then "x" else "")
  "u=" ++ letters 2 ++ ",g=" ++ letters 1 ++ ",o=" ++ letters 0

/-- The permissions that new files do not get are shown or set. -/
def umask : Builtin := fun _ _ args => do
  let (os, args) ← optionsOf "S" "" args
  let mask := (← get).mask
  match args with
  | [] =>
      let ds := Nat.toDigits 8 mask
      say ((if given os 'S' then permissionsOf mask
        else String.ofList (List.replicate (4 - ds.length) '0' ++ ds)) ++ "\n")
  | a :: _ =>
      if a.toList.all Char.isDigit && !a.isEmpty then
        if a.toList.all Format.isOctal then do
          let mask := a.toList.foldl (fun n c => 8 * n + Text.digitValue c) 0 % 512
          modify (fun s => { s with mask })
          done 0
        else fail ("Illegal number: " ++ a) 2
      else fail ("Illegal mode: " ++ a) 2

/-! ## Names -/

/-- The commands whose faults end the shell. -/
def specialNames : List String :=
  "local" :: Reading.specialNames

def regularNames : List String :=
  ["[", "alias", "bg", "cd", "chdir", "command", "echo", "false", "fc", "fg", "getopts", "hash",
   "jobs", "kill", "printf", "pwd", "read", "test", "true", "type", "ulimit", "umask", "unalias",
   "wait"]

/-- What a name stands for, in words or in short; none if it stands for nothing. -/
def described (isShort : Bool) (name : String) : Run (Option String) := do
  let s ← get
  let text (words : String) : Option String :=
    some (if isShort then name else name ++ words)
  if Token.keywords.contains name then return text " is a shell keyword"
  match s.aliases.get? name with
  | some v =>
      return some (if isShort then "alias " ++ name ++ "=" ++ quoted v
        else name ++ " is an alias for " ++ v)
  | none => pure ()
  if specialNames.contains name then return text " is a special shell builtin"
  if s.functions.any (fun f => f.1 == name) then return text " is a shell function"
  if regularNames.contains name then return text " is a shell builtin"
  match ← Program.path name with
  | .ok path => return some (if isShort then path else name ++ " is " ++ path)
  | .error _ => return none

/-- What names stand for, and the status. -/
def describeAll (isShort : Bool) : List String → Run (String × Nat)
  | [] => return ("", 0)
  | name :: rest => do
      let known ← described isShort name
      let (text, status) ← describeAll isShort rest
      match known with
      | some found => return (found ++ "\n" ++ text, status)
      | none => return ((if isShort then "" else name ++ ": not found\n") ++ text, 127)

def sayAll (isShort : Bool) (names : List String) : Run Unit := do
  let (text, status) ← describeAll isShort names
  if text.isEmpty then done status
  else
    say text
    done (status ||| (← get).status)

def describe : Builtin := fun _ _ args => sayAll false args

/-- What a name stands for; a command that is to be run is run elsewhere. -/
def command : Builtin := fun _ _ args => do
  let (os, names) ← optionsOf "pvV" "" args
  if given os 'v' || given os 'V' then sayAll (!given os 'V') (names.take 1) else done 0

def lookUpAll (status : Nat) : List String → Run Unit
  | [] => done status
  | name :: rest => do
      let s ← get
      let isKnown := specialNames.contains name || regularNames.contains name
        || s.functions.any (fun f => f.1 == name)
      match isKnown, ← Program.path name with
      | false, .error _ => do
          complain (name ++ ": not found")
          lookUpAll 1 rest
      | _, _ => lookUpAll status rest

def hash : Builtin := fun _ _ args => do
  let (_, names) ← optionsOf "rv" "" args
  lookUpAll 0 names

/-- Names that stand for texts are set or shown. -/
def setAliases (status : Nat) : List String → Run Unit
  | [] => done status
  | a :: rest => do
      let name := String.ofList (a.toList.takeWhile (· != '='))
      let aliases := (← get).aliases
      if a.contains '=' && !name.isEmpty then
        let value := String.ofList (a.toList.drop (name.length + 1))
        modify (fun s => { s with aliases := aliases.insert name value })
        setAliases status rest
      else match aliases.get? a with
        | some v => do
            emit 1 (a ++ "=" ++ quoted v ++ "\n")
            setAliases status rest
        | none => do
            emit 2 ("alias: " ++ a ++ " not found\n")
            setAliases 1 rest

def aliasNames : Builtin := fun _ _ args => do
  match args with
  | [] => say (String.join ((← get).aliases.entries.map (fun (n, v) =>
      n ++ "=" ++ quoted v ++ "\n")))
  | _ => setAliases 0 args

def dropAliases (status : Nat) : List String → Run Unit
  | [] => done status
  | a :: rest => do
      let aliases := (← get).aliases
      if aliases.contains a then
        modify (fun s => { s with aliases := aliases.erase a })
        dropAliases status rest
      else do
        emit 2 ("unalias: " ++ a ++ " not found\n")
        dropAliases 1 rest

def unalias : Builtin := fun _ _ args => do
  let (os, names) ← optionsOf "a" "" args
  if given os 'a' then
    modify (fun s => { s with aliases := .empty })
    done 0
  else dropAliases 0 names

/-! ## Resources -/

/-- The time that the shell has used, which is none. -/
def times : Builtin := fun _ _ _ =>
  say "0m0.000000s 0m0.000000s\n0m0.000000s 0m0.000000s\n"

/-- The limits of the shell, of which there are none. -/
def ulimit : Builtin := fun _ _ args => do
  let (_, limits) ← optionsOf "HSatfdscmlpnvwr" "" args
  if limits.isEmpty then say "unlimited\n" else done 0

/-- Processes in the background are not shown. -/
def jobs : Builtin := fun _ _ args => do
  let _ ← optionsOf "lp" "" args
  done 0

/-- No process can be brought to the front. -/
def front : Builtin := fun _ _ _ => fail "No current job" 2

end ScanGraph.Shell.Builtin
