/-
Variables, arguments and options of the shell: `export`, `readonly`, `local`,
`unset`, `set` and `shift`.
-/
import ScanGraph.Shell.Builtin.Options

namespace ScanGraph.Shell.Builtin

open Run

/-! ## Variables -/

/-- The name of an argument that may assign a variable, and the value. -/
def assignmentOf (a : String) : String × Option String :=
  let name := a.toList.takeWhile (· != '=')
  let value := match a.toList.drop name.length with
    | _ :: v => some (String.ofList v)
    | [] => none
  (String.ofList name, value)

/-- A name that no variable can have is refused. -/
def checkName (name : String) : Run Unit :=
  if isName name then return () else fail (name ++ ": bad variable name") 2

/-- Arguments that assign variables or name them; each variable is marked. -/
def declare (mark : Variable → Variable) : List String → Run Unit
  | [] => done 0
  | a :: rest => do
      let (name, value) := assignmentOf a
      checkName name
      match value with
      | some v => assign name v
      | none => pure ()
      setVariable name (mark (← known name))
      declare mark rest

/-- Variables of a kind as scripts can read them, in the order of their names. -/
def listed (word : String) (isKind : Variable → Bool) (vs : List (String × Variable)) : String :=
  let lines := vs.filterMap (fun (n, v) =>
    if isKind v then
      match v.value with
      | some s => some (word ++ n ++ "=" ++ quoted s ++ "\n")
      | none => some (word ++ n ++ "\n")
    else none)
  String.join (lines.mergeSort (fun a b => decide (a ≤ b)))

def marking (word : String) (mark : Variable → Variable) (isMarked : Variable → Bool) : Builtin :=
  fun _ _ args => do
    let (os, names) ← optionsOf "p" "" args
    if given os 'p' || names.isEmpty then
      say (listed word isMarked (← get).bindings.entries)
    else declare mark names

def exportNames : Builtin :=
  marking "export " (fun v => { v with isExported := true }) Variable.isExported

def readonly : Builtin :=
  marking "readonly " (fun v => { v with isReadOnly := true }) Variable.isReadOnly

/-- Variables are as they were when the function at hand ends. -/
def makeLocal : List String → Run Unit
  | [] => done 0
  | a :: rest => do
      let (name, value) := assignmentOf a
      if name != "-" then
        checkName name
        let s ← get
        match s.locals with
        | frame :: outer =>
            unless frame.any (fun e => e.1 == name) do
              set { s with locals := ((name, s.bindings.get? name) :: frame) :: outer }
        | [] => pure ()
        match value with
        | some v => assign name v
        | none => pure ()
      makeLocal rest

def localNames : Builtin := fun _ _ args => do
  if (← get).calls = 0 then fail "not in a function" 2
  makeLocal args

/-- Variables or functions are forgotten. -/
def forget (functions : Bool) : List String → Run Unit
  | [] => done 0
  | name :: rest => do
      if functions then
        modify (fun s => { s with functions := s.functions.filter (fun f => f.1 != name) })
      else
        checkName name
        if (← known name).isReadOnly then fail (name ++ ": is read only") 2
        modify (fun s => { s with bindings := s.bindings.erase name })
      forget functions rest

/-- Variables or functions are forgotten. -/
def unset : Builtin := fun _ _ args => do
  let (os, names) ← optionsOf "vf" "" args
  forget (given os 'f') names

/-! ## Options -/

/-- The options of the shell, with their letters if they have one. -/
def optionNames : List (String × Option Char) :=
  [("errexit", some 'e'), ("noglob", some 'f'), ("ignoreeof", some 'I'),
   ("interactive", some 'i'), ("monitor", some 'm'), ("noexec", some 'n'), ("stdin", some 's'),
   ("xtrace", some 'x'), ("verbose", some 'v'), ("vi", some 'V'), ("emacs", some 'E'),
   ("noclobber", some 'C'), ("allexport", some 'a'), ("notify", some 'b'), ("nounset", some 'u'),
   ("nolog", none), ("debug", none)]

def setOption (isOn : Bool) (l : Char) : Run Unit :=
  modify (fun s =>
    let others := s.options.filter (· != l)
    { s with options := if isOn then l :: others else others })

def setLetter (isOn : Bool) (l : Char) : Run Unit := do
  if optionNames.any (fun o => o.2 == some l) then setOption isOn l
  else fail ("Illegal option -" ++ l.toString) 2

/-- The option with a name is set or not. -/
def setNamed (isOn : Bool) (name : String) : Run Unit := do
  match optionNames.lookup name with
  | some (some l) => setOption isOn l
  | some none => return ()
  | none => fail ("Illegal option -o " ++ name) 2

def optionTable (forScripts : Bool) : Run String := do
  let s ← get
  let isOn (l : Option Char) : Bool := l.any s.options.contains
  let line (o : String × Option Char) : String :=
    if forScripts then "set " ++ (if isOn o.2 then "-o " else "+o ") ++ o.1 ++ "\n"
    else o.1 ++ "".pushn ' ' (16 - o.1.length) ++ (if isOn o.2 then "on" else "off") ++ "\n"
  return (if forScripts then "" else "Current option settings\n")
    ++ String.join (optionNames.map line)

/-- The letters of a group of options; `o` takes a name from the next argument. -/
def setGroup (isOn : Bool) (next : Option String) : List Char → Run Bool
  | [] => return false
  | 'o' :: rest => do
      match next with
      | some name => setNamed isOn name
      | none => emit 1 (← optionTable (!isOn))
      let _ ← setGroup isOn none rest
      return true
  | l :: rest => do
      setLetter isOn l
      setGroup isOn next rest

/-- The options at the beginning of arguments are set, of which `skip` are passed; the others, if
there are any, or if two dashes say so. -/
def setOptions : Nat → List String → Run (Option (List String))
  | _, [] => return none
  | skip + 1, _ :: rest => setOptions skip rest
  | 0, a :: rest =>
      match a.toList with
      | ['-', '-'] => return some rest
      | ['-'] => return (if rest.isEmpty then none else some rest)
      | '-' :: group => do
          let used ← setGroup true rest.head? group
          setOptions (if used then 1 else 0) rest
      | '+' :: group => do
          let used ← setGroup false rest.head? group
          setOptions (if used then 1 else 0) rest
      | _ => return some (a :: rest)

def setShell : Builtin := fun _ _ args => do
  if args.isEmpty then
    say (listed "" (fun v => v.value.isSome) (← get).bindings.entries)
  else
    match ← setOptions 0 args with
    | some arguments => modify (fun s => { s with arguments, optionPlace := 0 })
    | none => pure ()
    done 0

def shift : Builtin := fun _ _ args => do
  let n ← match args with
    | a :: _ => number a
    | [] => pure 1
  let s ← get
  if s.arguments.length < n then fail "can't shift that many" 2
  set { s with arguments := s.arguments.drop n, optionPlace := 0 }
  done 0

end ScanGraph.Shell.Builtin
