/-
Expansion: the fields that words stand for.

A word is expanded to marks first: characters, each quoted or not, those from a
value that is not quoted open to be split; and the ends of arguments.  Fields
are cut out of the marks, and each stands for the paths it matches.
-/
import ScanGraph.Shell.Arithmetic
import ScanGraph.Shell.Glob
import ScanGraph.Shell.Session

namespace ScanGraph.Shell

inductive Mark where
  | char (c : Char) (isQuoted : Bool) (isOpen : Bool)
  /-- The end of an argument. -/
  | gap
  /-- Quotes, which make a field even if they hold nothing. -/
  | quotes
deriving DecidableEq, Repr

/-- How a command stands: what is tested does not end a script that ends at failures. -/
inductive Manner where
  | plain
  | tested
deriving DecidableEq, Repr

/-- How what is inside of commands and words is run and expanded, and how programs are started:
by the name they are called by, the name they have, and their arguments. -/
structure Interpreter where
  run : Manner → Command → Run Unit
  word : Word → Run (List Mark)
  start : String → String → List String → Run Ending

/-! ## Fields -/

/-- Fields that are complete, the last one first; the one at hand; and whether a blank has just
ended a field. -/
structure Fields where
  complete : List Glob
  current : Option Glob
  afterBlank : Bool

namespace Fields

def close (f : Fields) : Fields :=
  match f.current with
  | some g => { f with complete := g.reverse :: f.complete, current := none }
  | none => f

/-- The fields after one more mark; the field at hand is kept last character first. -/
def add (separators : List Char) (f : Fields) : Mark → Fields
  | .gap => { f.close with afterBlank := false }
  | .quotes => { f with current := some (f.current.getD []), afterBlank := false }
  | .char c isQuoted isOpen =>
      if isOpen && separators.contains c then
        if c == ' ' || c == '\t' || c == '\n' then
          { f.close with afterBlank := f.current.isSome || f.afterBlank }
        else if f.current.isSome || f.afterBlank then { f.close with afterBlank := false }
        else { f with complete := [] :: f.complete }
      else ⟨f.complete, some ((c, isQuoted) :: f.current.getD []), false⟩

def ofMarks (separators : List Char) (marks : List Mark) : List Glob :=
  ((marks.foldl (add separators) ⟨[], none, false⟩).close).complete.reverse

end Fields

/-- The text of marks as a glob, in which arguments are joined. -/
def joinedGlob (joint : List Char) (marks : List Mark) : Glob :=
  marks.flatMap (fun
    | .char c q _ => [(c, q)]
    | .gap => joint.map (fun c => (c, true))
    | .quotes => [])

/-! ## Values -/

def marksOf (isQuoted : Bool) (value : String) : List Mark :=
  let chars := value.toList.map (fun c => Mark.char c isQuoted !isQuoted)
  if isQuoted then .quotes :: chars else chars

/-- The marks of values, each of which is an argument. -/
def argumentsOf (isQuoted : Bool) (values : List String) : List Mark :=
  [Mark.gap].intercalate (values.map (marksOf isQuoted))

namespace Run

/-- What joins arguments: the first character at which values are split. -/
def joint : Run (List Char) := do
  match (← known "IFS").value with
  | some ifs => return ifs.toList.take 1
  | none => return [' ']

def globOf (marks : List Mark) : Run Glob := do
  return joinedGlob (← joint) marks

def textOf (marks : List Mark) : Run String := do
  return String.ofList (← globOf marks).text

/-- The value of a parameter, if it is set. -/
def parameter? (name : String) : Run (Option String) := do
  let s ← get
  match name with
  | "?" => return some (Text.decimalText s.status)
  | "$" => return some (Text.decimalText s.id)
  | "#" => return some (Text.decimalText s.arguments.length)
  | "0" => return some s.name
  | "!" => return s.lastJob.map Text.decimalText
  | "-" => return some (String.ofList s.options)
  | _ =>
      match Text.natural? name.toList with
      | some n => return s.arguments[n - 1]?
      | none => return (← known name).value

/-- The arguments as marks: between quotes each stays a field of its own, and otherwise each is
split. -/
def argumentMarks (name : String) (isQuoted : Bool) : Run (List Mark) := do
  let args := (← get).arguments
  if name == "*" && isQuoted then
    return marksOf true ((String.ofList (← joint)).intercalate args)
  else return argumentsOf isQuoted args

/-- A parameter that is not set is refused. -/
def refuse {α : Type} (name message : String) : Run α :=
  fail (name ++ ": " ++ message) 2

end Run

open Run

/-- The marks of a parameter as it is, if it is set. -/
def plainMarks? (name : String) (isQuoted : Bool) : Run (Option (List Mark)) := do
  if name == "@" || name == "*" then return some (← argumentMarks name isQuoted)
  else return (← parameter? name).map (marksOf isQuoted)

/-- The marks of a word that takes the place of a parameter: outside of quotes what is not quoted
in it is split. -/
def fallbackMarks (i : Interpreter) (isQuoted : Bool) (w : Word) : Run (List Mark) := do
  let marks ← i.word w
  let opened := marks.map (fun
    | .char c q o => Mark.char c q (o || (!isQuoted && !q))
    | m => m)
  return if isQuoted then .quotes :: opened else opened

/-- The marks of a parameter that has a fallback. -/
def withFallback (i : Interpreter) (name : String) (f : Fallback) (evenIfEmpty : Bool) (w : Word)
    (isQuoted : Bool) : Run (List Mark) := do
  let marks ← plainMarks? name isQuoted
  let isEmpty := marks.any (fun ms => ms.all (· == .quotes))
  let isSet := marks.isSome && !(evenIfEmpty && isEmpty)
  let nothing : List Mark := if isQuoted then [.quotes] else []
  match f with
  | .instead => if isSet then return marks.getD [] else fallbackMarks i isQuoted w
  | .present => if isSet then fallbackMarks i isQuoted w else return nothing
  | .assigned =>
      if isSet then return marks.getD []
      else
        let value ← textOf (← i.word w)
        if !isName name then fail (name ++ ": bad variable name") 2
        assign name value
        return marksOf isQuoted value
  | .refused =>
      if isSet then return marks.getD []
      else if w.isEmpty then
        refuse name ("parameter not set" ++ if evenIfEmpty then " or null" else "")
      else refuse name (← textOf (← i.word w))

/-- A parameter must be set if the option `u` asks for it. -/
def demand (name : String) (marks : Option (List Mark)) : Run (List Mark) := do
  match marks with
  | some ms => return ms
  | none =>
      if ← has 'u' then refuse name "parameter not set" else return []

def parameterMarks (i : Interpreter) (name : String) (c : Change) (isQuoted : Bool) :
    Run (List Mark) := do
  match c with
  | .plain =>
      let marks ← plainMarks? name isQuoted
      let isSet := marks.isSome
      let marks ← demand name marks
      return if isQuoted && !isSet then [.quotes] else marks
  | .length =>
      let value ← demand name (← plainMarks? name true)
      return marksOf isQuoted (Text.decimalText (← textOf value).length)
  | .fallback f evenIfEmpty w => withFallback i name f evenIfEmpty w isQuoted
  | .trim t w =>
      let value := joinedGlob ['\x00'] (← demand name (← plainMarks? name isQuoted))
      let left := (← globOf (← i.word w)).trimmed t.atEnd t.longest value.text
      return argumentsOf isQuoted ((left.splitOn '\x00').map String.ofList)

/-! ## Output -/

/-- Something runs apart: what it changes is lost, but for what all processes share. -/
def apart (body : Run Unit) : Run (Option Flow) := do
  let before ← get
  set { before with
    isApart := true
    traps := before.traps.filter (fun t => t.2.isEmpty)
    children := [] }
  let flow ← caught body
  modify (fun s => { before with
    status := s.status
    world := { s.world with disk := { s.world.disk with place := before.world.disk.place } } })
  return flow

/-- Processes in the background that were begun since there were `known` of them are waited for,
if they keep open what they write to. -/
def settle (known : Nat) : Run Unit :=
  change (fun w =>
    let begun := (w.jobs.take (w.jobs.length - known)).filter BackgroundJob.keepsOpen
    { w with clock := begun.foldl (fun t j => max t j.endsAt) w.clock })

/-- What ends all processes of a script goes on. -/
def goOnWith (flow : Option Flow) : Run Unit := do
  match flow with
  | some (.killed id n) => throw (.killed id n)
  | some .endless => throw .endless
  | _ => return ()

def outputOf (i : Interpreter) (atEnd : Run Unit) (c : Command) : Run (List UInt8) := do
  let n ← newChannel (.sink [])
  let status := (← get).status
  let known := (← get).world.jobs.length
  let flow ← apart do
    connect 1 (some n)
    let flow ← caught (i.run .plain c)
    atEnd
    goOnWith flow
  goOnWith flow
  settle known
  modify (fun s => { s with taken := some s.status, status })
  collected n

/-- Octets without the line feeds at their end, and without zeros. -/
def outputText (bs : List UInt8) : String :=
  packed ((bs.filter (· != 0)).reverse.dropWhile (· == 10)).reverse

/-! ## Words -/

/-- The value of an arithmetic expression. -/
def valueOf (expression : String) : Run String := do
  let s ← get
  let env (name : String) : String := ((s.bindings.get? name).bind Variable.value).getD ""
  match Arithmetic.run env expression with
  | .ok (n, set) =>
      for (name, value) in set do
        assign name value
      return Arithmetic.text n
  | .error e => fail (e.message expression) 2

/-- The marks of a piece; `atEnd` is what is done at the end of a shell that runs apart. -/
def pieceMarks (i : Interpreter) (atEnd : Run Unit) : Piece → Run (List Mark)
  | .literal text isQuoted =>
      let chars := text.map (fun c => Mark.char c isQuoted false)
      return if isQuoted then .quotes :: chars else chars
  | .parameter name c isQuoted => parameterMarks i name c isQuoted
  | .output c isQuoted => do
      return marksOf isQuoted (outputText (← outputOf i atEnd c))
  | .sum e isQuoted => do
      return marksOf isQuoted (← valueOf (← textOf (← i.word e)))
  | .unreadable => fail "Bad substitution" 2

def wordMarks (i : Interpreter) (atEnd : Run Unit) : Word → Run (List Mark)
  | [] => return []
  | p :: rest => do
      let marks ← pieceMarks i atEnd p
      return marks ++ (← wordMarks i atEnd rest)

/-- A word whose tilde at the beginning, before a slash or the end, is the home directory. -/
def withHome (w : Word) : Run Word := do
  match w with
  | .literal ('~' :: text) false :: rest =>
      let stands := match text, rest with
        | [], [] => true
        | '/' :: _, _ => true
        | _, _ => false
      match stands, (← known "HOME").value with
      | true, some home =>
          return .literal home.toList true :: (if text.isEmpty then rest
            else .literal text false :: rest)
      | _, _ => return w
  | _ => return w

/-- The text of a word that is not split. -/
def wordText (i : Interpreter) (w : Word) : Run String := do
  textOf (← i.word (← withHome w))

def wordFields (i : Interpreter) (w : Word) : Run (List String) := do
  let marks ← i.word (← withHome w)
  let globs := Fields.ofMarks (← separators) marks
  if ← has 'f' then return globs.map (fun g => String.ofList g.text)
  else
    let disk := (← get).world.disk
    return globs.flatMap (Glob.words disk)

def allFields (i : Interpreter) : List Word → Run (List String)
  | [] => return []
  | w :: rest => do
      let fields ← wordFields i w
      return fields ++ (← allFields i rest)

end ScanGraph.Shell
