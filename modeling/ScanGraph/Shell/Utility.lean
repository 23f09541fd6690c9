/-
Utilities: the programs that scripts are made of.

A utility is a function of what it is called with: its arguments, its input,
the disk and the environment.  It answers with what it writes, in order and to
which stream, its status, and what it leaves of the input and on the disk.

An option is a letter after a dash, alone or in a group, or a word after two
dashes; it may have a value, in the same argument or in the next one.  Options
may stand behind other arguments, unless these end them, and after two dashes
alone there are none.

Each of them is a function of its call alone and can be looked at, and run, without a
shell around it.  One that would write for ever says so in its answer and writes only so
much that whoever reads has enough.
-/
import ScanGraph.Shell.Disk
import ScanGraph.Text.Digits

namespace ScanGraph.Shell

structure Call where
  name : String
  args : List String
  input : List Char
  /-- What is not used of the input stays for others to read. -/
  isSeekable : Bool
  disk : Disk
  environment : List (String × String)

structure Reply where
  /-- What was written to which stream. -/
  writes : List (Nat × List Char)
  status : Nat
  /-- What is left of the input. -/
  rest : List Char
  disk : Disk
  /-- How long it took, in milliseconds. -/
  elapsed : Nat
  /-- It writes for ever, and this is the beginning of it. -/
  isEndless : Bool

/-- What a program does when it is called. -/
abbrev Utility := Call → Reply

/-! ## Closed outputs -/

structure ClosedOutput where
  /-- What it complains about if it had something to write. -/
  message : String
  status : Nat
  /-- It complains even if it had nothing to write. -/
  isChecked : Bool
  /-- It complains before it does anything. -/
  isFirst : Bool

/-- What most programs make of an output that is closed. -/
def ClosedOutput.plain (status : Nat) : ClosedOutput :=
  ⟨"write error", status, false, false⟩

def ClosedOutput.of (program : String) : ClosedOutput :=
  match program with
  | "cat" => ⟨"standard output", 1, true, true⟩
  | "expr" => plain 3
  | "grep" => plain 2
  | "sed" => ⟨"couldn't close stdout", 4, true, false⟩
  | "sort" =>
      ⟨"fflush failed: 'standard output': Bad file descriptor\nsort: write error", 2, false, false⟩
  | "tee" => ⟨"'standard output'", 1, false, false⟩
  | "yes" => ⟨"standard output", 1, true, true⟩
  | _ => plain 1

def ClosedOutput.said (o : ClosedOutput) (name : String) : String :=
  name ++ ": " ++ o.message ++ ": Bad file descriptor\n"

/-! ## Answering -/

namespace Call

/-- Nothing is written, and the input is left. -/
def quiet (c : Call) (status : Nat) : Reply :=
  ⟨[], status, c.input, c.disk, 0, false⟩

/-- Something is written, and all of the input was read. -/
def answer (c : Call) (out : List Char) : Reply :=
  { c.quiet 0 with writes := [(1, out)], rest := [] }

def complaint (c : Call) (message : String) : List Char :=
  (c.name ++ ": " ++ message ++ "\n").toList

def refuse (c : Call) (message : String) (status : Nat) : Reply :=
  { c.quiet status with writes := [(2, c.complaint message)] }

/-- Nothing but a complaint is written, with advice. -/
def advise (c : Call) (message : String) (status : Nat) : Reply :=
  c.refuse (message ++ "\nTry '" ++ c.name ++ " --help' for more information.") status

/-- What is left of the input after some of it was used: what others can still read of an input
that is read in blocks begins after a block. -/
def leftAfter (c : Call) (used block : Nat) : List Char :=
  if c.isSeekable then c.input.drop used
  else c.input.drop ((used + block - 1) / block * block)

end Call

namespace Reply

/-- Something written to a stream after all else. -/
def write (r : Reply) (stream : Nat) (cs : List Char) : Reply :=
  { r with writes := r.writes ++ [(stream, cs)] }

end Reply

/-! ## Sources -/

structure Content where
  name : String
  text : List Char
deriving Repr

namespace Call

/-- A name stands for the input. -/
def isInput (name : String) : Bool :=
  name == "-" || name == "/dev/stdin" || name == "/dev/fd/0" || name == "/proc/self/fd/0"

def read (c : Call) (name : String) : Except DiskFault (List Char) :=
  if isInput name then .ok c.input else (c.disk.read name).map charsOf

/-- What there is to read under some names, the input if there are none, and what is said of those
that cannot be read. -/
def contents (c : Call) (names : List String) (wording : String → DiskFault → String) :
    List Content × List Char :=
  let names := if names.isEmpty then ["-"] else names
  let all := names.map (fun n => (n, c.read n))
  (all.filterMap (fun (n, r) => r.toOption.map (fun t => ⟨n, t⟩)),
   all.flatMap (fun (n, r) => match r with
     | .error f => c.complaint (wording n f)
     | .ok _ => []))

/-- What is said of a file that cannot be read, in most cases. -/
def plainly (name : String) (f : DiskFault) : String :=
  name ++ ": " ++ f.message

def quoted (s : String) : String :=
  "'" ++ s ++ "'"

/-- What is made of the texts under some names together; faults are said first. -/
def overAll (c : Call) (names : List String) (wording : String → DiskFault → String) (faulty : Nat)
    (f : List Char → List Char) : Reply :=
  let (found, faults) := c.contents names wording
  let out := f (found.flatMap Content.text)
  let r := c.quiet (if faults.isEmpty then 0 else faulty)
  let rest := if names.isEmpty || names.any isInput then [] else c.input
  { r with writes := [(2, faults), (1, out)], rest }

end Call

/-! ## Lines -/

/-- The lines of a text without their ends. -/
def textLines (cs : List Char) : List (List Char) :=
  let parts := cs.splitOn '\n'
  if parts.getLast? == some [] then parts.dropLast else parts

/-- The last line of a text does not end. -/
def endsOpen (cs : List Char) : Bool :=
  cs.getLast?.any (· != '\n')

def joinLines (ls : List (List Char)) : List Char :=
  ls.flatMap (· ++ ['\n'])

/-- The lines of a text with their ends, which the last may lack. -/
def endedLines (cs : List Char) : List (List Char) :=
  let ls := textLines cs
  if endsOpen cs then ls.dropLast.map (· ++ ['\n']) ++ ls.getLast?.toList
  else ls.map (· ++ ['\n'])

def inField (width n : Nat) : List Char :=
  let ds := Text.decimal n
  List.replicate (width - ds.length) ' ' ++ ds

/-! ## Options -/

structure OptionRules where
  /-- The letters of options without a value. -/
  plain : String
  /-- The letters of options with a value. -/
  valued : String
  /-- The words that stand for letters. -/
  words : List (String × Char)
  /-- Options end where other arguments begin. -/
  areFirst : Bool

inductive OptionFault where
  | unknown (letter : Char)
  | unknownWord (word : String)
  | noValue (letter : Char)
  | noWordValue (word : String)
  | unwanted (word : String)
deriving DecidableEq, Repr

def OptionFault.message : OptionFault → String
  | unknown l => "invalid option -- '" ++ l.toString ++ "'"
  | unknownWord w => "unrecognized option '--" ++ w ++ "'"
  | noValue l => "option requires an argument -- '" ++ l.toString ++ "'"
  | noWordValue w => "option '--" ++ w ++ "' requires an argument"
  | unwanted w => "option '--" ++ w ++ "' doesn't allow an argument"

/-- An option that is given: its letter and its value. -/
abbrev Given := Char × String

/-- The options of a call, in order, and its other arguments. -/
structure Options where
  given : List Given
  operands : List String

namespace Options

def has (o : Options) (letter : Char) : Bool :=
  o.given.any (fun g => g.1 == letter)

/-- The value of an option; the last one counts. -/
def value? (o : Options) (letter : Char) : Option String :=
  (o.given.reverse.find? (fun g => g.1 == letter)).map Prod.snd

def values (o : Options) (letter : Char) : List String :=
  (o.given.filter (fun g => g.1 == letter)).map Prod.snd

/-- The options of a group of letters; a value is what follows in the group, or else the next
argument, which is then used. -/
def ofGroup (rules : OptionRules) (next : Option String) :
    List Char → Except OptionFault (List Given × Bool)
  | [] => .ok ([], false)
  | l :: rest =>
      if rules.valued.toList.contains l then
        if rest.isEmpty then
          match next with
          | some v => .ok ([(l, v)], true)
          | none => .error (.noValue l)
        else .ok ([(l, String.ofList rest)], false)
      else if rules.plain.toList.contains l then do
        let (more, used) ← ofGroup rules next rest
        .ok ((l, "") :: more, used)
      else .error (.unknown l)

/-- The word that stands for a letter, if only one begins as given. -/
def word? (rules : OptionRules) (w : String) : Option (String × Char) :=
  match rules.words.find? (fun e => e.1 == w) with
  | some e => some e
  | none =>
      match rules.words.filter (fun e => w.isPrefixOf e.1) with
      | [e] => some e
      | _ => none

/-- The option of a word, and whether the next argument is used for its value. -/
def ofWord (rules : OptionRules) (next : Option String) (text : List Char) :
    Except OptionFault (Given × Bool) :=
  let name := String.ofList (text.takeWhile (· != '='))
  let value : Option String := match text.dropWhile (· != '=') with
    | _ :: v => some (String.ofList v)
    | [] => none
  match word? rules name with
  | none => .error (.unknownWord (String.ofList text))
  | some (w, l) =>
      if rules.valued.toList.contains l then
        match value, next with
        | some v, _ => .ok ((l, v), false)
        | none, some v => .ok ((l, v), true)
        | none, none => .error (.noWordValue w)
      else
        match value with
        | some v =>
            if rules.plain.toList.contains l then .error (.unwanted w) else .ok ((l, v), false)
        | none => .ok ((l, ""), false)

/-- The options of some arguments, of which `skip` are passed. -/
def reading (rules : OptionRules) : Nat → List String → Except OptionFault Options
  | _, [] => .ok ⟨[], []⟩
  | skip + 1, _ :: rest => reading rules skip rest
  | 0, a :: rest =>
      match a.toList with
      | ['-', '-'] => .ok ⟨[], rest⟩
      | '-' :: '-' :: text => do
          let (g, used) ← ofWord rules rest.head? text
          let more ← reading rules (if used then 1 else 0) rest
          .ok { more with given := g :: more.given }
      | '-' :: l :: group => do
          let (gs, used) ← ofGroup rules rest.head? (l :: group)
          let more ← reading rules (if used then 1 else 0) rest
          .ok { more with given := gs ++ more.given }
      | _ =>
          if rules.areFirst then .ok ⟨[], a :: rest⟩
          else do
            let more ← reading rules 0 rest
            .ok { more with operands := a :: more.operands }

/-- The next argument is the value of an option at the end of this one. -/
def usesNext (rules : OptionRules) (a : String) : Bool :=
  match a.toList with
  | '-' :: l :: group =>
      match ofGroup rules (some "") (l :: group) with
      | .ok (_, used) => l != '-' && used
      | .error _ => false
  | _ => false

/-- Arguments spelled in another way, but for the values of options; `isValue` says whether the
first one is such a value. -/
def respelled (rules : OptionRules) (f : String → String) : Bool → List String → List String
  | _, [] => []
  | true, v :: rest => v :: respelled rules f false rest
  | false, a :: rest =>
      if a == "--" then a :: rest else f a :: respelled rules f (usesNext rules a) rest

def parse (rules : OptionRules) (args : List String) : Except OptionFault Options :=
  reading rules 0 args

end Options

/-- What a utility does with its options; one that is wrong is an error. -/
def Call.withOptions (c : Call) (rules : OptionRules) (faulty : Nat) (f : Options → Reply) :
    Reply :=
  match Options.parse rules c.args with
  | .ok o => f o
  | .error e => c.advise e.message faulty

end ScanGraph.Shell
