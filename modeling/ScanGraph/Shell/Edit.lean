/-
Scripts that edit streams of lines.

An edit script is a list of steps.  Each line of the input is taken into the
pattern space, the steps whose addresses admit the line are done one after the
other, and what is in the pattern space then is written.  A second space holds
what steps put there, from line to line.

The steps of one turn are bounded by `longestTurn`, so that a script which jumps back
for ever comes to an end and running a script is a function.  The files that a script
writes are on the disk of its call.
-/
import ScanGraph.Shell.Disk
import ScanGraph.Shell.Pattern.Reader

namespace ScanGraph.Shell

/-! ## Steps -/

/-- What a line must be; no pattern stands for the one that was used last. -/
inductive EditAddress where
  | line (n : Nat)
  | last
  | fits (p : Option Pattern)
  /-- One line of every so many, from a line on. -/
  | stepwise (first step : Nat)
deriving DecidableEq, Repr

inductive EditEnd where
  | address (a : EditAddress)
  /-- So many lines after the first one. -/
  | more (n : Nat)
  /-- A line whose number is a multiple. -/
  | multiple (n : Nat)
deriving DecidableEq, Repr

structure EditRange where
  first : Option EditAddress
  last : Option EditEnd
  negated : Bool
deriving DecidableEq, Repr

inductive CaseChange where
  | upper
  | lower
  | upperOnce
  | lowerOnce
  | none
deriving DecidableEq, Repr

/-- A part of what takes the place of a match. -/
inductive Substitute where
  | char (c : Char)
  | group (n : Nat)
  | change (c : CaseChange)
deriving DecidableEq, Repr

structure Substitution where
  pattern : Option Pattern
  parts : List Substitute
  /-- The first match that is replaced. -/
  nth : Nat
  isGlobal : Bool
  prints : Bool
  file : Option String
deriving DecidableEq, Repr

inductive EditAction where
  | opens
  | closes
  | nothing
  | label (name : String)
  | number
  | append (text : List Char)
  | insert (text : List Char)
  | replaceAll (text : List Char)
  | branch (name : String)
  | branchIfDone (name : String)
  | branchIfNot (name : String)
  | delete
  | deleteFirst
  | getHeld (appends : Bool)
  | hold (appends : Bool)
  | exchange
  | list (width : Option Nat)
  | next
  | nextAppend
  | print
  | printFirst
  | quit (status : Nat) (prints : Bool)
  | readFile (path : String)
  | writeFile (path : String) (onlyFirst : Bool)
  | substitute (s : Substitution)
  | translate (pairs : List (Char × Char))
  | clear
deriving DecidableEq, Repr

structure EditStep where
  range : EditRange
  action : EditAction
deriving DecidableEq, Repr

/-! ## Substituting -/

namespace Substitution

/-- What takes the place of a match; `once` is a change for the next character only, and `change`
the one that goes on. -/
def text (whole : List Char) (h : Pattern.Hit) :
    CaseChange → CaseChange → List Substitute → List Char
  | _, _, [] => []
  | once, change, p :: rest =>
      let cased (once change : CaseChange) (cs : List Char) : List Char :=
        let cs := match change with
          | .upper => cs.map Char.toUpper
          | .lower => cs.map Char.toLower
          | _ => cs
        match once, cs with
        | .upperOnce, c :: more => c.toUpper :: more
        | .lowerOnce, c :: more => c.toLower :: more
        | _, cs => cs
      let put (cs : List Char) : List Char :=
        cased once change cs ++ text whole h (if cs.isEmpty then once else .none) change rest
      match p with
      | .char c => put [c]
      | .group 0 => put whole
      | .group n => put (h.group n)
      | .change .upperOnce => text whole h .upperOnce change rest
      | .change .lowerOnce => text whole h .lowerOnce change rest
      | .change c => text whole h .none c rest

/-- A line with some of its matches replaced, of which the first has the number `n`; and whether
one was. -/
def replaced (s : Substitution) (left : List Char) :
    Nat → List Pattern.Found → List Char × Bool
  | _, [] => (left, false)
  | n, f :: rest =>
      let (more, done) := replaced s left (n + 1) rest
      if n = s.nth ∨ (s.isGlobal ∧ s.nth < n) then
        (f.skipped ++ text f.text f.hit .none .none s.parts ++ more, true)
      else (f.skipped ++ f.text ++ more, done)

/-- A line after the substitution by a pattern, and whether a match was replaced. -/
def apply (s : Substitution) (p : Pattern) (l : List Char) : List Char × Bool :=
  let (found, left) := p.all l
  replaced s left 1 found

end Substitution

/-! ## Listing -/

def listedChar (c : Char) : List Char :=
  match c with
  | '\\' => ['\\', '\\']
  | '\x07' => ['\\', 'a']
  | '\x08' => ['\\', 'b']
  | '\x0c' => ['\\', 'f']
  | '\n' => ['\\', 'n']
  | '\r' => ['\\', 'r']
  | '\t' => ['\\', 't']
  | '\x0b' => ['\\', 'v']
  | c =>
      if ' ' ≤ c ∧ c ≤ '~' then [c]
      else
        let ds := Nat.toDigits 8 c.toNat
        '\\' :: (List.replicate (3 - ds.length) '0' ++ ds)

/-- Listed characters in lines of a width, of which `used` is taken. -/
def listed (width used : Nat) : List Char → List Char
  | [] => ['$', '\n']
  | c :: rest =>
      let cs := listedChar c
      if width != 0 && used + cs.length > width - 1 then
        '\\' :: '\n' :: cs ++ listed width cs.length rest
      else cs ++ listed width (used + cs.length) rest

/-! ## Running -/

structure Editing where
  steps : Array EditStep
  isQuiet : Bool
  /-- The lines that are left; the last of all may have no end. -/
  left : List (List Char)
  endsOpen : Bool
  number : Nat
  space : List Char
  /-- What is in the space is the last line of an input that does not end. -/
  isUnended : Bool
  held : List Char
  heldUnended : Bool
  /-- What is written after the line at hand. -/
  queue : List (List Char)
  /-- A substitution was made since the line was taken. -/
  hasReplaced : Bool
  lastPattern : Option Pattern
  /-- For each step whose range is open the number of the line that ends it, if that is known. -/
  ranges : List (Nat × Option Nat)
  /-- The steps whose range is over. -/
  finished : List Nat
  out : List (List Char)
  /-- The last line was written without its end. -/
  isOpen : Bool
  disk : Disk
  /-- The files that were written to. -/
  written : List String
  status : Nat

namespace Editing

def isLast (e : Editing) : Bool :=
  e.left.isEmpty

/-- Something is written; a line written without its end is ended first. -/
def write (e : Editing) (cs : List Char) : Editing :=
  { e with out := cs :: (if e.isOpen then ['\n'] :: e.out else e.out), isOpen := false }

/-- A line is written, without its end if it has none. -/
def writeLine (e : Editing) (l : List Char) : Editing :=
  if e.isUnended then { e.write l with isOpen := true } else e.write (l ++ ['\n'])

def flush (e : Editing) : Editing :=
  { e.queue.foldl (fun e cs => e.write cs) e with queue := [] }

/-- The end of a turn: the space is written, and what waits. -/
def finishLine (e : Editing) : Editing :=
  (if e.isQuiet then e else e.writeLine e.space).flush

/-- The next line, if there is one, made part of the space in some way. -/
def take? (e : Editing) (f : List Char → List Char → List Char) : Option Editing :=
  match e.left with
  | [] => none
  | l :: rest =>
      some { e with
        space := f e.space l
        isUnended := rest.isEmpty && e.endsOpen
        left := rest
        number := e.number + 1 }

/-- The space fits a pattern, or the one used last. -/
def fits (e : Editing) (p : Option Pattern) : Editing × Bool :=
  match p.or e.lastPattern with
  | some q => ({ e with lastPattern := some q }, q.matchesIn e.space)
  | none => (e, false)

/-- The line at hand is as an address says. -/
def admits (e : Editing) : EditAddress → Editing × Bool
  | .line n => (e, e.number == n)
  | .last => (e, e.isLast)
  | .fits p => e.fits p
  | .stepwise first step =>
      (e, if step = 0 then e.number == first
        else decide (first ≤ e.number) && (e.number - first) % step == 0)

def close (e : Editing) (k : Nat) : Editing :=
  { e with ranges := e.ranges.filter (fun r => r.1 != k), finished := k :: e.finished }

/-- The range of a step is open, up to a line if it is known. -/
def openRange (e : Editing) (k : Nat) (last : Option Nat) : Editing :=
  { e with ranges := (k, last) :: e.ranges.filter (fun r => r.1 != k) }

/-- The line at hand lies in a range that is open. -/
def goesOn (e : Editing) (k : Nat) (last : Option Nat) (r : EditEnd) : Editing × Bool :=
  match last, r with
  | some n, .address _ => (if n ≤ e.number then e.close k else e, decide (e.number ≤ n))
  | some n, _ => (if n ≤ e.number then e.close k else e, true)
  | none, .address a =>
      let (e, isEnd) := e.admits a
      (if isEnd then e.close k else e, true)
  | none, _ => (e, true)

def begins (e : Editing) (k : Nat) (r : EditEnd) : Editing :=
  let upTo (n : Nat) : Editing := if n ≤ e.number then e.close k else e.openRange k (some n)
  match r with
  | .address (.line n) => upTo n
  | .more n => upTo (e.number + n)
  | .multiple n => upTo (if n = 0 then 0 else (e.number + n - 1) / n * n)
  | .address .last => if e.isLast then e.close k else e.openRange k none
  | .address _ => e.openRange k none

/-- The range of a step that is not open begins with the line at hand, or with one before it that
was not looked at; whether the line lies in it. -/
def enters (e : Editing) (k : Nat) (first : EditAddress) (last : EditEnd) : Editing × Bool :=
  match first with
  | .line n =>
      if e.finished.contains k || e.number < n then (e, false)
      else match last with
        | .address (.line m) => (e.begins k last, decide (e.number ≤ max m n))
        | _ => (e.begins k last, true)
  | _ =>
      let (e, isFirst) := e.admits first
      (if isFirst then e.begins k last else e, isFirst)

def selects (e : Editing) (k : Nat) (r : EditRange) : Editing × Bool :=
  let (e, isIn) : Editing × Bool := match r.first, r.last with
    | none, _ => (e, true)
    | some a, none => e.admits a
    | some a, some last =>
        match e.ranges.lookup k with
        | some n =>
            let (e, isIn) := e.goesOn k n last
            if isIn then (e, true) else e.enters k a last
        | none => e.enters k a last
  (e, isIn != r.negated)

/-- The number of the step after the brace that closes the one before a step. -/
def afterBlock (steps : Array EditStep) : Nat → Nat → Nat → Nat
  | 0, k, _ => k
  | fuel + 1, k, depth =>
      match (steps[k]?).map EditStep.action with
      | none => k
      | some .opens => afterBlock steps fuel (k + 1) (depth + 1)
      | some .closes => if depth = 0 then k + 1 else afterBlock steps fuel (k + 1) (depth - 1)
      | some _ => afterBlock steps fuel (k + 1) depth

/-- The step that a label stands before; without a name it is the end. -/
def target (e : Editing) (name : String) : Nat :=
  if name.isEmpty then e.steps.size
  else (e.steps.findIdx? (fun s => s.action == .label name)).getD e.steps.size

/-- A line is added to a file; a file is emptied when it is first written to. -/
def writeFile (e : Editing) (path : String) (l : List Char) : Editing :=
  let cs := if e.isUnended then l else l ++ ['\n']
  if path == "/dev/stdout" then { e with out := cs :: e.out }
  else
    let before : List UInt8 :=
      if e.written.contains path then (e.disk.read path).toOption.getD [] else []
    match e.disk.write path (before ++ octetsOf cs) with
    | .ok disk => { e with disk, written := path :: e.written }
    | .error _ => e

inductive After where
  | step (k : Nat)
  /-- The turn ends, and the space is written. -/
  | turn
  /-- The turn ends without a word. -/
  | drop
  /-- The steps begin anew with what is in the space. -/
  | again
  /-- The script ends, and the space is written or not. -/
  | stop (prints : Bool)
  /-- The script ends, and the space is written and its line ended. -/
  | quit

def substitute (e : Editing) (s : Substitution) : Editing :=
  match s.pattern.or e.lastPattern with
  | none => e
  | some p =>
      let (space, done) := s.apply p e.space
      let e := { e with lastPattern := some p }
      if !done then e
      else
        let e := { e with space, hasReplaced := true }
        let e := if s.prints then e.writeLine e.space else e
        match s.file with
        | some path => e.writeFile path e.space
        | none => e

def firstLine (e : Editing) : List Char :=
  e.space.takeWhile (· != '\n')

/-- What a step does, and what comes after it. -/
def perform (e : Editing) (k : Nat) (s : EditStep) : Editing × After :=
  let on (e : Editing) : Editing × After := (e, .step (k + 1))
  match s.action with
  | .opens => on e
  | .closes => on e
  | .nothing => on e
  | .label _ => on e
  | .number => on (e.write (Text.decimal e.number ++ ['\n']))
  | .append text => on { e with queue := e.queue ++ [text] }
  | .insert text => on (e.write text)
  | .replaceAll text =>
      let isOpen := s.range.last.isSome && !s.range.negated && (e.ranges.lookup k).isSome
      (if isOpen then e else e.write text, .drop)
  | .branch name => (e, .step (e.target name))
  | .branchIfDone name =>
      if e.hasReplaced then ({ e with hasReplaced := false }, .step (e.target name)) else on e
  | .branchIfNot name =>
      if e.hasReplaced then on { e with hasReplaced := false } else (e, .step (e.target name))
  | .delete => (e, .drop)
  | .deleteFirst =>
      if e.space.contains '\n' then
        ({ e with space := e.space.drop (e.firstLine.length + 1) }, .again)
      else (e, .drop)
  | .getHeld appends =>
      on { e with
        space := if appends then e.space ++ '\n' :: e.held else e.held
        isUnended := e.heldUnended }
  | .hold appends =>
      on { e with
        held := if appends then e.held ++ '\n' :: e.space else e.space
        heldUnended := e.isUnended }
  | .exchange =>
      on { e with
        space := e.held
        isUnended := e.heldUnended
        held := e.space
        heldUnended := e.isUnended }
  | .list width => on (e.write (listed (width.getD 70) 0 e.space))
  | .next =>
      if e.isLast then (e, .stop true)
      else match e.finishLine.take? (fun _ l => l) with
        | some e => on e
        | none => (e, .stop true)
  | .nextAppend =>
      if e.isLast then (e, .stop true)
      else match e.flush.take? (fun space l => space ++ '\n' :: l) with
        | some e => on e
        | none => (e, .stop true)
  | .print => on (e.writeLine e.space)
  | .printFirst =>
      on (if e.space.contains '\n' then e.write (e.firstLine ++ ['\n']) else e.writeLine e.space)
  | .quit status prints => ({ e with status }, if prints then .quit else .stop false)
  | .readFile path =>
      match e.disk.read path with
      | .ok bs => on { e with queue := e.queue ++ [charsOf bs] }
      | .error _ => on e
  | .writeFile path onlyFirst =>
      on (if onlyFirst && e.space.contains '\n' then
          { { e with isUnended := false }.writeFile path e.firstLine with isUnended := e.isUnended }
        else e.writeFile path e.space)
  | .substitute s => on (e.substitute s)
  | .translate pairs => on { e with space := e.space.map (fun c => (pairs.lookup c).getD c) }
  | .clear => on { e with space := [] }

/-- The steps of a turn from one on, at most `fuel`. -/
def turn : Nat → Editing → Nat → Editing × After
  | 0, e, _ => (e, .stop false)
  | fuel + 1, e, k =>
      match e.steps[k]? with
      | none => (e, .turn)
      | some s =>
          let (e, isSelected) := e.selects k s.range
          if isSelected then
            match e.perform k s with
            | (e, .step k) => turn fuel e k
            | ended => ended
          else
            match s.action with
            | .opens => turn fuel e (afterBlock e.steps e.steps.size (k + 1) 0)
            | _ => turn fuel e (k + 1)

def longestTurn : Nat := 200000

/-- The turns until the script ends, at most `fuel`; one begins with the next line unless the
space is kept. -/
def turns : Nat → Bool → Editing → Editing
  | 0, _, e => e
  | fuel + 1, keeps, e =>
      let begun : Option Editing := if keeps then some e
        else (e.take? (fun _ l => l)).map (fun e => { e with hasReplaced := false })
      match begun with
      | none => e
      | some e =>
          match turn longestTurn e 0 with
          | (e, .stop prints) => if prints then e.finishLine else e
          | (e, .quit) =>
              let e := e.finishLine
              if e.isOpen then e.write [] else e
          | (e, .again) => turns fuel true e.flush
          | (e, .drop) => turns fuel false e.flush
          | (e, _) => turns fuel false e.finishLine

/-- An edit script before its first line; ranges that may end with the first line are open. -/
def start (steps : List EditStep) (isQuiet : Bool) (text : List Char) (disk : Disk) : Editing :=
  let parts := text.splitOn '\n'
  let endsOpen := parts.getLast? != some []
  let lines := if endsOpen then parts else parts.dropLast
  let ranges := (steps.zipIdx.filter (fun (s, _) => s.range.first == some (.line 0))).map
    (fun (_, k) => (k, none))
  { steps := steps.toArray
    isQuiet
    left := lines
    endsOpen
    number := 0
    space := []
    isUnended := false
    held := []
    heldUnended := false
    queue := []
    hasReplaced := false
    lastPattern := none
    ranges
    finished := []
    out := []
    isOpen := false
    disk
    written := []
    status := 0 }

def run (e : Editing) : Editing :=
  turns (2 * e.left.foldl (fun n l => n + l.length + 2) 0 + e.left.length + 2) false e

def output (e : Editing) : List Char :=
  e.out.reverse.flatten

end Editing

end ScanGraph.Shell
