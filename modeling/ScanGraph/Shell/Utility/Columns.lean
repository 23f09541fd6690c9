/-
Parts of lines and lines side by side: `cut`, `paste`, `fold` and `expand`.
-/
import ScanGraph.Shell.Utility

namespace ScanGraph.Shell.Utility

/-! ## Parts of lines -/

inductive CutUnit where
  | octets
  | fields
deriving DecidableEq, Repr

/-- Why a list of positions cannot be read. -/
inductive PositionFault where
  | zero
  | decreasing
  | endless
  | invalid (text : String)
deriving DecidableEq, Repr

def PositionFault.message (u : CutUnit) : PositionFault → String
  | zero => if u = .fields then "fields are numbered from 1"
      else "byte/character positions are numbered from 1"
  | decreasing => "invalid decreasing range"
  | endless => "invalid range with no endpoint: -"
  | invalid t => if u = .fields then "invalid field value " ++ Call.quoted t
      else "invalid byte/character position " ++ Call.quoted t

/-- Positions from one to another, or to the end. -/
abbrev Span := Nat × Option Nat

def spanOf (s : List Char) : Except PositionFault Span :=
  let first := s.takeWhile Char.isDigit
  let rest := s.drop first.length
  let least : Nat := if first.isEmpty then 1 else Text.valueOf first
  match rest with
  | [] => if least = 0 then .error .zero else .ok (least, some least)
  | '-' :: more =>
      let last := more.takeWhile Char.isDigit
      let left := more.drop last.length
      if !left.isEmpty then .error (.invalid (String.ofList left))
      else if first.isEmpty && last.isEmpty then .error .endless
      else if least = 0 then .error .zero
      else if last.isEmpty then .ok (least, none)
      else if Text.valueOf last < least then .error .decreasing
      else .ok (least, some (Text.valueOf last))
  | _ => .error (.invalid (String.ofList rest))

def spansOf (s : String) : Except PositionFault (List Span) :=
  ((s.toList.splitOnP (fun c => c == ',' || c == ' ' || c == '\t')).mapM (fun part =>
    if part.isEmpty then .error .zero else spanOf part))

/-- A position lies in one of some spans. -/
def inSpans (spans : List Span) (n : Nat) : Bool :=
  spans.any (fun s => decide (s.1 ≤ n) && s.2.all (fun last => decide (n ≤ last)))

/-- Spans in order, those that overlap as one. -/
def merged (spans : List Span) : List Span :=
  let sorted := spans.mergeSort (fun a b => decide (a.1 ≤ b.1))
  (sorted.foldl (fun (acc : List Span) s =>
    match acc with
    | (first, some last) :: rest =>
        if s.1 ≤ last then (first, s.2.map (max last)) :: rest else s :: acc
    | (_, none) :: _ => acc
    | [] => [s]) []).reverse

structure Cutting where
  unit : CutUnit
  spans : List Span
  isTurned : Bool
  separator : Char
  joint : Option (List Char)
  onlySeparated : Bool

namespace Cutting

def takes (c : Cutting) (n : Nat) : Bool :=
  inSpans c.spans n != c.isTurned

/-- A line in octets, of which the parts of different spans may have a text between them. -/
def octets (c : Cutting) (l : List Char) : List Char :=
  match c.joint, c.isTurned with
  | some joint, false =>
      let parts := (merged c.spans).map (fun (first, last) =>
        (match last with
          | some n => l.take n
          | none => l).drop (first - 1))
      joint.intercalate (parts.filter (fun p => !p.isEmpty))
  | _, _ => ((l.zipIdx 1).filter (fun e => c.takes e.2)).map Prod.fst

/-- What is cut out of a line; a line of one field is kept as it is, or left out. -/
def line (c : Cutting) (l : List Char) : List Char :=
  match c.unit with
  | .octets => c.octets l ++ ['\n']
  | .fields =>
      let parts := l.splitOn c.separator
      if parts.length ≤ 1 then (if c.onlySeparated then [] else l ++ ['\n'])
      else
        let kept := (parts.zipIdx 1).filter (fun e => c.takes e.2)
        (c.joint.getD [c.separator]).intercalate (kept.map Prod.fst) ++ ['\n']

end Cutting

def cut : Utility := fun c =>
  let rules : OptionRules :=
    ⟨"nsz", "bcfdo", [("bytes", 'b'), ("characters", 'c'), ("fields", 'f'), ("delimiter", 'd'),
      ("only-delimited", 's'), ("complement", '!'), ("output-delimiter", 'o')], false⟩
  c.withOptions rules 1 (fun o =>
    let lists := o.given.filter (fun g => ['b', 'c', 'f'].contains g.1)
    match lists with
    | [] => c.advise "you must specify a list of bytes, characters, or fields" 1
    | [(l, list)] =>
        let unit : CutUnit := if l == 'f' then .fields else .octets
        let separator := o.value? 'd'
        if unit != .fields && separator.isSome then
          c.advise "an input delimiter may be specified only when operating on fields" 1
        else if unit != .fields && o.has 's' then
          c.advise "suppressing non-delimited lines makes sense\n\tonly when operating on fields" 1
        else if separator.any (fun d => decide (1 < d.length)) then
          c.advise "the delimiter must be a single character" 1
        else match spansOf list with
          | .error f => c.advise (f.message unit) 1
          | .ok spans =>
              let d : Char := match separator with
                | some s => s.toList.head?.getD '\x00'
                | none => '\t'
              let cutting : Cutting :=
                ⟨unit, spans, o.has '!', d, (o.value? 'o').map String.toList, o.has 's'⟩
              c.overAll o.operands Call.plainly 1
                (fun text => (textLines text).flatMap cutting.line)
    | _ => c.advise "only one type of list may be specified" 1)

/-! ## Lines side by side -/

def separatorsOf : List Char → List (List Char)
  | [] => []
  | '\\' :: 'n' :: rest => ['\n'] :: separatorsOf rest
  | '\\' :: 't' :: rest => ['\t'] :: separatorsOf rest
  | '\\' :: '0' :: rest => [] :: separatorsOf rest
  | '\\' :: c :: rest => [c] :: separatorsOf rest
  | c :: rest => [c] :: separatorsOf rest

/-- Texts with separators between them, which are used in turn. -/
def interleaved (all : List (List Char)) : List (List Char) → List (List Char) → List Char
  | _, [] => []
  | _, [t] => t
  | separators, t :: rest =>
      match separators with
      | s :: more => t ++ s ++ interleaved all more rest
      | [] => t ++ all.headD [] ++ interleaved all all.tail rest

/-- The first lines of texts side by side, then the second ones, at most `fuel`. -/
def sideBySide (separators : List (List Char)) : Nat → List (List (List Char)) → List Char
  | 0, _ => []
  | fuel + 1, texts =>
      if texts.all List.isEmpty then []
      else interleaved separators separators (texts.map (fun t => t.headD [])) ++ '\n'
        :: sideBySide separators fuel (texts.map List.tail)

/-- The lines of texts side by side, or each text as one line. -/
def paste : Utility := fun c =>
  c.withOptions ⟨"sz", "d", [("serial", 's'), ("delimiters", 'd')], false⟩ 1 (fun o =>
    let names := if o.operands.isEmpty then ["-"] else o.operands
    let separators := match separatorsOf ((o.value? 'd').getD "\t").toList with
      | [] => [[]]
      | ss => ss
    let inputs := (names.filter Call.isInput).length
    let lines := textLines c.input
    let share (k : Nat) : List (List Char) :=
      (lines.zipIdx.filter (fun e => e.2 % inputs == k)).map Prod.fst
    match names.findSome? (fun n => match c.read n with
        | .error f => some (n, f)
        | .ok _ => none) with
    | some (n, f) => c.refuse (Call.plainly n f) 1
    | none =>
        let texts := (names.foldl (fun (acc : List (List (List Char)) × Nat) n =>
          if Call.isInput n then
            (acc.1 ++ [if o.has 's' then (if acc.2 = 0 then lines else []) else share acc.2],
              acc.2 + 1)
          else (acc.1 ++ [textLines ((c.read n).toOption.getD [])], acc.2)) ([], 0)).1
        let longest := (texts.map List.length).foldl max 0
        let out := if o.has 's' then
            texts.flatMap (fun t => interleaved separators separators t ++ ['\n'])
          else sideBySide separators (longest + 1) texts
        let r := c.answer out
        if inputs = 0 then { r with rest := c.input } else r)

/-! ## Long lines -/

def lastBlank? (cs : List Char) : Option Nat :=
  match cs.reverse.findIdx? (fun c => c == ' ' || c == '\t') with
  | some k => some (cs.length - k)
  | none => none

/-- A line in pieces of a width, at most `fuel`. -/
def folded (width : Nat) (atBlanks : Bool) : Nat → List Char → List Char
  | 0, cs => cs
  | fuel + 1, cs =>
      if cs.length ≤ width then cs
      else
        let front := cs.take width
        let n := if atBlanks then (lastBlank? front).getD width else width
        cs.take n ++ '\n' :: folded width atBlanks fuel (cs.drop n)

def fold : Utility := fun c =>
  let args := c.args.map (fun a => match a.toList with
    | '-' :: d :: rest => if d.isDigit then "-w" ++ String.ofList (d :: rest) else a
    | _ => a)
  { c with args }.withOptions ⟨"bs", "w", [("width", 'w'), ("spaces", 's'), ("bytes", 'b')], false⟩
      1 (fun o =>
    let spelled := (o.value? 'w').getD "80"
    match Text.natural? spelled.toList with
    | some (w + 1) =>
        c.overAll o.operands Call.plainly 1 (fun text =>
          (endedLines text).flatMap (fun (l : List Char) =>
            if l.getLast? == some '\n' then
              folded (w + 1) (o.has 's') l.length l.dropLast ++ ['\n']
            else folded (w + 1) (o.has 's') l.length l))
    | _ => c.refuse ("invalid number of columns: " ++ Call.quoted spelled) 1)

/-- A line with spaces in place of its tabs, from a column on. -/
def untabbed (stop : Nat) : Nat → List Char → List Char
  | _, [] => []
  | k, c :: rest =>
      if c == '\t' then
        let n := stop - k % stop
        List.replicate n ' ' ++ untabbed stop (k + n) rest
      else c :: untabbed stop (if c == '\n' then 0 else k + 1) rest

def expand : Utility := fun c =>
  c.withOptions ⟨"i", "t", [("tabs", 't')], false⟩ 1 (fun o =>
    let stop := max 1 (((o.value? 't').bind (fun v => Text.natural? v.toList)).getD 8)
    c.overAll o.operands Call.plainly 1 (untabbed stop 0))

end ScanGraph.Shell.Utility
