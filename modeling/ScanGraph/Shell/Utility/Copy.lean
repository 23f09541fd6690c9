/-
Copying texts: `cat`, `tee`, `tac`, `rev` and `yes`.
-/
import ScanGraph.Shell.Utility

namespace ScanGraph.Shell.Utility

/-! ## Showing what cannot be seen -/

/-- An octet as it is shown by signs that can be seen. -/
def visible (c : Char) : List Char :=
  let low (n : Nat) : List Char :=
    if n < 32 then ['^', Char.ofNat (n + 64)]
    else if n = 127 then ['^', '?']
    else [Char.ofNat n]
  if c == '\n' || c == '\t' then [c]
  else if c.toNat < 128 then low c.toNat
  else 'M' :: '-' :: low (c.toNat - 128)

structure Showing where
  numbersAll : Bool
  numbersFilled : Bool
  squeezes : Bool
  showsEnds : Bool
  showsTabs : Bool
  showsHidden : Bool

namespace Showing

def isPlain (s : Showing) : Bool :=
  !(s.numbersAll || s.numbersFilled || s.squeezes || s.showsEnds || s.showsTabs || s.showsHidden)

/-- A line with its end, of which the number is given if it has one. -/
def line (s : Showing) (number : Option Nat) (l : List Char) : List Char :=
  let front := match number with
    | some n => inField 6 n ++ ['\t']
    | none => []
  let body := l.flatMap (fun c =>
    if c == '\n' then (if s.showsEnds then ['$', c] else [c])
    else if c == '\t' then (if s.showsTabs then ['^', 'I'] else [c])
    else if s.showsHidden then visible c
    else [c])
  front ++ body

/-- Lines from a number on; of several empty ones in a row one is shown if they are squeezed. -/
def lines (s : Showing) : Nat → Bool → List (List Char) → List Char
  | _, _, [] => []
  | n, afterEmpty, l :: rest =>
      let isEmpty := l == ['\n']
      if s.squeezes && isEmpty && afterEmpty then s.lines n true rest
      else
        let isNumbered := if s.numbersFilled then !isEmpty else s.numbersAll
        s.line (if isNumbered then some n else none) l
          ++ s.lines (if isNumbered then n + 1 else n) isEmpty rest

end Showing

def catRules : OptionRules :=
  ⟨"AbeEnstTuv", "", [("show-all", 'A'), ("number-nonblank", 'b'), ("show-ends", 'E'),
    ("number", 'n'), ("squeeze-blank", 's'), ("show-tabs", 'T'), ("show-nonprinting", 'v')], false⟩

/-- Texts one after the other; what is said of those that cannot be read comes in between. -/
def copies (c : Call) : List String → Reply → Reply
  | [], r => r
  | name :: rest, r =>
      match c.read name with
      | .ok text => copies c rest (r.write 1 text)
      | .error f =>
          copies c rest { r.write 2 (c.complaint (Call.plainly name f)) with status := 1 }

/-- The input, or the files that are named, one after the other. -/
def cat : Utility := fun c =>
  c.withOptions catRules 1 (fun o =>
    let any (ls : String) : Bool := ls.toList.any o.has
    let s : Showing := ⟨o.has 'n', o.has 'b', o.has 's', any "AeE", any "AtT", any "Aetv"⟩
    let names := if o.operands.isEmpty then ["-"] else o.operands
    if s.isPlain then
      let r := copies c names (c.quiet 0)
      if names.any Call.isInput then { r with rest := [] } else r
    else c.overAll names Call.plainly 1 (fun text => s.lines 1 false (endedLines text)))

def tee : Utility := fun c =>
  c.withOptions ⟨"aip", "", [("append", 'a'), ("ignore-interrupts", 'i')], false⟩ 1 (fun o =>
    let r := c.answer c.input
    o.operands.foldl (fun r path =>
      let before : List UInt8 := if o.has 'a' then ((r.disk.read path).toOption).getD [] else []
      match r.disk.write path (before ++ octetsOf c.input) with
      | .ok disk => { r with disk }
      | .error f =>
          { r with
            status := 1
            writes := (2, c.complaint (Call.plainly path f)) :: r.writes }) r)

def tac : Utility := fun c =>
  let wording (n : String) (f : DiskFault) : String :=
    if f = .isDirectory then n ++ ": read error: Is a directory"
    else "failed to open " ++ Call.quoted n ++ " for reading: " ++ f.message
  c.withOptions ⟨"", "", [], false⟩ 1 (fun o =>
    let (found, faults) := c.contents o.operands wording
    let out := found.flatMap (fun t => (endedLines t.text).reverse.flatten)
    let r := if o.operands.isEmpty || o.operands.any Call.isInput then c.answer out
      else (c.quiet 0).write 1 out
    { r with writes := (2, faults) :: r.writes, status := if faults.isEmpty then 0 else 1 })

/-- Lines with their last character first. -/
def rev : Utility := fun c =>
  c.withOptions ⟨"", "", [], false⟩ 1 (fun o =>
    let turned (l : List Char) : List Char :=
      if l.getLast? == some '\n' then l.dropLast.reverse ++ ['\n'] else l.reverse
    c.overAll o.operands (fun n f => "cannot open " ++ n ++ ": " ++ f.message) 1
      (fun text => (endedLines text).flatMap turned))

/-- How many lines of a text without an end are written. -/
def enough : Nat := 20000

def yes : Utility := fun c =>
  let line := (if c.args.isEmpty then "y" else " ".intercalate c.args).toList ++ ['\n']
  { (c.quiet 0).write 1 (List.replicate enough line).flatten with isEndless := true }

end ScanGraph.Shell.Utility
