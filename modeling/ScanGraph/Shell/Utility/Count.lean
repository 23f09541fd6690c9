/-
Counting and numbering: `wc`, `nl` and `seq`.
-/
import ScanGraph.Shell.Utility
import ScanGraph.Text.Blank

namespace ScanGraph.Shell.Utility

/-! ## Counts -/

def isSpace (c : Char) : Bool :=
  c == ' ' || ('\t' ≤ c && c ≤ '\r')

/-- The counts of a text that can be asked for, by their letters. -/
def countOf (letter : Char) (cs : List Char) : Nat :=
  match letter with
  | 'l' => cs.count '\n'
  | 'w' => ((cs.splitOnP isSpace).filter (fun w => w.any (fun c => ' ' < c && c < '\x7f'))).length
  | 'L' => ((textLines cs).map List.length).foldl max 0
  | _ => cs.length

/-- The names and the counts of texts in lines of fields of one width. -/
def countLine (width : Nat) (counts : List Nat) (name : String) : List Char :=
  [' '].intercalate (counts.map (inField width))
    ++ (if name.isEmpty then [] else ' ' :: name.toList) ++ ['\n']

/-- Lines, words, characters, octets and the longest line of texts. -/
def wc : Utility := fun c =>
  let rules : OptionRules :=
    ⟨"lwcmL", "", [("lines", 'l'), ("words", 'w'), ("bytes", 'c'), ("chars", 'm'),
      ("max-line-length", 'L')], false⟩
  c.withOptions rules 1 (fun o =>
    let asked := ['l', 'w', 'm', 'c', 'L'].filter o.has
    let letters := if asked.isEmpty then ['l', 'w', 'c'] else asked
    let names := if o.operands.isEmpty then ["-"] else o.operands
    let all := names.map (fun n => (n, c.read n))
    let texts := all.filterMap (fun (_, r) => r.toOption)
    let counts (t : List Char) : List Nat := letters.map (fun l => countOf l t)
    let isRegular (n : String) : Bool := if Call.isInput n then c.isSeekable else true
    let digits := (Text.decimal ((texts.map List.length).foldl (· + ·) 0)).length
    let width :=
      if names.length == 1 && letters.length == 1 then 1
      else if names.all isRegular then digits
      else max 7 digits
    let shown (n : String) : String := if o.operands.isEmpty then "" else n
    let writes := all.flatMap (fun (n, r) => match r with
      | .ok t => [(1, countLine width (counts t) (shown n))]
      | .error f =>
          let said := (2, c.complaint (Call.plainly n f))
          if f = .isDirectory then [said, (1, countLine (max 7 width) (counts []) n)] else [said])
    let total := if names.length > 1 then
        [(1, countLine width (letters.map (fun l =>
          let each := texts.map (countOf l)
          if l == 'L' then each.foldl max 0 else each.foldl (· + ·) 0)) "total")]
      else []
    let failed := texts.length < names.length
    let rest := if names.any Call.isInput then [] else c.input
    { c.quiet (if failed then 1 else 0) with writes := writes ++ total, rest })

/-! ## Numbers of lines -/

structure Numbering where
  width : Nat
  separator : List Char
  step : Nat
  format : String
  numbersEmpty : Bool
  numbersAny : Bool

def Numbering.field (n : Numbering) (k : Nat) : List Char :=
  let ds := Text.decimal k
  let missing := n.width - ds.length
  if n.format == "ln" then ds ++ List.replicate missing ' '
  else if n.format == "rz" then List.replicate missing '0' ++ ds
  else List.replicate missing ' ' ++ ds

def Numbering.lines (n : Numbering) : Nat → List (List Char) → List Char
  | _, [] => []
  | k, l :: rest =>
      if n.numbersAny && (n.numbersEmpty || !l.isEmpty) then
        n.field k ++ n.separator ++ l ++ '\n' :: n.lines (k + n.step) rest
      else
        List.replicate (n.width + n.separator.length) ' ' ++ l ++ '\n' :: n.lines k rest

def nl : Utility := fun c =>
  c.withOptions ⟨"p", "bwsnvifhd", [("body-numbering", 'b'), ("number-width", 'w'),
      ("number-separator", 's'), ("number-format", 'n'), ("starting-line-number", 'v'),
      ("line-increment", 'i')], false⟩ 1 (fun o =>
    let number (l : Char) (least : Nat) : Nat :=
      ((o.value? l).bind (fun v => Text.natural? v.toList)).getD least
    let style := (o.value? 'b').getD "t"
    let n : Numbering := ⟨number 'w' 6, ((o.value? 's').getD "\t").toList, number 'i' 1,
      (o.value? 'n').getD "rn", style == "a", style != "n"⟩
    c.overAll o.operands Call.plainly 1 (fun text => n.lines (number 'v' 1) (textLines text)))

/-! ## Sequences -/

/-- A decimal number: how many units of its last place there are, and how many places. -/
structure Scaled where
  units : Int
  places : Nat

namespace Scaled

def parse? (s : String) : Option Scaled :=
  let cs := s.toList
  let (isNegative, cs) : Bool × List Char := match cs with
    | '-' :: rest => (true, rest)
    | '+' :: rest => (false, rest)
    | _ => (false, cs)
  let whole := cs.takeWhile Char.isDigit
  let fraction : Option (List Char) := match cs.drop whole.length with
    | [] => some []
    | '.' :: f => if f.all Char.isDigit then some f else none
    | _ => none
  match fraction with
  | none => none
  | some f =>
      if whole.isEmpty && f.isEmpty then none
      else
        let n : Int := Text.valueOf (whole ++ f)
        some ⟨if isNegative then -n else n, f.length⟩

/-- The units in a number of places that is not smaller. -/
def inPlaces (s : Scaled) (places : Nat) : Int :=
  s.units * Nat.pow 10 (places - s.places)

def text (units : Int) (places : Nat) : List Char :=
  let ds := Text.padded (places + 1) units.natAbs
  let whole := ds.take (ds.length - places)
  (if units < 0 then ['-'] else []) ++ whole
    ++ (if places = 0 then [] else '.' :: ds.drop (ds.length - places))

end Scaled

/-- The numbers from one to another by steps, at most `fuel`. -/
def steps (last step : Int) : Nat → Int → List Int
  | 0, _ => []
  | fuel + 1, n =>
      if (0 ≤ step ∧ last < n) ∨ (step < 0 ∧ n < last) then []
      else n :: steps last step fuel (n + step)

/-- A number with zeros in front of its digits. -/
def zeroPadded (width : Nat) (cs : List Char) : List Char :=
  let missing := width - cs.length
  match cs with
  | '-' :: rest => '-' :: (List.replicate missing '0' ++ rest)
  | _ => List.replicate missing '0' ++ cs

def seq : Utility := fun c =>
  let isNumber (a : String) : Bool := match a.toList with
    | '-' :: d :: _ => d.isDigit || d == '.'
    | _ => false
  let (options, others) : List String × List String :=
    let before := c.args.takeWhile (fun a => !isNumber a)
    (before, c.args.drop before.length)
  match Options.parse ⟨"w", "sf", [("separator", 's'), ("equal-width", 'w'), ("format", 'f')],
      true⟩ options with
  | .error e => c.advise e.message 1
  | .ok o =>
      let operands := o.operands ++ others
      match operands.find? (fun a => (Scaled.parse? a).isNone) with
      | some a => c.advise ("invalid floating point argument: " ++ Call.quoted a) 1
      | none =>
          let ns := operands.filterMap Scaled.parse?
          let one : Scaled := ⟨1, 0⟩
          let bounds : Option (Scaled × Scaled × Scaled) := match ns with
            | [last] => some (one, one, last)
            | [first, last] => some (first, one, last)
            | [first, step, last] => some (first, step, last)
            | _ => none
          match bounds, operands[3]? with
          | none, some extra => c.advise ("extra operand " ++ Call.quoted extra) 1
          | none, none => c.advise "missing operand" 1
          | some (first, step, last), _ =>
              let shown := max first.places step.places
              let places := max shown last.places
              let gap := step.inPlaces places
              let down := Nat.pow 10 (places - shown)
              if gap = 0 then c.advise ("invalid Zero increment value: "
                ++ Call.quoted (operands.getD 1 "")) 1
              else
                let start := first.inPlaces places
                let finish := last.inPlaces places
                let count := min enoughNumbers (((finish - start) / gap).toNat + 1)
                let texts := (steps finish gap count start).map
                  (fun n => Scaled.text (Int.tdiv n down) shown)
                let width := (texts.map List.length).foldl max
                  (if o.has 'w' then (Scaled.text (Int.tdiv finish down) shown).length else 0)
                let texts := if o.has 'w' then texts.map (zeroPadded width) else texts
                let separator := ((o.value? 's').getD "\n").toList
                if texts.isEmpty then c.quiet 0
                else (c.quiet 0).write 1 (separator.intercalate texts ++ ['\n'])
where
  /-- The most numbers that are written. -/
  enoughNumbers : Nat := 1000000

end ScanGraph.Shell.Utility
