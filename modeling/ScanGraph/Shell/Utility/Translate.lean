/-
Changing characters one by one: `tr`.

A set of characters is spelled by characters, escapes, ranges, classes and
repetitions.  The characters of a first set become those of a second one at the
same places, of which the last goes on for ever; or they are deleted; and runs
of one character may be squeezed to one.
-/
import ScanGraph.Shell.Format
import ScanGraph.Shell.Pattern.Reader
import ScanGraph.Shell.Utility

namespace ScanGraph.Shell.Utility

inductive SetPart where
  | chars (cs : List Char)
  /-- The characters of a class. -/
  | members (name : String) (cs : List Char)
  /-- The characters that count as the same as one. -/
  | same (c : Char)
  /-- A character so many times, or as often as there is need. -/
  | repeated (c : Char) (count : Option Nat)
deriving DecidableEq, Repr

/-- Why a set cannot be read. -/
inductive SetFault where
  | reversed (spelled : String)
  | badClass (name : String)
  | repeatsFirst
  | repeatsTwice
  | repeatsUntranslated
  | sameSecond
  | restricted
  | misaligned
  | emptySecond
  | classLast
  | complemented
deriving DecidableEq, Repr

/-- What is said of a set that cannot be read. -/
def SetFault.message : SetFault → String
  | reversed s => "range-endpoints of '" ++ s ++ "' are in reverse collating sequence order"
  | badClass n => "invalid character class '" ++ n ++ "'"
  | repeatsFirst => "the [c*] repeat construct may not appear in string1"
  | repeatsTwice => "only one [c*] repeat construct may appear in string2"
  | repeatsUntranslated => "the [c*] construct may appear in string2 only when translating"
  | sameSecond => "[=c=] expressions may not appear in string2 when translating"
  | restricted =>
      "when translating, the only character classes that may appear in\nstring2 are 'upper' and "
        ++ "'lower'"
  | misaligned => "misaligned [:upper:] and/or [:lower:] construct"
  | emptySecond => "when not truncating set1, string2 must be non-empty"
  | classLast =>
      "when translating with string1 longer than string2,\nthe latter string must not end with a "
        ++ "character class"
  | complemented =>
      "when translating with complemented character classes,\nstring2 must map all characters in "
        ++ "the domain to one"

namespace SetPart

/-- The character at the beginning of a spelled set, whether it was escaped, and what follows. -/
def char? (cs : List Char) : Option (Char × Bool × List Char) :=
  match cs with
  | [] => none
  | '\\' :: rest =>
      let digits := (rest.take 3).takeWhile Format.isOctal
      if !digits.isEmpty then
        some (Format.octalChar digits, true, rest.drop digits.length)
      else match rest with
        | [] => some ('\\', false, [])
        | e :: left => some ((Format.letterEscape? e).getD e, true, left)
  | c :: rest => some (c, false, rest)

def range (a b : Char) : List Char :=
  (List.range (b.toNat + 1 - a.toNat)).map (fun n => Char.ofNat (a.toNat + n))

def ofClass? (name : String) : Option (List Char) :=
  (Pattern.classRanges? name).map (fun rs =>
    (range '\x00' (Char.ofNat 255)).filter
      (fun c => rs.any (fun r => decide (r.1 ≤ c) && decide (c ≤ r.2))))

/-- A repetition after its bracket, and what follows it. -/
def repetition? (cs : List Char) : Option (SetPart × List Char) :=
  match char? cs with
  | some (c, _, '*' :: rest) =>
      let digits := rest.takeWhile Char.isDigit
      match rest.drop digits.length with
      | ']' :: left =>
          let count := if digits.head? == some '0' then
              digits.foldl (fun n d => 8 * n + Text.digitValue d) 0
            else if digits.isEmpty then 0 else Text.valueOf digits
          some (.repeated c (if count = 0 then none else some count), left)
      | _ => none
  | _ => none

/-- The parts of a spelled set, at most `fuel`. -/
def parse : Nat → List Char → Except SetFault (List SetPart)
  | 0, _ => .ok []
  | fuel + 1, cs =>
      match cs with
      | '[' :: ':' :: rest =>
          match Pattern.upToClose ':' rest with
          | some (name, left) =>
              match ofClass? (String.ofList name) with
              | some cs => (parse fuel left).map (.members (String.ofList name) cs :: ·)
              | none => .error (.badClass (String.ofList name))
          | none => (parse fuel (':' :: rest)).map (.chars ['['] :: ·)
      | '[' :: '=' :: c :: '=' :: ']' :: left => (parse fuel left).map (.same c :: ·)
      | _ =>
          let repetition := match cs with
            | '[' :: rest => repetition? rest
            | _ => none
          match repetition, char? cs with
          | some (part, left), _ => (parse fuel left).map (part :: ·)
          | none, none => .ok []
          | none, some (a, _, rest) =>
              match rest with
              | '-' :: more =>
                  match char? more with
                  | some (b, _, left) =>
                      if b < a then .error (.reversed (String.ofList [a, '-', b]))
                      else (parse fuel left).map (.chars (range a b) :: ·)
                  | none => (parse fuel rest).map (.chars [a] :: ·)
              | _ => (parse fuel rest).map (.chars [a] :: ·)

/-- How many characters a part has at least. -/
def size : SetPart → Nat
  | chars cs => cs.length
  | members _ cs => cs.length
  | same _ => 1
  | repeated _ n => n.getD 0

/-- The characters of parts; a repetition without a number fills up to a length. -/
def flat (length : Nat) (ps : List SetPart) : List Char :=
  let known := (ps.map size).foldl (· + ·) 0
  ps.flatMap (fun
    | chars cs => cs
    | members _ cs => cs
    | same c => [c]
    | repeated c (some n) => List.replicate n c
    | repeated c none => List.replicate (length - known) c)

/-- A class of letters that have another case. -/
def isCased : SetPart → Bool
  | members name _ => name == "upper" || name == "lower"
  | _ => false

def isClass : SetPart → Bool
  | members _ _ => true
  | _ => false

def isEndless : SetPart → Bool
  | repeated _ none => true
  | _ => false

/-- A character and those that count as the same. -/
def isSame : SetPart → Bool
  | same _ => true
  | _ => false

/-- The places at which classes of letters begin, from a place on. -/
def casedPlaces (length known : Nat) : Nat → List SetPart → List Nat
  | _, [] => []
  | place, p :: rest =>
      let next := place + (if p.isEndless then length - known else p.size)
      if p.isCased then place :: casedPlaces length known next rest
      else casedPlaces length known next rest

/-- What is wrong with two sets of which the first is turned into the second; `length` is how many
characters the first stands for. -/
def translationFault? (first second : List SetPart) (length : Nat) (isTurned truncates : Bool) :
    Option SetFault :=
  let known := (second.map size).foldl (· + ·) 0
  let all := flat length second
  let starts := casedPlaces 0 0 0 first
  if second.any isSame then some .sameSecond
  else if second.any (fun p => p.isClass && !p.isCased) then some .restricted
  else if !isTurned && (casedPlaces length known 0 second).any
      (fun k => decide (k ≤ length) && !starts.contains k) then some .misaligned
  else if all.length < length && !truncates && all.isEmpty then some .emptySecond
  else if all.length < length && !truncates && second.getLast?.any isClass then some .classLast
  else if isTurned && first.any isClass
      && !((all.length == length || (!truncates && all.length < length))
        && all.all (fun x => some x == all.head?)) then some .complemented
  else none

def fault? (first second : List SetPart) (length : Nat) (isTurned truncates translates : Bool) :
    Option SetFault :=
  if first.any isEndless then some .repeatsFirst
  else if 1 < (second.filter isEndless).length then some .repeatsTwice
  else if translates then translationFault? first second length isTurned truncates
  else if second.any isEndless then some .repeatsUntranslated
  else none

end SetPart

/-- Runs of one character of a set as one. -/
def squeezed (set : List Char) : Option Char → List Char → List Char
  | _, [] => []
  | last, c :: rest =>
      if last == some c && set.contains c then squeezed set last rest
      else c :: squeezed set (some c) rest

/-- A second set as long as the first, its last character going on. -/
def lengthened (n : Nat) (cs : List Char) : List Char :=
  match cs.getLast? with
  | some c => cs ++ List.replicate (n - cs.length) c
  | none => cs

/-- What becomes of the characters of a first set; the last place of a character counts. -/
def translation (first second : List Char) : Char → Char :=
  let pairs := (first.zip second).reverse
  fun c => (pairs.lookup c).getD c

/-- The two sets of a call, the first one turned around if asked for. -/
def setsOf (o : Options) : Except SetFault (List Char × List Char) := do
  let parse (s : String) : Except SetFault (List SetPart) :=
    SetPart.parse (s.length + 1) s.toList
  let one ← parse (o.operands.getD 0 "")
  let two ← parse (o.operands.getD 1 "")
  let isTurned := o.has 'c' || o.has 'C'
  let first := if isTurned then
      (SetPart.range '\x00' (Char.ofNat 255)).filter (fun c => !(SetPart.flat 0 one).contains c)
    else SetPart.flat 0 one
  let translates := o.operands.length == 2 && !o.has 'd'
  match SetPart.fault? one two first.length isTurned (o.has 't') translates with
  | some f => .error f
  | none => .ok (first, SetPart.flat first.length two)

/-- The input with its characters changed. -/
def tr : Utility := fun c =>
  let rules : OptionRules :=
    ⟨"cCdst", "", [("complement", 'c'), ("delete", 'd'), ("squeeze-repeats", 's'),
      ("truncate-set1", 't')], true⟩
  c.withOptions rules 1 (fun o =>
    let deletes := o.has 'd'
    let squeezes := o.has 's'
    let least := if deletes == squeezes then 2 else 1
    let most := if deletes && !squeezes then 1 else 2
    match o.operands[least - 1]?, o.operands[most]? with
    | none, _ =>
        match o.operands with
        | [] => c.advise "missing operand" 1
        | a :: _ =>
            let why := if squeezes then "deleting and squeezing repeats." else "translating."
            c.advise ("missing operand after " ++ Call.quoted a
              ++ "\nTwo strings must be given when " ++
                (if deletes then "both " else "") ++ why) 1
    | _, some extra =>
        c.advise ("extra operand " ++ Call.quoted extra ++
          (if most == 1 then
            "\nOnly one string may be given when deleting without squeezing repeats." else "")) 1
    | _, none =>
        match setsOf o with
        | .error f => c.refuse f.message 1
        | .ok (first, second) =>
            let hasSecond := o.operands.length == 2
            if deletes then
              let kept := c.input.filter (fun x => !first.contains x)
              c.answer (if squeezes then squeezed second none kept else kept)
            else if !hasSecond then c.answer (squeezed first none c.input)
            else
              let second := if o.has 't' then second else lengthened first.length second
              let changed := c.input.map (translation first second)
              c.answer (if squeezes then squeezed second none changed else changed))

end ScanGraph.Shell.Utility
