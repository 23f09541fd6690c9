/-
Lines in order: `sort`, `uniq` and `comm`.

Lines are compared by keys, which are parts of lines, each with a way of
comparing of its own; lines that do not differ in a key are compared by all of
what they hold.
-/
import ScanGraph.Shell.Utility.Count

namespace ScanGraph.Shell.Utility

/-! ## Comparing -/

structure Collation where
  isNumeric : Bool
  isGeneral : Bool
  isReverse : Bool
  ignoresCase : Bool
  ignoresBlanks : Bool
  isDictionary : Bool
  ignoresHidden : Bool
  isHuman : Bool
  isVersion : Bool
deriving DecidableEq, Repr

namespace Collation

def ofLetters (has : Char → Bool) : Collation :=
  ⟨has 'n', has 'g', has 'r', has 'f', has 'b', has 'd', has 'i', has 'h', has 'V'⟩

/-- The number at the beginning of a text, in a number of places after the point. -/
def number (cs : List Char) : Int × List Char :=
  let cs := cs.dropWhile isSpace
  let (isNegative, cs) : Bool × List Char := match cs with
    | '-' :: rest => (true, rest)
    | _ => (false, cs)
  let whole := cs.takeWhile Char.isDigit
  let rest := cs.drop whole.length
  let fraction : List Char := match rest with
    | '.' :: f => f.takeWhile Char.isDigit
    | _ => []
  let rest : List Char := match rest with
    | '.' :: f => f.drop fraction.length
    | _ => rest
  let places := (fraction.take 20) ++ List.replicate (20 - fraction.length) '0'
  let n : Int := Text.valueOf (whole ++ places)
  (if isNegative then -n else n, rest)

def unitRank (cs : List Char) : Int :=
  match cs.head? with
  | some c => match ['K', 'M', 'G', 'T', 'P', 'E', 'Z', 'Y'].findIdx? (· == c.toUpper) with
      | some k => k + 1
      | none => 0
  | none => 0

/-- The order of two texts by their characters. -/
def compareChars : List Char → List Char → Ordering
  | [], [] => .eq
  | [], _ :: _ => .lt
  | _ :: _, [] => .gt
  | a :: as, b :: bs => if a < b then .lt else if b < a then .gt else compareChars as bs

/-- The rank of the character at the beginning of a version: a tilde, the end, a number, letters,
and all else. -/
def versionRank (cs : List Char) : Nat :=
  match cs with
  | [] => 1
  | c :: _ =>
      if c == '~' then 0 else if c.isDigit then 2 else if c.isAlpha then c.toNat else c.toNat + 256

/-- The order of two versions: texts by the ranks of their characters, and numbers by what they
count; at most `fuel` steps. -/
def compareVersions : Nat → List Char → List Char → Ordering
  | 0, _, _ => .eq
  | _, [], [] => .eq
  | fuel + 1, a, b =>
      let isText (cs : List Char) : Bool := cs.head?.any (fun c => !c.isDigit)
      if isText a || isText b then
        (compare (versionRank a) (versionRank b)).then (compareVersions fuel a.tail b.tail)
      else
        let m := a.takeWhile Char.isDigit
        let n := b.takeWhile Char.isDigit
        (compare (Text.valueOf m) (Text.valueOf n)).then
          (compareVersions fuel (a.drop m.length) (b.drop n.length))

/-- A text is made of endings of names: points before letters, with more letters and digits. -/
def isEnding : Nat → List Char → Bool
  | _, [] => true
  | fuel + 1, '.' :: c :: rest =>
      (c.isAlpha || c == '~')
        && isEnding fuel (rest.dropWhile (fun x => x.isAlphanum || x == '~'))
  | _, _ => false

def stem : List Char → List Char
  | [] => []
  | c :: rest => if isEnding (rest.length + 1) (c :: rest) then [] else c :: stem rest

/-- The order of two names with versions: at first without their endings. -/
def compareNames (a b : List Char) : Ordering :=
  let fuel := a.length + b.length + 1
  (compareVersions fuel (stem a) (stem b)).then (compareVersions fuel a b)

/-- The number at the beginning of a text, as a whole number and how many tens it is to be
multiplied with; none if there is no number. -/
def generalNumber? (cs : List Char) : Option (Int × Int) :=
  let cs := cs.dropWhile isSpace
  let (isNegative, cs) : Bool × List Char := match cs with
    | '-' :: rest => (true, rest)
    | '+' :: rest => (false, rest)
    | _ => (false, cs)
  let whole := cs.takeWhile Char.isDigit
  let rest := cs.drop whole.length
  let fraction : List Char := match rest with
    | '.' :: f => f.takeWhile Char.isDigit
    | _ => []
  let rest : List Char := match rest with
    | '.' :: f => f.drop fraction.length
    | _ => rest
  let exponent : Int := match rest with
    | 'e' :: '-' :: ds => -(Text.valueOf (ds.takeWhile Char.isDigit) : Int)
    | 'e' :: '+' :: ds => Text.valueOf (ds.takeWhile Char.isDigit)
    | 'e' :: ds => Text.valueOf (ds.takeWhile Char.isDigit)
    | _ => 0
  if whole.isEmpty && fraction.isEmpty then none
  else
    let n : Int := Text.valueOf (whole ++ fraction)
    some (if isNegative then -n else n, max (-5000) (min 5000 exponent) - fraction.length)

/-- The order of two texts by the numbers they begin with; without one a text comes first. -/
def compareGeneral (a b : List Char) : Ordering :=
  match generalNumber? a, generalNumber? b with
  | none, none => .eq
  | none, some _ => .lt
  | some _, none => .gt
  | some (m, x), some (n, y) =>
      let least := min x y
      compare (m * Int.ofNat (Nat.pow 10 (x - least).toNat))
        (n * Int.ofNat (Nat.pow 10 (y - least).toNat))

def kept (c : Collation) (cs : List Char) : List Char :=
  let cs := if c.isDictionary then cs.filter (fun x => x.isAlphanum || x == ' ' || x == '\t')
    else if c.ignoresHidden then cs.filter (fun x => ' ' ≤ x && x ≤ '~') else cs
  if c.ignoresCase then cs.map Char.toUpper else cs

/-- The order of two texts, not turned around. -/
def compareForward (c : Collation) (a b : List Char) : Ordering :=
  if c.isNumeric then compare (number a).1 (number b).1
  else if c.isGeneral then compareGeneral a b
  else if c.isHuman then
    let (m, restA) := number a
    let (n, restB) := number b
    let sign (k : Int) (rank : Int) : Int := if k < 0 then -rank else if k = 0 then 0 else rank
    (compare (sign m (1 + unitRank restA)) (sign n (1 + unitRank restB))).then (compare m n)
  else if c.isVersion then
    compareNames a b
  else compareChars (c.kept a) (c.kept b)

def order (c : Collation) (a b : List Char) : Ordering :=
  if c.isReverse then c.compareForward b a else c.compareForward a b

end Collation

/-! ## Keys -/

/-- A place in a line: a field, and a character in it, both counted from one; no character stands
for the end of the field. -/
structure KeyPlace where
  field : Nat
  char : Nat
  skipsBlanks : Bool
deriving DecidableEq, Repr

/-- A part of lines, with a way of comparing if it has one of its own. -/
structure SortKey where
  start : KeyPlace
  finish : Option KeyPlace
  collation : Collation
deriving DecidableEq, Repr

namespace SortKey

/-- Where fields of a line begin and end; without a separator blanks belong to the field after
them. -/
def fieldsFrom (separator : Option Char) : Nat → Nat → List Char → List (Nat × Nat)
  | 0, _, _ => []
  | fuel + 1, place, cs =>
      match separator with
      | some s =>
          let f := cs.takeWhile (· != s)
          if f.length = cs.length then [(place, place + f.length)]
          else (place, place + f.length)
            :: fieldsFrom separator fuel (place + f.length + 1) (cs.drop (f.length + 1))
      | none =>
          if cs.isEmpty then []
          else
            let blanks := cs.takeWhile (fun c => c == ' ' || c == '\t' || c == '\n')
            let word := (cs.drop blanks.length).takeWhile
              (fun c => !(c == ' ' || c == '\t' || c == '\n'))
            let n := blanks.length + word.length
            (place, place + n) :: fieldsFrom separator fuel (place + n) (cs.drop n)

/-- The position after the blanks from a position on. -/
def pastBlanks (line : List Char) (n : Nat) : Nat :=
  n + ((line.drop n).takeWhile (fun c => c == ' ' || c == '\t' || c == '\n')).length

def part (separator : Option Char) (k : SortKey) (line : List Char) : List Char :=
  let fields := fieldsFrom separator (line.length + 2) 0 line
  let start := match fields[k.start.field - 1]? with
    | some (first, _) =>
        let first := if k.start.skipsBlanks then pastBlanks line first else first
        min line.length (first + (k.start.char - 1))
    | none => line.length
  let finish := match k.finish with
    | none => line.length
    | some p =>
        match fields[p.field - 1]? with
        | none => line.length
        | some (first, last) =>
            if p.char = 0 then last
            else
              let first := if p.skipsBlanks then pastBlanks line first else first
              min line.length (first + p.char)
  (line.take finish).drop start

/-- The place that a text spells, and the letters after it. -/
def place? (cs : List Char) (least : Nat) : Option (KeyPlace × List Char) :=
  let field := cs.takeWhile Char.isDigit
  let rest := cs.drop field.length
  if field.isEmpty || Text.valueOf field = 0 then none
  else match rest with
    | '.' :: more =>
        let char := more.takeWhile Char.isDigit
        let letters := more.drop char.length
        if char.isEmpty then none
        else some (⟨Text.valueOf field, Text.valueOf char, letters.contains 'b'⟩, letters)
    | _ => some (⟨Text.valueOf field, least, rest.contains 'b'⟩, rest)

/-- The key that a text spells; one without letters is compared as all others are. -/
def parse? (common : Collation) (s : String) : Option SortKey :=
  let front := s.toList.takeWhile (· != ',')
  let back : Option (List Char) := match s.toList.drop front.length with
    | _ :: rest => some rest
    | [] => none
  match place? front 1, back with
  | none, _ => none
  | some (start, letters), none => some (make start none letters)
  | some (start, letters), some b =>
      (place? b 0).map (fun (finish, more) => make start (some finish) (letters ++ more))
where
  /-- A key with the letters after its places. -/
  make (start : KeyPlace) (finish : Option KeyPlace) (letters : List Char) : SortKey :=
    if letters.isEmpty then
      ⟨{ start with skipsBlanks := common.ignoresBlanks },
       finish.map (fun f => { f with skipsBlanks := common.ignoresBlanks }), common⟩
    else ⟨start, finish, .ofLetters letters.contains⟩

end SortKey

structure Sorting where
  keys : List SortKey
  common : Collation
  separator : Option Char
  isUnique : Bool
  isStable : Bool

namespace Sorting

/-- The order of two lines by their keys. -/
def byKeys (s : Sorting) (a b : List Char) : Ordering :=
  if s.keys.isEmpty then
    let strip (l : List Char) : List Char :=
      if s.common.ignoresBlanks then l.dropWhile (fun c => c == ' ' || c == '\t') else l
    s.common.order (strip a) (strip b)
  else s.keys.foldl (fun o k =>
    o.then (k.collation.order (k.part s.separator a) (k.part s.separator b))) .eq

def order (s : Sorting) (a b : List Char) : Ordering :=
  let o := s.byKeys a b
  if s.isUnique || s.isStable then o
  else o.then (if s.common.isReverse then Collation.compareChars b a
    else Collation.compareChars a b)

/-- Lines of which those next to one another differ. -/
def distinct (s : Sorting) : List (List Char) → List (List Char)
  | [] => []
  | l :: rest =>
      l :: distinct s (rest.dropWhile (fun m => s.byKeys l m == .eq))
termination_by ls => ls.length
decreasing_by
  have := List.dropWhile_sublist (fun m => s.byKeys l m == .eq) (l := rest)
  exact Nat.lt_succ_of_le this.length_le

def sorted (s : Sorting) (lines : List (List Char)) : List (List Char) :=
  let ls := lines.mergeSort (fun a b => s.order a b != .gt)
  if s.isUnique then s.distinct ls else ls

/-- The first line that is out of order, with its number. -/
def disorder? (s : Sorting) : Nat → List (List Char) → Option (Nat × List Char)
  | n, a :: b :: rest =>
      let o := s.order a b
      if o == .gt || (s.isUnique && o == .eq) then some (n + 1, b)
      else s.disorder? (n + 1) (b :: rest)
  | _, _ => none

end Sorting

def sortRules : OptionRules :=
  ⟨"bdfgihMnrRVcCmsuz", "ktoST", [("reverse", 'r'), ("numeric-sort", 'n'), ("unique", 'u'),
    ("key", 'k'), ("field-separator", 't'), ("ignore-case", 'f'),
    ("ignore-leading-blanks", 'b'), ("stable", 's'), ("check", 'c'), ("output", 'o'),
    ("dictionary-order", 'd'), ("human-numeric-sort", 'h'), ("version-sort", 'V')], false⟩

def sort : Utility := fun c =>
  c.withOptions sortRules 2 (fun o =>
    let common := Collation.ofLetters o.has
    let spelled := o.values 'k'
    match spelled.find? (fun k => (SortKey.parse? common k).isNone) with
    | some k => c.refuse ("invalid number at field start: invalid count at start of "
        ++ Call.quoted k) 2
    | none =>
        let separator : Option (List Char) := (o.value? 't').map (fun t =>
          if t == "\\0" then ['\x00'] else t.toList)
        match separator with
        | some [] => c.refuse "empty tab" 2
        | some (_ :: _ :: _) =>
            c.refuse ("multi-character tab " ++ Call.quoted ((o.value? 't').getD "")) 2
        | _ =>
            let s : Sorting := ⟨spelled.filterMap (SortKey.parse? common), common,
              separator.bind List.head?, o.has 'u', o.has 's'⟩
            let wording (n : String) (f : DiskFault) : String :=
              if f = .isDirectory then "read failed: " ++ n ++ ": Is a directory"
              else "cannot read: " ++ n ++ ": " ++ f.message
            let (found, faults) := c.contents o.operands wording
            let lines := found.flatMap (fun t => textLines t.text)
            let rest := if o.operands.isEmpty || o.operands.any Call.isInput then [] else c.input
            let r := { c.quiet 0 with rest }
            if !faults.isEmpty then { r with writes := [(2, faults)], status := 2 }
            else if o.has 'c' || o.has 'C' then
              match s.disorder? 1 lines with
              | none => r
              | some (n, l) =>
                  let name := o.operands.headD "-"
                  let said := c.complaint (name ++ ":" ++ Text.decimalText n ++ ": disorder: "
                    ++ String.ofList l)
                  { r with status := 1, writes := if o.has 'C' then [] else [(2, said)] }
            else
              let out := joinLines (s.sorted lines)
              match o.value? 'o' with
              | none => r.write 1 out
              | some path =>
                  match c.disk.write path (octetsOf out) with
                  | .ok disk => { r with disk }
                  | .error f =>
                      { r with
                        status := 2
                        writes := [(2, c.complaint ("open failed: " ++ path ++ ": "
                          ++ f.message))] })

/-! ## Runs of lines -/

/-- Runs of lines that are the same in what is looked at: how many there are, and all of them. -/
def runsBy (key : List Char → List Char) : List (List Char) → List (Nat × List (List Char))
  | [] => []
  | l :: rest =>
      match runsBy key rest with
      | (n, m :: ms) :: more =>
          if key l == key m then (n + 1, l :: m :: ms) :: more else (1, [l]) :: (n, m :: ms) :: more
      | more => (1, [l]) :: more

/-- A line without some fields and characters at its beginning. -/
def lookedAt (o : Options) (l : List Char) : List Char :=
  let number (letter : Char) : Option Nat :=
    (o.value? letter).bind (fun v => Text.natural? v.toList)
  let blank (c : Char) : Bool := c == ' ' || c == '\t'
  let skipField (l : List Char) : List Char := (l.dropWhile blank).dropWhile (fun c => !blank c)
  let l := (List.range ((number 'f').getD 0)).foldl (fun l _ => skipField l) l
  let l := l.drop ((number 's').getD 0)
  let l := match number 'w' with
    | some n => l.take n
    | none => l
  if o.has 'i' then l.map Char.toUpper else l

/-- Of lines in a row that are the same, one. -/
def uniq : Utility := fun c =>
  let rules : OptionRules :=
    ⟨"cdDiuz", "fsw", [("count", 'c'), ("repeated", 'd'), ("all-repeated", 'D'),
      ("ignore-case", 'i'), ("unique", 'u'), ("skip-fields", 'f'), ("skip-chars", 's'),
      ("check-chars", 'w')], false⟩
  c.withOptions rules 1 (fun o =>
    match o.operands[2]? with
    | some extra => c.advise ("extra operand " ++ Call.quoted extra) 1
    | none =>
        let shown (text : List Char) : List Char :=
          (runsBy (lookedAt o) (textLines text)).flatMap (fun (n, ls) =>
            let isShown := if o.has 'D' then n != 1
              else (!o.has 'd' || n != 1) && (!o.has 'u' || n == 1)
            let lines := if o.has 'D' then ls else ls.take 1
            let count := if o.has 'c' then inField 7 n ++ [' '] else []
            if isShown then lines.flatMap (fun l => count ++ l ++ ['\n'])
            else [])
        let r := c.overAll (o.operands.take 1) Call.plainly 1 shown
        match o.operands[1]? with
        | none => r
        | some path =>
            let out := (r.writes.filter (fun w => w.1 == 1)).flatMap Prod.snd
            match c.disk.write path (octetsOf out) with
            | .ok disk => { r with disk, writes := r.writes.filter (fun w => w.1 != 1) }
            | .error f => c.refuse (Call.plainly path f) 1)

/-! ## Common lines -/

/-- Lines of two texts in order, each with where it stands: in the first, the second or both; at
most `fuel`. -/
def merge : Nat → List (List Char) → List (List Char) → List (Nat × List Char)
  | 0, _, _ => []
  | _ + 1, [], bs => bs.map (fun b => (2, b))
  | _ + 1, as, [] => as.map (fun a => (1, a))
  | fuel + 1, a :: as, b :: bs =>
      match Collation.compareChars a b with
      | .lt => (1, a) :: merge fuel as (b :: bs)
      | .gt => (2, b) :: merge fuel (a :: as) bs
      | .eq => (3, a) :: merge fuel as bs

def inOrder : List (List Char) → Bool
  | a :: b :: rest => Collation.compareChars a b != .gt && inOrder (b :: rest)
  | _ => true

/-- The lines of two texts that are sorted, in three columns. -/
def comm : Utility := fun c =>
  c.withOptions ⟨"123z", "", [], false⟩ 1 (fun o =>
    match o.operands with
    | [a, b] =>
        match c.read a, c.read b with
        | .ok x, .ok y =>
            let column (n : Nat) : Char := Char.ofNat (48 + n)
            let lines := merge (x.length + y.length + 2) (textLines x) (textLines y)
            let isPaired := lines.all (fun l => l.1 == 3)
            let disordered := [(1, x), (2, y)].filter
              (fun (_, t) => !isPaired && !inOrder (textLines t))
            let said := disordered.flatMap (fun (n, _) =>
              c.complaint ("file " ++ Text.decimalText n ++ " is not in sorted order"))
            let out := lines.flatMap (fun (n, l) =>
              if o.has (column n) then []
              else
                let before := (List.range n).filter (fun k => k ≠ 0 ∧ !o.has (column k))
                List.replicate before.length '\t' ++ l ++ ['\n'])
            if disordered.isEmpty then c.answer out
            else
              { c.answer out with
                status := 1
                writes := [(1, out), (2, said ++ c.complaint "input is not in sorted order")] }
        | .error f, _ => c.refuse (Call.plainly a f) 1
        | _, .error f => c.refuse (Call.plainly b f) 1
    | [] => c.advise "missing operand" 1
    | [a] => c.advise ("missing operand after " ++ Call.quoted a) 1
    | _ :: _ :: extra :: _ => c.advise ("extra operand " ++ Call.quoted extra) 1)

end ScanGraph.Shell.Utility
