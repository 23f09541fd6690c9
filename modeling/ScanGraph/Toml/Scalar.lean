/-
The scalars of TOML: texts and keys, truth values, numbers and times.

A reader of a text takes the characters after the opening quote, of which there
are four kinds, and gives the text and the characters after the closing one.  The
ends of lines inside a text are kept as they are written.

A number may have underscores between its digits.  A whole number that does
not fit 128 bits is refused, and so is any other number beyond double precision.
A time is kept as its text, under a key of its own, so that it is neither a text
nor a number.

Nothing is said about which of several kinds of number a text could be: the kinds
exclude each other by their first characters and by the signs in them, and are tried in
order.
-/
import ScanGraph.Double
import ScanGraph.Instant
import ScanGraph.Json.Basic
import ScanGraph.Text.Octets

namespace ScanGraph.Toml

/-! ## Texts -/

abbrev TextRead := Option (List Char × List Char)

/-- A character in front of what is read. -/
def consTo (c : Char) : TextRead → TextRead
  | some (text, rest) => some (c :: text, rest)
  | none => none

/-- A character that may stand in a text or a comment. -/
def isPlain (c : Char) : Bool :=
  (decide (0x20 ≤ c.toNat) && c.toNat != 0x7F) || c == '\t'

/-! ## Escapes -/

/-- The character that some hexadecimal digits name. -/
def ofHexDigits? (cs : List Char) : Option Char :=
  match cs.mapM Text.hexValue? with
  | none => none
  | some ds =>
      let n := ds.foldl (fun n d => 16 * n + d) 0
      if n.isValidChar then some (Char.ofNat n) else none

/-- The character that one letter after a backslash names. -/
def ofLetter? (c : Char) : Option Char :=
  match c with
  | 'b' => some '\x08'
  | 't' => some '\t'
  | 'n' => some '\n'
  | 'f' => some '\x0c'
  | 'r' => some '\r'
  | 'e' => some '\x1b'
  | '"' => some '"'
  | '\\' => some '\\'
  | _ => none

/-- How many hexadecimal digits follow a letter after a backslash. -/
def hexWidth? (c : Char) : Option Nat :=
  match c with
  | 'x' => some 2
  | 'u' => some 4
  | 'U' => some 8
  | _ => none

/-- What follows a backslash: the character, and how many characters it takes. -/
def escapeAt (cs : List Char) : Option (Char × Nat) :=
  match cs with
  | [] => none
  | c :: rest =>
      match hexWidth? c with
      | some n =>
          if rest.length < n then none
          else (ofHexDigits? (rest.take n)).map (fun d => (d, n + 1))
      | none => (ofLetter? c).map (fun d => (d, 1))

/-! ## One line -/

/-- A text up to the next single quote. -/
def literal : List Char → TextRead
  | [] => none
  | '\'' :: cs => some ([], cs)
  | c :: cs => if isPlain c then consTo c (literal cs) else none

/-- A text with escapes up to the next double quote; `skip` characters are passed. -/
def basic : Nat → List Char → TextRead
  | _, [] => none
  | skip + 1, _ :: cs => basic skip cs
  | 0, '"' :: cs => some ([], cs)
  | 0, '\\' :: cs =>
      match escapeAt cs with
      | some (c, n) => consTo c (basic n cs)
      | none => none
  | 0, c :: cs => if isPlain c then consTo c (basic 0 cs) else none

/-! ## Several lines -/

/-- The number of quotes at the beginning. -/
def quotes (q : Char) (cs : List Char) : Nat :=
  (cs.takeWhile (· == q)).length

/-- The end of a text in triple quotes, of which up to two more belong to the text. -/
def endAt (q : Char) (cs : List Char) : TextRead :=
  let n := min (quotes q cs) 5
  if n < 3 then none else some (List.replicate (n - 3) q, cs.drop n)

/-- The characters after a line feed at the beginning, if there is one. -/
def afterNewline (cs : List Char) : List Char :=
  match cs with
  | '\n' :: rest => rest
  | '\r' :: '\n' :: rest => rest
  | cs => cs

/-- A text up to three single quotes. -/
def literalLines : List Char → TextRead
  | [] => none
  | '\r' :: '\n' :: cs => consTo '\r' (consTo '\n' (literalLines cs))
  | c :: cs =>
      if c == '\'' && 3 ≤ quotes '\'' (c :: cs) then endAt '\'' (c :: cs)
      else if isPlain c || c == '\n' then consTo c (literalLines cs)
      else none

/-- A blank within a line. -/
def isSpace (c : Char) : Bool :=
  c == ' ' || c == '\t'

/-- Only blanks are left of the line. -/
def endsLine (cs : List Char) : Bool :=
  match cs.dropWhile isSpace with
  | '\n' :: _ => true
  | '\r' :: '\n' :: _ => true
  | _ => false

/-- A text with escapes up to three double quotes; `skip` characters are passed. While `joining`
lines, blanks and line feeds are passed as well. -/
def basicLines : Nat → Bool → List Char → TextRead
  | _, _, [] => none
  | skip + 1, joining, _ :: cs => basicLines skip joining cs
  | 0, true, '\r' :: '\n' :: cs => basicLines 0 true cs
  | 0, false, '\r' :: '\n' :: cs => consTo '\r' (consTo '\n' (basicLines 0 false cs))
  | 0, joining, c :: cs =>
      if joining && (isSpace c || c == '\n') then basicLines 0 true cs
      else if c == '"' && 3 ≤ quotes '"' (c :: cs) then endAt '"' (c :: cs)
      else if c == '\\' then
        if endsLine cs then basicLines 0 true cs
        else match escapeAt cs with
          | some (d, n) => consTo d (basicLines n false cs)
          | none => none
      else if isPlain c || c == '\n' then consTo c (basicLines 0 false cs)
      else none

/-- A string, by the quotes at its beginning. -/
def string (cs : List Char) : TextRead :=
  match cs with
  | '"' :: '"' :: '"' :: rest => basicLines 0 false (afterNewline rest)
  | '\'' :: '\'' :: '\'' :: rest => literalLines (afterNewline rest)
  | '"' :: rest => basic 0 rest
  | '\'' :: rest => literal rest
  | _ => none

/-! ## Keys -/

/-- A character of a key without quotes. -/
def isBare (c : Char) : Bool :=
  c.isAlphanum || c == '_' || c == '-'

def keyPart (cs : List Char) : TextRead :=
  match cs with
  | '"' :: rest => basic 0 rest
  | '\'' :: rest => literal rest
  | cs =>
      let bare := cs.takeWhile isBare
      if bare.isEmpty then none else some (bare, cs.drop bare.length)

/-- A key: parts between dots, with blanks around; at most `parts` of them. -/
def keyFrom : Nat → List Char → Option (List String × List Char)
  | 0, _ => none
  | parts + 1, cs =>
      match keyPart (cs.dropWhile isSpace) with
      | none => none
      | some (part, rest) =>
          match rest.dropWhile isSpace with
          | '.' :: rest => (keyFrom parts rest).map (fun (k, r) => (String.ofList part :: k, r))
          | rest => some ([String.ofList part], rest)

def maxKeyParts : Nat := 80

/-- A key and the characters after it. -/
def key (cs : List Char) : Option (List String × List Char) :=
  keyFrom maxKeyParts cs

/-! ## Numbers -/

/-- Digits of some kind with single underscores between them, without these. -/
def digitsOf? (isDigit : Char → Bool) (cs : List Char) : Option (List Char) :=
  let runs := cs.splitOn '_'
  if runs.all (fun r => !r.isEmpty && r.all isDigit) then some runs.flatten else none

/-- The value of digits to a base. -/
def valueTo (base : Nat) (cs : List Char) : Nat :=
  cs.foldl (fun n c => base * n + (Text.hexValue? c).getD 0) 0

/-- A digit below a base. -/
def isBelow (base : Nat) (c : Char) : Bool :=
  match Text.hexValue? c with
  | some d => decide (d < base)
  | none => false

/-- A whole number of at most 128 bits, with a sign or without. -/
def fitting? (n : Int) : Option Json :=
  if -0x80000000000000000000000000000000 ≤ n ∧ n ≤ 0xFFFFFFFFFFFFFFFFFFFFFFFFFFFFFFFF then
    some (.int n)
  else none

/-- A whole number to a base other than ten. -/
def based? (base : Nat) (cs : List Char) : Option Json :=
  (digitsOf? (isBelow base) cs).bind (fun ds => fitting? (valueTo base ds))

/-- Decimal digits without a needless zero in front. -/
def decimalDigits? (cs : List Char) : Option (List Char) :=
  match digitsOf? Char.isDigit cs with
  | some ('0' :: _ :: _) => none
  | ds => ds

/-- A sign, and the characters after it. -/
def signOf (cs : List Char) : Int × List Char :=
  match cs with
  | '-' :: rest => (-1, rest)
  | '+' :: rest => (1, rest)
  | cs => (1, cs)

/-- A whole number to the base ten, with a sign or without. -/
def integer? (cs : List Char) : Option Json :=
  let (sign, ds) := signOf cs
  (decimalDigits? ds).bind (fun ds => fitting? (sign * valueTo 10 ds))

/-- An exponent with a sign or without. -/
def exponent? (cs : List Char) : Option Int :=
  let (sign, ds) := signOf cs
  (digitsOf? Char.isDigit ds).map (fun ds => sign * valueTo 10 ds)

/-- The power of ten after the digits of a number: a mark and an exponent, or nothing. -/
def power? (cs : List Char) : Option Int :=
  match cs with
  | [] => some 0
  | e :: rest => if e == 'e' || e == 'E' then exponent? rest else none

/-- The fraction after the whole part of a number and a point, and the power of ten after it. -/
def fraction? (cs : List Char) : Option (List Char × Int) :=
  let written := cs.takeWhile (fun c => c.isDigit || c == '_')
  match digitsOf? Char.isDigit written, power? (cs.drop written.length) with
  | some ds, some power => some (ds, power)
  | _, _ => none

/-- A number with a fraction, an exponent or both, after its sign. -/
def decimal? (cs : List Char) : Option Decimal :=
  let written := cs.takeWhile (fun c => c.isDigit || c == '_')
  match decimalDigits? written, cs.drop written.length with
  | some ds, '.' :: rest =>
      (fraction? rest).map (fun (fraction, power) => .ofDigits ds fraction power)
  | some ds, e :: rest => (power? (e :: rest)).map (fun power => .ofDigits ds [] power)
  | _, _ => none

/-- A number that is not whole and not beyond double precision. -/
def isFractional (cs : List Char) : Bool :=
  match decimal? cs with
  | some d => !d.overflows
  | none => false

/-- A number that is not whole, kept as it is written. -/
def fractional? (cs : List Char) : Option Json :=
  let (_, rest) := signOf cs
  if rest == ['i', 'n', 'f'] || rest == ['n', 'a', 'n'] || isFractional rest then
    some (.real (String.ofList cs))
  else none

/-! ## Times -/

def afterDate? (cs : List Char) : Option (List Char) := do
  let (year, cs) ← Text.exactly? 4 cs
  let ('-' :: cs) := cs | none
  let (month, cs) ← Text.exactly? 2 cs
  let ('-' :: cs) := cs | none
  let (day, cs) ← Text.exactly? 2 cs
  if 1 ≤ month ∧ month ≤ 12 ∧ 1 ≤ day ∧ day ≤ Instant.daysInMonth year month then some cs
  else none

def afterSeconds? (cs : List Char) : Option (List Char) :=
  match cs with
  | ':' :: cs =>
      match Text.exactly? 2 cs with
      | none => none
      | some (second, cs) =>
          if 60 < second then none
          else match cs with
            | '.' :: cs =>
                let fraction := cs.takeWhile Char.isDigit
                if fraction.isEmpty then none else some (cs.drop fraction.length)
            | cs => some cs
  | cs => some cs

/-- The characters after a time of day at the beginning. -/
def afterTime? (cs : List Char) : Option (List Char) := do
  let (hour, cs) ← Text.exactly? 2 cs
  let (':' :: cs) := cs | none
  let (minute, cs) ← Text.exactly? 2 cs
  if hour < 24 ∧ minute < 60 then afterSeconds? cs else none

/-- An offset from UTC, or none. -/
def isOffset (cs : List Char) : Bool :=
  match cs with
  | [] => true
  | ['Z'] => true
  | ['z'] => true
  | sign :: cs =>
      (sign == '+' || sign == '-') &&
        match Text.exactly? 2 cs with
        | some (hour, ':' :: cs) =>
            match Text.exactly? 2 cs with
            | some (minute, []) => decide (hour < 24) && decide (minute < 60)
            | _ => false
        | _ => false

/-- A date, a time, or both. -/
def isTime (cs : List Char) : Bool :=
  match afterDate? cs with
  | some [] => true
  | some (sep :: rest) =>
      (sep == 'T' || sep == 't' || sep == ' ') &&
        match afterTime? rest with
        | some rest => isOffset rest
        | none => false
  | none => afterTime? cs == some []

def timeKey : String := "$__toml_private_datetime"

/-- A time, kept as its text. -/
def time? (cs : List Char) : Option Json :=
  if isTime cs then some (.obj [(timeKey, .str (String.ofList cs))]) else none

/-! ## Scalars -/

def isScalarChar (c : Char) : Bool :=
  c.isAlphanum || c == '_' || c == '+' || c == '-' || c == '.' || c == ':'

def scalar? (cs : List Char) : Option Json :=
  match cs with
  | ['t', 'r', 'u', 'e'] => some (.bool true)
  | ['f', 'a', 'l', 's', 'e'] => some (.bool false)
  | '0' :: 'x' :: ds => based? 16 ds
  | '0' :: 'o' :: ds => based? 8 ds
  | '0' :: 'b' :: ds => based? 2 ds
  | cs => (integer? cs).or ((fractional? cs).or (time? cs))

/-- How many characters the scalar at the beginning takes: a date may go on after one blank. -/
def scalarLength (cs : List Char) : Nat :=
  let first := cs.takeWhile isScalarChar
  match cs.drop first.length with
  | ' ' :: d :: rest =>
      if afterDate? first == some [] && d.isDigit then
        first.length + 1 + ((d :: rest).takeWhile isScalarChar).length
      else first.length
  | _ => first.length

/-- The scalar at the beginning, and the characters after it. -/
def scalarAt? (cs : List Char) : Option (Json × List Char) :=
  let n := scalarLength cs
  (scalar? (cs.take n)).map (fun v => (v, cs.drop n))

end ScanGraph.Toml
