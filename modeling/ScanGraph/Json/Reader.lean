/-
Reading JSON.

The reader is a machine that takes one character at a time: its state is the
stack of brackets still open and what may come next.  At most 127 brackets may
be open at once.

A reader that wants only some members of the outermost object passes over the
values of all others: they count as null, and only their grammar is checked,
not what their escapes and numbers stand for, nor how deep they go.

A number is an optional minus sign, digits without a leading zero, and
optionally a fraction and an exponent.  A whole number in the range of 64-bit
integers is exact; any other is rounded to double precision, by way of a
significand of 64 bits, and must not be beyond it.

Being a machine, the reader needs no fuel and is a fold over the characters: what it
does on a text can be followed character by character, and what was read does not depend
on how the text goes on.  Why a text is refused is not kept; that it is refused is all
that anybody asks.
-/
import ScanGraph.Double
import ScanGraph.Json.Basic
import ScanGraph.Text.Octets

namespace ScanGraph.Json

/-! ## Numerals -/

/-- A numeral without its sign: its whole part, and what else it has. -/
structure Numeral where
  whole : List Char
  /-- The fraction and the power of ten, unless the numeral has neither. -/
  tail : Option (List Char × Int)
deriving DecidableEq, Repr

def exponent? (cs : List Char) : Option Int :=
  match cs with
  | '+' :: ds => (Text.natural? ds).map Int.ofNat
  | '-' :: ds => (Text.natural? ds).map (fun n => -(n : Int))
  | ds => (Text.natural? ds).map Int.ofNat

/-- The digits of a whole part: one zero, or digits without a leading zero. -/
def isWhole (ds : List Char) : Bool :=
  match ds with
  | [] => false
  | ['0'] => true
  | '0' :: _ => false
  | ds => ds.all Char.isDigit

/-- The fraction digits and the exponent after the whole part. -/
def tail? (cs : List Char) : Option (List Char × Int) :=
  match cs with
  | [] => some ([], 0)
  | '.' :: rest =>
      let ds := rest.takeWhile Char.isDigit
      if ds.isEmpty then none
      else match rest.dropWhile Char.isDigit with
        | [] => some (ds, 0)
        | c :: ex => if c = 'e' ∨ c = 'E' then (exponent? ex).map (fun x => (ds, x)) else none
  | c :: ex => if c = 'e' ∨ c = 'E' then (exponent? ex).map (fun x => ([], x)) else none

def unsignedNumeral? (cs : List Char) : Option Numeral :=
  let whole := cs.takeWhile Char.isDigit
  let rest := cs.dropWhile Char.isDigit
  if !isWhole whole then none
  else if rest.isEmpty then some ⟨whole, none⟩
  else (tail? rest).map (fun t => ⟨whole, some t⟩)

/-- The characters after a minus sign, if there is one. -/
def unsigned (cs : List Char) : List Char :=
  match cs with
  | '-' :: rest => rest
  | cs => cs

def isNumeral (cs : List Char) : Bool :=
  (unsignedNumeral? (unsigned cs)).isSome

/-! ## Values -/

/-- The decimal that a numeral is taken for where it is not kept exactly. -/
def Numeral.decimal (n : Numeral) : Decimal :=
  let (fraction, power) := n.tail.getD ([], 0)
  .ofLeadingDigits n.whole fraction power

/-- The number of double precision that a numeral with a sign denotes, as its shortest text. -/
def real? (negative : Bool) (n : Numeral) : Option Json :=
  (Double.ofDecimal? n.decimal).map (fun d =>
    .real (String.ofList (if negative then '-' :: d.chars else d.chars)))

/-- The number that a numeral denotes. -/
def number? (cs : List Char) : Option Json :=
  match unsignedNumeral? (unsigned cs) with
  | none => none
  | some n =>
      let negative := cs.head? == some '-'
      let magnitude : Int := Text.valueOf n.whole
      let value := if negative then -magnitude else magnitude
      if n.tail.isSome ∨ (negative ∧ value = 0) ∨ !isWord value then real? negative n
      else some (.int value)

/-! ## The machine -/

/-- An open bracket with what has been read inside it, last first. -/
inductive Frame where
  | items (done : List Json)
  | members (done : List (String × Json)) (key : String)
  /-- The beginning of a value that is passed over. -/
  | passed
  /-- The bracket of an array inside such a value. -/
  | passedItems
  /-- The bracket of an object inside such a value. -/
  | passedMembers

/-- Where the reader stands inside a text between quotes. -/
inductive TextPhase where
  | plain
  | escape
  | hex (left : Nat) (value : Nat)
  | pair (high : Nat)
  | pairMark (high : Nat)
  | pairHex (high : Nat) (left : Nat) (value : Nat)

/-- What the reader expects next. -/
inductive Phase where
  | value
  | firstItem
  | firstKey
  | key
  | colon
  | next
  | finished (v : Json)
  | text (isKey : Bool) (phase : TextPhase) (read : List Char)
  | number (read : List Char)
  | word (left : List Char) (v : Json)

structure Reading where
  stack : List Frame
  phase : Phase

/-- The blanks of JSON. -/
def isSpace (c : Char) : Bool :=
  c == ' ' || c == '\n' || c == '\t' || c == '\r'

/-- The most brackets that may be open. -/
def maxDepth : Nat := 127

/-- What is read at the top of the stack is passed over. -/
def isPassed : List Frame → Bool
  | .passed :: _ => true
  | .passedItems :: _ => true
  | .passedMembers :: _ => true
  | _ => false

/-- The stack before the value of a member, which is passed over if it belongs to the outermost
object and its key is not wanted. -/
def enter (wanted : String → Bool) : List Frame → List Frame
  | [.members done key] =>
      if wanted key then [.members done key] else [.passed, .members done key]
  | stack => stack

/-- The state after a whole value. -/
def complete (v : Json) : List Frame → Reading
  | [] => ⟨[], .finished v⟩
  | .items done :: rest => ⟨.items (v :: done) :: rest, .next⟩
  | .members done key :: rest => ⟨.members ((key, v) :: done) "" :: rest, .next⟩
  | .passed :: rest => complete .null rest
  | .passedItems :: rest => ⟨.passedItems :: rest, .next⟩
  | .passedMembers :: rest => ⟨.passedMembers :: rest, .next⟩

/-- The state after an opening bracket; `bare` stands for it where it is passed over. -/
def openWith (f bare : Frame) (phase : Phase) (stack : List Frame) : Option Reading :=
  if isPassed stack then some ⟨bare :: stack, phase⟩
  else if stack.length < maxDepth then some ⟨f :: stack, phase⟩
  else none

def startValue (stack : List Frame) (c : Char) : Option Reading :=
  if c = '"' then some ⟨stack, .text false .plain []⟩
  else if c = '[' then openWith (.items []) .passedItems .firstItem stack
  else if c = '\x7b' then openWith (.members [] "") .passedMembers .firstKey stack
  else if c = '-' ∨ c.isDigit then some ⟨stack, .number [c]⟩
  else if c = 'n' then some ⟨stack, .word ['u', 'l', 'l'] .null⟩
  else if c = 't' then some ⟨stack, .word ['r', 'u', 'e'] (.bool true)⟩
  else if c = 'f' then some ⟨stack, .word ['a', 'l', 's', 'e'] (.bool false)⟩
  else none

def afterValue (stack : List Frame) (c : Char) : Option Reading :=
  match stack with
  | .items done :: rest =>
      if c = ',' then some ⟨stack, .value⟩
      else if c = ']' then some (complete (.arr done.reverse) rest)
      else none
  | .members done _ :: rest =>
      if c = ',' then some ⟨stack, .key⟩
      else if c = '\x7d' then some (complete (.obj done.reverse) rest)
      else none
  | .passedItems :: rest =>
      if c = ',' then some ⟨stack, .value⟩
      else if c = ']' then some (complete .null rest)
      else none
  | .passedMembers :: rest =>
      if c = ',' then some ⟨stack, .key⟩
      else if c = '\x7d' then some (complete .null rest)
      else none
  | _ => none

/-- A character that follows a value, or a blank. -/
def stepIdle (s : Reading) (c : Char) : Option Reading :=
  if isSpace c then some s
  else match s.phase with
    | .next => afterValue s.stack c
    | _ => none

/-- The state after the closing quote of a text. -/
def endText (stack : List Frame) (isKey : Bool) (read : List Char) : Option Reading :=
  let s := String.ofList read.reverse
  if isKey then
    match stack with
    | .members done _ :: rest => some ⟨.members done s :: rest, .colon⟩
    | .passedMembers :: rest => some ⟨.passedMembers :: rest, .colon⟩
    | _ => none
  else some (complete (.str s) stack)

/-- The character that a one-letter escape stands for. -/
def escaped? (c : Char) : Option Char :=
  if c = '"' then some '"'
  else if c = '\\' then some '\\'
  else if c = '/' then some '/'
  else if c = 'b' then some '\x08'
  else if c = 'f' then some '\x0c'
  else if c = 'n' then some '\n'
  else if c = 'r' then some '\r'
  else if c = 't' then some '\t'
  else none

/-- The phase after the last digit of a four-digit escape; where the text is passed over, the
escape may stand for half a pair. -/
def endHex (passed : Bool) (n : Nat) (read : List Char) : Option (TextPhase × List Char) :=
  if passed then some (.plain, read)
  else if 0xD800 ≤ n ∧ n ≤ 0xDBFF then some (.pair n, read)
  else if 0xDC00 ≤ n ∧ n ≤ 0xDFFF then none
  else some (.plain, Char.ofNat n :: read)

/-- The phase after the last digit of the second half of a surrogate pair. -/
def endPair (high low : Nat) (read : List Char) : Option (TextPhase × List Char) :=
  if 0xDC00 ≤ low ∧ low ≤ 0xDFFF then
    some (.plain, Char.ofNat (0x10000 + (high - 0xD800) * 0x400 + (low - 0xDC00)) :: read)
  else none

/-- One character inside a text, other than its closing quote. -/
def stepText (passed : Bool) (phase : TextPhase) (read : List Char) (c : Char) :
    Option (TextPhase × List Char) :=
  match phase with
  | .plain =>
      if c = '\\' then some (.escape, read)
      else if c.toNat < 0x20 then none
      else some (.plain, c :: read)
  | .escape =>
      if c = 'u' then some (.hex 4 0, read)
      else (escaped? c).map (fun d => (.plain, d :: read))
  | .hex left value =>
      match Text.hexValue? c with
      | some d =>
          if left ≤ 1 then endHex passed (16 * value + d) read
          else some (.hex (left - 1) (16 * value + d), read)
      | none => none
  | .pair high => if c = '\\' then some (.pairMark high, read) else none
  | .pairMark high => if c = 'u' then some (.pairHex high 4 0, read) else none
  | .pairHex high left value =>
      match Text.hexValue? c with
      | some d =>
          if left ≤ 1 then endPair high (16 * value + d) read
          else some (.pairHex high (left - 1) (16 * value + d), read)
      | none => none

/-- A text ends at a quote that is not escaped. -/
def closesText : TextPhase → Char → Bool
  | .plain, c => c == '"'
  | _, _ => false

/-- A character that may stand in a numeral. -/
def inNumeral (c : Char) : Bool :=
  c.isDigit || c == '-' || c == '+' || c == '.' || c == 'e' || c == 'E'

/-- The state after a numeral. -/
def endNumber (stack : List Frame) (read : List Char) : Option Reading :=
  if isPassed stack then
    if isNumeral read.reverse then some (complete .null stack) else none
  else (number? read.reverse).map (fun v => complete v stack)

/-- One character. -/
def step (wanted : String → Bool) (s : Reading) (c : Char) : Option Reading :=
  match s.phase with
  | .value => if isSpace c then some s else startValue s.stack c
  | .firstItem =>
      if isSpace c then some s
      else if c = ']' then afterValue s.stack c
      else startValue s.stack c
  | .firstKey =>
      if isSpace c then some s
      else if c = '\x7d' then afterValue s.stack c
      else if c = '"' then some ⟨s.stack, .text true .plain []⟩
      else none
  | .key =>
      if isSpace c then some s
      else if c = '"' then some ⟨s.stack, .text true .plain []⟩
      else none
  | .colon =>
      if isSpace c then some s
      else if c = ':' then some ⟨enter wanted s.stack, .value⟩
      else none
  | .next => stepIdle s c
  | .finished _ => stepIdle s c
  | .text isKey phase read =>
      if closesText phase c then endText s.stack isKey read
      else (stepText (isPassed s.stack) phase read c).map
        (fun (p, r) => ⟨s.stack, .text isKey p r⟩)
  | .number read =>
      if inNumeral c then some ⟨s.stack, .number (c :: read)⟩
      else (endNumber s.stack read).bind (fun s => stepIdle s c)
  | .word left v =>
      match left with
      | [] => none
      | [d] => if c = d then some (complete v s.stack) else none
      | d :: more => if c = d then some ⟨s.stack, .word more v⟩ else none

/-- The state after all characters, unless one of them is refused. -/
def run (wanted : String → Bool) (s : Reading) : List Char → Option Reading
  | [] => some s
  | c :: rest => (step wanted s c).bind (fun s' => run wanted s' rest)

/-- The value of a state in which the text may end. -/
def result? (s : Reading) : Option Json :=
  match s.stack, s.phase with
  | [], .finished v => some v
  | [], .number read => number? read.reverse
  | _, _ => none

/-- The state before any character. -/
def start : Reading :=
  ⟨[], .value⟩

/-- The value that a text denotes, for a reader of the members of the outermost object under some
keys. -/
def parseOnly? (wanted : String → Bool) (text : String) : Option Json :=
  (run wanted start text.toList).bind result?

/-- The value that a text denotes. -/
def parse? (text : String) : Option Json :=
  parseOnly? (fun _ => true) text

/-! ## Octets -/

/-- One character, or a stretch of octets that encode none: it may stand inside a text that is
passed over. -/
def stepOver (wanted : String → Bool) (s : Reading) : Option Char → Option Reading
  | some c => step wanted s c
  | none =>
      match s.phase with
      | .text _ .plain _ => if isPassed s.stack then some s else none
      | _ => none

/-- The state after all characters and stretches that are none. -/
def runOver (wanted : String → Bool) (s : Reading) : List (Option Char) → Option Reading
  | [] => some s
  | c :: rest => (stepOver wanted s c).bind (fun s' => runOver wanted s' rest)

/-- The value that octets denote, for a reader of the members of the outermost object under some
keys. -/
def ofOctetsOnly? (wanted : String → Bool) (bs : List UInt8) : Option Json :=
  match Text.ofOctets? bs with
  | some text => parseOnly? wanted text
  | none => (runOver wanted start (Text.decode bs)).bind result?

end ScanGraph.Json
