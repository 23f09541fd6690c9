/-
Instants of time and their text.

An instant is a second since the beginning of 1970, UTC, and a nanosecond
within it; a leap second is a nanosecond count of 10^9 or more in the second
before it.  `parseStrict?` reads dates and times with an offset in the form of
RFC 3339, `parse?` also in the usual lenient variants of it; `text` writes UTC
with 0, 3, 6 or 9 fraction digits, as few as keep the value.

Instants are ordered by second and nanosecond.  The calendar is the Gregorian one for
all years, and has a first and a last one, beyond which no date is read.

An instant in a leap second and one a second later are different instants, though a
clock that does not know leap seconds would show them alike.  Any offset from UTC is
read as long as the instant itself lies in the calendar.
-/
import ScanGraph.Text.Blank
import ScanGraph.Text.Digits

namespace ScanGraph

structure Instant where
  second : Int
  nano : Nat
deriving DecidableEq, Repr, Inhabited

namespace Instant

def perSecond : Nat := 1000000000

/-- One instant is before another. -/
def before (a b : Instant) : Bool :=
  decide (a.second < b.second ∨ a.second = b.second ∧ a.nano < b.nano)

/-- One instant is not after another. -/
def upTo (a b : Instant) : Bool :=
  decide (a.second < b.second ∨ a.second = b.second ∧ a.nano ≤ b.nano)

def ofSecond (s : Int) : Instant :=
  ⟨s, 0⟩

/-! ## The calendar -/

/-- The days from the beginning of 1970 to a date; years begin in March. -/
def daysOfDate (year : Int) (month day : Nat) : Int :=
  let y := if month ≤ 2 then year - 1 else year
  let era := y / 400
  let yearOfEra := y - era * 400
  let shifted : Int := (month + 9) % 12
  let dayOfYear := (153 * shifted + 2) / 5 + day - 1
  let dayOfEra := yearOfEra * 365 + yearOfEra / 4 - yearOfEra / 100 + dayOfYear
  era * 146097 + dayOfEra - 719468

/-- The date of a day counted from the beginning of 1970: year, month and day. -/
def dateOfDays (days : Int) : Int × Nat × Nat :=
  let z := days + 719468
  let era := z / 146097
  let dayOfEra := z - era * 146097
  let yearOfEra := (dayOfEra - dayOfEra / 1460 + dayOfEra / 36524 - dayOfEra / 146096) / 365
  let dayOfYear := dayOfEra - (365 * yearOfEra + yearOfEra / 4 - yearOfEra / 100)
  let shifted := (5 * dayOfYear + 2) / 153
  let day := dayOfYear - (153 * shifted + 2) / 5 + 1
  let month := if shifted < 10 then shifted + 3 else shifted - 9
  let year := yearOfEra + era * 400
  (if month ≤ 2 then year + 1 else year, month.toNat, day.toNat)

/-- A year with 366 days. -/
def isLeap (year : Int) : Bool :=
  year % 4 == 0 && (year % 100 != 0 || year % 400 == 0)

def daysInMonth (year : Int) (month : Nat) : Nat :=
  if month == 2 then (if isLeap year then 29 else 28)
  else if month == 4 || month == 6 || month == 9 || month == 11 then 30
  else 31

/-! ## The range of the calendar -/

/-- The least year of the calendar. -/
def firstYear : Int := -262143

/-- The greatest year of the calendar. -/
def lastYear : Int := 262142

def firstSecond : Int := -8334601228800

def lastSecond : Int := 8210266876799

/-- The second of an instant lies in the calendar. -/
def isSecond (s : Int) : Bool :=
  decide (firstSecond ≤ s) && decide (s ≤ lastSecond)

/-- The whole second `s` since 1970, if it lies in the calendar. -/
def ofSecond? (s : Int) : Option Instant :=
  if isSecond s then some (ofSecond s) else none

def dayOf? (year : Int) (month day : Nat) : Option Int :=
  if firstYear ≤ year ∧ year ≤ lastYear ∧ 1 ≤ month ∧ month ≤ 12 ∧ 1 ≤ day
      ∧ day ≤ daysInMonth year month then
    some (daysOfDate year month day)
  else none

/-- A time of day, as second and nanosecond; the second 60 is a leap second. -/
def timeOf? (hour minute sec nano : Nat) : Option (Nat × Nat) :=
  if hour < 24 ∧ minute < 60 ∧ sec ≤ 60 then
    if sec = 60 then some (hour * 3600 + minute * 60 + 59, nano + perSecond)
    else some (hour * 3600 + minute * 60 + sec, nano)
  else none

/-- The instant of a day and a time of day, given the offset from UTC of both. -/
def ofDay? (day : Int) (time : Nat × Nat) (offset : Int) : Option Instant :=
  let s := day * 86400 + time.1 - offset
  if isSecond s then some ⟨s, time.2⟩ else none

/-! ## Reading -/

/-- The rest after the given character. -/
def after? (c : Char) (cs : List Char) : Option (List Char) :=
  match cs with
  | d :: rest => if d = c then some rest else none
  | [] => none

/-- The rest after the character between a date and a time. -/
def afterDate? (cs : List Char) : Option (List Char) :=
  match cs with
  | c :: rest => if c = 'T' ∨ c = 't' ∨ c = ' ' then some rest else none
  | [] => none

/-- The nanoseconds of a fraction, of which nine digits count, and the rest. -/
def fraction? (cs : List Char) : Option (Nat × List Char) :=
  match cs with
  | '.' :: rest =>
      let ds := rest.takeWhile Char.isDigit
      if ds.isEmpty then none
      else
        let kept := ds.take 9
        some (Text.valueOf kept * Nat.pow 10 (9 - kept.length), rest.dropWhile Char.isDigit)
  | cs => some (0, cs)

/-- The offset from UTC in seconds at the beginning of a text, and the rest; `colon` reads what
stands between hours and minutes. -/
def offset? (colon : List Char → Option (List Char)) (cs : List Char) :
    Option (Int × List Char) :=
  match cs with
  | [] => none
  | sign :: cs =>
      if sign = 'Z' ∨ sign = 'z' then some (0, cs)
      else if sign = '+' ∨ sign = '-' ∨ sign = '\u2212' then do
        let (hours, cs) ← Text.exactly? 2 cs
        let (minutes, cs) ← Text.exactly? 2 (← colon cs)
        let n : Int := hours * 3600 + minutes * 60
        if minutes < 60 ∧ n < 86400 then some (if sign = '+' then n else -n, cs) else none
      else none

/-! ### The strict form -/

/-- The instant that a text denotes in the form of RFC 3339: a year of four digits, all else of
two, and nothing before or after. -/
def parseStrict? (s : String) : Option Instant := do
  let (year, cs) ← Text.exactly? 4 s.toList
  let (month, cs) ← Text.exactly? 2 (← after? '-' cs)
  let (day, cs) ← Text.exactly? 2 (← after? '-' cs)
  let (hour, cs) ← Text.exactly? 2 (← afterDate? cs)
  let (minute, cs) ← Text.exactly? 2 (← after? ':' cs)
  let (sec, cs) ← Text.exactly? 2 (← after? ':' cs)
  let (nano, cs) ← fraction? cs
  let (offset, cs) ← offset? (after? ':') cs
  if cs.isEmpty then ofDay? (← dayOf? year month day) (← timeOf? hour minute sec nano) offset
  else none

/-! ### The lenient form -/

/-- The characters after leading blanks. -/
def skipBlanks (cs : List Char) : List Char :=
  cs.dropWhile Text.isBlank

/-- Up to `width` leading digits, at least one, and the rest. -/
def digits? (width : Nat) (cs : List Char) : Option (Nat × List Char) :=
  let ds := (cs.take width).takeWhile Char.isDigit
  if ds.isEmpty then none else some (Text.valueOf ds, cs.drop ds.length)

/-- A number of up to two digits after blanks. -/
def pair? (cs : List Char) : Option (Nat × List Char) :=
  digits? 2 (skipBlanks cs)

/-- The rest after blanks and the given character. -/
def mark? (c : Char) (cs : List Char) : Option (List Char) :=
  after? c (skipBlanks cs)

/-- A year: four digits at most, or a sign and any number of digits. -/
def year? (cs : List Char) : Option (Int × List Char) :=
  match skipBlanks cs with
  | '-' :: rest => (digits? rest.length rest).map (fun (n, r) => (-(n : Int), r))
  | '+' :: rest => (digits? rest.length rest).map (fun (n, r) => ((n : Int), r))
  | cs => (digits? 4 cs).map (fun (n, r) => ((n : Int), r))

/-- The rest after colons and blanks. -/
def skipColons (cs : List Char) : List Char :=
  cs.dropWhile (fun c => c == ':' || Text.isBlank c)

/-- An offset, which may also be the word `UTC`, and the rest. -/
def zone? (cs : List Char) : Option (Int × List Char) :=
  if Text.lowerAscii (String.ofList (cs.take 3)) = "utc" then some (0, cs.drop 3)
  else offset? (fun cs => some (skipColons cs)) cs

/-- The instant that a text denotes: as in the strict form, but numbers may be shorter, the year
also longer, and blanks may stand around all parts. -/
def parse? (s : String) : Option Instant := do
  let (year, cs) ← year? s.toList
  let (month, cs) ← pair? (← mark? '-' cs)
  let (day, cs) ← pair? (← mark? '-' cs)
  let (hour, cs) ← pair? (← afterDate? cs)
  let (minute, cs) ← pair? (← mark? ':' cs)
  let (sec, cs) ← pair? (← mark? ':' cs)
  let (nano, cs) ← fraction? cs
  let (offset, cs) ← zone? (skipBlanks cs)
  if cs.all Text.isBlank then
    ofDay? (← dayOf? year month day) (← timeOf? hour minute sec nano) offset
  else none

/-! ## Writing -/

/-- The year: four digits, or a sign and at least four digits outside 0 to 9999. -/
def yearChars (year : Int) : List Char :=
  if 0 ≤ year ∧ year ≤ 9999 then Text.padded 4 year.toNat
  else (if year < 0 then '-' else '+') :: Text.padded 4 year.natAbs

/-- The fraction with as few of 0, 3, 6 or 9 digits as keep it. -/
def fractionChars (nano : Nat) : List Char :=
  if nano = 0 then []
  else if nano % 1000000 = 0 then '.' :: Text.padded 3 (nano / 1000000)
  else if nano % 1000 = 0 then '.' :: Text.padded 6 (nano / 1000)
  else '.' :: Text.padded 9 nano

def chars (t : Instant) : List Char :=
  let days := t.second / 86400
  let sec := (t.second - days * 86400).toNat
  let (year, month, day) := dateOfDays days
  let leap := perSecond ≤ t.nano
  let shown := sec % 60 + (if leap then 1 else 0)
  yearChars year ++ '-' :: Text.padded 2 month ++ '-' :: Text.padded 2 day
    ++ 'T' :: Text.padded 2 (sec / 3600) ++ ':' :: Text.padded 2 (sec / 60 % 60)
    ++ ':' :: Text.padded 2 shown
    ++ fractionChars (if leap then t.nano - perSecond else t.nano) ++ ['Z']

/-- The text of an instant, in UTC. -/
def text (t : Instant) : String :=
  String.ofList t.chars

end Instant

end ScanGraph
