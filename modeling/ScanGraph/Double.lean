/-
Decimals, and magnitudes of double precision, exactly.

A decimal is made of the digits of a numeral, of all of them or of as many as
64 bits have room for.  A magnitude is a whole number of units, the unit being
the least magnitude, 2^-1074; it has at most 53 significant bits.  Products and
quotients are rounded to the nearest magnitude, halfway to the even one.
`ofDecimal?` makes a magnitude of a decimal by such steps: the significand is
rounded, and so is what comes of multiplying or dividing it by a power of ten.

Of all decimals that round to a magnitude, those with the fewest digits are
shortest, and of these the one nearest to it is written; of two as near, the one
with the even last digit.  The text is positional from 10^-5 to below 10^16, with
at least one digit on each side of the point, and has an exponent otherwise.

Nothing here approximates: magnitudes are natural numbers, and each rounding is a
function from one natural number, or a quotient of two, to another.  So what a text is
read as, and what a number is written as, can be computed and decided.

There are no signs, no infinities and nothing that is not a number; a decimal that is
too large has no magnitude (`tooLarge`), and whoever reads numbers says what becomes of
it.  Only what reading and writing need is here: no sums and no comparisons beyond those
of magnitudes.
-/
import ScanGraph.Text.Blank
import ScanGraph.Text.Digits

namespace ScanGraph

/-- The number `significand · 10 ^ exponent`. -/
structure Decimal where
  significand : Nat
  exponent : Int
deriving DecidableEq, Repr

namespace Decimal

/-! ## From digits -/

/-- All digits of a whole part and a fraction, times a power of ten. -/
def ofDigits (whole fraction : List Char) (power : Int) : Decimal :=
  ⟨Text.valueOf (whole ++ fraction), power - fraction.length⟩

/-- The greatest number of 64 bits. -/
def greatestWord : Nat := 0xFFFFFFFFFFFFFFFF

/-- A number with digits appended as long as it fits 64 bits, and the digits left over. -/
def append (n : Nat) : List Char → Nat × List Char
  | [] => (n, [])
  | d :: rest =>
      let more := 10 * n + Text.digitValue d
      if more ≤ greatestWord then append more rest else (n, d :: rest)

/-- The digits that a significand of 64 bits has room for.  Of a whole part, the digits left over
count as zeros; of a fraction, they do not count. -/
def ofLeadingDigits (whole fraction : List Char) (power : Int) : Decimal :=
  let (n, zeros) := append 0 whole
  let (significand, ignored) := append n fraction
  ⟨significand, power + zeros.length - (fraction.length - ignored.length)⟩

/-! ## The range of double precision -/

/-- The least magnitude that rounds to infinity in double precision. -/
def tooLarge : Nat := Nat.pow 2 1024 - Nat.pow 2 970

/-- The value of the decimal rounds to infinity. -/
def overflows (d : Decimal) : Bool :=
  if d.significand = 0 then false
  else
    let places : Int := (Text.decimal d.significand).length
    if places + d.exponent > 400 then true
    else if places + d.exponent < 300 then false
    else if 0 ≤ d.exponent then
      decide (tooLarge ≤ d.significand * Nat.pow 10 d.exponent.toNat)
    else decide (tooLarge * Nat.pow 10 (-d.exponent).toNat ≤ d.significand)

end Decimal

end ScanGraph

namespace ScanGraph

/-- A magnitude of double precision. -/
structure Double where
  units : Nat
deriving DecidableEq, Repr

namespace Double

/-! ## Rounding -/

/-- The units of the number one. -/
def one : Nat := Nat.pow 2 1074

/-- The least number of units that is beyond every magnitude. -/
def tooMany : Nat := Nat.pow 2 2098

/-- The significant bits of a magnitude. -/
def precision : Nat := 53

/-- The distance between magnitudes at a number of units. -/
def spacing (units : Nat) : Nat :=
  Nat.pow 2 (Nat.log2 units + 1 - precision)

/-- The multiple of `step` nearest to `num / den`; of two, the even one. -/
def nearestMultiple (step num den : Nat) : Nat :=
  let below := num / (den * step)
  let rest := 2 * (num % (den * step))
  if den * step < rest ∨ den * step = rest ∧ below % 2 = 1 then (below + 1) * step
  else below * step

/-- The magnitude nearest to `num / den` units. -/
def nearest (num den : Nat) : Double :=
  ⟨nearestMultiple (spacing (num / den)) num den⟩

/-- The magnitude nearest to a whole number. -/
def ofNat (n : Nat) : Double :=
  nearest (n * one) 1

/-- The rounded product. -/
def times (a b : Double) : Double :=
  nearest (a.units * b.units) one

/-- The rounded quotient. -/
def dividedBy (a b : Double) : Double :=
  nearest (a.units * one) b.units

/-- The magnitude is not beyond double precision. -/
def isFinite (d : Double) : Bool :=
  decide (d.units < tooMany)

/-! ## From decimals -/

/-- The greatest exponent of a power of ten that is a magnitude. -/
def greatestPower : Nat := 308

def powerOfTen (n : Nat) : Double :=
  ofNat (Nat.pow 10 n)

/-- A magnitude divided by a power of ten, by two steps if the power is too great for one; a
greater power leaves nothing. -/
def scaledDown (d : Double) (n : Nat) : Double :=
  if n ≤ greatestPower then d.dividedBy (powerOfTen n)
  else if n ≤ 2 * greatestPower then
    (d.dividedBy (powerOfTen greatestPower)).dividedBy (powerOfTen (n - greatestPower))
  else ⟨0⟩

/-- A magnitude multiplied by a power of ten, unless that is beyond double precision. -/
def scaledUp? (d : Double) (n : Nat) : Option Double :=
  if greatestPower < n then none
  else
    let product := d.times (powerOfTen n)
    if product.isFinite then some product else none

/-- The magnitude that a decimal of a 64-bit significand is taken for. -/
def ofDecimal? (d : Decimal) : Option Double :=
  if d.significand = 0 then some ⟨0⟩
  else match d.exponent with
    | .ofNat n => (ofNat d.significand).scaledUp? n
    | .negSucc n => some ((ofNat d.significand).scaledDown (n + 1))

end Double

end ScanGraph

namespace ScanGraph.Double

/-! ## What rounds to a magnitude -/

/-- The distance to the magnitude below, which is halved at a power of two. -/
def gapBelow (d : Double) : Nat :=
  let gap := spacing d.units
  if d.units = Nat.pow 2 (Nat.log2 d.units) then max 1 (gap / 2) else gap

/-- The ends of the interval between which numbers round to a magnitude belong to it as well. -/
def isClosed (d : Double) : Bool :=
  d.units / spacing d.units % 2 == 0

/-- The number `num / den` of units rounds to a magnitude. -/
def contains (d : Double) (num den : Nat) : Bool :=
  let low := 2 * d.units - d.gapBelow
  let high := 2 * d.units + spacing d.units
  (low * den < 2 * num || d.isClosed && low * den == 2 * num)
    && (2 * num < high * den || d.isClosed && 2 * num == high * den)

/-! ## Decimals -/

/-- The exponent of the power of ten of the first digit of a magnitude that is not zero. -/
def leadingPower (d : Double) : Int :=
  (Text.decimal (d.units * Nat.pow 10 400 / one)).length - 401

/-- The significand of the decimal with the exponent `power` that rounds to a magnitude and is
nearest to it, if there is one. -/
def significand? (d : Double) (power : Int) : Option Nat :=
  let up := Nat.pow 10 (-power).toNat
  let step := one * Nat.pow 10 power.toNat
  let below := d.units * up / step
  let rest := 2 * (d.units * up % step)
  match d.contains (below * step) up, d.contains ((below + 1) * step) up with
  | true, true => if step < rest ∨ step = rest ∧ below % 2 = 1 then some (below + 1) else some below
  | true, false => some below
  | false, true => some (below + 1)
  | false, false => none

/-- The shortest decimal of a magnitude that is not zero: no more than 17 digits are needed. -/
def shortest (d : Double) : Decimal :=
  let found := (List.range 17).findSome? (fun (n : Nat) =>
    let power := d.leadingPower - n
    (d.significand? power).map (fun s => Decimal.mk s power))
  found.getD ⟨0, 0⟩

/-! ## Text -/

/-- A whole number with its sign, which is written also where it is a plus. -/
def exponentChars : Int → List Char
  | .ofNat n => '+' :: Text.decimal n
  | .negSucc n => '-' :: Text.decimal (n + 1)

/-- Digits times a power of ten, of which `places` stand before the point. -/
def layout (ds : List Char) (power : Int) : List Char :=
  let places := ds.length + power
  if 0 ≤ power ∧ places ≤ 16 then ds ++ List.replicate power.toNat '0' ++ ['.', '0']
  else if 0 < places ∧ places ≤ 16 then
    ds.take places.toNat ++ '.' :: ds.drop places.toNat
  else if -5 < places ∧ places ≤ 0 then
    '0' :: '.' :: (List.replicate (-places).toNat '0' ++ ds)
  else match ds with
    | [] => []
    | [c] => c :: 'e' :: exponentChars (places - 1)
    | c :: rest => c :: '.' :: (rest ++ 'e' :: exponentChars (places - 1))

/-- The text of a decimal, without zeros at the end of its significand. -/
def decimalChars (d : Decimal) : List Char :=
  let ds := Text.decimal d.significand
  let kept := Text.trimEndWhere (· == '0') ds
  layout kept (d.exponent + (ds.length - kept.length))

def chars (d : Double) : List Char :=
  if d.units = 0 then ['0', '.', '0'] else decimalChars d.shortest

end ScanGraph.Double
