/-
Reals as formats write them.

A numeral is read as the magnitude of double precision nearest to it.  Writing
is exact: the decimal of so many places, or of so many digits, that is nearest
to the magnitude, halfway to the even digit.
-/
import ScanGraph.Double

namespace ScanGraph.Shell

/-- A real of double precision with its sign, or one of the values that are no numbers. -/
inductive Real where
  | finite (isNegative : Bool) (d : Double)
  | infinite (isNegative : Bool)
  | undefined
deriving DecidableEq, Repr

namespace Real

def zero : Real := .finite false ⟨0⟩

/-! ## Reading -/

def ofDecimal (isNegative : Bool) (d : Decimal) : Real :=
  if d.overflows then .infinite isNegative
  else
    let up := Nat.pow 10 (min d.exponent.toNat 400)
    let down := Nat.pow 10 (min (-d.exponent).toNat 1500)
    .finite isNegative (.nearest (d.significand * up * Double.one) down)

/-- The exponent at the beginning of a text, after its letter, and what follows it. -/
def readExponent (cs : List Char) : Int × List Char :=
  let power (sign : Int) (rest : List Char) : Int × List Char :=
    let ds := rest.takeWhile Char.isDigit
    if ds.isEmpty then (0, cs) else (sign * Text.valueOf ds, rest.dropWhile Char.isDigit)
  match cs with
  | 'e' :: '-' :: rest => power (-1) rest
  | 'e' :: '+' :: rest => power 1 rest
  | 'e' :: rest => power 1 rest
  | 'E' :: '-' :: rest => power (-1) rest
  | 'E' :: '+' :: rest => power 1 rest
  | 'E' :: rest => power 1 rest
  | _ => (0, cs)

/-- The magnitude at the beginning of a text, and what follows it. -/
def readMagnitude? (isNegative : Bool) (cs : List Char) : Option (Real × List Char) :=
  let word := (cs.take 3).map Char.toLower
  if word = ['i', 'n', 'f'] then
    some (.infinite isNegative,
      if (cs.take 8).map Char.toLower = "infinity".toList then cs.drop 8 else cs.drop 3)
  else if word = ['n', 'a', 'n'] then some (.undefined, cs.drop 3)
  else
    let whole := cs.takeWhile Char.isDigit
    let rest := cs.dropWhile Char.isDigit
    let (fraction, rest) : List Char × List Char := match rest with
      | '.' :: more => (more.takeWhile Char.isDigit, more.dropWhile Char.isDigit)
      | _ => ([], rest)
    if whole.isEmpty && fraction.isEmpty then none
    else
      let (power, rest) := readExponent rest
      some (ofDecimal isNegative (.ofDigits whole fraction power), rest)

/-- The real at the beginning of a text after blanks, and what follows it. -/
def read? (cs : List Char) : Option (Real × List Char) :=
  match cs.dropWhile (fun c => c = ' ' || ('\t' ≤ c && c ≤ '\r')) with
  | '-' :: rest => readMagnitude? true rest
  | '+' :: rest => readMagnitude? false rest
  | rest => readMagnitude? false rest

/-! ## Writing -/

/-- The whole number nearest to a magnitude times ten to a power, halfway to the even one. -/
def scaled (d : Double) (power : Int) : Nat :=
  Double.nearestMultiple 1 (d.units * Nat.pow 10 power.toNat)
    (Double.one * Nat.pow 10 (-power).toNat)

/-- Digits with the point before the last `places` of them. -/
def pointed (places : Nat) (keepPoint : Bool) (ds : List Char) : List Char :=
  let all := List.replicate (places + 1 - ds.length) '0' ++ ds
  let whole := all.take (all.length - places)
  if places = 0 then (if keepPoint then whole ++ ['.'] else whole)
  else whole ++ '.' :: all.drop (all.length - places)

/-- A magnitude with a number of places after the point. -/
def fixed (places : Nat) (keepPoint : Bool) (d : Double) : List Char :=
  pointed places keepPoint (Text.decimal (scaled d places))

/-- The exponent of the first digit of a magnitude that is rounded to a number of places after
that digit. -/
def roundedPower (places : Nat) (d : Double) : Int :=
  if d.units = 0 then 0
  else
    let power := d.leadingPower
    if scaled d (places - power) < Nat.pow 10 (places + 1) then power else power + 1

/-- A magnitude with one digit before the point, a number of places after it, and an exponent. -/
def scientific (places : Nat) (keepPoint : Bool) (d : Double) : List Char :=
  let power := roundedPower places d
  let exponent := Text.padded 2 power.natAbs
  pointed places keepPoint (Text.decimal (scaled d (places - power)))
    ++ 'e' :: (if power < 0 then '-' else '+') :: exponent

/-- Digits without the zeros at the end of a fraction. -/
def shortened (cs : List Char) : List Char :=
  let mantissa := cs.takeWhile (· != 'e')
  let rest := cs.drop mantissa.length
  if mantissa.contains '.' then
    Text.trimEndWhere (· == '.') (Text.trimEndWhere (· == '0') mantissa) ++ rest
  else cs

/-- A magnitude with a number of significant digits, in the shorter of the two ways. -/
def general (digits : Nat) (keepZeros : Bool) (d : Double) : List Char :=
  let digits := max 1 digits
  let power := roundedPower (digits - 1) d
  let text :=
    if power < -4 ∨ (digits : Int) ≤ power then scientific (digits - 1) keepZeros d
    else fixed ((digits : Int) - 1 - power).toNat keepZeros d
  if keepZeros then text else shortened text

def isNegative : Real → Bool
  | finite s _ => s
  | infinite s => s
  | undefined => false

/-- The characters of a real without its sign, as a letter asks for. -/
def chars (letter : Char) (precision : Option Nat) (alternate : Bool) : Real → List Char
  | infinite _ => ['i', 'n', 'f']
  | undefined => ['n', 'a', 'n']
  | finite _ d =>
      match letter.toLower with
      | 'e' => scientific (precision.getD 6) alternate d
      | 'g' => general (precision.getD 6) alternate d
      | _ => fixed (precision.getD 6) alternate d

end Real

end ScanGraph.Shell
