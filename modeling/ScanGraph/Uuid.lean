/-
Universally unique identifiers.

An identifier is a number of 128 bits.  Its text is lower case with hyphens;
`parse?` also reads capitals, the form without hyphens, the form in braces and
the form of a uniform resource name.

A number of 128 bits is all that an identifier is here.  Versions and variants are not
told apart, and whoever needs a new one takes the next number, so that the identifiers
of a pipeline are different from each other by counting.
-/
import ScanGraph.Text.Octets

namespace ScanGraph

/-- The number of identifiers of 128 bits. -/
def Uuid.count : Nat :=
  0x100000000000000000000000000000000

/-- An identifier of 128 bits. -/
structure Uuid where
  value : Fin Uuid.count
deriving DecidableEq, Repr

namespace Uuid

/-- The identifier with the given number. -/
def ofNat (n : Nat) : Uuid :=
  ⟨⟨n % count, Nat.mod_lt n (by decide)⟩⟩

instance : Inhabited Uuid :=
  ⟨ofNat 0⟩

instance : LT Uuid :=
  ⟨fun a b => a.value < b.value⟩

instance : DecidableLT Uuid :=
  fun a b => inferInstanceAs (Decidable (a.value < b.value))

/-- The number of digits of each group. -/
def groups : List Nat :=
  [8, 4, 4, 4, 12]

/-- The lowest `width` hexadecimal digits of `n`. -/
def hexDigits (n : Nat) : Nat → List Char
  | 0 => []
  | width + 1 => Nat.digitChar (n / Nat.pow 16 width % 16) :: hexDigits n width

/-- The digits cut into groups with hyphens between them. -/
def hyphenate : List Nat → List Char → List Char
  | [], _ => []
  | [width], cs => cs.take width
  | width :: rest, cs => cs.take width ++ '-' :: hyphenate rest (cs.drop width)

def text (u : Uuid) : String :=
  String.ofList (hyphenate groups (hexDigits u.value.val 32))

/-- The number that hexadecimal digits spell, all of which must be such. -/
def hexNumber? : Nat → List Char → Option Nat
  | n, [] => some n
  | n, c :: rest =>
      match Text.hexValue? c with
      | some d => hexNumber? (16 * n + d) rest
      | none => none

/-- The digits of groups with hyphens between them. -/
def unhyphenate? : List Nat → List Char → Option (List Char)
  | [], [] => some []
  | [], _ => none
  | [width], cs => if cs.length = width then some cs else none
  | width :: rest, cs =>
      match cs.drop width with
      | '-' :: more => (unhyphenate? rest more).map (fun ds => cs.take width ++ ds)
      | _ => none

/-- The beginning of the form of a uniform resource name, which may also be in capitals. -/
def resourceName : List Char :=
  ['u', 'r', 'n', ':', 'u', 'u', 'i', 'd', ':']

/-- The 32 digits inside one of the accepted forms. -/
def digits? (cs : List Char) : Option (List Char) :=
  if cs.length = 32 then some cs
  else if cs.length = 36 then unhyphenate? groups cs
  else if cs.length = 38 ∧ cs.head? = some '\x7b' ∧ cs.getLast? = some '\x7d' then
    unhyphenate? groups (cs.drop 1).dropLast
  else if cs.length = 45 ∧ (cs.take 9).map Char.toLower = resourceName then
    unhyphenate? groups (cs.drop 9)
  else none

/-- The identifier that a text denotes. -/
def parse? (s : String) : Option Uuid :=
  (digits? s.toList).bind (fun ds => (hexNumber? 0 ds).map ofNat)

end Uuid

end ScanGraph
