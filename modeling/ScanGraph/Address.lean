/-
IP addresses.

The text of an IPv4 address is its four octets in decimal, separated by dots;
reading admits neither a leading zero nor an octet of more than three digits.
An IPv6 address is eight groups of 16 bits.  Its text is that of RFC 5952:
groups in lower-case hexadecimal, and the first of the longest runs of at least
two zero groups written as two colons; an address that embeds an IPv4 one keeps
it as its tail.  Reading admits an IPv4 tail anywhere it fits, and no zone.
Addresses are ordered by version and then by number.

Both families are kept as what they are, octets and groups, so that an address is never
out of range, and equality is that of addresses and not of their texts.  The order is
total, and decided by `rank`, the number of the address after its version.

`text` and `parse?` are inverse in one direction: an address is read from its own text.
The other direction fails by design, as many texts are read as one address; the text
that is written is the canonical one of these.
-/
import ScanGraph.Text.Digits
import ScanGraph.Text.Octets

namespace ScanGraph.Address

/-- An IPv4 address. -/
structure V4 where
  a : UInt8
  b : UInt8
  c : UInt8
  d : UInt8
deriving DecidableEq, Repr, Inhabited

namespace V4

/-- The address as a number of 32 bits. -/
def toNat (x : V4) : Nat :=
  ((x.a.toNat * 256 + x.b.toNat) * 256 + x.c.toNat) * 256 + x.d.toNat

def chars (x : V4) : List Char :=
  Text.decimal x.a.toNat ++ '.' :: Text.decimal x.b.toNat ++ '.' :: Text.decimal x.c.toNat
    ++ '.' :: Text.decimal x.d.toNat

def text (x : V4) : String :=
  String.ofList x.chars

/-- An octet at the beginning of a text, and the rest. -/
def octet? (cs : List Char) : Option (UInt8 × List Char) :=
  let ds := cs.takeWhile Char.isDigit
  let leadingZero := ds.length > 1 && ds.head? == some '0'
  if ds.isEmpty || ds.length > 3 || leadingZero || Text.valueOf ds > 255 then none
  else some (UInt8.ofNat (Text.valueOf ds), cs.dropWhile Char.isDigit)

/-- A dot and an octet at the beginning of a text, and the rest. -/
def dotOctet? : List Char → Option (UInt8 × List Char)
  | '.' :: rest => octet? rest
  | _ => none

/-- An address at the beginning of a text, and the rest. -/
def read? (cs : List Char) : Option (V4 × List Char) := do
  let (a, cs) ← octet? cs
  let (b, cs) ← dotOctet? cs
  let (c, cs) ← dotOctet? cs
  let (d, cs) ← dotOctet? cs
  some (⟨a, b, c, d⟩, cs)

/-- The address that a text denotes. -/
def parse? (s : String) : Option V4 :=
  match read? s.toList with
  | some (x, []) => some x
  | _ => none

end V4

end ScanGraph.Address

namespace ScanGraph.Address

/-- An IPv6 address: eight groups of 16 bits. -/
structure V6 where
  groups : Vector UInt16 8
deriving DecidableEq, Repr, Inhabited

namespace V6

/-- The address with the given groups, if they are eight. -/
def ofList? (l : List UInt16) : Option V6 :=
  if h : l.toArray.size = 8 then some ⟨⟨l.toArray, h⟩⟩ else none

/-- The groups in order. -/
def toList (x : V6) : List UInt16 :=
  x.groups.toList

/-! ## Writing -/

/-- A group in hexadecimal, without leading zeros. -/
def groupChars (g : UInt16) : List Char :=
  Nat.toDigits 16 g.toNat

/-- Groups with colons between them. -/
def colonChars : List UInt16 → List Char
  | [] => []
  | [g] => groupChars g
  | g :: rest => groupChars g ++ ':' :: colonChars rest

/-- The number of zero groups at the beginning. -/
def zerosAt (l : List UInt16) : Nat :=
  (l.takeWhile (· == 0)).length

/-- Start and length of the first longest run of zero groups, looking from position `i` on. -/
def longestZeros (i : Nat) : List UInt16 → Nat × Nat
  | [] => (i, 0)
  | g :: rest =>
      let here := zerosAt (g :: rest)
      let (start, len) := longestZeros (i + 1) rest
      if len ≤ here then (i, here) else (start, len)

/-- The IPv4 address that the last two groups hold. -/
def tailV4 (x y : UInt16) : V4 :=
  ⟨UInt8.ofNat (x.toNat / 256), UInt8.ofNat (x.toNat % 256),
   UInt8.ofNat (y.toNat / 256), UInt8.ofNat (y.toNat % 256)⟩

def chars (x : V6) : List Char :=
  match x.toList with
  | [0, 0, 0, 0, 0, 0xFFFF, g, h] => [':', ':', 'f', 'f', 'f', 'f', ':'] ++ (tailV4 g h).chars
  | l =>
      let (start, len) := longestZeros 0 l
      if len > 1 then
        colonChars (l.take start) ++ ':' :: ':' :: colonChars (l.drop (start + len))
      else colonChars l

def text (x : V6) : String :=
  String.ofList x.chars

/-! ## Reading -/

/-- One to four hexadecimal digits at the beginning of a text, as a group, and the rest. -/
def group? (cs : List Char) : Option (UInt16 × List Char) :=
  let ds := cs.takeWhile (fun c => (Text.hexValue? c).isSome)
  if ds.isEmpty || ds.length > 4 then none
  else
    let n := ds.foldl (fun n c => 16 * n + (Text.hexValue? c).getD 0) 0
    some (UInt16.ofNat n, cs.drop ds.length)

/-- The rest after the colon that separates a group from the one before it. -/
def separated? (first : Bool) (cs : List Char) : Option (List Char) :=
  if first then some cs
  else match cs with
    | ':' :: rest => some rest
    | _ => none

/-- The two groups of an IPv4 address. -/
def groupsOf (x : V4) : List UInt16 :=
  [UInt16.ofNat (x.a.toNat * 256 + x.b.toNat), UInt16.ofNat (x.c.toNat * 256 + x.d.toNat)]

/-- Up to `room` groups, whether an IPv4 address ended them, and the rest. -/
def readGroups (first : Bool) : Nat → List Char → List UInt16 × Bool × List Char
  | 0, cs => ([], false, cs)
  | room + 1, cs =>
      let tail := if room = 0 then none else (separated? first cs).bind V4.read?
      match tail with
      | some (x, rest) => (groupsOf x, true, rest)
      | none =>
          match (separated? first cs).bind group? with
          | some (g, rest) =>
              let (more, v4, rest) := readGroups false room rest
              (g :: more, v4, rest)
          | none => ([], false, cs)

/-- The groups that a text denotes. -/
def parseGroups? (cs : List Char) : Option (List UInt16) :=
  match readGroups true 8 cs with
  | (head, v4, rest) =>
      if head.length = 8 then (if rest.isEmpty then some head else none)
      else if v4 then none
      else match rest with
        | ':' :: ':' :: rest =>
            let (tail, _, rest) := readGroups true (7 - head.length) rest
            if rest.isEmpty then
              some (head ++ List.replicate (8 - head.length - tail.length) 0 ++ tail)
            else none
        | _ => none

/-- The address that a text denotes. -/
def parse? (s : String) : Option V6 :=
  (parseGroups? s.toList).bind ofList?

end V6

end ScanGraph.Address

namespace ScanGraph

/-- The number of an IPv6 address. -/
def Address.V6.toNat (x : Address.V6) : Nat :=
  x.toList.foldl (fun n g => n * 65536 + g.toNat) 0

inductive Address where
  | v4 (x : Address.V4)
  | v6 (x : Address.V6)
deriving DecidableEq, Repr

namespace Address

def text : Address → String
  | v4 x => x.text
  | v6 x => x.text

/-- The address that a text denotes. -/
def parse? (s : String) : Option Address :=
  match V4.parse? s with
  | some x => some (v4 x)
  | none => (V6.parse? s).map v6

/-- Where an address stands in the order. -/
def rank : Address → Nat
  | v4 x => x.toNat
  | v6 x => UInt32.size + x.toNat

instance : LT Address :=
  ⟨fun a b => a.rank < b.rank⟩

instance : DecidableLT Address :=
  fun a b => inferInstanceAs (Decidable (a.rank < b.rank))

end Address

end ScanGraph
