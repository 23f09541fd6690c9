/-
Texts as octets: UTF-8 and hexadecimal.

`decode` reads any octets as characters, each maximal stretch that cannot begin
or continue one standing apart; `decodeLossy` writes a replacement character for
each of these stretches.

Reading is by a machine that knows how many octets are still to come and between which
bounds the next one must lie, so that overlong forms and halves of pairs are no
characters.  Each stretch that is no character is replaced once.
-/

namespace ScanGraph.Text

def octets (s : String) : List UInt8 :=
  s.toUTF8.toList

/-- The text that the octets encode, if they are UTF-8. -/
def ofOctets? (bs : List UInt8) : Option String :=
  String.fromUTF8? ⟨bs.toArray⟩

/-- The character written where octets encode none. -/
def replacement : Char := '\uFFFD'

/-- How many octets may follow the first one of a character, and the range of the second. -/
def leadOf (b : UInt8) : Option (Nat × UInt8 × UInt8) :=
  if 0xC2 ≤ b && b ≤ 0xDF then some (1, 0x80, 0xBF)
  else if b == 0xE0 then some (2, 0xA0, 0xBF)
  else if b == 0xED then some (2, 0x80, 0x9F)
  else if 0xE1 ≤ b && b ≤ 0xEF then some (2, 0x80, 0xBF)
  else if b == 0xF0 then some (3, 0x90, 0xBF)
  else if 0xF1 ≤ b && b ≤ 0xF3 then some (3, 0x80, 0xBF)
  else if b == 0xF4 then some (3, 0x80, 0x8F)
  else none

/-- What is still owed of a character: octets to come, range of the next one, value so far. -/
structure Pending where
  owed : Nat
  low : UInt8
  high : UInt8
  value : Nat

/-- The payload bits of a first octet that announces `owed` more. -/
def leadBits (b : UInt8) (owed : Nat) : Nat :=
  b.toNat % Nat.pow 2 (6 - owed)

/-- The characters of octets, with what the octets before have left open. -/
def decodeFrom : Option Pending → List UInt8 → List (Option Char)
  | none, [] => []
  | some _, [] => [none]
  | none, b :: bs =>
      if b < 0x80 then some (Char.ofNat b.toNat) :: decodeFrom none bs
      else match leadOf b with
        | some (owed, low, high) => decodeFrom (some ⟨owed, low, high, leadBits b owed⟩) bs
        | none => none :: decodeFrom none bs
  | some p, b :: bs =>
      if p.low ≤ b && b ≤ p.high then
        let value := p.value * 64 + b.toNat % 64
        if p.owed ≤ 1 then some (Char.ofNat value) :: decodeFrom none bs
        else decodeFrom (some ⟨p.owed - 1, 0x80, 0xBF, value⟩) bs
      else if b < 0x80 then none :: some (Char.ofNat b.toNat) :: decodeFrom none bs
      else match leadOf b with
        | some (owed, low, high) =>
            none :: decodeFrom (some ⟨owed, low, high, leadBits b owed⟩) bs
        | none => none :: none :: decodeFrom none bs

/-- The characters that octets encode, with nothing in place of a stretch that encodes none. -/
def decode (bs : List UInt8) : List (Option Char) :=
  decodeFrom none bs

/-- The octets as text, with a replacement character for each stretch that is none. -/
def decodeLossy (bs : List UInt8) : String :=
  String.ofList ((decode bs).map (fun c => c.getD replacement))

/-- Two lower-case hexadecimal digits for an octet. -/
def hexOctet (b : UInt8) : List Char :=
  [Nat.digitChar (b.toNat / 16), Nat.digitChar (b.toNat % 16)]

/-- The octets in hexadecimal. -/
def hex (bs : List UInt8) : String :=
  String.ofList (bs.flatMap hexOctet)

/-- The value of a hexadecimal digit of either case. -/
def hexValue? (c : Char) : Option Nat :=
  if '0' ≤ c ∧ c ≤ '9' then some (c.toNat - '0'.toNat)
  else if 'a' ≤ c ∧ c ≤ 'f' then some (c.toNat - 'a'.toNat + 10)
  else if 'A' ≤ c ∧ c ≤ 'F' then some (c.toNat - 'A'.toNat + 10)
  else none

/-- The octets that an even number of hexadecimal digits spell. -/
def ofHex? : List Char → Option (List UInt8)
  | [] => some []
  | a :: b :: rest =>
      match hexValue? a, hexValue? b, ofHex? rest with
      | some x, some y, some r => some (UInt8.ofNat (16 * x + y) :: r)
      | _, _, _ => none
  | [_] => none

end ScanGraph.Text
