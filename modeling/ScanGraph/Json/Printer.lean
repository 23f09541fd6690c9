/-
Writing JSON compactly.

No blanks are written, members stand in the order they have, and a text
escapes the double quote, the backslash and the characters below U+0020: five
of those have short escapes, the others four hexadecimal digits.

A number that is not whole is written as the text that it is kept as.  Everything else
is written in one way only, so that values with one text are one value, up to what is
said with the reader.  Characters above U+007F stand for themselves.
-/
import ScanGraph.Json.Basic
import ScanGraph.Text.Digits

namespace ScanGraph.Json

/-- One character inside a JSON text. -/
def escapeChar (c : Char) : List Char :=
  if c = '"' then ['\\', '"']
  else if c = '\\' then ['\\', '\\']
  else if c = '\x08' then ['\\', 'b']
  else if c = '\x0c' then ['\\', 'f']
  else if c = '\n' then ['\\', 'n']
  else if c = '\r' then ['\\', 'r']
  else if c = '\t' then ['\\', 't']
  else if c.toNat < 0x20 then
    ['\\', 'u', '0', '0', Nat.digitChar (c.toNat / 16), Nat.digitChar (c.toNat % 16)]
  else [c]

/-- A JSON text with its quotes. -/
def textChars (s : String) : List Char :=
  '"' :: (s.toList.flatMap escapeChar ++ ['"'])

/-- A whole number. -/
def intChars : Int → List Char
  | .ofNat n => Text.decimal n
  | .negSucc n => '-' :: Text.decimal (n + 1)

mutual

def chars : Json → List Char
  | .null => ['n', 'u', 'l', 'l']
  | .bool true => ['t', 'r', 'u', 'e']
  | .bool false => ['f', 'a', 'l', 's', 'e']
  | .int n => intChars n
  | .real text => text.toList
  | .str s => textChars s
  | .arr [] => ['[', ']']
  | .arr (v :: rest) => '[' :: (chars v ++ itemChars rest)
  | .obj [] => ['\x7b', '\x7d']
  | .obj ((k, v) :: rest) => '\x7b' :: (textChars k ++ ':' :: (chars v ++ memberChars rest))

/-- The characters of the items after the first, with the closing bracket. -/
def itemChars : List Json → List Char
  | [] => [']']
  | v :: rest => ',' :: (chars v ++ itemChars rest)

/-- The characters of the members after the first, with the closing brace. -/
def memberChars : List (String × Json) → List Char
  | [] => ['\x7d']
  | (k, v) :: rest => ',' :: (textChars k ++ ':' :: (chars v ++ memberChars rest))

end

/-- The compact text of a value. -/
def render (v : Json) : String :=
  String.ofList (chars v)

end ScanGraph.Json
