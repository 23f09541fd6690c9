/-
Reading TOML documents.

A document is a list of lines: headers, assignments, blanks and comments.  It
denotes an object; `parse?` gives it as JSON, or nothing if the document breaks
a rule.  At most 80 arrays and inline tables may be open at once.  Readers of
values are given fuel that the length of the text bounds.

Fuel is used where values nest, and the length of the text bounds how often they can; it
is never what ends a reader.  What is wrong with a document is not said, and neither is
where.
-/
import ScanGraph.Toml.Scalar
import ScanGraph.Toml.Table

namespace ScanGraph.Toml

/-! ## Blanks -/

/-- The characters after blanks within a line. -/
def skipSpaces (cs : List Char) : List Char :=
  cs.dropWhile isSpace

/-- The characters after a comment at the beginning, if it holds only plain characters. -/
def afterComment? (cs : List Char) : Option (List Char) :=
  match cs with
  | '#' :: rest =>
      let comment := rest.takeWhile (· != '\n')
      let text := if comment.getLast? = some '\r' then comment.dropLast else comment
      let after := rest.drop comment.length
      if text.all isPlain && (after != [] || comment.getLast? != some '\r') then some after
      else none
  | cs => some cs

/-- The characters after the end of a line, before which there may be blanks and a comment. -/
def afterLine? (cs : List Char) : Option (List Char) :=
  match afterComment? (skipSpaces cs) with
  | some [] => some []
  | some ('\n' :: rest) => some rest
  | some ('\r' :: '\n' :: rest) => some rest
  | _ => none

/-- The characters after blanks, comments and ends of lines; at most `fuel` lines. -/
def skipLines? : Nat → List Char → Option (List Char)
  | 0, cs => some cs
  | fuel + 1, cs =>
      match skipSpaces cs with
      | '#' :: _ => (afterLine? cs).bind (skipLines? fuel)
      | '\n' :: _ => (afterLine? cs).bind (skipLines? fuel)
      | '\r' :: _ => (afterLine? cs).bind (skipLines? fuel)
      | rest => some rest

/-- The characters after all blanks between the items of a list. -/
def skipBlanks? (cs : List Char) : Option (List Char) :=
  skipLines? (cs.length + 1) cs

/-- The characters of a value after the sign that sets it in an inline table.

Blanks, comments and ends of lines may stand on both sides of the sign there, for an
inline table may be spread over lines; in an assignment on a line only blanks may. -/
def afterSign? (fuel : Nat) (cs : List Char) : Option (List Char) :=
  match skipLines? fuel cs with
  | some ('=' :: rest) => skipLines? fuel rest
  | _ => none

/-! ## Values -/

abbrev ValueRead (α : Type) := Option (α × List Char)

/-- The most arrays and inline tables that may be open. -/
def maxDepth : Nat := 80

mutual

/-- The value at the beginning; `room` more arrays and inline tables may open. -/
def value : Nat → Nat → List Char → ValueRead Json
  | _, 0, _ => none
  | room, fuel + 1, cs =>
      match cs with
      | '[' :: rest =>
          if room = 0 then none
          else match skipLines? fuel rest with
            | some (']' :: rest) => some (.arr [], rest)
            | some rest => (items (room - 1) fuel rest).map (fun (vs, r) => (.arr vs, r))
            | none => none
      | '\x7b' :: rest =>
          if room = 0 then none
          else match skipLines? fuel rest with
            | some ('\x7d' :: rest) => some (.obj [], rest)
            | some rest =>
                (pairs (room - 1) fuel [] rest).map (fun (ms, r) => (.obj (Node.membersJson ms), r))
            | none => none
      | '"' :: _ => (string cs).map (fun (text, r) => (.str (String.ofList text), r))
      | '\'' :: _ => (string cs).map (fun (text, r) => (.str (String.ofList text), r))
      | cs => scalarAt? cs

/-- The items of an array up to its closing bracket. -/
def items : Nat → Nat → List Char → ValueRead (List Json)
  | _, 0, _ => none
  | room, fuel + 1, cs =>
      match value room fuel cs with
      | none => none
      | some (v, rest) =>
          match skipLines? fuel rest with
          | some (']' :: rest) => some ([v], rest)
          | some (',' :: rest) =>
              match skipLines? fuel rest with
              | some (']' :: rest) => some ([v], rest)
              | some rest => (items room fuel rest).map (fun (vs, r) => (v :: vs, r))
              | none => none
          | _ => none

/-- The assignments of an inline table up to its closing brace, after some members. -/
def pairs : Nat → Nat → Members → List Char → ValueRead Members
  | _, 0, _, _ => none
  | room, fuel + 1, ms, cs =>
      match key cs with
      | none => none
      | some (k, rest) =>
          match (afterSign? fuel rest).bind (value room fuel) with
          | none => none
          | some (v, rest) =>
              match ms.assign k (.value v), skipLines? fuel rest with
              | some ms, some ('\x7d' :: rest) => some (ms, rest)
              | some ms, some (',' :: rest) =>
                  match skipLines? fuel rest with
                  | some ('\x7d' :: rest) => some (ms, rest)
                  | some rest => pairs room fuel ms rest
                  | none => none
              | _, _ => none

end

/-! ## Lines -/

/-- What was read of a document: its members, and the path of the table at hand. -/
structure Document where
  root : Members
  path : List String

namespace Document

/-- The document without lines. -/
def empty : Document :=
  ⟨[], []⟩

/-- The document after a header that opens a table. -/
def opened (d : Document) (path : List String) : Option Document :=
  match path.getLast? with
  | some last => (d.root.within path.dropLast (Members.openTable last)).map (⟨·, path⟩)
  | none => none

/-- The document after a header that begins one more table under a key. -/
def begun (d : Document) (path : List String) : Option Document :=
  match path.getLast? with
  | some last => (d.root.within path.dropLast (Members.beginTable last)).map (⟨·, path⟩)
  | none => none

/-- The document after an assignment in the table at hand. -/
def assigned (d : Document) (key : List String) (v : Json) : Option Document :=
  (d.root.within d.path (Members.assign key (.value v))).map (⟨·, d.path⟩)

/-- The document after the line at the beginning, and the characters after the line. -/
def line (fuel : Nat) (d : Document) (cs : List Char) : ValueRead Document :=
  match cs with
  | '[' :: '[' :: rest =>
      match key rest with
      | some (path, ']' :: ']' :: rest) => (d.begun path).map (⟨·, rest⟩)
      | _ => none
  | '[' :: rest =>
      match key rest with
      | some (path, ']' :: rest) => (d.opened path).map (⟨·, rest⟩)
      | _ => none
  | cs =>
      match key cs with
      | some (k, '=' :: rest) =>
          match value maxDepth fuel (skipSpaces rest) with
          | some (v, rest) => (d.assigned k v).map (⟨·, rest⟩)
          | none => none
      | _ => none

/-- The document after the lines of a text, at most `fuel` of them. -/
def lines : Nat → Document → List Char → Option Document
  | 0, _, _ => none
  | fuel + 1, d, cs =>
      match skipBlanks? cs with
      | none => none
      | some [] => some d
      | some rest =>
          match d.line (2 * rest.length + 2) rest with
          | none => none
          | some (d, rest) =>
              match afterLine? rest with
              | some rest => lines fuel d rest
              | none => none

end Document

/-- The characters of a text after a byte order mark. -/
def afterMark (cs : List Char) : List Char :=
  match cs with
  | '\uFEFF' :: rest => rest
  | cs => cs

/-- The object that a document denotes. -/
def parse? (text : String) : Option Json :=
  let cs := afterMark text.toList
  (Document.empty.lines (cs.length + 1) cs).map (fun d => .obj (Node.membersJson d.root))

end ScanGraph.Toml
