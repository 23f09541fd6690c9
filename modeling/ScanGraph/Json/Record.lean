/-
Decoding JSON values.

A decoder either accepts a value or says why not; the cause is a naming error
or nothing more than the wrong shape.  A record is read field by field: its
members by name or, when the value is an array, the fields by position.  Of
several fields at fault the one whose key comes first counts, and a field at
fault counts before a field that is missing.

Arguments are the members of an object, each read on its own.  A member that is
absent counts as null, so an optional argument may be left out, and a list that
is left out is empty.

A record is put together as a value is built of its fields, and can then be read from
members, from items, or under a tag that names its kind, inside of the object or beside
it.  So one description serves all ways in which records occur.

Positions in the text are no part of a cause, and neither are the names of types.  Where
several things are wrong, which of them counts is modelled, because the cause is shown.
-/
import ScanGraph.NamingError
import ScanGraph.Json.Basic

namespace ScanGraph

/-- Why a JSON value is not a value of the wanted kind. -/
inductive DecodeError where
  | shape
  | naming (e : NamingError)
deriving DecidableEq, Repr

/-- A reader of JSON values. -/
abbrev Decoder (α : Type) := Json → Except DecodeError α

namespace Decoder

def text : Decoder String
  | .str s => .ok s
  | _ => .error .shape

/-- A truth value. -/
def flag : Decoder Bool
  | .bool b => .ok b
  | _ => .error .shape

/-- A whole number from 0 to `bound`. -/
def natUpTo (bound : Nat) : Decoder Nat
  | .int n => if 0 ≤ n ∧ n ≤ bound then .ok n.toNat else .error .shape
  | _ => .error .shape

/-- Any value, in its free form. -/
def any : Decoder Json :=
  fun v => .ok v.sorted

def nullable {α : Type} (d : Decoder α) : Decoder (Option α)
  | .null => .ok none
  | v => (d v).map some

/-- Every item of a list, the first one at fault deciding. -/
def items {α : Type} (d : Decoder α) : List Json → Except DecodeError (List α)
  | [] => .ok []
  | v :: rest =>
      match d v with
      | .error e => .error e
      | .ok a =>
          match items d rest with
          | .error e => .error e
          | .ok more => .ok (a :: more)

/-- An array whose items are all accepted. -/
def list {α : Type} (d : Decoder α) : Decoder (List α)
  | .arr vs => items d vs
  | _ => .error .shape

/-- The members of an object, each value accepted. -/
def members {α : Type} (d : Decoder α) :
    List (String × Json) → Except DecodeError (List (String × α))
  | [] => .ok []
  | (k, v) :: rest =>
      match d v with
      | .error e => .error e
      | .ok a =>
          match members d rest with
          | .error e => .error e
          | .ok more => .ok ((k, a) :: more)

/-- An object as a table, every value accepted. -/
def table {α : Type} (d : Decoder α) : Decoder (Table String α)
  | .obj ms => (members d ms).map Table.ofList
  | _ => .error .shape

/-- A text that a reader of names accepts. -/
def named {α : Type} (read : String → Except NamingError α) : Decoder α
  | .str s =>
      match read s with
      | .ok a => .ok a
      | .error e => .error (.naming e)
  | _ => .error .shape

/-- A text that a reader accepts. -/
def parsed {α : Type} (read : String → Option α) : Decoder α
  | .str s =>
      match read s with
      | some a => .ok a
      | none => .error .shape
  | _ => .error .shape

/-- One of finitely many names: a text, or an object with that one key and null. -/
def choice {α : Type} (read : String → Option α) : Decoder α
  | .obj [(s, .null)] => parsed read (.str s)
  | v => parsed read v

/-- One of finitely many names, as a field that is kept until the form of its record is known: the
object with one key may also hold an empty object. -/
def keptChoice {α : Type} (read : String → Option α) : Decoder α
  | .obj [(s, .obj [])] => parsed read (.str s)
  | v => choice read v

/-- A value all of whose whole numbers fit 64 bits. -/
def words {α : Type} (d : Decoder α) : Decoder α :=
  fun v => if v.hasWords then d v else .error .shape

end Decoder

/-! ## Records -/

/-- What a record is read from. -/
inductive Fields where
  | byName (members : List (String × Json))
  | byPosition (items : List Json)

/-- What has been read of a record: its value unless a field is missing, and the field at fault. -/
structure Reading (α : Type) where
  value : Option α
  fault : Option (String × DecodeError)

/-- A reader of some fields, which also says what is left of fields by position. -/
structure Record (α : Type) where
  read : Fields → Reading α × Fields

namespace Record

/-- Of two faults the one with the lesser key, or the first. -/
def firstFault : Option (String × DecodeError) → Option (String × DecodeError) →
    Option (String × DecodeError)
  | none, f => f
  | f, none => f
  | some a, some b => if b.1 < a.1 then some b else some a

/-- A record without fields. -/
def pure {α : Type} (a : α) : Record α :=
  ⟨fun fs => (⟨some a, none⟩, fs)⟩

/-- The fields of both records, in order. -/
def both {α β : Type} (f : Record (α → β)) (x : Record α) : Record β :=
  ⟨fun fs =>
    let (r, fs) := f.read fs
    let (s, fs) := x.read fs
    (⟨r.value.bind (fun g => s.value.map g), firstFault r.fault s.fault⟩, fs)⟩

instance : Applicative Record where
  pure := pure
  seq f x := both f (x ())

/-- What a decoder makes of the value of a field. -/
def reading {α : Type} (key : String) (d : Decoder α) (v : Json) : Reading α :=
  match d v with
  | .ok a => ⟨some a, none⟩
  | .error e => ⟨none, some (key, e)⟩

/-- A field; `absent` and `short` are its values where the name is absent or the positions end. -/
def fieldWith {α : Type} (key : String) (d : Decoder α) (absent short : Option α) : Record α :=
  ⟨fun
    | .byName ms =>
        match ms.filter (fun m => m.1 == key) with
        | [] => (⟨absent, none⟩, .byName ms)
        | [(_, v)] => (reading key d v, .byName ms)
        | _ => (⟨none, some (key, .shape)⟩, .byName ms)
    | .byPosition (v :: rest) => (reading "" d v, .byPosition rest)
    | .byPosition [] => (⟨short, none⟩, .byPosition [])⟩

def field {α : Type} (key : String) (d : Decoder α) : Record α :=
  fieldWith key d none none

/-- A field with a value of its own where it is missing. -/
def fieldOr {α : Type} (key : String) (d : Decoder α) (default : α) : Record α :=
  fieldWith key d (some default) (some default)

/-- An optional value: null, or missing by name or by position, where there is none. -/
def optionalOr {α : Type} (key : String) (d : Decoder α) : Record (Option α) :=
  fieldOr key (Decoder.nullable d) none

/-- The verdict of a reading: the fault, or the value, unless something is missing. -/
def verdict {α : Type} (r : Reading α) : Except DecodeError α :=
  match r.fault, r.value with
  | some (_, e), _ => .error e
  | none, some a => .ok a
  | none, none => .error .shape

/-- A record read by name from the members of an object. -/
def ofMembers {α : Type} (r : Record α) (ms : List (String × Json)) : Except DecodeError α :=
  verdict (r.read (.byName ms)).1

/-- A record read by position from items, none of which may be left over. -/
def ofItems {α : Type} (r : Record α) (vs : List Json) : Except DecodeError α :=
  match r.read (.byPosition vs) with
  | (reading, .byPosition []) => verdict reading
  | (⟨_, some (_, e)⟩, _) => .error e
  | _ => .error .shape

/-- A record as an object or as an array. -/
def decode {α : Type} (r : Record α) : Decoder α
  | .obj ms => r.ofMembers ms
  | .arr vs => r.ofItems vs
  | _ => .error .shape

/-- A record that is only read by name, with the fields of another one among its own. -/
def decodeWith {α β : Type} (r : Record (β → α)) (inner : List (String × Json) →
    Except DecodeError β) : Decoder α
  | .obj ms =>
      match r.ofMembers ms with
      | .error e => .error e
      | .ok f => (inner ms).map f
  | _ => .error .shape

end Record

/-! ## Forms -/

/-- How a tag says which form a value has. -/
inductive Tagging where
  /-- By the name of the form. -/
  | byName
  /-- By the name of the form, or by its place among the forms. -/
  | byPlace
deriving DecidableEq, Repr

def Tagging.name? (t : Tagging) (names : List String) (tag : Json) : Option String :=
  match t, tag with
  | _, .str s => some s
  | .byPlace, .int n => if 0 ≤ n then names[n.toNat]? else none
  | _, _ => none

namespace Decoder

/-- A value of several forms: the tag says which one, and the other members are its fields. -/
def taggedBy {α : Type} (tag : String) (form : Json → Option (Record α)) : Decoder α
  | .obj ms =>
      match ms.filter (fun m => m.1 == tag) with
      | [(_, t)] =>
          match form t with
          | some r => r.ofMembers (ms.filter (fun m => m.1 != tag))
          | none => .error .shape
      | _ => .error .shape
  | .arr (t :: rest) =>
      match form t with
      | some r => r.ofItems rest
      | none => .error .shape
  | _ => .error .shape

/-- A value of several forms, of which the tag gives the name. -/
def tagged {α : Type} (tag : String) (form : String → Option (Record α)) : Decoder α :=
  taggedBy tag (fun t => (Tagging.byName.name? [] t).bind form)

/-- A value read by a decoder that is itself read from a tag. -/
def readBy {α : Type} (d : Except DecodeError (Decoder α)) (v : Json) : Except DecodeError α :=
  match d with
  | .ok d => d v
  | .error e => .error e

/-- A value of several forms: one member says which one, and another one holds the value.  Of an
array, the first item is the name of the form, and the second one the value. -/
def adjacent {α : Type} (tag content : String) (form : String → Option (Decoder α)) : Decoder α
  | .obj ms =>
      match ms.filter (fun m => m.1 == tag), ms.filter (fun m => m.1 == content) with
      | [(_, t)], [(_, v)] => readBy (choice form t) v
      | _, _ => .error .shape
  | .arr [t, v] => readBy (parsed form t) v
  | _ => .error .shape

/-- A value of several forms: the one key of an object says which one, and its value is read. -/
def keyed {α : Type} (form : String → Option (Decoder α)) : Decoder α
  | .obj [(s, v)] =>
      match form s with
      | some d => d v
      | none => .error .shape
  | _ => .error .shape

end Decoder

/-! ## Arguments -/

namespace Json

/-- The member with the given key; null if there is none. -/
def arg (v : Json) (key : String) : Json :=
  (v.member? key).getD .null

/-- An argument that must be there. -/
def need {α : Type} (v : Json) (key : String) (d : Decoder α) : Except DecodeError α :=
  d (v.arg key)

/-- An argument that may be null. -/
def maybe {α : Type} (v : Json) (key : String) (d : Decoder α) : Except DecodeError (Option α) :=
  Decoder.nullable d (v.arg key)

/-- An argument with a value of its own where it is null. -/
def orElse {α : Type} (v : Json) (key : String) (d : Decoder α) (default : α) :
    Except DecodeError α :=
  (v.maybe key d).map (fun a => a.getD default)

/-- A list of arguments; null is the empty list. -/
def many {α : Type} (v : Json) (key : String) (d : Decoder α) : Except DecodeError (List α) :=
  v.orElse key (.list d) []

def isSet (v : Json) (key : String) : Bool :=
  v.arg key == .bool true

/-- The members of an object; any other value has none. -/
def membersOf : Json → List (String × Json)
  | .obj ms => ms
  | _ => []

def texts (l : List String) : Json :=
  list .str l

end Json

end ScanGraph
