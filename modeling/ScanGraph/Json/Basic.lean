/-
JSON values.

A whole number is kept as an integer, if only it fits 64 bits; formats that know
greater ones may keep these as well.  Every other number is kept as its text.
The members of an object stand in the order in which they were read; `sorted`
gives the free form of a value, in which every object is in key order and a
repeated key keeps its last value.

There are two kinds of numbers, so that equality of values is decidable and means the
same text.  Objects may have repeated keys; reading a record from one refuses these, and
the free form keeps the last of them.

Trees are walked by pairs of functions, one for values and one for lists of them, so
that each is structural and can be opened by a proof.
-/
import ScanGraph.Table

namespace ScanGraph

inductive Json where
  | null
  | bool (b : Bool)
  | int (n : Int)
  | real (text : String)
  | str (s : String)
  | arr (items : List Json)
  | obj (members : List (String × Json))
deriving Inhabited, Repr, BEq

namespace Json

/-- The members as a table in key order; of a repeated key the last value stays. -/
def tableOf (members : List (String × Json)) : List (String × Json) :=
  (Table.ofList members).entries

mutual

/-- The value with every object in key order and no key repeated. -/
def sorted : Json → Json
  | .arr items => .arr (sortedItems items)
  | .obj members => .obj (tableOf (sortedMembers members))
  | v => v

def sortedItems : List Json → List Json
  | [] => []
  | v :: rest => sorted v :: sortedItems rest

def sortedMembers : List (String × Json) → List (String × Json)
  | [] => []
  | (k, v) :: rest => (k, sorted v) :: sortedMembers rest

end

/-- The least whole number of 64 bits with a sign. -/
def leastWord : Int := -0x8000000000000000

/-- The greatest whole number of 64 bits without a sign. -/
def greatestWord : Int := 0xFFFFFFFFFFFFFFFF

/-- A whole number fits 64 bits, with a sign or without. -/
def isWord (n : Int) : Bool :=
  decide (leastWord ≤ n) && decide (n ≤ greatestWord)

mutual

/-- All whole numbers in the value fit 64 bits. -/
def hasWords : Json → Bool
  | .int n => isWord n
  | .arr items => itemsHaveWords items
  | .obj members => membersHaveWords members
  | _ => true

def itemsHaveWords : List Json → Bool
  | [] => true
  | v :: rest => hasWords v && itemsHaveWords rest

/-- `hasWords` of every member's value. -/
def membersHaveWords : List (String × Json) → Bool
  | [] => true
  | (_, v) :: rest => hasWords v && membersHaveWords rest

end

/-- The member of an object with the given key. -/
def member? (key : String) : Json → Option Json
  | .obj members => members.lookup key
  | _ => none

/-- A natural number as a JSON value. -/
def nat (n : Nat) : Json :=
  .int n

/-- An optional value: null when there is none. -/
def orNull {α : Type} (f : α → Json) : Option α → Json
  | some a => f a
  | none => .null

def list {α : Type} (f : α → Json) (l : List α) : Json :=
  .arr (l.map f)

end Json

end ScanGraph
