/-
The tables of a TOML document while it is read.

A table is opened by a header, or comes about on the way to another one, or by
a key with dots.  A header may open a table that only came about on the way; a
key with dots reaches into tables that no header opened.  Nothing is defined
twice.

Whoever opens a table is kept with it (`Origin`), since what may be added to a table
depends on how it came about; the JSON that comes of it no longer shows this.  Arrays of
tables grow by their headers, and a header inside of one is about its last table.
-/
import ScanGraph.Json.Basic

namespace ScanGraph.Toml

/-- How a table came about. -/
inductive Origin where
  /-- On the way to another table. -/
  | implied
  /-- By a key with dots. -/
  | dotted
  /-- By a header. -/
  | opened
deriving DecidableEq, Repr

/-- What a key stands for. -/
inductive Node where
  | value (v : Json)
  | table (origin : Origin) (members : List (String × Node))
  /-- Tables under one key, each begun by a header of its own. -/
  | tables (items : List (List (String × Node)))

abbrev Members := List (String × Node)

namespace Node

mutual

def toJson : Node → Json
  | value v => v
  | table _ ms => .obj (membersJson ms)
  | tables items => .arr (itemsJson items)

def membersJson : List (String × Node) → List (String × Json)
  | [] => []
  | (k, v) :: rest => (k, toJson v) :: membersJson rest

def itemsJson : List (List (String × Node)) → List Json
  | [] => []
  | ms :: rest => .obj (membersJson ms) :: itemsJson rest

end

end Node

namespace Members

/-- The members with another node under a key that they have. -/
def put (ms : Members) (key : String) (v : Node) : Members :=
  ms.map (fun m => if m.1 == key then (key, v) else m)

/-- The members with one more. -/
def add (ms : Members) (key : String) (v : Node) : Members :=
  ms ++ [(key, v)]

def changeLast (change : Members → Option Members) (items : List Members) :
    Option (List Members) :=
  match items.getLast? with
  | some last => (change last).map (fun ms => items.dropLast ++ [ms])
  | none => none

/-- A change in the table at the end of a path; tables that are missing come about. -/
def within : List String → (Members → Option Members) → Members → Option Members
  | [], change, ms => change ms
  | k :: rest, change, ms =>
      match ms.lookup k with
      | none => (within rest change []).map (fun inner => ms.add k (.table .implied inner))
      | some (.table origin inner) =>
          (within rest change inner).map (fun inner => ms.put k (.table origin inner))
      | some (.tables items) =>
          (changeLast (within rest change) items).map (fun items => ms.put k (.tables items))
      | some (.value _) => none

/-- A table opened by a header, by its last key. -/
def openTable (key : String) (ms : Members) : Option Members :=
  match ms.lookup key with
  | none => some (ms.add key (.table .opened []))
  | some (.table .implied inner) => some (ms.put key (.table .opened inner))
  | some _ => none

/-- One more table begun by a header, by its last key. -/
def beginTable (key : String) (ms : Members) : Option Members :=
  match ms.lookup key with
  | none => some (ms.add key (.tables [[]]))
  | some (.tables items) => some (ms.put key (.tables (items ++ [[]])))
  | some _ => none

/-- A node assigned to a key with dots. -/
def assign : List String → Node → Members → Option Members
  | [], _, _ => none
  | [k], v, ms => if (ms.lookup k).isSome then none else some (ms.add k v)
  | k :: rest, v, ms =>
      match ms.lookup k with
      | none => (assign rest v []).map (fun inner => ms.add k (.table .dotted inner))
      | some (.table origin inner) =>
          if origin = .opened ∨ (origin = .implied ∧ rest.length = 1) then none
          else (assign rest v inner).map (fun inner => ms.put k (.table origin inner))
      | some (.tables items) =>
          if rest.length = 1 then none
          else (changeLast (assign rest v) items).map (fun items => ms.put k (.tables items))
      | some (.value _) => none

end Members

end ScanGraph.Toml
