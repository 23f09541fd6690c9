/-
Relation paths.

A path starts at a root type and walks reference fields, one step per part of
its text: `field` follows a field of the object reached so far, and
`<field[is Type]` goes to the objects of that type whose field points back at
it.  `parse` checks every step against the schema and threads the type reached
so far through them; `reversed` is the same walk in the other direction.

A path is not required to be parsed: steps can be put together in any way, and reversing
a path does so.  What parsing guarantees, that each step starts where the one before it
ends and follows the schema, is proved of parsed paths and asked for by those who need
it.

Bounds of a path are the lowest of those of its edges, in one direction or in the other.
A step that crosses an edge without a bound does not lower it.
-/
import ScanGraph.NamingError
import ScanGraph.Relation
import ScanGraph.Text.Blank

namespace ScanGraph

/-- How a step crosses a relation. -/
inductive Direction where
  | outgoing
  | incoming
deriving DecidableEq, Repr

/-- The other way across. -/
def Direction.flip : Direction → Direction
  | outgoing => incoming
  | incoming => outgoing

/-- One step of a path, from the type `near` to the type `far`. -/
structure Step where
  direction : Direction
  relation : Relation
  near : ObjectType
  far : ObjectType
deriving DecidableEq, Repr

namespace Step

/-- The bound on the clearance that flows along the step. -/
def issuanceBound (s : Step) : Option Level :=
  match s.direction with
  | .outgoing => s.relation.issueBound
  | .incoming => s.relation.inheritBound

/-- The step walked backwards. -/
def flip (s : Step) : Step :=
  ⟨s.direction.flip, s.relation, s.far, s.near⟩

def text (s : Step) : String :=
  match s.direction with
  | .outgoing => s.relation.name
  | .incoming => "<" ++ s.relation.name ++ "[is " ++ s.far.name ++ "]"

end Step

/-- A walk along relations from a root type. -/
structure Path where
  root : ObjectType
  steps : List Step
deriving DecidableEq, Repr

namespace Path

/-- The path without steps. -/
def identity (root : ObjectType) : Path :=
  ⟨root, []⟩

/-- The type reached by the last step. -/
def endType (p : Path) : ObjectType :=
  match p.steps.getLast? with
  | some s => s.far
  | none => p.root

/-- The lowest bound of any edge crossed, whatever the direction. -/
def firewallBound (p : Path) : Option Level :=
  Level.lowest? (p.steps.map (fun s => s.relation.firewallBound))

/-- The lowest bound on what flows along the walk. -/
def issuanceBound (p : Path) : Option Level :=
  Level.lowest? (p.steps.map Step.issuanceBound)

/-- The same walk from the end type back to the root. -/
def reversed (p : Path) : Path :=
  ⟨p.endType, p.steps.reverse.map Step.flip⟩

/-- The text of a path: its root and its steps, separated by dots. -/
def text (p : Path) : String :=
  p.root.name ++ String.join (p.steps.map (fun s => "." ++ s.text))

/-! ## Reading -/

/-- A character that may start the name of a field. -/
def isNameStart (c : Char) : Bool :=
  c.isAlpha || c == '_'

/-- A character that may stand in the name of a field. -/
def isNameChar (c : Char) : Bool :=
  c.isAlphanum || c == '_'

/-- The form of the name of a field: letters, digits and underscores, no digit first. -/
def isFieldName (cs : List Char) : Bool :=
  match cs with
  | [] => false
  | c :: rest => isNameStart c && rest.all isNameChar

/-- The field and the type of an incoming step. -/
def incomingParts? (cs : List Char) : Option (List Char × List Char) :=
  match cs with
  | '<' :: rest =>
      let name := rest.takeWhile isNameChar
      match rest.dropWhile isNameChar with
      | '[' :: 'i' :: 's' :: ' ' :: more =>
          let type := more.takeWhile Char.isAlphanum
          if isFieldName name && !type.isEmpty && more.dropWhile Char.isAlphanum == [']'] then
            some (name, type)
          else none
      | _ => none
  | _ => none

/-- The incoming step to `holder` by its field `name`. -/
def incomingStep (current holder : ObjectType) (name : String) : Except PathFault Step :=
  match Relation.find? holder name with
  | none => .error (.noRelation holder name)
  | some r =>
      if r.target.overlaps current then .ok ⟨.incoming, r, current, holder⟩
      else .error (.otherTarget holder name r.target current)

def outgoingStep (current : ObjectType) (name : String) : Except PathFault Step :=
  match Relation.find? current name with
  | none => .error (.noRelation current name)
  | some r => .ok ⟨.outgoing, r, current, r.target⟩

/-- The step that a part without outer blanks denotes, from the type reached so far. -/
def readStep (current : ObjectType) (cs : List Char) : Except PathFault Step :=
  match incomingParts? cs with
  | some (name, type) =>
      match ObjectType.ofName? (String.ofList type) with
      | none => .error (.unknownHolder (String.ofList cs))
      | some holder => incomingStep current holder (String.ofList name)
  | none =>
      if isFieldName cs then outgoingStep current (String.ofList cs)
      else .error (.malformed (String.ofList cs))

/-- The steps that the parts denote, each from the type the one before reaches. -/
def readSteps (current : ObjectType) : List (List Char) → Except PathFault (List Step)
  | [] => .ok []
  | part :: rest =>
      match readStep current (Text.trimWhere Text.isBlank part) with
      | .error e => .error e
      | .ok s =>
          match readSteps s.far rest with
          | .error e => .error e
          | .ok more => .ok (s :: more)

/-- The path that dot-separated parts denote. -/
def readParts : List (List Char) → Except PathFault Path
  | [] => .error (.unknownRoot "")
  | first :: rest =>
      let name := String.ofList (Text.trimWhere Text.isBlank first)
      match ObjectType.ofName? name with
      | none => .error (.unknownRoot name)
      | some root =>
          match readSteps root rest with
          | .error e => .error e
          | .ok steps => .ok ⟨root, steps⟩

/-- The path that a text denotes. -/
def parse (s : String) : Except NamingError Path :=
  match readParts (s.toList.splitOn '.') with
  | .ok p => .ok p
  | .error fault => .error (.invalidPath s fault)

end Path

end ScanGraph
