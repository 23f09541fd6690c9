/-
Why a text names no type, reference, level, relation or path.

The causes are constructors; `NamingError.message` is the one place that words
them.

The wording is part of the model, as it is shown to whoever declares a plugin or names
an object.  A fault of a path says which part of it is at fault and quotes it.
-/
import ScanGraph.ObjectType
import ScanGraph.Text.Quoted
import ScanGraph.Text.Digits

namespace ScanGraph

/-- Why a text is no path. -/
inductive PathFault where
  /-- The first part names no type. -/
  | unknownRoot (part : String)
  /-- The type in an incoming step names no type. -/
  | unknownHolder (part : String)
  /-- The type has no field of that name. -/
  | noRelation (holder : ObjectType) (name : String)
  /-- The field of an incoming step does not point at the type reached so far. -/
  | otherTarget (holder : ObjectType) (name : String) (target current : ObjectType)
  /-- The part is no step of either form. -/
  | malformed (part : String)
deriving DecidableEq, Repr

/-- Why a text names nothing. -/
inductive NamingError where
  | unknownType (name : String)
  /-- The text lacks a key after its type. -/
  | noKey (text : String)
  /-- The type in front of the key is abstract. -/
  | abstractType (text : String) (type : ObjectType)
  | invalidLevel (n : Nat)
  | unknownRelation (holder : ObjectType) (name : String)
  | invalidPath (text : String) (fault : PathFault)
deriving DecidableEq, Repr

def PathFault.message : PathFault → String
  | unknownRoot part => "unknown root type " ++ Text.quoted part
  | unknownHolder part => "unknown type in " ++ Text.quoted part
  | noRelation holder name => holder.name ++ " has no relation " ++ name
  | otherTarget holder name target current =>
      holder.name ++ "." ++ name ++ " points at " ++ target.name ++ ", not " ++ current.name
  | malformed part => "malformed segment " ++ Text.quoted part

def NamingError.message : NamingError → String
  | unknownType name => "Unknown object type: " ++ name
  | noKey text => "Invalid reference: " ++ text
  | abstractType text type => "Invalid reference: " ++ text ++ ": abstract type " ++ type.name
  | invalidLevel n => "Invalid scan level: " ++ Text.decimalText n
  | unknownRelation holder name => "Unknown relation " ++ holder.name ++ "." ++ name
  | invalidPath text fault => "Invalid relation path " ++ text ++ ": " ++ fault.message

end ScanGraph
