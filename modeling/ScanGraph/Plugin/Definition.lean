/-
What a plugin declares.

A scanner turns objects into evidence, a normalizer evidence into objects, and
a rule objects into further objects.  Each declares what it consumes and
produces; a rule also declares the context it needs, one relation path per
parameter, and may name the path to the object that holds its settings.

Declarations are data, and nothing keeps a body from returning what its plugin does not
declare: that is checked when it happens, by the runner or by the engine.  Whether a
declaration makes sense by itself is checked when a registry is built.

A declared type covers its subtypes.  Evidence is read by normalizers that consume one
of its tags, and every scan has the tag of its scanner (`scannerTag`).
-/
import ScanGraph.Path
import ScanGraph.SortedSet

namespace ScanGraph

structure ScannerDefinition where
  id : String
  version : Option String
  consumes : SortedSet ObjectType
  produces : SortedSet String
  /-- The clearance that an object needs to be scanned. -/
  level : Level
deriving DecidableEq, Repr

/-- The declaration of a normalizer, which consumes content tags or the ids of scanners. -/
structure NormalizerDefinition where
  id : String
  consumes : SortedSet String
  produces : SortedSet ObjectType
deriving DecidableEq, Repr

/-- One input of a rule besides its root: the objects at the end of a path. -/
structure RuleParameter where
  name : String
  type : ObjectType
  path : Path
  optional : Bool
  minLevel : Level
deriving DecidableEq, Repr

structure RuleDefinition where
  id : String
  /-- The type of the roots; its subtypes count too. -/
  consumes : ObjectType
  parameters : List RuleParameter
  produces : SortedSet ObjectType
  /-- The clearance that a root needs. -/
  minLevel : Level
  defaultEnabled : Bool
  /-- For how many seconds an output may be used again, if not as long as by default. -/
  cacheSeconds : Option Nat
  /-- The path from a root to the object that holds the settings of the rule. -/
  configPath : Option Path
deriving DecidableEq, Repr

inductive PluginKind where
  | scanner
  | normalizer
  | rule
deriving DecidableEq, Repr

def PluginKind.name : PluginKind → String
  | scanner => "boefje"
  | normalizer => "normalizer"
  | rule => "rule"

inductive PluginDefinition where
  | scanner (d : ScannerDefinition)
  | normalizer (d : NormalizerDefinition)
  | rule (d : RuleDefinition)
deriving DecidableEq, Repr

/-- The tag that all evidence of a scanner carries unless it only records a failure. -/
def scannerTag (id : String) : String :=
  "boefje/" ++ id

/-- Some type of a set is `t` or a supertype of it. -/
def SortedSet.covers (s : SortedSet ObjectType) (t : ObjectType) : Bool :=
  s.any t.isA

def SortedSet.names (s : SortedSet ObjectType) : SortedSet String :=
  .ofList (s.toList.map ObjectType.name)

namespace RuleDefinition

/-- A rule that is always enabled, without parameters and settings. -/
def plain (id : String) (consumes : ObjectType) (produces : List ObjectType) : RuleDefinition :=
  ⟨id, consumes, [], .ofList produces, .l0, true, none, none⟩

/-- An object of type `t` may be an output of the rule. -/
def declares (d : RuleDefinition) (t : ObjectType) : Bool :=
  d.produces.covers t

end RuleDefinition

namespace PluginDefinition

def kind : PluginDefinition → PluginKind
  | scanner _ => .scanner
  | normalizer _ => .normalizer
  | rule _ => .rule

def id : PluginDefinition → String
  | scanner d => d.id
  | normalizer d => d.id
  | rule d => d.id

/-- The names of what a plugin consumes. -/
def consumes : PluginDefinition → SortedSet String
  | scanner d => d.consumes.names
  | normalizer d => d.consumes
  | rule d => .ofList [d.consumes.name]

/-- The names of what a plugin produces. -/
def produces : PluginDefinition → SortedSet String
  | scanner d => d.produces.insert (scannerTag d.id)
  | normalizer d => d.produces.names
  | rule d => d.produces.names

end PluginDefinition

end ScanGraph
