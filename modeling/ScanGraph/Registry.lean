/-
The registry of plugins, and what is wrong with a set of them.

`PluginDefinition.faults` checks one declaration against the schema, and
`definitionFaults` a list of them, in which no id may occur twice.

A registry is built from a draft, to which plugins are added one by one, with
their bodies or by the names of these.  `Draft.build` accepts a draft in which
nothing is wrong; the registry then answers which plugins concern an object,
evidence or an id.

All faults of a draft are reported, those of calls that refer to bodies by unknown names
among them.  Plugins are kept by kind and by id; listing them goes by kind and then by
id, whatever the order of the calls was.

A scanner concerns an object if it consumes its type or a type above it, and may scan it
if the object's level is at least the one that it asks for.
-/
import ScanGraph.Plugin.Body
import ScanGraph.Plugin.Definition
import ScanGraph.Text.Quoted

namespace ScanGraph

/-- What is wrong with a plugin. -/
inductive RegistryFault where
  | needsEntrypoint (id : String)
  | unknownEntrypoint (id entrypoint : String)
  /-- The body under the name is of another kind than the declaration. -/
  | otherKind (id entrypoint : String) (found declared : PluginKind)
  | repeatedId (id : String)
  | consumesNothing (kind : PluginKind) (id : String)
  | abstractOutput (id : String) (type : ObjectType)
  | producesNothing (id : String)
  | repeatedParameter (id parameter : String)
  /-- The path of a parameter does not start at the type of the roots. -/
  | parameterStart (id parameter : String) (start root : ObjectType)
  /-- The path of a parameter does not end at its type. -/
  | parameterEnd (id parameter : String) (finish type : ObjectType)
  /-- The path to the settings does not start at the type of the roots. -/
  | configStart (id : String) (start root : ObjectType)
deriving DecidableEq, Repr

def RegistryFault.message : RegistryFault → String
  | needsEntrypoint id => "plugin " ++ id ++ " needs an entrypoint"
  | unknownEntrypoint id name => "plugin " ++ id ++ ": unknown entrypoint " ++ Text.quoted name
  | otherKind id name found declared =>
      "plugin " ++ id ++ ": entrypoint " ++ Text.quoted name ++ " is a " ++ found.name
        ++ ", not a " ++ declared.name
  | repeatedId id => "duplicate plugin id " ++ id
  | consumesNothing kind id => kind.name ++ " " ++ id ++ " consumes nothing"
  | abstractOutput id type => "normalizer " ++ id ++ " produces abstract type " ++ type.name
  | producesNothing id => "rule " ++ id ++ " produces nothing"
  | repeatedParameter id p => "rule " ++ id ++ " declares parameter " ++ p ++ " twice"
  | parameterStart id p start root =>
      "rule " ++ id ++ " parameter " ++ p ++ ": path starts at " ++ start.name ++ ", root is "
        ++ root.name
  | parameterEnd id p finish type =>
      "rule " ++ id ++ " parameter " ++ p ++ ": path ends at " ++ finish.name
        ++ ", parameter is " ++ type.name
  | configStart id start root =>
      "rule " ++ id ++ " config path starts at " ++ start.name ++ ", root is " ++ root.name

/-- A fault where a condition does not hold. -/
def faultUnless (ok : Bool) (fault : RegistryFault) : List RegistryFault :=
  if ok then [] else [fault]

def ScannerDefinition.faults (d : ScannerDefinition) : List RegistryFault :=
  faultUnless (!d.consumes.isEmpty) (.consumesNothing .scanner d.id)

/-- What is wrong with a normalizer's declaration. -/
def NormalizerDefinition.faults (d : NormalizerDefinition) : List RegistryFault :=
  faultUnless (!d.consumes.isEmpty) (.consumesNothing .normalizer d.id)
    ++ (d.produces.toList.filter ObjectType.isAbstract).map (.abstractOutput d.id)

namespace RuleDefinition

/-- What is wrong with a parameter, apart from its name. -/
def pathFaults (d : RuleDefinition) (p : RuleParameter) : List RegistryFault :=
  faultUnless (d.consumes.isA p.path.root) (.parameterStart d.id p.name p.path.root d.consumes)
    ++ faultUnless (p.type.overlaps p.path.endType)
      (.parameterEnd d.id p.name p.path.endType p.type)

/-- What is wrong with parameters that come after those with the given names. -/
def parameterFaults (d : RuleDefinition) : List String → List RuleParameter → List RegistryFault
  | _, [] => []
  | seen, p :: rest =>
      faultUnless (!seen.contains p.name) (.repeatedParameter d.id p.name) ++ d.pathFaults p
        ++ d.parameterFaults (p.name :: seen) rest

/-- What is wrong with the path to the settings. -/
def configFaults (d : RuleDefinition) : List RegistryFault :=
  match d.configPath with
  | some path => faultUnless (d.consumes.isA path.root) (.configStart d.id path.root d.consumes)
  | none => []

/-- What is wrong with a rule's declaration. -/
def faults (d : RuleDefinition) : List RegistryFault :=
  faultUnless (!d.produces.isEmpty) (.producesNothing d.id) ++ d.parameterFaults [] d.parameters
    ++ d.configFaults

end RuleDefinition

/-- What is wrong with a declaration. -/
def PluginDefinition.faults : PluginDefinition → List RegistryFault
  | scanner d => d.faults
  | normalizer d => d.faults
  | rule d => d.faults

/-- What is wrong with declarations that come after those with the given ids. -/
def definitionFaults : List String → List PluginDefinition → List RegistryFault
  | _, [] => []
  | seen, d :: rest =>
      faultUnless (!seen.contains d.id) (.repeatedId d.id) ++ d.faults
        ++ definitionFaults (d.id :: seen) rest

end ScanGraph

namespace ScanGraph

/-- A scanner; without a body it runs elsewhere. -/
structure RegisteredScanner where
  definition : ScannerDefinition
  body : Option ScannerBody

structure RegisteredNormalizer where
  definition : NormalizerDefinition
  body : NormalizerBody

structure RegisteredRule where
  definition : RuleDefinition
  body : RuleBody

def RegisteredRule.id (r : RegisteredRule) : String :=
  r.definition.id

/-- The plugins by their ids. -/
structure Registry where
  scanners : Table String RegisteredScanner
  normalizers : Table String RegisteredNormalizer
  rules : Table String RegisteredRule

namespace Registry

/-- The registry without plugins. -/
def empty : Registry :=
  ⟨.empty, .empty, .empty⟩

instance : Inhabited Registry :=
  ⟨empty⟩

/-- Every declaration: scanners, normalizers and rules, each in order of their ids. -/
def all (r : Registry) : List PluginDefinition :=
  r.scanners.values.map (fun x => .scanner x.definition)
    ++ r.normalizers.values.map (fun x => .normalizer x.definition)
    ++ r.rules.values.map (fun x => .rule x.definition)

/-- The declaration under an id. -/
def resolve (r : Registry) (id : String) : Except PipelineError PluginDefinition :=
  match r.scanners.get? id, r.normalizers.get? id, r.rules.get? id with
  | some x, _, _ => .ok (.scanner x.definition)
  | none, some x, _ => .ok (.normalizer x.definition)
  | none, none, some x => .ok (.rule x.definition)
  | none, none, none => .error (.notFound ("plugin " ++ id))

/-- The rules whose roots an object of type `t` is one of. -/
def rulesForRoot (r : Registry) (t : ObjectType) : List RegisteredRule :=
  r.rules.values.filter (fun x => t.isA x.definition.consumes)

/-- The rules with the parameters that an object of type `t` may fill. -/
def rulesWithParameter (r : Registry) (t : ObjectType) : List (RegisteredRule × RuleParameter) :=
  r.rules.values.flatMap (fun x =>
    (x.definition.parameters.filter (fun p => t.isA p.type)).map (fun p => (x, p)))

/-- A normalizer reads evidence of a scanner with the given tags: evidence that only records a
failure if it consumes that tag, other evidence by its tags or by the scanner's id. -/
def reads (d : NormalizerDefinition) (tags : SortedSet String) (scanner : String) : Bool :=
  if tags.contains Evidence.errorTag then d.consumes.contains Evidence.errorTag
  else d.consumes.any (fun c => tags.contains c || c == scanner)

/-- The normalizers that read evidence of a scanner with the given tags. -/
def normalizersFor (r : Registry) (tags : SortedSet String) (scanner : String) :
    List RegisteredNormalizer :=
  r.normalizers.values.filter (fun x => reads x.definition tags scanner)

/-- A scanner may scan an object of type `t` with the given clearance. -/
def admits (d : ScannerDefinition) (t : ObjectType) (clearance : Level) : Bool :=
  d.consumes.covers t && decide (d.level ≤ clearance)

/-- The scanners that may scan an object of type `t` with the given clearance. -/
def scannersFor (r : Registry) (t : ObjectType) (clearance : Level) : List RegisteredScanner :=
  r.scanners.values.filter (fun x => admits x.definition t clearance)

/-! ## Drafts -/

/-- The plugins added so far, and what went wrong with others. -/
structure Draft where
  scanners : List RegisteredScanner
  normalizers : List RegisteredNormalizer
  rules : List RegisteredRule
  refused : List RegistryFault

namespace Draft

/-- The draft without plugins. -/
def empty : Draft :=
  ⟨[], [], [], []⟩

/-- The draft with a scanner, which runs elsewhere if it has no body. -/
def addScanner (d : Draft) (definition : ScannerDefinition) (body : Option ScannerBody) : Draft :=
  { d with scanners := d.scanners ++ [⟨definition, body⟩] }

def addNormalizer (d : Draft) (definition : NormalizerDefinition) (body : NormalizerBody) : Draft :=
  { d with normalizers := d.normalizers ++ [⟨definition, body⟩] }

def addRule (d : Draft) (definition : RuleDefinition) (body : RuleBody) : Draft :=
  { d with rules := d.rules ++ [⟨definition, body⟩] }

/-- The draft in which a plugin was refused. -/
def refuse (d : Draft) (fault : RegistryFault) : Draft :=
  { d with refused := d.refused ++ [fault] }

/-- The draft with a plugin and the body found under a name. -/
def bind (d : Draft) (definition : PluginDefinition) (name : String) (body : PluginBody) : Draft :=
  match definition, body with
  | .scanner x, .scanner b => d.addScanner x (some b)
  | .normalizer x, .normalizer b => d.addNormalizer x b
  | .rule x, .rule b => d.addRule x b
  | x, b => d.refuse (.otherKind x.id name b.kind x.kind)

/-- The draft with a plugin whose body a table has under a name; a scanner may do without. -/
def add (d : Draft) (definition : PluginDefinition) (entrypoint : Option String)
    (table : Entrypoints) : Draft :=
  match entrypoint with
  | none =>
      match definition with
      | .scanner x => d.addScanner x none
      | x => d.refuse (.needsEntrypoint x.id)
  | some name =>
      match table.get? name with
      | some body => d.bind definition name body
      | none => d.refuse (.unknownEntrypoint definition.id name)

/-- The declarations of a draft. -/
def definitions (d : Draft) : List PluginDefinition :=
  d.scanners.map (fun x => .scanner x.definition)
    ++ d.normalizers.map (fun x => .normalizer x.definition)
    ++ d.rules.map (fun x => .rule x.definition)

/-- All that is wrong with a draft. -/
def faults (d : Draft) : List RegistryFault :=
  d.refused ++ definitionFaults [] d.definitions

/-- The plugins of a draft by their ids. -/
def registry (d : Draft) : Registry :=
  ⟨.ofList (d.scanners.map (fun x => (x.definition.id, x))),
   .ofList (d.normalizers.map (fun x => (x.definition.id, x))),
   .ofList (d.rules.map (fun x => (x.definition.id, x)))⟩

/-- The registry of a draft in which nothing is wrong. -/
def build (d : Draft) : Except PipelineError Registry :=
  match d.faults with
  | [] => .ok d.registry
  | faults => .error (.schemaViolation (Text.join "; " (faults.map RegistryFault.message)))

end Draft

end Registry

end ScanGraph
