/-
Declarations of plugins as JSON.

Every field with a default may be missing.  A path is read from its text and refused
with the reason that parsing gives.  The kind of a plugin is named by a member of its
declaration, and how that member may be written depends on the format (`Tagging`).  An
entry of a manifest is a declaration with one more member, the name of its body.
-/
import ScanGraph.Plugin.Definition
import ScanGraph.Entity.Codec
import ScanGraph.Evidence

namespace ScanGraph

open Json Record

def SortedSet.typesJson (s : SortedSet ObjectType) : Json :=
  list ObjectType.toJson s.toList

/-! ## Members -/

def ScannerDefinition.members (d : ScannerDefinition) : List (String × Json) :=
  [("id", .str d.id), ("version", orNull .str d.version), ("consumes", d.consumes.typesJson),
   ("produces", d.produces.texts), ("scan_level", d.level.toJson)]

def NormalizerDefinition.members (d : NormalizerDefinition) : List (String × Json) :=
  [("id", .str d.id), ("consumes", d.consumes.texts), ("produces", d.produces.typesJson)]

def RuleParameter.toJson (p : RuleParameter) : Json :=
  .obj [("name", .str p.name), ("object_type", p.type.toJson), ("relation_path", p.path.toJson),
    ("optional", .bool p.optional), ("min_scan_level", p.minLevel.toJson)]

def RuleDefinition.members (d : RuleDefinition) : List (String × Json) :=
  [("id", .str d.id), ("consumes", d.consumes.toJson),
   ("parameters", list RuleParameter.toJson d.parameters), ("produces", d.produces.typesJson),
   ("min_scan_level", d.minLevel.toJson), ("default_enabled", .bool d.defaultEnabled),
   ("cache_ttl_secs", orNull .nat d.cacheSeconds), ("config_path", orNull Path.toJson d.configPath)]

/-- The members of a declaration, without its kind. -/
def PluginDefinition.members : PluginDefinition → List (String × Json)
  | scanner d => d.members
  | normalizer d => d.members
  | rule d => d.members

/-- A declaration as JSON, its kind first. -/
def PluginDefinition.toJson (d : PluginDefinition) : Json :=
  .obj (("kind", .str d.kind.name) :: d.members)

/-! ## Records -/

def ScannerDefinition.record : Record ScannerDefinition :=
  ScannerDefinition.mk <$> field "id" .text <*> optionalOr "version" .text
    <*> field "consumes" (.set ObjectType.decoder) <*> fieldOr "produces" (.set .text) .empty
    <*> fieldOr "scan_level" Level.decoder .l0

/-- The fields of a normalizer's declaration. -/
def NormalizerDefinition.record : Record NormalizerDefinition :=
  NormalizerDefinition.mk <$> field "id" .text <*> field "consumes" (.set .text)
    <*> field "produces" (.set ObjectType.decoder)

def RuleParameter.decoder : Decoder RuleParameter :=
  (RuleParameter.mk <$> field "name" .text <*> field "object_type" ObjectType.decoder
    <*> field "relation_path" Path.decoder <*> fieldOr "optional" .flag false
    <*> fieldOr "min_scan_level" Level.decoder .l0).decode

/-- The fields of a rule's declaration. -/
def RuleDefinition.record : Record RuleDefinition :=
  RuleDefinition.mk <$> field "id" .text <*> field "consumes" ObjectType.decoder
    <*> fieldOr "parameters" (.list RuleParameter.decoder) []
    <*> field "produces" (.set ObjectType.decoder)
    <*> fieldOr "min_scan_level" Level.decoder .l0 <*> fieldOr "default_enabled" .flag true
    <*> optionalOr "cache_ttl_secs" .nat64 <*> optionalOr "config_path" Path.decoder

/-- The fields of a declaration of the kind with the given name. -/
def PluginDefinition.record? (kind : String) : Option (Record PluginDefinition) :=
  if kind = PluginKind.scanner.name then some (scanner <$> ScannerDefinition.record)
  else if kind = PluginKind.normalizer.name then some (normalizer <$> NormalizerDefinition.record)
  else if kind = PluginKind.rule.name then some (rule <$> RuleDefinition.record)
  else none

def ScannerDefinition.decoder : Decoder ScannerDefinition :=
  ScannerDefinition.record.decode

def PluginKind.names : List String :=
  [PluginKind.scanner.name, PluginKind.normalizer.name, PluginKind.rule.name]

/-- A declaration, by its kind. -/
def PluginDefinition.decoder (tagging : Tagging) : Decoder PluginDefinition :=
  .taggedBy "kind" (fun t => (tagging.name? PluginKind.names t).bind PluginDefinition.record?)

/-! ## Entries -/

/-- A declaration and the name of the body that belongs to it. -/
structure PluginEntry where
  definition : PluginDefinition
  entrypoint : Option String
deriving DecidableEq, Repr

namespace PluginEntry

def toJson (e : PluginEntry) : Json :=
  .obj (("kind", .str e.definition.kind.name) :: e.definition.members
    ++ [("entrypoint", orNull .str e.entrypoint)])

/-- The members of an entry that belong to the declaration. -/
def declared (ms : List (String × Json)) : Json :=
  .obj (ms.filter (fun m => m.1 != "entrypoint"))

/-- An entry: a declaration with one more member. -/
def decoder (tagging : Tagging) : Decoder PluginEntry :=
  .words (((fun name definition => mk definition name) <$> optionalOr "entrypoint" .text).decodeWith
    (fun ms => PluginDefinition.decoder tagging (declared ms)))

end PluginEntry

end ScanGraph
