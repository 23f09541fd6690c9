/-
Manifests: the plugins that a deployment declares, and why they cannot be loaded.

A manifest is a list of declarations, each with the name of the body that
implements it.  It is read from TOML or JSON.  Every error of loading has a chain
of texts, the outermost first.  What the readers of files and formats find wrong
is not worded here: a mark stands for it.

A declaration without a body under its name is refused when the registry is built, and
so is every fault of the declarations, all of them at once.  Scanners may do without a
body, as they may run elsewhere.  What is loaded is either the whole manifest or
nothing.
-/
import ScanGraph.Files
import ScanGraph.Json.Reader
import ScanGraph.PipelineError
import ScanGraph.Plugin.Codec
import ScanGraph.Registry
import ScanGraph.Text.Quoted
import ScanGraph.Toml

namespace ScanGraph

/-- What a file is to be read as. -/
inductive Configuration where
  | policy
  | manifest
deriving DecidableEq, Repr

def Configuration.name : Configuration → String
  | policy => "pipeline config"
  | manifest => "plugin manifest"

/-- Why a configuration cannot be loaded. -/
inductive LoadError where
  /-- There is no such file. -/
  | unreadable (what : Configuration) (path : String)
  /-- A text is a configuration neither in TOML nor in JSON. -/
  | unparsable (what : Configuration) (origin : String)
  /-- A policy in JSON is none. -/
  | badInline
  | badPolicyJson (path : String)
  | badPolicyToml (path : String)
  | badManifestJson (path : String)
  /-- A flag of the environment is no truth value. -/
  | badFlag (name value : String)
  /-- The plugins that are declared cannot work together. -/
  | rejected (what : String) (why : PipelineError)
deriving DecidableEq, Repr

namespace LoadError

def fileMark : String := "<io>"

def jsonMark : String := "<json>"

def restMark : String := "..."

/-- What is said of a policy in JSON. -/
def invalidPolicy : String :=
  "invalid pipeline config json: " ++ restMark

/-- The texts of an error, the outermost first. -/
def chain : LoadError → List String
  | unreadable what path => ["failed to read " ++ what.name ++ " from " ++ path, fileMark]
  | unparsable what origin =>
      ["failed to parse " ++ what.name ++ " " ++ origin ++ ": toml error: " ++ restMark]
  | badInline => ["failed to parse KAT_CONFIG_JSON", invalidPolicy]
  | badPolicyJson path => ["invalid pipeline config " ++ path, invalidPolicy]
  | badPolicyToml path => ["invalid pipeline config " ++ path ++ ": " ++ restMark]
  | badManifestJson path => ["invalid plugin manifest " ++ path, jsonMark]
  | badFlag name value => [name ++ " must be a boolean, got " ++ Text.quoted value]
  | rejected what why => [what ++ " rejected", why.message]

end LoadError

end ScanGraph

namespace ScanGraph

def Decoder.ofTomlText? {α : Type} (d : Decoder α) (text : String) : Option α :=
  (Toml.parse? text).bind (fun v => (d v).toOption)

/-- The plugins that are declared. -/
structure Manifest where
  plugins : List PluginEntry
deriving DecidableEq, Repr

namespace Manifest

def toJson (m : Manifest) : Json :=
  .obj [("plugins", .list PluginEntry.toJson m.plugins)]

/-- A manifest. -/
def decoder (tagging : Tagging) : Decoder Manifest :=
  (Manifest.mk <$> Record.fieldOr "plugins" (.list (PluginEntry.decoder tagging)) []).decode

def ofTomlText? (text : String) : Option Manifest :=
  (decoder .byName).ofTomlText? text

/-- The manifest that a text in JSON holds; of members other than the plugins only the grammar
counts. -/
def ofJsonText? (text : String) : Option Manifest :=
  (Json.parseOnly? (· == "plugins") text).bind (fun v => (decoder .byPlace v).toOption)

/-- The manifest that a text holds; `origin` says where the text is from. -/
def parse (text origin : String) : Except LoadError Manifest :=
  match (ofTomlText? text).or (ofJsonText? text) with
  | some m => .ok m
  | none => .error (.unparsable .manifest origin)

/-- The manifest of a file, which is in JSON if its extension says so. -/
def load (files : Files) (path : String) : Except LoadError Manifest :=
  match files.read? path with
  | none => .error (.unreadable .manifest path)
  | some text =>
      if Files.extension? path = some "json" then
        match ofJsonText? text with
        | some m => .ok m
        | none => .error (.badManifestJson path)
      else parse text path

/-- A draft with the plugins of the manifest. -/
def register (m : Manifest) (d : Registry.Draft) (table : Entrypoints) : Registry.Draft :=
  m.plugins.foldl (fun d e => d.add e.definition e.entrypoint table) d

/-- The registry of a draft, or why it is rejected. -/
def buildAs (what : String) (d : Registry.Draft) : Except LoadError Registry :=
  match d.build with
  | .ok r => .ok r
  | .error e => .error (.rejected what e)

/-- The registry of exactly the plugins of the manifest. -/
def registry (m : Manifest) (table : Entrypoints) : Except LoadError Registry :=
  buildAs "plugin manifest" (m.register .empty table)

end Manifest

end ScanGraph
