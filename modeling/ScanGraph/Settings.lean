/-
Settings: the policy of a pipeline and where its manifest is.

They come from a file that the environment names, from the environment itself,
from the first default file that exists, or are the defaults.  Some variables
of the environment then override single values.  A variable that is blank
counts as unset.

Where the settings came from is told with them (`SettingsSource`), and the path of a
manifest is taken from the directory of the file that names it.  A source that is there
and cannot be read is an error; sources after it are then not looked at.

Variables that override a value are read by rules of their own: a flag must be one, a
list may have blanks and empty parts, and rules that are named add to those which are
switched off already.
-/
import ScanGraph.Builtin
import ScanGraph.Manifest
import ScanGraph.Policy

namespace ScanGraph

/-! ## Values of variables -/

/-- A truth value as it is written in an environment. -/
def Text.flag? (s : String) : Option Bool :=
  let word := lowerAscii (trim s)
  if ["1", "true", "yes", "on"].contains word then some true
  else if ["0", "false", "no", "off"].contains word then some false
  else none

/-- The parts of a text between commas, without blanks around them; blank parts do not count. -/
def Text.commaList (s : String) : List String :=
  ((pieces ',' s).map trim).filter (fun p => !p.isEmpty)

/-! ## Settings -/

/-- The policy of a pipeline, and the path of its manifest. -/
structure Settings where
  policy : Policy
  manifest : Option String
deriving DecidableEq, Repr

inductive SettingsSource where
  | defaults
  | inline
  /-- A file that the environment names. -/
  | named (path : String)
  /-- A default file. -/
  | found (path : String)
deriving DecidableEq, Repr

abbrev Environment := Table String String

/-- The value of a variable that is set and not blank. -/
def Environment.value? (env : Environment) (name : String) : Option String :=
  (env.get? name).filter (fun v => !(Text.trim v).isEmpty)

namespace Settings

/-- The settings if there are none. -/
def default : Settings :=
  ⟨.default, none⟩

instance : Inhabited Settings :=
  ⟨default⟩

/-- The members of settings: those of the policy, and the manifest. -/
def members (s : Settings) : List (String × Json) :=
  s.policy.members ++ [("manifest", Json.orNull .str s.manifest)]

def toJson (s : Settings) : Json :=
  .obj s.members

/-- Settings. -/
def decoder (tagging : Tagging) : Decoder Settings :=
  .words (((fun manifest policy => Settings.mk policy manifest) <$>
    Record.optionalOr "manifest" .text).decodeWith
    (fun ms => (Policy.record tagging).ofMembers (ms.filter (fun m => m.1 != "manifest"))))

def ofTomlText? (text : String) : Option Settings :=
  (decoder .byName).ofTomlText? text

def ofJsonText? (text : String) : Option Settings :=
  (Json.parse? text).bind (fun v => (decoder .byPlace v).toOption)

/-! ## Reading -/

/-- The settings that a text holds; `origin` says where the text is from. -/
def parse (text origin : String) : Except LoadError Settings :=
  match (ofTomlText? text).or (ofJsonText? text) with
  | some s => .ok s
  | none => .error (.unparsable .policy origin)

/-- A value, or an error where there is none. -/
def orError {α : Type} (e : LoadError) : Option α → Except LoadError α
  | some a => .ok a
  | none => .error e

/-- The settings that a text holds, in the format that the extension of its file says. -/
def parseAs (path text : String) : Except LoadError Settings :=
  match Files.extension? path with
  | some "json" => orError (.badPolicyJson path) (ofJsonText? text)
  | some "toml" => orError (.badPolicyToml path) (ofTomlText? text)
  | _ => parse text path

/-- The settings with the path of their manifest beginning in the directory of their file. -/
def relativeTo (path : String) (s : Settings) : Settings :=
  { s with manifest := s.manifest.map (Files.join (Files.parent path)) }

/-- The settings of a file. -/
def load (files : Files) (path : String) : Except LoadError Settings :=
  match files.read? path with
  | none => .error (.unreadable .policy path)
  | some text => (parseAs path text).map (relativeTo path)

/-- The files that are looked for if the environment names none. -/
def defaultFiles : List String :=
  ["kat.toml", "kat.json", "config/kat.toml", "config/kat.json"]

/-- The settings before anything is overridden, and where they are from. -/
def base (files : Files) (env : Environment) : Except LoadError (Settings × SettingsSource) :=
  match env.value? "KAT_CONFIG_PATH" with
  | some path => (load files path).map (⟨·, .named path⟩)
  | none =>
      match env.value? "KAT_CONFIG_JSON" with
      | some text => (orError .badInline (ofJsonText? text)).map (⟨·, .inline⟩)
      | none =>
          match defaultFiles.find? (fun path => (files.lookUp path).isSome) with
          | some path => (load files path).map (⟨·, .found path⟩)
          | none => .ok (default, .defaults)

/-! ## Overriding -/

/-- The variable that says whether committed objects are scanned. -/
def autoScheduleVariable : String := "KAT_AUTO_SCHEDULE_BOEFJES"

/-- The settings with the flag of the environment. -/
def overrideFlag (env : Environment) (s : Settings) : Except LoadError Settings :=
  match env.value? autoScheduleVariable with
  | none => .ok s
  | some v =>
      match Text.flag? v with
      | some autoSchedule => .ok { s with policy := { s.policy with autoSchedule } }
      | none => .error (.badFlag autoScheduleVariable v)

/-- The settings with the organization of the environment. -/
def overrideOrganization (env : Environment) (s : Settings) : Settings :=
  match env.value? "KAT_ORGANIZATION" with
  | some organization => { s with policy := { s.policy with organization } }
  | none => s

/-- The settings with more rules disabled, as the environment says. -/
def overrideRules (env : Environment) (s : Settings) : Settings :=
  match env.value? "KAT_RULES_DISABLED" with
  | none => s
  | some v =>
      let derivation := s.policy.derivation
      let disabled := (Text.commaList v).foldl SortedSet.insert derivation.disabled
      { s with policy := { s.policy with derivation := { derivation with disabled } } }

/-- The settings of a deployment, and where they are from. -/
def loadFrom (files : Files) (env : Environment) : Except LoadError (Settings × SettingsSource) :=
  match base files env with
  | .error e => .error e
  | .ok (s, source) =>
      (overrideFlag env s).map (fun s => (overrideRules env (overrideOrganization env s), source))

/-! ## The registry -/

/-- The plugins at hand, and those of the manifest. -/
def registryOf (resolve : Dns.Resolver) (files : Files) (s : Settings) :
    Except LoadError Registry :=
  let atHand := Builtin.addAll resolve .empty
  match s.manifest with
  | none => Manifest.buildAs "plugin registry" atHand
  | some path =>
      match Manifest.load files path with
      | .error e => .error e
      | .ok m =>
          Manifest.buildAs "plugin registry" (m.register atHand (Builtin.entrypointsOf resolve))

end Settings

end ScanGraph
