/-
The context of a rule: the objects its parameters stand for, and its settings.

Every parameter is looked up along its path from the root.  What is found is
clamped to the lowest bound on the path before the parameter's own minimum
applies, so an object never counts for more than the path lets through.

Objects of a slot are listed by their references.  Whether a parameter may be empty is
said by the parameter; the first mandatory one without objects makes the rule skip the
root, and later parameters are then not looked up.

Settings come from the configuration objects of the rule on whatever stands at the end
of the path that it names, later ones taking precedence over earlier ones key by key.  A
rule without such a path has no settings, and objects that hold settings of other rules
are passed over.
-/
import ScanGraph.Plugin.Body
import ScanGraph.Store

namespace ScanGraph

/-- The context of an evaluation, or the mandatory parameter that nothing was found for. -/
inductive Resolution where
  | ready (context : RuleContext)
  | missing (parameter : String)
deriving DecidableEq, Repr

namespace RuleParameter

/-- Of the objects found along the path, those that count, clamped to its bound. -/
def eligible (p : RuleParameter) (found : List Snapshot) : List Snapshot :=
  (found.map (fun o => o.clampTo p.path.firewallBound)).filter
    (fun o => decide (p.minLevel ≤ o.level))

/-- The objects that a parameter stands for. -/
def lookUp (p : RuleParameter) (s : Store) (root : Reference) (t : Instant) :
    Except PipelineError (List Snapshot) :=
  match s.follow root p.path p.type t with
  | .ok found => .ok (p.eligible found)
  | .error e => .error (.unresolved p.name e)

end RuleParameter

/-- The context of some parameters, up to the first one that is missing or fails. -/
def resolveContext (s : Store) (root : Reference) (t : Instant) :
    List RuleParameter → Except PipelineError Resolution
  | [] => .ok (.ready [])
  | p :: rest =>
      match p.lookUp s root t with
      | .error e => .error e
      | .ok objects =>
          if objects.isEmpty && !p.optional then .ok (.missing p.name)
          else match resolveContext s root t rest with
            | .ok (.ready slots) => .ok (.ready (⟨p.name, p.type, objects⟩ :: slots))
            | other => other

/-! ## Settings -/

/-- The settings that a configuration object holds. -/
def Entity.settings? : Entity → Option (Table String String)
  | .config _ _ settings => some settings
  | _ => none

/-- Settings with those of another table in place of their own. -/
def RuleSettings.override (a b : RuleSettings) : RuleSettings :=
  b.entries.foldl (fun t e => t.insert e.1 e.2) a

/-- The settings of a rule that hang on one object. -/
def Store.settingsOn (s : Store) (rule : String) (holder : Reference) (t : Instant) :
    RuleSettings :=
  ((s.visible? (Entity.configReference holder rule) t).bind Entity.settings?).getD .empty

/-- The settings of a rule: those of every holder, later ones taking precedence. -/
def loadSettings (s : Store) (d : RuleDefinition) (root : Reference) (t : Instant) :
    Except PipelineError RuleSettings :=
  match d.configPath with
  | none => .ok .empty
  | some path =>
      match s.follow root path path.endType t with
      | .error e => .error (.unresolved "config" e)
      | .ok holders => .ok (holders.foldl (fun settings o =>
          RuleSettings.override settings (s.settingsOn d.id o.reference t)) .empty)

end ScanGraph
