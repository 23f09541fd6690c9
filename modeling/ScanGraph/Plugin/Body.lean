/-
What a plugin does.

A body is a function, and its result says how the call ended: a body may return
a value, fail, or panic, and a scan may never end at all.  Whoever calls a body
decides what becomes of the last two.

Bodies are functions of what they are called with.  What a body does besides, such as
asking a network or keeping a count, is outside of the model; where a result depends on
bodies being functions of less than they are given, it says so.

A scan may have no outcome at all, which stands for one that never ends; rules and
normalizers always end, in one of three ways.
-/
import ScanGraph.Plugin.Definition
import ScanGraph.Evidence
import ScanGraph.Job
import ScanGraph.PipelineError

namespace ScanGraph

/-- How the call of a body ends. -/
inductive Outcome (ε α : Type) where
  | returned (value : α)
  | failed (error : ε)
  | panicked (message : String)
deriving Repr

/-- The objects found for one parameter of a rule. -/
structure Slot where
  parameter : String
  type : ObjectType
  objects : List Snapshot
deriving DecidableEq, Repr

/-- The objects found for the parameters of a rule, in the order of the declaration. -/
abbrev RuleContext := List Slot

abbrev RuleSettings := Table String String

/-- The objects found for a parameter. -/
def RuleContext.objects (c : RuleContext) (parameter : String) : List Snapshot :=
  match c.find? (fun s => s.parameter == parameter) with
  | some s => s.objects
  | none => []

/-- What a scanner does; there is no outcome where it never ends. -/
abbrev ScannerBody := ScanJob → Snapshot → Option (Outcome ScanError Evidence)

/-- What a normalizer does with the evidence of a scan of an object. -/
abbrev NormalizerBody :=
  NormalizeJob → Snapshot → List UInt8 → Outcome PipelineError (List Snapshot)

/-- What a rule derives from its root; a failure is a message. -/
abbrev RuleBody := Snapshot → RuleContext → RuleSettings → Outcome String (List Snapshot)

inductive PluginBody where
  | scanner (body : ScannerBody)
  | normalizer (body : NormalizerBody)
  | rule (body : RuleBody)

def PluginBody.kind : PluginBody → PluginKind
  | scanner _ => .scanner
  | normalizer _ => .normalizer
  | rule _ => .rule

/-- The bodies that plugins may name. -/
abbrev Entrypoints := Table String PluginBody

end ScanGraph
