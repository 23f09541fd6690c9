/-
Why a step of the pipeline fails.

A scan fails in one of two ways: its target misbehaves, which is evidence like
any other, or the machinery that runs it breaks.  The causes are constructors;
`message` is the one place that words them.

Causes that come from elsewhere are carried whole and worded by their own functions, so
that each text stands in one place.  The texts are part of the model: they are archived,
published and counted as evidence.
-/
import ScanGraph.Level
import ScanGraph.Store.Observation
import ScanGraph.Json.Record

namespace ScanGraph

/-- The wording of a fault in a JSON value. -/
def DecodeError.message : DecodeError → String
  | shape => "the value has another form"
  | naming e => e.message

/-- How a scan goes wrong. -/
inductive ScanError where
  /-- The target misbehaved; the pipeline goes on. -/
  | expected (message : String)
  /-- The machinery broke; the job fails. -/
  | infrastructure (message : String)
deriving DecidableEq, Repr

def ScanError.message : ScanError → String
  | expected m => "scan failed: " ++ m
  | infrastructure m => "runner infrastructure failed: " ++ m

/-- Why a step of the pipeline fails. -/
inductive PipelineError where
  /-- The machinery that runs a plugin broke. -/
  | transientRunner (message : String)
  /-- Evidence that a normalizer cannot read. -/
  | malformedInput (message : String)
  | ruleExecution (rule message : String)
  /-- The context of a rule could not be looked up. -/
  | contextResolution (message : String)
  /-- Plugins are declared against the schema, or are used against their declaration. -/
  | schemaViolation (message : String)
  | insufficientClearance (required actual : Level)
  | store (cause : StoreError)
  | serialization (cause : DecodeError)
  | model (cause : NamingError)
  | notFound (what : String)
  | internal (message : String)
deriving DecidableEq, Repr

namespace PipelineError

/-- A context that could not be looked up, given what was looked for. -/
def unresolved (subject : String) (cause : StoreError) : PipelineError :=
  contextResolution (subject ++ ": " ++ cause.message)

/-- The wording of a value that is not of the wanted form, given that of the cause. -/
def serializationText (cause : String) : String :=
  "Serialization error: " ++ cause

/-- The wording of a failure. -/
def message : PipelineError → String
  | transientRunner m => "Runner failure: " ++ m
  | malformedInput m => "Malformed input: " ++ m
  | ruleExecution rule m => "Rule " ++ rule ++ " failed: " ++ m
  | contextResolution m => "Context resolution failed: " ++ m
  | schemaViolation m => "Schema violation: " ++ m
  | insufficientClearance required actual =>
      "Insufficient clearance: requires " ++ required.name ++ ", object has " ++ actual.name
  | store cause => "Store error: " ++ cause.message
  | serialization cause => serializationText cause.message
  | model cause => "Model error: " ++ cause.message
  | notFound what => "Not found: " ++ what
  | internal m => "Internal error: " ++ m

end PipelineError

end ScanGraph
