/-
Scripted plugins: plugins whose behaviour is written down as data.

They stand in for real ones when a pipeline is tried out.  A script says what
the body answers, fails with or panics with; a scan may also never end.  Rules
can report what they were called with, so that a context can be looked at.

Only what a plugin shows to its caller can be scripted: what it returns, reports or
panics with.  None of the scripts keeps anything between two calls, so that scripted
bodies are functions like any others.
-/
import ScanGraph.Builtin
import ScanGraph.Entity.Codec
import ScanGraph.Json.Record

namespace ScanGraph

open Json

/-! ## Rules -/

inductive RuleScript where
  | idle
  | fail (message : String)
  | panic (message : String)
  | emit (objects : List Snapshot)
  /-- The host below the root that is named `x`. -/
  | subdomain
  /-- The number of objects found for a parameter. -/
  | count (parameter : String)
  /-- Everything the rule was called with. -/
  | report

namespace RuleScript

def slotReport (s : Slot) : String :=
  s.parameter ++ ":" ++ s.type.name ++ "=["
    ++ Text.join "," (s.objects.map (fun o => o.reference.text ++ "@" ++ o.level.name)) ++ "]"

def settingsReport (s : RuleSettings) : String :=
  Text.join "&" (s.entries.map (fun (k, v) => k ++ "=" ++ v))

/-- All that a rule was called with, as one line. -/
def callReport (root : Snapshot) (context : RuleContext) (settings : RuleSettings) : String :=
  root.reference.text ++ ";" ++ Text.join " " (context.map slotReport) ++ ";"
    ++ settingsReport settings

def hostBelow (root : Snapshot) : Outcome String (List Snapshot) :=
  match root.entity with
  | .hostname network name => .returned [.ofEntity (.hostname network ("x." ++ name))]
  | _ => .failed "not a hostname"

/-- The record of how many objects a parameter has. -/
def countRecord (root : Snapshot) (n : Nat) : Snapshot :=
  .ofEntity (.dnsTXT root.reference ("seen=" ++ Text.decimalText n) none)

/-- The body of the rule with the given name. -/
def body (name : String) : RuleScript → RuleBody
  | idle => fun _ _ _ => .returned []
  | fail message => fun _ _ _ => .failed message
  | panic message => fun _ _ _ => .panicked message
  | emit objects => fun _ _ _ => .returned objects
  | subdomain => fun root _ _ => hostBelow root
  | count parameter => fun root context _ =>
      .returned [countRecord root (context.objects parameter).length]
  | report => fun root context settings =>
      .returned [.ofEntity (.katFindingType name (some (callReport root context settings)) none)]

def decoder : Decoder RuleScript := fun v => do
  let objects ← v.many "objects" Snapshot.decoder
  let message ← v.orElse "message" .text "boom"
  let parameter ← v.orElse "parameter" .text ""
  match ← v.need "body" .text with
  | "noop" => pure idle
  | "fail" => pure (fail message)
  | "panic" => pure (panic message)
  | "emit" => pure (emit objects)
  | "subdomain" => pure subdomain
  | "count" => pure (count parameter)
  | "report" => pure report
  | _ => .error .shape

end RuleScript

/-! ## Normalizers -/

inductive NormalizerScript where
  | emit (objects : List Snapshot)
  /-- The input, and some objects twice. -/
  | echo (objects : List Snapshot)
  | fail (error : PipelineError)
  | panic (message : String)

namespace NormalizerScript

def body : NormalizerScript → NormalizerBody
  | emit objects => fun _ _ _ => .returned objects
  | echo objects => fun _ input _ => .returned (input :: objects ++ objects)
  | fail error => fun _ _ _ => .failed error
  | panic message => fun _ _ _ => .panicked message

def decoder : Decoder NormalizerScript := fun v => do
  let objects ← v.many "objects" Snapshot.decoder
  let message ← v.orElse "message" .text "boom"
  match ← v.need "body" .text with
  | "noop" => pure (emit [])
  | "emit" => pure (emit objects)
  | "echo" => pure (echo objects)
  | "malformed" => pure (fail (.malformedInput message))
  | "fail" => pure (fail (.transientRunner message))
  | "panic" => pure (panic message)
  | _ => .error .shape

end NormalizerScript

/-! ## Scans -/

inductive ScanReply where
  | fail (error : ScanError)
  | panic (message : String)
  /-- The scan never ends. -/
  | hang
  /-- The answer that gives a host these addresses. -/
  | addresses (l : List Address)
  | octets (bs : List UInt8)

/-- A reply, and the tags of what it brings back. -/
structure ScanScript where
  reply : ScanReply
  tags : List String

namespace ScanScript

/-- Evidence with the tags of the script. -/
def evidence (s : ScanScript) (bs : List UInt8) : Option (Outcome ScanError Evidence) :=
  some (.returned (s.tags.foldl Evidence.tagged (.ofOctets bs)))

def answer (s : ScanScript) (input : Snapshot) : Option (Outcome ScanError Evidence) :=
  match s.reply with
  | .fail error => some (.failed error)
  | .panic message => some (.panicked message)
  | .hang => none
  | .octets bs => s.evidence bs
  | .addresses l =>
      match input.entity with
      | .hostname _ name => s.evidence (Dns.Answer.ofAddresses name l).octets
      | _ => some (.failed (.infrastructure "not a hostname"))

/-- Octets: a text, or pairs of hexadecimal digits. -/
def octetsOf : Decoder (List UInt8) := fun v => do
  match ← v.maybe "raw_hex" .text with
  | some h =>
      match Text.ofHex? h.toList with
      | some bs => pure bs
      | none => .error .shape
  | none => pure (Text.octets (← v.orElse "raw" .text ""))

/-- A reply: the first of its forms that is there. -/
def replyDecoder : Decoder ScanReply := fun v => do
  match ← v.maybe "expected" .text, ← v.maybe "infrastructure" .text, ← v.maybe "panic" .text with
  | some m, _, _ => pure (.fail (.expected m))
  | none, some m, _ => pure (.fail (.infrastructure m))
  | none, none, some m => pure (.panic m)
  | none, none, none =>
      if v.isSet "hang" then pure .hang
      else match ← v.maybe "addresses" (.list (.parsed Address.parse?)),
          ← v.maybe "records" .text with
        | some l, _ => pure (.addresses l)
        | none, some records => pure (.octets (Dns.Answer.mk records).octets)
        | none, none => (octetsOf v).map .octets

def decoder : Decoder ScanScript := fun v => do
  let tags ← v.many "tags" .text
  pure ⟨← replyDecoder v, tags⟩

/-- A backend that answers by the object of the job, with a script for all other objects. -/
def backend (fallback : ScanScript) (byInput : List (String × ScanScript)) : ScannerBody :=
  fun job input => ((byInput.lookup job.inputReference.text).getD fallback).answer input

def backendDecoder : Decoder ScannerBody := fun v => do
  let fallback ← decoder (v.arg "default")
  let byInput ← Decoder.members decoder (v.arg "by_input").membersOf
  pure (backend fallback byInput)

end ScanScript

/-! ## Plugins -/

/-- The scripted plugin with the given name, by its kind. -/
def PluginBody.scripted (name : String) (v : Json) : Except DecodeError PluginBody := do
  match ← v.need "kind" .text with
  | "rule" => pure (.rule ((← RuleScript.decoder v).body name))
  | "normalizer" => pure (.normalizer (← NormalizerScript.decoder v).body)
  | "boefje" => do
      let script ← ScanScript.decoder v
      pure (.scanner (fun _ input => script.answer input))
  | _ => .error .shape

/-- The table of entrypoints with scripted plugins added, in the place of others of their names. -/
def Entrypoints.withScripts (table : Entrypoints) :
    List (String × Json) → Except DecodeError Entrypoints
  | [] => .ok table
  | (name, v) :: rest =>
      match PluginBody.scripted name v with
      | .error e => .error e
      | .ok body => Entrypoints.withScripts (table.insert name body) rest

end ScanGraph
