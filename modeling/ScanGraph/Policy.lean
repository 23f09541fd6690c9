/-
The policy of a pipeline: how many workers it has, how scans are run, and when
rules are evaluated.

Every part has a default, so that a policy in JSON mentions only what differs.

How many workers there are by default depends on the number of processors, which is
given.  Scans have a time limit and a backend, which runs them in the process or starts
a program; derivations have a depth at which chains end and rules that are switched on
or off.
-/
import ScanGraph.Entity.Codec
import ScanGraph.Evidence

namespace ScanGraph

/-- How jobs are taken from the queue. -/
structure QueuePolicy where
  scanWorkers : Nat
  normalizeWorkers : Nat
  deriveWorkers : Nat
  /-- How long a worker sleeps when its line is empty, in milliseconds. -/
  idlePollMillis : Nat
  /-- How long workers get to finish, in seconds. -/
  shutdownSeconds : Nat
deriving DecidableEq, Repr

def QueuePolicy.ofProcessors (n : Nat) : QueuePolicy :=
  ⟨min (2 * n) 16, n, n, 50, 10⟩

/-- Where scanners run. -/
inductive Backend where
  | inProcess
  /-- A program of its own, which gets the job on its standard input. -/
  | command (program : String) (args : List String)
deriving DecidableEq, Repr

structure ScanPolicy where
  /-- The time that a scan may take, in seconds. -/
  timeoutSeconds : Nat
  backend : Backend
deriving DecidableEq, Repr

/-- When rules are evaluated. -/
structure DerivationPolicy where
  /-- For how many seconds an output may be used again. -/
  cacheSeconds : Nat
  /-- The number of derivations after which a chain ends. -/
  maxDepth : UInt32
  enabled : SortedSet String
  disabled : SortedSet String
deriving DecidableEq, Repr

/-- A rule is evaluated: it is not disabled, and it is enabled or enabled by default. -/
def DerivationPolicy.isEnabled (p : DerivationPolicy) (rule : String) (byDefault : Bool) : Bool :=
  !p.disabled.contains rule && (byDefault || p.enabled.contains rule)

structure Policy where
  queue : QueuePolicy
  scanning : ScanPolicy
  derivation : DerivationPolicy
  /-- Every committed object is scanned by all scanners that may. -/
  autoSchedule : Bool
  organization : String
  /-- The number of events that are kept for a reader. -/
  eventCapacity : Nat
deriving DecidableEq, Repr

namespace Policy

/-- The policy of a queue if none is given. -/
def defaultQueue : QueuePolicy :=
  .ofProcessors 1

/-- The policy of scans if none is given. -/
def defaultScanning : ScanPolicy :=
  ⟨300, .inProcess⟩

/-- The policy of derivations if none is given. -/
def defaultDerivation : DerivationPolicy :=
  ⟨3600, 16, .empty, .empty⟩

/-- The policy if none is given. -/
def default : Policy :=
  ⟨defaultQueue, defaultScanning, defaultDerivation, false, "default", 1024⟩

instance : Inhabited Policy :=
  ⟨default⟩

end Policy

/-! ## JSON -/

open Json Record

def QueuePolicy.toJson (p : QueuePolicy) : Json :=
  .obj [("boefje_workers", .nat p.scanWorkers), ("normalizer_workers", .nat p.normalizeWorkers),
    ("derive_workers", .nat p.deriveWorkers), ("idle_poll_ms", .nat p.idlePollMillis),
    ("shutdown_timeout_secs", .nat p.shutdownSeconds)]

def QueuePolicy.decoder : Decoder QueuePolicy :=
  let d := Policy.defaultQueue
  (QueuePolicy.mk <$> fieldOr "boefje_workers" .nat64 d.scanWorkers
    <*> fieldOr "normalizer_workers" .nat64 d.normalizeWorkers
    <*> fieldOr "derive_workers" .nat64 d.deriveWorkers
    <*> fieldOr "idle_poll_ms" .nat64 d.idlePollMillis
    <*> fieldOr "shutdown_timeout_secs" .nat64 d.shutdownSeconds).decode

def Backend.toJson : Backend → Json
  | inProcess => .obj [("kind", .str "in_process")]
  | command program args =>
      .obj [("kind", .str "command"), ("program", .str program), ("args", list .str args)]

def Backend.kinds : List String :=
  ["in_process", "command"]

/-- The fields of a backend of the kind with the given name. -/
def Backend.record? (kind : String) : Option (Record Backend) :=
  if kind = "in_process" then some (Record.pure .inProcess)
  else if kind = "command" then
    some (command <$> field "program" .text <*> fieldOr "args" (.list .text) [])
  else none

def Backend.decoder (tagging : Tagging) : Decoder Backend :=
  .taggedBy "kind" (fun t => (tagging.name? Backend.kinds t).bind Backend.record?)

def ScanPolicy.toJson (p : ScanPolicy) : Json :=
  .obj [("timeout_secs", .nat p.timeoutSeconds), ("backend", p.backend.toJson)]

def ScanPolicy.decoder (tagging : Tagging) : Decoder ScanPolicy :=
  let d := Policy.defaultScanning
  (ScanPolicy.mk <$> fieldOr "timeout_secs" .nat64 d.timeoutSeconds
    <*> fieldOr "backend" (Backend.decoder tagging) d.backend).decode

def DerivationPolicy.toJson (p : DerivationPolicy) : Json :=
  .obj [("default_cache_ttl_secs", .nat p.cacheSeconds), ("max_depth", nat32 p.maxDepth),
    ("rules_enabled", p.enabled.texts), ("rules_disabled", p.disabled.texts)]

def DerivationPolicy.decoder : Decoder DerivationPolicy :=
  let d := Policy.defaultDerivation
  (DerivationPolicy.mk <$> fieldOr "default_cache_ttl_secs" .nat64 d.cacheSeconds
    <*> fieldOr "max_depth" .nat32 d.maxDepth <*> fieldOr "rules_enabled" (.set .text) .empty
    <*> fieldOr "rules_disabled" (.set .text) .empty).decode

def Policy.members (p : Policy) : List (String × Json) :=
  [("queue", p.queue.toJson), ("boefje", p.scanning.toJson),
   ("derivation", p.derivation.toJson), ("auto_schedule_boefjes", .bool p.autoSchedule),
   ("organization", .str p.organization), ("event_capacity", .nat p.eventCapacity)]

def Policy.toJson (p : Policy) : Json :=
  .obj p.members

def Policy.record (tagging : Tagging) : Record Policy :=
  let d := Policy.default
  Policy.mk <$> fieldOr "queue" QueuePolicy.decoder d.queue
    <*> fieldOr "boefje" (ScanPolicy.decoder tagging) d.scanning
    <*> fieldOr "derivation" DerivationPolicy.decoder d.derivation
    <*> fieldOr "auto_schedule_boefjes" .flag d.autoSchedule
    <*> fieldOr "organization" .text d.organization
    <*> fieldOr "event_capacity" .nat64 d.eventCapacity

def Policy.decoder : Decoder Policy :=
  (Policy.record .byName).decode

end ScanGraph
