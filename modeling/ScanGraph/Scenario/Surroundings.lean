/-
What scenarios are played against.

How names are looked up and what a program does are parameters of the library: the
plugins at hand take a resolver, and the backend of a command takes what starts
programs.  Scenarios are played without a network and without processes, and this
is what they are given instead; no result about the library depends on it.

The resolver asks nobody: it knows the names that spell an address and the name of
the machine itself.  An IPv4 address may be spelled in one to four numbers, each
decimal, octal or hexadecimal, the last of which fills all octets that are left; an
IPv6 address may carry a zone, which the address leaves out.  Of any other name it
only says whether it could be the name of a host.  Programs are run by the simulated
shell and its utilities.
-/
import ScanGraph.Builtin
import ScanGraph.Command
import ScanGraph.Settings
import ScanGraph.Shell
import ScanGraph.Text.Blank

namespace ScanGraph

namespace Dns.Resolver

/-! ## IPv4 addresses by numbers -/

/-- The number that digits of a base spell, at least one. -/
def spelled? (base : Nat) (cs : List Char) : Option Nat :=
  let digits := cs.map Text.hexValue?
  if cs.isEmpty || digits.any (fun d => d.getD base ≥ base) then none
  else some (digits.foldl (fun n d => base * n + d.getD 0) 0)

/-- A number in decimal, in octal after a zero, or in hexadecimal after a zero and an `x`. -/
def number? (cs : List Char) : Option Nat :=
  match cs with
  | '0' :: 'x' :: rest => spelled? 16 rest
  | '0' :: 'X' :: rest => spelled? 16 rest
  | '0' :: _ => spelled? 8 cs
  | _ => spelled? 10 cs

/-- The address of some numbers: each is an octet, and the last one fills the octets left. -/
def addressOf? : Nat → List Nat → Option Nat
  | room, [n] => if n < Nat.pow 256 room then some n else none
  | room + 1, n :: rest =>
      if n < 256 && 0 < room then (addressOf? room rest).map (n * Nat.pow 256 room + ·) else none
  | _, _ => none

def v4OfNat (n : Nat) : Address.V4 :=
  let octet (place : Nat) : UInt8 := UInt8.ofNat (n / Nat.pow 256 place % 256)
  ⟨octet 3, octet 2, octet 1, octet 0⟩

/-- The IPv4 address that a name spells in one to four numbers. -/
def numeric? (name : String) : Option Address.V4 :=
  ((name.toList.splitOn '.').mapM number?).bind (fun ns => (addressOf? 4 ns).map v4OfNat)

/-! ## IPv6 addresses with zones -/

/-- An address that means something only on one link: a link-local or link-multicast one. -/
def isOfLink (x : Address.V6) : Bool :=
  match x.toList with
  | g :: _ => (0xFE80 ≤ g && g ≤ 0xFEBF) || (0xFF00 ≤ g && g.toNat % 16 == 2)
  | [] => false

/-- A zone is a number of 32 bits, or on a link the name of an interface. -/
def admitsZone (x : Address.V6) (zone : List Char) : Bool :=
  (isOfLink x && zone == ['l', 'o'])
    || (Text.natural? zone).any (· < UInt32.size)

/-- The IPv6 address before the first percent sign, and the zone after it. -/
def zoned? (name : String) : Option (Address.V6 × List Char) :=
  let cs := name.toList
  let start := cs.takeWhile (· != '%')
  if start.length < cs.length then
    (Address.V6.parse? (String.ofList start)).map (fun x => (x, cs.drop (start.length + 1)))
  else none

/-! ## Names of hosts -/

def isHostChar (c : Char) : Bool :=
  c.isAlphanum || c == '-' || c == '_'

/-- A label of a name is not empty, has at most 63 characters, and they are those of hosts. -/
def isLabel (cs : List Char) : Bool :=
  !cs.isEmpty && cs.length ≤ 63 && cs.all isHostChar

/-- A name that a host could have; one dot may end it. -/
def isHostName (name : String) : Bool :=
  let cs := name.toList
  let labels := (if cs.getLast? == some '.' then cs.dropLast else cs).splitOn '.'
  name == "." || (cs.head? != some '-' && labels.all isLabel
    && labels.foldl (fun n l => n + l.length + 1) 0 ≤ 254)

def ownAddresses? (name : String) : Option (List Address) :=
  if Text.lowerAscii name == "localhost" then some [.v4 ⟨127, 0, 0, 1⟩] else none

def closed : Resolver := fun name =>
  match Address.parse? name with
  | some x => .ok [x]
  | none =>
      if name.toList.contains '\x00' then .error .holdsNul
      else match numeric? name, zoned? name, ownAddresses? name with
        | some x, _, _ => .ok [.v4 x]
        | none, some (x, zone), _ =>
            if admitsZone x zone then .ok [.v6 x] else .error .unknownName
        | none, none, some addresses => .ok addresses
        | none, none, none =>
            .error (if isHostName name then .unreachable else .unknownName)

end Dns.Resolver

/-- The bodies of the plugins at hand, where nobody is asked for addresses. -/
def Builtin.entrypoints : Entrypoints :=
  entrypointsOf .closed

/-- The plugins at hand, and those of the manifest, where nobody is asked for addresses. -/
def Settings.registry (files : Files) (s : Settings) : Except LoadError Registry :=
  s.registryOf .closed files

/-- The backend that a policy asks for, where programs are simulated. -/
def ScanPolicy.backendOf (p : ScanPolicy) (r : Registry) : ScannerBody :=
  p.backendWith (fun program args input =>
    (Shell.spawn program args input).mapError Shell.StartError.message) r

end ScanGraph
