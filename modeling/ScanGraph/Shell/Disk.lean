/-
The files that scripts leave.

A disk is what every machine has below its root, and what scripts have written
there.  Paths begin at the root or at the place where a script stands.
-/
import ScanGraph.Files
import ScanGraph.Shell.Octets

namespace ScanGraph.Shell

inductive Node where
  | directory
  | file (content : List UInt8)
deriving DecidableEq, Repr

/-- A disk as a script sees it: where it stands, and what was put where. -/
structure Disk where
  place : List String
  nodes : List (List String × Node)
deriving DecidableEq, Repr

/-- Why a path cannot be used. -/
inductive DiskFault where
  | missing
  | notDirectory
  | isDirectory
  | denied
  | longName
  | present
  | notEmpty
deriving DecidableEq, Repr

/-- What is said of a path that cannot be used. -/
def DiskFault.message : DiskFault → String
  | missing => "No such file or directory"
  | notDirectory => "Not a directory"
  | isDirectory => "Is a directory"
  | denied => "Permission denied"
  | longName => "File name too long"
  | present => "File exists"
  | notEmpty => "Directory not empty"

namespace Disk

def start : Disk :=
  ⟨["tmp", "scan"], [(["tmp", "scan"], .directory)]⟩

def kindAt? (d : Disk) (place : List String) : Option Files.Root.Kind :=
  match d.nodes.lookup place with
  | some .directory => some .directory
  | some (.file _) => some .file
  | none => Files.Root.kindAt? place

/-- Where parts lead from a place; what is on the way must be a directory. -/
def walk (d : Disk) (place : List String) : List String → Except DiskFault (List String)
  | [] => .ok place
  | p :: rest =>
      match d.kindAt? place with
      | none => .error .missing
      | some .directory =>
          if Files.Root.longestName < p.utf8ByteSize then .error .longName
          else if p == ".." then d.walk place.dropLast rest
          else d.walk (place ++ [p]) rest
      | some _ => .error .notDirectory

def placeOf (d : Disk) (path : String) : Except DiskFault (List String) := do
  if path.isEmpty then .error .missing
  else
    let place ← d.walk (if Files.isAbsolute path then [] else d.place) (Files.parts path)
    if path.endsWith "/" then
      match d.kindAt? place with
      | some .directory => .ok place
      | some _ => .error .notDirectory
      | none => .error .missing
    else .ok place

def kind? (d : Disk) (path : String) : Option Files.Root.Kind :=
  match d.placeOf path with
  | .ok place => d.kindAt? place
  | .error _ => none

def contentAt (d : Disk) (place : List String) : Except DiskFault (List UInt8) :=
  match d.nodes.lookup place, d.kindAt? place with
  | some (.file content), _ => .ok content
  | _, some .directory => .error .isDirectory
  | _, some .file => .ok (Text.octets Files.Root.systemText)
  | _, some .program => .ok (Text.octets "\x7fELF")
  | _, some .device => .ok (if place == ["dev", "zero"] then List.replicate 65536 0 else [])
  | _, none => .error .missing

/-- What the file holds to which a path leads. -/
def read (d : Disk) (path : String) : Except DiskFault (List UInt8) := do
  d.contentAt (← d.placeOf path)

/-- The disk with something else at a place. -/
def put (d : Disk) (place : List String) (n : Node) : Disk :=
  { d with nodes := (place, n) :: d.nodes.filter (fun e => e.1 != place) }

def erase (d : Disk) (place : List String) : Disk :=
  { d with nodes := d.nodes.filter (fun e => e.1 != place) }

/-- The place of a file to write to, where a new file may stand. -/
def placeToWrite (d : Disk) (path : String) : Except DiskFault (List String) := do
  let place ← d.placeOf path
  match d.kindAt? place with
  | some .directory => .error .isDirectory
  | some _ => .ok place
  | none =>
      match d.kindAt? place.dropLast with
      | some .directory => .ok place
      | some _ => .error .notDirectory
      | none => .error .missing

/-- The disk with a file that holds the given octets; devices keep nothing. -/
def write (d : Disk) (path : String) (content : List UInt8) : Except DiskFault Disk := do
  let place ← d.placeToWrite path
  if d.kindAt? place == some .device then .ok d else .ok (d.put place (.file content))

/-- What stands below a directory, directly. -/
def childrenOf (d : Disk) (place : List String) : List (List String) :=
  let below (e : List String) : Bool := e.dropLast == place && e != place
  ((d.nodes.map Prod.fst).filter below).eraseDups

def pathOf (place : List String) : String :=
  "/" ++ "/".intercalate place

end Disk

end ScanGraph.Shell
