/-
A tree of text files, and what stands below the root of all files, as far as
every machine has it.

A path is looked up from the top of the tree, part by part: a part that is `.`
or empty stays where it is, and `..` goes back.  What is on the way must be a
directory.  Absolute paths lead out of the tree, and so do relative ones that go
back often enough to reach the root of all files; outside there is an empty file
and a few that spell no settings.  Above the root there is the root again.

Reading is all that is modelled: nothing writes to these files.  A file that is there
but cannot be read as text, a directory in the place of a file, and a name that is too
long are faults of their own, since each of them is worded in its own way by those who
load settings.

What lies outside of the tree is what every machine has, such as directories of programs
and devices.  It is here because a path in the settings may lead there, and what is
found then decides between two errors.
-/
import ScanGraph.Table
import ScanGraph.Text.Blank

namespace ScanGraph.Files

/-- The parts of a path that name something. -/
def parts (path : String) : List String :=
  (Text.pieces '/' path).filter (fun p => p != "" && p != ".")

/-- A path that begins at the root of all files. -/
def isAbsolute (path : String) : Bool :=
  path.startsWith "/"

namespace Root

/-- A kind of thing that a path leads to. -/
inductive Kind where
  | directory
  | file
  | device
  | program
deriving DecidableEq, Repr

/-- Why a path leads to nothing. -/
inductive Fault where
  | missing
  | notDirectory
  | longName
deriving DecidableEq, Repr

def directories : List (List String) :=
  [[], ["bin"], ["dev"], ["etc"], ["home"], ["lib"], ["mnt"], ["opt"], ["proc"], ["root"],
   ["sbin"], ["srv"], ["sys"], ["tmp"], ["usr"], ["usr", "bin"], ["usr", "lib"],
   ["usr", "local"], ["usr", "local", "bin"], ["usr", "sbin"], ["usr", "share"], ["var"],
   ["var", "log"], ["var", "tmp"]]

def files : List (List String) :=
  [["etc", "group"], ["etc", "hostname"], ["etc", "hosts"], ["etc", "passwd"],
   ["etc", "resolv.conf"], ["etc", "shadow"]]

def devices : List (List String) :=
  ["full", "null", "random", "tty", "urandom", "zero"].map (fun d => ["dev", d])

def programDirectories : List (List String) :=
  [["usr", "bin"], ["bin"]]

def programs : List String :=
  ["[", "base64", "basename", "cat", "chmod", "comm", "cp", "cut", "dash", "dd", "dirname",
   "echo", "egrep", "env", "expand", "expr", "false", "fgrep", "fold", "grep", "head", "ls",
   "md5sum", "mkdir", "mktemp", "mv", "nice", "nl", "nohup", "od", "paste", "printenv", "printf",
   "pwd", "rev", "rm", "rmdir", "sed", "seq", "sh", "sha256sum", "sleep", "sort", "sync", "tac",
   "tail", "tee", "test", "timeout", "touch", "tr", "true", "uname", "uniq", "wc", "which",
   "whoami", "xargs", "yes"]

/-- What stands at a place. -/
def kindAt? (place : List String) : Option Kind :=
  if directories.contains place then some .directory
  else if files.contains place then some .file
  else if devices.contains place then some .device
  else if programDirectories.contains place.dropLast
      && place.getLast?.any programs.contains then some .program
  else none

/-- No part of a path is longer than this, in octets. -/
def longestName : Nat := 255

/-- Where parts lead from a place. -/
def walk (place : List String) : List String → Except Fault (List String)
  | [] => .ok place
  | p :: rest =>
      match kindAt? place with
      | none => .error .missing
      | some .directory =>
          if longestName < p.utf8ByteSize then .error .longName
          else if p == ".." then walk place.dropLast rest
          else walk (place ++ [p]) rest
      | some _ => .error .notDirectory

/-- A line of the kind that the files of a machine hold. -/
def systemText : String :=
  "root:x:0:0:root:/root:/bin/sh\n"

/-- The empty file. -/
def null : List String :=
  ["dev", "null"]

end Root

end ScanGraph.Files

namespace ScanGraph

/-- What a path leads to. -/
inductive FileEntry where
  | file (text : String)
  | directory
deriving DecidableEq, Repr

/-- The files of a tree by the parts of their paths. -/
structure Files where
  entries : List (List String × String)
deriving DecidableEq, Repr

namespace Files

/-- The tree of some files given by their paths. -/
def ofList (l : List (String × String)) : Files :=
  ⟨l.map (fun (path, text) => (parts path, text))⟩

/-- There is a file below a directory. -/
def isDirectory (fs : Files) (place : List String) : Bool :=
  place.isEmpty || fs.entries.any (fun e => place.isPrefixOf e.1 && e.1 != place)

/-- What stands at a place of the tree. -/
def entry? (fs : Files) (place : List String) : Option FileEntry :=
  match fs.entries.lookup place with
  | some text => some (.file text)
  | none => if fs.isDirectory place then some .directory else none

/-- Where parts lead from a directory, if there are directories on the way. -/
def walk (fs : Files) : List String → List String → Option (List String)
  | place, [] => some place
  | place, p :: rest =>
      if !fs.isDirectory place then none
      else if p == ".." then
        if place.isEmpty then none else fs.walk place.dropLast rest
      else fs.walk (place ++ [p]) rest

/-- How far below the root of all files the tree stands, at most. -/
def depthOfTree : Nat := 12

/-- The parts of a path that leads out of the tree, from the root of all files on. -/
def outside? (path : String) : Option (List String) :=
  let ps := parts path
  if isAbsolute path then some ps
  else
    let below := ps.dropWhile (· == "..")
    if depthOfTree ≤ ps.length - below.length then some below else none

/-- What parts lead to outside the tree. -/
def entryOutside? (ps : List String) : Option FileEntry :=
  match Root.walk [] ps with
  | .ok place =>
      if place == Root.null then some (.file "")
      else match Root.kindAt? place with
        | some .directory => some .directory
        | some .file => some (.file Root.systemText)
        | _ => none
  | .error _ => none

/-- What a path leads to. -/
def lookUp (fs : Files) (path : String) : Option FileEntry :=
  let found :=
    if path.isEmpty then none
    else match outside? path with
      | some ps => entryOutside? ps
      | none => (fs.walk [] (parts path)).bind fs.entry?
  match found with
  | some (.file text) =>
      if path.endsWith "/" || path.endsWith "/." then none else some (.file text)
  | found => found

/-- The text of the file that a path leads to. -/
def read? (fs : Files) (path : String) : Option String :=
  match fs.lookUp path with
  | some (.file text) => some text
  | _ => none

/-! ## Paths -/

/-- The last part of a path, if it names a file. -/
def fileName? (path : String) : Option String :=
  match (parts path).getLast? with
  | some ".." => none
  | last => last

/-- The extension of a file: what follows the last dot of its name, if something precedes it. -/
def extension? (path : String) : Option String :=
  match fileName? path with
  | none => none
  | some name =>
      let cs := name.toList.reverse
      let ext := cs.takeWhile (· != '.')
      let before := cs.drop (ext.length + 1)
      if ext.length = cs.length ∨ before.isEmpty then none
      else some (String.ofList ext.reverse)

/-- The first character of a path that begins with a slash, or with a dot as a part of its own; it
belongs to every path that is cut from it. -/
def anchor (path : List Char) : List Char :=
  match path with
  | '/' :: _ => ['/']
  | ['.'] => ['.']
  | '.' :: '/' :: _ => ['.']
  | _ => []

/-- Parts without those at the end that name nothing. -/
def trimParts (l : List (List Char)) : List (List Char) :=
  Text.trimEndWhere (fun p => p == [] || p == ['.']) l

/-- The path of the directory that a path leads into: the path without its last part, and without
what names nothing before it. -/
def parent (path : String) : String :=
  let start := anchor path.toList
  let parts := (path.toList.drop start.length).splitOn '/'
  String.ofList (start ++ ['/'].intercalate (trimParts (trimParts parts).dropLast))

/-- A path that begins in a directory. -/
def join (directory path : String) : String :=
  if directory.isEmpty || isAbsolute path then path
  else if directory.endsWith "/" then directory ++ path
  else directory ++ "/" ++ path

end Files

end ScanGraph
