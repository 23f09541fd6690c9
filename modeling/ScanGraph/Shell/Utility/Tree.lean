/-
Files and directories: `touch`, `mkdir`, `rmdir`, `rm`, `cp`, `mv`, `ls` and others.
-/
import ScanGraph.Shell.Utility

namespace ScanGraph.Shell.Utility

/-- One thing after the other is done on the disk; what goes wrong is said, and counts. -/
def onEach (c : Call) (names : List String) (f : Disk → String → Except String Disk) : Reply :=
  names.foldl (fun (r : Reply) n =>
    match f r.disk n with
    | .ok disk => { r with disk }
    | .error said => { r.write 2 (c.complaint said) with status := 1 }) (c.quiet 0)

/-- The options of a utility of files, which must be given something. -/
def withFiles (c : Call) (plain valued : String) (words : List (String × Char))
    (f : Options → Reply) : Reply :=
  c.withOptions ⟨plain, valued, words, false⟩ 1 (fun o =>
    if o.operands.isEmpty then c.advise "missing operand" 1 else f o)

/-- What is said of something that cannot be done with a path. -/
def cannot (what path : String) (f : DiskFault) : String :=
  "cannot " ++ what ++ " " ++ Call.quoted path ++ ": " ++ f.message

def touch : Utility := fun c =>
  c.withOptions ⟨"acmhf", "drt", [("no-create", 'c'), ("date", 'd')], false⟩ 1 (fun o =>
    if o.operands.isEmpty then c.advise "missing file operand" 1
    else onEach c o.operands (fun disk path =>
      if (disk.kind? path).isSome || o.has 'c' then .ok disk
      else match disk.write path [] with
        | .ok disk => .ok disk
        | .error f => .error (cannot "touch" path f)))

def makeDirectory (disk : Disk) (path : String) : Except DiskFault Disk := do
  let path := Text.trimEnd '/' path
  let place ← disk.placeOf (if path.isEmpty then "/" else path)
  if (disk.kindAt? place).isSome then .error .present
  else match disk.kindAt? place.dropLast with
    | some .directory => .ok (disk.put place .directory)
    | some _ => .error .notDirectory
    | none => .error .missing

/-- A directory is made, and those on the way to it. -/
def makeDirectories (disk : Disk) (path : String) : Except DiskFault Disk :=
  let parts := Files.parts path
  let front := if Files.isAbsolute path then "/" else ""
  (List.range parts.length).foldlM (fun disk k =>
    let path := front ++ "/".intercalate (parts.take (k + 1))
    if disk.kind? path == some .directory then .ok disk else makeDirectory disk path) disk

def mkdir : Utility := fun c =>
  withFiles c "pv" "m" [("parents", 'p'), ("mode", 'm'), ("verbose", 'v')] (fun o =>
    onEach c o.operands (fun disk path =>
      match if o.has 'p' then makeDirectories disk path else makeDirectory disk path with
      | .ok disk => .ok disk
      | .error f => .error ("cannot create directory " ++ Call.quoted path ++ ": " ++ f.message)))

/-- Something below a place stands on the disk. -/
def isFilled (disk : Disk) (place : List String) : Bool :=
  !(disk.childrenOf place).isEmpty

def removed (disk : Disk) (place : List String) : Disk :=
  { disk with nodes := disk.nodes.filter (fun e => !place.isPrefixOf e.1) }

/-- Directories that hold nothing are removed. -/
def rmdir : Utility := fun c =>
  withFiles c "pv" "" [] (fun o =>
    onEach c o.operands (fun disk path =>
      let failed (f : DiskFault) : Except String Disk :=
        .error ("failed to remove " ++ Call.quoted path ++ ": " ++ f.message)
      match disk.placeOf path with
      | .error f => failed f
      | .ok place =>
          match disk.kindAt? place with
          | none => failed .missing
          | some .directory =>
              if isFilled disk place then failed .notEmpty else .ok (disk.erase place)
          | some _ => failed .notDirectory))

/-- Files are removed, and directories with all they hold if asked for. -/
def rm : Utility := fun c =>
  c.withOptions ⟨"firRvdI", "", [("force", 'f'), ("recursive", 'r'), ("verbose", 'v')], false⟩ 1
    (fun o =>
      if o.operands.isEmpty && !o.has 'f' then c.advise "missing operand" 1
      else onEach c o.operands (fun disk path =>
        let failed (f : DiskFault) : Except String Disk :=
          if o.has 'f' && (f = .missing || f = .notDirectory) then .ok disk
          else .error (cannot "remove" path f)
        match disk.placeOf path with
        | .error f => failed f
        | .ok place =>
            match disk.kindAt? place with
            | none => failed .missing
            | some .directory =>
                if o.has 'r' || o.has 'R' then .ok (removed disk place)
                else failed .isDirectory
            | some _ => .ok (disk.erase place)))

/-- A path to a name in a directory, if the path leads to one. -/
def into (disk : Disk) (target source : String) : String :=
  if disk.kind? target == some .directory then
    Text.trimEnd '/' target ++ "/" ++ ((Files.parts source).getLast?.getD "")
  else target

def copyFile (disk : Disk) (source target : String) : Except String Disk :=
  match disk.read source with
  | .error .isDirectory =>
      .error ("-r not specified; omitting directory " ++ Call.quoted source)
  | .error f => .error (cannot "stat" source f)
  | .ok bs =>
      let path := into disk target source
      match disk.write path bs with
      | .ok disk => .ok disk
      | .error f =>
          .error ("cannot create regular file " ++ Call.quoted path ++ ": " ++ f.message)

/-- All that is below a place is put below another one. -/
def copyTree (disk : Disk) (source target : List String) : Disk :=
  (disk.nodes.filter (fun e => source.isPrefixOf e.1)).foldl
    (fun d (place, n) => d.put (target ++ place.drop source.length) n) (disk.put target .directory)

/-- A file or a directory is put under another path, and perhaps no longer under its own. -/
def transfer (isRecursive removes : Bool) (disk : Disk) (source target : String) :
    Except String Disk :=
  match disk.placeOf source, disk.kind? source with
  | .ok place, some .directory =>
      if !isRecursive then .error ("-r not specified; omitting directory " ++ Call.quoted source)
      else match disk.placeOf (into disk target source) with
        | .ok goal =>
            let copied := copyTree disk place goal
            .ok (if removes then removed copied place else copied)
        | .error f => .error (cannot "create directory" target f)
  | .ok place, some _ => do
      let copied ← copyFile disk source target
      .ok (if removes then copied.erase place else copied)
  | .ok _, none => .error (cannot "stat" source .missing)
  | .error f, _ => .error (cannot "stat" source f)

/-- The sources and the target of a call. -/
def transfers (c : Call) (o : Options) (f : Disk → String → String → Except String Disk) : Reply :=
  match o.operands.getLast?, o.operands.dropLast with
  | none, _ => c.advise "missing file operand" 1
  | some only, [] =>
      c.advise ("missing destination file operand after " ++ Call.quoted only) 1
  | some target, sources =>
      if sources.length > 1 && c.disk.kind? target != some .directory then
        c.refuse ("target " ++ Call.quoted target ++ ": "
          ++ (if (c.disk.kind? target).isSome then DiskFault.notDirectory.message
              else DiskFault.missing.message)) 1
      else onEach c sources (fun disk source => f disk source target)

def cp : Utility := fun c =>
  c.withOptions ⟨"rRapfnvil", "", [("recursive", 'r'), ("archive", 'a'), ("force", 'f')], false⟩ 1
    (fun o => transfers c o (transfer (o.has 'r' || o.has 'R' || o.has 'a') false))

def mv : Utility := fun c =>
  c.withOptions ⟨"fnvi", "", [("force", 'f')], false⟩ 1
    (fun o => transfers c o (transfer true true))

/-- The names in a directory that scripts made, in order. -/
def namesIn (disk : Disk) (all : Bool) (place : List String) : List String :=
  let names := (disk.childrenOf place).filterMap List.getLast?
  let names := if all then names else names.filter (fun n => !n.startsWith ".")
  names.mergeSort (fun a b => decide (a ≤ b))

/-- The names in directories, and of files. -/
def ls : Utility := fun c =>
  c.withOptions ⟨"aA1dlhtrSRFGnigopqsucCmx", "", [("all", 'a'), ("almost-all", 'A')], false⟩ 2
    (fun o =>
      let names := if o.operands.isEmpty then ["."] else o.operands
      let found := names.map (fun n => (n, c.disk.kind? n))
      let faults := found.flatMap (fun (n, k) =>
        if k.isSome then []
        else
          let f : DiskFault := match c.disk.placeOf n with
            | .error f => f
            | .ok _ => .missing
          c.complaint (cannot "access" n f))
      let isList (k : Option Files.Root.Kind) : Bool := k == some .directory && !o.has 'd'
      let files := found.filterMap (fun (n, k) =>
        if k.isSome && !isList k then some n else none)
      let directories := found.filterMap (fun (n, k) => if isList k then some n else none)
      let lines (ns : List String) : List Char := ns.flatMap (fun n => n.toList ++ ['\n'])
      let inside (n : String) : List Char :=
        match c.disk.placeOf n with
        | .ok place =>
            (if o.has 'a' then lines [".", ".."] else [])
              ++ lines (namesIn c.disk (o.has 'a' || o.has 'A') place)
        | .error _ => []
      let isTitled := 1 < names.length
      let parts := (if files.isEmpty then [] else [lines files])
        ++ directories.map (fun n =>
          (if isTitled then n.toList ++ [':', '\n'] else []) ++ inside n)
      { c.quiet (if faults.isEmpty then 0 else 2) with
        writes := [(2, faults), (1, ['\n'].intercalate parts)] })

/-- Permissions are not kept; what is named must be there. -/
def chmod : Utility := fun c =>
  let isOption (a : String) : Bool :=
    a.startsWith "-" && a.length > 1 && (a.drop 1).all Char.isAlpha
  match c.args.filter (fun a => !isOption a) with
  | [] => c.advise "missing operand" 1
  | [mode] => c.advise ("missing operand after " ++ Call.quoted mode) 1
  | _ :: paths => onEach c paths (fun disk path =>
      if (disk.kind? path).isSome then .ok disk
      else .error (cannot "access" path .missing))

/-- A new file or directory with a name that nothing else has. -/
def mktemp : Utility := fun c =>
  c.withOptions ⟨"dqut", "p", [("directory", 'd'), ("quiet", 'q'), ("dry-run", 'u')], false⟩ 1
    (fun o =>
      let template := o.operands.headD "tmp.XXXXXXXXXX"
      let stem := (template.toList.reverse.dropWhile (· == 'X')).reverse
      let marks := template.length - stem.length
      if marks < 3 then c.refuse ("too few X's in template " ++ Call.quoted template) 1
      else
        let directory := if o.operands.isEmpty || o.has 't' || o.has 'p' then
          (o.value? 'p').getD "/tmp" ++ "/" else ""
        let name (k : Nat) : String :=
          directory ++ String.ofList (stem ++ Text.padded marks (7310000000 + k * 41
            |> (· % Nat.pow 10 marks)))
        match ((List.range 1000).map name).find? (fun p => (c.disk.kind? p).isNone) with
        | none => c.refuse "no name is free" 1
        | some path =>
            let made := if o.has 'd' then makeDirectory c.disk path else c.disk.write path []
            match made with
            | .ok disk => { (c.quiet 0).write 1 (path.toList ++ ['\n']) with
                disk := if o.has 'u' then c.disk else disk }
            | .error f => c.refuse ("failed to create "
                ++ (if o.has 'd' then "directory" else "file") ++ " via template "
                ++ Call.quoted template ++ ": " ++ f.message) 1)

/-- The input, or a part of it, copied in blocks. -/
def dd : Utility := fun c =>
  let settings := c.args.map (fun a =>
    let name := a.toList.takeWhile (· != '=')
    (String.ofList name, String.ofList (a.toList.drop (name.length + 1))))
  let number (name : String) (least : Nat) : Nat :=
    match settings.lookup name with
    | none => least
    | some v =>
        let ds := v.toList.takeWhile Char.isDigit
        let unit := match v.toList.drop ds.length with
          | ['k'] => 1024
          | ['K'] => 1024
          | ['M'] => 1048576
          | _ => 1
        Text.valueOf ds * unit
  let size := max 1 (number "bs" (number "ibs" 512))
  match c.read ((settings.lookup "if").getD "-") with
  | .error f => c.refuse ("failed to open " ++ Call.quoted ((settings.lookup "if").getD "") ++ ": "
      ++ f.message) 1
  | .ok text =>
      let skipped := number "skip" 0 * size
      let text := text.drop skipped
      let out := match settings.lookup "count" with
        | some _ => text.take (number "count" 0 * size)
        | none => text
      let blocks := Text.decimalText (out.length / size) ++ "+"
        ++ (if out.length % size = 0 then "0" else "1")
      let report := blocks ++ " records in\n" ++ blocks ++ " records out\n"
      let isQuiet := settings.lookup "status" == some "none"
      let r := { c.quiet 0 with
        writes := [(1, out), (2, if isQuiet then [] else report.toList)]
        rest := if (settings.lookup "if").isSome then c.input
          else c.input.drop (skipped + out.length) }
      match settings.lookup "of" with
      | none => r
      | some path =>
          match c.disk.write path (octetsOf out) with
          | .ok disk => { r with disk, writes := r.writes.drop 1 }
          | .error f => c.refuse ("failed to open " ++ Call.quoted path ++ ": " ++ f.message) 1

end ScanGraph.Shell.Utility
