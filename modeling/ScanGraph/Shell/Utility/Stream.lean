/-
Editing streams: `sed`.
-/
import ScanGraph.Shell.Edit.Reader
import ScanGraph.Shell.Utility

namespace ScanGraph.Shell.Utility

def streamRules : OptionRules :=
  ⟨"nrEsuiz", "efl", [("quiet", 'n'), ("silent", 'n'), ("expression", 'e'), ("file", 'f'),
    ("regexp-extended", 'E'), ("separate", 's'), ("unbuffered", 'u'), ("in-place", 'i')], false⟩

def streamUsage : String :=
  "Usage: sed [OPTION]... \x7bscript-only-if-no-other-script\x7d [input-file]...\n"

/-- The pieces of the script of a call, in order; a file that cannot be read is an error. -/
def scriptPieces (c : Call) (o : Options) : Except (String × DiskFault) (List String) :=
  (o.given.filter (fun g => g.1 == 'e' || g.1 == 'f')).mapM (fun (l, v) =>
    if l == 'e' then .ok v
    else match c.read v with
      | .ok cs => .ok (String.ofList (if cs.getLast? == some '\n' then cs.dropLast else cs))
      | .error f => .error (v, f))

/-- What is said of a text that cannot be edited, and the status. -/
def streamFault (c : Call) (name : String) (f : DiskFault) : List Char × Nat :=
  if f = .isDirectory then
    (c.complaint ("couldn't edit " ++ name ++ ": not a regular file"), 4)
  else (c.complaint ("can't read " ++ name ++ ": " ++ f.message), 2)

def editInPlace (c : Call) (steps : List EditStep) (isQuiet : Bool) :
    List String → Reply → Reply
  | [], r => r
  | name :: rest, r =>
      match (r.disk.read name).map charsOf with
      | .error f =>
          let (said, status) := streamFault c name f
          editInPlace c steps isQuiet rest { r.write 2 said with status }
      | .ok text =>
          let e := (Editing.start steps isQuiet text r.disk).run
          match e.disk.write name (octetsOf e.output) with
          | .ok disk =>
              editInPlace c steps isQuiet rest { r with disk, status := max r.status e.status }
          | .error f => { r.write 2 (c.complaint (Call.plainly name f)) with status := 4 }

def writtenFile? (s : EditStep) : Option String :=
  match s.action with
  | .writeFile path _ => some path
  | .substitute t => t.file
  | _ => none

/-- A disk on which the files that steps write to are empty. -/
def emptied (disk : Disk) (steps : List EditStep) : Except (String × DiskFault) Disk :=
  let files := (steps.filterMap writtenFile?).filter
    (fun p => p != "/dev/stdout" && p != "/dev/stderr")
  files.foldlM (fun d p => (d.write p []).mapError (fun f => (p, f))) disk

/-- The texts under some names edited as one. -/
def editTogether (c : Call) (steps : List EditStep) (isQuiet : Bool) (names : List String) :
    Reply :=
  let names := if names.isEmpty then ["-"] else names
  let all := names.map (fun n => (n, c.read n))
  let faults := all.filterMap (fun (n, r) => match r with
    | .error .isDirectory => some (c.complaint ("read error on " ++ n ++ ": Is a directory"), 4)
    | .error f => some (streamFault c n f)
    | .ok _ => none)
  let texts := all.filterMap (fun (_, r) => r.toOption)
  let joined := texts.dropLast.flatMap (fun t => if endsOpen t then t ++ ['\n'] else t)
    ++ (texts.getLast?).getD []
  let e := (Editing.start steps isQuiet joined c.disk).run
  let used := joined.length - e.left.foldl (fun n l => n + l.length + 1) 0
  let status := (faults.map Prod.snd).foldl max e.status
  { c.quiet status with
    writes := [(2, faults.flatMap Prod.fst), (1, e.output)]
    disk := e.disk
    rest := if names.any Call.isInput then c.leftAfter used 4096 else c.input }

/-- The lines of texts after an edit script. -/
def sed : Utility := fun c =>
  match Options.parse streamRules c.args with
  | .error e => { c.quiet 1 with writes := [(2, c.complaint e.message ++ streamUsage.toList)] }
  | .ok o =>
      let isGiven := o.has 'e' || o.has 'f'
      match isGiven, o.operands with
      | false, [] => { c.quiet 1 with writes := [(2, streamUsage.toList)] }
      | _, operands =>
          match scriptPieces c o with
          | .error (n, f) => c.refuse ("couldn't open file " ++ n ++ ": " ++ f.message) 4
          | .ok pieces =>
              let pieces := if isGiven then pieces else operands.take 1
              let names := if isGiven then operands else operands.drop 1
              match EditStep.parse (o.has 'E' || o.has 'r') pieces with
              | .error e => c.refuse e.message 1
              | .ok steps =>
                  let isQuiet := o.has 'n' || (pieces.headD "").startsWith "#n\n"
                  match emptied c.disk steps with
                  | .error (n, f) =>
                      c.refuse ("couldn't open file " ++ n ++ ": " ++ f.message) 4
                  | .ok disk =>
                      let c := { c with disk }
                      if o.has 'i' then editInPlace c steps isQuiet names (c.quiet 0)
                      else editTogether c steps isQuiet names

end ScanGraph.Shell.Utility
