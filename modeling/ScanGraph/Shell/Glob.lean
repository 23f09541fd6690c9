/-
Globs: the patterns of scripts.

In a glob a star stands for any text, a question mark for any character, and a
bracket for one of some characters; what is quoted stands for itself.  A glob
matches whole texts, and the paths on a disk part by part.
-/
import ScanGraph.Shell.Disk
import ScanGraph.Shell.Pattern.Reader

namespace ScanGraph.Shell

/-- A text of which each character is quoted or not. -/
abbrev Glob := List (Char × Bool)

namespace Glob

def text (g : Glob) : List Char :=
  g.map Prod.fst

/-- Some character has a meaning of its own. -/
def isActive (g : Glob) : Bool :=
  g.any (fun (c, q) => !q && ['*', '?', '['].contains c)

/-- The name of a class of characters after its first colon, and what follows it. -/
def className? (g : Glob) : Option (String × Glob) :=
  let name := g.takeWhile (fun (c, _) => c.isAlpha)
  match g.drop name.length with
  | (':', false) :: (']', false) :: rest => some (String.ofList (text name), rest)
  | _ => none

/-- The members of a bracket up to the one that closes it, and what follows; at most `fuel`. -/
def members : Nat → Bool → Glob → Option (List (Char × Char) × Glob)
  | 0, _, _ => none
  | fuel + 1, first, g =>
      let single (c : Char) (rest : Glob) : Option (List (Char × Char) × Glob) :=
        (members fuel false rest).map (fun (rs, left) => ((c, c) :: rs, left))
      match g with
      | [] => none
      | ('[', false) :: (':', false) :: rest =>
          match className? rest with
          | some (name, left) =>
              (members fuel false left).map (fun (rs, left) =>
                ((Pattern.classRanges? name).getD [] ++ rs, left))
          | none => single '[' ((':', false) :: rest)
      | (c, q) :: rest =>
          if c == ']' && !q && !first then some ([], rest)
          else match rest with
            | ('-', false) :: (']', false) :: _ => single c rest
            | ('-', false) :: (d, _) :: left =>
                (members fuel false left).map (fun (rs, left) => ((c, d) :: rs, left))
            | _ => single c rest

/-- The set of a bracket after its first sign, and what follows it. -/
def bracket? (g : Glob) : Option (CharSet × Glob) :=
  let set (negated : Bool) (g : Glob) : Option (CharSet × Glob) :=
    (members (g.length + 1) true g).map (fun (rs, left) => (⟨rs, negated, false⟩, left))
  match g with
  | ('!', false) :: rest => set true rest
  | ('^', false) :: rest => set true rest
  | _ => set false g

/-- The pattern of a glob, of which at most `fuel` characters are read. -/
def patternFrom : Nat → Glob → Pattern
  | 0, _ => .empty
  | _ + 1, [] => .empty
  | fuel + 1, (c, q) :: rest =>
      let plain : Pattern := .seqOf (.one (.single false c)) (patternFrom fuel rest)
      if q then plain
      else if c == '*' then .seqOf (.many (.one .everything)) (patternFrom fuel rest)
      else if c == '?' then .seqOf (.one .everything) (patternFrom fuel rest)
      else if c == '[' then
        match bracket? rest with
        | some (s, left) => .seqOf (.one s) (patternFrom fuel left)
        | none => plain
      else plain

def pattern (g : Glob) : Pattern :=
  patternFrom (g.length + 1) g

def admits (g : Glob) (cs : List Char) : Bool :=
  g.pattern.matchesAll cs

/-- What is left of a value after the part that a glob matches is cut off. -/
def trimmed (g : Glob) (atEnd longest : Bool) (value : List Char) : List Char :=
  let p := g.pattern
  let fits := if atEnd then
      (List.range (value.length + 1)).filter (fun n => p.matchesAll (value.drop (value.length - n)))
    else (p.lengths none value none).reverse
  match if longest then fits.getLast? else fits.head? with
  | some n => if atEnd then value.take (value.length - n) else value.drop n
  | none => value

/-! ## Paths -/

/-- A path found so far: as it is written, and the place it leads to. -/
abbrev Trail := String × List String

/-- The trails that go on with a part of a path. -/
def extended (d : Disk) (part : Glob) (isLast : Bool) (t : Trail) : List Trail :=
  let join (name : String) : String :=
    if t.1.isEmpty || t.1.endsWith "/" then t.1 ++ name else t.1 ++ "/" ++ name
  if part.isActive then
    let hidden := part.head?.any (fun (c, _) => c == '.')
    let named := (d.childrenOf t.2).filter (fun place =>
      match place.getLast? with
      | some name => (hidden || !name.startsWith ".") && part.admits name.toList
          && (isLast || d.kindAt? place == some .directory)
      | none => false)
    named.map (fun place => (join (place.getLast?.getD ""), place))
  else
    let name := String.ofList part.text
    let place := t.2 ++ [name]
    if (d.kindAt? place).isSome then [(join name, place)] else []

/-- The trails that go on with the parts of a path. -/
def trails (d : Disk) : List Glob → List Trail → List Trail
  | [], ts => ts
  | part :: rest, ts =>
      if part.isEmpty then trails d rest ts
      else trails d rest (ts.flatMap (extended d part rest.isEmpty))

/-- The paths on a disk that a glob matches, in order. -/
def paths (d : Disk) (g : Glob) : List String :=
  let parts := g.splitOnP (fun (c, _) => c == '/')
  let start : Trail := if g.head?.any (fun (c, _) => c == '/') then ("/", []) else ("", d.place)
  ((trails d parts [start]).map Prod.fst).mergeSort (fun a b => decide (a ≤ b))

/-- The words that a glob stands for: the paths it matches, or itself. -/
def words (d : Disk) (g : Glob) : List String :=
  if g.isActive then
    match paths d g with
    | [] => [String.ofList g.text]
    | found => found
  else [String.ofList g.text]

end Glob

end ScanGraph.Shell
