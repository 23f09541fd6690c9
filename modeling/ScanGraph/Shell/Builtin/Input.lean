/-
Reading lines and options: `read` and `getopts`.
-/
import ScanGraph.Shell.Builtin.Options

namespace ScanGraph.Shell.Builtin

open Run

/-! ## Lines -/

/-- Characters of a line; those after a backslash are never separators. -/
abbrev Line := List (Char × Bool)

/-- The line at the beginning of an input, what follows it, and whether it ends.  A backslash takes
the meaning of the character after it away, and goes on over the end of a line, unless lines are
read as they are. -/
def lineOf (isRaw : Bool) : List UInt8 → Line × List UInt8 × Bool
  | [] => ([], [], false)
  | b :: rest =>
      if b == 10 then ([], rest, true)
      else if b == 92 && !isRaw then
        match rest with
        | [] => ([], [], false)
        | 10 :: more => lineOf isRaw more
        | c :: more =>
            let (line, left, ends) := lineOf isRaw more
            ((charOf c, true) :: line, left, ends)
      else
        let (line, left, ends) := lineOf isRaw rest
        (if b == 0 then line else (charOf b, false) :: line, left, ends)

/-- A line on its way into fields: the fields so far, last first; the characters of the one at
hand, last first; how many more fields may be cut off; where the last field ends if nothing but
separators follow, as a number of its characters; and whether blanks have just been passed. -/
structure Cutting where
  fields : List (List Char)
  current : List Char
  left : Nat
  finish : Option Nat
  afterBlank : Bool

def isBlank (c : Char) : Bool :=
  c == ' ' || c == '\t' || c == '\n'

def Cutting.add (separators : List Char) (k : Cutting) : Char × Bool → Cutting
  | (c, isEscaped) =>
      let isSeparator := !isEscaped && separators.contains c
      let isBlank := isSeparator && isBlank c
      let kept : Cutting := { k with current := c :: k.current }
      if k.left = 0 then
        if isBlank then { kept with finish := k.finish.or (some k.current.length) }
        else
          { kept with
            finish := if isSeparator && k.afterBlank then k.finish else none
            afterBlank := false }
      else if k.afterBlank && isBlank then { k with current := [] }
      else if k.afterBlank && isSeparator then { k with current := [], afterBlank := false }
      else
        let k : Cutting := if k.afterBlank then { k with current := [] } else k
        if !isSeparator then { k with current := c :: k.current, afterBlank := false }
        else if isBlank && k.current.isEmpty then { k with afterBlank := false }
        else if k.left = 1 then
          { k with
            current := c :: k.current
            left := 0
            finish := some k.current.length
            afterBlank := isBlank }
        else
          { k with
            fields := k.current :: k.fields
            current := []
            left := k.left - 1
            afterBlank := isBlank }

/-- The fields of a line, at most so many. -/
def fieldsOf (separators : List Char) (most : Nat) (line : Line) : List (List Char) :=
  let k := line.foldl (Cutting.add separators) ⟨[], [], most, none, false⟩
  let last := k.current.reverse
  let last := match k.finish with
    | some n => last.take n
    | none => last
  let fields := if last.isEmpty then k.fields else last.reverse :: k.fields
  (fields.map List.reverse).reverse

/-- Variables get fields; those for which there is none are empty. -/
def assignFields : List String → List (List Char) → Run Unit
  | [], _ => return ()
  | name :: rest, fields => do
      if !isName name then fail (name ++ ": bad variable name") 2
      assign name (String.ofList (fields.headD []))
      assignFields rest fields.tail

/-- A line of the input is cut into fields. -/
def read : Builtin := fun _ _ args => do
  let (os, names) ← optionsOf "r" "p" args
  if names.isEmpty then fail "arg count" 2
  let (line, left, ends) := lineOf (given os 'r') (← input 0)
  leave 0 left
  assignFields names (fieldsOf (← separators) names.length line)
  done (if ends then 0 else 1)

/-! ## Options -/

/-- What `getopts` finds: the letter it reports, the value of the option, what is said, the next
argument, and the place in its group of letters. -/
structure OptionFound where
  letter : Char
  value : Option String
  said : Option String
  next : Nat
  place : Nat

/-- The option at an argument, at a place in its group; none at the end of options.  The next
argument counts as the one to read next as soon as a letter of a group is read. -/
def optionAt? (letters : List Char) (isSilent : Bool) (args : List String) (index place : Nat) :
    Option OptionFound :=
  match args[index - 1]? with
  | none => none
  | some a =>
      let cs := a.toList
      let place := if place = 0 || cs.length ≤ place then 1 else place
      match cs.head?, cs[place]? with
      | some '-', some l =>
          if a == "--" then none
          else
            let isLast := cs.length ≤ place + 1
            let next := index + 1
            let goesOn := if isLast then 0 else place + 1
            match letters.findIdx? (· == l) with
            | none =>
                some ⟨'?', if isSilent then some l.toString else none,
                  if isSilent then none else some ("Illegal option -" ++ l.toString), next, goesOn⟩
            | some k =>
                if l == ':' then
                  some ⟨'?', if isSilent then some ":" else none,
                    if isSilent then none else some "Illegal option -:", next, goesOn⟩
                else if letters[k + 1]? == some ':' then
                  if !isLast then
                    some ⟨l, some (String.ofList (cs.drop (place + 1))), none, index + 1, 0⟩
                  else match args[index]? with
                    | some v => some ⟨l, some v, none, index + 2, 0⟩
                    | none =>
                        if isSilent then some ⟨':', some l.toString, none, index + 1, 0⟩
                        else some ⟨'?', none,
                          some ("No arg for -" ++ l.toString ++ " option"), index + 1, 0⟩
                else some ⟨l, none, none, next, goesOn⟩
      | _, _ => none

/-- The next option of the arguments, of the script or those given. -/
def getopts : Builtin := fun _ _ args => do
  match args with
  | spelled :: name :: given => do
      let s ← get
      let args := if given.isEmpty then s.arguments else given
      let index := max 1 (((← known "OPTIND").value.bind (fun v => Text.natural? v.toList)).getD 1)
      let isSilent := spelled.startsWith ":"
      let letters := if isSilent then spelled.toList.drop 1 else spelled.toList
      let index := if s.optionPlace = 0 then index else index - 1
      match optionAt? letters isSilent args index s.optionPlace with
      | some f => do
          match f.said with
          | some said => emit 2 (said ++ "\n")
          | none => pure ()
          match f.value with
          | some v => assign "OPTARG" v
          | none => setVariable "OPTARG" Run.unset
          assign "OPTIND" (Text.decimalText f.next)
          modify (fun s => { s with optionPlace := f.place })
          assign name f.letter.toString
          done 0
      | none => do
          let index := if args[index - 1]? == some "--" then index + 1 else index
          setVariable "OPTARG" Run.unset
          assign "OPTIND" (Text.decimalText index)
          modify (fun s => { s with optionPlace := 0 })
          assign name "?"
          done 1
  | _ => fail "Usage: getopts optstring var [arg...]" 2

end ScanGraph.Shell.Builtin
