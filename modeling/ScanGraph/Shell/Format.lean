/-
Formats: what `printf` and `echo` write.

A format is read into symbols first: octets that stand for themselves, among
them those written as escapes, and directives that an argument fills in.  The
format is used again as long as arguments are left.
-/
import ScanGraph.Shell.Format.Real
import ScanGraph.Shell.Octets

namespace ScanGraph.Shell

/-- A number in a directive: as it stands there, or the next argument. -/
inductive Amount where
  | number (n : Nat)
  | argument
deriving DecidableEq, Repr

/-- How an argument is written: its flags, its width, how much of it, and the letter that says
what it is. -/
structure Directive where
  flags : List Char
  width : Amount
  precision : Option Amount
  letter : Char
deriving DecidableEq, Repr

inductive Symbol where
  | octets (cs : List Char)
  | directive (d : Directive)
  /-- Nothing after this piece is written. -/
  | stop
  /-- No directive can be read; this is what is said. -/
  | fault (message : String)
deriving DecidableEq, Repr

namespace Format

/-! ## Escapes -/

def isOctal (c : Char) : Bool :=
  '0' ≤ c && c ≤ '7'

def octalChar (cs : List Char) : Char :=
  Char.ofNat (cs.foldl (fun n c => 8 * n + Text.digitValue c) 0 % 256)

def letterEscape? (c : Char) : Option Char :=
  match c with
  | 'a' => some '\x07'
  | 'b' => some '\x08'
  | 't' => some '\t'
  | 'n' => some '\n'
  | 'v' => some '\x0b'
  | 'f' => some '\x0c'
  | 'r' => some '\r'
  | 'e' => some '\x1b'
  | '\\' => some '\\'
  | _ => none

/-- What follows a backslash: the symbol, and how many characters it takes.  Up to three octal
digits make an octet; in the text of an argument a zero may stand before them, and a `c` ends what
is written. -/
def escape (inArgument : Bool) (cs : List Char) : Symbol × Nat :=
  match cs with
  | [] => (.octets ['\\'], 0)
  | c :: rest =>
      let zero := inArgument && c == '0' && rest.head?.any isOctal
      let digits := ((if zero then rest else cs).take 3).takeWhile isOctal
      if inArgument && c == 'c' then (.stop, 1)
      else if !digits.isEmpty then
        (.octets [octalChar digits], digits.length + (if zero then 1 else 0))
      else match letterEscape? c with
        | some e => (.octets [e], 1)
        | none => (.octets ['\\'], 0)

/-! ## Directives -/

/-- A width or a precision at the beginning, and what follows it. -/
def amount (cs : List Char) : Amount × List Char :=
  match cs with
  | '*' :: rest => (.argument, rest)
  | _ => (.number (Text.valueOf (cs.takeWhile Char.isDigit)), cs.dropWhile Char.isDigit)

/-- The letters that say what an argument is. -/
def letters : List Char :=
  "bcsdiouxXeEfFgG".toList

/-- The symbol after a percent sign, and how many characters it takes. -/
def directive (cs : List Char) : Symbol × Nat :=
  match cs with
  | '%' :: _ => (.octets ['%'], 1)
  | _ =>
      let flags := cs.takeWhile (fun c => ['-', '+', ' ', '0', '#'].contains c)
      let (width, rest) := amount (cs.drop flags.length)
      let (precision, rest) : Option Amount × List Char := match rest with
        | '.' :: rest =>
            let (p, rest) := amount rest
            (some p, rest)
        | _ => (none, rest)
      match rest with
      | c :: rest =>
          let length := cs.length - rest.length
          if letters.contains c then (.directive ⟨flags, width, precision, c⟩, length)
          else (.fault ("%" ++ String.ofList (cs.take length) ++ ": invalid directive"), length)
      | [] => (.fault "missing format character", cs.length)

/-- The symbols of a text, of which `skip` characters are passed. -/
def symbolsFrom (inArgument : Bool) : Nat → List Char → List Symbol
  | _, [] => []
  | skip + 1, _ :: cs => symbolsFrom inArgument skip cs
  | 0, c :: cs =>
      if c == '\\' then
        let (s, n) := escape inArgument cs
        s :: symbolsFrom inArgument n cs
      else if c == '%' && !inArgument then
        let (s, n) := directive cs
        s :: symbolsFrom inArgument n cs
      else .octets [c] :: symbolsFrom inArgument 0 cs

def symbols (format : String) : List Symbol :=
  symbolsFrom false 0 format.toList

/-- The symbols of a text that is written as it is but for its escapes. -/
def escapes (s : String) : List Symbol :=
  symbolsFrom true 0 s.toList

/-! ## Writing -/

/-- The characters up to a stop, and whether there is one. -/
def upToStop : List Symbol → List Char × Bool
  | [] => ([], false)
  | .stop :: _ => ([], true)
  | .octets cs :: rest =>
      let (more, stopped) := upToStop rest
      (cs ++ more, stopped)
  | _ :: rest => upToStop rest

/-- A number with the fault of the argument that spells it. -/
structure Reading (α : Type) where
  value : α
  fault : Option String

/-- What is wrong with an argument of which a part is left over. -/
def leftover (argument : String) (all rest : List Char) : Option String :=
  if rest.isEmpty then none
  else if rest.length = all.length then some (argument ++ ": expected numeric value")
  else some (argument ++ ": not completely converted")

/-- The base of a numeral that begins as given, and its digits. -/
def baseOf (cs : List Char) : Nat × List Char :=
  match cs with
  | '0' :: x :: d :: rest =>
      if x.toLower = 'x' && (Text.hexValue? d).isSome then (16, d :: rest) else (8, cs)
  | '0' :: _ => (8, cs)
  | _ => (10, cs)

/-- The number at the beginning of a text without its sign, and what follows it. -/
def readMagnitude? (cs : List Char) : Option (Nat × List Char) :=
  let (base, ds) := baseOf cs
  let digits := ds.takeWhile (fun c => (Text.hexValue? c).any (· < base))
  if digits.isEmpty then none
  else some (digits.foldl (fun n c => base * n + (Text.hexValue? c).getD 0) 0,
    ds.drop digits.length)

/-- The whole number at the beginning of a text after blanks, and what follows it. -/
def readWhole? (cs : List Char) : Option (Int × List Char) :=
  match cs.dropWhile (fun c => c = ' ' || ('\t' ≤ c && c ≤ '\r')) with
  | '-' :: rest => (readMagnitude? rest).map (fun (n, left) => (-(n : Int), left))
  | '+' :: rest => (readMagnitude? rest).map (fun (n, left) => ((n : Int), left))
  | rest => (readMagnitude? rest).map (fun (n, left) => ((n : Int), left))

/-- The greatest number of 64 bits with a sign. -/
def greatest : Int := 9223372036854775807

/-- The whole number that an argument spells, between bounds; a quote stands for the character
after it. -/
def wholeOf (low high : Int) (argument : String) : Reading Int :=
  let cs := argument.toList
  let quoted (rest : List Char) : Reading Int := ⟨((rest.head?.map Char.toNat).getD 0 : Nat), none⟩
  match cs with
  | '\'' :: rest => quoted rest
  | '"' :: rest => quoted rest
  | _ =>
      match readWhole? cs with
      | none => ⟨0, leftover argument cs cs⟩
      | some (n, rest) =>
          let kept := max low (min high n)
          ⟨kept, (leftover argument cs rest).or
            (if kept = n then none else some (argument ++ ": Numerical result out of range"))⟩

/-- The whole number that an argument spells for a directive with a sign. -/
def signedOf (argument : String) : Reading Int :=
  wholeOf (-greatest - 1) greatest argument

/-- The whole number that an argument spells for a directive without one; a number below zero
counts from the top of 64 bits. -/
def unsignedOf (argument : String) : Reading Int :=
  let top : Int := UInt64.size
  let r := wholeOf (1 - top) (top - 1) argument
  { r with value := r.value % top }

def realOf (argument : String) : Reading Real :=
  let cs := argument.toList
  let quoted (rest : List Char) : Reading Real :=
    ⟨.finite false (.ofNat ((rest.head?.map Char.toNat).getD 0)), none⟩
  match cs with
  | '\'' :: rest => quoted rest
  | '"' :: rest => quoted rest
  | _ =>
      match Real.read? cs with
      | none => ⟨.zero, leftover argument cs cs⟩
      | some (r, rest) => ⟨r, leftover argument cs rest⟩

structure Layout where
  flags : List Char
  width : Nat
  precision : Option Nat
  letter : Char

namespace Layout

def has (l : Layout) (flag : Char) : Bool :=
  l.flags.contains flag

def sign (l : Layout) (isNegative : Bool) : List Char :=
  if isNegative then ['-']
  else if l.has '+' then ['+']
  else if l.has ' ' then [' ']
  else []

/-- What stands in front of digits, and they, filled up to the width, with zeros between them if
the layout admits them. -/
def filled (l : Layout) (zeros : Bool) (front ds : List Char) : List Char :=
  let missing := l.width - (front.length + ds.length)
  if l.has '-' then front ++ ds ++ List.replicate missing ' '
  else if l.has '0' && zeros then front ++ List.replicate missing '0' ++ ds
  else List.replicate missing ' ' ++ front ++ ds

/-- Digits with zeros in front up to the precision; no digit at all is written of a zero without
places. -/
def digits (l : Layout) (n : Nat) (ds : List Char) : List Char :=
  if n = 0 && l.precision == some 0 then []
  else List.replicate (l.precision.getD 0 - ds.length) '0' ++ ds

def whole (l : Layout) (n : Int) : List Char :=
  let m := n.natAbs
  let zeros := l.precision.isNone
  match l.letter with
  | 'o' =>
      let ds := l.digits m (Nat.toDigits 8 m)
      l.filled zeros (if l.has '#' && ds.head? != some '0' then ['0'] else []) ds
  | 'x' => l.filled zeros (if l.has '#' && m != 0 then ['0', 'x'] else [])
      (l.digits m (Nat.toDigits 16 m))
  | 'X' => l.filled zeros (if l.has '#' && m != 0 then ['0', 'X'] else [])
      (l.digits m ((Nat.toDigits 16 m).map Char.toUpper))
  | 'u' => l.filled zeros [] (l.digits m (Text.decimal m))
  | _ => l.filled zeros (l.sign (n < 0)) (l.digits m (Text.decimal m))

def real (l : Layout) (r : Real) : List Char :=
  let cs := r.chars l.letter l.precision (l.has '#')
  let finite := match r with
    | .finite _ _ => true
    | _ => false
  l.filled finite (l.sign r.isNegative) (if l.letter.isUpper then cs.map Char.toUpper else cs)

def text (l : Layout) (cs : List Char) : List Char :=
  let cs := match l.precision with
    | some n => cs.take n
    | none => cs
  l.filled false [] cs

end Layout

/-- What was written, what was said about arguments, the arguments left, and whether nothing
follows. -/
structure Progress where
  out : List Char
  faults : List String
  left : List String
  stopped : Bool

/-- What is written of an argument for a layout. -/
def fill (l : Layout) (argument : String) : Progress :=
  let done (out : List Char) (fault : Option String) : Progress := ⟨out, fault.toList, [], false⟩
  if l.letter == 'b' then
    let (cs, stopped) := upToStop (escapes argument)
    ⟨l.text cs, [], [], stopped⟩
  else if l.letter == 'c' then
    done ({ l with precision := none }.text [argument.toList.head?.getD '\x00']) none
  else if l.letter == 's' then done (l.text argument.toList) none
  else if l.letter == 'd' || l.letter == 'i' then
    let r := signedOf argument
    done (l.whole r.value) r.fault
  else if ['o', 'u', 'x', 'X'].contains l.letter then
    let r := unsignedOf argument
    done (l.whole r.value) r.fault
  else
    let r := realOf argument
    done (l.real r.value) r.fault

/-- An amount with the arguments it leaves; one below zero counts as its magnitude. -/
def amountOf (a : Amount) (args : List String) : Int × List String :=
  match a with
  | .number n => (n, args)
  | .argument =>
      match args with
      | a :: rest => ((signedOf a).value, rest)
      | [] => (0, [])

/-- The layout of a directive, and the arguments it leaves. -/
def layoutOf (d : Directive) (args : List String) : Layout × List String :=
  let (width, args) := amountOf d.width args
  let flags := if width < 0 then '-' :: d.flags else d.flags
  match d.precision with
  | none => (⟨flags, width.natAbs, none, d.letter⟩, args)
  | some p =>
      let (precision, args) := amountOf p args
      (⟨flags, width.natAbs, if precision < 0 then none else some precision.toNat, d.letter⟩, args)

def once : List Symbol → List String → Progress
  | [], args => ⟨[], [], args, false⟩
  | .stop :: _, args => ⟨[], [], args, true⟩
  | .fault message :: _, args => ⟨[], [message], args, true⟩
  | .octets cs :: rest, args =>
      let more := once rest args
      { more with out := cs ++ more.out }
  | .directive d :: rest, args =>
      let (layout, args) := layoutOf d args
      let p := fill layout (args.headD "")
      if p.stopped then { p with left := args.tail }
      else
        let more := once rest args.tail
        { more with out := p.out ++ more.out, faults := p.faults ++ more.faults }

/-- A format used until no argument is left, at most `fuel` times. -/
def repeated (format : List Symbol) : Nat → List String → Progress
  | 0, args => ⟨[], [], args, true⟩
  | fuel + 1, args =>
      let p := once format args
      if p.stopped || p.left.isEmpty || p.left.length == args.length then p
      else
        let more := repeated format fuel p.left
        { more with out := p.out ++ more.out, faults := p.faults ++ more.faults }

/-- What a format writes for some arguments, what it says about them, and its status. -/
structure Printed where
  out : List Char
  faults : List String
  status : Nat

/-- What a format writes for some arguments. -/
def printed (format : String) (args : List String) : Printed :=
  let symbols := symbols format
  let p := repeated symbols (args.length + 1) args
  let broken := symbols.any (fun
    | .fault _ => p.stopped
    | _ => false)
  ⟨p.out, p.faults, if broken then 2 else if p.faults.isEmpty then 0 else 1⟩

/-- What `echo` writes: its arguments between spaces, and a line feed unless the first is `-n`. -/
def echoed (args : List String) : List Char :=
  let (args, ending) : List String × List Char := match args with
    | "-n" :: rest => (rest, [])
    | _ => (args, ['\n'])
  let (cs, stopped) := upToStop (escapes (" ".intercalate args))
  if stopped then cs else cs ++ ending

end Format

end ScanGraph.Shell
