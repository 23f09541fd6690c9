/-
Conditions: what `test` says of its arguments.

A condition is made of texts, numbers and files compared, joined by `-a`, `-o`
and `!`, and parentheses.  What an argument is depends on those around it: a
word that could be an operator is an operand where an operand must stand.
-/
import ScanGraph.Shell.Arithmetic
import ScanGraph.Shell.Disk

namespace ScanGraph.Shell

inductive ConditionOp where
  | unary (letter : Char)
  | binary (sign : String)
  | not
  | andAlso
  | orElse
  | opens
  | closes
deriving DecidableEq, Repr

namespace Condition

/-- The operator that an argument spells. -/
def operator? (s : String) : Option ConditionOp :=
  match s.toList with
  | ['-', c] =>
      if "rwxefdcbpugkstznhOGLS".toList.contains c then some (.unary c)
      else if c == 'a' then some .andAlso
      else if c == 'o' then some .orElse
      else none
  | _ =>
      if ["=", "!=", "<", ">", "-eq", "-ne", "-ge", "-gt", "-le", "-lt", "-nt", "-ot",
          "-ef"].contains s then some (.binary s)
      else if s == "!" then some .not
      else if s == "(" then some .opens
      else if s == ")" then some .closes
      else none

/-- What a condition comes to from a place on: whether it holds, and the place of the last
argument that was read. -/
abbrev Read := Except String (Bool × Nat)

def argument? (args : Array String) (i : Nat) : Option String :=
  args[i]?

/-- An operator in front of its operand is itself an operand if nothing follows it, or if what
follows could only be a comparison of it. -/
def standsAlone (args : Array String) (i : Nat) : Bool :=
  match argument? args (i + 1), argument? args (i + 2) with
  | none, _ => true
  | some _, none => false
  | some s, some _ =>
      match operator? s with
      | some (.binary _) => true
      | _ => false

def operatorAt? (args : Array String) (i : Nat) : Option ConditionOp :=
  match argument? args i with
  | none => none
  | some s =>
      match operator? s with
      | some (.unary c) => if standsAlone args i then none else some (.unary c)
      | some .opens => if (argument? args (i + 1)).isNone then none else some .opens
      | op => op

def number (s : String) : Except String Int :=
  match Arithmetic.numberOf (if s.isEmpty then "x" else s) with
  | .ok n =>
      if (s.toList.filter (fun c => c.isAlpha)).isEmpty then .ok n
      else .error ("Illegal number: " ++ s)
  | .error _ => .error ("Illegal number: " ++ s)

/-- What an operator says of one operand. -/
def single (d : Disk) (letter : Char) (s : String) : Bool :=
  let kind := d.kind? s
  match letter with
  | 'z' => s.isEmpty
  | 'n' => !s.isEmpty
  | 't' => false
  | 'f' => kind == some .file || kind == some .program
  | 'd' => kind == some .directory
  | 'c' => kind == some .device
  | 's' =>
      match kind, d.read s with
      | some .directory, _ => true
      | some .program, _ => true
      | some .file, .ok content => !content.isEmpty
      | _, _ => false
  | 'x' => kind == some .directory || kind == some .program
  | 'e' => kind.isSome
  | 'r' => kind.isSome
  | 'w' => kind.isSome
  | 'O' => kind.isSome
  | 'G' => kind.isSome
  | _ => false

/-- What an operator says of two operands. -/
def comparison (d : Disk) (sign a b : String) : Except String Bool := do
  let numbers (f : Int → Int → Bool) : Except String Bool := do
    .ok (f (← number a) (← number b))
  match sign with
  | "=" => .ok (a == b)
  | "!=" => .ok (a != b)
  | "<" => .ok (decide (a < b))
  | ">" => .ok (decide (b < a))
  | "-eq" => numbers (fun x y => x == y)
  | "-ne" => numbers (fun x y => x != y)
  | "-ge" => numbers (fun x y => decide (y ≤ x))
  | "-gt" => numbers (fun x y => decide (y < x))
  | "-le" => numbers (fun x y => decide (x ≤ y))
  | "-lt" => numbers (fun x y => decide (x < y))
  | "-ef" =>
      match d.placeOf a, d.placeOf b with
      | .ok p, .ok q => .ok (p == q && (d.kindAt? p).isSome)
      | _, _ => .ok false
  | _ => .ok false

/-- How conditions are read inside of parentheses, with the operator at their beginning. -/
abbrev Inner := Option ConditionOp → Nat → Read

/-- A primary condition at a place whose operator is known. -/
def primary (d : Disk) (args : Array String) (inner : Inner) (op : Option ConditionOp)
    (i : Nat) : Read :=
  match argument? args i with
  | none => .ok (false, i)
  | some s =>
      match op with
      | some .opens =>
          match operatorAt? args (i + 1) with
          | some .closes => .ok (false, i + 1)
          | op => do
              let (b, i) ← inner op (i + 1)
              if operatorAt? args (i + 1) == some .closes then .ok (b, i + 1)
              else .error "closing paren expected"
      | some (.unary letter) =>
          match argument? args (i + 1) with
          | none => .error (s ++ ": argument expected")
          | some a => .ok (single d letter a, i + 1)
      | _ =>
          match operatorAt? args (i + 1), argument? args (i + 2) with
          | some (.binary sign), none => .error (sign ++ ": argument expected")
          | some (.binary sign), some b =>
              (comparison d sign s b).map (fun holds => (holds, i + 2))
          | _, _ => .ok (!s.isEmpty, i)

/-- A condition that may be turned around, at most `fuel` times. -/
def negation (d : Disk) (args : Array String) (inner : Inner) :
    Nat → Option ConditionOp → Nat → Read
  | 0, _, i => .ok (false, i)
  | fuel + 1, op, i =>
      if op == some .not then
        let next := operatorAt? args (i + 1)
        let isLast := (argument? args (i + 1)).isNone
        (negation d args inner fuel next (i + 1)).map
          (fun (b, j) => (!b, if isLast then i else j))
      else primary d args inner op i

/-- Conditions that must all hold, at most `fuel`. -/
def conjunction (d : Disk) (args : Array String) (inner : Inner) :
    Nat → Option ConditionOp → Nat → Read
  | 0, _, i => .ok (false, i)
  | fuel + 1, op, i => do
      let (a, i) ← negation d args inner (args.size + 1) op i
      if operatorAt? args (i + 1) == some .andAlso then
        let (b, i) ← conjunction d args inner fuel (operatorAt? args (i + 2)) (i + 2)
        .ok (a && b, i)
      else .ok (a, i)

/-- Conditions of which one must hold, at most `fuel`. -/
def disjunction (d : Disk) (args : Array String) (inner : Inner) :
    Nat → Option ConditionOp → Nat → Read
  | 0, _, i => .ok (false, i)
  | fuel + 1, op, i => do
      let (a, i) ← conjunction d args inner (args.size + 1) op i
      if operatorAt? args (i + 1) == some .orElse then
        let (b, i) ← disjunction d args inner fuel (operatorAt? args (i + 2)) (i + 2)
        .ok (a || b, i)
      else .ok (a, i)

/-- A condition inside of at most `fuel` parentheses. -/
def condition (d : Disk) (args : Array String) : Nat → Inner
  | 0 => fun _ i => .ok (false, i)
  | fuel + 1 => disjunction d args (condition d args fuel) (args.size + 1)

/-- A condition from the first of some arguments to the last. -/
def whole (d : Disk) (args : List String) (op : Option ConditionOp) : Except String Bool := do
  let array := args.toArray
  let (b, i) ← condition d array (args.length + 1) op 0
  match argument? array i, argument? array (i + 1) with
  | some s, some _ => .error (s ++ ": unexpected operator")
  | _, _ => .ok b

/-- What `test` says of its arguments: three of them are a comparison first of all, and of up to
four the outermost parentheses or a `!` are taken off first. -/
def evaluate (d : Disk) : Nat → List String → Except String Bool
  | _, [] => .ok false
  | 0, _ => .ok false
  | fuel + 1, args =>
      let first := args.head?
      let compares := match args with
        | [_, s, _] =>
            match operator? s with
            | some (.binary _) => true
            | _ => false
        | _ => false
      let short := args.length == 3 || args.length == 4
      if compares then whole d args none
      else if short && first == some "(" && args.getLast? == some ")" then
        evaluate d fuel (args.tail.dropLast)
      else if short && first == some "!" then (evaluate d fuel args.tail).map (!·)
      else whole d args (operatorAt? args.toArray 0)

/-- What `test` says of its arguments, which for `[` end with a bracket. -/
def run (d : Disk) (command : String) (args : List String) : Except String Bool :=
  if command == "[" then
    if args.getLast? == some "]" then evaluate d 3 args.dropLast else .error "missing ]"
  else evaluate d 3 args

end Condition

end ScanGraph.Shell
