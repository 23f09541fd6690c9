/-
Arithmetic of scripts.

An expression is made of numbers, variables and operators on whole numbers of
64 bits with a sign, which wrap around.  What is not asked for is not
evaluated: the second operand of `&&` and `||`, and one branch of a choice.
Evaluating reads variables, and assignments are remembered in order.

Dividing by nought is a fault of the whole expression.  Expressions may stand in one
another up to `greatestDepth`, which is what makes reading them structural; no script
that is played comes near it.
-/
import ScanGraph.Shell.Format

namespace ScanGraph.Shell

inductive ArithmeticFault where
  | noOperand
  | notFinished
  | noParenthesis
  | noColon
  | dividedByZero
  /-- The value of a variable is no number. -/
  | badNumber (text : String)
deriving DecidableEq, Repr

/-- What is said of an expression that has no value. -/
def ArithmeticFault.message (expression : String) : ArithmeticFault → String
  | noOperand => "arithmetic expression: expecting primary: \"" ++ expression ++ "\""
  | notFinished => "arithmetic expression: expecting EOF: \"" ++ expression ++ "\""
  | noParenthesis => "arithmetic expression: expecting ')': \"" ++ expression ++ "\""
  | noColon => "arithmetic expression: expecting ':': \"" ++ expression ++ "\""
  | dividedByZero => "arithmetic expression: division by zero: \"" ++ expression ++ "\""
  | badNumber text => "Illegal number: " ++ text

inductive UnaryOp where
  | same
  | minus
  | not
  | complement
deriving DecidableEq, Repr

/-- An operator with two operands, both of which are evaluated. -/
inductive BinaryOp where
  | times
  | quotient
  | remainder
  | plus
  | minus
  | shiftLeft
  | shiftRight
  | less
  | atMost
  | greater
  | atLeast
  | equal
  | different
  | bitAnd
  | bitXor
  | bitOr
deriving DecidableEq, Repr

inductive Expr where
  | number (n : Int)
  | named (name : String)
  | unary (op : UnaryOp) (a : Expr)
  | binary (op : BinaryOp) (a b : Expr)
  | both (a b : Expr)
  | either (a b : Expr)
  | choice (a b c : Expr)
  /-- A variable is set, to the value of an operator on what it was if one is given. -/
  | assign (name : String) (op : Option BinaryOp) (a : Expr)
deriving Repr

namespace Arithmetic

/-! ## Tokens -/

inductive Token where
  | number (n : Int)
  | name (s : String)
  | sign (s : String)
deriving DecidableEq, Repr

/-- The signs, a longer one before those it begins with. -/
def signs : List String :=
  ["<<=", ">>=", "&&", "||", "==", "!=", "<=", ">=", "<<", ">>", "+=", "-=", "*=", "/=", "%=",
   "&=", "^=", "|=", "+", "-", "*", "/", "%", "<", ">", "=", "!", "~", "&", "|", "^", "?", ":",
   "(", ")"]

/-- The whole numbers of 64 bits with a sign, at the ends of which numbers wrap around. -/
def wrap (n : Int) : Int :=
  Int.bmod n UInt64.size

/-- The tokens of a text, of which `skip` characters are passed; what is none is a sign of its
own. -/
def tokensFrom : Nat → List Char → List Token
  | _, [] => []
  | skip + 1, _ :: cs => tokensFrom skip cs
  | 0, c :: cs =>
      if c == ' ' || c == '\t' || c == '\n' then tokensFrom 0 cs
      else if c.isDigit then
        match Format.readMagnitude? (c :: cs) with
        | some (n, left) =>
            .number (min n Format.greatest) :: tokensFrom (cs.length - left.length) cs
        | none => .number 0 :: tokensFrom 0 cs
      else if c.isAlpha || c == '_' then
        let name := (c :: cs).takeWhile (fun c => c.isAlphanum || c == '_')
        .name (String.ofList name) :: tokensFrom (name.length - 1) cs
      else match signs.find? (fun s => s.toList.isPrefixOf (c :: cs)) with
        | some s => .sign s :: tokensFrom (s.length - 1) cs
        | none => .sign c.toString :: tokensFrom 0 cs

/-! ## Expressions -/

/-- The operator of a sign, and how closely it binds. -/
def binaryOf? (s : String) : Option (BinaryOp × Nat) :=
  match s with
  | "*" => some (.times, 8)
  | "/" => some (.quotient, 8)
  | "%" => some (.remainder, 8)
  | "+" => some (.plus, 7)
  | "-" => some (.minus, 7)
  | "<<" => some (.shiftLeft, 6)
  | ">>" => some (.shiftRight, 6)
  | "<" => some (.less, 5)
  | "<=" => some (.atMost, 5)
  | ">" => some (.greater, 5)
  | ">=" => some (.atLeast, 5)
  | "==" => some (.equal, 4)
  | "!=" => some (.different, 4)
  | "&" => some (.bitAnd, 3)
  | "^" => some (.bitXor, 2)
  | "|" => some (.bitOr, 1)
  | _ => none

/-- The operator that a sign assigns with. -/
def assigning? (s : String) : Option (Option BinaryOp) :=
  match s with
  | "=" => some none
  | "*=" => some (some .times)
  | "/=" => some (some .quotient)
  | "%=" => some (some .remainder)
  | "+=" => some (some .plus)
  | "-=" => some (some .minus)
  | "<<=" => some (some .shiftLeft)
  | ">>=" => some (some .shiftRight)
  | "&=" => some (some .bitAnd)
  | "^=" => some (some .bitXor)
  | "|=" => some (some .bitOr)
  | _ => none

/-- The operator that a sign is in front of its operand. -/
def unaryOf? (s : String) : Option UnaryOp :=
  match s with
  | "+" => some .same
  | "-" => some .minus
  | "!" => some .not
  | "~" => some .complement
  | _ => none

/-- What reading a part of an expression comes to: it, and the tokens left. -/
abbrev Read := Except ArithmeticFault (Expr × List Token)

/-- How whole expressions are read inside of parentheses. -/
abbrev Inner := List Token → Read

/-- An operand: a number, a variable, or an expression between parentheses, after operators. -/
def operand (inner : Inner) : Nat → List Token → Read
  | 0, _ => .error .noOperand
  | _ + 1, .number n :: rest => .ok (.number n, rest)
  | _ + 1, .name s :: rest => .ok (.named s, rest)
  | fuel + 1, .sign s :: rest =>
      if s == "(" then do
        let (a, left) ← inner rest
        match left with
        | .sign ")" :: left => .ok (a, left)
        | _ => .error .noParenthesis
      else match unaryOf? s with
        | some op => (operand inner fuel rest).map (fun (a, left) => (.unary op a, left))
        | none => .error .noOperand
  | _, [] => .error .noOperand

/-- The binary operators after an operand that bind at least as closely as `least`. -/
def binaryFrom (inner : Inner) : Nat → Nat → Expr → List Token → Read
  | 0, _, a, ts => .ok (a, ts)
  | fuel + 1, least, a, ts =>
      match ts with
      | .sign s :: rest =>
          match binaryOf? s with
          | some (op, level) =>
              if level < least then .ok (a, ts)
              else do
                let (b, left) ← operand inner (rest.length + 1) rest
                let (b, left) ← binaryFrom inner fuel (level + 1) b left
                binaryFrom inner fuel least (.binary op a b) left
          | none => .ok (a, ts)
      | _ => .ok (a, ts)

def binary (inner : Inner) (ts : List Token) : Read := do
  let (a, left) ← operand inner (ts.length + 1) ts
  binaryFrom inner (2 * ts.length + 2) 1 a left

def conjunction (inner : Inner) : Nat → List Token → Read
  | 0, _ => .error .noOperand
  | fuel + 1, ts => do
      let (a, left) ← binary inner ts
      match left with
      | .sign "&&" :: rest => do
          let (b, left) ← conjunction inner fuel rest
          .ok (.both a b, left)
      | _ => .ok (a, left)

def disjunction (inner : Inner) : Nat → List Token → Read
  | 0, _ => .error .noOperand
  | fuel + 1, ts => do
      let (a, left) ← conjunction inner fuel ts
      match left with
      | .sign "||" :: rest => do
          let (b, left) ← disjunction inner fuel rest
          .ok (.either a b, left)
      | _ => .ok (a, left)

def conditional (inner : Inner) : Nat → List Token → Read
  | 0, _ => .error .noOperand
  | fuel + 1, ts => do
      let (a, left) ← disjunction inner (ts.length + 1) ts
      match left with
      | .sign "?" :: rest => do
          let (b, left) ← inner rest
          match left with
          | .sign ":" :: rest =>
              let (c, left) ← conditional inner fuel rest
              .ok (.choice a b c, left)
          | _ => .error .noColon
      | _ => .ok (a, left)

/-- An expression that may be an assignment, inside of at most `fuel` others. -/
def assignment : Nat → Inner
  | 0 => fun _ => .error .noOperand
  | fuel + 1 => fun ts =>
      let plain : Read := conditional (assignment fuel) (ts.length + 1) ts
      match ts with
      | .name s :: .sign op :: rest =>
          match assigning? op with
          | some op => (assignment fuel rest).map (fun (a, left) => (.assign s op a, left))
          | none => plain
      | _ => plain

/-- How deep expressions may stand in one another. -/
def greatestDepth : Nat := 100

def parse (text : String) : Except ArithmeticFault Expr := do
  let (e, left) ← assignment greatestDepth (tokensFrom 0 text.toList)
  if left.isEmpty then .ok e else .error .notFinished

/-! ## Values -/

def truth (b : Bool) : Int :=
  if b then 1 else 0

def bits (n : Int) : Nat :=
  (n % (UInt64.size : Int)).toNat

def apply (op : BinaryOp) (a b : Int) : Except ArithmeticFault Int :=
  let shift := bits b % 64
  match op with
  | .times => .ok (wrap (a * b))
  | .quotient => if b = 0 then .error .dividedByZero else .ok (wrap (Int.tdiv a b))
  | .remainder => if b = 0 then .error .dividedByZero else .ok (Int.tmod a b)
  | .plus => .ok (wrap (a + b))
  | .minus => .ok (wrap (a - b))
  | .shiftLeft => .ok (wrap (a * Nat.pow 2 shift))
  | .shiftRight => .ok (Int.fdiv a (Nat.pow 2 shift))
  | .less => .ok (truth (a < b))
  | .atMost => .ok (truth (a ≤ b))
  | .greater => .ok (truth (b < a))
  | .atLeast => .ok (truth (b ≤ a))
  | .equal => .ok (truth (a = b))
  | .different => .ok (truth (a ≠ b))
  | .bitAnd => .ok (wrap (Nat.land (bits a) (bits b)))
  | .bitXor => .ok (wrap (Nat.xor (bits a) (bits b)))
  | .bitOr => .ok (wrap (Nat.lor (bits a) (bits b)))

/-- The value of an operator with one operand. -/
def applyUnary (op : UnaryOp) (a : Int) : Int :=
  match op with
  | .same => a
  | .minus => wrap (-a)
  | .not => truth (a = 0)
  | .complement => -a - 1

def text : Int → String
  | .ofNat n => Text.decimalText n
  | .negSucc n => "-" ++ Text.decimalText (n + 1)

/-- The number that the value of a variable spells; a blank value is zero. -/
def numberOf (value : String) : Except ArithmeticFault Int :=
  let blank (c : Char) : Bool := c == ' ' || ('\t' ≤ c && c ≤ '\r')
  if value.toList.all blank then .ok 0
  else match Format.readWhole? value.toList with
    | some (n, rest) =>
        if rest.all blank && -Format.greatest - 1 ≤ n && n ≤ Format.greatest then .ok n
        else .error (.badNumber value)
    | none => .error (.badNumber value)

/-- Variables that were set, the last one first. -/
abbrev Assigned := List (String × String)

/-- The value of a variable after some were set. -/
def valueOf (env : String → String) (set : Assigned) (name : String) : String :=
  (set.lookup name).getD (env name)

/-- The value of an expression, and the variables it has set. -/
def evaluate (env : String → String) : Expr → Assigned → Except ArithmeticFault (Int × Assigned)
  | .number n, set => .ok (n, set)
  | .named name, set => (numberOf (valueOf env set name)).map (fun n => (n, set))
  | .unary op a, set => do
      let (x, set) ← evaluate env a set
      .ok (applyUnary op x, set)
  | .binary op a b, set => do
      let (x, set) ← evaluate env a set
      let (y, set) ← evaluate env b set
      .ok (← apply op x y, set)
  | .both a b, set => do
      let (x, set) ← evaluate env a set
      if x = 0 then .ok (0, set)
      else
        let (y, set) ← evaluate env b set
        .ok (truth (y ≠ 0), set)
  | .either a b, set => do
      let (x, set) ← evaluate env a set
      if x ≠ 0 then .ok (1, set)
      else
        let (y, set) ← evaluate env b set
        .ok (truth (y ≠ 0), set)
  | .choice a b c, set => do
      let (x, set) ← evaluate env a set
      if x ≠ 0 then evaluate env b set else evaluate env c set
  | .assign name op a, set => do
      let (y, set) ← evaluate env a set
      let z ← match op with
        | none => .ok y
        | some op => apply op (← numberOf (valueOf env set name)) y
      .ok (z, (name, text z) :: set)

/-- The value of the expression that a text spells, and the variables it sets, in order. -/
def run (env : String → String) (expression : String) :
    Except ArithmeticFault (Int × List (String × String)) := do
  let e ← parse expression
  let (n, set) ← evaluate env e []
  .ok (n, set.reverse)

end Arithmetic

end ScanGraph.Shell
