/-
Names, expressions and small answers: `basename`, `dirname`, `expr`, `printenv`,
`echo`, `sleep` and others.
-/
import ScanGraph.Shell.Format
import ScanGraph.Shell.Pattern.Reader
import ScanGraph.Shell.Utility

namespace ScanGraph.Shell.Utility

/-! ## Parts of paths -/

def withoutSlashes (cs : List Char) : List Char :=
  (cs.reverse.dropWhile (· == '/')).reverse

def lastPart (path : String) : List Char :=
  let cs := path.toList
  if !cs.isEmpty && cs.all (· == '/') then ['/']
  else ((withoutSlashes cs).reverse.takeWhile (· != '/')).reverse

/-- A name without an ending, unless it is all of it. -/
def withoutEnding (ending name : List Char) : List Char :=
  if ending.isSuffixOf name && ending.length < name.length then
    name.take (name.length - ending.length)
  else name

def basename : Utility := fun c =>
  c.withOptions ⟨"az", "s", [("multiple", 'a'), ("suffix", 's')], true⟩ 1 (fun o =>
    let shown (ending : String) (path : String) : List Char :=
      withoutEnding ending.toList (lastPart path) ++ ['\n']
    match o.operands with
    | [] => c.advise "missing operand" 1
    | path :: rest =>
        if o.has 'a' || o.has 's' then
          (c.quiet 0).write 1 (o.operands.flatMap (shown ((o.value? 's').getD "")))
        else match rest with
          | [] => (c.quiet 0).write 1 (shown "" path)
          | [ending] => (c.quiet 0).write 1 (shown ending path)
          | _ :: extra :: _ => c.advise ("extra operand " ++ Call.quoted extra) 1)

/-- The path of the directory in which a path ends. -/
def directoryOf (path : String) : List Char :=
  let cs := path.toList
  let front := ((withoutSlashes cs).reverse.dropWhile (· != '/')).reverse
  let front := withoutSlashes front
  if !front.isEmpty then front
  else if cs.head? == some '/' then ['/'] else ['.']

def dirname : Utility := fun c =>
  c.withOptions ⟨"z", "", [], false⟩ 1 (fun o =>
    if o.operands.isEmpty then c.advise "missing operand" 1
    else (c.quiet 0).write 1 (o.operands.flatMap (fun p => directoryOf p ++ ['\n'])))

/-! ## Expressions -/

/-- Why an expression of arguments has no value. -/
inductive ExprFault where
  | missingAfter (s : String)
  | unexpected (s : String)
  | openParenthesis (s : String)
  | notWhole
  | zeroDivision
  | pattern (f : PatternFault)
deriving DecidableEq, Repr

/-- What is said of an expression that has no value. -/
def ExprFault.message : ExprFault → String
  | missingAfter s => "syntax error: missing argument after " ++ Call.quoted s
  | unexpected s => "syntax error: unexpected argument " ++ Call.quoted s
  | openParenthesis s => "syntax error: expecting ')' after " ++ Call.quoted s
  | notWhole => "non-integer argument"
  | zeroDivision => "division by zero"
  | pattern f => f.message

namespace ExprFault

def whole? (s : String) : Option Int :=
  match s.toList with
  | '-' :: ds => (Text.natural? ds).map (fun n => -(n : Int))
  | ds => (Text.natural? ds).map (fun n => (n : Int))

def text (n : Int) : String :=
  (if n < 0 then "-" else "") ++ Text.decimalText n.natAbs

end ExprFault

abbrev ExprRead := Except ExprFault (String × List String)

namespace Expression

def holds (s : String) : Bool :=
  !s.isEmpty && !(match ExprFault.whole? s with
    | some n => n == 0
    | none => false)

/-- The operators, which bind the closer the later they come. -/
def levels : List (List String) :=
  [["|"], ["&"], ["<", "<=", "=", "==", "!=", ">=", ">"], ["+", "-"], ["*", "/", "%"], [":"]]

/-- What a pattern from the beginning of a text on matches: its first group, or how much. -/
def matched (s p : String) : Except ExprFault String :=
  match Pattern.parse ⟨false, false, false⟩ p.toList with
  | .error f => .error (.pattern f)
  | .ok q =>
      match q.matchAt none s.toList with
      | some h => .ok (if q.groupCount = 0 then Text.decimalText h.length
          else String.ofList (h.group 1))
      | none => .ok (if q.groupCount = 0 then "0" else "")

def apply (op a b : String) : Except ExprFault String :=
  let truth (p : Bool) : Except ExprFault String := .ok (if p then "1" else "0")
  let order : Ordering := match ExprFault.whole? a, ExprFault.whole? b with
    | some m, some n => compare m n
    | _, _ => compare a b
  let number (f : Int → Int → Except ExprFault Int) : Except ExprFault String :=
    match ExprFault.whole? a, ExprFault.whole? b with
    | some m, some n => (f m n).map ExprFault.text
    | _, _ => .error .notWhole
  match op with
  | "|" => .ok (if holds a then a else if holds b then b else "0")
  | "&" => .ok (if holds a && holds b then a else "0")
  | "<" => truth (order == .lt)
  | "<=" => truth (order != .gt)
  | "=" => truth (order == .eq)
  | "==" => truth (order == .eq)
  | "!=" => truth (order != .eq)
  | ">=" => truth (order != .lt)
  | ">" => truth (order == .gt)
  | "+" => number (fun m n => .ok (m + n))
  | "-" => number (fun m n => .ok (m - n))
  | "*" => number (fun m n => .ok (m * n))
  | "/" => number (fun m n => if n = 0 then .error .zeroDivision else .ok (Int.tdiv m n))
  | "%" => number (fun m n => if n = 0 then .error .zeroDivision else .ok (Int.tmod m n))
  | _ => matched a b

/-- A value that no operator joins, inside of which expressions are read by `inner`; `last` is
the argument before it. -/
def primary (inner : String → List String → ExprRead) (last : String) : List String → ExprRead
  | [] => .error (.missingAfter last)
  | "(" :: rest => do
      let (v, rest) ← inner "(" rest
      match rest with
      | ")" :: rest => .ok (v, rest)
      | [] => .error (.openParenthesis v)
      | s :: _ => .error (.unexpected s)
  | "+" :: s :: rest => .ok (s, rest)
  | "length" :: s :: rest => .ok (Text.decimalText s.length, rest)
  | "match" :: s :: p :: rest => (matched s p).map (fun v => (v, rest))
  | "index" :: s :: chars :: rest =>
      let n := match s.toList.findIdx? chars.toList.contains with
        | some k => k + 1
        | none => 0
      .ok (Text.decimalText n, rest)
  | "substr" :: s :: start :: length :: rest =>
      let part := match ExprFault.whole? start, ExprFault.whole? length with
        | some a, some n =>
            if a ≤ 0 ∨ n ≤ 0 then [] else (s.toList.drop (a.toNat - 1)).take n.toNat
        | _, _ => []
      .ok (String.ofList part, rest)
  | ")" :: _ => .error (.unexpected ")")
  | s :: rest => .ok (s, rest)

/-- A value and the operators of a level after it, at most `fuel`. -/
def more (operand : String → List String → ExprRead) (ops : List String) :
    Nat → String → List String → ExprRead
  | 0, a, rest => .ok (a, rest)
  | fuel + 1, a, rest =>
      match rest with
      | op :: left =>
          if ops.contains op then do
            let (b, left) ← operand op left
            more operand ops fuel (← apply op a b) left
          else .ok (a, rest)
      | [] => .ok (a, [])

/-- An expression of some levels of operators. -/
def read (inner : String → List String → ExprRead) : List (List String) → String →
    List String → ExprRead
  | [], last, args => primary inner last args
  | ops :: closer, last, args => do
      let (a, rest) ← read inner closer last args
      more (read inner closer) ops (args.length + 1) a rest

/-- An expression inside of at most so many parentheses. -/
def nested : Nat → String → List String → ExprRead
  | 0, _, _ => .error .notWhole
  | depth + 1, last, args => read (nested depth) levels last args

def value (args : List String) : Except ExprFault String := do
  let (v, rest) ← nested (args.length + 1) "" args
  match rest with
  | [] => .ok v
  | s :: _ => .error (.unexpected s)

end Expression

def expr : Utility := fun c =>
  let args := match c.args with
    | "--" :: rest => rest
    | args => args
  if args.isEmpty then c.advise "missing operand" 2
  else match Expression.value args with
    | .ok v => (c.quiet (if Expression.holds v then 0 else 1)).write 1 (v.toList ++ ['\n'])
    | .error f => c.refuse f.message 2

/-! ## Texts -/

/-- The letters of options of `echo`; other arguments are texts. -/
def echoOptions? (a : String) : Option (List Char) :=
  match a.toList with
  | '-' :: l :: rest => if (l :: rest).all ['n', 'e', 'E'].contains then some (l :: rest) else none
  | _ => none

/-- The options of `echo` at the beginning, and the texts. -/
def echoArguments : List Char → List String → List Char × List String
  | ls, [] => (ls, [])
  | ls, a :: rest =>
      match echoOptions? a with
      | some more => echoArguments (ls ++ more) rest
      | none => (ls, a :: rest)

def echo : Utility := fun c =>
  let (letters, texts) := echoArguments [] c.args
  let text := " ".intercalate texts
  let escapes := (letters.reverse.find? (fun l => l == 'e' || l == 'E')) == some 'e'
  let (cs, stopped) := if escapes then Format.upToStop (Format.escapes text)
    else (text.toList, false)
  (c.quiet 0).write 1 (if stopped || letters.contains 'n' then cs else cs ++ ['\n'])

def printf : Utility := fun c =>
  match c.args with
  | [] => c.advise "missing operand" 1
  | format :: args =>
      let p := Format.printed format args
      { c.quiet p.status with
        writes := p.faults.map (fun f => (2, c.complaint f)) ++ [(1, p.out)] }

/-! ## Waiting -/

/-- The milliseconds of a duration: a number, and a unit at its end. -/
def duration? (s : String) : Option Nat :=
  let cs := s.toList
  let (number, unit) : List Char × Nat := match cs.getLast? with
    | some 's' => (cs.dropLast, 1)
    | some 'm' => (cs.dropLast, 60)
    | some 'h' => (cs.dropLast, 3600)
    | some 'd' => (cs.dropLast, 86400)
    | _ => (cs, 1)
  let whole := number.takeWhile Char.isDigit
  let fraction : Option (List Char) := match number.drop whole.length with
    | [] => some []
    | '.' :: f => if f.all Char.isDigit then some f else none
    | _ => none
  match fraction with
  | none => none
  | some f =>
      if whole.isEmpty && f.isEmpty then none
      else
        let thousandths := (f ++ ['0', '0', '0']).take 3
        some ((Text.valueOf whole * 1000 + Text.valueOf thousandths) * unit)

def sleep : Utility := fun c =>
  if c.args.any (fun a => a == "infinity" || a == "inf") then { c.quiet 0 with isEndless := true }
  else if c.args.isEmpty then c.advise "missing operand" 1
  else match c.args.filter (fun a => (duration? a).isNone) with
    | [] => { c.quiet 0 with elapsed := (c.args.filterMap duration?).foldl (· + ·) 0 }
    | bad =>
        match bad.find? (fun a => a.startsWith "-" && a.length != 1) with
        | some a =>
            let letter := String.ofList ((a.toList.drop 1).take 1)
            c.advise ("invalid option -- " ++ Call.quoted letter) 1
        | none => c.advise ("\n".intercalate ((bad.zipIdx).map (fun (a, k) =>
            (if k = 0 then "" else c.name ++ ": ") ++ "invalid time interval " ++ Call.quoted a))) 1

/-! ## The environment -/

/-- The values of variables of the environment, or all of them. -/
def printenv : Utility := fun c =>
  if c.args.isEmpty then
    (c.quiet 0).write 1 (c.environment.flatMap (fun (n, v) => (n ++ "=" ++ v ++ "\n").toList))
  else
    let values := c.args.map (fun n => c.environment.lookup n)
    (c.quiet (if values.all Option.isSome then 0 else 1)).write 1
      (values.flatMap (fun v => match v with
        | some s => s.toList ++ ['\n']
        | none => []))

def which : Utility := fun c =>
  let find (n : String) : Option String :=
    if n.contains '/' then (if c.disk.kind? n == some .program then some n else none)
    else (Files.Root.programDirectories.map (fun d => Disk.pathOf (d ++ [n]))).find?
      (fun p => c.disk.kind? p == some .program)
  let found := c.args.map find
  (c.quiet (if !c.args.isEmpty && found.all Option.isSome then 0 else 1)).write 1
    ((found.filterMap id).flatMap (fun p => p.toList ++ ['\n']))

end ScanGraph.Shell.Utility
