/-
Programs that run others: `sh`, `env`, `xargs`, `timeout`, `nohup` and `nice`.

Each program is a process of its own: what it changes of the session is lost,
but for what all processes share.
-/
import ScanGraph.Shell.Evaluation

namespace ScanGraph.Shell.Launch

open Run

/-- A program is started by another one; `own` says what is in front of a complaint about it. -/
def startUnder (i : Interpreter) (name : String) (args : List String) (own : String)
    (isQuoted : Bool) : Run Ending := do
  match ← Program.find name with
  | .ok program => i.start name program args
  | .error f => do
      let shown := if isQuoted then Call.quoted name else name
      emit 2 (own ++ shown ++ ": " ++ f.message ++ "\n")
      return .status (if f = .denied then 126 else 127)

/-! ## Shells -/

structure Invocation where
  letters : List (Bool × Char)
  names : List (Bool × String)
  operands : List String

/-- The options at the beginning of arguments, of which `skip` are passed. -/
def invocation : Nat → List String → Invocation
  | _, [] => ⟨[], [], []⟩
  | skip + 1, _ :: rest => invocation skip rest
  | 0, a :: rest =>
      let group (isOn : Bool) (ls : List Char) : Invocation :=
        let named := ls.contains 'o'
        let more := invocation (if named then 1 else 0) rest
        { more with
          letters := (ls.filter (· != 'o')).map (fun l => (isOn, l)) ++ more.letters
          names := if named then (isOn, rest.headD "") :: more.names else more.names }
      match a.toList with
      | ['-', '-'] => ⟨[], [], rest⟩
      | ['-'] => ⟨[], [], rest⟩
      | '-' :: ls => group true ls
      | '+' :: ls => group false ls
      | _ => ⟨[], [], a :: rest⟩

/-- The variables with which a shell begins: those handed on to it, and its own. -/
def variablesOf (inherited : Table String Variable) : Table String Variable :=
  let own := [("IFS", " \t\n"), ("OPTIND", "1"), ("PS1", "# "), ("PS2", "> "), ("PS4", "+ ")]
  let kept := inherited.filter (fun _ v => v.isExported)
  own.foldl (fun t (n, v) =>
    let isKept := n != "IFS" && n != "OPTIND"
    if isKept && t.contains n then t
    else t.insert n ⟨some v, isKept && (t.get? n).any Variable.isExported, false⟩)
    (kept.map (fun _ v => { v with isReadOnly := false }))

/-- A shell that has run nothing; it has the streams of another one. -/
def fresh (s : Session) (id : Nat) (name : String) (arguments : List String) : Session :=
  { s with
    id, name, arguments
    isApart := false
    bindings := variablesOf s.bindings
    functions := []
    status := 0
    taken := none
    options := []
    traps := s.traps.filter (fun t => t.2.isEmpty)
    documents := []
    nextDocument := 0
    line := 0
    command := none
    children := []
    lastJob := none
    calls := 0
    loops := 0
    locals := []
    optionPlace := 0
    aliases := .empty }

/-- The options of a shell are set; one that there is not is refused. -/
def setAll (c : Invocation) : Run Unit := do
  for (isOn, l) in c.letters do
    unless l == 'c' || l == 'l' do Builtin.setLetter isOn l
  for (isOn, name) in c.names do
    Builtin.setNamed isOn name

/-- How a shell ends after its text was run, with what is done at its end. -/
def ending (i : Interpreter) (r : Run Unit) : Run Ending := do
  let flow ← caught do
    let flow ← caught r
    goOnWith flow
    finish i
  match flow with
  | some (.killed id n) =>
      if id = (← get).id then return .signal n else throw (.killed id n)
  | some .endless => throw .endless
  | _ => return .status ((← get).status % 256)

/-- The text that a shell is to run: its name, its arguments, the text, and whether all of it is
known when it begins. -/
def runInvoked (i : Interpreter) (program : String) (c : Invocation) : Run Unit := do
  setAll c
  let named (name : String) (arguments : List String) : Run Unit :=
    modify (fun s => { s with name, arguments })
  match c.letters.contains (true, 'c'), c.operands with
  | true, [] => fail "-c requires an argument" 2
  | true, text :: rest => do
      named (rest.headD program) rest.tail
      runText i .plain text
  | false, operands => do
      match c.letters.contains (true, 's'), operands with
      | false, file :: rest => do
          match (← get).world.disk.read file with
          | .error f => fail (Connecting.cannotOpen file f) 2
          | .ok bs => do
              named file rest
              runText i .plain (packed bs)
      | _, arguments => do
          named program arguments
          let text ← input 0
          leave 0 []
          runText i .plain (packed text)

def shell (i : Interpreter) (program : String) (args : List String) : Run Ending :=
  Program.inProcess do
    let id ← newId
    let c := invocation 0 args
    modify (fun s => fresh s id program [])
    ending i (runInvoked i program c)

/-! ## Environments -/

/-- The environment that the arguments of `env` make, and the command after them. -/
def withEnvironment : Nat → List String → Run (Except String (List String))
  | 0, args => return .ok args
  | fuel + 1, args =>
      match args with
      | [] => return .ok []
      | a :: rest => do
          if a == "-i" || a == "-" || a == "--ignore-environment" then
            modify (fun s => { s with bindings := .empty })
            withEnvironment fuel rest
          else if a == "-u" then
            modify (fun s => { s with bindings := s.bindings.erase (rest.headD "") })
            withEnvironment fuel rest.tail
          else if a == "--" then return .ok rest
          else if a.contains '=' then do
            let (name, value) := Builtin.assignmentOf a
            setVariable name ⟨value, true, false⟩
            withEnvironment fuel rest
          else if a.startsWith "--" then
            return .error (OptionFault.unknownWord (a.drop 2).toString).message
          else match a.toList with
            | '-' :: l :: _ => return .error (OptionFault.unknown l).message
            | _ => return .ok (a :: rest)

/-- A program with another environment, which is shown if there is no program. -/
def env (i : Interpreter) (name : String) (args : List String) : Run Ending :=
  Program.inProcess do
    match ← withEnvironment (args.length + 1) args with
    | .error said => do
        emit 2 (name ++ ": " ++ said ++ "\nTry '" ++ name
          ++ " --help' for more information.\n")
        return .status 125
    | .ok [] => do
        emit 1 (String.join ((← Program.environment).map (fun (n, v) => n ++ "=" ++ v ++ "\n")))
        return .status 0
    | .ok (command :: rest) => startUnder i command rest (name ++ ": ") true

/-! ## Arguments from the input -/

/-- The items of a text: its lines without the blanks in front of them, or what is between blanks.
Quotes and backslashes hold items together; a quote that its line does not close ends the items,
and is given too. -/
def itemsFrom (areLines : Bool) : Nat → Option Char → Option (List Char) → List Char →
    List (List Char) × Option Char
  | 0, _, item, _ => (item.toList, none)
  | _, some q, _, [] => ([], some q)
  | _, none, item, [] => ((item.map List.reverse).toList, none)
  | fuel + 1, quote, item, c :: rest =>
      let add (c : Char) (left : List Char) : List (List Char) × Option Char :=
        itemsFrom areLines fuel quote (some (c :: item.getD [])) left
      let blank := c == ' ' || c == '\t'
      match quote with
      | some q =>
          if c == '\n' then ([], some q)
          else if c == q then itemsFrom areLines fuel none (some (item.getD [])) rest
          else add c rest
      | none =>
          if c == '\'' || c == '"' then
            itemsFrom areLines fuel (some c) (some (item.getD [])) rest
          else if c == '\\' then
            match rest with
            | d :: left => add d left
            | [] => ((item.map List.reverse).toList, none)
          else if areLines && blank && item.isNone then itemsFrom areLines fuel none none rest
          else if c == '\n' || (blank && !areLines) then
            let (more, left) := itemsFrom areLines fuel none none rest
            ((item.map List.reverse).toList ++ more, left)
          else add c rest

/-- What is said of a quote that is not closed. -/
def unmatched (q : Char) : String :=
  "unmatched " ++ (if q == '"' then "double" else "single")
    ++ " quote; by default quotes are special to xargs unless you use the -0 option"

/-- A text in which another one stands in the place of a mark, at most `fuel` times. -/
def replacedAll (mark item : List Char) : Nat → List Char → List Char
  | 0, cs => cs
  | fuel + 1, cs =>
      match cs with
      | [] => []
      | c :: rest =>
          if !mark.isEmpty && mark.isPrefixOf cs then
            item ++ replacedAll mark item fuel (cs.drop mark.length)
          else c :: replacedAll mark item fuel rest

/-- Groups of at most so many items, at most `fuel`. -/
def groupsOf {α : Type} (size : Nat) : Nat → List α → List (List α)
  | 0, _ => []
  | fuel + 1, l =>
      if l.isEmpty then [] else l.take size :: groupsOf size fuel (l.drop size)

/-- Commands run one after the other; the status says whether one of them failed. -/
def runEach (i : Interpreter) (own : String) (shows : Bool) :
    Nat → List (List String) → Run Ending
  | status, [] => return .status status
  | status, c :: rest => do
      if shows then emit 2 (" ".intercalate c ++ "\n")
      match ← startUnder i (c.headD "") c.tail (own ++ ": ") false with
      | .signal n => do
          emit 2 (own ++ ": " ++ c.headD "" ++ ": terminated by signal "
            ++ Text.decimalText n ++ "\n")
          return .status 125
      | .status 0 => runEach i own shows status rest
      | .status n =>
          if n = 255 then do
            emit 2 (own ++ ": " ++ c.headD "" ++ ": exited with status 255; aborting\n")
            return .status 124
          else if n = 126 || n = 127 then return .status n
          else runEach i own shows 123 rest

def itemRules : OptionRules :=
  ⟨"0rtxpi", "nILdPsaE", [("null", '0'), ("no-run-if-empty", 'r'), ("max-args", 'n'),
    ("replace", 'I'), ("delimiter", 'd'), ("max-procs", 'P'), ("verbose", 't')], true⟩

/-- A program with arguments from the input. -/
def xargs (i : Interpreter) (name : String) (args : List String) : Run Ending :=
  Program.inProcess do
    match Options.parse itemRules args with
    | .error e => do
        emit 2 (name ++ ": " ++ e.message ++ "\nTry '" ++ name
          ++ " --help' for more information.\n")
        return .status 1
    | .ok o => do
        let text := charsOf (← input 0)
        leave 0 []
        let n ← newChannel .nothing
        connect 0 (some n)
        let command := if o.operands.isEmpty then ["echo"] else o.operands
        let number (l : Char) : Option Nat := (o.value? l).bind (fun v => Text.natural? v.toList)
        let pieces (c : Char) : List (List Char) :=
          let parts := text.splitOn c
          if parts.getLast? == some [] then parts.dropLast else parts
        let mark := (o.value? 'I').or (if o.has 'i' then some "\x7b\x7d" else none)
        let parted : Option Char := if o.has '0' then some '\x00'
          else (o.value? 'd').map (fun d =>
            if d == "\\n" then '\n' else if d == "\\t" then '\t' else d.toList.headD '\n')
        let (items, open?) : List (List Char) × Option Char := match parted with
          | some c => (pieces c, none)
          | none => itemsFrom mark.isSome (text.length + 1) none none text
        let groups : List (List String) := match mark, number 'n', number 'L' with
          | some m, _, _ => items.map (fun l => command.map (fun w =>
              String.ofList (replacedAll m.toList l (w.length + 1) w.toList)))
          | none, some n, _ =>
              let full := items.length / max 1 n * max 1 n
              let items := if open?.isSome then items.take full else items
              (groupsOf (max 1 n) (items.length + 1) items).map (extended command)
          | none, none, some n =>
              ((groupsOf (max 1 n) (text.length + 1) (text.splitOn '\n')).filterMap (fun ls =>
                match ls.flatMap (fun l => (itemsFrom false (l.length + 1) none none l).1) with
                | [] => none
                | is => some (extended command is)))
          | none, none, none =>
              if items.isEmpty || open?.isSome then [] else [extended command items]
        let isBare := groups.isEmpty && !o.has 'r' && mark.isNone && open?.isNone
        let e ← runEach i name (o.has 't') 0 (if isBare then [command] else groups)
        match open? with
        | none => return e
        | some q => do
            emit 2 (name ++ ": " ++ unmatched q ++ "\n")
            return .status 1
where
  /-- A command with more arguments. -/
  extended (command : List String) (items : List (List Char)) : List String :=
    command ++ items.map String.ofList

/-! ## Time -/

/-- What was written after a time is taken back. -/
def withoutLater (c : Channel) (time : Nat) : Channel :=
  match c with
  | .sink chunks => .sink (chunks.filter (fun k => decide (k.time ≤ time)))
  | c => c

/-- A program that is ended after some time. -/
def timeout (i : Interpreter) (name : String) (args : List String) : Run Ending :=
  Program.inProcess do
    let rules : OptionRules :=
      ⟨"v", "sk", [("signal", 's'), ("kill-after", 'k'), ("foreground", 'f'),
        ("preserve-status", 'p')], true⟩
    let advise (said : String) : Run Ending := do
      emit 2 (name ++ ": " ++ said ++ "\nTry '" ++ name ++ " --help' for more information.\n")
      return .status 125
    match Options.parse rules args with
    | .error e => advise e.message
    | .ok o =>
        match o.operands with
        | limit :: command :: rest =>
            match Utility.duration? limit with
            | none => advise ("invalid time interval " ++ Call.quoted limit)
            | some millis => do
                let before := (← get).world
                let result ← tryCatch (do
                    let e ← startUnder i command rest (name ++ ": failed to run command ") true
                    pure (some e))
                  (fun f => match f with
                    | .endless => pure none
                    | f => throw f)
                let deadline := before.clock + millis
                let isLate := result.isNone || (millis != 0 && deadline ≤ (← get).world.clock)
                match isLate, result with
                | false, some e => return e
                | _, _ =>
                    if millis = 0 then throw .endless
                    change (fun w => { w with
                      clock := deadline
                      budget := max w.budget (before.budget / 2)
                      channels := w.channels.map (fun c => withoutLater c deadline) })
                    let signal := ((o.value? 's').bind Builtin.signalOf?).getD 15
                    if signal = 9 then return .signal 9
                    return .status (if o.has 'p' then 128 + signal else 124)
        | _ => advise "missing operand"

/-! ## All programs -/

/-- A program with the priority of another one, which makes no difference. -/
def nice (i : Interpreter) (name : String) (args : List String) : Run Ending := do
  match Options.parse ⟨"", "n", [("adjustment", 'n')], true⟩ args with
  | .ok ⟨_, command :: rest⟩ => startUnder i command rest (name ++ ": ") true
  | _ => do
      emit 1 "0\n"
      return .status 0

/-- A program that goes on when its terminal is gone. -/
def nohup (i : Interpreter) (name : String) (args : List String) : Run Ending := do
  match args with
  | command :: rest => startUnder i command rest (name ++ ": failed to run command ") true
  | [] => do
      emit 2 (name ++ ": missing operand\nTry '" ++ name ++ " --help' for more information.\n")
      return .status 125

def start (i : Interpreter) (name program : String) (args : List String) : Run Ending := do
  match program with
  | "sh" => shell i name args
  | "dash" => shell i name args
  | "env" => env i name args
  | "xargs" => xargs i name args
  | "timeout" => timeout i name args
  | "nice" => nice i name args
  | "nohup" => nohup i name args
  | _ =>
      match Utility.find? program with
      | some u => Program.runUtility u program name args
      | none => return .status 127

/-! ## The interpreter -/

/-- How deep commands may be run inside of one another; deeper ones kill the shell, as it has no
room for them. -/
def greatestDepth : Nat := 6000

/-- How commands are run inside of one another so many times. -/
def interpreter : Nat → Interpreter
  | 0 =>
      let full {α : Type} : Run α := do
        throw (.killed (← get).id 11)
      ⟨fun _ _ => full, fun _ => full, fun _ _ _ => full⟩
  | depth + 1 =>
      let i := interpreter depth
      ⟨evaluate i, wordMarks i (finish i), start i⟩

end ScanGraph.Shell.Launch
