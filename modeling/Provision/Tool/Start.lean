import Provision.Tool.System

/-!
# Starting programs

Programs that start others: in another environment, for a limited time, or with arguments that
they read.
-/

namespace Provision.Tool

/-- The status after a program that could not be started. -/
def unstarted (e : OsError) : Nat := if e = .notFound then 127 else 126

/-- Starts a program in the place of this one. -/
def continueAs (launch : Launch) (words : List String) (failure : String → String) : Tool Nat := do
  match ← launch words with
  | .ok n => return n
  | .error e =>
    complain (failure (quoted (words.headD "")) ++ ": " ++ e.text)
    return unstarted e

/-- Starts a program in another environment, or prints the environment. -/
def env (launch : Launch) (args : List String) : Tool Nat := do
  let (given, operands) ← options
    [⟨'i', "ignore-environment", .never⟩, ⟨'u', "unset", .always⟩, ⟨'0', "null", .never⟩,
      ⟨'C', "chdir", .always⟩, ⟨'S', "split-string", .always⟩, ⟨'v', "debug", .never⟩]
    args 125 false
  let bare := operands.head? == some "-"
  let operands := if bare then operands.drop 1 else operands
  let operands : List String := match given.value? 'S' with
    | some s => (s.splitOn " ").filter (fun w => !w.isEmpty) ++ operands
    | none => operands
  let settings : List String := operands.takeWhile fun a => a.contains '='
  let words := operands.drop settings.length
  let p ← get
  let inherited := if bare || given.has 'i' then [] else p.environment
  let removed := (given.filter fun e => e.1 == 'u').map Prod.snd
  let kept := inherited.filter fun e => !removed.contains e.1
  let environment := settings.foldl (fun env s =>
    let name := String.ofList (s.toList.takeWhile (· != '='))
    let value := String.ofList (s.toList.drop (name.length + 1))
    if env.any fun e => e.1 == name then env.map fun e => if e.1 == name then (name, value) else e
    else env ++ [(name, value)]) kept
  if words.isEmpty then
    let ending := if given.has '0' then "\x00" else "\n"
    put (String.join (environment.map fun e => e.1 ++ "=" ++ e.2 ++ ending))
    return 0
  match given.value? 'C' with
  | some dir => match p.locate dir with
    | .ok place => set { p with here := place }
    | .error e => fail 125 s!"cannot change directory to {quoted dir}: {e.text}"
  | none => pure ()
  modify fun p => { p with environment := environment }
  continueAs launch words fun name => name

/-- The status of a process that has been killed: those above 256 tell of a signal. -/
def killed : Nat := 256 + 9

/-- Starts a program that may run for a limited time. -/
def timeout (launch : Launch) (args : List String) : Tool Nat := do
  let (given, operands) ← options
    [⟨'s', "signal", .always⟩, ⟨'k', "kill-after", .always⟩, ⟨'p', "preserve-status", .never⟩,
      ⟨'f', "foreground", .never⟩, ⟨'v', "verbose", .never⟩] args 125 false
  match operands with
  | [] | [_] =>
    let name := (← get).name
    warn s!"Try '{name} --help' for more information.\n"
    return 125
  | limit :: words =>
    let some most := milliseconds? limit
      | refuse 125 s!"invalid time interval {quoted limit}"
    let before := (← get).waited
    let n ← continueAs launch words fun name => "failed to run command " ++ name
    let p ← get
    if most = 0 || p.waited - before ≤ most then return n
    set { p with waited := before + most }
    return match given.value? 's' with
      | some "KILL" | some "9" => killed
      | _ => if given.has 'p' then 143 else 124

/-- Starts a program, options for itself being left aside. -/
def wrapped (launch : Launch) (switches : List Switch) (args : List String) : Tool Nat := do
  let (_, words) ← options switches args 125 false
  if words.isEmpty then refuse 125 "missing operand"
  let p ← get
  continueAs launch words fun name =>
    if p.name == "nohup" || p.name == "stdbuf" then "failed to run command " ++ name else name

/-! ## Arguments from the input -/

/-- The words of a text, with the quotes that `xargs` knows; an open quote is told. -/
def wordsOf : Nat → Option (List Char) → List Char → Except Char (List String)
  | 0, _, _ => .ok []
  | _, none, [] => .ok []
  | _, some w, [] => .ok [String.ofList w.reverse]
  | fuel + 1, current, c :: rest =>
    let grown (cs : List Char) : Option (List Char) := some (cs.reverse ++ current.getD [])
    if c == ' ' || c == '\t' || c == '\n' then
      match current with
      | none => wordsOf fuel none rest
      | some w => (wordsOf fuel none rest).map (String.ofList w.reverse :: ·)
    else if c == '\\' then
      match rest with
      | d :: rest => wordsOf fuel (grown [d]) rest
      | [] => wordsOf fuel (grown []) []
    else if c == '"' || c == '\'' then
      let inner := rest.takeWhile fun d => d != c && d != '\n'
      match rest.drop inner.length with
      | d :: after => if d == c then wordsOf fuel (grown inner) after else .error c
      | [] => .error c
    else wordsOf fuel (grown [c]) rest

/-- Lists of a number of elements each. -/
def groupsOf {α : Type} (size : Nat) : Nat → List α → List (List α)
  | 0, _ => []
  | fuel + 1, l => if l.isEmpty then [] else l.take size :: groupsOf size fuel (l.drop size)

/-- Starts a program with arguments that are read. -/
def xargs (launch : Launch) (args : List String) : Tool Nat := do
  let (given, command) ← options
    [⟨'0', "null", .never⟩, ⟨'a', "arg-file", .always⟩, ⟨'d', "delimiter", .always⟩,
      ⟨'E', "", .always⟩, ⟨'I', "", .always⟩, ⟨'i', "replace", .perhaps⟩,
      ⟨'L', "max-lines", .always⟩, ⟨'l', "", .perhaps⟩, ⟨'n', "max-args", .always⟩,
      ⟨'P', "max-procs", .always⟩, ⟨'p', "interactive", .never⟩,
      ⟨'r', "no-run-if-empty", .never⟩, ⟨'s', "max-chars", .always⟩, ⟨'t', "verbose", .never⟩,
      ⟨'x', "exit", .never⟩, ⟨'o', "open-tty", .never⟩] args 1 false
  let command := if command.isEmpty then ["echo"] else command
  let source := (given.value? 'a').getD "-"
  let text ← (do
    match ← input source with
    | .ok t => return t
    | .error e => fail 1 s!"{source}: {e.text}")
  let delimiter : Option Char := if given.has '0' then some '\x00'
    else match given.value? 'd' with
      | some "\\n" => some '\n'
      | some "\\t" => some '\t'
      | some "\\0" => some '\x00'
      | some d => d.toList.head?
      | none => none
  let marker : Option String := match given.value? 'I' with
    | some m => some m
    | none => (given.value? 'i').map fun m => if m.isEmpty then "\x7b\x7d" else m
  let split (t : String) : Tool (List String) := do
    match wordsOf (t.length + 1) none t.toList with
    | .ok ws => return ws
    | .error c =>
      let kind := if c == '"' then "double" else "single"
      fail 1 (s!"unmatched {kind} quote; by default quotes are special to xargs unless you " ++
        "use the -0 option")
  let items ← (match delimiter with
    | some d =>
      let parts := text.splitOn (String.singleton d)
      pure (if text.endsWith (String.singleton d) || text.isEmpty then parts.dropLast else parts)
    | none =>
      if marker.isSome then do
        let lines := ((linesOf text).map fun l =>
          String.ofList (l.toList.dropWhile fun c => c == ' ' || c == '\t')).filter (!·.isEmpty)
        pure lines
      else split text)
  let run (words : List String) : Tool (Option Nat) := do
    if given.has 't' then warn (" ".intercalate words ++ "\n")
    match ← launch words with
    | .ok 0 => return none
    | .ok 255 =>
      let name := words.headD ""
      complain s!"{name}: exited with status 255; aborting"
      throw 124
    | .ok n =>
      if 256 < n then
        let name := words.headD ""
        let signal := n - 256
        complain s!"{name}: terminated by signal {signal}"
        throw 125
      return some (if n < 126 then 123 else if n = 126 || n = 127 then n else 125)
    | .error e =>
      let name := words.headD ""
      complain s!"{name}: {e.text}"
      throw (unstarted e)
  let worst (codes : List (Option Nat)) : Nat := ((codes.filterMap fun c => c).getLast?).getD 0
  match marker with
  | some m =>
    let codes ← items.mapM fun item => run (command.map (·.replace m item))
    return worst codes
  | none =>
    if items.isEmpty then
      if given.has 'r' then return 0
      return worst [← run command]
    let batches ← (match (given.value? 'n').bind nat?, (given.value? 'L').bind nat? with
      | some n, _ => pure (groupsOf (max n 1) (items.length + 1) items)
      | none, some n => do
        let lines := (linesOf text).filter (!·.isEmpty)
        (groupsOf (max n 1) (lines.length + 1) lines).mapM fun ls => split ("\n".intercalate ls)
      | none, none => pure [items])
    let codes ← batches.mapM fun batch => run (command ++ batch)
    return worst codes

end Provision.Tool
