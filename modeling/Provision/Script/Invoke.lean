import Provision.Script.Expand

/-!
# Simple commands

A simple command is a name with arguments, in surroundings of its own: variables that it alone
knows, and descriptors that lead elsewhere. The name stands for a command of the shell, for a
function, or for a program.
-/

namespace Provision.Script

/-! ## What names stand for -/

/-- What a name stands for. -/
inductive Target
  | nothing
  | builtin (special : Bool)
  | function (body : Command)
  | program

/-- What a name stands for, functions being left aside if they are not wanted. -/
def targetOf (s : Session) (functions : Bool) (name : String) : Target :=
  let isSpecial := Step.special.contains name
  let known? : Target :=
    if Step.isBuiltin s name then .builtin isSpecial else .program
  let function? := if functions then s.functions.get? name else none
  if !s.isRich && isSpecial then .builtin true
  else match function? with
    | some body => .function body
    | none => known?

/-- A command whose name has been looked up. -/
structure Invocation where
  target : Target
  words : List String
  /-- Whether it has been called by way of another command. -/
  wrapped : Bool := false
  /-- Whether it is looked for where programs usually are. -/
  usual : Bool := false

/-- What is left of words when the commands that only call others are taken away. -/
def stripped (s : Session) : Nat → Invocation → Invocation
  | 0, i => i
  | fuel + 1, i =>
    match i.words with
    | [] => { i with target := .nothing }
    | name :: args =>
      let target := targetOf s (!i.wrapped) name
      let here : Invocation := { i with target := target }
      match target with
      | .builtin _ =>
        if name == "command" then
          let (usual, args) := match args with
            | "-p" :: "--" :: rest | "-p" :: rest => (true, rest)
            | "--" :: rest => (i.usual, rest)
            | args => (i.usual, args)
          match args with
          | [] => here
          | a :: _ =>
            if a.startsWith "-" && 1 < a.length then here
            else stripped s fuel { i with words := args, wrapped := true, usual := usual }
        else if name == "builtin" && args.head?.any (Step.isBuiltin s) then
          { i with target := .builtin false, words := args, wrapped := true }
        else here
      | _ => here

/-- The invocation that words are. -/
def invocationOf (s : Session) (words : List String) : Invocation :=
  stripped s (words.length + 1) { target := .nothing, words := words }

/-- Whether the arguments of words are assignments. -/
def declares (s : Session) (words : List String) : Bool :=
  let i := invocationOf s words
  let names := ["export", "readonly", "local"] ++
    if s.isRich then ["declare", "typeset", "alias"] else []
  match i.target, i.words with
  | .builtin _, name :: _ => names.contains name
  | _, _ => false

namespace Step

/-! ## Arguments -/

/-- Expands words, the first ones having been expanded already, and collects the assignments of
many elements among them. -/
def argumentsBy (r : Runner) : List Word → List String → Step (List String × List Assignment)
  | [], done => return (done, [])
  | w :: rest, done => do
    let s ← get
    match if declares s done then assignment? s.isRich w else none with
    | some (.mk name index adds [.elements words]) =>
      let (done, later) ← argumentsBy r rest (done ++ [name])
      return (done, .mk name index adds [.elements words] :: later)
    | some (.mk name none adds value) =>
      let sign := if adds then "+=" else "="
      argumentsBy r rest (done ++ [name ++ sign ++ (← valueBy r value)])
    | some _ => argumentsBy r rest (done ++ [← oneTextBy r w])
    | none => argumentsBy r rest (done ++ (← fieldsBy r w))

/-- Opens descriptors, and says whether all could be opened. -/
def openAll (r : Runner) : List Redirection → Step Bool
  | [] => return true
  | .mk n how w :: rest => do
    let s ← get
    let isPath := match how with
      | .document | .line => false
      | _ => true
    let opened ← (if s.isRich && isPath then do
        match ← fieldsBy r w with
        | [target] => openOne n how target
        | _ =>
          let shown := shownPieces w
          unopened "" s!"{shown}: ambiguous redirect"
      else do
        let text ← (match how with
          | .document => textBy r { quoted := true } w
          | _ => oneTextBy r w)
        openOne n how text)
    if opened then openAll r rest else return false

/-! ## Traces -/

/-- What is put before a command that is shown. -/
def traceStart (r : Runner) : Step String := do
  let s ← get
  let text := ((s.text? "PS4").getD "+ ")
  let shown ← (if text.contains '$' then do
      let cursor : Cursor := { rest := text.toList, extended := s.isRich }
      match ((pieces (text.length + 20) .document).run cursor).1 with
      | .ok w =>
        set (s.switch "xtrace" false)
        putBack (fun t => { t with options := s.options, status := s.status })
          (textBy r { quoted := true } w)
      | .error _ => return text
    else return text)
  return if s.isRich then "".pushn (shown.toList.headD '+') s.level ++ shown else shown

/-- Shows lines where descriptors lead. -/
def trace (r : Runner) (descriptors : List (Nat × Nat)) (lines : List String) : Step Unit := do
  let s ← get
  if !s.has "xtrace" then return
  let start ← traceStart r
  let t ← get
  let p := { t.toProcess with descriptors := descriptors }.write 2
    (String.join (lines.map fun l => start ++ l ++ "\n"))
  set { t with toProcess := { p with descriptors := t.descriptors } }

/-- Shows an expanded command. In the richer language assignments have been shown by themselves. -/
def traceCall (r : Runner) (descriptors : List (Nat × Nat)) (assigned words : List String) :
    Step Unit := do
  let s ← get
  if s.isRich then
    if !words.isEmpty then trace r descriptors [" ".intercalate (words.map lightlyQuoted)]
  else trace r descriptors [" ".intercalate (assigned ++ words)]

/-! ## Programs -/

/-- What is wrong with a command that cannot be started. -/
def refuseProgram (name : String) (e : OsError) : Step Unit := do
  let s ← get
  let missing := e == .notFound || e == .notDirectory
  let plain := if missing then s!"{name}: not found" else s!"{name}: {e.text}"
  let exists_ := (s.toProcess.entry name).isOk
  let why := if e == .notFound && exists_ then "cannot execute: required file not found"
    else match s.toProcess.entry name with
      | .ok f => if f.isDirectory then OsError.isDirectory.text else e.text
      | .error _ => e.text
  complain plain s!"{name}: {why}"
  let status := if s.isRich then (if e == .notFound then 127 else 126)
    else if missing || e == .tooManyLinks || e == .nameTooLong then 127 else 126
  setStatus status

/-- Says that there is no program of a name. -/
def refuseName (name : String) : Step Unit := do
  let s ← get
  let found (dir : String) : Bool :=
    (s.toProcess.entry (if dir.isEmpty then "./" ++ name else dir ++ "/" ++ name)).isOk
  let why := if (searchPath s).any found then "Permission denied" else "not found"
  let rich := if ((s.text? "PATH").getD "").isEmpty then "No such file or directory"
    else "command not found"
  complain s!"{name}: {why}" s!"{name}: {rich}"
  setStatus 127

/-- Runs the program of a file, and tells its status or why it cannot be run. A text without a
first line that says otherwise is a script of the same shell. -/
def runFile (r : Runner) (path : String) (words : List String) : Step (Except OsError Nat) := do
  let s ← get
  let deaf := (s.traps.filter fun e => e.2.isEmpty).map Prod.fst
  let child := { s.toProcess.child with
    environment := s.exported, ignored := s.ignored ++ deaf }
  let start (path : String) (words : List String) : Step (Except OsError Nat) := do
    let (result, p) := ((r.execute path words).run).run child
    match result with
    | .ok (.error e) => return .error e
    | .ok (.ok n) =>
      modify fun s => { s with toProcess := s.toProcess.after p }
      return .ok n
    | .error n =>
      modify fun s => { s with toProcess := s.toProcess.after p }
      return .ok n
  match ← start path words with
  | .error .badFormat =>
    let shell := if s.isRich then "/bin/bash" else "/bin/sh"
    start shell (shell :: path :: words.drop 1)
  | result => return result

/-- Where programs usually are. -/
def usualPath : String := "/usr/local/sbin:/usr/local/bin:/usr/sbin:/usr/bin:/sbin:/bin"

/-- The file of a program. -/
def fileOf? (s : Session) (name : String) : Option String :=
  if name.contains '/' then some name else programPath? s name

/-- Runs a program, which may be looked for where programs usually are. -/
def runProgram (r : Runner) (words : List String) (usual : Bool) : Step Unit := do
  let s ← get
  let name := words.headD ""
  match fileOf? (if usual then s.put "PATH" usualPath else s) name with
  | none => refuseName name
  | some path =>
    remember name
    match ← runFile r path words with
    | .ok n =>
      let n ← conclude n
      setStatus n
      runDue r (some (← get).waited)
    | .error e => refuseProgram name e

/-- Runs a program in the place of the shell. -/
def replaceBy (r : Runner) (words : List String) : Step Unit := do
  let s ← get
  let words := match words with
    | "--" :: rest => rest
    | words => words
  let name := words.headD ""
  match fileOf? s name with
  | none =>
    complain s!"{name}: not found" s!"exec: {name}: not found"
    setStatus 127
  | some path =>
    match ← runFile r path words with
    | .ok n =>
      match Signal.of? n with
      | some k => throw (.killed k)
      | none => setStatus n
    | .error e => refuseProgram name e
  modify fun s => { s with traps := [] }
  throw .leave

/-! ## Functions -/

/-- Runs a function. -/
def callFunction (r : Runner) (name : String) (body : Command) (args : List String) :
    Step Unit := do
  let s ← get
  set { s with
    parameters := args, frames := [] :: s.frames, calls := name :: s.calls, loops := 0
    optionWord := 1, letter := 0 }
  let back (t : Session) : Session :=
    let saved := t.frames.headD []
    let t := saved.foldl (fun t e => t.setVariable e.1 e.2) t
    { t with
      parameters := s.parameters, frames := s.frames, calls := s.calls, loops := s.loops
      optionWord := s.optionWord, letter := s.letter }
  putBack back (untilReturned (r.command body))

/-! ## Commands that run others -/

/-- A status that is an argument. -/
def statusOf (args : List String) : Step Nat := do
  let s ← get
  match args with
  | [] => return s.interrupted.getD s.status
  | a :: _ =>
    if !s.isRich then number a
    else
      let name := s.command.getD ""
      let n? : Option Int := match a.toList with
        | '-' :: ds => (Tool.nat? (String.ofList ds)).map fun n => -(n : Int)
        | '+' :: ds => (Tool.nat? (String.ofList ds)).map Int.ofNat
        | _ => (Tool.nat? a).map Int.ofNat
      match n? with
      | some n => return (n % 256).toNat
      | none =>
        complain "" s!"{name}: {a}: numeric argument required"
        return 2

/-- Ends the shell. -/
def exit (args : List String) : Step Unit := do
  let s ← get
  if s.isRich && 1 < args.length && (Tool.nat? (args.headD "")).isSome then
    complain "" "exit: too many arguments"
    setStatus 1
    throw .leave
  setStatus (← statusOf args)
  throw .leave

/-- Ends a function or a file. -/
def giveBack (args : List String) : Step Unit := do
  let s ← get
  if s.isRich && s.calls.isEmpty && s.sourced == 0 then
    failWith 2 "" "return: can only \x60return' from a function or sourced script"
  let n ← (match args with
    | [] => pure s.status
    | args => statusOf args)
  setStatus n
  throw .returned

/-- Ends loops, or their present turns. -/
def leaveLoops (name : String) (args : List String) : Step Unit := do
  let s ← get
  if s.isRich && s.loops == 0 then
    complain "" s!"{name}: only meaningful in a \x60for', \x60while', or \x60until' loop"
    setStatus 0
  else
    let negative (a : String) : Bool :=
      a.startsWith "-" && (Tool.nat? (String.ofList (a.toList.drop 1))).isSome
    let n ← (match args with
      | [] => pure 1
      | a :: _ =>
        if s.isRich then do
          match Tool.nat? a with
          | some 0 => pure 0
          | some n => pure n
          | none =>
            if negative a then pure 0
            else do
              complain "" s!"{name}: {a}: numeric argument required"
              setStatus 128
              throw .leave
        else number a)
    let a := args.headD ""
    if n == 0 then
      failWith 1 s!"Illegal number: {a}" s!"{name}: {a}: loop count out of range"
    setStatus 0
    let n := min n s.loops
    if n != 0 then throw (if name == "break" then .stop (n - 1) else .again (n - 1))

/-- Runs the script in a file. -/
def sourceFile (r : Runner) (name : String) (args : List String) : Step Unit := do
  let s ← get
  match args with
  | [] =>
    if s.isRich then
      failWith 2 ""
        s!"{name}: filename argument required\n{name}: usage: {name} filename [arguments]"
    else setStatus 0
  | file :: args =>
    let isFile (path : String) : Bool := match s.toProcess.entry path with
      | .ok e => !e.isDirectory
      | .error _ => false
    let candidates := (searchPath s).map fun dir => if dir.isEmpty then file else dir ++ "/" ++ file
    let found := if file.contains '/' then some file
      else (candidates.find? isFile).orElse fun _ => if s.isRich then some file else none
    match found with
    | none => failWith 1 s!"{file}: not found" ""
    | some path =>
      let text ← (match s.toProcess.contents path with
        | .ok text => pure text
        | .error .isDirectory =>
          if s.isRich then failWith 1 "" s!"{name}: {file}: is a directory" else pure ""
        | .error e => failWith 1 (notOpened false path e) s!"{file}: {e.text}")
      let back (t : Session) : Session :=
        { t with
          command := s.command, source := s.source, sourced := s.sourced, tested := s.tested
          line := if s.isRich then s.line else t.line
          parameters := if s.isRich && !args.isEmpty then s.parameters else t.parameters }
      set { s with
        command := some path, source := some path, sourced := s.sourced + 1
        tested := s.isRich && s.tested
        parameters := if s.isRich && !args.isEmpty then args else s.parameters }
      putBack back (untilReturned (r.text text))

/-- Tells what names stand for, or does nothing. -/
def commandInfo (args : List String) : Step Unit := do
  let s ← get
  let (given, names) ← optionsOf "pvV" "command [-pVv] command [arg ...]" args
  let inWords := given.any fun e => e.1 == 'V'
  if !(inWords || given.any fun e => e.1 == 'v') then setStatus 0
  else
    let names := if s.isRich then names else names.take 1
    let mut found := false
    for name in names do
      if ← describe inWords name then found := true
    setStatus (if found || names.isEmpty then 0 else if s.isRich then 1 else 127)

/-- Waits for commands. -/
def waitFor (r : Runner) (args : List String) : Step Unit := do
  let s ← get
  if args.isEmpty then runDue r none
  else
    let targets := args.filterMap (jobOf? s)
    let time := some ((targets.map Job.ends).foldl max s.waited)
    runDue r time
  wait args

/-- Runs a command of the shell. -/
def runBuiltin (r : Runner) (name : String) (args : List String) : Step Unit := do
  let s ← get
  match name with
  | "eval" =>
    let args := match args with
      | "--" :: rest => rest
      | args => args
    if args.isEmpty then setStatus 0
    else
      let back (t : Session) : Session :=
        { t with level := s.level, line := if s.isRich then s.line else t.line }
      set { s with level := s.level + 1 }
      putBack back (r.text (" ".intercalate args))
  | "." | "source" => sourceFile r name args
  | "command" => commandInfo args
  | "exec" => if args.isEmpty then setStatus 0 else replaceBy r args
  | "exit" => exit args
  | "return" => giveBack args
  | "break" | "continue" => leaveLoops name args
  | "wait" => waitFor r args
  | "builtin" =>
    if args.isEmpty then setStatus 0
    else
      let first := args.headD ""
      failWith 1 "" s!"builtin: {first}: not a shell builtin"
  | name => match builtin? name s.isRich with
    | some run => run args
    | none => setStatus 0

/-- Runs a command of the shell whose failure may end the shell. -/
def callBuiltin (r : Runner) (fatal : Bool) (name : String) (args : List String) : Step Unit := do
  let s ← get
  set { s with command := some name }
  tryCatch (putBack (fun t => { t with command := s.command }) (runBuiltin r name args)) fun
    | .failed => if fatal then throw .failed else return
    | e => throw e

/-! ## Assignments -/

/-- Performs assignments, and tells them again. -/
def assignAll (r : Runner) (exports : Bool) : List Assignment → Step (List String)
  | [] => return []
  | .mk name index adds value :: rest => do
    let shown ← assignBy r (.mk name index adds value)
    let s ← get
    if s.isRich then trace r s.descriptors [shown]
    if exports then
      modify fun s =>
        s.setVariable name (some { (s.bindings.get? name).getD {} with exported := true })
    return shown :: (← assignAll r exports rest)

/-- The name of the variable of an assignment. -/
def assignedName : Assignment → String
  | .mk name .. => name

/-- Performs assignments for a command alone. What cannot be assigned is told, which does not
keep the richer language from running the command. -/
def assignBefore (r : Runner) (assignments : List Assignment) : Step (List String) := do
  let s ← get
  if s.isRich then
    tryCatch (assignAll r true assignments) fun
      | .abandoned => return []
      | e => throw e
  else assignAll r true assignments

/-! ## Simple commands -/

/-- Runs a simple command. -/
def runSimple (r : Runner) (line : Nat) (assignments : List Assignment) (words : List Word)
    (opened : List Redirection) : Step Unit := do
  modify fun s => { s with line := line, outputStatus := 0 }
  let outer := (← get).descriptors
  let (args, lists) ← argumentsBy r words []
  let s ← get
  let call := invocationOf s args
  let name := call.words.headD ""
  let fatal := match call.target with
    | .builtin special => special && !call.wrapped && !s.isRich
    | _ => false
  let keeps := match call.target with
    | .builtin true => name == "exec"
    | _ => false
  let lasting := match call.target with
    | .nothing => true
    | _ => fatal
  let run : Step Unit := do
    let exports := keeps && 1 < call.words.length
    let assigned : Step (List String) :=
      if lasting then assignAll r exports assignments else assignBefore r assignments
    let early ← (if s.isRich then assigned else pure [])
    if !(← openAll r opened) then
      if fatal then throw .failed
      return
    let shown ← (if s.isRich then pure early else assigned)
    traceCall r s.descriptors shown args
    if s.isRich && declares s args then
      let assigned := (args.drop 1).filterMap fun a => match nameAndValue a with
        | (name, some value) =>
          some (name ++ "=" ++ (if value.isEmpty then "" else lightlyQuoted value))
        | _ => none
      trace r s.descriptors assigned
    match call.target with
    | .nothing => modify fun t => { t with status := t.outputStatus }
    | .builtin _ =>
      callBuiltin r fatal name (call.words.drop 1)
      let _ ← lists.mapM (assignBy r)
    | .function body => callFunction r name body (call.words.drop 1)
    | .program => runProgram r call.words call.usual
  let names := if lasting then [] else assignments.map assignedName
  let before := names.map fun n => (n, s.bindings.get? n)
  let back (t : Session) : Session :=
    let t := if keeps then t else { t with descriptors := outer }
    before.foldl (fun t e => t.setVariable e.1 e.2) t
  putBack back run
  if s.isRich then
    modify fun t => { t with pipe := [t.status] }
    match args.getLast? with
    | some a => modify fun t => t.setVariable "_" (some { value := some (.text a) })
    | none => pure ()

end Step

end Provision.Script
