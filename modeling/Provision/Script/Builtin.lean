import Provision.Script.Directory
import Provision.Script.Job
import Provision.Script.Reading
import Provision.Script.Variable
import Provision.Tool.Condition
import Provision.Tool.Mode
import Provision.Tool.System

/-!
# The commands of the shell itself

Commands that change what the shell knows, and some that exist as programs as well but are
done by the shell itself. They are found by their names.
-/

namespace Provision.Script

namespace Step

/-! ## Printing commands -/

/-- Prints its arguments. -/
def echo (args : List String) : Step Unit := do
  let s ← get
  if s.isRich then
    let (breaks, escapes, rest) := Tool.echoOptions true (s.has "xpg_echo") args
    print (PrintStyle.rich.echoed breaks escapes rest)
  else
    let breaks := args.head? != some "-n"
    print (PrintStyle.plain.echoed breaks true (if breaks then args else args.drop 1))
  setStatus 0

/-- Prints by a format. -/
def printf (args : List String) : Step Unit := do
  let s ← get
  let (given, operands) ←
    optionsOf (if s.isRich then "v:" else "") "printf [-v var] format [arguments]"
    args
  match operands with
  | [] =>
    if s.isRich then
      modify fun s => s.warn "printf: usage: printf [-v var] format [arguments]\n"
      setStatus 2
    else failWith 2 "usage: printf format [arg ...]" ""
  | format :: rest =>
    let style : PrintStyle := if s.isRich then .rich else .plain
    let out := style.printed format rest
    for c in out.complaints do complain c s!"printf: {c}"
    match given.getLast? with
    | some (_, name) => assign name out.text
    | none => print out.text
    setStatus (if out.complaints.isEmpty then 0 else if out.broken && !s.isRich then 2 else 1)

/-! ## Conditions -/

/-- What the richer language asks of variables and options. -/
def asked (s : Session) (op : String) : Option (String → Bool) :=
  match op with
  | "-v" => some fun name =>
    let base := String.ofList (name.toList.takeWhile (· != '['))
    if base == name then (s.text? name).isSome
    else
      let index := String.ofList ((name.toList.drop (base.length + 1)).dropLast)
      if Arithmetic.hasNames s base then (Arithmetic.element? s base (.inl index)).isSome
      else match Arithmetic.evaluate s index with
        | .ok (i, _) => (Arithmetic.element? s base (.inr i)).isSome
        | .error _ => false
  | "-o" => some s.has
  | "-a" => some fun path => (s.toProcess.entry path).isOk
  | _ => none

/-- How a language tests conditions. -/
def mannerOf (s : Session) : Condition.Manner :=
  if s.isRich then { style := .rich, extra := asked s } else { style := .plain }

/-- Tells by the status whether a condition holds. -/
def test (name : String) (args : List String) : Step Unit := do
  let s ← get
  let m := mannerOf s
  let result := do
    let args ← Condition.ofCommand name args
    Condition.holds m s.toProcess args
  match result with
  | .ok b => setStatus (if b then 0 else 1)
  | .error e =>
    let text := e.message m.style
    complain text s!"{name}: {text}"
    setStatus 2

/-! ## Permissions -/

/-- Prints the permissions that new files do not get, or sets them. -/
def umask (args : List String) : Step Unit := do
  let s ← get
  let (given, operands) ← optionsOf (if s.isRich then "Sp" else "S") "" args
  let symbolic := given.any fun e => e.1 == 'S'
  let octal (n : Nat) : String :=
    let digits := Tool.Mode.octal n
    "".pushn '0' (4 - digits.length) ++ digits
  let letters (n : Nat) : String :=
    let group (bits : Nat) : String :=
      (if bits &&& 4 == 0 then "r" else "") ++ (if bits &&& 2 == 0 then "w" else "") ++
        (if bits &&& 1 == 0 then "x" else "")
    s!"u={group (n / 64)},g={group (n / 8)},o={group n}"
  match operands with
  | [] =>
    let shown := if symbolic then letters s.mask else octal s.mask
    let printable := if given.any fun e => e.1 == 'p' then
      (if symbolic then "umask -S " else "umask ") ++ shown else shown
    printLine printable
    setStatus 0
  | a :: _ =>
    if a.toList.head?.any Char.isDigit then
      match Tool.Mode.ofOctal? a with
      | some n =>
        set { s with mask := n % 512 }
        if symbolic && s.isRich then printLine (letters (n % 512))
        setStatus 0
      | none => failWith 1 s!"Illegal number: {a}" s!"umask: {a}: octal number out of range"
    else match Tool.Mode.changes? a with
      | some cs =>
        let allowed := cs.foldl (Tool.Mode.Change.apply 0 false) (0o777 - s.mask % 512)
        let mask := 0o777 - allowed % 512
        set { s with mask := mask }
        if symbolic && s.isRich then printLine (letters mask)
        setStatus 0
      | none => failWith 1 s!"Illegal mode: {a}" s!"umask: \x60{a}': invalid symbolic mode operator"

/-! ## Other names for commands -/

/-- Gives commands other names, or prints these. -/
def rename (args : List String) : Step Unit := do
  let s ← get
  let shown (name text : String) : String :=
    if s.isRich then s!"alias {name}={quotedRich text}\n" else s!"{name}={quotedText text}\n"
  if args.isEmpty then
    let before (a b : String × String) : Bool :=
      if s.isRich then !(b.1 < a.1) else Session.bucket a.1 ≤ Session.bucket b.1
    let sortedNames := s.aliases.entries.mergeSort before
    print (String.join (sortedNames.map fun (n, t) => shown n t))
  let mut status := 0
  for word in args do
    match nameAndValue word with
    | (name, some text) => modify fun s => { s with aliases := s.aliases.insert name text }
    | (name, none) => match (← get).aliases.get? name with
      | some t => print (shown name t)
      | none =>
        if s.isRich then complain "" s!"alias: {name}: not found"
        else modify fun s => s.warn s!"alias: {name} not found\n"
        status := 1
  setStatus status
where
  /-- A text between single quotes in the richer language. -/
  quotedRich (t : String) : String := "'" ++ escapedQuotes t ++ "'"

/-- Takes other names of commands away. -/
def unalias (args : List String) : Step Unit := do
  let s ← get
  let (given, operands) ← optionsOf "a" "unalias [-a] name [name ...]" args
  if !given.isEmpty then modify fun s => { s with aliases := {} }
  if s.isRich && given.isEmpty && operands.isEmpty then
    modify fun s => s.warn "unalias: usage: unalias [-a] name [name ...]\n"
    setStatus 2
    return
  let mut status := 0
  for name in operands do
    if (← get).aliases.contains name then
      modify fun s => { s with aliases := s.aliases.erase name }
    else
      if s.isRich then complain "" s!"unalias: {name}: not found"
      else modify fun s => s.warn s!"unalias: {name} not found\n"
      status := 1
  setStatus status

/-! ## Which commands there are -/

/-- The commands whose failure ends a shell. -/
def special : List String :=
  [".", ":", "break", "continue", "eval", "exec", "exit", "export", "local", "readonly", "return",
    "set", "shift", "times", "trap", "unset"]

/-- The other commands of the shell. -/
def regular : List String :=
  ["[", "alias", "bg", "cd", "command", "echo", "false", "fg", "getopts", "hash", "jobs", "kill",
    "printf", "pwd", "read", "test", "true", "type", "ulimit", "umask", "unalias", "wait"]

/-- The commands that the richer language has besides. -/
def richer : List String :=
  ["source", "declare", "typeset", "let", "shopt", "builtin", "mapfile", "readarray", "disown",
    "caller", "dirs", "popd", "pushd", "enable", "help", "history", "logout", "suspend"]

/-- Whether a command is one of the shell itself. -/
def isBuiltin (s : Session) (name : String) : Bool :=
  special.contains name || regular.contains name || (s.isRich && richer.contains name)

/-- The directories in which programs are looked for. -/
def searchPath (s : Session) : List String := ((s.text? "PATH").getD "").splitOn ":"

/-- Where a program is found. -/
def programPath? (s : Session) (name : String) : Option String :=
  (Tool.programPaths s.toProcess (searchPath s) name).head?

/-- What a name stands for. -/
inductive Kind
  | keyword
  | renamed (text : String)
  | function
  | builtin (special : Bool)
  | program (path : String)

/-- What a name stands for where a command begins. -/
def kindOf (s : Session) (name : String) : Option Kind :=
  if (keywords s.isRich).contains name then some .keyword
  else match if s.isRich && !s.has "expand_aliases" then none else s.aliases.get? name with
    | some t => some (.renamed t)
    | none =>
      let isSpecial := special.contains name
      if !s.isRich && isSpecial then some (.builtin true)
      else if s.functions.contains name then some .function
      else if isBuiltin s name then some (.builtin false)
      else if name.contains '/' && !s.isRich then
        if (s.toProcess.entry name).isOk then some (.program name) else none
      else (programPath? s name).map .program

/-- Remembers that a program has been found. -/
def remember (name : String) : Step Unit := modify fun s =>
  if s.isRich || name.contains '/' || s.found.contains name then s
  else { s with found := s.found ++ [name] }

/-- Tells what a name stands for, in words or in short. -/
def describe (inWords : Bool) (name : String) : Step Bool := do
  let s ← get
  match kindOf s name with
  | none =>
    if inWords then
      if s.isRich then
        let command := s.command.getD ""
        complain "" s!"{command}: {name}: not found"
      else printLine s!"{name}: not found"
    return false
  | some kind =>
    match kind, inWords with
    | .keyword, true => printLine s!"{name} is a shell keyword"
    | .renamed t, true =>
      printLine (if s.isRich then s!"{name} is aliased to \x60{t}'"
        else s!"{name} is an alias for {t}")
    | .renamed t, false => printLine s!"alias {name}={quotedText t}"
    | .function, true => printLine (if s.isRich then s!"{name} is a function"
        else s!"{name} is a shell function")
    | .builtin isSpecial, true =>
      let kind := if isSpecial then "special " else ""
      printLine s!"{name} is a {kind}shell builtin"
    | .program path, true =>
      if s.found.contains name then printLine s!"{name} is a tracked alias for {path}"
      else printLine s!"{name} is {path}"
      remember name
    | .program path, false =>
      printLine path
      remember name
    | _, false => printLine name
    return true

/-- The words of the richer language for what a name stands for. -/
def kindWord : Kind → String
  | .keyword => "keyword"
  | .renamed _ => "alias"
  | .function => "function"
  | .builtin _ => "builtin"
  | .program _ => "file"

/-- Tells what names stand for. -/
def typeCommand (args : List String) : Step Unit := do
  let s ← get
  let (given, names) ← (if s.isRich then optionsOf "afptP" "" args else pure ([], args))
  let has (c : Char) : Bool := given.any fun e => e.1 == c
  let mut status := 0
  for name in names do
    if has 't' then
      match kindOf s name with
      | some k => printLine (kindWord k)
      | none => status := 1
    else if has 'p' || has 'P' then
      match kindOf s name, programPath? s name with
      | some (.program p), _ => printLine p
      | _, some p => if has 'P' then printLine p
      | _, none => status := 1
    else if !(← describe true name) then status := if s.isRich then 1 else 127
  setStatus status

/-- Remembers where programs are. -/
def hash (args : List String) : Step Unit := do
  let s ← get
  let mut status := 0
  for name in args do
    if name == "-r" then modify fun s => { s with found := [] }
    else if !name.startsWith "-" then
      if (kindOf s name).isNone then
        complain s!"{name}: not found" s!"hash: {name}: not found"
        status := 1
      else if (programPath? s name).isSome then remember name
  if args.isEmpty then
    if s.isRich then printLine "hash: hash table empty"
    else
      let place (name : String) : Nat :=
        (name.toList.foldl (fun n c => n + c.toNat) ((name.toList.headD '\x00').toNat * 16)) % 31
      let known := s.found.mergeSort fun a b => place a ≤ place b
      print (String.join (known.filterMap fun name => (programPath? s name).map (· ++ "\n")))
  setStatus status

/-! ## Options of the richer language -/

/-- The further options of the richer language. -/
def shellOptions : List String :=
  ["autocd", "cdspell", "checkhash", "checkwinsize", "cmdhist", "dotglob", "execfail",
    "expand_aliases", "extdebug", "extglob", "extquote", "failglob", "globasciiranges",
    "globskipdots", "globstar", "histappend", "hostcomplete", "huponexit", "inherit_errexit",
    "interactive_comments", "lastpipe", "lithist", "localvar_inherit", "login_shell", "nocaseglob",
    "nocasematch", "nullglob", "patsub_replacement", "progcomp", "promptvars", "sourcepath",
    "xpg_echo"]

/-- Turns further options on or off, or tells whether they are on. -/
def shopt (args : List String) : Step Unit := do
  let (given, names) ← optionsOf "supqo" "shopt [-pqsu] [-o] [optname ...]" args
  let has (c : Char) : Bool := given.any fun e => e.1 == c
  let mut status := 0
  for name in names do
    if !shellOptions.contains name && !(richOptions.any fun e => e.1 == name) then
      complain "" s!"shopt: {name}: invalid shell option name"
      status := 1
    else if has 's' then modify fun s => s.switch name true
    else if has 'u' then modify fun s => s.switch name false
    else
      let on := (← get).has name
      if !on then status := 1
      if !has 'q' then
        let state := if on then "on" else "off"
        printLine (Tool.padRight 15 name ++ "\t" ++ state)
  setStatus status

/-- Calculates its arguments. -/
def letCommand (args : List String) : Step Unit := do
  if args.isEmpty then failWith 1 "" "let: expression expected"
  for text in args do
    match Arithmetic.evaluate (← get) text with
    | .ok (n, s) => set { s with status := if n == 0 then 1 else 0 }
    | .error (.wrong m) => failWith 1 m s!"let: {m}"
    | .error (.fixed name) => refuseChange name
    | .error (.unset name) => failWith 1 "" s!"{name}: unbound variable"

/-! ## The table -/

/-- The commands that run no others. -/
def builtin? (name : String) (rich : Bool) : Option (List String → Step Unit) :=
  match name with
  | ":" | "true" => some fun _ => setStatus 0
  | "false" => some fun _ => setStatus 1
  | "echo" => some echo
  | "printf" => some printf
  | "test" | "[" => some (test name)
  | "cd" => some cd
  | "pwd" => some pwd
  | "export" => some (mark false)
  | "readonly" => some (mark true)
  | "unset" => some unset
  | "local" => some (if rich then declare "local" else localVariables)
  | "set" => some setCommand
  | "shift" => some shift
  | "read" => some read
  | "getopts" => some getopts
  | "trap" => some trap
  | "kill" => some kill
  | "wait" => some wait
  | "umask" => some umask
  | "alias" => some rename
  | "unalias" => some unalias
  | "type" => some typeCommand
  | "hash" => some hash
  | "jobs" => some jobs
  | "fg" => some fun _ => failWith 1 "No current job" "fg: no job control"
  | "bg" => some fun _ => failWith 1 "No current job" "bg: no job control"
  | "times" => some fun _ => do
    print (if rich then "0m0.000s 0m0.000s\n0m0.000s 0m0.000s\n"
      else "0m0.000000s 0m0.000000s\n0m0.000000s 0m0.000000s\n")
    setStatus 0
  | "ulimit" => some fun args => do
    let (given, operands) ←
      optionsOf (if rich then "SHabcdefiklmnpqrstuvxPRT" else "HSatfdscmlpnvwr")
      "ulimit [-SHabcdefiklmnpqrstuvxPRT] [limit]" args
    if operands.isEmpty then
      let last := (given.getLast?.map Prod.fst).getD 'f'
      printLine (if last == 'n' then "1024" else if last == 'c' then "0" else "unlimited")
    setStatus 0
  | _ =>
    if !rich then none
    else match name with
      | "declare" | "typeset" => some (declare name)
      | "let" => some letCommand
      | "shopt" => some shopt
      | "mapfile" | "readarray" => some readLines
      | "enable" | "help" | "history" => some fun _ => setStatus 0
      | "disown" => some fun _ => failWith 1 "" "disown: current: no such job"
      | "suspend" => some fun _ => failWith 1 "" "suspend: cannot suspend: no job control"
      | "logout" => some fun _ => failWith 1 "" "logout: not login shell: use \x60exit'"
      | "caller" => some fun _ => setStatus 1
      | "pushd" => some push
      | "popd" => some fun _ => pop
      | "dirs" => some fun _ => listDirectories
      | _ => none

end Step

end Provision.Script
