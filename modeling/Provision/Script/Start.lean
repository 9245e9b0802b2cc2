import Provision.Script.Compound
import Provision.Tool.Table

/-!
# Starting shells and programs

A shell reads its options, finds its script and runs it. Files are run as what their bytes say:
programs of the system, scripts whose first line names another program, or texts.
-/

namespace Provision.Script

/-! ## Sessions of shells -/

/-- The variables that a shell has besides those of its environment. -/
def defaults (s : Session) : List (String × Variable) :=
  let plain (name t : String) : String × Variable := (name, { value := some (.text t) })
  let parent := toString (s.ancestors.headD 0)
  if s.isRich then
    let number (name t : String) : String × Variable :=
      (name, { value := some (.text t), fixed := true, numeric := true })
    let release := ["5", "2", "21", "1", "release", "x86_64-pc-linux-gnu"]
    [plain "BASH" "/usr/bin/bash", plain "BASH_VERSION" "5.2.21(1)-release",
      ("BASH_VERSINFO",
        { value := some (.items (release.zipIdx.map fun e => (e.2, e.1))), fixed := true }),
      number "EUID" "0", number "UID" "0", number "PPID" parent,
      plain "HOSTNAME" "localhost", plain "HOSTTYPE" "x86_64",
      plain "MACHTYPE" "x86_64-pc-linux-gnu", plain "OSTYPE" "linux-gnu", plain "SHELL" "/bin/bash",
      plain "TERM" "dumb", plain "OPTERR" "1", plain "OPTIND" "1", plain "IFS" " \t\n",
      plain "PS4" "+ ", ("OLDPWD", { exported := true })]
  else
    [plain "IFS" " \t\n", plain "OPTIND" "1", plain "PPID" parent, plain "PS1" "# ",
      plain "PS2" "> ", plain "PS4" "+ "]

/-- The directory of a process as its environment gives it, if that is right. -/
def directoryOf (p : Process) : String :=
  match p.value? "PWD" with
  | some d =>
    if d.startsWith "/" && (p.locate d).toOption == some p.here then d else p.here.path
  | none => p.here.path

/-- The state of a shell that a process becomes. -/
def Session.ofProcess (dialect : Dialect) (p : Process) : Session :=
  let start : Session :=
    { toProcess := p, dialect := dialect, self := p.number, directory := directoryOf p
      options := if dialect == .bash then ["braceexpand", "hashall", "interactive-comments",
        "sourcepath", "checkwinsize", "cmdhist", "patsub_replacement"] else [] }
  let start := (defaults start).foldl (fun s e => s.setVariable e.1 (some e.2)) start
  let inherit (s : Session) (e : String × String) : Session :=
    if isName e.1 && !(e.1 == "PPID" || (e.1 == "IFS")) then
      s.setVariable e.1 (some { value := some (.text e.2), exported := true })
    else s
  let s := p.environment.foldl inherit start
  let s := if (s.bindings.get? "PATH").isNone then
    s.setVariable "PATH"
      (some { value := some (.text Step.usualPath) })
    else s
  let s := if dialect == .bash then
      let level := ((s.text? "SHLVL").bind Tool.nat?).getD 0
      s.setVariable "SHLVL"
        (some { value := some (.text (toString (level + 1))), exported := true })
    else s
  s.setVariable "PWD" (some { value := some (.text s.directory), exported := true })

/-! ## Options of shells -/

/-- What the arguments of a shell ask for. -/
structure Call where
  session : Session
  /-- Whether the script is an argument. -/
  direct : Bool := false
  /-- Whether the script is the standard input. -/
  standard : Bool := false

/-- Why the arguments of a shell make no sense: the status and the complaint. -/
abbrev Misuse := Nat × String

/-- Reads the options of a shell, and leaves the other arguments. -/
def readOptions : Nat → Call → List String → Except Misuse (Call × List String)
  | 0, c, rest => .ok (c, rest)
  | _, c, [] => .ok (c, [])
  | fuel + 1, c, a :: rest =>
    let rich := c.session.isRich
    let name := c.session.name
    match a.toList with
    | ['-'] | ['-', '-'] => .ok (c, rest)
    | '-' :: '-' :: cs =>
      if !rich then .error (2, s!"{name}: 0: Illegal option --\n")
      else
        let long := String.ofList cs
        if ["norc", "noprofile", "login", "noediting", "restricted", "verbose"].contains long then
          readOptions fuel c rest
        else if long == "posix" then
          readOptions fuel { c with session := c.session.switch "posix" true } rest
        else if long == "rcfile" || long == "init-file" then readOptions fuel c (rest.drop 1)
        else .error (2, s!"{name}: --{long}: invalid option\n")
    | sign :: cs =>
      if (sign == '-' || sign == '+') && !cs.isEmpty then do
        let (c, rest) ← turn (sign == '-') name cs c rest
        readOptions fuel c rest
      else .ok (c, a :: rest)
    | [] => .ok (c, a :: rest)
where
  /-- Turns options on or off by their letters. -/
  turn (on : Bool) (name : String) : List Char → Call → List String →
      Except Misuse (Call × List String)
  | [], c, rest => .ok (c, rest)
  | letter :: cs, c, rest =>
    let sign := if on then "-" else "+"
    let rich := c.session.isRich
    if letter == 'c' then turn on name cs { c with direct := true } rest
    else if letter == 's' then
      turn on name cs { c with standard := true, session := c.session.switch "stdin" true } rest
    else if letter == 'l' || letter == 'i' then turn on name cs c rest
    else if letter == 'o' || (rich && letter == 'O') then
      match rest with
      | [] => turn on name cs c []
      | o :: rest =>
        if letter == 'O' || ((Step.optionTable c.session).any fun e => e.1 == o) then
          turn on name cs { c with session := c.session.switch o on } rest
        else if rich then .error (2, s!"{name}: {o}: invalid option name\n")
        else .error (2, s!"{name}: 0: Illegal option {sign}o {o}\n")
    else match (Step.optionTable c.session).find? fun e => e.2 == some letter with
      | some e => turn on name cs { c with session := c.session.switch e.1 on } rest
      | none =>
        if rich then .error (2, s!"{name}: {sign}{letter}: invalid option\n")
        else .error (2, s!"{name}: 0: Illegal option {sign}{letter}\n")

/-! ## Shells -/

/-- Runs a script to the end of its shell, and the commands that have been put off. -/
def runToEnd (r : Runner) (script : Step Unit) : Step Nat := do
  let status ← Step.untilEnd r script
  Step.runDue r none
  return status

/-- The text of a script in a file, or why there is none: a status and a complaint. -/
def scriptText (s : Session) (file : String) : Except Misuse String :=
  let name := s.name
  let read (path : String) : Except OsError String := s.toProcess.contents path
  let found : Except OsError String := match read file with
    | .error .notFound =>
      if s.isRich && !file.contains '/' then
        match Step.programPath? s file with
        | some path => read path
        | none => .error .notFound
      else .error .notFound
    | r => r
  match found with
  | .ok text => .ok text
  | .error .isDirectory =>
    if s.isRich then .error (126, s!"{file}: {file}: Is a directory\n") else .ok ""
  | .error e =>
    if s.isRich then .error (if e == .notFound then 127 else 126, s!"{name}: {file}: {e.text}\n")
    else
      let complaint := notOpened false file e
      .error (2, s!"{name}: 0: {complaint}\n")

/-- Runs a shell with arguments. -/
def runShell (r : Runner) (dialect : Dialect) (words : List String) : Tool Nat := do
  let p ← get
  let start := Session.ofProcess dialect { p with name := words.headD "" }
  let run (s : Session) (script : Step Unit) : Tool Nat := do
    let (result, s) := (runToEnd r script).run.run s
    set s.toProcess
    return match result with
      | .ok n => n
      | .error (.killed n) => Signal.ended n
      | .error _ => s.status % 256
  let misused (m : Misuse) : Tool Nat := do
    Tool.warn m.2
    return m.1
  match readOptions (words.length + 1) { session := start } (words.drop 1) with
  | .error m => misused m
  | .ok (c, rest) =>
    let name := c.session.name
    let alone := c.session.has "monitor" && !c.session.isRich
    if alone then Tool.warn s!"{name}: 0: can't access tty; job control turned off\n"
    let p ← get
    let s := { c.session with direct := c.direct, streams := p.streams, files := p.files }
    let s := if alone then s.switch "monitor" false else s
    if c.direct then
      match rest with
      | [] => misused (2, if s.isRich then s!"{name}: -c: option requires an argument\n"
          else s!"{name}: 0: -c requires an argument\n")
      | text :: rest =>
        let s := match rest with
          | [] => s
          | name :: parameters => { s with name := name, parameters := parameters }
        run s (Step.runText r text)
    else match if c.standard then none else rest.head? with
      | none =>
        let s := { s with parameters := rest }
        run s (Step.runInput r 1000000 1)
      | some file =>
        match scriptText s file with
        | .error m => misused m
        | .ok text =>
          let s := { s with name := file, parameters := rest.drop 1 }
          run s (Step.runText r text)

/-! ## Files as programs -/

/-- What a file is as a program. -/
inductive Image
  | shell (dialect : Dialect)
  | tool (name : String)
  /-- A script that another program runs, perhaps with an argument before it. -/
  | script (interpreter : String) (argument : Option String)
  | text

/-- The first line of a script that names its interpreter. -/
def interpreterOf? (text : List Char) : Option (String × Option String) :=
  match text with
  | '#' :: '!' :: cs =>
    let blank (c : Char) : Bool := c == ' ' || c == '\t'
    let line := ((cs.takeWhile (· != '\n')).dropWhile blank).reverse.dropWhile blank |>.reverse
    let name := line.takeWhile fun c => !blank c
    let argument := (line.drop name.length).dropWhile blank
    if name.isEmpty then none
    else some (String.ofList name, if argument.isEmpty then none else some (String.ofList argument))
  | _ => none

/-- What bytes are as a program. -/
def imageOf (bytes : List UInt8) : Image :=
  match Files.programName? bytes with
  | some "sh" | some "dash" => .shell .plain
  | some "bash" => .shell .bash
  | some name => .tool name
  | none =>
    match interpreterOf? (Text.Octets.ofBytes bytes).toList with
    | some (interpreter, argument) => .script interpreter argument
    | none => .text

/-- The program in a file that may be run. -/
def programAt (p : Process) (path : String) : Except OsError Image := do
  let e ← p.entry path
  match e.body with
  | .file bytes => if e.isExecutable then return imageOf bytes else throw .permissionDenied
  | _ => throw .permissionDenied

/-- Finds the file of a program by its name: of the files in the directories of the search path
the first one that may be run, or else the first one that is there. -/
def findProgram (p : Process) (name : String) : Except OsError String :=
  if name.isEmpty then .error .notFound
  else if name.contains '/' then
    match p.entry name with
    | .ok _ => .ok name
    | .error e => .error e
  else if 255 < name.length then .error .nameTooLong
  else
    let dirs := ((p.value? "PATH").getD "/bin:/usr/bin").splitOn ":"
    let candidates := dirs.map fun d => if d.isEmpty then "./" ++ name else d ++ "/" ++ name
    let fits (path : String) : Bool := (programAt p path).isOk
    let present (path : String) : Bool := (p.entry path).isOk
    match (candidates.find? fits).orElse fun _ => candidates.find? present with
    | some path => .ok path
    | none => .error .notFound

/-- Starts a program by its name. A text is run by the common shell. -/
def launchBy (execute : String → Tool.Launch) : Tool.Launch := fun words => do
  match findProgram (← get) (words.headD "") with
  | .error e => return .error e
  | .ok path =>
    match ← execute path words with
    | .error .badFormat => execute "/bin/sh" ("/bin/sh" :: path :: words.drop 1)
    | result => return result

/-- Starts the program in a file: a tool, a shell, or what the file names in its first line. -/
def executeBy (r : Runner) : Nat → String → Tool.Launch
  | 0, _, _ => return .error .tooManyLinks
  | fuel + 1, path, words => do
    let p ← get
    match programAt p path with
    | .error e => return .error e
    | .ok .text => return .error .badFormat
    | .ok (.script interpreter argument) =>
      executeBy r fuel interpreter (interpreter :: argument.toList ++ path :: words.drop 1)
    | .ok image =>
      let child := { p with name := words.headD "" }
      let work : Tool Nat := match image with
        | .shell dialect => runShell r dialect words
        | .tool name =>
          let children : Tool.Launch := fun words => do
            let p ← get
            set p.child
            let result ← launchBy r.execute words
            modify p.after
            return result
          match Tool.named? children name with
          | some run => run (words.drop 1)
          | none => Tool.fail 1 "not supported"
        | _ => return 0
      let (n, q) := (Tool.perform work).run child
      set q
      return .ok n

/-! ## The runner -/

/-- The runner that can go as deep as a number says. -/
def runner : Nat → Runner
  | 0 =>
    { command := fun _ => throw (.killed 11)
      pieces := fun _ _ => throw (.killed 11)
      text := fun _ => throw (.killed 11)
      execute := fun _ _ => return .ok (Signal.ended 11)
      limit := 0 }
  | depth + 1 =>
    { command := fun c => Step.runCommand (runner depth) c
      pieces := fun m w => Step.expandPieces (runner depth) m w
      text := fun t => Step.runText (runner depth) t
      execute := fun path words => executeBy (runner depth) 5 path words
      limit := depth }

/-- How deep scripts may go. -/
def maxDepth : Nat := 20000

end Provision.Script
