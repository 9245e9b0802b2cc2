import Provision.Script.Argument

/-!
# Directories

The shell keeps the path by which the user came to its directory, and the directories that are to
be gone back to.
-/

namespace Provision.Script.Step

/-! ## Directories -/

/-- The names of a path after another one, none of which is a dot or two dots. -/
def stepDown (done : List String) (name : String) : List String :=
  if name.isEmpty || name == "." then done
  else if name == ".." then done.dropLast else done ++ [name]

/-- A path from the root, with the names that lead back taken away. -/
def plainPath (path : String) : String :=
  let names := (path.splitOn "/").foldl stepDown []
  let start := if path.startsWith "//" && !path.startsWith "///" then "//" else "/"
  start ++ "/".intercalate names

/-- Enters a directory. -/
def enter (path : String) (physical : Bool) : Step (Except OsError Unit) := do
  let s ← get
  let wanted := if path.startsWith "/" then path else s.directory ++ "/" ++ path
  let target := if physical then path else plainPath wanted
  match s.toProcess.locate target with
  | .error e => return .error e
  | .ok place =>
    match s.files.get? place with
    | none => return .error .notFound
    | some e =>
      if !e.isDirectory then return .error .notDirectory
      let directory := if physical then place.path else target
      let s := s.put "OLDPWD" s.directory
      let s := { s with here := place, directory := directory }
      let s := s.put "PWD" directory
      let export_ (s : Session) (name : String) : Session :=
        s.setVariable name (some { (s.bindings.get? name).getD {} with exported := true })
      set (export_ (export_ s "OLDPWD") "PWD")
      return .ok ()

/-- Enters a directory, or goes back to the one before. -/
def cd (args : List String) : Step Unit := do
  let s ← get
  let rich := s.isRich
  let (given, operands) ← optionsOf (if rich then "LPe@" else "LP")
    "cd [-L|[-P [-e]] [-@]] [dir]" args
  let physical := (given.getLast?.map Prod.fst) == some 'P'
  if rich && 1 < operands.length then failWith 1 "" "cd: too many arguments"
  let named (name : String) : Step String := do
    match s.text? name with
    | some t => return t
    | none => if rich then failWith 1 "" s!"cd: {name} not set" else return ""
  let (path, shown) ← (match operands with
    | [] => do return (← named "HOME", false)
    | "-" :: _ => do return (← named "OLDPWD", true)
    | p :: _ => pure (p, false))
  let relative := !path.startsWith "/" && path != "." && path != ".." &&
    !path.startsWith "./" && !path.startsWith "../"
  let searched := if relative && !path.isEmpty then
    ((s.text? "CDPATH").elim [] fun t => t.splitOn ":").map fun d =>
      if d.isEmpty then (path, false)
      else (d ++ (if rich && d.endsWith "/" then "" else "/") ++ path, true) else []
  let isFolder (p : String) : Bool := match s.toProcess.entry p with
    | .ok e => e.isDirectory
    | .error _ => false
  let (target, shown) := match searched.find? fun e => isFolder e.1 with
    | some (p, print) => (p, shown || print)
    | none => (if path.isEmpty then "." else path, shown)
  match ← enter target physical with
  | .error e => failWith 1 s!"can't cd to {path}" s!"cd: {path}: {e.text}"
  | .ok () =>
    if shown then printLine (← get).directory
    setStatus 0

/-- Prints the directories that can be gone back to, the present one first. -/
def listDirectories : Step Unit := do
  let s ← get
  let home := (s.text? "HOME").getD ""
  let short (path : String) : String :=
    if home.isEmpty || home == "/" then path
    else if path == home then "~"
    else if path.startsWith (home ++ "/") then
      "~" ++ String.ofList (path.toList.drop home.length)
    else path
  printLine (" ".intercalate ((s.directory :: s.stack).map short))
  setStatus 0

/-- Enters a directory that can be left again; without an argument it is the last one that was
left. -/
def push (args : List String) : Step Unit := do
  let s ← get
  let goTo (path : String) (stack : List String) : Step Unit := do
    match ← enter path false with
    | .error e => failWith 1 "" s!"pushd: {path}: {e.text}"
    | .ok () =>
      modify fun t => { t with stack := stack }
      listDirectories
  match args, s.stack with
  | [], [] => failWith 1 "" "pushd: no other directory"
  | [], d :: rest => goTo d (s.directory :: rest)
  | [path], stack => goTo path (s.directory :: stack)
  | _, _ => failWith 1 "" "pushd: too many arguments"

/-- Goes back to the directory that was left last. -/
def pop : Step Unit := do
  match (← get).stack with
  | [] => failWith 1 "" "popd: directory stack empty"
  | d :: rest =>
    match ← enter d false with
    | .error e => failWith 1 "" s!"popd: {d}: {e.text}"
    | .ok () =>
      modify fun t => { t with stack := rest }
      listDirectories

/-- Prints the present directory. -/
def pwd (args : List String) : Step Unit := do
  let (given, _) ← optionsOf "LP" "pwd [-LP]" args
  let s ← get
  printLine (if (given.getLast?.map Prod.fst) == some 'P' then s.here.path else s.directory)
  setStatus 0

end Provision.Script.Step
