import Provision.Tool

/-!
# Paths

Programs that take paths apart, and those that tell where links lead.
-/

namespace Provision.Tool

/-- A text without the slashes at its end, unless it is nothing else. -/
def trimSlashes (s : String) : String :=
  let kept := (s.toList.reverse.dropWhile (· == '/')).reverse
  if kept.isEmpty then (if s.isEmpty then "" else "/") else String.ofList kept

/-- The last name of a path. -/
def nameOf (path : String) : String :=
  let s := trimSlashes path
  if s == "/" then s else (s.splitOn "/").getLast?.getD s

/-- What stands before the last name of a path. -/
def parentOf (path : String) : String :=
  let s := trimSlashes path
  if s == "/" then s
  else match (s.splitOn "/").dropLast with
    | [] => "."
    | names =>
      let dir := "/".intercalate names
      if dir.isEmpty || dir.toList.all (· == '/') then "/" else trimSlashes dir

/-- A name below a directory. -/
def below (directory name : String) : String :=
  if directory.endsWith "/" then directory ++ name else directory ++ "/" ++ name

/-- Prints the last names of paths. -/
def basename (args : List String) : Tool Nat := do
  let (given, operands) ← options
    [⟨'a', "multiple", .never⟩, ⟨'s', "suffix", .always⟩, ⟨'z', "zero", .never⟩] args 1 false
  let ending := if given.has 'z' then "\x00" else "\n"
  let cut (name suffix : String) : String :=
    if name.endsWith suffix && name != suffix then
      String.ofList (name.toList.take (name.length - suffix.length))
    else name
  let several := given.has 'a' || given.has 's'
  match operands with
  | [] => refuse 1 "missing operand"
  | path :: rest =>
    if several then
      let suffix := (given.value? 's').getD ""
      put (String.join (operands.map fun p => cut (nameOf p) suffix ++ ending))
    else match rest with
      | [] => put (nameOf path ++ ending)
      | [suffix] => put (cut (nameOf path) suffix ++ ending)
      | _ :: extra :: _ => refuse 1 s!"extra operand {quoted extra}"
    return 0

/-- Prints what stands before the last names of paths. -/
def dirname (args : List String) : Tool Nat := do
  let (given, operands) ← options [⟨'z', "zero", .never⟩] args
  if operands.isEmpty then refuse 1 "missing operand"
  let ending := if given.has 'z' then "\x00" else "\n"
  put (String.join (operands.map fun p => parentOf p ++ ending))
  return 0

/-- What has to be there for a path to be resolved. -/
inductive Demand
  /-- All of it, or all but its last name, or nothing. -/
  | all | parents | nothing

/-- Where names lead if those that lead nowhere count as themselves. -/
def looselyFrom (f : Files) : Nat → Place → List String → Place
  | 0, p, _ => p
  | _, p, [] => p
  | fuel + 1, p, name :: rest =>
    if name == "" || name == "." then looselyFrom f fuel p rest
    else if name == ".." then looselyFrom f fuel p.dropLast rest
    else match f.walk true Files.maxSteps p [name] with
      | .ok q => looselyFrom f fuel q rest
      | .error _ => looselyFrom f fuel (p ++ [name]) rest

/-- The place that a path leads to, through all links. -/
def resolve (p : Process) (demand : Demand) (path : String) : Except OsError Place := do
  if path.isEmpty then throw .notFound
  match demand with
  | .all =>
    let place ← p.locate path
    discard (p.files.entryAt place)
    return place
  | .parents => p.locate (if path == "/" then path else trimSlashes path)
  | .nothing =>
    let names := path.splitOn "/"
    let start : Place := if path.startsWith "/" then [] else p.here
    return looselyFrom p.files (names.length + 1) start names

/-- Prints where links lead. -/
def readlink (args : List String) : Tool Nat := do
  let (given, operands) ← options
    [⟨'f', "canonicalize", .never⟩, ⟨'e', "canonicalize-existing", .never⟩,
      ⟨'m', "canonicalize-missing", .never⟩, ⟨'n', "no-newline", .never⟩,
      ⟨'q', "quiet", .never⟩, ⟨'s', "silent", .never⟩, ⟨'v', "verbose", .never⟩,
      ⟨'z', "zero", .never⟩] args
  if operands.isEmpty then refuse 1 "missing operand"
  let ending := if given.has 'n' && operands.length == 1 then ""
    else if given.has 'z' then "\x00" else "\n"
  forEach operands fun path => do
    let p ← get
    let found : Except OsError String := match given.last? ['f', 'e', 'm'] with
      | some 'f' => (resolve p .parents path).map Place.path
      | some 'e' => (resolve p .all path).map Place.path
      | some _ => (resolve p .nothing path).map Place.path
      | none => match p.entryLink path with
        | .ok ⟨.link target, _, _⟩ => .ok target
        | .ok _ => .error .invalid
        | .error e => .error e
    match found with
    | .ok s =>
      put (s ++ ending)
      return 0
    | .error e =>
      if given.has 'v' then complain s!"{path}: {e.text}"
      return 1

/-- Prints paths without links in them. -/
def realpath (args : List String) : Tool Nat := do
  let (given, operands) ← options
    [⟨'e', "canonicalize-existing", .never⟩, ⟨'m', "canonicalize-missing", .never⟩,
      ⟨'s', "strip", .never⟩, ⟨'q', "quiet", .never⟩, ⟨'z', "zero", .never⟩,
      ⟨'L', "logical", .never⟩, ⟨'P', "physical", .never⟩] args
  if operands.isEmpty then refuse 1 "missing operand"
  let demand : Demand := match given.last? ['e', 'm'] with
    | some 'e' => .all
    | some _ => .nothing
    | none => .parents
  forEach operands fun path => do
    match resolve (← get) demand path with
    | .ok place =>
      put (place.path ++ if given.has 'z' then "\x00" else "\n")
      return 0
    | .error e =>
      if !given.has 'q' then complain s!"{path}: {e.text}"
      return 1

end Provision.Tool
