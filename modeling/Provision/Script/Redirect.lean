import Provision.Script.Runner

/-!
# Redirections

Before a command is run, its descriptors are made to lead elsewhere: to files, to where other
descriptors lead, or to texts of the script.
-/

namespace Provision.Script

/-! ## Wordings -/

/-- What the common language says of a file that cannot be opened. -/
def notOpened (creates : Bool) (path : String) (e : OsError) : String :=
  let missing := e == .notFound || e == .notDirectory
  if creates then
    let why := if missing then "Directory nonexistent" else e.text
    s!"cannot create {path}: {why}"
  else
    let why := if missing then "No such file" else e.text
    s!"cannot open {path}: {why}"

namespace Step

/-! ## Opening -/

/-- Says that a descriptor could not be opened. -/
def unopened (plain rich : String) : Step Bool := do
  complain plain rich
  let s ← get
  setStatus (if s.isRich then 1 else 2)
  return false

/-- Makes a descriptor lead to what a file contains. -/
def openPath (n : Nat) (how : Opening) (path : String) : Step Bool := do
  let s ← get
  let protects := s.has "noclobber"
  let access : Process.Access := match how with
    | .read => .read
    | .readWrite => .readWrite
    | .append | .both true => .append
    | .write always => .write (protects && !always)
    | _ => .write protects
  match s.openFile path access with
  | .ok (p, i) =>
    let p := p.redirect n (some i)
    let p := match how with
      | .both _ => p.redirect 2 (some i)
      | _ => p
    set { s with toProcess := p }
    return true
  | .error e =>
    let creates := how != .read && !(e == .isDirectory && access == .write true)
    let why := if e == .exists then "cannot overwrite existing file" else e.text
    unopened (notOpened creates path e) s!"{path}: {why}"

/-- Makes a descriptor lead to where another one leads. -/
def openCopy (n : Nat) (target : String) : Step Bool := do
  let s ← get
  let (number, moves) := if s.isRich && target.endsWith "-" && 1 < target.length
    then (String.ofList target.toList.dropLast, true) else (target, false)
  if target == "-" then
    set { s with toProcess := s.toProcess.redirect n none }
    return true
  else match Tool.nat? number with
    | some m =>
      if 1 < number.length && !s.isRich then
        failWith 2 "Syntax error: Bad fd number" ""
      match s.target? m with
      | some i =>
        let p := s.toProcess.redirect n (some i)
        set { s with toProcess := if moves then p.redirect m none else p }
        return true
      | none =>
        if n == m then return true
        unopened s!"{m}: Bad file descriptor" s!"{m}: Bad file descriptor"
    | none =>
      if s.isRich then
        if n == 1 && target != "" then openPath 1 (.both false) target
        else unopened "" s!"{target}: ambiguous redirect"
      else failWith 2 "Syntax error: Bad fd number" ""

/-- Makes a descriptor lead to what a redirection says. -/
def openOne (n : Nat) (how : Opening) (target : String) : Step Bool := do
  match how with
  | .copy => openCopy n target
  | .document | .line =>
    let s ← get
    let text := if how = .line then target ++ "\n" else target
    let (p, i) := s.toProcess.add (.buffer text)
    set { s with toProcess := p.redirect n (some i) }
    return true
  | how => openPath n how target

end Step

end Provision.Script
