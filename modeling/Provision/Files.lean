import Provision.Shell
import Provision.Text.Octets

/-!
# Trees of files

The files that commands can reach, as a table from places to entries. A path is walked one
name after another, and links are followed on the way. What the table does not hold may still
be part of the system, which is the same in every tree. Names and paths are texts of octets.

> `locate`: where a path leads.
-/

namespace Provision

/-- What an entry of a tree is. -/
inductive FileBody
  | file (bytes : List UInt8)
  | directory
  | link (target : String)
  /-- A device of the system. -/
  | device
deriving DecidableEq

/-- An entry of a tree with its permissions and the time when it was changed last. -/
structure FileEntry where
  body : FileBody
  mode : Nat
  time : Int := 0
deriving DecidableEq

namespace FileEntry

/-- A file that everybody can read. -/
def plain (bytes : List UInt8) : FileEntry := ⟨.file bytes, 0o644, 0⟩

/-- A directory that everybody can enter. -/
def folder : FileEntry := ⟨.directory, 0o755, 0⟩

/-- Whether an entry is a directory. -/
def isDirectory (e : FileEntry) : Bool := e.body == .directory

/-- Whether an entry may be run by somebody. -/
def isExecutable (e : FileEntry) : Bool := e.mode &&& 0o111 != 0

end FileEntry

/-- A place: the names from the root. -/
abbrev Place := List String

/-- A place as an absolute path. -/
def Place.path (p : Place) : String := "/" ++ "/".intercalate p

/-- A tree: its entries by place. -/
structure Files where
  entries : List (Place × FileEntry) := []
  /-- Counts the changes. -/
  clock : Nat := 0

namespace Files

/-! ## The system -/

/-- The directory in which commands run. -/
def home : Place := ["tmp", "work"]

/-- The directories that every tree has. -/
def systemDirectories : List Place :=
  [[], ["tmp"], home, ["dev"], ["dev", "shm"], ["etc"], ["bin"], ["sbin"], ["usr"], ["usr", "bin"],
    ["usr", "sbin"], ["usr", "lib"], ["usr", "share"], ["usr", "local"], ["usr", "local", "bin"],
    ["proc"], ["sys"], ["root"], ["home"], ["var"], ["var", "log"], ["var", "tmp"], ["var", "lib"],
    ["opt"], ["lib"], ["run"], ["srv"], ["mnt"], ["media"], ["boot"]]

/-- The devices that every tree has. -/
def systemDevices : List String := ["null", "zero", "full", "tty", "stdin", "stdout", "stderr"]

/-- The programs that every tree has. -/
def systemPrograms : List String :=
  ["sh", "dash", "bash", "[", "arch", "awk", "base64", "basename", "cat", "chgrp", "chmod",
    "chown", "cmp", "comm", "cp", "cut", "date", "dd", "diff", "dirname", "du", "echo", "egrep",
    "env", "expand", "expr", "false", "fgrep", "find", "fold", "grep", "groups", "head",
    "hostname", "id", "install", "join", "kill", "ln", "ls", "md5sum", "mkdir", "mktemp", "mv",
    "nice", "nl", "nohup", "nproc", "od", "paste", "perl", "pr", "printenv", "printf", "pwd",
    "readlink", "realpath", "rev", "rm", "rmdir", "sed", "seq", "setsid", "sha1sum", "sha256sum",
    "sleep", "sort", "split", "stat", "stdbuf", "sync", "tac", "tail", "tar", "tee", "test",
    "timeout", "touch", "tr", "true", "truncate", "tty", "uname", "unexpand", "uniq", "wc",
    "which", "whoami", "xargs", "yes"]

/-- The bytes of the program of a name. -/
def program (name : String) : List UInt8 := [0x7F, 0x45, 0x4C, 0x46] ++ Text.Utf8.encode name

/-- The name of the program that bytes are. -/
def programName? : List UInt8 → Option String
  | 0x7F :: 0x45 :: 0x4C :: 0x46 :: name => some (Text.Octets.ofBytes name)
  | _ => none

/-- The texts that every tree has. -/
def systemTexts : List (Place × String) :=
  [(["etc", "passwd"], "root:x:0:0:root:/root:/bin/bash\n"),
    (["etc", "group"], "root:x:0:\n"),
    (["etc", "hosts"], "127.0.0.1\tlocalhost\n"),
    (["etc", "hostname"], "localhost\n")]

/-- The entry that every tree has at a place. -/
def system? (p : Place) : Option FileEntry :=
  if systemDirectories.contains p then
    some ⟨.directory, if p == ["tmp"] || p == ["var", "tmp"] then 0o1777 else 0o755, 0⟩
  else match p with
    | ["dev", name] => if systemDevices.contains name then some ⟨.device, 0o666, 0⟩ else none
    | ["bin", name] | ["usr", "bin", name] =>
      if systemPrograms.contains name then some ⟨.file (program name), 0o755, 0⟩ else none
    | p => (systemTexts.find? fun e => e.1 == p).map fun e => .plain (Text.Utf8.encode e.2)

/-! ## Looking up -/

/-- The time at which every tree begins. -/
def beginning : Int := 1800000000000000000

/-- The time of the next change: seconds and nanoseconds, later than all changes before. -/
def now (f : Files) : Int := beginning + f.clock

/-- The entry at a place. The directory in which commands run has always just changed. -/
def get? (f : Files) (p : Place) : Option FileEntry :=
  match f.entries.find? fun e => e.1 == p with
  | some e => some e.2
  | none => (system? p).map fun e => { e with time := if p == home then f.now else beginning }

/-- How many steps a walk may take. -/
def maxSteps : Nat := 5000

/-- Walks from a place along names. The last name need not lead anywhere; if it leads to a
link, `follow` says whether the walk goes on. -/
def walk (f : Files) (follow : Bool) : Nat → Place → List String → Except OsError Place
  | 0, _, _ => .error .tooManyLinks
  | _, p, [] => .ok p
  | fuel + 1, p, name :: rest =>
    match f.get? p with
    | none => .error .notFound
    | some e =>
      if !e.isDirectory then .error .notDirectory
      else if name == "" || name == "." then walk f follow fuel p rest
      else if name == ".." then walk f follow fuel p.dropLast rest
      else if 255 < name.length then .error .nameTooLong
      else
        let q := p ++ [name]
        match (f.get? q).map FileEntry.body with
        | some (.link target) =>
          if rest.isEmpty && !follow then .ok q
          else match target.splitOn "/" with
            | "" :: names => walk f follow fuel [] (names ++ rest)
            | names => walk f follow fuel p (names ++ rest)
        | _ => walk f follow fuel q rest

/-- Where a path leads from a place. -/
def locateFrom (f : Files) (here : Place) (follow : Bool) (path : String) : Except OsError Place :=
  if path.isEmpty then .error .notFound
  else if 4095 < path.length then .error .nameTooLong
  else match path.splitOn "/" with
    | "" :: names => f.walk follow maxSteps [] names
    | names => f.walk follow maxSteps here names

/-- Where a path leads from the directory in which commands run. -/
def locate (f : Files) (path : String) : Except OsError Place := f.locateFrom home true path

/-- The entry at a place, which has to be there. -/
def entryAt (f : Files) (p : Place) : Except OsError FileEntry :=
  match f.get? p with
  | some e => .ok e
  | none => .error .notFound

/-- The bytes of the file at a place. -/
def bytesAt (f : Files) (p : Place) : Except OsError (List UInt8) := do
  match (← f.entryAt p).body with
  | .file bytes => return bytes
  | .directory => throw .isDirectory
  | _ => return []

/-- The entries of a directory with their names, sorted by name. -/
def listing (f : Files) (p : Place) : List (String × FileEntry) :=
  let found := f.entries.filterMap fun e =>
    match e.1.getLast? with
    | some name => if e.1.dropLast == p then some (name, e.2) else none
    | none => none
  found.mergeSort fun a b => !(b.1 < a.1)

/-- The entries of the directory in which commands run. -/
def top (f : Files) : List (String × FileEntry) := f.listing home

/-! ## Changing -/

/-- Puts an entry at a place, as it is. -/
def set (f : Files) (p : Place) (e : FileEntry) : Files :=
  { f with
    entries :=
      if f.entries.any fun x => x.1 == p then
        f.entries.map fun x => if x.1 == p then (p, e) else x
      else f.entries ++ [(p, e)] }

/-- Puts an entry at a place, which changes now. -/
def put (f : Files) (p : Place) (e : FileEntry) : Files :=
  { f.set p { e with time := f.now } with clock := f.clock + 1 }

/-- Removes the entry at a place and all below it. -/
def erase (f : Files) (p : Place) : Files :=
  { f with entries := f.entries.filter fun x => !p.isPrefixOf x.1 }

/-- Moves the entry at a place and all below it to another place. -/
def move (f : Files) (p q : Place) : Files :=
  let moved := f.entries.filterMap fun x =>
    if p.isPrefixOf x.1 then some (q ++ x.1.drop p.length, x.2) else none
  let left := (f.erase p).erase q
  { left with entries := left.entries ++ moved }

end Files

/-- Why a file cannot be read as text. -/
inductive ReadError
  | os (e : OsError)
  | nul
  | encoding
deriving DecidableEq, Repr

/-- The wording of the reason. -/
def ReadError.message : ReadError → String
  | os e => e.message
  | nul => "file name contained an unexpected NUL byte"
  | encoding => "stream did not contain valid UTF-8"

/-- The text of the file that a path leads to. -/
def Files.readText (f : Files) (path : String) : Except ReadError String := do
  if path.contains '\x00' then throw .nul
  let place ← (f.locate (Text.Octets.ofText path)).mapError .os
  match Text.Utf8.strict? (← (f.bytesAt place).mapError .os) with
  | some s => return s
  | none => throw .encoding

end Provision
