import Provision.Files

/-!
# Processes

What a running program can reach: the tree of files, the directory that it runs in, its
environment, and its descriptors, which lead to streams. Two descriptors may lead to the same
stream; what one of them reads is gone for the other one.
-/

namespace Provision

/-- Where bytes come from and go to. Texts are texts of octets. -/
inductive Stream
  /-- It has nothing and takes everything. -/
  | null
  /-- It has as many zeros as anybody wants. -/
  | zeros
  /-- It takes nothing. -/
  | full
  /-- It keeps what is written until it is read. -/
  | buffer (text : String)
  /-- A file from an offset on, or from its end on. -/
  | file (place : Place) (offset : Nat) (appends : Bool)
  | directory (place : Place)

/-- What a running program can reach. -/
structure Process where
  files : Files := {}
  here : Place := Files.home
  streams : Array Stream := #[]
  /-- The streams that descriptors lead to, by their numbers. -/
  descriptors : List (Nat × Nat) := []
  environment : List (String × String) := []
  /-- The permissions that new files do not get. -/
  mask : Nat := 0o022
  /-- The name by which the program was called. -/
  name : String := ""
  /-- How many thousandths of a second have been spent on waiting. -/
  waited : Nat := 0
  /-- The number of the process, and of those that it descends from, the closest one first. -/
  number : Nat := 4242
  ancestors : List Nat := [4241]
  /-- The number of the next process. -/
  next : Nat := 4243
  /-- Signals on their way: the processes that they are sent to, and their numbers. -/
  sent : List (Nat × Nat) := []
  /-- The signals that do nothing to the process. -/
  ignored : List Nat := []

namespace Process

/-! ## Descriptors -/

/-- The number of the stream that a descriptor leads to. -/
def target? (p : Process) (n : Nat) : Option Nat :=
  (p.descriptors.find? fun e => e.1 == n).map Prod.snd

/-- The stream that a descriptor leads to. -/
def stream? (p : Process) (n : Nat) : Option Stream := (p.target? n).bind (p.streams[·]?)

/-- A process with one more stream, and the number of that. -/
def add (p : Process) (s : Stream) : Process × Nat :=
  ({ p with streams := p.streams.push s }, p.streams.size)

/-- Makes a descriptor lead to a stream, or nowhere. -/
def redirect (p : Process) (n : Nat) (target : Option Nat) : Process :=
  { p with
    descriptors := (target.toList.map (n, ·)) ++ p.descriptors.filter fun e => e.1 != n }

/-- A process with nothing to read, whose outputs are kept. -/
def start (files : Files) (environment : List (String × String)) : Process :=
  { files := files
    streams := #[.null, .buffer "", .buffer ""]
    descriptors := [(0, 0), (1, 1), (2, 2)]
    environment := environment }

/-! ## Reading -/

/-- How much is read at most from a stream without an end. -/
def enough : Nat := 1048576

/-- All that can be read from a descriptor. -/
def available (p : Process) (n : Nat) : Except OsError String :=
  match p.stream? n with
  | none => .error .badDescriptor
  | some .null => .ok ""
  | some .zeros | some .full => .ok ("".pushn '\x00' enough)
  | some (.buffer text) => .ok text
  | some (.file place offset _) => match p.files.bytesAt place with
    | .ok bytes => .ok (Text.Octets.ofBytes (bytes.drop offset))
    | .error _ => .ok ""
  | some (.directory _) => .error .isDirectory

/-- Goes past some octets of a stream. -/
def advance (p : Process) (n count : Nat) : Process :=
  match p.target? n with
  | none => p
  | some i => { p with
      streams := p.streams.modify i fun
        | .buffer text => .buffer (String.ofList (text.toList.drop count))
        | .file place offset appends => .file place (offset + count) appends
        | s => s }

/-- All that can be read from a descriptor, which is gone after that. -/
def drain (p : Process) (n : Nat) : Except OsError (String × Process) := do
  let text ← p.available n
  match p.stream? n, p.target? n with
  | some (.buffer _), some i => return (text, { p with streams := p.streams.set! i (.buffer "") })
  | _, _ => return (text, p.advance n text.length)

/-! ## Writing -/

/-- Why nothing can be written to a descriptor. -/
def writeError? (p : Process) (n : Nat) : Option OsError :=
  match p.stream? n with
  | none | some (.directory _) => some .badDescriptor
  | some .full => some .noSpace
  | _ => none

/-- Puts bytes in the place of others, from an offset on. -/
def splice (old new : List UInt8) (offset : Nat) : List UInt8 :=
  old.take offset ++ List.replicate (offset - old.length) 0 ++ new ++ old.drop (offset + new.length)

/-- Writes a text to a descriptor. A file that is gone takes none. -/
def write (p : Process) (n : Nat) (text : String) : Process :=
  match p.target? n with
  | none => p
  | some i =>
    match p.streams[i]? with
    | some (.buffer _) => { p with
        streams := p.streams.modify i fun
          | .buffer old => .buffer (old ++ text)
          | s => s }
    | some (.file place offset appends) =>
      match p.files.get? place with
      | some ⟨.file old, mode, _⟩ =>
        let new := Text.Octets.toBytes text
        let offset := if appends then old.length else offset
        { p with
          files := p.files.put place ⟨.file (splice old new offset), mode, 0⟩
          streams := p.streams.set! i (.file place (offset + new.length) appends) }
      | _ => p
    | _ => p

/-! ## Opening -/

/-- What a file is opened for. -/
inductive Access
  | read | append | readWrite
  /-- Its bytes are lost, unless it must not be there. -/
  | write (fresh : Bool)
deriving DecidableEq

/-- The permissions of a new entry that could have all of some. -/
def allowed (p : Process) (mode : Nat) : Nat := mode - (mode &&& p.mask)

/-- The descriptor that a path of the system stands for. -/
def descriptor? (path : String) : Option Nat :=
  match path with
  | "/dev/stdin" => some 0
  | "/dev/stdout" => some 1
  | "/dev/stderr" => some 2
  | path => if path.startsWith "/dev/fd/" then (path.drop 8).toNat? else none

/-- Opens a file. The number of its stream comes with the process. -/
def openFile (p : Process) (path : String) (access : Access) :
    Except OsError (Process × Nat) := do
  if let some n := descriptor? path then
    match p.target? n with
    | some i => return (p, i)
    | none => throw .notFound
  let reads := access == .read
  let appends := access == .append
  let place ← (match p.files.locateFrom p.here true path with
    | .error .notFound =>
      if !reads && path.endsWith "/" then throw .isDirectory else throw .notFound
    | r => r)
  match p.files.get? place with
  | none =>
    if reads then throw .notFound
    let files := p.files.put place ⟨.file [], p.allowed 0o666, 0⟩
    return { p with files := files }.add (.file place 0 appends)
  | some e =>
    if access == .write true && (match e.body with | .file _ => true | _ => false) then
      throw .exists
    match e.body with
    | .directory => if reads then return p.add (.directory place) else throw .isDirectory
    | .device =>
      match place.getLast? with
      | some "null" => return p.add .null
      | some "zero" => return p.add .zeros
      | some "full" => return p.add .full
      | _ => throw .noDevice
    | .link _ => throw .notFound
    | .file _ =>
      let files := match access with
        | .write _ => p.files.put place ⟨.file [], e.mode, 0⟩
        | _ => p.files
      return { p with files := files }.add (.file place 0 appends)

/-- The text of a file. -/
def contents (p : Process) (path : String) : Except OsError String := do
  if let some n := descriptor? path then p.available n
  else
    let (p, i) ← p.openFile path .read
    (p.redirect 0 (some i)).available 0

/-- Writes a text to a file, or adds it to that. -/
def store (p : Process) (path : String) (access : Access) (text : String) :
    Except OsError Process := do
  let (q, i) ← p.openFile path access
  let q := (q.redirect 1 (some i)).write 1 text
  return { q with descriptors := p.descriptors }

/-! ## Places -/

/-- Where a path leads from the directory of a process. -/
def locate (p : Process) (path : String) : Except OsError Place :=
  p.files.locateFrom p.here true path

/-- Where a path leads; if that is a link, it is the link itself. -/
def locateLink (p : Process) (path : String) : Except OsError Place :=
  p.files.locateFrom p.here false path

/-- The entry that a path leads to. -/
def entry (p : Process) (path : String) : Except OsError FileEntry := do
  p.files.entryAt (← p.locate path)

/-- The entry that a path leads to, which may be a link. -/
def entryLink (p : Process) (path : String) : Except OsError FileEntry := do
  p.files.entryAt (← p.locateLink path)

/-! ## Children -/

/-- A process that this one starts. -/
def child (p : Process) : Process :=
  { p with number := p.next, next := p.next + 1, ancestors := p.number :: p.ancestors }

/-- The process after one that it has started. -/
def after (p child : Process) : Process :=
  { p with
    files := child.files, streams := child.streams, waited := child.waited, next := child.next
    sent := child.sent }

/-- The value of a variable of the environment. -/
def value? (p : Process) (name : String) : Option String :=
  (p.environment.find? fun e => e.1 == name).map Prod.snd

end Process

end Provision
