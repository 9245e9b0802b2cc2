import Provision.Tool.Path
import Provision.Tool.Mode
import Provision.Tool.Change

/-!
# Listing trees

Programs that tell which entries there are, and what is known about them.
-/

namespace Provision.Tool

/-! ## What is known about an entry -/

/-- The letter for the kind of an entry. -/
def kindLetter (e : FileEntry) : Char :=
  match e.body with
  | .file _ => '-'
  | .directory => 'd'
  | .link _ => 'l'
  | .device => 'c'

/-- The kind of an entry in words. -/
def kindText (e : FileEntry) : String :=
  match e.body with
  | .file [] => "regular empty file"
  | .file _ => "regular file"
  | .directory => "directory"
  | .link _ => "symbolic link"
  | .device => "character special file"

/-- The size of an entry. -/
def sizeOf (e : FileEntry) : Nat :=
  match e.body with
  | .file bytes => bytes.length
  | .directory => 4096
  | .link target => target.length
  | .device => 0

/-- How many names an entry has; a directory is also a name of its own and of each of those in
it. -/
def linkCount (f : Files) (place : Place) (e : FileEntry) : Nat :=
  if e.isDirectory then 2 + ((f.listing place).filter fun x => x.2.isDirectory).length else 1

/-- The names of the months, shortened. -/
def monthNames : List String :=
  ["Jan", "Feb", "Mar", "Apr", "May", "Jun", "Jul", "Aug", "Sep", "Oct", "Nov", "Dec"]

/-- A date: year, month and day, some days after the beginning of 1970. -/
def dateOf (days : Int) : Int × Int × Int :=
  let z := days + 719468
  let era := z.fdiv 146097
  let dayOfEra := z - era * 146097
  let yearOfEra := (dayOfEra - dayOfEra / 1460 + dayOfEra / 36524 - dayOfEra / 146096) / 365
  let dayOfYear := dayOfEra - (365 * yearOfEra + yearOfEra / 4 - yearOfEra / 100)
  let m := (5 * dayOfYear + 2) / 153
  let day := dayOfYear - (153 * m + 2) / 5 + 1
  let month := if m < 10 then m + 3 else m - 9
  (yearOfEra + era * 400 + (if month ≤ 2 then 1 else 0), month, day)

/-- Two digits. -/
def twoDigits (n : Int) : String :=
  let s := toString n
  if s.length < 2 then "0" ++ s else s

/-- A time as a date, a time of day and a fraction of a second. -/
def stampText (time : Int) : String :=
  let seconds := time.fdiv second
  let (y, m, d) := dateOf (seconds.fdiv 86400)
  let s := seconds.emod 86400
  let fraction := toString (time.emod second)
  s!"{y}-{twoDigits m}-{twoDigits d} {twoDigits (s / 3600)}:{twoDigits (s / 60 % 60)}:" ++
    twoDigits (s % 60) ++ "." ++ "".pushn '0' (9 - fraction.length) ++ fraction ++ " +0000"

/-- A time as long listings show it: recent ones with the time of day, others with the year. -/
def shortStamp (now time : Int) : String :=
  let seconds := time.fdiv second
  let (y, m, d) := dateOf (seconds.fdiv 86400)
  let s := seconds.emod 86400
  let month := monthNames.getD (m.toNat - 1) ""
  let recent := time ≤ now + second && now - time < 15778476 * second
  month ++ " " ++ padLeft 2 (toString d) ++ " " ++
    (if recent then twoDigits (s / 3600) ++ ":" ++ twoDigits (s / 60 % 60)
      else padLeft 5 (toString y))

/-! ## Directories -/

/-- What `ls` shows: a name with its place and its entry. -/
structure Shown where
  name : String
  place : Place
  entry : FileEntry

/-- How `ls` shows entries. -/
structure Listing where
  given : Given
  now : Int := 0

namespace Listing

/-- The mark after a name. -/
def mark (l : Listing) (e : FileEntry) : String :=
  if l.given.has 'F' then
    match e.body with
    | .directory => "/"
    | .link _ => "@"
    | .file _ => if e.isExecutable then "*" else ""
    | .device => ""
  else if l.given.has 'p' && e.isDirectory then "/" else ""

/-- A name as it is shown. -/
def nameText (l : Listing) (s : Shown) : String :=
  let name := if l.given.has 'Q' then "\"" ++ s.name ++ "\"" else s.name
  name ++ l.mark s.entry

/-- Entries in the order in which they are shown. -/
def sorted (l : Listing) (shown : List Shown) : List Shown :=
  let byName := shown.mergeSort fun a b => !(b.name < a.name)
  let ordered := match l.given.last? ['t', 'S', 'U', 'f', 'X', 'v'] with
    | some 't' => byName.mergeSort fun a b => b.entry.time ≤ a.entry.time
    | some 'S' => byName.mergeSort fun a b => sizeOf b.entry ≤ sizeOf a.entry
    | _ => byName
  if l.given.has 'r' then ordered.reverse else ordered

/-- Whether entries are shown with all that is known about them. -/
def isLong (l : Listing) : Bool := ['l', 'n', 'g', 'o'].any l.given.has

/-- How much room an entry takes, in units of a kilobyte. -/
def room (e : FileEntry) : Nat :=
  match e.body with
  | .file bytes => (bytes.length + 4095) / 4096 * 4
  | .directory => 4
  | _ => 0

/-- The lines for entries. -/
def lines (l : Listing) (f : Files) (shown : List Shown) : List String :=
  let width (g : Shown → String) : Nat := shown.foldl (fun n s => max n (g s).length) 0
  let links (s : Shown) : String := toString (linkCount f s.place s.entry)
  let size (s : Shown) : String := toString (sizeOf s.entry)
  let blocks (s : Shown) : String := toString (room s.entry)
  let owner := if l.given.has 'n' then "0" else "root"
  shown.map fun s =>
    let front := if l.given.has 's' then padLeft (width blocks) (blocks s) ++ " " else ""
    if l.isLong then
      let target := match s.entry.body with
        | .link t => " -> " ++ t
        | _ => ""
      front ++ String.singleton (kindLetter s.entry) ++ Mode.letters s.entry.mode ++ " " ++
        padLeft (width links) (links s) ++ " " ++
        (if l.given.has 'g' then "" else owner ++ " ") ++
        (if l.given.has 'o' || l.given.has 'G' then "" else owner ++ " ") ++
        padLeft (width size) (size s) ++ " " ++ shortStamp l.now s.entry.time ++ " " ++
        l.nameText s ++ target
    else front ++ l.nameText s

/-- Prints entries. -/
def print (l : Listing) (f : Files) (shown : List Shown) : Tool Unit := do
  let ls := l.lines f (l.sorted shown)
  if l.given.has 'm' && !l.isLong then
    if !ls.isEmpty then putLine (", ".intercalate ls)
  else if (l.given.has 'x' || l.given.has 'C') && !l.isLong && !l.given.has '1' then
    if !ls.isEmpty then putLine ("  ".intercalate ls)
  else put (ofLines ls)

/-- The entries of a directory that are shown. -/
def inside (l : Listing) (f : Files) (place : Place) : List Shown :=
  let ignored (name : String) : Bool :=
    (l.given.any fun e => e.1 == 'I' && e.2 == name) || (l.given.has 'B' && name.endsWith "~")
  let found := (f.listing place).filterMap fun (name, e) =>
    if (name.startsWith "." && !l.given.has 'a' && !l.given.has 'A' && !l.given.has 'f') ||
        ignored name then none
    else some ⟨name, place ++ [name], e⟩
  let selves := if l.given.has 'a' || l.given.has 'f' then
      [⟨".", place, (f.get? place).getD .folder⟩,
        ⟨"..", place.dropLast, (f.get? place.dropLast).getD .folder⟩]
    else []
  selves ++ found

/-- Prints a directory, and those below it if that is asked for. -/
def directory (l : Listing) : Nat → Bool → Bool → String → Place → Tool Unit
  | 0, _, _, _, _ => return
  | fuel + 1, titled, first, path, place => do
    let f := (← get).files
    let shown := l.inside f place
    if titled then put ((if first then "" else "\n") ++ path ++ ":\n")
    if l.isLong || l.given.has 's' then
      putLine s!"total {shown.foldl (fun n s => n + room s.entry) 0}"
    l.print f shown
    if l.given.has 'R' then
      let folders := (l.sorted shown).filter fun s =>
        s.entry.isDirectory && s.name != "." && s.name != ".."
      for s in folders do
        l.directory fuel true false (below path s.name) s.place

end Listing

/-- Lists directories and files. -/
def ls (args : List String) : Tool Nat := do
  let (given, operands) ← options
    ((['a', 'A', 'b', 'B', 'c', 'C', 'd', 'f', 'F', 'g', 'G', 'h', 'H', 'i', 'k', 'l', 'L', 'm',
        'n', 'N', 'o', 'p', 'q', 'Q', 'r', 'R', 's', 'S', 't', 'u', 'U', 'v', 'x', 'X', 'Z',
        '1'].map (⟨·, "", .never⟩)) ++
      [⟨'a', "all", .never⟩, ⟨'A', "almost-all", .never⟩, ⟨'d', "directory", .never⟩,
        ⟨'F', "classify", .perhaps⟩, ⟨'R', "recursive", .never⟩, ⟨'r', "reverse", .never⟩,
        ⟨'I', "ignore", .always⟩, ⟨'k', "color", .perhaps⟩, ⟨'h', "human-readable", .never⟩,
        ⟨'s', "size", .never⟩, ⟨'Q', "quote-name", .never⟩, ⟨'L', "dereference", .never⟩,
        ⟨'w', "width", .always⟩, ⟨'T', "tabsize", .always⟩, ⟨'D', "sort", .always⟩,
        ⟨'E', "group-directories-first", .never⟩, ⟨'Y', "time-style", .always⟩]) args 2
  let p ← get
  let l : Listing := { given := given, now := p.files.now }
  let immediate := given.has 'd'
  let mut status := 0
  let mut files : List Shown := []
  let mut folders : List Shown := []
  let roots := if operands.isEmpty then ["."] else operands
  for path in roots do
    let follows := !(l.isLong || immediate || given.has 'F') || given.has 'L'
    let located := do
      let place ← if follows then p.locate path else p.locateLink path
      return (place, ← p.files.entryAt place)
    let located := match located, follows with
      | .error .notFound, true => do
        let place ← p.locateLink path
        return (place, ← p.files.entryAt place)
      | r, _ => r
    match located with
    | .error e =>
      complain s!"cannot access {quoted path}: {e.text}"
      status := 2
    | .ok (place, e) =>
      let s : Shown := ⟨path, place, e⟩
      if e.isDirectory && !immediate then folders := folders ++ [s] else files := files ++ [s]
  if !files.isEmpty then l.print p.files files
  let titled := 1 < roots.length || given.has 'R'
  let mut first := files.isEmpty
  for s in l.sorted folders do
    l.directory 100 titled first s.name s.place
    first := false
  return status

/-! ## Single entries -/

/-- What a directive of a format stands for. -/
def statField (f : Files) (path : String) (place : Place) (e : FileEntry) (c : Char) : String :=
  match c with
  | 'a' => Mode.octal e.mode
  | 'A' => String.singleton (kindLetter e) ++ Mode.letters e.mode
  | 'F' => kindText e
  | 'n' => path
  | 'N' => match e.body with
    | .link t => s!"{quoted path} -> {quoted t}"
    | _ => quoted path
  | 's' => toString (sizeOf e)
  | 'U' | 'G' => "root"
  | 'u' | 'g' => "0"
  | 'h' => toString (linkCount f place e)
  | 'f' => String.ofList (Nat.toDigits 16 (e.mode + (match e.body with
      | .file _ => 0o100000
      | .directory => 0o040000
      | .link _ => 0o120000
      | .device => 0o020000)))
  | 'b' => toString (2 * Listing.room e)
  | 'B' => "512"
  | 'o' => "4096"
  | 'X' | 'Y' | 'Z' => toString (e.time.fdiv second)
  | 'x' | 'y' | 'z' => stampText e.time
  | 'w' => "-"
  | 'W' | 't' | 'T' => "0"
  | '%' => "%"
  | _ => "?"

/-- A format with its directives and, perhaps, its escapes replaced. -/
def statText (f : Files) (path : String) (place : Place) (e : FileEntry) (escapes : Bool) :
    List Char → String
  | '%' :: rest => directive rest
  | '\\' :: c :: rest =>
    let more := statText f path place e escapes rest
    if !escapes then "\\" ++ statText f path place e escapes (c :: rest)
    else match c with
      | 'n' => "\n" ++ more
      | 't' => "\t" ++ more
      | '\\' => "\\" ++ more
      | '0' => "\x00" ++ more
      | c => String.singleton c ++ more
  | c :: rest => String.singleton c ++ statText f path place e escapes rest
  | [] => ""
where
  /-- A directive after its sign. -/
  directive : List Char → String
    | c :: rest =>
      let more := statText f path place e escapes rest
      statField f path place e c ++ more
    | [] => "%"

/-- Prints what is known about entries. -/
def stat (args : List String) : Tool Nat := do
  let (given, operands) ← options
    [⟨'c', "format", .always⟩, ⟨'p', "printf", .always⟩, ⟨'L', "dereference", .never⟩,
      ⟨'f', "file-system", .never⟩, ⟨'t', "terse", .never⟩] args
  if operands.isEmpty then refuse 1 "missing operand"
  forEach operands fun path => do
    let p ← get
    let located := do
      let place ← if given.has 'L' then p.locate path else p.locateLink path
      return (place, ← p.files.entryAt place)
    match located with
    | .error e =>
      complain s!"cannot statx {quoted path}: {e.text}"
      return 1
    | .ok (place, e) =>
      match given.last? ['c', 'p'], given.value? 'c', given.value? 'p' with
      | some 'c', some format, _ => putLine (statText p.files path place e false format.toList)
      | some 'p', _, some format => put (statText p.files path place e true format.toList)
      | _, _, _ =>
        let field (c : Char) : String := statField p.files path place e c
        let name := match e.body with
          | .link t => s!"{path} -> {t}"
          | _ => path
        let mode := Mode.octal e.mode
        let digits := "".pushn '0' (4 - mode.length) ++ mode
        put (ofLines
          [s!"  File: {name}",
            "  Size: " ++ padRight 10 (field 's') ++ "\tBlocks: " ++ padRight 10 (field 'b') ++
              " IO Block: 4096   " ++ field 'F',
            "Device: 0,0\tInode: 0           Links: " ++ field 'h',
            "Access: (" ++ digits ++ "/" ++ field 'A' ++
              ")  Uid: (    0/    root)   Gid: (    0/    root)",
            "Access: " ++ field 'x', "Modify: " ++ field 'y', "Change: " ++ field 'z',
            " Birth: -"])
      return 0

/-- Prints how much room files take. -/
def du (args : List String) : Tool Nat := do
  let (given, operands) ← options
    [⟨'s', "summarize", .never⟩, ⟨'h', "human-readable", .never⟩, ⟨'k', "", .never⟩,
      ⟨'a', "all", .never⟩, ⟨'b', "bytes", .never⟩, ⟨'c', "total", .never⟩,
      ⟨'d', "max-depth", .always⟩] args
  forEach (if operands.isEmpty then ["."] else operands) fun path => do
    let p ← get
    let located := do
      let place ← p.locateLink path
      discard (p.files.entryAt place)
      return place
    match located with
    | .error e =>
      complain s!"cannot access {quoted path}: {e.text}"
      return 1
    | .ok place =>
      let inner := p.files.entries.filter fun x => place.isPrefixOf x.1
      let inner := if inner.any fun x => x.1 == place then inner else
        ((p.files.get? place).toList.map (place, ·)) ++ inner
      let amount (e : FileEntry) : Nat := if given.has 'b' then sizeOf e else Listing.room e
      let total (q : Place) : Nat :=
        (inner.filter fun x => q.isPrefixOf x.1).foldl (fun n x => n + amount x.2) 0
      let rows := if given.has 's' then [(place, total place)]
        else ((inner.filter fun x => given.has 'a' || x.2.isDirectory || x.1 == place).map fun x =>
          (x.1, total x.1)).mergeSort fun a b => b.1.length ≤ a.1.length
      for (q, n) in rows do
        putLine (toString n ++ "\t" ++ "/".intercalate (path :: q.drop place.length))
      return 0

end Provision.Tool
