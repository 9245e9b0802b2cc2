import Provision.Tool.Path
import Provision.Tool.Mode
import Provision.Number.Rounded

/-!
# Changing trees

Programs that create, copy, move and remove entries, and change what belongs to them.
-/

namespace Provision.Tool

open Number (Signed)

/-! ## Time -/

/-- How many days lie between the beginning of 1970 and a date. -/
def daysFrom (year month day : Int) : Int :=
  let y := if month ≤ 2 then year - 1 else year
  let era := y.fdiv 400
  let yearOfEra := y - era * 400
  let dayOfYear := (153 * ((month + 9) % 12) + 2) / 5 + day - 1
  era * 146097 + yearOfEra * 365 + yearOfEra / 4 - yearOfEra / 100 + dayOfYear - 719468

/-- A second in units of time. -/
def second : Int := 1000000000

/-- The seconds that a text such as `12:30:15` spells. -/
def clockTime? (s : String) : Option Int :=
  match (s.splitOn ":").mapM nat? with
  | some [h, m] => if h < 24 && m < 60 then some (3600 * h + 60 * m) else none
  | some [h, m, sec] =>
    if h < 24 && m < 60 && sec < 61 then some (3600 * h + 60 * m + sec) else none
  | _ => none

/-- The seconds that a text such as `2020-01-31` spells. -/
def dateTime? (s : String) : Option Int :=
  match (s.splitOn "-").mapM nat? with
  | some [y, m, d] =>
    if 1 ≤ m && m ≤ 12 && 1 ≤ d && d ≤ 31 then some (86400 * daysFrom y m d) else none
  | _ => none

/-- The seconds that a name of a span of time stands for. -/
def unitSeconds? (s : String) : Option Int :=
  let s := if s.endsWith "s" then String.ofList s.toList.dropLast else s
  match s with
  | "sec" | "second" => some 1
  | "min" | "minute" => some 60
  | "hour" => some 3600
  | "day" => some 86400
  | "week" => some 604800
  | "fortnight" => some 1209600
  | "month" => some 2592000
  | "year" => some 31536000
  | _ => none

/-- The time that a text tells, in relation to the present one. -/
def timeOf? (now : Int) (text : String) : Option Int :=
  let words := (text.splitOn " ").filter (!·.isEmpty)
  go (words.length + 1) now words
where
  /-- Reads one word after another. -/
  go : Nat → Int → List String → Option Int
  | 0, _, _ => none
  | _, t, [] => some t
  | fuel + 1, t, w :: rest =>
    let parts := w.splitOn "T"
    if w == "now" || w == "today" || w == "UTC" || w == "Z" then go fuel t rest
    else if w == "yesterday" then go fuel (t - 86400 * second) rest
    else if w == "tomorrow" then go fuel (t + 86400 * second) rest
    else if w.startsWith "@" then
      match Signed.ofText? (String.ofList (w.toList.drop 1)) with
      | some x => go fuel (x.units (-9)) rest
      | none => none
    else match dateTime? w, clockTime? w, parts with
      | some d, _, _ => go fuel (d * second) rest
      | none, some c, _ => go fuel (t.fdiv (86400 * second) * (86400 * second) + c * second) rest
      | none, none, [a, b] =>
        let b := if b.endsWith "Z" then String.ofList b.toList.dropLast else b
        go fuel t (a :: b :: rest)
      | none, none, _ =>
        let digits := if w.startsWith "+" || w.startsWith "-" then String.ofList (w.toList.drop 1)
          else w
        match nat? digits, rest with
        | some n, u :: rest =>
          match unitSeconds? u with
          | some sec =>
            let (back, rest) := match rest with
              | "ago" :: rest => (true, rest)
              | rest => (false, rest)
            let sign : Int := if w.startsWith "-" != back then -1 else 1
            go fuel (t + sign * n * sec * second) rest
          | none => none
        | _, _ => none

/-! ## Entries -/

/-- Puts an entry at a path, whose directory has to be there. -/
def putEntry (path : String) (e : FileEntry) : Tool (Except OsError Unit) := do
  let p ← get
  match p.files.locateFrom p.here true (trimSlashes path) with
  | .error e => return .error e
  | .ok place =>
    set { p with files := p.files.put place e }
    return .ok ()

/-- Changes the entry that a path leads to. -/
def changeEntry (path : String) (f : FileEntry → FileEntry) : Tool (Except OsError Unit) := do
  let p ← get
  match p.locate path with
  | .error e => return .error e
  | .ok place =>
    match p.files.get? place with
    | none => return .error .notFound
    | some e =>
      set { p with files := p.files.set place (f e) }
      return .ok ()

/-- Creates directories. -/
def mkdir (args : List String) : Tool Nat := do
  let (given, operands) ← options
    [⟨'p', "parents", .never⟩, ⟨'m', "mode", .always⟩, ⟨'v', "verbose", .never⟩,
      ⟨'Z', "", .never⟩] args
  if operands.isEmpty then refuse 1 "missing operand"
  let p ← get
  let mode ← (match given.value? 'm' with
    | none => pure (p.allowed 0o777)
    | some m => match Mode.reader? p.mask m with
      | some f => pure (f true 0o777)
      | none => fail 1 s!"invalid mode {quoted m}")
  let make (path : String) (mode : Nat) : Tool (Option OsError) := do
    let p ← get
    match p.files.locateFrom p.here false (trimSlashes path) with
    | .error e => return some e
    | .ok place =>
      if (p.files.get? place).isSome then return some .exists
      set { p with files := p.files.put place ⟨.directory, mode, 0⟩ }
      if given.has 'v' then putLine s!"{p.name}: created directory {quoted path}"
      return none
  let isFolder (path : String) : Tool Bool := do
    match (← get).entry path with
    | .ok e => return e.isDirectory
    | .error _ => return false
  forEach operands fun path => do
    let refuseIt (path : String) (e : OsError) : Tool Nat := do
      complain s!"cannot create directory {quoted path}: {e.text}"
      return 1
    if path.isEmpty then return ← refuseIt path .notFound
    if given.has 'p' then
      let names := (trimSlashes path).splitOn "/"
      let mut made := ""
      for (name, i) in names.zipIdx do
        made := if i = 0 then name else made ++ "/" ++ name
        let here := if made.isEmpty then "/" else made
        if !name.isEmpty && !(← isFolder here) then
          match ← make here (if i + 1 = names.length then mode else p.allowed 0o777) with
          | none => pure ()
          | some e =>
            let why := if e = .exists && i + 1 < names.length then OsError.notDirectory else e
            return ← refuseIt here why
      return 0
    match ← make path mode with
    | none => return 0
    | some e => refuseIt path e

/-- Removes empty directories. -/
def rmdir (args : List String) : Tool Nat := do
  let (given, operands) ← options
    [⟨'p', "parents", .never⟩, ⟨'v', "verbose", .never⟩,
      ⟨'i', "ignore-fail-on-non-empty", .never⟩] args
  if operands.isEmpty then refuse 1 "missing operand"
  let remove (path : String) : Tool Nat := do
    let p ← get
    if given.has 'v' then putLine s!"{p.name}: removing directory, {quoted path}"
    let why : Option OsError := match p.files.locateFrom p.here false (trimSlashes path) with
      | .error e => some e
      | .ok place => match p.files.get? place with
        | none => some .notFound
        | some e =>
          if !e.isDirectory then some .notDirectory
          else if !(p.files.listing place).isEmpty then some .notEmpty
          else if (Files.system? place).isSome then some .permissionDenied
          else if nameOf path == "." then some .invalid else none
    match why, p.files.locateFrom p.here false (trimSlashes path) with
    | none, .ok place =>
      set { p with files := p.files.erase place }
      return 0
    | some .notEmpty, _ =>
      if given.has 'i' then return 0
      complain s!"failed to remove {quoted path}: {OsError.notEmpty.text}"
      return 1
    | some e, _ =>
      complain s!"failed to remove {quoted path}: {e.text}"
      return 1
    | none, .error _ => return 1
  forEach operands fun path => do
    let status ← remove path
    if status ≠ 0 || !given.has 'p' then return status
    let names := (trimSlashes path).splitOn "/"
    let parents := ((List.range' 1 (names.length - 1)).reverse.map fun n =>
      "/".intercalate (names.take n)).filter (!·.isEmpty)
    let mut status := 0
    for dir in parents do
      if status = 0 then
        let p ← get
        let empty := match p.locate dir with
          | .ok place => (p.files.listing place).isEmpty
          | .error _ => true
        if empty then status ← remove dir
        else if !given.has 'i' then
          complain s!"failed to remove directory {quoted dir}: {OsError.notEmpty.text}"
          status := 1
    return status

/-- Changes the times of files, and creates those that are not there. -/
def touch (args : List String) : Tool Nat := do
  let (given, operands) ← options
    [⟨'a', "", .never⟩, ⟨'c', "no-create", .never⟩, ⟨'d', "date", .always⟩, ⟨'f', "", .never⟩,
      ⟨'h', "no-dereference", .never⟩, ⟨'m', "", .never⟩, ⟨'r', "reference", .always⟩,
      ⟨'t', "", .always⟩, ⟨'T', "time", .always⟩] args
  if operands.isEmpty then refuse 1 "missing file operand"
  let p ← get
  let time ← (do
    match given.value? 'd', given.value? 'r', given.value? 't' with
    | some d, _, _ => match timeOf? p.files.now d with
      | some t => return some t
      | none => fail 1 s!"invalid date format {quoted d}"
    | none, some r, _ => match p.entry r with
      | .ok e => return some e.time
      | .error e => fail 1 s!"failed to get attributes of {quoted r}: {e.text}"
    | none, none, some s =>
      let parts := s.splitOn "."
      let ds := (parts.headD "").toList
      let n (i k : Nat) : Nat := (nat? (String.ofList ((ds.drop i).take k))).getD 0
      let sec : Nat := ((parts[1]?).bind nat?).getD 0
      let at1 (year : Nat) (i : Nat) : Option Int :=
        some ((86400 * daysFrom year (n i 2) (n (i + 2) 2) + 3600 * n (i + 4) 2 +
          60 * n (i + 6) 2 + sec) * second)
      match ds.length with
      | 12 => return at1 (n 0 4) 4
      | 10 => return at1 ((if n 0 2 < 69 then 2000 else 1900) + n 0 2) 2
      | 8 => return at1 2027 0
      | _ => fail 1 s!"invalid date format {quoted s}"
    | none, none, none => return none)
  forEach operands fun path => do
    let p ← get
    let refuseIt (e : OsError) : Tool Nat := do
      complain s!"cannot touch {quoted path}: {e.text}"
      return 1
    let located := if given.has 'h' then p.locateLink path else p.locate path
    match located with
    | .error e =>
      if given.has 'c' && e = .notFound then return 0
      if e = .notDirectory && path.endsWith "/" then
        complain s!"setting times of {quoted path}: {e.text}"
        return 1
      refuseIt e
    | .ok place =>
      let stamped (files : Files) (e : FileEntry) : Files := match time with
        | none => files.put place e
        | some t => files.set place { e with time := t }
      match p.files.get? place with
      | some e =>
        set { p with files := stamped p.files e }
        return 0
      | none =>
        if given.has 'c' then return 0
        if path.endsWith "/" then return ← refuseIt .notFound
        set { p with files := stamped p.files ⟨.file [], p.allowed 0o666, 0⟩ }
        return 0

/-- Changes permissions. -/
def chmod (args : List String) : Tool Nat := do
  let isMode (a : String) : Bool :=
    match a.toList with
    | '-' :: c :: rest => (c :: rest).all fun l => "rwxXstugo,=+-01234567".contains l
    | _ => false
  let front := args.takeWhile fun a => a.startsWith "-" && !isMode a
  let rest := args.drop front.length
  let marked := match rest with
    | a :: more => if isMode a then front ++ ["--", a] ++ more else args
    | [] => args
  let (given, operands) ← options
    [⟨'R', "recursive", .never⟩, ⟨'v', "verbose", .never⟩, ⟨'c', "changes", .never⟩,
      ⟨'f', "silent", .never⟩, ⟨'f', "quiet", .never⟩, ⟨'Z', "reference", .always⟩] marked
  let p ← get
  let (text, paths) ← (match given.value? 'Z', operands with
    | some r, paths => match p.entry r with
      | .ok e => pure (Mode.octal e.mode, paths)
      | .error e => fail 1 s!"failed to get attributes of {quoted r}: {e.text}"
    | none, [] => refuse 1 "missing operand"
    | none, [m] => refuse 1 s!"missing operand after {quoted m}"
    | none, m :: paths => pure (m, paths))
  let some f := Mode.reader? p.mask text | refuse 1 s!"invalid mode: {quoted text}"
  forEach paths fun path => do
    let p ← get
    match p.locate path with
    | .error e =>
      if !given.has 'f' then complain s!"cannot access {quoted path}: {e.text}"
      return 1
    | .ok place =>
      match p.files.get? place with
      | none =>
        if !given.has 'f' then
          match p.entryLink path with
          | .ok _ => complain s!"cannot operate on dangling symlink {quoted path}"
          | .error _ => complain s!"cannot access {quoted path}: {OsError.notFound.text}"
        return 1
      | some e =>
        let new := f e.isDirectory e.mode
        let entries := if given.has 'R' then p.files.entries.map fun x =>
            if place.isPrefixOf x.1 && x.1 != place then
              match x.2.body with
              | .link _ => x
              | _ => (x.1, { x.2 with mode := f x.2.isDirectory x.2.mode })
            else x
          else p.files.entries
        let files := { p.files with entries := entries }
        set { p with files := files.set place { e with mode := new } }
        if given.has 'v' || (given.has 'c' && new != e.mode) then
          let shown (m : Nat) : String :=
            let ds := Mode.octal m
            "".pushn '0' (4 - ds.length) ++ ds ++ " (" ++ Mode.letters m ++ ")"
          if new == e.mode then putLine s!"mode of {quoted path} retained as {shown new}"
          else putLine s!"mode of {quoted path} changed from {shown e.mode} to {shown new}"
        return 0

/-- Changes owners, all of whom are the same here. -/
def chown (kind : String) (args : List String) : Tool Nat := do
  let (given, operands) ← options
    [⟨'R', "recursive", .never⟩, ⟨'v', "verbose", .never⟩, ⟨'c', "changes", .never⟩,
      ⟨'f', "silent", .never⟩, ⟨'h', "no-dereference", .never⟩] args
  match operands with
  | [] => refuse 1 "missing operand"
  | [o] => refuse 1 s!"missing operand after {quoted o}"
  | owner :: paths =>
    let known (s : String) : Bool := s.isEmpty || s == "root" || (nat? s).isSome
    if !((owner.replace "." ":").splitOn ":").all known then
      fail 1 s!"invalid {kind}: {quoted owner}"
    forEach paths fun path => do
      match (← get).entryLink path with
      | .ok _ => return 0
      | .error e =>
        if !given.has 'f' then complain s!"cannot access {quoted path}: {e.text}"
        return 1

/-! ## Removing -/

/-- Removes entries. -/
def rm (args : List String) : Tool Nat := do
  let (given, operands) ← options
    [⟨'r', "recursive", .never⟩, ⟨'R', "", .never⟩, ⟨'f', "force", .never⟩,
      ⟨'i', "", .never⟩, ⟨'I', "", .never⟩, ⟨'d', "dir", .never⟩, ⟨'v', "verbose", .never⟩,
      ⟨'P', "preserve-root", .perhaps⟩, ⟨'o', "one-file-system", .never⟩] args
  if operands.isEmpty then
    if given.has 'f' then return 0
    refuse 1 "missing operand"
  let recursive := given.has 'r' || given.has 'R'
  forEach operands fun path => do
    let p ← get
    let refuseIt (e : OsError) : Tool Nat := do
      complain s!"cannot remove {quoted path}: {e.text}"
      return 1
    if recursive && (nameOf path == "." || nameOf path == "..") then
      complain s!"refusing to remove '.' or '..' directory: skipping {quoted path}"
      return 1
    match p.locateLink path with
    | .error e =>
      if given.has 'f' && (e = .notFound || e = .notDirectory) then return 0
      refuseIt e
    | .ok place =>
      if recursive && place.isEmpty then
        complain "it is dangerous to operate recursively on '/'"
        complain "use --no-preserve-root to override this failsafe"
        return 1
      match p.files.get? place with
      | none => if given.has 'f' then return 0 else refuseIt .notFound
      | some e =>
        if e.isDirectory && !recursive then
          if !given.has 'd' then return ← refuseIt .isDirectory
          if !(p.files.listing place).isEmpty then return ← refuseIt .notEmpty
        if (Files.system? place).isSome then return ← refuseIt .permissionDenied
        if given.has 'v' then
          let inner := p.files.entries.filter fun x => place.isPrefixOf x.1 && x.1 != place
          let sorted := inner.mergeSort fun a b => b.1.length ≤ a.1.length
          for (q, x) in sorted do
            let shown := "/".intercalate (path :: q.drop place.length)
            putLine ((if x.isDirectory then "removed directory " else "removed ") ++ quoted shown)
          putLine ((if e.isDirectory then "removed directory " else "removed ") ++ quoted path)
        modify fun p => { p with files := p.files.erase place }
        return 0

/-! ## Copying and moving -/

/-- Sources and the target of a copy: a directory, or a path. -/
structure Transfer where
  sources : List String
  target : String
  /-- Whether the sources go into the target. -/
  into : Bool

/-- The sources and the target that operands name. -/
def transfer (given : Given) (operands : List String) : Tool Transfer := do
  let p ← get
  let isFolder (path : String) : Bool := match p.entry path with
    | .ok e => e.isDirectory
    | .error _ => false
  let targetError (path : String) : OsError := match p.entry path with
    | .ok _ => .notDirectory
    | .error e => e
  match given.value? 't' with
  | some dir =>
    if operands.isEmpty then refuse 1 "missing file operand"
    if !isFolder dir then fail 1 s!"target directory {quoted dir}: {(targetError dir).text}"
    return ⟨operands, dir, true⟩
  | none =>
    match operands with
    | [] => refuse 1 "missing file operand"
    | [a] => refuse 1 s!"missing destination file operand after {quoted a}"
    | a :: b :: rest =>
      let all := a :: b :: rest
      let target := all.getLast?.getD ""
      let sources := all.dropLast
      if given.has 'T' then
        match sources.drop 1 with
        | _ :: _ =>
          refuse 1 s!"extra operand {quoted (all.getD 2 target)}"
        | [] => return ⟨sources, target, false⟩
      if isFolder target then return ⟨sources, target, true⟩
      if 1 < sources.length then fail 1 s!"target {quoted target}: {(targetError target).text}"
      return ⟨sources, target, false⟩

/-- What a copy keeps of the source. -/
structure Copying where
  recursive : Bool := false
  /-- Permissions and times are those of the source. -/
  preserves : Bool := false
  /-- Links are copied as links. -/
  keepsLinks : Bool := false

/-- The entry of a copy: new ones get the permissions of the source that are allowed. -/
def copiedEntry (p : Process) (c : Copying) (e : FileEntry) (old : Option FileEntry) : FileEntry :=
  { e with mode := if c.preserves then e.mode else
      match old with
      | some o => o.mode
      | none => match e.body with
        | .link _ => e.mode
        | _ => p.allowed e.mode }

/-- A tree with a copy of what is at a place. -/
def copyTree (p : Process) (c : Copying) (source target : Place) : Files :=
  let inner := p.files.entries.filter fun x => source.isPrefixOf x.1
  inner.foldl (fun f x =>
    let place := target ++ x.1.drop source.length
    let new := copiedEntry p c x.2 (f.get? place)
    if c.preserves then f.set place new else f.put place new) p.files

/-- Copies files and directories. -/
def cp (args : List String) : Tool Nat := do
  let (given, operands) ← options
    [⟨'a', "archive", .never⟩, ⟨'b', "", .never⟩, ⟨'d', "", .never⟩, ⟨'f', "force", .never⟩,
      ⟨'i', "interactive", .never⟩, ⟨'H', "", .never⟩, ⟨'l', "link", .never⟩,
      ⟨'L', "dereference", .never⟩, ⟨'n', "no-clobber", .never⟩, ⟨'P', "no-dereference", .never⟩,
      ⟨'p', "", .never⟩, ⟨'p', "preserve", .perhaps⟩, ⟨'R', "", .never⟩, ⟨'r', "recursive", .never⟩,
      ⟨'s', "symbolic-link", .never⟩, ⟨'t', "target-directory", .always⟩,
      ⟨'T', "no-target-directory", .never⟩, ⟨'u', "update", .perhaps⟩, ⟨'v', "verbose", .never⟩,
      ⟨'x', "one-file-system", .never⟩] args
  let t ← transfer given operands
  let recursive := given.has 'r' || given.has 'R' || given.has 'a'
  let keepsLinks := match given.last? ['L', 'H', 'P', 'd'] with
    | some l => l == 'P' || l == 'd'
    | none => recursive
  let c : Copying :=
    { recursive := recursive, keepsLinks := keepsLinks
      preserves := given.has 'p' || given.has 'a' }
  forEach t.sources fun source => do
    let target := if t.into then below t.target (nameOf source) else t.target
    let p ← get
    let wrong (text : String) : Tool Nat := do
      complain text
      return 1
    let found := do
      let place ← if keepsLinks then p.locateLink source else p.locate source
      return (place, ← p.files.entryAt place)
    match found with
    | .error e => wrong s!"cannot stat {quoted source}: {e.text}"
    | .ok (place, e) =>
      if e.isDirectory && !recursive then
        return ← wrong s!"-r not specified; omitting directory {quoted source}"
      let located := p.files.locateFrom p.here (!keepsLinks || e.isDirectory) (trimSlashes target)
      match located with
      | .error why => wrong (if e.isDirectory
          then s!"cannot create directory {quoted target}: {why.text}"
          else s!"cannot create regular file {quoted target}: {why.text}")
      | .ok goal =>
        let old := p.files.get? goal
        if old.isNone && target.endsWith "/" && !e.isDirectory then
          return ← wrong s!"cannot create regular file {quoted target}: {OsError.notDirectory.text}"
        if goal == place && !e.isDirectory then
          return ← wrong s!"{quoted source} and {quoted target} are the same file"
        if e.isDirectory then
          if old.any fun o => !o.isDirectory then
            return ← wrong
              s!"cannot overwrite non-directory {quoted target} with directory {quoted source}"
          if place.isPrefixOf goal then
            return ← wrong
              s!"cannot copy a directory, {quoted source}, into itself, {quoted target}"
        else if old.any FileEntry.isDirectory then
          return ← wrong
            s!"cannot overwrite directory {quoted target} with non-directory"
        let stale := old.any fun o => e.time ≤ o.time
        if (given.has 'n' && old.isSome) || (given.has 'u' && stale) then return 0
        if given.has 's' then
          set { p with files := p.files.put goal ⟨.link source, 0o777, 0⟩ }
        else if e.isDirectory then
          set { p with files := copyTree p c place goal }
        else
          let new := copiedEntry p c e old
          match old.map FileEntry.body with
          | some .device => pure ()
          | _ => set { p with
              files := if c.preserves then p.files.set goal new else p.files.put goal new }
        if given.has 'v' then putLine s!"{quoted source} -> {quoted target}"
        return 0

/-- Moves files and directories. -/
def mv (args : List String) : Tool Nat := do
  let (given, operands) ← options
    [⟨'b', "", .never⟩, ⟨'f', "force", .never⟩, ⟨'i', "interactive", .never⟩,
      ⟨'n', "no-clobber", .never⟩, ⟨'t', "target-directory", .always⟩,
      ⟨'T', "no-target-directory", .never⟩, ⟨'u', "update", .perhaps⟩,
      ⟨'v', "verbose", .never⟩] args
  let t ← transfer given operands
  forEach t.sources fun source => do
    let target := if t.into then below t.target (nameOf source) else t.target
    let p ← get
    let wrong (text : String) : Tool Nat := do
      complain text
      return 1
    let found := do
      let place ← p.locateLink (trimSlashes source)
      return (place, ← p.files.entryAt place)
    match found with
    | .error e => wrong s!"cannot stat {quoted source}: {e.text}"
    | .ok (place, e) =>
      match p.files.locateFrom p.here false (trimSlashes target) with
      | .error why => wrong s!"cannot move {quoted source} to {quoted target}: {why.text}"
      | .ok goal =>
        let old := p.files.get? goal
        if goal == place then
          return ← wrong s!"{quoted source} and {quoted target} are the same file"
        if old.isNone && target.endsWith "/" && !e.isDirectory then
          return ← wrong
            s!"cannot move {quoted source} to {quoted target}: {OsError.notDirectory.text}"
        if e.isDirectory then
          if place.isPrefixOf goal then
            return ← wrong
              s!"cannot move {quoted source} to a subdirectory of itself, {quoted target}"
          if old.any fun o => !o.isDirectory then
            return ← wrong
              s!"cannot overwrite non-directory {quoted target} with directory {quoted source}"
          if old.isSome && !(p.files.listing goal).isEmpty then
            return ← wrong s!"cannot overwrite {quoted target}: {OsError.notEmpty.text}"
        else if old.any FileEntry.isDirectory then
          return ← wrong s!"cannot overwrite directory {quoted target} with non-directory"
        let stale := old.any fun o => e.time ≤ o.time
        if (given.has 'n' && old.isSome) || (given.has 'u' && stale) then return 0
        if (Files.system? place).isSome then
          let why := OsError.permissionDenied.text
          return ← wrong s!"cannot move {quoted source} to {quoted target}: {why}"
        match old.map FileEntry.body with
        | some .device => set { p with files := p.files.erase place }
        | _ => set { p with files := p.files.move place goal }
        if given.has 'v' then putLine s!"renamed {quoted source} -> {quoted target}"
        return 0

/-! ## Links -/

/-- Creates links. A link that is not symbolic is a copy. -/
def ln (args : List String) : Tool Nat := do
  let (given, operands) ← options
    [⟨'s', "symbolic", .never⟩, ⟨'f', "force", .never⟩, ⟨'n', "no-dereference", .never⟩,
      ⟨'T', "no-target-directory", .never⟩, ⟨'t', "target-directory", .always⟩,
      ⟨'v', "verbose", .never⟩, ⟨'r', "relative", .never⟩, ⟨'i', "interactive", .never⟩,
      ⟨'b', "", .never⟩, ⟨'L', "logical", .never⟩, ⟨'P', "physical", .never⟩] args
  let p ← get
  let isFolder (path : String) : Bool :=
    let e := if given.has 'n' then p.entryLink path else p.entry path
    match e with
    | .ok e => e.isDirectory
    | .error _ => false
  let pairs ← (match given.value? 't', operands with
    | _, [] => refuse 1 "missing file operand"
    | some dir, sources => pure (sources.map fun s => (s, below dir (nameOf s)))
    | none, [s] => pure [(s, nameOf s)]
    | none, several => do
      let target := several.getLast?.getD ""
      let sources := several.dropLast
      if isFolder target && !given.has 'T' then
        pure (sources.map fun s => (s, below target (nameOf s)))
      else if 1 < sources.length then
        let why : OsError := match p.entry target with
          | .ok _ => .notDirectory
          | .error e => e
        fail 1 s!"target {quoted target}: {why.text}"
      else pure (sources.map (·, target)))
  forEach pairs fun (source, target) => do
    let p ← get
    let kind := if given.has 's' then "symbolic link" else "hard link"
    let wrong (text : String) : Tool Nat := do
      complain text
      return 1
    let body : Except OsError FileEntry :=
      if given.has 's' then .ok ⟨.link source, 0o777, 0⟩ else p.entryLink source
    match body with
    | .error e => wrong s!"failed to access {quoted source}: {e.text}"
    | .ok e =>
      if e.isDirectory then return ← wrong s!"{source}: hard link not allowed for directory"
      match p.files.locateFrom p.here false (trimSlashes target) with
      | .error why => wrong s!"failed to create {kind} {quoted target}: {why.text}"
      | .ok goal =>
        match p.files.get? goal with
        | some old =>
          if old.isDirectory then
            return ← wrong (if given.has 'f' then s!"{target}: cannot overwrite directory"
              else s!"failed to create {kind} {quoted target}: {OsError.exists.text}")
          if !given.has 'f' then
            return ← wrong s!"failed to create {kind} {quoted target}: {OsError.exists.text}"
        | none => pure ()
        set { p with files := (p.files.erase goal).put goal e }
        if given.has 'v' then
          let arrow := if given.has 's' then "->" else "=>"
          putLine s!"{quoted target} {arrow} {quoted source}"
        return 0

/-! ## Sizes and new files -/

/-- Gives files a size. -/
def truncate (args : List String) : Tool Nat := do
  let (given, operands) ← options
    [⟨'c', "no-create", .never⟩, ⟨'s', "size", .always⟩, ⟨'r', "reference", .always⟩,
      ⟨'o', "io-blocks", .never⟩] args
  let some size := given.value? 's'
    | refuse 1 "you must specify either '--size' or '--reference'"
  if operands.isEmpty then refuse 1 "missing file operand"
  let (sign, digits) := match size.toList with
    | '+' :: ds => ('+', String.ofList ds)
    | '-' :: ds => ('-', String.ofList ds)
    | ds => ('=', String.ofList ds)
  let some n := amount? digits | fail 1 s!"Invalid number: {quoted size}"
  forEach operands fun path => do
    let p ← get
    let there := (p.entry path).toOption.isSome
    if given.has 'c' && !there then return 0
    let old := match p.locate path with
      | .ok place => (p.files.bytesAt place).toOption.getD []
      | .error _ => []
    let wanted := match sign with
      | '+' => old.length + n
      | '-' => old.length - n
      | _ => n
    let new := old.take wanted ++ List.replicate (wanted - old.length) 0
    match p.store path (.write false) (Text.Octets.ofBytes new) with
    | .ok p =>
      set p
      return 0
    | .error e =>
      complain s!"cannot open {quoted path} for writing: {e.text}"
      return 1

/-- Copies files with permissions, or creates directories. -/
def install (args : List String) : Tool Nat := do
  let (given, operands) ← options
    [⟨'d', "directory", .never⟩, ⟨'D', "", .never⟩, ⟨'m', "mode", .always⟩, ⟨'o', "owner", .always⟩,
      ⟨'g', "group", .always⟩, ⟨'t', "target-directory", .always⟩, ⟨'v', "verbose", .never⟩,
      ⟨'T', "no-target-directory", .never⟩, ⟨'p', "", .never⟩, ⟨'c', "", .never⟩,
      ⟨'s', "", .never⟩, ⟨'C', "compare", .never⟩] args
  let p ← get
  let mode ← (match given.value? 'm' with
    | none => pure 0o755
    | some m => match Mode.reader? 0 m with
      | some f => pure (f false 0)
      | none => fail 1 s!"invalid mode {quoted m}")
  let folders (paths : List String) : Tool Nat := do
    modify fun q => { q with mask := 0o022 }
    let status ← ExceptT.run (mkdir ("-p" :: "--" :: paths))
    modify fun q => { q with mask := p.mask }
    match status with
    | .ok n => return n
    | .error n => return n
  if given.has 'd' then
    let status ← folders operands
    if given.has 'm' then
      for path in operands do
        discard (changeEntry path fun e => { e with mode := mode })
    return status
  if given.has 'D' then
    match operands, given.value? 't' with
    | _, some dir => discard (folders [dir])
    | [_, target], none => discard (folders [parentOf target])
    | _, _ => pure ()
  let t ← transfer given operands
  forEach t.sources fun source => do
    let target := if t.into then below t.target (nameOf source) else t.target
    match (← get).contents source with
    | .error .isDirectory =>
      complain s!"omitting directory {quoted source}"
      return 1
    | .error e =>
      complain s!"cannot stat {quoted source}: {e.text}"
      return 1
    | .ok text =>
      match (← get).store target (.write false) text with
      | .error e =>
        complain s!"cannot create regular file {quoted target}: {e.text}"
        return 1
      | .ok p =>
        set p
        discard (changeEntry target fun e => { e with mode := mode })
        if given.has 'v' then putLine s!"{quoted source} -> {quoted target}"
        return 0

/-- Creates a file or a directory with a name that nobody has used. -/
def mktemp (args : List String) : Tool Nat := do
  let (given, operands) ← options
    [⟨'d', "directory", .never⟩, ⟨'q', "quiet", .never⟩, ⟨'u', "dry-run", .never⟩,
      ⟨'p', "tmpdir", .perhaps⟩, ⟨'t', "", .never⟩, ⟨'s', "suffix", .always⟩] args
  let template := operands.headD "tmp.XXXXXXXXXX"
  let count := (template.toList.reverse.takeWhile (· == 'X')).length
  if count < 3 then fail 1 s!"too few X's in template {quoted template}"
  let p ← get
  let stem := String.ofList (template.toList.take (template.length - count))
  let digits := toString p.files.clock
  let name := stem ++ "".pushn 'a' (count - digits.length) ++ digits ++
    (given.value? 's').getD ""
  let inTmp := operands.isEmpty || given.has 'p' || given.has 't'
  let dir := match given.value? 'p' with
    | some d => if d.isEmpty then "/tmp" else d
    | none => "/tmp"
  let path := if inTmp then below dir name else name
  let e : FileEntry := if given.has 'd' then ⟨.directory, 0o700, 0⟩ else ⟨.file [], 0o600, 0⟩
  if !given.has 'u' then
    match ← putEntry path e with
    | .ok () => pure ()
    | .error why =>
      let kind := if given.has 'd' then "directory" else "file"
      let shown := if inTmp then below dir template else template
      fail 1 s!"failed to create {kind} via template {quoted shown}: {why.text}"
  putLine path
  return 0

end Provision.Tool
