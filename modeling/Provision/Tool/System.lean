import Provision.Tool.List
import Provision.Tool.Column

/-!
# The system

Programs that tell something about the system or the time, and those that do nearly nothing.
-/

namespace Provision.Tool

open Number (Signed)

/-- How many thousandths of a second a span of time has, which may end with a letter for its
unit. -/
def milliseconds? (s : String) : Option Nat :=
  match Signed.read? s.toList with
  | some (x, rest) =>
    let unit : Option Nat := match rest with
      | [] | ['s'] => some 1
      | ['m'] => some 60
      | ['h'] => some 3600
      | ['d'] => some 86400
      | _ => none
    if x.negative then none else unit.map fun u => (x.units (-3)).toNat * u
  | none => if s == "infinity" || s == "inf" then some (Nat.pow 10 15) else none

/-- Waits for a while, which takes no time here, but is counted. -/
def sleep (args : List String) : Tool Nat := do
  let (_, operands) ← options [] args
  if operands.isEmpty then refuse 1 "missing operand"
  let wrong := operands.filter fun s => (milliseconds? s).isNone
  for s in wrong.dropLast do
    complain s!"invalid time interval {quoted s}"
  match wrong.getLast? with
  | some s => refuse 1 s!"invalid time interval {quoted s}"
  | none =>
    let spent := (operands.filterMap milliseconds?).foldl (· + ·) 0
    modify fun p => { p with waited := p.waited + spent }
    return 0

/-- Tells who runs the program. -/
def id (args : List String) : Tool Nat := do
  let (given, operands) ← options
    [⟨'u', "user", .never⟩, ⟨'g', "group", .never⟩, ⟨'G', "groups", .never⟩,
      ⟨'n', "name", .never⟩, ⟨'r', "real", .never⟩, ⟨'a', "", .never⟩] args
  match operands.find? fun o => o != "root" && o != "0" with
  | some o => fail 1 s!"{quoted o}: no such user"
  | none => pure ()
  if given.has 'u' || given.has 'g' || given.has 'G' then
    putLine (if given.has 'n' then "root" else "0")
  else putLine "uid=0(root) gid=0(root) groups=0(root)"
  return 0

/-- The parts of the name of the system that options ask for. -/
def unameParts (given : Given) : List String :=
  let parts := [('s', "Linux"), ('n', "localhost"), ('r', "6.1.0"), ('v', "#1 SMP"),
    ('m', "x86_64"), ('p', "x86_64"), ('i', "x86_64"), ('o', "GNU/Linux")]
  if given.isEmpty then ["Linux"]
  else (parts.filter fun e => given.has e.1 ||
    (given.has 'a' && e.1 != 'p' && e.1 != 'i')).map Prod.snd

/-- Tells the name of the system. -/
def uname (args : List String) : Tool Nat := do
  let (given, operands) ← options
    [⟨'a', "all", .never⟩, ⟨'s', "kernel-name", .never⟩, ⟨'n', "nodename", .never⟩,
      ⟨'r', "kernel-release", .never⟩, ⟨'v', "kernel-version", .never⟩, ⟨'m', "machine", .never⟩,
      ⟨'p', "processor", .never⟩, ⟨'i', "hardware-platform", .never⟩,
      ⟨'o', "operating-system", .never⟩] args
  match operands with
  | o :: _ => refuse 1 s!"extra operand {quoted o}"
  | [] => pure ()
  putLine (" ".intercalate (unameParts given))
  return 0

/-- Prints a line whatever the arguments are. -/
def tells (text : String) : Tool Nat := do
  putLine text
  return 0

/-- Prints the environment, or some of it. -/
def printenv (args : List String) : Tool Nat := do
  let (given, operands) ← options [⟨'0', "null", .never⟩] args 2
  let ending := if given.has '0' then "\x00" else "\n"
  let p ← get
  if operands.isEmpty then
    put (String.join (p.environment.map fun e => e.1 ++ "=" ++ e.2 ++ ending))
    return 0
  forEach operands fun name => do
    match p.value? name with
    | some v =>
      put (v ++ ending)
      return 0
    | none => return 1

/-- The directories in which programs are looked for. -/
def searchPath (p : Process) : List String :=
  ((p.value? "PATH").getD "/usr/local/bin:/usr/bin:/bin").splitOn ":"

/-- The paths at which a program of a name is found. -/
def programPaths (p : Process) (dirs : List String) (name : String) : List String :=
  let isProgram (path : String) : Bool := match p.entry path with
    | .ok e => !e.isDirectory && e.isExecutable
    | .error _ => false
  if name.contains '/' then if isProgram name then [name] else []
  else (dirs.map fun d => if d.isEmpty then "./" ++ name else below d name).filter isProgram

/-- Prints where programs are. -/
def which (args : List String) : Tool Nat := do
  let (given, operands) ← options [⟨'a', "", .never⟩, ⟨'s', "", .never⟩] args
  if operands.isEmpty then return 1
  let p ← get
  forEach operands fun name => do
    match programPaths p (searchPath p) name with
    | [] => return 1
    | first :: rest =>
      if !given.has 's' then put (ofLines (if given.has 'a' then first :: rest else [first]))
      return 0

/-! ## Dates -/

/-- The names of the days of the week, beginning with the one on which days are counted from. -/
def weekdays : List String :=
  ["Thursday", "Friday", "Saturday", "Sunday", "Monday", "Tuesday", "Wednesday"]

/-- The names of the months. -/
def months : List String :=
  ["January", "February", "March", "April", "May", "June", "July", "August", "September",
    "October", "November", "December"]

/-- What a letter of a format for dates stands for. -/
def dateField (time : Int) (c : Char) : String :=
  let seconds := time.fdiv second
  let days := seconds.fdiv 86400
  let (y, m, d) := dateOf days
  let s := seconds.emod 86400
  let weekday := weekdays.getD (days.emod 7).toNat ""
  let month := months.getD (m.toNat - 1) ""
  let clock := twoDigits (s / 3600) ++ ":" ++ twoDigits (s / 60 % 60) ++ ":" ++ twoDigits (s % 60)
  let shortened (t : String) : String := String.ofList (t.toList.take 3)
  let three (n : Int) : String := "".pushn '0' (3 - (toString n).length) ++ toString n
  let nano := toString (time.emod second)
  let hour := s / 3600
  match c with
  | 'Y' => toString y
  | 'y' => twoDigits (y % 100)
  | 'C' => twoDigits (y / 100)
  | 'm' => twoDigits m
  | 'd' => twoDigits d
  | 'e' => padLeft 2 (toString d)
  | 'H' => twoDigits hour
  | 'k' => padLeft 2 (toString hour)
  | 'I' => twoDigits (if hour % 12 = 0 then 12 else hour % 12)
  | 'M' => twoDigits (s / 60 % 60)
  | 'S' => twoDigits (s % 60)
  | 'N' => "".pushn '0' (9 - nano.length) ++ nano
  | 's' => toString seconds
  | 'j' => three (days - daysFrom y 1 1 + 1)
  | 'a' => shortened weekday
  | 'A' => weekday
  | 'b' | 'h' => shortened month
  | 'B' => month
  | 'u' => toString (((days + 3).emod 7) + 1)
  | 'w' => toString ((days + 4).emod 7)
  | 'F' => s!"{y}-{twoDigits m}-{twoDigits d}"
  | 'T' => clock
  | 'R' => twoDigits hour ++ ":" ++ twoDigits (s / 60 % 60)
  | 'D' => twoDigits m ++ "/" ++ twoDigits d ++ "/" ++ twoDigits (y % 100)
  | 'p' => if hour < 12 then "AM" else "PM"
  | 'Z' => "UTC"
  | 'z' => "+0000"
  | 'n' => "\n"
  | 't' => "\t"
  | '%' => "%"
  | 'c' => shortened weekday ++ " " ++ shortened month ++ " " ++ padLeft 2 (toString d) ++ " " ++
      clock ++ " " ++ toString y
  | c => "%" ++ String.singleton c

/-- A time in a format. -/
def dateText (time : Int) : List Char → String
  | '%' :: '-' :: c :: rest =>
    let field := dateField time c
    let kept := String.ofList (field.toList.dropWhile fun c => c == '0' || c == ' ')
    (if kept.isEmpty then "0" else kept) ++ dateText time rest
  | '%' :: c :: rest => dateField time c ++ dateText time rest
  | c :: rest => String.singleton c ++ dateText time rest
  | [] => ""

/-- Prints a time. -/
def date (args : List String) : Tool Nat := do
  let (given, operands) ← options
    [⟨'d', "date", .always⟩, ⟨'u', "utc", .never⟩, ⟨'r', "reference", .always⟩,
      ⟨'I', "iso-8601", .perhaps⟩, ⟨'R', "rfc-email", .never⟩, ⟨'s', "set", .always⟩] args
  let p ← get
  let time ← (match given.value? 'd', given.value? 'r' with
    | some d, _ => match timeOf? p.files.now d with
      | some t => pure t
      | none => fail 1 s!"invalid date {quoted d}"
    | none, some r => match p.entry r with
      | .ok e => pure e.time
      | .error e => fail 1 s!"{r}: {e.text}"
    | none, none => pure p.files.now)
  let format := match operands with
    | f :: _ => if f.startsWith "+" then String.ofList (f.toList.drop 1) else "%c"
    | [] =>
      if given.has 'I' then
        (match given.value? 'I' with
        | some "seconds" => "%FT%T+00:00"
        | some "minutes" => "%FT%R+00:00"
        | some "hours" => "%FT%H+00:00"
        | _ => "%F")
      else if given.has 'R' then "%a, %d %b %Y %T %z" else "%a %b %e %T UTC %Y"
  match operands with
  | f :: _ => if !f.startsWith "+" then fail 1 s!"invalid date {quoted f}"
  | [] => pure ()
  putLine (dateText time format.toList)
  return 0

/-! ## Pieces of files -/

/-- The ending of the names of pieces: two letters that count upwards. -/
def pieceEnding (n : Nat) : String :=
  String.ofList [Char.ofNat (97 + n / 26 % 26), Char.ofNat (97 + n % 26)]

/-- Writes pieces of a file to files of their own. -/
def split (args : List String) : Tool Nat := do
  let (given, operands) ← options
    [⟨'l', "lines", .always⟩, ⟨'b', "bytes", .always⟩, ⟨'d', "numeric-suffixes", .never⟩,
      ⟨'a', "suffix-length", .always⟩] args
  let path := operands.headD "-"
  let stem := operands.getD 1 "x"
  match ← input path with
  | .error e => fail 1 s!"cannot open {quoted path} for reading: {e.text}"
  | .ok text =>
    let pieces : List String := match (given.value? 'b').bind amount? with
      | some n => groups n text.toList.length text.toList |>.map String.ofList
      | none =>
        let ls := (linesOf text).map (· ++ "\n")
        let ls := if endsOpen text then ls.dropLast ++ (linesOf text).getLast?.toList else ls
        (groups (((given.value? 'l').bind nat?).getD 1000) ls.length ls).map String.join
    for (piece, i) in pieces.zipIdx do
      let ending := if given.has 'd' then twoDigits i else pieceEnding i
      match (← get).store (stem ++ ending) (.write false) piece with
      | .ok p => set p
      | .error e => fail 1 s!"{stem ++ ending}: {e.text}"
    return 0
where
  /-- Lists of a number of elements. -/
  groups {α : Type} (n : Nat) : Nat → List α → List (List α)
  | 0, _ => []
  | fuel + 1, l => if l.isEmpty || n = 0 then [] else l.take n :: groups n fuel (l.drop n)

/-- Copies blocks from a file to another. -/
def dd (args : List String) : Tool Nat := do
  let value? (key : String) : Option String :=
    (args.reverse.find? fun a => a.startsWith (key ++ "=")).map fun a =>
      String.ofList (a.toList.drop (key.length + 1))
  let keys := ["if", "of", "bs", "ibs", "obs", "count", "skip", "seek", "conv", "status", "iflag",
    "oflag"]
  match args.find? fun a => !(keys.any fun k => a.startsWith (k ++ "=")) with
  | some a => refuse 1 s!"unrecognized operand {quoted a}"
  | none => pure ()
  let number (key : String) (usual : Nat) : Tool Nat := do
    match value? key with
    | none => return usual
    | some v => match amount? v with
      | some n => return n
      | none => fail 1 s!"invalid number: {quoted v}"
  let size ← number "bs" (← number "ibs" 512)
  let skipped := size * (← number "skip" 0)
  let source := (value? "if").getD "-"
  match ← input source with
  | .error e => fail 1 s!"failed to open {quoted source}: {e.text}"
  | .ok text =>
    let cs := text.toList.drop skipped
    let cs ← (match value? "count" with
      | none => pure cs
      | some _ => return cs.take (size * (← number "count" 0)))
    match value? "of" with
    | none => put (String.ofList cs)
    | some target =>
      let seek := size * (← number "seek" 0)
      let keeps := (value? "conv").any fun c => (c.splitOn ",").contains "notrunc"
      let p ← get
      let old := if keeps || 0 < seek then (p.contents target).toOption.getD "" else ""
      let new := Process.splice (Text.Octets.toBytes (if keeps then old
        else String.ofList (old.toList.take seek))) (cs.map Char.toUInt8) seek
      match (← get).store target (.write false) (Text.Octets.ofBytes new) with
      | .ok p => set p
      | .error e => fail 1 s!"failed to open {quoted target}: {e.text}"
    if value? "status" != some "none" then
      let whole := cs.length / size
      let part := if cs.length % size = 0 then 0 else 1
      warn s!"{whole}+{part} records in\n{whole}+{part} records out\n"
      if value? "status" != some "noxfer" then
        let bytes := if cs.length = 1 then "byte" else "bytes"
        warn s!"{cs.length} {bytes} copied, 0.0001 s, 1.0 MB/s\n"
    return 0

end Provision.Tool
