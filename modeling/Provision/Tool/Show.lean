import Provision.Tool

/-!
# Showing files

Programs that print files, or the first or last parts of them.
-/

namespace Provision.Tool

/-! ## Whole files -/

/-- A character as it can be seen; tabs and line breaks are left as they are. -/
def visible (c : Char) : String :=
  let plain (n : Nat) : String :=
    if n < 32 then "^" ++ String.singleton (Char.ofNat (n + 64))
    else if n == 127 then "^?"
    else String.singleton (Char.ofNat n)
  if c == '\n' || c == '\t' then String.singleton c
  else if c.toNat < 128 then plain c.toNat
  else "M-" ++ plain (c.toNat - 128)

/-- How `cat` shows a text. -/
structure Showing where
  numbered : Bool
  /-- Only lines with something in them are numbered. -/
  filledOnly : Bool
  squeezed : Bool
  ends : Bool
  tabs : Bool
  controls : Bool

/-- The lines of a text, numbered from a number on. -/
def Showing.lines (s : Showing) : Nat → Bool → List String → List String
  | _, _, [] => []
  | n, afterBlank, l :: rest =>
    if l.isEmpty && s.squeezed && afterBlank then s.lines n true rest
    else
      let body := if s.controls then String.join (l.toList.map visible) else l
      let body := if s.tabs then body.replace "\t" "^I" else body
      let counts := if s.filledOnly then !l.isEmpty else s.numbered
      let label := if counts then padLeft 6 (toString n) ++ "\t" else ""
      (label ++ body) :: s.lines (if counts then n + 1 else n) l.isEmpty rest

/-- A text as it is shown. -/
def Showing.render (s : Showing) (text : String) : String :=
  let ls := s.lines 1 false (linesOf text)
  let ending := if s.ends then "$\n" else "\n"
  if endsOpen text then ending.intercalate ls
  else String.join (ls.map (· ++ ending))

/-- The place of the file that a descriptor leads to, and whether it is added to. -/
def filePlace? (p : Process) (n : Nat) : Option (Place × Nat × Bool) :=
  match p.stream? n with
  | some (.file place offset appends) => some (place, offset, appends)
  | _ => none

/-- Whether a file is the one that is written to, which is no use reading. -/
def isOutput (p : Process) (path : String) : Bool :=
  match filePlace? p 1, if path == "-" then filePlace? p 0 |>.map Prod.fst
      else (p.locate path).toOption with
  | some (place, offset, appends), some other =>
    place == other && (if appends then
      match p.files.bytesAt place with
        | .ok bytes => !bytes.isEmpty
        | .error _ => false
      else 0 < offset)
  | _, _ => false

/-- Prints files one after another. -/
def cat (args : List String) : Tool Nat := do
  let (given, paths) ← options
    [⟨'A', "show-all", .never⟩, ⟨'b', "number-nonblank", .never⟩, ⟨'e', "", .never⟩,
      ⟨'E', "show-ends", .never⟩, ⟨'n', "number", .never⟩, ⟨'s', "squeeze-blank", .never⟩,
      ⟨'t', "", .never⟩, ⟨'T', "show-tabs", .never⟩, ⟨'u', "", .never⟩,
      ⟨'v', "show-nonprinting", .never⟩] args
  let any (letters : List Char) : Bool := letters.any given.has
  let showing : Showing :=
    { numbered := given.has 'n', filledOnly := given.has 'b', squeezed := given.has 's'
      ends := any ['A', 'e', 'E'], tabs := any ['A', 't', 'T']
      controls := any ['A', 'e', 't', 'v'] }
  let p ← get
  if (p.target? 1).isNone then fail 1 "standard output: Bad file descriptor"
  let mut text := ""
  let mut shown := 0
  let mut status := 0
  for path in if paths.isEmpty then ["-"] else paths do
    if isOutput (← get) path then
      complain s!"{path}: input file is output file"
      status := 1
    else match ← input path with
      | .ok more =>
        text := text ++ more
        if given.isEmpty then put more
        else
          let whole := showing.render text
          put (String.ofList (whole.toList.drop shown))
          shown := whole.length
      | .error e =>
        complain s!"{path}: {e.text}"
        status := 1
  if (paths.isEmpty || paths.contains "-") && (p.target? 0).isNone then
    fail 1 "closing standard input: Bad file descriptor"
  return status

/-- Prints the lines of files in the opposite order. -/
def tac (args : List String) : Tool Nat := do
  let (_, paths) ← options [] args
  forEach (if paths.isEmpty then ["-"] else paths) fun path => do
    match ← input path with
    | .ok text =>
      let whole := ofLines (linesOf text).reverse
      put (if endsOpen text then
          match (linesOf text).reverse with
          | l :: rest => l ++ ofLines rest
          | [] => whole
        else whole)
      return 0
    | .error e =>
      complain (if e = .isDirectory then s!"{path}: read error: {e.text}"
        else s!"failed to open '{path}' for reading: {e.text}")
      return 1

/-- Prints each line of files backwards. -/
def rev (args : List String) : Tool Nat := do
  let (_, paths) ← options [] args
  forEach (if paths.isEmpty then ["-"] else paths) fun path => do
    match ← input path with
    | .ok text =>
      let turned := (linesOf text).map fun l => String.ofList l.toList.reverse
      put (if endsOpen text then "\n".intercalate turned else ofLines turned)
      return 0
    | .error e =>
      complain s!"cannot open {path}: {e.text}"
      return 1

/-- Prints the lines of files with numbers in front of them. -/
def nl (args : List String) : Tool Nat := do
  let (given, paths) ← options
    [⟨'b', "body-numbering", .always⟩, ⟨'i', "line-increment", .always⟩,
      ⟨'n', "number-format", .always⟩, ⟨'s', "number-separator", .always⟩,
      ⟨'v', "starting-line-number", .always⟩, ⟨'w', "number-width", .always⟩] args
  let number (letter : Char) (usual : Nat) : Nat :=
    ((given.value? letter).bind nat?).getD usual
  let width := number 'w' 6
  let separator := (given.value? 's').getD "\t"
  let all := given.value? 'b' == some "a"
  let none := given.value? 'b' == some "n"
  let label (n : Nat) : String :=
    let digits := toString n
    match given.value? 'n' with
    | some "ln" => padRight width digits
    | some "rz" => "".pushn '0' (width - digits.length) ++ digits
    | _ => padLeft width digits
  let mut text := ""
  let mut status := 0
  for path in if paths.isEmpty then ["-"] else paths do
    match ← input path with
    | .ok more => text := text ++ more
    | .error e =>
      complain s!"{path}: {e.text}"
      status := 1
  let mut n := number 'v' 1
  let mut shown := []
  for l in linesOf text do
    if !none && (all || !l.isEmpty) then
      shown := (label n ++ separator ++ l) :: shown
      n := n + number 'i' 1
    else
      shown := ("".pushn ' ' (width + separator.length) ++ l) :: shown
  put (ofLines shown.reverse)
  return status

/-! ## Parts of files -/

/-- How much of a file is shown. -/
structure Portion where
  count : Nat
  bytes : Bool := false
  /-- The count is what is left out. -/
  others : Bool := false

/-- The first ones of a list, or all but the last ones. -/
def Portion.first {α : Type} (p : Portion) (l : List α) : List α :=
  l.take (if p.others then l.length - p.count else p.count)

/-- The last ones of a list, or those from a number on. -/
def Portion.last {α : Type} (p : Portion) (l : List α) : List α :=
  l.drop (if p.others then p.count - 1 else l.length - p.count)

/-- The lines of a text, each with its line break. -/
def brokenLines (text : String) : List String :=
  let ls := linesOf text
  if endsOpen text then ls.dropLast.map (· ++ "\n") ++ ls.getLast?.toList
  else ls.map (· ++ "\n")

/-- The part of a text that is shown. -/
def Portion.chosen (p : Portion) (choose : {α : Type} → List α → List α) (text : String) : String :=
  if p.bytes then String.ofList (choose text.toList)
  else String.join (choose (brokenLines text))

/-- The number in an option such as `-5` in front of all others, and the other arguments. -/
def shortCount (args : List String) : List String :=
  match args with
  | a :: rest =>
    match a.toList with
    | '-' :: c :: cs =>
      if c.isDigit then
        let digits := (c :: cs).takeWhile Char.isDigit
        let after := (c :: cs).drop digits.length
        let letters := after.filter fun l => l == 'q' || l == 'v'
        let unit := if after.contains 'c' then "-c" else "-n"
        [unit, String.ofList digits] ++
          (if letters.isEmpty then [] else [String.ofList ('-' :: letters)]) ++ rest
      else args
    | _ => args
  | [] => []

/-- The portion that options ask for. -/
def portion (sign : Char) (given : Given) : Tool Portion := do
  match given.last? ['n', 'c'] with
  | none => return { count := 10 }
  | some letter =>
    let v := (given.value? letter).getD ""
    let others := v.toList.head? == some sign
    let digits := match v.toList with
      | '-' :: ds | '+' :: ds => String.ofList ds
      | ds => String.ofList ds
    match amount? digits with
    | some n => return { count := n, bytes := letter == 'c', others := others }
    | none =>
      let what := if letter == 'c' then "bytes" else "lines"
      fail 1 s!"invalid number of {what}: {quoted digits}"

/-- The name of a file, a dash being the standard input. -/
def shownName (path : String) : String := if path == "-" then "standard input" else path

/-- Shows a part of each of some files, under their names if there are several. -/
def parts (given : Given) (paths : List String) (show1 : String → Tool Nat) : Tool Nat := do
  let paths := if paths.isEmpty then ["-"] else paths
  let titled := if given.has 'q' then false else given.has 'v' || 1 < paths.length
  let mut status := 0
  let mut isFirst := true
  for path in paths do
    let name := shownName path
    match ← (do if path == "-" then return Except.ok "" else return (← get).contents path) with
    | .ok _ | .error .isDirectory =>
      if titled then
        put ((if isFirst then "" else "\n") ++ s!"==> {name} <==\n")
        isFirst := false
      status := max status (← show1 path)
    | .error e =>
      complain s!"cannot open {quoted name} for reading: {e.text}"
      status := 1
  return status

/-- The options of programs that show parts of files. -/
def partSwitches : List Switch :=
  [⟨'n', "lines", .always⟩, ⟨'c', "bytes", .always⟩, ⟨'q', "quiet", .never⟩,
    ⟨'q', "silent", .never⟩, ⟨'v', "verbose", .never⟩]

/-- How many octets a program reads at a time. -/
def block : Nat := 8192

/-- Prints the first lines or bytes of files. -/
def head (args : List String) : Tool Nat := do
  let (given, paths) ← options partSwitches (shortCount args)
  let portion ← portion '-' given
  parts given paths fun path => do
    let p ← get
    match if path == "-" then p.available 0 else p.contents path with
    | .ok text =>
      let shown := portion.chosen portion.first text
      if path == "-" then
        let used := match p.stream? 0 with
          | some (.file ..) => shown.length
          | _ => if portion.bytes then shown.length
            else (shown.length + block - 1) / block * block
        modify fun p => p.advance 0 used
      put shown
      return 0
    | .error e =>
      complain s!"error reading {quoted (shownName path)}: {e.text}"
      return 1

/-- Prints the last lines or bytes of files, or those from a number on. -/
def tail (args : List String) : Tool Nat := do
  let (given, paths) ← options
    (partSwitches ++
      [⟨'f', "follow", .perhaps⟩, ⟨'F', "", .never⟩, ⟨'s', "sleep-interval", .always⟩,
      ⟨'p', "pid", .always⟩, ⟨'r', "retry", .never⟩]) (shortCount args)
  let portion ← portion '+' given
  parts given paths fun path => do
    match ← input path with
    | .ok text =>
      put (portion.chosen portion.last text)
      return 0
    | .error e =>
      complain s!"error reading {quoted (shownName path)}: {e.text}"
      return 1

/-! ## Copies of streams -/

/-- Prints what it reads, and writes it to files. -/
def tee (args : List String) : Tool Nat := do
  let (given, paths) ← options
    [⟨'a', "append", .never⟩, ⟨'i', "ignore-interrupts", .never⟩, ⟨'p', "", .never⟩] args
  match ← input "-" with
  | .error e =>
    complain s!"read error: {e.text}"
    return 1
  | .ok text =>
    put text
    forEach paths fun path => do
      match (← get).store path (if given.has 'a' then .append else .write false) text with
      | .ok p =>
        set p
        return 0
      | .error e =>
        complain s!"{path}: {e.text}"
        return 1

/-- Prints a line again and again, as often as anybody reads. -/
def yes (args : List String) : Tool Nat := do
  let line := (if args.isEmpty then "y" else " ".intercalate args) ++ "\n"
  put (String.join (List.replicate (Process.enough / line.length + 1) line))
  return 1

/-- Breaks lines that are longer than a width. -/
def fold (args : List String) : Tool Nat := do
  let (given, paths) ← options
    [⟨'w', "width", .always⟩, ⟨'s', "spaces", .never⟩, ⟨'b', "bytes", .never⟩] args
  let width := ((given.value? 'w').bind nat?).getD 80
  if width = 0 then
    let shown := (given.value? 'w').getD ""
    fail 1 s!"invalid number of columns: {quoted shown}"
  forEach (if paths.isEmpty then ["-"] else paths) fun path => do
    match ← input path with
    | .ok text =>
      let ls := (linesOf text).flatMap fun l => pieces (given.has 's') width l.length l.toList
      put (if endsOpen text then "\n".intercalate ls else ofLines ls)
      return 0
    | .error e =>
      complain s!"{path}: {e.text}"
      return 1
where
  /-- The pieces of a line. -/
  pieces (atBlanks : Bool) (width : Nat) : Nat → List Char → List String
  | 0, cs => [String.ofList cs]
  | fuel + 1, cs =>
    if cs.length ≤ width then [String.ofList cs]
    else
      let most := cs.take width
      let upToBlank := (most.reverse.dropWhile (· != ' ')).reverse
      let piece := if atBlanks && !upToBlank.isEmpty then upToBlank else most
      String.ofList piece :: pieces atBlanks width fuel (cs.drop piece.length)

end Provision.Tool
