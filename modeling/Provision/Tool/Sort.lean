import Provision.Tool
import Provision.Number.Rounded

/-!
# Order among lines

Programs that sort lines, leave out repeated ones, and compare sorted files.
-/

namespace Provision.Tool

open Number (Signed)

/-! ## Keys -/

/-- How two texts are compared. -/
structure Manner where
  numeric : Bool := false
  general : Bool := false
  human : Bool := false
  month : Bool := false
  version : Bool := false
  reversed : Bool := false
  folds : Bool := false
  dictionary : Bool := false
  printable : Bool := false
  /-- Blanks in front of the first and the last place of a key do not count. -/
  skipsStart : Bool := false
  skipsEnd : Bool := false
deriving DecidableEq

/-- A manner with one more letter. -/
def Manner.add (m : Manner) (letter : Char) (start stop : Bool) : Option Manner :=
  match letter with
  | 'n' => some { m with numeric := true }
  | 'g' => some { m with general := true }
  | 'h' => some { m with human := true }
  | 'M' => some { m with month := true }
  | 'V' => some { m with version := true }
  | 'r' => some { m with reversed := true }
  | 'f' => some { m with folds := true }
  | 'd' => some { m with dictionary := true }
  | 'i' => some { m with printable := true }
  | 'b' => some { m with skipsStart := m.skipsStart || start, skipsEnd := m.skipsEnd || stop }
  | _ => none

/-- A place in a line: a field and a character of it, both counted from zero. -/
structure KeyPlace where
  field : Nat
  char : Nat := 0

/-- A key: where it begins, and where it ends. -/
structure Key where
  start : KeyPlace := ⟨0, 0⟩
  stop : Option KeyPlace := none
  manner : Manner := {}

/-- Whether a character is a blank. -/
def isBlankChar (c : Char) : Bool := c == ' ' || c == '\t' || c == '\n'

/-- Goes past fields. -/
def pastFields (separator : Option Char) : Nat → List Char → List Char
  | 0, cs => cs
  | n + 1, cs => match separator with
    | some t => pastFields separator n ((cs.dropWhile (· != t)).drop 1)
    | none =>
      pastFields separator n ((cs.dropWhile isBlankChar).dropWhile fun c => !isBlankChar c)

namespace Key

/-- How many characters stand before a key. -/
def startIn (k : Key) (separator : Option Char) (cs : List Char) : Nat :=
  let rest := pastFields separator k.start.field cs
  let rest := if k.manner.skipsStart then rest.dropWhile isBlankChar else rest
  cs.length - (rest.drop k.start.char).length

/-- How many characters stand before the end of a key. -/
def stopIn (k : Key) (separator : Option Char) (cs : List Char) : Nat :=
  match k.stop with
  | none => cs.length
  | some ⟨field, 0⟩ =>
    let before := pastFields separator field cs
    match separator with
    | some t => cs.length - (before.dropWhile (· != t)).length
    | none => cs.length - (pastFields none 1 before).length
  | some ⟨field, char⟩ =>
    let rest := pastFields separator field cs
    let rest := if k.manner.skipsEnd then rest.dropWhile isBlankChar else rest
    cs.length - (rest.drop char).length

/-- The text of a key. -/
def text (k : Key) (separator : Option Char) (line : String) : List Char :=
  let cs := line.toList
  let i := k.startIn separator cs
  (cs.take (k.stopIn separator cs)).drop i

end Key

/-! ## Comparing -/

/-- The number in front of a text, without an exponent. -/
def plainNumber (cs : List Char) : Signed :=
  let cs := cs.dropWhile isBlankChar
  let (minus, cs) := match cs with
    | '-' :: rest => (true, rest)
    | cs => (false, cs)
  let number := cs.takeWhile fun c => c.isDigit || c == '.'
  match Signed.read? number with
  | some (x, _) => { x with negative := minus }
  | none => ⟨false, ⟨0, 0⟩⟩

/-- The order of magnitude that a letter after a number stands for. -/
def magnitude (cs : List Char) : Nat :=
  let rest := (cs.dropWhile isBlankChar).dropWhile fun c => c == '-' || c.isDigit || c == '.'
  match rest with
  | c :: _ => match ['K', 'M', 'G', 'T', 'P', 'E'].findIdx? (· == c.toUpper) with
    | some i => i + 1
    | none => 0
  | [] => 0

/-- The number of a month. -/
def monthNumber (cs : List Char) : Nat :=
  let name := String.ofList (((cs.dropWhile isBlankChar).take 3).map Char.toUpper)
  match ["JAN", "FEB", "MAR", "APR", "MAY", "JUN", "JUL", "AUG", "SEP", "OCT", "NOV",
      "DEC"].findIdx? (· == name) with
  | some i => i + 1
  | none => 0

/-- How versions are ordered: digits as numbers, letters before other characters, and a tilde
before everything. -/
def versionOrder : Nat → List Char → List Char → Ordering
  | 0, _, _ => .eq
  | fuel + 1, a, b =>
    let rank (c : Option Char) : Int := match c with
      | none => 0
      | some '~' => -1
      | some c => if c.isDigit then 0 else if c.isAlpha then c.toNat else c.toNat + 256
    let isPart (c : Char) : Bool := !c.isDigit
    let (x, y) := (a.takeWhile isPart, b.takeWhile isPart)
    let count := max x.length y.length + 1
    let texts := (List.range count).map fun i => compare (rank x[i]?) (rank y[i]?)
    match texts.find? (· != .eq) with
    | some o => o
    | none =>
      let (a, b) := (a.drop x.length, b.drop y.length)
      let (x, y) := (a.takeWhile Char.isDigit, b.takeWhile Char.isDigit)
      let value (ds : List Char) : Nat := ds.foldl (fun n d => 10 * n + (d.toNat - 48)) 0
      match compare (value x) (value y) with
      | .eq =>
        let (a, b) := (a.drop x.length, b.drop y.length)
        if a.isEmpty && b.isEmpty then .eq else versionOrder fuel a b
      | o => o

/-- How texts are ordered octet by octet. -/
def textOrder (a b : List Char) : Ordering :=
  compare (String.ofList a) (String.ofList b)

/-- How the texts of a key are ordered. -/
def Manner.order (m : Manner) (a b : List Char) : Ordering :=
  let o :=
    if m.numeric then (plainNumber a).order (plainNumber b)
    else if m.general then
      let value (cs : List Char) : Option Signed :=
        (Signed.read? (cs.dropWhile isBlankChar)).map Prod.fst
      match value a, value b with
      | some x, some y => x.order y
      | none, none => .eq
      | none, some _ => .lt
      | some _, none => .gt
    else if m.human then
      let sign (cs : List Char) : Int :=
        let x := plainNumber cs
        if x.magnitude.digits = 0 then 0 else if x.negative then -1 else 1
      match compare (sign a) (sign b) with
      | .eq => match compare (sign a * magnitude a) (sign b * magnitude b) with
        | .eq => (plainNumber a).order (plainNumber b)
        | o => o
      | o => o
    else if m.month then compare (monthNumber a) (monthNumber b)
    else if m.version then
      match versionOrder (a.length + b.length + 1) a b with
      | .eq => textOrder a b
      | o => o
    else
      let kept (cs : List Char) : List Char :=
        let cs := if m.dictionary then cs.filter fun c => c.isAlphanum || isBlankChar c
          else if m.printable then cs.filter fun c => 32 ≤ c.toNat && c.toNat < 127
          else cs
        if m.folds then cs.map Char.toUpper else cs
      textOrder (kept a) (kept b)
  if m.reversed then o.swap else o

/-- What `sort` has been asked for. -/
structure Sorting where
  keys : List Key := []
  manner : Manner := {}
  separator : Option Char := none
  unique : Bool := false
  stable : Bool := false

namespace Sorting

/-- How two lines are ordered by keys alone. -/
def inOrder (separator : Option Char) : List Key → String → String → Ordering
  | [], _, _ => .eq
  | k :: rest, a, b =>
    match k.manner.order (k.text separator a) (k.text separator b) with
    | .eq => inOrder separator rest a b
    | o => o

/-- The keys of a sorting: those that have no letters of their own are compared as all. -/
def allKeys (s : Sorting) : List Key :=
  let blank : Manner := {}
  let bare : Manner := { s.manner with reversed := false }
  if s.keys.isEmpty then
    if bare == blank then [] else [{ manner := s.manner }]
  else s.keys.map fun k => if k.manner == blank then { k with manner := s.manner } else k

/-- How two lines are ordered. -/
def order (s : Sorting) (keys : List Key) (a b : String) : Ordering :=
  let last : Ordering :=
    let o := compare a b
    if s.manner.reversed then o.swap else o
  if keys.isEmpty then last
  else match inOrder s.separator keys a b with
    | .eq => if s.unique || s.stable then .eq else last
    | o => o

/-- Lines without those that are equal to the one before. -/
def distinct (same : String → String → Bool) : List String → List String
  | a :: b :: rest =>
    if same a b then distinct same (a :: rest) else a :: distinct same (b :: rest)
  | ls => ls
termination_by ls => ls.length

/-- Lines in order. -/
def sorted (s : Sorting) (lines : List String) : List String :=
  let keys := s.allKeys
  let sorted := lines.mergeSort fun a b => s.order keys a b != .gt
  if s.unique then distinct (fun a b => s.order keys a b == .eq) sorted else sorted

end Sorting

/-! ## Reading keys -/

/-- The number in front of a text. -/
def leadingNat (cs : List Char) : Option Nat × List Char :=
  let ds := cs.takeWhile Char.isDigit
  (nat? (String.ofList ds), cs.drop ds.length)

/-- The letters of a key. -/
def keyLetters (start stop : Bool) : Manner → List Char → Option (Manner × List Char)
  | m, [] => some (m, [])
  | m, ',' :: rest => some (m, ',' :: rest)
  | m, c :: rest => (m.add c start stop).bind fun m => keyLetters start stop m rest

/-- The key that a text spells. -/
def readKey (text : String) : Tool Key := do
  let wrong {α : Type} (what : String) : Tool α :=
    fail 2 s!"{what}: invalid field specification {quoted text}"
  let place (cs : List Char) (wrongNumber : String) : Tool (Nat × Option Nat × List Char) := do
    match leadingNat cs with
    | (none, _) => fail 2 s!"{wrongNumber}: invalid count at start of {quoted (String.ofList cs)}"
    | (some 0, _) => wrong "field number is zero"
    | (some n, '.' :: rest) => match leadingNat rest with
      | (some c, rest) => return (n - 1, some c, rest)
      | (none, _) =>
        fail 2 s!"invalid number after '.': invalid count at start of {quoted (String.ofList rest)}"
    | (some n, rest) => return (n - 1, none, rest)
  let (field, char, rest) ← place text.toList "invalid number at field start"
  if char = some 0 then wrong "character offset is zero"
  match keyLetters true false {} rest with
  | none => wrong "stray character in field spec"
  | some (m, []) => return { start := ⟨field, (char.getD 1) - 1⟩, manner := m }
  | some (m, _ :: rest) =>
    let (last, lastChar, rest) ← place rest "invalid number after ','"
    match keyLetters false true m rest with
    | some (m, []) =>
      return { start := ⟨field, (char.getD 1) - 1⟩, stop := some ⟨last, lastChar.getD 0⟩
               manner := m }
    | _ => wrong "stray character in field spec"

/-- Sorts the lines of files. -/
def sort (args : List String) : Tool Nat := do
  let (given, paths) ← options
    [⟨'b', "ignore-leading-blanks", .never⟩, ⟨'d', "dictionary-order", .never⟩,
      ⟨'f', "ignore-case", .never⟩, ⟨'g', "general-numeric-sort", .never⟩,
      ⟨'h', "human-numeric-sort", .never⟩, ⟨'i', "ignore-nonprinting", .never⟩,
      ⟨'M', "month-sort", .never⟩, ⟨'R', "random-sort", .never⟩, ⟨'n', "numeric-sort", .never⟩,
      ⟨'r', "reverse", .never⟩,
      ⟨'V', "version-sort", .never⟩, ⟨'u', "unique", .never⟩, ⟨'s', "stable", .never⟩,
      ⟨'c', "check", .perhaps⟩, ⟨'C', "", .never⟩, ⟨'m', "merge", .never⟩,
      ⟨'k', "key", .always⟩, ⟨'t', "field-separator", .always⟩, ⟨'o', "output", .always⟩,
      ⟨'S', "buffer-size", .always⟩, ⟨'T', "temporary-directory", .always⟩,
      ⟨'z', "zero-terminated", .never⟩] args 2
  let separator ← (match given.value? 't' with
    | none => pure none
    | some "\\0" => pure (some '\x00')
    | some s => match s.toList with
      | [c] => pure (some c)
      | [] => fail 2 "empty tab"
      | _ => fail 2 s!"multi-character tab {quoted s}")
  let keys ← (given.filter fun e => e.1 == 'k').mapM fun e => readKey e.2
  let manner := given.foldl (fun m e => (Manner.add m e.1 true true).getD m) {}
  let s : Sorting :=
    { keys := keys, manner := manner, separator := separator
      unique := given.has 'u', stable := given.has 's' }
  let mut lines := []
  for path in if paths.isEmpty then ["-"] else paths do
    match ← input path with
    | .ok text =>
      lines := lines ++ (if given.has 'z' then (text.splitOn "\x00").filter (!·.isEmpty)
        else linesOf text)
    | .error .isDirectory => fail 2 s!"read failed: {path}: {OsError.isDirectory.text}"
    | .error e => fail 2 s!"cannot read: {path}: {e.text}"
  if given.has 'c' || given.has 'C' then
    let keys := s.allKeys
    let wrong := (lines.zip (lines.drop 1)).findIdx? fun e =>
      match s.order keys e.1 e.2 with
      | .gt => true
      | .eq => s.unique
      | .lt => false
    match wrong with
    | none => return 0
    | some i =>
      if given.has 'c' then
        let path := paths.headD "-"
        let line := lines.getD (i + 1) ""
        complain s!"{path}:{i + 2}: disorder: {line}"
      return 1
  let sorted := s.sorted lines
  let text := if given.has 'z' then String.join (sorted.map (· ++ "\x00")) else ofLines sorted
  match given.value? 'o' with
  | none =>
    put text
    return 0
  | some path =>
    match (← get).store path (.write false) text with
    | .ok p =>
      set p
      return 0
    | .error e => fail 2 s!"open failed: {path}: {e.text}"

/-! ## Repeated lines -/

/-- Runs of equal lines, with how many there are. -/
def runsOf (same : String → String → Bool) : List String → List (List String)
  | [] => []
  | l :: rest =>
    match runsOf same rest with
    | (m :: run) :: more => if same l m then (l :: m :: run) :: more else [l] :: (m :: run) :: more
    | _ => [[l]]

/-- Leaves out lines that are equal to the line before. -/
def uniq (args : List String) : Tool Nat := do
  let (given, operands) ← options
    [⟨'c', "count", .never⟩, ⟨'d', "repeated", .never⟩, ⟨'D', "", .never⟩,
      ⟨'u', "unique", .never⟩, ⟨'i', "ignore-case", .never⟩, ⟨'f', "skip-fields", .always⟩,
      ⟨'s', "skip-chars", .always⟩, ⟨'w', "check-chars", .always⟩,
      ⟨'z', "zero-terminated", .never⟩] args
  let number (letter : Char) : Option Nat := (given.value? letter).bind nat?
  let compared (l : String) : List Char :=
    let cs := pastFields none ((number 'f').getD 0) l.toList
    let cs := cs.drop ((number 's').getD 0)
    let cs := (number 'w').elim cs cs.take
    if given.has 'i' then cs.map Char.toLower else cs
  let path := operands.headD "-"
  match operands.drop 2 with
  | extra :: _ => refuse 1 s!"extra operand {quoted extra}"
  | [] => pure ()
  match ← input path with
  | .error .isDirectory => fail 1 s!"error reading {quoted path}"
  | .error e => fail 1 s!"{path}: {e.text}"
  | .ok text =>
    let groups := runsOf (fun a b => compared a == compared b) (linesOf text)
    let chosen := groups.filter fun g =>
      if given.has 'd' || given.has 'D' then 1 < g.length
      else if given.has 'u' then g.length == 1 else true
    let shown := chosen.flatMap fun g =>
      let first := g.headD ""
      if given.has 'D' then g
      else if given.has 'c' then [padLeft 7 (toString g.length) ++ " " ++ first] else [first]
    match operands with
    | [_, target] =>
      if target == "-" then put (ofLines shown)
      else match (← get).store target (.write false) (ofLines shown) with
        | .ok p => set p
        | .error e => fail 1 s!"{target}: {e.text}"
    | _ => put (ofLines shown)
    return 0

/-- Two sorted lists of lines side by side: what only one has, and what both have. -/
def compareLines : List String → List String → List (Nat × String)
  | [], ys => ys.map (2, ·)
  | xs, [] => xs.map (1, ·)
  | x :: xs, y :: ys =>
    if x == y then (3, x) :: compareLines xs ys
    else if x < y then (1, x) :: compareLines xs (y :: ys)
    else (2, y) :: compareLines (x :: xs) ys
termination_by xs ys => xs.length + ys.length

/-- Compares two sorted files line by line. -/
def comm (args : List String) : Tool Nat := do
  let (given, paths) ← options [⟨'1', "", .never⟩, ⟨'2', "", .never⟩, ⟨'3', "", .never⟩] args
  match paths with
  | [a, b] =>
    let text (path : String) : Tool (List String) := do
      match ← input path with
      | .ok t => return linesOf t
      | .error e => fail 1 s!"{path}: {e.text}"
    let xs ← text a
    let ys ← text b
    let hidden (n : Nat) : Bool := given.has (Char.ofNat (48 + n))
    let tabs (n : Nat) : String :=
      String.join (((List.range n).filter fun i => 0 < i && !hidden i).map fun _ => "\t")
    let shown := ((compareLines xs ys).filter fun e => !hidden e.1).map fun e => tabs e.1 ++ e.2
    put (ofLines shown)
    return 0
  | [] => refuse 1 "missing operand"
  | [a] => refuse 1 s!"missing operand after {quoted a}"
  | _ :: _ :: c :: _ => refuse 1 s!"extra operand {quoted c}"

end Provision.Tool
