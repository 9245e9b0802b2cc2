import Provision.Tool
import Provision.Tool.Edit.Program

/-!
# The stream editor

The program that carries out an editing program for each line of its input.
-/

namespace Provision.Edit

open Regex (Subject Match)

/-! ## Replacing -/

/-- A text with its letters written in a way. -/
def cased (c : Casing) (s : String) : String :=
  match c with
  | .upper => s.toUpper
  | .lower => s.toLower
  | _ => s

/-- A text whose first letter is written in a way. -/
def casedOnce (c : Casing) (s : String) : String :=
  match s.toList, c with
  | a :: rest, .upperOnce => String.ofList (a.toUpper :: rest)
  | a :: rest, .lowerOnce => String.ofList (a.toLower :: rest)
  | _, _ => s

/-- The text of a replacement; `once` is how the next letter is written, and `casing` how all
letters are. -/
def replacementText (t : Subject) (m : Match) : Casing → Casing → List Part → String
  | _, _, [] => ""
  | casing, once, p :: rest =>
    let shown (s : String) : String :=
      if s.isEmpty then replacementText t m casing once rest
      else casedOnce once (cased casing s) ++ replacementText t m casing .same rest
    match p with
    | .text s => shown s
    | .group n => shown ((m.part t n).getD "")
    | .casing .upperOnce => replacementText t m casing .upperOnce rest
    | .casing .lowerOnce => replacementText t m casing .lowerOnce rest
    | .casing c => replacementText t m c .same rest

/-- A text with some matches replaced, if there are such matches. -/
def substituted (s : Substitution) (r : Regex) (text : String) : Option String :=
  let t : Subject :=
    { chars := text.toList.toArray, ignoresCase := s.search.ignoresCase
      hasLines := s.search.hasLines }
  let wanted := s.first.getD 1
  let rec go : Nat → Nat → Option Nat → Nat → Option String
    | 0, i, _, _ => some (String.ofList (t.chars.toList.drop i))
    | fuel + 1, i, previous, count =>
      let rest : String := String.ofList (t.chars.toList.drop i)
      match r.find? t i with
      | none => if count < wanted then none else some rest
      | some m =>
        let before := String.ofList (t.chars.extract i m.start).toList
        let here := String.ofList (t.chars.extract m.start (m.start + 1)).toList
        if m.start == m.stop && previous == some m.start then
          if m.start < t.chars.size then
            (go fuel (m.start + 1) none count).map (before ++ here ++ ·)
          else if count < wanted then none else some rest
        else
          let count := count + 1
          let replaces := count == wanted || (wanted < count && s.all)
          let new := if replaces then replacementText t m .same .same s.replacement
            else String.ofList (t.chars.extract m.start m.stop).toList
          if wanted ≤ count && !s.all then
            some (before ++ new ++ String.ofList (t.chars.toList.drop m.stop))
          else if m.start == m.stop then
            if m.start < t.chars.size then
              (go fuel (m.start + 1) none count).map (before ++ new ++ here ++ ·)
            else if count < wanted then none else some (before ++ new)
          else (go fuel m.stop (some m.stop) count).map (before ++ new ++ ·)
  go (2 * t.chars.size + 2) 0 none 0

/-! ## Running -/

/-- A line of the input, whether a line break ends it, and the file that it is from. -/
structure Line where
  text : String
  whole : Bool := true
  file : String := "-"

/-- The state of an editing program. -/
structure State where
  program : Array Command
  /-- Whether lines are printed only if a command says so. -/
  silent : Bool := false
  rest : List Line
  number : Nat := 0
  pattern : Line := { text := "" }
  hold : String := ""
  output : String := ""
  /-- Whether the last line of the output still lacks its line break. -/
  owed : Bool := false
  /-- What is added after the present line. -/
  added : List Action := []
  replaced : Bool := false
  /-- The ranges that have begun, by the commands that they belong to: the line where each one
  ends, if that is known. -/
  begun : List (Nat × Option Nat) := []
  last : Option Regex := none
  /-- How many lines have been read of files from which lines are added one by one. -/
  taken : List (String × Nat) := []
  /-- What is written to other files. -/
  written : List (String × String) := []
  status : Nat := 0
  /-- Whether a command has ended the program. -/
  ended : Bool := false
  /-- How long the lines are in which a line is shown unambiguously. -/
  shownLength : Nat := 70

/-- How the commands for a line have ended. -/
inductive Course
  /-- The line is done. -/
  | done
  /-- The line is done and not printed. -/
  | dropped
  /-- The commands begin again with what is left of the line. -/
  | again
  /-- The program ends, after the line is printed or not. -/
  | quit (prints : Bool)

/-- A step of an editing program. -/
abbrev Step := StateM State

namespace Step

/-- Writes to the output. -/
def emit (text : String) : Step Unit := modify fun s =>
  { s with output := (if s.owed then s.output ++ "\n" else s.output) ++ text, owed := false }

/-- Writes a line to the output. -/
def emitLine (l : Line) : Step Unit := do
  if l.whole then emit (l.text ++ "\n")
  else
    emit l.text
    modify fun s => { s with owed := true }

/-- Puts another text into the pattern space. -/
def setText (text : String) : Step Unit :=
  modify fun s => { s with pattern := { s.pattern with text := text } }

/-- The expression of a search, which is remembered. -/
def expressionOf (r : Option Regex) : Step Regex := do
  match r with
  | some r =>
    modify fun s => { s with last := some r }
    return r
  | none => return ((← get).last).getD .nothing

/-- Whether an address is that of the present line. -/
def isAt (a : Address) : Step Bool := do
  let s ← get
  match a with
  | .line n => return n == s.number
  | .last => return s.rest.isEmpty
  | .every first step =>
    return if step = 0 then s.number == first
      else first ≤ s.number && (s.number - first) % step == 0
  | .found q =>
    let r ← expressionOf q.expression
    let t : Subject :=
      { chars := s.pattern.text.toList.toArray, ignoresCase := q.ignoresCase
        hasLines := q.hasLines }
    return (r.find? t 0).isSome

/-- Forgets a range, or remembers it with its end. -/
def setRange (i : Nat) (stop : Option (Option Nat)) : Step Unit := modify fun s =>
  { s with begun := (stop.toList.map (i, ·)) ++ s.begun.filter fun e => e.1 != i }

/-- Whether a command is meant for the present line; `i` is its place in the program. The second
answer tells whether the range ends here. -/
def concerns (i : Nat) (scope : Scope) : Step (Bool × Bool) := do
  let s ← get
  match scope with
  | .all => return (true, true)
  | .one a => return (← isAt a, true)
  | .range a stop =>
    match s.begun.find? fun e => e.1 == i with
    | some (_, some n) =>
      if n ≤ s.number then setRange i none
      return (s.number ≤ n, n ≤ s.number)
    | some (_, none) =>
      match stop with
      | .address b =>
        let ends ← isAt b
        if ends then setRange i none
        return (true, ends)
      | _ => return (true, true)
    | none =>
      let isZero := match a with
        | .line 0 => s.number == 1
        | _ => false
      if isZero then
        match stop with
        | .address b =>
          let ends ← isAt b
          if !ends then setRange i (some none)
          return (true, ends)
        | _ => return (true, true)
      if ← isAt a then
        let stopLine : Option Nat := match stop with
          | .address (.line n) => some n
          | .more n => some (s.number + n)
          | .multiple n => some (if n = 0 then s.number else (s.number + n - 1) / n * n)
          | _ => none
        match stopLine, stop with
        | some n, _ =>
          if s.number < n then
            setRange i (some (some n))
            return (true, false)
          return (true, true)
        | none, .address .last =>
          if !s.rest.isEmpty then setRange i (some none)
          return (true, s.rest.isEmpty)
        | none, _ =>
          setRange i (some none)
          return (true, false)
      else return (false, false)

/-- The place after a label. -/
def target (program : Array Command) (label : String) : Nat :=
  if label.isEmpty then program.size
  else match program.toList.findIdx? fun c => match c.action with
      | .label name => name == label
      | _ => false with
    | some i => i + 1
    | none => program.size

/-- The place after the end of a block. -/
def blockEnd (program : Array Command) : Nat → Nat → Nat → Nat
  | 0, i, _ => i
  | fuel + 1, i, depth =>
    match (program[i]?).map Command.action with
    | none => i
    | some .enter => blockEnd program fuel (i + 1) (depth + 1)
    | some .leave => if depth = 0 then i + 1 else blockEnd program fuel (i + 1) (depth - 1)
    | some _ => blockEnd program fuel (i + 1) depth

/-- A character as it is shown unambiguously. -/
def shownChar (c : Char) : String :=
  match c with
  | '\\' => "\\\\"
  | '\x07' => "\\a"
  | '\x08' => "\\b"
  | '\x0c' => "\\f"
  | '\n' => "\\n"
  | '\x0d' => "\\r"
  | '\t' => "\\t"
  | '\x0b' => "\\v"
  | c =>
    if 32 ≤ c.toNat && c.toNat < 127 then String.singleton c
    else
      let ds := Nat.toDigits 8 c.toNat
      "\\" ++ String.ofList (List.replicate (3 - ds.length) '0' ++ ds)

/-- A line as it is shown unambiguously, in lines of at most a length. -/
def shownLine (most : Nat) (text : String) : String :=
  let (done, line) := text.toList.foldl (fun (done, line) c =>
    let c := shownChar c
    if most - 1 < line.length + c.length && most != 0 then (done ++ line ++ "\\\n", c)
    else (done, line ++ c)) ("", "")
  done ++ line ++ "$\n"

/-- Writes what is added after a line. -/
def flush (read : String → Option String) : Step Unit := do
  let s ← get
  for a in s.added do
    match a with
    | .append text => emit text
    | .read path =>
      match read path with
      | some text => if !text.isEmpty then
          emit text
          if !text.endsWith "\n" then modify fun s => { s with owed := true }
      | none => pure ()
    | .readLine path =>
      let n := ((s.taken.find? fun e => e.1 == path).map Prod.snd).getD 0
      modify fun s => { s with taken := (path, n + 1) :: s.taken.filter fun e => e.1 != path }
      match ((read path).map (·.splitOn "\n")).bind fun ls =>
          (if ls.getLast? == some "" then ls.dropLast else ls)[n]? with
      | some line => emit (line ++ "\n")
      | none => pure ()
    | _ => pure ()
  modify fun s => { s with added := [] }

/-- Writes a line to a file, which may be one of the outputs. -/
def writeTo (path : String) (text : String) : Step Unit := do
  if path == "/dev/stdout" then emit (text ++ "\n")
  else modify fun s => { s with written := s.written ++ [(path, text ++ "\n")] }

/-- Takes the next line of the input. -/
def takeLine : Step (Option Line) := do
  let s ← get
  match s.rest with
  | [] => return none
  | l :: rest =>
    set { s with rest := rest, number := s.number + 1 }
    return some l

/-- Runs the commands from a place on. -/
def run (read : String → Option String) : Nat → Nat → Step Course
  | 0, _ => return .done
  | fuel + 1, i => do
    let s ← get
    match s.program[i]? with
    | none => return .done
    | some c =>
      let (inScope, ends) ← concerns i c.scope
      let s ← get
      let onward := run read fuel (i + 1)
      if inScope == c.negated then
        match c.action with
        | .enter => run read fuel (blockEnd s.program s.program.size (i + 1) 0)
        | _ => onward
      else
        let text := s.pattern.text
        match c.action with
        | .substitute sub =>
          let r ← expressionOf sub.search.expression
          match substituted sub r text with
          | none => onward
          | some new =>
            setText new
            modify fun s => { s with replaced := true }
            if sub.prints then emitLine { s.pattern with text := new }
            match sub.file with
            | some path => writeTo path new
            | none => pure ()
            onward
        | .exchangeChars table =>
          setText (String.ofList (text.toList.map fun c =>
            ((table.find? fun e => e.1 == c).map Prod.snd).getD c))
          onward
        | .delete => return .dropped
        | .deleteLine =>
          if text.contains '\n' then
            setText (String.ofList ((text.toList.dropWhile (· != '\n')).drop 1))
            return .again
          return .dropped
        | .print =>
          emitLine s.pattern
          onward
        | .printLine =>
          emit (String.ofList (text.toList.takeWhile (· != '\n')) ++ "\n")
          onward
        | .next =>
          if s.rest.isEmpty then return .quit true
          if !s.silent then emitLine s.pattern
          flush read
          match ← takeLine with
          | some l => modify fun s => { s with pattern := l }
          | none => pure ()
          onward
        | .addNext =>
          if s.rest.isEmpty then return .quit true
          flush read
          match ← takeLine with
          | some l =>
            modify fun s => { s with pattern := { l with text := text ++ "\n" ++ l.text } }
          | none => pure ()
          onward
        | .quit status prints =>
          modify fun s => { s with status := status }
          return .quit prints
        | .append t =>
          modify fun s => { s with added := s.added ++ [.append t] }
          onward
        | .read _ | .readLine _ =>
          modify fun s => { s with added := s.added ++ [c.action] }
          onward
        | .insert t =>
          emit t
          onward
        | .change t =>
          let isRange := match c.scope with
            | .range .. => !c.negated
            | _ => false
          if !isRange || ends then emit t
          return .dropped
        | .hold =>
          modify fun s => { s with hold := text }
          onward
        | .addToHold =>
          modify fun s => { s with hold := s.hold ++ "\n" ++ text }
          onward
        | .fetch =>
          setText s.hold
          onward
        | .addHeld =>
          setText (text ++ "\n" ++ s.hold)
          onward
        | .exchange =>
          setText s.hold
          modify fun s => { s with hold := text }
          onward
        | .number =>
          emit (toString s.number ++ "\n")
          onward
        | .name =>
          emit (s.pattern.file ++ "\n")
          onward
        | .empty =>
          setText ""
          onward
        | .list length =>
          emit (shownLine (length.getD s.shownLength) text)
          onward
        | .jump label after =>
          let jumps := match after with
            | none => true
            | some wanted => s.replaced == wanted
          if after.isSome then modify fun s => { s with replaced := false }
          if jumps then run read fuel (target s.program label) else onward
        | .write path =>
          writeTo path text
          onward
        | .writeLine path =>
          writeTo path (String.ofList (text.toList.takeWhile (· != '\n')))
          onward
        | .label _ | .enter | .leave | .nothing => onward

/-- Ends the commands for a line. -/
def finish (read : String → Option String) (prints : Bool) : Step Unit := do
  let s ← get
  if prints && !s.silent then emitLine s.pattern
  flush read

/-- Runs the program for the lines of the input. -/
def cycles (read : String → Option String) : Nat → Bool → Step Unit
  | 0, _ => return
  | fuel + 1, fresh => do
    if fresh then
      match ← takeLine with
      | none => return
      | some l => modify fun s => { s with pattern := l, replaced := false }
    match ← run read 100000 0 with
    | .done =>
      finish read true
      cycles read fuel true
    | .dropped =>
      finish read false
      cycles read fuel true
    | .again =>
      finish read false
      cycles read fuel false
    | .quit prints =>
      finish read prints
      modify fun s => { s with rest := [], ended := true }

end Step

end Provision.Edit

namespace Provision.Tool

open Edit (State Line)

/-- The lines of a text, as a stream editor takes them. -/
def editLines (file text : String) : List Line :=
  let ls := linesOf text
  let whole (l : String) : Line := { text := l, file := file }
  if endsOpen text then
    ls.dropLast.map whole ++ ls.getLast?.toList.map fun l => { whole l with whole := false }
  else ls.map whole

/-- How the stream editor is called. -/
def sedUsage : String :=
  ofLines ["Usage: sed [OPTION]... \x7bscript-only-if-no-other-script\x7d [input-file]..."]

/-- Goes on with an editing program for some lines; the files that it reads are those of now. -/
def edited (s : State) (lines : List Line) : Tool State := do
  let p ← get
  let read (path : String) : Option String := (p.contents path).toOption
  return (StateT.run (Edit.Step.cycles read (100 * lines.length + 100) true)
    { s with rest := lines }).2

/-- The state in which an editing program begins with another file. -/
def renewed (s : State) : State :=
  { s with number := 0, hold := "", begun := [], taken := [] }

/-- Writes what an editing program has written to other files. -/
def writeAll (s : State) : Tool Unit := do
  let always := s.program.toList.filterMap fun c => match c.action with
    | .write path | .writeLine path | .substitute { file := some path, .. } => some path
    | _ => none
  for path in always.eraseDups do
    let text := String.join ((s.written.filter fun e => e.1 == path).map Prod.snd)
    if path == "/dev/stderr" then warn text
    else if path != "/dev/stdout" then
      match (← get).store path (.write false) text with
      | .ok p => set p
      | .error e => fail 4 s!"couldn't open file {path}: {e.text}"

/-- Edits files in their places. -/
def editInPlace (start : State) (suffix : String) (paths : List String) : Tool Nat := do
  let mut status := 0
  let mut s := start
  for path in paths do
    if s.ended then continue
    match (← get).entry path with
    | .error e =>
      complain s!"can't read {path}: {e.text}"
      status := 2
    | .ok e =>
      match e.body with
      | .file bytes =>
        let old := Text.Octets.ofBytes bytes
        s ← edited { renewed s with output := "", owed := false } (editLines path old)
        if !suffix.isEmpty then
          let copy := if suffix.contains '*' then suffix.replace "*" path else path ++ suffix
          match (← get).store copy (.write false) old with
          | .ok p => set p
          | .error e => fail 4 s!"cannot rename {path}: {e.text}"
        match (← get).locate path with
        | .ok place =>
          modify fun p => { p with
            files := p.files.put place { e with body := .file (Text.Octets.toBytes s.output) } }
        | .error _ => pure ()
        if s.status ≠ 0 then status := s.status
      | _ =>
        complain s!"couldn't edit {path}: not a regular file"
        status := 4
  writeAll s
  return status

/-- Edits the lines of files. -/
def sed (args : List String) : Tool Nat := do
  let (given, operands) ← options
    [⟨'n', "quiet", .never⟩, ⟨'n', "silent", .never⟩, ⟨'e', "expression", .always⟩,
      ⟨'f', "file", .always⟩, ⟨'E', "regexp-extended", .never⟩, ⟨'r', "", .never⟩,
      ⟨'i', "in-place", .perhaps⟩, ⟨'s', "separate", .never⟩, ⟨'u', "unbuffered", .never⟩,
      ⟨'z', "null-data", .never⟩, ⟨'z', "zero-terminated", .never⟩,
      ⟨'l', "line-length", .always⟩, ⟨'b', "binary", .never⟩, ⟨'p', "posix", .never⟩,
      ⟨'\x01', "follow-symlinks", .never⟩, ⟨'\x02', "sandbox", .never⟩] args 1 true sedUsage
  let mut sources : List Edit.Source := []
  for (letter, v) in given do
    if letter == 'e' then sources := sources ++ [{ text := v }]
    else if letter == 'f' then
      match ← input v with
      | .ok text =>
        let text := if text.endsWith "\n" then String.ofList text.toList.dropLast else text
        sources := sources ++ [{ text := text, file := some v }]
      | .error e => fail 4 s!"couldn't open file {v}: {e.text}"
  let separate := given.has 'e' || given.has 'f'
  if !separate then
    match operands with
    | t :: _ => sources := [{ text := t }]
    | [] =>
      warn sedUsage
      throw 1
  let paths := if separate then operands else operands.drop 1
  let program ← (do
    match Edit.Command.readAll (given.has 'E' || given.has 'r') sources with
    | .ok program => return program
    | .error message => fail 1 message)
  let labels := program.toList.filterMap fun c => match c.action with
    | .label name => some name
    | _ => none
  for c in program do
    match c.action with
    | .jump label _ =>
      if !label.isEmpty && !labels.contains label then
        fail 4 s!"can't find label for jump to \x60{label}'"
    | _ => pure ()
  let text := (sources.head?.map Edit.Source.text).getD ""
  let start : State :=
    { program := program, rest := []
      silent := given.has 'n' || text.startsWith "#n\n" || text == "#n"
      shownLength := ((given.value? 'l').bind nat?).getD 70 }
  if given.has 'i' then
    if paths.isEmpty then fail 4 "no input files"
    editInPlace start ((given.value? 'i').getD "") paths
  else
    let mut status := 0
    let mut parts : List (List Line) := []
    for path in if paths.isEmpty then ["-"] else paths do
      match ← input path with
      | .ok text => parts := parts ++ [editLines path text]
      | .error .isDirectory =>
        if path == "-" then complain s!"couldn't read stdin: {OsError.isDirectory.text}"
        else complain s!"read error on {path}: {OsError.isDirectory.text}"
        status := 4
      | .error e =>
        complain s!"can't read {path}: {e.text}"
        status := 2
    let mut s := start
    if given.has 's' then
      for lines in parts do
        if !s.ended then
          s ← edited (renewed s) lines
    else
      let lines := parts.flatten
      s ← edited s
        (lines.dropLast.map (fun l => { l with whole := true }) ++ lines.getLast?.toList)
    writeAll s
    put s.output
    return if s.status ≠ 0 then s.status else status

end Provision.Tool
