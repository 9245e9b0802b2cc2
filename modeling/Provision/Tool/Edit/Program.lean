import Provision.Regex.Read

/-!
# Programs of the stream editor

An editing program is a list of commands, each for some lines of the input.

> `Command.readAll`: the program that some parts spell, or what is wrong with it and where.
-/

namespace Provision.Edit

/-- An expression in a program; none is the one that was used last. -/
structure Search where
  expression : Option Regex
  ignoresCase : Bool := false
  hasLines : Bool := false

/-- A line of the input. -/
inductive Address
  | line (n : Nat)
  | last
  /-- From a line on, in steps. -/
  | every (first step : Nat)
  | found (s : Search)

/-- Where a range of lines ends. -/
inductive Ending
  | address (a : Address)
  /-- After some more lines. -/
  | more (n : Nat)
  /-- At a line whose number is a multiple. -/
  | multiple (n : Nat)

/-- The lines for which a command is meant. -/
inductive Scope
  | all
  | one (a : Address)
  | range (a : Address) (stop : Ending)

/-- How letters are written from somewhere in a replacement on. -/
inductive Casing
  | upper | lower | upperOnce | lowerOnce | same
deriving DecidableEq

/-- A part of a replacement. -/
inductive Part
  | text (s : String)
  | group (n : Nat)
  | casing (c : Casing)

/-- A substitution. -/
structure Substitution where
  search : Search
  replacement : List Part
  /-- Which match is replaced first, and whether those after it are replaced, too. -/
  first : Option Nat := none
  all : Bool := false
  prints : Bool := false
  file : Option String := none

/-- What a command does. -/
inductive Action
  | substitute (s : Substitution)
  | exchangeChars (table : List (Char × Char))
  | delete | deleteLine | print | printLine | next | addNext
  | quit (status : Nat) (prints : Bool)
  | append (text : String) | insert (text : String) | change (text : String)
  | hold | addToHold | fetch | addHeld | exchange
  | number
  /-- Shows the line unambiguously, in lines of a length. -/
  | list (length : Option Nat)
  /-- Prints the name of the file, or empties the line. -/
  | name | empty
  | label (name : String)
  /-- A jump to a label or to the end: always, or after a substitution, or after none. -/
  | jump (label : String) (after : Option Bool)
  | read (path : String) | write (path : String)
  /-- The next line of a file is added, or the first line is written to it. -/
  | readLine (path : String) | writeLine (path : String)
  /-- The commands up to the end of a block. -/
  | enter | leave
  | nothing

/-- A command. -/
structure Command where
  scope : Scope := .all
  negated : Bool := false
  action : Action

/-- The characters that are left of a program, and how many have been read. -/
structure Reading where
  rest : List Char
  place : Nat := 0
  extended : Bool := false
  /-- Whether what is wrong concerns the whole program. -/
  isWhole : Bool := false

/-- A reader, which fails with a message. -/
abbrev Reader := ExceptT String (StateM Reading)

namespace Reader

/-- The next character, which is taken away. -/
def take? : Reader (Option Char) := do
  let s ← get
  match s.rest with
  | c :: rest =>
    set { s with rest := rest, place := s.place + 1 }
    return some c
  | [] => return none

/-- The next character, which stays. -/
def peek? : Reader (Option Char) := return (← get).rest.head?

/-- The characters with a property that come next. -/
def many (p : Char → Bool) : Reader (List Char) := do
  let s ← get
  let cs := s.rest.takeWhile p
  set { s with rest := s.rest.drop cs.length, place := s.place + cs.length }
  return cs

/-- Goes past blanks. -/
def blanks : Reader Unit := discard (many fun c => c == ' ' || c == '\t')

/-- Goes past white space and semicolons. -/
def gaps : Reader Unit := discard (many fun c => c.isWhitespace || c == ';')

/-- A number in digits. -/
def number : Reader Nat := do
  return (← many Char.isDigit).foldl (fun n c => 10 * n + (c.toNat - 48)) 0

/-- Where one is in a set in brackets: at no class, after the bracket of one, in one with a mark,
or after the second mark. -/
inductive SetPlace
  | outside | opened | inside (mark : Char) | closing (mark : Char)

/-- The characters of a set up to its closing bracket, and what comes after it. -/
def setUpToEnd : SetPlace → List Char → Option (List Char × List Char)
  | _, [] => none
  | place, c :: rest =>
    let on (p : SetPlace) : Option (List Char × List Char) :=
      (setUpToEnd p rest).map fun (cs, after) => (c :: cs, after)
    if c == '\n' then none
    else match place with
      | .outside =>
        if c == ']' then some ([c], rest) else on (if c == '[' then .opened else .outside)
      | .opened =>
        if c == ']' then some ([c], rest)
        else on (if c == '.' || c == ':' || c == '=' then .inside c
          else if c == '[' then .opened else .outside)
      | .inside mark => on (if c == mark then .closing mark else .inside mark)
      | .closing mark => on (if c == ']' then .outside else .inside mark)

/-- A set after its opening bracket, and what comes after it. -/
def set? : List Char → Option (List Char × List Char)
  | '^' :: ']' :: rest => (setUpToEnd .outside rest).map fun (cs, r) => ('^' :: ']' :: cs, r)
  | ']' :: rest => (setUpToEnd .outside rest).map fun (cs, r) => (']' :: cs, r)
  | rest => setUpToEnd .outside rest

/-- The characters of a set, some of which may be spelled. -/
def spelled : List Char → List Char
  | '\\' :: c :: rest =>
    match c with
    | 'n' => '\n' :: spelled rest
    | 't' => '\t' :: spelled rest
    | 'f' => '\x0c' :: spelled rest
    | 'v' => '\x0b' :: spelled rest
    | 'a' => '\x07' :: spelled rest
    | c => '\\' :: c :: spelled rest
  | c :: rest => c :: spelled rest
  | [] => []

/-- The characters up to a delimiter, which loses its backslash. In an expression a line break may
be spelled, and a delimiter in brackets means itself. -/
def upTo (delimiter : Char) (isExpression : Bool) : Nat → Reader (Option (List Char))
  | 0 => return none
  | fuel + 1 => do
    if (← peek?) == some '\n' then return none
    match ← take? with
    | none => return none
    | some c =>
      if c == delimiter then return some []
      else if c == '\\' then
        match ← take? with
        | none => return none
        | some d =>
          let more ← upTo delimiter isExpression fuel
          return more.map fun cs =>
            if d == 'n' && isExpression then '\n' :: cs
            else if d == '\n' || (d == delimiter && (isExpression || d != '&')) then d :: cs
            else '\\' :: d :: cs
      else if c == '[' && isExpression then
        let s ← get
        match set? s.rest with
        | none =>
          discard (many (· != '\n'))
          return none
        | some (cs, rest) =>
          set { s with rest := rest, place := s.place + cs.length }
          return (← upTo delimiter isExpression fuel).map (c :: spelled cs ++ ·)
      else return (← upTo delimiter isExpression fuel).map (c :: ·)

/-- The expression that a text spells. -/
def compile (text : List Char) : Reader (Option Regex) := do
  if text.isEmpty then return none
  match Regex.read (← get).extended (String.ofList text) with
  | .ok r => return some r
  | .error e => throw e.message

/-- The flags after the expression of an address. -/
def searchFlags : Nat → Search → Reader Search
  | 0, s => return s
  | fuel + 1, s => do
    match ← peek? with
    | some 'I' => discard take?; searchFlags fuel { s with ignoresCase := true }
    | some 'M' => discard take?; searchFlags fuel { s with hasLines := true }
    | _ => return s

/-- An address, if there is one. -/
def address? : Reader (Option Address) := do
  let search (delimiter : Char) : Reader (Option Address) := do
    match ← upTo delimiter true ((← get).rest.length + 1) with
    | none => throw "unterminated address regex"
    | some text =>
      let r ← compile text
      return some (.found (← searchFlags 4 { expression := r }))
  match ← peek? with
  | some '$' =>
    discard take?
    return some .last
  | some '/' =>
    discard take?
    search '/'
  | some '+' | some '~' =>
    discard take?
    discard number
    throw "invalid usage of +N or ~N as first address"
  | some '\\' =>
    discard take?
    match ← take? with
    | some d => search d
    | none => throw "unexpected \x60,'"
  | some c =>
    if c.isDigit then
      let n ← number
      blanks
      if (← peek?) == some '~' then
        discard take?
        return some (.every n (← number))
      return some (.line n)
    else return none
  | none => return none

/-- Where a range ends. -/
def ending : Reader Ending := do
  match ← peek? with
  | some '+' => discard take?; return .more (← number)
  | some '~' => discard take?; return .multiple (← number)
  | _ =>
    match ← address? with
    | some a => return .address a
    | none =>
      discard take?
      throw "unexpected \x60,'"

/-- Whether an address is the line in front of the first one, as which no range may begin unless it
ends at an expression. -/
def Address.isBeforeAll : Address → Bool
  | .line n => n == 0
  | .every first step => first == 0 && step == 0
  | _ => false

/-- The lines for which a command is meant. -/
def scope : Reader Scope := do
  match ← address? with
  | none => return .all
  | some a =>
    blanks
    let stop? ← (do
      if (← peek?) == some ',' then
        discard take?
        blanks
        let stop ← ending
        blanks
        return some stop
      return none)
    let endsAtExpression := match stop? with
      | some (.address (.found _)) => true
      | _ => false
    if Address.isBeforeAll a && !endsAtExpression then
      discard take?
      throw "invalid usage of line address 0"
    return match stop? with
      | some stop => .range a stop
      | none => .one a

/-- The parts of a replacement. -/
def parts : List Char → List Part
  | [] => []
  | '\\' :: c :: rest =>
    if c.isDigit then .group (c.toNat - 48) :: parts rest
    else match c with
      | 'n' => .text "\n" :: parts rest
      | 't' => .text "\t" :: parts rest
      | 'r' => .text "\x0d" :: parts rest
      | 'a' => .text "\x07" :: parts rest
      | 'f' => .text "\x0c" :: parts rest
      | 'v' => .text "\x0b" :: parts rest
      | 'U' => .casing .upper :: parts rest
      | 'L' => .casing .lower :: parts rest
      | 'u' => .casing .upperOnce :: parts rest
      | 'l' => .casing .lowerOnce :: parts rest
      | 'E' => .casing .same :: parts rest
      | c => .text (String.singleton c) :: parts rest
  | '&' :: rest => .group 0 :: parts rest
  | c :: rest => .text (String.singleton c) :: parts rest

/-- A text up to the end of the line. -/
def restOfLine : Reader String := do
  blanks
  let cs ← many (· != '\n')
  discard take?
  return String.ofList cs

/-- The flags of a substitution and the end of the command. -/
def substitutionFlags : Nat → Substitution → Reader Substitution
  | 0, s => return s
  | fuel + 1, s => do
    blanks
    match ← peek? with
    | none | some '\x7d' | some '#' => return s
    | some c =>
      if c.isDigit then
        if s.first.isSome then
          discard take?
          throw "multiple number options to \x60s' command"
        let n ← number
        if n = 0 then throw "number option to \x60s' command may not be zero"
        return ← substitutionFlags fuel { s with first := some n }
      discard take?
      match c with
      | '\n' | ';' => return s
      | 'g' =>
        if s.all then throw "multiple \x60g' options to \x60s' command"
        substitutionFlags fuel { s with all := true }
      | 'p' =>
        if s.prints then throw "multiple \x60p' options to \x60s' command"
        substitutionFlags fuel { s with prints := true }
      | 'i' | 'I' =>
        substitutionFlags fuel { s with search := { s.search with ignoresCase := true } }
      | 'm' | 'M' =>
        substitutionFlags fuel { s with search := { s.search with hasLines := true } }
      | 'w' =>
        let path ← restOfLine
        if path.isEmpty then throw "missing filename in r/R/w/W commands"
        return { s with file := some path }
      | _ => throw "unknown option to \x60s'"

/-- The groups of an expression. -/
def groupCount : Regex → Nat
  | .group n r => max n (groupCount r)
  | .sequence a b | .choice a b => max (groupCount a) (groupCount b)
  | .repeated _ _ r => groupCount r
  | _ => 0

/-- A substitution after its letter. -/
def substitution : Reader Action := do
  match ← take? with
  | none => throw "unterminated \x60s' command"
  | some d =>
    let fuel := (← get).rest.length + 1
    let some text ← upTo d true fuel | throw "unterminated \x60s' command"
    let some new ← upTo d false fuel | throw "unterminated \x60s' command"
    let s ← substitutionFlags (fuel + 1)
      { search := { expression := none }, replacement := parts new }
    let r ← compile text
    let highest := s.replacement.foldl (fun n p => match p with
      | .group k => max n k
      | _ => n) 0
    if r.any fun r => groupCount r < highest then
      throw s!"invalid reference \\{highest} on \x60s' command's RHS"
    return .substitute { s with search := { s.search with expression := r } }

/-- The characters of an exchange, escapes being spelled with backslashes. -/
def exchanged : List Char → List Char
  | '\\' :: 'n' :: rest => '\n' :: exchanged rest
  | '\\' :: c :: rest => c :: exchanged rest
  | c :: rest => c :: exchanged rest
  | [] => []

/-- An exchange of characters after its letter. -/
def exchange : Reader Action := do
  match ← take? with
  | none => throw "unterminated \x60y' command"
  | some d =>
    let fuel := (← get).rest.length + 1
    let some a ← upTo d false fuel | throw "unterminated \x60y' command"
    let some b ← upTo d false fuel | throw "unterminated \x60y' command"
    let (a, b) := (exchanged a, exchanged b)
    if a.length != b.length then throw "strings for \x60y' command are different lengths"
    return .exchangeChars (a.zip b)

/-- The lines of a text; a backslash in front of a line break continues it. -/
def textLines : List Char → List Char × List Char
  | '\\' :: c :: rest =>
    let (a, b) := textLines rest
    (c :: a, b)
  | '\n' :: rest => ([], rest)
  | c :: rest =>
    let (a, b) := textLines rest
    (c :: a, b)
  | [] => ([], [])

/-- The text after a command that adds lines. -/
def addedText : Reader String := do
  blanks
  match (← get).rest with
  | [] => throw "expected \\ after \x60a', \x60c' or \x60i'"
  | '\\' :: rest =>
    let after := rest.dropWhile fun c => c == ' ' || c == '\t'
    match after with
    | '\n' :: body => modify fun s => { s with rest := body }
    | _ => modify fun s => { s with rest := rest }
  | _ => pure ()
  let s ← get
  let (text, rest) := textLines s.rest
  set { s with rest := rest, place := s.place + s.rest.length - rest.length }
  return String.ofList text ++ "\n"

/-- The name of a label. -/
def labelName : Reader String := do
  blanks
  return String.ofList (← many fun c => !c.isWhitespace && c != ';' && c != '\x7d')

/-- A command after its scope. -/
def action : Reader Action := do
  let path : Reader String := do
    let p ← restOfLine
    if p.isEmpty then throw "missing filename in r/R/w/W commands"
    return p
  let status : Reader Nat := do
    blanks
    number
  match ← take? with
  | none => throw "missing command"
  | some c => match c with
    | 's' => substitution
    | 'y' => exchange
    | 'd' => return .delete
    | 'D' => return .deleteLine
    | 'p' => return .print
    | 'P' => return .printLine
    | 'n' => return .next
    | 'N' => return .addNext
    | 'q' => return .quit (← status) true
    | 'Q' => return .quit (← status) false
    | 'a' => return .append (← addedText)
    | 'i' => return .insert (← addedText)
    | 'c' => return .change (← addedText)
    | 'h' => return .hold
    | 'H' => return .addToHold
    | 'g' => return .fetch
    | 'G' => return .addHeld
    | 'x' => return .exchange
    | '=' => return .number
    | 'F' => return .name
    | 'z' => return .empty
    | 'l' =>
      blanks
      let ds ← many Char.isDigit
      return .list (if ds.isEmpty then none
        else some (ds.foldl (fun n c => 10 * n + (c.toNat - 48)) 0))
    | ':' =>
      let name ← labelName
      if name.isEmpty then throw "\":\" lacks a label"
      return .label name
    | 'b' => return .jump (← labelName) none
    | 't' => return .jump (← labelName) (some true)
    | 'T' => return .jump (← labelName) (some false)
    | 'r' => return .read (← path)
    | 'w' => return .write (← path)
    | 'R' => return .readLine (← path)
    | 'W' => return .writeLine (← path)
    | '\x7b' => return .enter
    | '\x7d' => return .leave
    | '#' =>
      discard (many (· != '\n'))
      return .nothing
    | c =>
      let shown := String.singleton c
      throw s!"unknown command: \x60{shown}'"

/-- What has to follow a command: the end of the line, a semicolon or the end of a block. -/
def commandEnd (a : Action) : Reader Unit := do
  match a with
  | .enter | .nothing | .append _ | .insert _ | .change _ | .read _ | .write _ | .readLine _
  | .writeLine _ | .substitute _ => return
  | _ =>
    blanks
    match ← peek? with
    | none | some '\n' | some ';' | some '\x7d' | some '#' => return
    | some _ =>
      discard take?
      throw "extra characters after command"

/-- Commands up to the end of the program; `blocks` are the places of the blocks that are open, the
last one first. -/
def commands : Nat → List Nat → Reader (List Command)
  | 0, _ => return []
  | fuel + 1, blocks => do
    gaps
    if (← peek?).isNone then
      match blocks with
      | start :: _ =>
        modify fun s => { s with place := start, isWhole := true }
        throw "unmatched \x60\x7b'"
      | [] => return []
    let lines ← scope
    blanks
    let negated := (← peek?) == some '!'
    if negated then
      discard take?
      blanks
      if (← peek?) == some '!' then
        discard take?
        throw "multiple \x60!'s"
    let a ← action
    let limited := match lines with
      | .all => false
      | _ => true
    match a with
    | .leave =>
      if limited then throw "\x7d doesn't want any addresses"
      if blocks.isEmpty then throw "unexpected \x60\x7d'"
    | .label _ => if limited then throw ": doesn't want any addresses"
    | .nothing => if limited then throw "comments don't accept any addresses"
    | .quit .. =>
      match lines with
      | .range .. => throw "command only uses one address"
      | _ => pure ()
    | _ => pure ()
    commandEnd a
    let here := (← get).place
    let blocks := match a with
      | .enter => here :: blocks
      | .leave => blocks.drop 1
      | _ => blocks
    return ⟨lines, negated, a⟩ :: (← commands fuel blocks)

end Reader

/-- A part of a program, and the file that it is from, if it is from one. -/
structure Source where
  text : String
  file : Option String := none

/-- The words for a place in a program, which is counted in the text of its parts with line breaks
between them; `isWhole` says that no place in a line is meant. -/
def Source.placeText (place : Nat) (isWhole : Bool) : Nat → List Source → String
  | number, [] => s!"-e expression #{number}, char {place}"
  | number, s :: rest =>
    let next := match s.file with
      | some _ => number
      | none => number + 1
    if s.text.length < place && !rest.isEmpty then
      placeText (place - s.text.length - 1) isWhole next rest
    else match s.file with
      | some name =>
        let line := ((s.text.toList.take (place - 1)).filter (· == '\n')).length + 1
        s!"file {name} line {line}"
      | none => s!"-e expression #{number}, char {if isWhole then 0 else place}"

/-- The program that some parts spell, or where it is wrong, and how. -/
def Command.readAll (extended : Bool) (sources : List Source) : Except String (Array Command) :=
  let cs := ("\n".intercalate (sources.map Source.text)).toList
  let (result, s) := ExceptT.run (Reader.commands (cs.length + 1) [])
    { rest := cs, extended := extended }
  match result with
  | .ok commands => .ok commands.toArray
  | .error message => .error s!"{Source.placeText s.place s.isWhole 1 sources}: {message}"

end Provision.Edit
