import Provision.Script.Argument
import Provision.Script.Arithmetic

/-!
# Reading lines

The commands that take lines from a descriptor and put them into variables.
-/

namespace Provision.Script.Step

/-! ## Reading -/

/-- The next line, as characters with flags that say whether they may separate fields, how many
characters it has, and whether it is ended. -/
def lineFrom (raw : Bool) (ending : Char) : Nat → List Char → List (Char × Bool) × Nat × Bool
  | 0, _ | _, [] => ([], 0, false)
  | fuel + 1, c :: rest =>
    if c == ending then ([], 1, true)
    else if c == '\\' && !raw then
      match rest with
      | [] => ([], 1, false)
      | d :: rest =>
        let (line, n, ended) := lineFrom raw ending fuel rest
        (if d == '\n' then line else (d, false) :: line, n + 2, ended)
    else
      let (line, n, ended) := lineFrom raw ending fuel rest
      (if c == '\x00' then line else (c, true) :: line, n + 1, ended)

/-- Whether a character with a flag is a blank that separates fields. -/
def isBlank (separators : List Char) (x : Char × Bool) : Bool :=
  x.2 && separators.contains x.1 && (x.1 == ' ' || x.1 == '\t' || x.1 == '\n')

/-- Whether a character with a flag separates fields. -/
def isSeparator (separators : List Char) (x : Char × Bool) : Bool :=
  x.2 && separators.contains x.1

/-- The fields of a line, at most as many as are wanted; the last one takes what is left. -/
def split (separators : List Char) : Nat → List (Char × Bool) → List String
  | 0, _ => []
  | 1, line =>
    let line := line.dropWhile (isBlank separators)
    let trimmed := (line.reverse.dropWhile (isBlank separators)).reverse
    let field := line.takeWhile fun x => !isSeparator separators x
    let after := (line.drop field.length).dropWhile (isBlank separators)
    let after := match after with
      | x :: rest => if isSeparator separators x then rest else x :: rest
      | [] => []
    let shown := if after.all (isBlank separators) then field else trimmed
    [String.ofList (shown.map Prod.fst)]
  | wanted + 2, line =>
    let line := line.dropWhile (isBlank separators)
    let field := line.takeWhile fun x => !isSeparator separators x
    let after := (line.drop field.length).dropWhile (isBlank separators)
    let after := match after with
      | x :: rest =>
        if isSeparator separators x && !isBlank separators x then
          rest.dropWhile (isBlank separators)
        else x :: rest
      | [] => []
    String.ofList (field.map Prod.fst) :: split separators (wanted + 1) after

/-- Reads a line into variables. -/
def read (args : List String) : Step Unit := do
  let s ← get
  let rich := s.isRich
  let (given, names) ← optionsOf (if rich then "rp:d:n:N:t:u:a:si:e" else "p:r")
    ("read [-ers] [-a array] [-d delim] [-i text] [-n nchars] [-N nchars] [-p prompt] " ++
      "[-t timeout] [-u fd] [name ...]") args
  let value? (c : Char) : Option String := (given.reverse.find? fun e => e.1 == c).map Prod.snd
  if names.isEmpty && !rich then failWith 2 "arg count" ""
  match names.find? fun n => !isName (String.ofList (n.toList.takeWhile (· != '['))) with
  | some n => failWith 1 s!"{n}: bad variable name" s!"read: \x60{n}': not a valid identifier"
  | none => pure ()
  let source := ((value? 'u').bind Tool.nat?).getD 0
  match s.available source with
  | .error e =>
    if rich then complain "" s!"read: read error: {source}: {e.text}"
    for name in names do assign name ""
    setStatus 1
  | .ok text =>
    let raw := (value? 'r').isSome
    let ending := match value? 'd' with
      | some d => d.toList.headD '\x00'
      | none => '\n'
    let most := ((value? 'n').orElse fun _ => value? 'N').bind Tool.nat?
    let cs := text.toList
    let cs := most.elim cs cs.take
    let (line, count, ended) := lineFrom raw ending (cs.length + 1) cs
    set { s with toProcess := s.advance source count }
    let ended := ended || most.any (· ≤ count)
    let separators := s.separators
    match value? 'a', names with
    | some name, _ =>
      let marks := line.map fun (c, free) => if free then Atom.loose c else .solid c
      let fields := (fieldsOf separators marks).map Glob.Marked.text
      modify fun s => s.setVariable name (some { (s.bindings.get? name).getD {} with
        value := some (.items (fields.zipIdx.map fun e => (e.2, e.1))) })
    | none, [] => assign "REPLY" (String.ofList (line.map Prod.fst))
    | none, names =>
      let found := if (value? 'N').isSome then [String.ofList (line.map Prod.fst)]
        else split separators names.length line
      for (name, field) in names.zip (found ++ List.replicate names.length "") do
        let base := String.ofList (name.toList.takeWhile (· != '['))
        if base == name then assign name field
        else
          let index := String.ofList ((name.toList.drop (base.length + 1)).dropLast)
          match Arithmetic.evaluate (← get) index with
          | .ok (i, s) => set (Arithmetic.withElement s base (.inr i) field)
          | .error _ => pure ()
    setStatus (if ended then 0 else 1)

/-- Reads lines into the elements of a variable. -/
def readLines (args : List String) : Step Unit := do
  let (given, names) ← optionsOf "td:n:s:u:O:c:C:" "" args
  let s ← get
  match s.toProcess.drain 0 with
  | .error _ => setStatus 1
  | .ok (text, p) =>
    set { s with toProcess := p }
    let bare := given.any fun e => e.1 == 't'
    let lines := Tool.linesOf text
    let closed := lines.zipIdx.map fun (l, i) =>
      if bare || (Tool.endsOpen text && i + 1 == lines.length) then (i, l) else (i, l ++ "\n")
    modify fun s => s.setVariable (names.headD "MAPFILE") (some { value := some (.items closed) })
    setStatus 0

/-- Goes on to the next option among the parameters. -/
def getopts (args : List String) : Step Unit := do
  let s ← get
  match args with
  | letters :: name :: given =>
    if !isName name then
      failWith 1 s!"{name}: bad variable name" s!"getopts: \x60{name}': not a valid identifier"
    let words := if given.isEmpty then s.parameters else given
    let next := max 1 (((s.text? "OPTIND").bind Tool.nat?).getD 1)
    let offset := if next == s.optionWord then s.letter else 0
    let index := if offset != 0 && !s.isRich then next - 1 else next
    let silent := letters.startsWith ":"
    let finish (result : String) (value : Option String) (index offset : Nat) (status : Nat) :
        Step Unit := do
      modify fun s => match value with
        | some v => s.put "OPTARG" v
        | none => s.setVariable "OPTARG" none
      modify fun s => { s.put "OPTIND" (toString index) with optionWord := index, letter := offset }
      assign name result
      setStatus status
    let word := (words[index - 1]?).getD ""
    let cs := word.toList
    if offset == 0 && (!word.startsWith "-" || word == "-" || word == "") then
      modify fun s => { s.put "OPTIND" (toString index) with optionWord := index, letter := 0 }
      assign name "?"
      setStatus 1
    else if offset == 0 && word == "--" then
      modify fun s => { s.put "OPTIND" (toString (index + 1)) with
        optionWord := index + 1, letter := 0 }
      assign name "?"
      setStatus 1
    else
      let at_ := max 1 offset
      let c := cs.getD at_ '?'
      let isLast := at_ + 1 == cs.length
      let (nextIndex, nextOffset) := if isLast then (index + 1, 0)
        else if s.isRich then (index, at_ + 1) else (index + 1, at_ + 1)
      let known := letters.toList
      let after := known.dropWhile (· != c)
      if c == ':' || after.isEmpty then
        if !silent then
          modify fun s => s.warn (if s.isRich then s!"{s.name}: illegal option -- {c}\n"
            else s!"Illegal option -{c}\n")
        finish "?" (if silent then some (String.singleton c) else none) nextIndex nextOffset 0
      else if after[1]? == some ':' then
        let inner := String.ofList (cs.drop (at_ + 1))
        if !isLast then finish (String.singleton c) (some inner) (index + 1) 0 0
        else match words[index]? with
          | some v => finish (String.singleton c) (some v) (index + 2) 0 0
          | none =>
            if !silent then
              modify fun s => s.warn (if s.isRich
                then s!"{s.name}: option requires an argument -- {c}\n"
                else s!"No arg for -{c} option\n")
            finish (if silent then ":" else "?")
              (if silent then some (String.singleton c) else none)
              (index + 1) 0 0
      else finish (String.singleton c) (if s.isRich then none else some "") nextIndex nextOffset 0
  | _ =>
    if s.isRich then
      modify fun s => s.warn "getopts: usage: getopts optstring name [arg ...]\n"
      setStatus 2
    else failWith 2 "Usage: getopts optstring var [arg...]" ""

end Provision.Script.Step
