import Provision.Tool.List
import Provision.Glob

/-!
# Finding files

The program that walks through trees and asks each entry some questions. What it does with those
that answer is part of the questions.
-/

namespace Provision.Tool

/-! ## Questions -/

/-- How a number is compared: it is more, or less, or the same. -/
inductive Measure
  | more (n : Nat) | less (n : Nat) | same (n : Nat)

/-- Whether a number is as it should be. -/
def Measure.holds (m : Measure) (k : Nat) : Bool :=
  match m with
  | more n => n < k
  | less n => k < n
  | same n => k == n

/-- What is asked of an entry, or done with it. -/
inductive Query
  | always | never
  | name (g : Glob) (folds whole : Bool)
  | expression (r : Regex) (folds : Bool)
  | kind (letters : List Char)
  | empty
  | size (m : Measure) (unit : Nat)
  | permissions (sign : Char) (bits : Nat)
  | newer (time : Int)
  | age (m : Measure) (unit : Nat)
  | executable
  | owned (known : Bool)
  | prune | quit | delete
  | print (ending : String)
  | printf (format : String)
  | exec (words : List String) (inDirectory : Bool)
  | execMany (number : Nat) (words : List String)
  | negated (q : Query)
  | both (a b : Query)
  | either (a b : Query)
  | after (a b : Query)

/-- Whether a question does something, so that entries need not be printed besides. -/
def Query.usesAction : Query → Bool
  | delete | print _ | printf _ | exec .. | execMany .. | quit => true
  | negated q => q.usesAction
  | both a b | either a b | after a b => a.usesAction || b.usesAction
  | _ => false

/-- What holds for a whole walk. -/
structure WalkOptions where
  least : Nat := 0
  most : Nat := 1000
  /-- What is in a directory comes before it. -/
  depthFirst : Bool := false
  follows : Bool := false

/-- The arguments that are left, and what holds for the whole walk. -/
structure QueryReading where
  rest : List String
  options : WalkOptions := {}
  /-- How many times entries are gathered for a command. -/
  gathered : Nat := 0

/-- A reader of questions. -/
abbrev QueryReader := StateT QueryReading Tool

/-- The number that an argument compares with. -/
def measure? (s : String) : Option Measure :=
  match s.toList with
  | '+' :: ds => (nat? (String.ofList ds)).map .more
  | '-' :: ds => (nat? (String.ofList ds)).map .less
  | ds => (nat? (String.ofList ds)).map .same

/-- The next argument, which belongs to an option. -/
def queryArgument (option : String) : QueryReader String := do
  let s ← get
  match s.rest with
  | a :: rest =>
    set { s with rest := rest }
    return a
  | [] => (fail 1 s!"missing argument to \x60{option}'" : Tool String)

/-- The words of a command up to its end, and whether entries are gathered for it. -/
def commandWords : List String → Option (List String × Bool × List String)
  | ";" :: rest => some ([], false, rest)
  | "\x7b\x7d" :: "+" :: rest => some ([], true, rest)
  | a :: rest => (commandWords rest).map fun (words, many, rest) => (a :: words, many, rest)
  | [] => none

/-- A single question after its name. -/
def readQuery (op : String) : QueryReader Query := do
  let bad {α : Type} (text : String) : QueryReader α := do
    (fail 1 text : Tool α)
  let argument := queryArgument op
  let measured : QueryReader Measure := do
    let a ← argument
    match measure? a with
    | some m => return m
    | none => bad s!"invalid argument \x60{a}' to \x60{op}'"
  let settings (f : WalkOptions → WalkOptions) : QueryReader Query := do
    modify fun s => { s with options := f s.options }
    return .always
  let number : QueryReader Nat := do
    let a ← argument
    match nat? a with
    | some n => return n
    | none => bad s!"Expected a positive decimal integer argument to {op}, but got {quoted a}"
  match op with
  | "-name" => return .name (Glob.ofText (← argument)) false false
  | "-iname" => return .name (Glob.ofText ((← argument).toLower)) true false
  | "-path" | "-wholename" => return .name (Glob.ofText (← argument)) false true
  | "-ipath" | "-iwholename" => return .name (Glob.ofText ((← argument).toLower)) true true
  | "-regex" | "-iregex" =>
    match Regex.read false (← argument) with
    | .ok r => return .expression r (op == "-iregex")
    | .error e => bad e.message
  | "-type" | "-xtype" =>
    let a ← argument
    let letters := (a.toList).filter (· != ',')
    match letters.find? fun c => !("fdlcbpsD".contains c) with
    | some c =>
      let shown := String.singleton c
      bad s!"Unknown argument to -type: {shown}"
    | none => return .kind letters
  | "-empty" => return .empty
  | "-size" =>
    let a ← argument
    let (digits, unit) := match a.toList.getLast? with
      | some 'c' => (String.ofList a.toList.dropLast, 1)
      | some 'w' => (String.ofList a.toList.dropLast, 2)
      | some 'b' => (String.ofList a.toList.dropLast, 512)
      | some 'k' => (String.ofList a.toList.dropLast, 1024)
      | some 'M' => (String.ofList a.toList.dropLast, 1048576)
      | some 'G' => (String.ofList a.toList.dropLast, 1073741824)
      | _ => (a, 512)
    match measure? digits with
    | some m => return .size m unit
    | none => bad s!"invalid argument \x60{a}' to \x60-size'"
  | "-perm" =>
    let a ← argument
    let (sign, mode) := match a.toList with
      | '-' :: cs => ('-', String.ofList cs)
      | '/' :: cs => ('/', String.ofList cs)
      | cs => ('=', String.ofList cs)
    match Mode.reader? 0 mode with
    | some f => return .permissions sign (f false 0)
    | none => bad s!"invalid mode {quoted a}"
  | "-newer" =>
    let a ← argument
    match (← (getThe Process : Tool Process)).entry a with
    | .ok e => return .newer e.time
    | .error e => bad s!"{quoted a}: {e.text}"
  | "-mtime" | "-atime" | "-ctime" => return .age (← measured) 86400
  | "-mmin" | "-amin" | "-cmin" => return .age (← measured) 60
  | "-executable" => return .executable
  | "-readable" | "-writable" | "-true" => return .always
  | "-false" => return .never
  | "-user" | "-group" | "-uid" | "-gid" =>
    let a ← argument
    return .owned (a == "root" || a == "0")
  | "-maxdepth" =>
    let n ← number
    settings fun o => { o with most := n }
  | "-mindepth" =>
    let n ← number
    settings fun o => { o with least := n }
  | "-depth" | "-d" => settings fun o => { o with depthFirst := true }
  | "-mount" | "-xdev" | "-noleaf" | "-daystart" => return .always
  | "-follow" => settings fun o => { o with follows := true }
  | "-prune" => return .prune
  | "-quit" => return .quit
  | "-delete" =>
    modify fun s => { s with options := { s.options with depthFirst := true } }
    return .delete
  | "-print" => return .print "\n"
  | "-print0" => return .print "\x00"
  | "-printf" => return .printf (← argument)
  | "-exec" | "-execdir" | "-ok" =>
    let s ← get
    match commandWords s.rest with
    | some (words, many, rest) =>
      if words.isEmpty then bad s!"missing argument to \x60{op}'"
      set { s with rest := rest, gathered := s.gathered + 1 }
      return if many then .execMany s.gathered words else .exec words (op == "-execdir")
    | none => bad s!"missing argument to \x60{op}'"
  | op => bad s!"unknown predicate \x60{op}'"

mutual

/-- Questions up to a closing parenthesis or the end, the last of which tells. -/
def queries : Nat → QueryReader Query
  | 0 => return .always
  | fuel + 1 => do
    let a ← alternatives fuel
    match (← get).rest with
    | "," :: rest =>
      modify fun s => { s with rest := rest }
      return .after a (← queries fuel)
    | _ => return a

/-- Alternatives. -/
def alternatives : Nat → QueryReader Query
  | 0 => return .always
  | fuel + 1 => do
    let a ← combinations fuel
    match (← get).rest with
    | "-o" :: rest | "-or" :: rest =>
      modify fun s => { s with rest := rest }
      return .either a (← alternatives fuel)
    | _ => return a

/-- Combinations, with or without a word between them. -/
def combinations : Nat → QueryReader Query
  | 0 => return .always
  | fuel + 1 => do
    let a ← single fuel
    match (← get).rest with
    | [] | ")" :: _ | "-o" :: _ | "-or" :: _ | "," :: _ => return a
    | "-a" :: rest | "-and" :: rest =>
      modify fun s => { s with rest := rest }
      return .both a (← combinations fuel)
    | _ => return .both a (← combinations fuel)

/-- A single question. -/
def single : Nat → QueryReader Query
  | 0 => return .always
  | fuel + 1 => do
    let s ← get
    match s.rest with
    | [] => return .always
    | op :: rest =>
      set { s with rest := rest }
      match op with
      | "!" | "-not" => return .negated (← single fuel)
      | "(" =>
        let q ← queries fuel
        match (← get).rest with
        | ")" :: rest =>
          modify fun s => { s with rest := rest }
          return q
        | _ =>
          (fail 1 ("invalid expression; expected to find a ')' but didn't see one. " ++
            "Perhaps you need an extra predicate after '('") : Tool Query)
      | op =>
        if op.startsWith "-" then readQuery op
        else (fail 1 s!"paths must precede expression: \x60{op}'" : Tool Query)

end

/-! ## Walking -/

/-- An entry on the way: its path, its place, and how far below a root it is. -/
structure Visit where
  path : String
  place : Place
  entry : FileEntry
  depth : Nat
  root : String

/-- What has happened on the way. -/
structure WalkState where
  pruned : Bool := false
  stopped : Bool := false
  status : Nat := 0
  /-- The entries that have been gathered for commands. -/
  gathered : List (Nat × List String × String) := []

/-- A step of a walk. -/
abbrev Walk := StateT WalkState Tool

/-- What a directive for an entry stands for. -/
def visitField (v : Visit) (f : Files) (c : Char) : String :=
  match c with
  | 'p' => v.path
  | 'f' => nameOf v.path
  | 'h' => let dir := parentOf v.path; dir
  | 'P' => String.ofList (v.path.toList.drop (v.root.length + 1))
  | 'H' => v.root
  | 'd' => toString v.depth
  | 's' => toString (sizeOf v.entry)
  | 'm' => Mode.octal v.entry.mode
  | 'M' => String.singleton (kindLetter v.entry) ++ Mode.letters v.entry.mode
  | 'y' => match v.entry.body with
    | .file _ => "f"
    | .directory => "d"
    | .link _ => "l"
    | .device => "c"
  | 'l' => match v.entry.body with
    | .link t => t
    | _ => ""
  | 'u' | 'g' => "root"
  | 'U' | 'G' => "0"
  | 'n' => toString (linkCount f v.place v.entry)
  | '%' => "%"
  | c => "%" ++ String.singleton c

/-- A format for an entry. -/
def visitText (v : Visit) (f : Files) : List Char → String
  | '%' :: c :: rest => visitField v f c ++ visitText v f rest
  | '\\' :: c :: rest =>
    (match c with
      | 'n' => "\n"
      | 't' => "\t"
      | '0' => "\x00"
      | '\\' => "\\"
      | c => String.ofList ['\\', c]) ++ visitText v f rest
  | c :: rest => String.singleton c ++ visitText v f rest
  | [] => ""

/-- Asks a question of an entry. -/
def Query.ask (launch : Launch) (v : Visit) : Query → Walk Bool
  | always => return true
  | never => return false
  | name g folds whole =>
    let text := if whole then v.path else nameOf v.path
    return Glob.isMatch g (if folds then text.toLower else text).toList
  | expression r folds =>
    let t := Regex.Subject.ofString v.path folds
    return (r.follow t ⟨0, []⟩).any fun p => p.place == t.chars.size
  | kind letters => return letters.contains (match v.entry.body with
      | .file _ => 'f'
      | .directory => 'd'
      | .link _ => 'l'
      | .device => 'c')
  | empty => do
    let p ← (get : Tool Process)
    return match v.entry.body with
      | .file bytes => bytes.isEmpty
      | .directory => (p.files.listing v.place).isEmpty
      | _ => false
  | size m unit => return m.holds ((sizeOf v.entry + unit - 1) / unit)
  | permissions sign bits =>
    let mode := v.entry.mode
    return if sign == '-' then mode &&& bits == bits
      else if sign == '/' then bits == 0 || mode &&& bits != 0
      else mode == bits
  | newer time => return time < v.entry.time
  | age m unit => do
    let p ← (get : Tool Process)
    return m.holds (((p.files.now - v.entry.time).fdiv second).toNat / unit)
  | executable => return v.entry.isExecutable
  | owned known => return known
  | prune => do
    modify fun s => { s with pruned := true }
    return true
  | quit => do
    modify fun s => { s with stopped := true }
    return true
  | delete => do
    let p ← (get : Tool Process)
    if v.entry.isDirectory && !(p.files.listing v.place).isEmpty then
      complain s!"cannot delete {quoted v.path}: {OsError.notEmpty.text}"
      modify fun s => { s with status := 1 }
      return false
    (modify fun p => { p with files := p.files.erase v.place } : Tool Unit)
    return true
  | print ending => do
    put (v.path ++ ending)
    return true
  | printf format => do
    let p ← (get : Tool Process)
    put (visitText v p.files format.toList)
    return true
  | exec words inDirectory => do
    let path := if inDirectory then "./" ++ nameOf v.path else v.path
    let p ← (get : Tool Process)
    if inDirectory then
      (modify fun p => { p with here := v.place.dropLast } : Tool Unit)
    let result ← (launch (words.map (·.replace "\x7b\x7d" path)) : Tool (Except OsError Nat))
    (modify fun q => { q with here := p.here } : Tool Unit)
    match result with
    | .ok status => return status == 0
    | .error e =>
      complain s!"{quoted (words.headD path)}: {e.text}"
      return false
  | execMany n words => do
    modify fun s => { s with gathered := s.gathered ++ [(n, words, v.path)] }
    return true
  | negated q => do return !(← q.ask launch v)
  | both a b => do if ← a.ask launch v then b.ask launch v else return false
  | either a b => do if ← a.ask launch v then return true else b.ask launch v
  | after a b => do
    discard (a.ask launch v)
    b.ask launch v

/-- Walks through an entry and all below it. -/
def walkTree (launch : Launch) (o : WalkOptions) (q : Query) :
    Nat → Visit → Walk Unit
  | 0, _ => return
  | fuel + 1, v => do
    if (← get).stopped then return
    let visit : Walk Unit := do
      if o.least ≤ v.depth then discard (q.ask launch v)
    let inside : Walk Unit := do
      if v.entry.isDirectory && v.depth < o.most then
        let p ← (get : Tool Process)
        for (name, e) in p.files.listing v.place do
          walkTree launch o q fuel
            ⟨below v.path name, v.place ++ [name], e, v.depth + 1, v.root⟩
    if o.depthFirst then
      inside
      visit
    else
      modify fun s => { s with pruned := false }
      visit
      if !(← get).pruned then inside
      modify fun s => { s with pruned := false }

/-- Walks through trees. -/
def find (launch : Launch) (args : List String) : Tool Nat := do
  let follows := args.head? == some "-L"
  let args := if ["-L", "-H", "-P"].contains (args.headD "") then args.drop 1 else args
  let isRoot (a : String) : Bool := !(a.startsWith "-" && 1 < a.length) && a != "!" && a != "("
  let roots := args.takeWhile isRoot
  let rest := args.drop roots.length
  let (q, reading) ← (do
    if rest.isEmpty then return (Query.always, ({ rest := [] } : QueryReading))
    (queries (8 * rest.length + 8)).run { rest := rest })
  match reading.rest with
  | ")" :: _ => fail 1 "invalid expression; you have too many ')'"
  | _ => pure ()
  let q := if q.usesAction then q else .both q (.print "\n")
  let o := { reading.options with follows := reading.options.follows || follows }
  let mut status := 0
  let mut state : WalkState := {}
  for root in if roots.isEmpty then ["."] else roots do
    let p ← get
    let located := do
      let place ← if o.follows then p.locate root else p.locateLink root
      return (place, ← p.files.entryAt place)
    match located with
    | .error e =>
      complain s!"{quoted root}: {e.text}"
      status := 1
    | .ok (place, e) =>
      let ((), s) ← (walkTree launch o q 200 ⟨root, place, e, 0, root⟩).run state
      state := s
  for n in (state.gathered.map Prod.fst).eraseDups do
    let mine := state.gathered.filter fun e => e.1 == n
    let words := (mine.head?.map fun e => e.2.1).getD []
    match ← launch (words ++ mine.map fun e => e.2.2) with
    | .ok code => if code ≠ 0 then status := 1
    | .error e =>
      let name := words.headD ""
      complain s!"{quoted name}: {e.text}"
      status := 1
  return max status state.status

end Provision.Tool
