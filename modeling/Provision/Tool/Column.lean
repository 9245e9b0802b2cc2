import Provision.Tool
import Provision.Regex.Read

/-!
# Columns and characters

Programs that take parts of lines, put lines side by side, and change single characters.
-/

namespace Provision.Tool

/-! ## Parts of lines -/

/-- A range of places, counted from one; without an end it goes on. -/
abbrev PlaceRange := Nat × Option Nat

/-- Whether one of some ranges holds a place. -/
def isChosen (ranges : List PlaceRange) (n : Nat) : Bool :=
  ranges.any fun r => r.1 ≤ n && r.2.all (n ≤ ·)

/-- The ranges that a list spells. -/
def placeRanges (fields : Bool) (text : String) : Tool (List PlaceRange) := do
  let what := if fields then "fields are" else "byte/character positions are"
  let kind := if fields then "field" else "byte/character"
  let parts := (text.replace " " ",").splitOn ","
  parts.mapM fun part => do
    let number (s : String) : Tool Nat := do
      match nat? s with
      | some 0 => refuse 1 s!"{what} numbered from 1"
      | some n => return n
      | none =>
        let valued := if fields then "field value" else "byte or character position"
        refuse 1 s!"invalid {valued} {quoted part}"
    match part.splitOn "-" with
    | [a] =>
      if a.isEmpty then refuse 1 s!"{what} numbered from 1"
      let n ← number a
      return (n, some n)
    | ["", ""] => refuse 1 "invalid range with no endpoint: -"
    | [a, b] =>
      let first ← (if a.isEmpty then pure 1 else number a)
      if b.isEmpty then return (first, none)
      let last ← number b
      if last < first then refuse 1 "invalid decreasing range"
      return (first, some last)
    | _ => refuse 1 s!"invalid {kind} range"

/-- Prints parts of the lines of files. -/
def cut (args : List String) : Tool Nat := do
  let (given, paths) ← options
    [⟨'b', "bytes", .always⟩, ⟨'c', "characters", .always⟩, ⟨'d', "delimiter", .always⟩,
      ⟨'f', "fields", .always⟩, ⟨'n', "", .never⟩, ⟨'s', "only-delimited", .never⟩,
      ⟨'o', "output-delimiter", .always⟩, ⟨'C', "complement", .never⟩,
      ⟨'z', "zero-terminated", .never⟩] args
  let lists := given.filter fun e => ['b', 'c', 'f'].contains e.1
  let (letter, list) ← (match lists with
    | [] => refuse 1 "you must specify a list of bytes, characters, or fields"
    | [e] => pure e
    | _ => refuse 1 "only one list may be specified")
  let fields := letter == 'f'
  let delimiter ← (match given.value? 'd' with
    | none => pure '\t'
    | some s => match s.toList with
      | [] => pure '\x00'
      | [c] => pure c
      | _ => refuse 1 "the delimiter must be a single character")
  if !fields && given.has 'd' then
    refuse 1 "an input delimiter may be specified only when operating on fields"
  if !fields && given.has 's' then
    refuse 1 "suppressing non-delimited lines makes sense\n\tonly when operating on fields"
  let ranges ← placeRanges fields list
  let chosen (n : Nat) : Bool := isChosen ranges n != given.has 'C'
  let numbered {α : Type} (l : List α) : List (Nat × α) := (List.range' 1 l.length).zip l
  let part (line : String) : Option String :=
    if fields then
      let parts := line.splitOn (String.singleton delimiter)
      if parts.length ≤ 1 then if given.has 's' then none else some line
      else some (((given.value? 'o').getD (String.singleton delimiter)).intercalate
        (((numbered parts).filter fun e => chosen e.1).map Prod.snd))
    else match given.value? 'o' with
      | none => some (String.ofList (((numbered line.toList).filter fun e => chosen e.1).map
          Prod.snd))
      | some between =>
        let begins (n : Nat) : Bool := ranges.any fun r => r.1 == n
        let kept := (numbered line.toList).filter fun e => chosen e.1
        some (String.join (kept.zipIdx.map fun (e, i) =>
          let gap := 0 < i && (begins e.1 || !chosen (e.1 - 1))
          (if gap then between else "") ++ String.singleton e.2))
  let ending := if given.has 'z' then "\x00" else "\n"
  forEach (if paths.isEmpty then ["-"] else paths) fun path => do
    match ← input path with
    | .ok text =>
      let lines := if given.has 'z' then (text.splitOn "\x00").filter (!·.isEmpty) else linesOf text
      put (String.join ((lines.filterMap part).map (· ++ ending)))
      return 0
    | .error e =>
      complain s!"{path}: {e.text}"
      return 1

/-! ## Lines side by side -/

/-- The lines of several texts side by side. -/
def sideBySide (delimiters : List String) : Nat → List (List String) → List String
  | 0, _ => []
  | fuel + 1, columns =>
    if columns.all List.isEmpty then []
    else joined delimiters (columns.map fun c => c.headD "") ::
      sideBySide delimiters fuel (columns.map (List.drop 1))
where
  /-- Texts with delimiters between them, in turn. -/
  joined (delimiters : List String) (texts : List String) : String :=
    String.join (texts.zipIdx.map fun (t, i) =>
      (if i = 0 then "" else delimiters.getD ((i - 1) % delimiters.length) "") ++ t)

/-- The delimiters that a text spells. -/
def delimiterList : List Char → List String
  | '\\' :: c :: rest =>
    (match c with
      | 'n' => "\n"
      | 't' => "\t"
      | '0' => ""
      | c => String.singleton c) :: delimiterList rest
  | c :: rest => String.singleton c :: delimiterList rest
  | [] => []

/-- Prints the lines of files side by side. -/
def paste (args : List String) : Tool Nat := do
  let (given, paths) ← options [⟨'d', "delimiters", .always⟩, ⟨'s', "serial", .never⟩] args
  let delimiters := match given.value? 'd' with
    | none => ["\t"]
    | some s => if s.isEmpty then [""] else delimiterList s.toList
  let files := if paths.isEmpty then ["-"] else paths
  let mut columns := []
  for path in files do
    match ← input path with
    | .ok text => columns := columns ++ [linesOf text]
    | .error e =>
      if given.has 's' then complain s!"{path}: {e.text}" else fail 1 s!"{path}: {e.text}"
  if given.has 's' then
    put (ofLines (columns.map (sideBySide.joined delimiters)))
    return 0
  let dashes := files.filter (· == "-")
  if 1 < dashes.length then
    let shared := columns.find? fun c => !c.isEmpty
    let rows := chunks dashes.length ((shared.getD []).length + 1) (shared.getD [])
    columns := (List.range dashes.length).map fun i => rows.map fun r => r.getD i ""
  let longest := columns.foldl (fun n c => max n c.length) 0
  put (ofLines (sideBySide delimiters (longest + 1) columns))
  return 0
where
  /-- Rows of a number of lines. -/
  chunks (n : Nat) : Nat → List String → List (List String)
  | 0, _ => []
  | fuel + 1, ls => if ls.isEmpty then [] else ls.take n :: chunks n fuel (ls.drop n)

/-- Puts blanks in the place of tabs. -/
def expand (args : List String) : Tool Nat := do
  let (given, paths) ← options [⟨'t', "tabs", .always⟩, ⟨'i', "initial", .never⟩] args
  let width := max 1 (((given.value? 't').bind nat?).getD 8)
  let line (l : String) : String :=
    (l.toList.foldl (fun (out, column) c =>
      if c == '\t' then
        let n := width - column % width
        (out.pushn ' ' n, column + n)
      else (out.push c, column + 1)) ("", 0)).1
  forEach (if paths.isEmpty then ["-"] else paths) fun path => do
    match ← input path with
    | .ok text =>
      let ls := (linesOf text).map line
      put (if endsOpen text then "\n".intercalate ls else ofLines ls)
      return 0
    | .error e =>
      complain s!"{path}: {e.text}"
      return 1

/-! ## Characters -/

/-- A part of a set of characters. -/
inductive SetPart
  | chars (cs : List Char)
  /-- A class by its name. -/
  | kind (name : String)
  /-- A character several times; without a number, as often as there is room. -/
  | repeated (c : Char) (count : Option Nat)

/-- What is wrong with sets of characters. -/
inductive SetFault
  | reversed (a b : Char)
  | badClass (name : String)
  | badRepeat (count : String)

/-- The character of an escape, and what comes after it. -/
def setEscape : List Char → Char × List Char
  | 'a' :: r => ('\x07', r)
  | 'b' :: r => ('\x08', r)
  | 'f' :: r => ('\x0c', r)
  | 'n' :: r => ('\n', r)
  | 'r' :: r => ('\x0d', r)
  | 't' :: r => ('\t', r)
  | 'v' :: r => ('\x0b', r)
  | [] => ('\\', [])
  | c :: r =>
    if '0' ≤ c ∧ c ≤ '7' then
      let ds := ((c :: r).take 3).takeWhile fun d => '0' ≤ d && d ≤ '7'
      (Char.ofNat (ds.foldl (fun n d => 8 * n + (d.toNat - 48)) 0 % 256), (c :: r).drop ds.length)
    else (c, r)

/-- The characters of a class in their order. -/
def classChars? (name : String) : Option (List Char) :=
  (Regex.classRanges? name).map fun ranges =>
    ((List.range 256).map Char.ofNat).filter (Regex.inRanges ranges)

/-- The parts of a set of characters. -/
def setParts : Nat → List Char → Except SetFault (List SetPart)
  | 0, _ | _, [] => .ok []
  | fuel + 1, cs =>
    let more (part : SetPart) (rest : List Char) : Except SetFault (List SetPart) :=
      (setParts fuel rest).map (part :: ·)
    let single : List Char → Char × List Char
      | '\\' :: rest => setEscape rest
      | c :: rest => (c, rest)
      | [] => ('\x00', [])
    let range : Except SetFault (List SetPart) :=
      let (a, rest) := single cs
      match rest with
      | '-' :: after =>
        if after.isEmpty then more (.chars [a]) rest
        else
          let (b, rest) := single after
          if b < a then .error (.reversed a b)
          else more (.chars ((List.range' a.toNat (b.toNat - a.toNat + 1)).map Char.ofNat)) rest
      | rest => more (.chars [a]) rest
    match cs with
    | '[' :: ':' :: rest =>
      let name := rest.takeWhile (· != ':')
      match rest.drop name.length with
      | ':' :: ']' :: after =>
        if (classChars? (String.ofList name)).isSome then more (.kind (String.ofList name)) after
        else .error (.badClass (String.ofList name))
      | _ => range
    | '[' :: '=' :: c :: '=' :: ']' :: rest => more (.chars [c]) rest
    | '[' :: rest =>
      let (c, after) := single rest
      match after with
      | '*' :: after =>
        let ds := after.takeWhile Char.isDigit
        match after.drop ds.length with
        | ']' :: after =>
          let n := nat? (String.ofList ds)
          more (.repeated c (if n == some 0 then none else n)) after
        | _ => range
      | _ => range
    | _ => range

/-- The characters of a set, those that fill it up being repeated so that there are as many as
in another set. -/
def setChars (room : Nat) (parts : List SetPart) : List Char :=
  let size (p : SetPart) : Nat := match p with
    | .chars cs => cs.length
    | .kind name => ((classChars? name).getD []).length
    | .repeated _ count => count.getD 0
  let fixed := parts.foldl (fun n p => n + size p) 0
  parts.flatMap fun
    | .chars cs => cs
    | .kind name => (classChars? name).getD []
    | .repeated c count => List.replicate (count.getD (room - fixed)) c

/-- A text in which runs of a character are one character. -/
def squeezed (set : Char → Bool) : Option Char → List Char → List Char
  | _, [] => []
  | before, c :: rest =>
    if before == some c && set c then squeezed set before rest
    else c :: squeezed set (some c) rest

/-- Changes, deletes or squeezes characters. -/
def tr (args : List String) : Tool Nat := do
  let (given, operands) ← options
    [⟨'c', "complement", .never⟩, ⟨'C', "", .never⟩, ⟨'d', "delete", .never⟩,
      ⟨'s', "squeeze-repeats", .never⟩, ⟨'t', "truncate-set1", .never⟩] args 1 false
  let deletes := given.has 'd'
  let squeezes := given.has 's'
  let last := operands.getLast?.getD ""
  let wanted := if deletes != squeezes then 1 else 2
  if operands.length < wanted then
    if operands.isEmpty then refuse 1 "missing operand"
    refuse 1 s!"missing operand after {quoted last}" (if deletes then
        "Two strings must be given when both deleting and squeezing repeats.\n"
      else "Two strings must be given when translating.\n")
  let most := if deletes && !squeezes then 1 else 2
  if most < operands.length then
    let extra := quoted (operands.getD most "")
    refuse 1 s!"extra operand {extra}" (if operands.length = 2 then
        "Only one string may be given when deleting without squeezing repeats.\n"
      else "")
  let parsed (s : String) : Tool (List SetPart) := do
    match setParts (s.length + 1) s.toList with
    | .ok ps => return ps
    | .error (.reversed a b) =>
      let range := quoted (String.ofList [a, '-', b])
      fail 1 s!"range-endpoints of {range} are in reverse collating sequence order"
    | .error (.badClass name) => fail 1 s!"invalid character class {quoted name}"
    | .error (.badRepeat n) => fail 1 s!"invalid repeat count {quoted n} in [c*n] construct"
  let complement := given.has 'c' || given.has 'C'
  let set1 := setChars 0 (← parsed (operands.getD 0 ""))
  let set1 := if complement then
      ((List.range 256).map Char.ofNat).filter fun c => !set1.contains c
    else set1
  let parts2 ← parsed (operands.getD 1 "")
  let set2 := setChars set1.length parts2
  let translates := !deletes && operands.length == 2
  if translates && set2.isEmpty && !given.has 't' && !set1.isEmpty then
    fail 1 "when not truncating set1, string2 must be non-empty"
  let text ← (do
    match ← input "-" with
    | .ok text => return text
    | .error e => fail 1 s!"read error: {e.text}")
  let table : Array (Option Char) :=
    (set1.zipIdx.filter fun e => !given.has 't' || e.2 < set2.length).foldl (fun t (c, i) =>
      t.set! c.toNat (some ((set2[i]?).getD (set2.getLast?.getD c)))) (Array.replicate 256 none)
  let isIn1 : Array Bool := set1.foldl (fun t c => t.set! c.toNat true) (Array.replicate 256 false)
  let cs := text.toList
  let cs := if deletes then cs.filter fun c => !(isIn1.getD c.toNat false)
    else if translates then cs.map fun c => ((table.getD c.toNat none).getD c)
    else cs
  let squeezeSet (c : Char) : Bool :=
    if operands.length == 2 then set2.contains c else isIn1.getD c.toNat false
  put (String.ofList (if squeezes then squeezed squeezeSet none cs else cs))
  return 0

end Provision.Tool
