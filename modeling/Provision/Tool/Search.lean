import Provision.Tool
import Provision.Regex.Read
import Provision.Glob

/-!
# Searching files

The program that prints the lines in which one of some expressions occurs.
-/

namespace Provision.Tool

open Regex (Subject Match)

/-- What is looked for in lines. -/
structure Wanted where
  expressions : List Regex
  ignoresCase : Bool := false
  /-- Only whole words count, or whole lines. -/
  words : Bool := false
  lines : Bool := false

namespace Wanted

/-- Where a match that counts ends, if one begins at a place. -/
def stopAt? (w : Wanted) (t : Subject) (r : Regex) (i : Nat) : Option Nat :=
  let stops := (r.follow t ⟨i, []⟩).map Regex.Progress.place
  stops.find? fun j =>
    (!w.lines || (i == 0 && j == t.chars.size)) &&
      (!w.words || (!(i != 0 && t.isWordAt (i - 1)) && !t.isWordAt j))

/-- The first match at a place or after it, the longest one there. -/
def find? (w : Wanted) (t : Subject) (i : Nat) : Option (Nat × Nat) :=
  (List.range (t.chars.size + 1 - i)).findSome? fun k =>
    let stops := w.expressions.filterMap fun r => w.stopAt? t r (i + k)
    match stops with
    | [] => none
    | first :: rest => some (i + k, rest.foldl max first)

/-- A line as something to look into. -/
def subject (w : Wanted) (line : String) : Subject := .ofString line w.ignoresCase

/-- All matches that are not empty, one after another. -/
def parts (w : Wanted) (t : Subject) : Nat → Nat → List (Nat × Nat)
  | 0, _ => []
  | fuel + 1, i =>
    match w.find? t i with
    | none => []
    | some (start, stop) =>
      if stop = start then parts w t fuel (start + 1)
      else (start, stop) :: parts w t fuel stop

end Wanted

/-- How found lines are printed. -/
structure Reporting where
  inverted : Bool
  counts : Bool
  names : Bool
  otherNames : Bool
  quiet : Bool
  onlyParts : Bool
  numbered : Bool
  offsets : Bool
  titled : Bool
  most : Option Nat
  before : Nat
  after : Nat

namespace Reporting

/-- What stands in front of a line; the sign tells whether the line has been found. -/
def label (r : Reporting) (name : String) (number offset : Nat) (sign : String) : String :=
  (if r.titled then name ++ sign else "") ++
    (if r.numbered then toString number ++ sign else "") ++
    (if r.offsets then toString offset ++ sign else "")

/-- Prints the lines of a text that are looked for, and says whether there are any. -/
def report (r : Reporting) (w : Wanted) (name : String) (text : String) : Tool Bool := do
  let lines := (linesOf text).toArray
  let isFound := lines.map fun l => (w.find? (w.subject l) 0).isSome != r.inverted
  let found := (List.range lines.size).filter fun i => isFound.getD i false
  let found := r.most.elim found found.take
  let hit := !found.isEmpty
  if r.quiet then return hit
  if r.names then
    if hit then putLine name
    return hit
  if r.otherNames then
    if !hit then putLine name
    return !hit
  if r.counts then
    putLine ((if r.titled then name ++ ":" else "") ++ toString found.length)
    return hit
  if text.contains '\x00' then
    if hit then putLine s!"grep: {name}: binary file matches"
    return hit
  let offset (i : Nat) : Nat := (lines.toList.take i).foldl (fun n l => n + l.length + 1) 0
  let wanted := found.foldl (fun t i => t.set! i true) (Array.replicate lines.size false)
  let last := found.getLast?.getD 0
  let context (i : Nat) : Bool :=
    (found.any fun j => (i < j && j ≤ i + r.before) || (j < i && i ≤ j + r.after))
  let mut previous : Option Nat := none
  for i in List.range lines.size do
    let here := wanted.getD i false
    if here || ((r.before + r.after != 0) && i ≤ last + r.after && context i) then
      if r.before + r.after != 0 then
        match previous with
        | some j => if j + 1 < i then putLine "--"
        | none => pure ()
      let line := lines.getD i ""
      let at1 := if r.offsets then offset i else 0
      if r.onlyParts then
        if here && !r.inverted then
          let t := w.subject line
          for (start, stop) in w.parts t (line.length + 1) 0 do
            putLine (r.label name (i + 1) (at1 + start) ":" ++
              String.ofList (t.chars.extract start stop).toList)
      else putLine (r.label name (i + 1) at1 (if here then ":" else "-") ++ line)
      previous := some i
  return hit

end Reporting

/-- Whether a name is that of one of some patterns. -/
def isNamed (patterns : List String) (name : String) : Bool :=
  patterns.any fun g => Glob.isMatch (Glob.ofText g) name.toList

/-- The files below a directory, as paths that begin with its own; some directories are left
aside. -/
def filesBelow (f : Files) (aside : List String) : Nat → Place → String → List (String × Place)
  | 0, _, _ => []
  | fuel + 1, place, path =>
    (f.listing place).flatMap fun (name, e) =>
      let path := if path.isEmpty then name else if path.endsWith "/" then path ++ name
        else path ++ "/" ++ name
      match e.body with
      | .directory =>
        if isNamed aside name then [] else filesBelow f aside fuel (place ++ [name]) path
      | .file _ => [(path, place ++ [name])]
      | _ => []

/-- How the searching program is called. -/
def grepUsage : String := "Usage: grep [OPTION]... PATTERNS [FILE]...\n"

/-- The options of the searching program. -/
def grepSwitches : List Switch :=
  [⟨'E', "extended-regexp", .never⟩, ⟨'F', "fixed-strings", .never⟩, ⟨'G', "basic-regexp", .never⟩,
    ⟨'P', "perl-regexp", .never⟩, ⟨'e', "regexp", .always⟩, ⟨'f', "file", .always⟩,
    ⟨'i', "ignore-case", .never⟩, ⟨'y', "", .never⟩, ⟨'w', "word-regexp", .never⟩,
    ⟨'x', "line-regexp", .never⟩, ⟨'s', "no-messages", .never⟩, ⟨'v', "invert-match", .never⟩,
    ⟨'m', "max-count", .always⟩, ⟨'b', "byte-offset", .never⟩, ⟨'n', "line-number", .never⟩,
    ⟨'H', "with-filename", .never⟩, ⟨'h', "no-filename", .never⟩, ⟨'o', "only-matching", .never⟩,
    ⟨'q', "quiet", .never⟩, ⟨'q', "silent", .never⟩, ⟨'a', "text", .never⟩, ⟨'I', "", .never⟩,
    ⟨'r', "recursive", .never⟩, ⟨'R', "dereference-recursive", .never⟩,
    ⟨'L', "files-without-match", .never⟩, ⟨'l', "files-with-matches", .never⟩,
    ⟨'c', "count", .never⟩, ⟨'A', "after-context", .always⟩, ⟨'B', "before-context", .always⟩,
    ⟨'C', "context", .always⟩, ⟨'k', "color", .perhaps⟩, ⟨'k', "colour", .perhaps⟩,
    ⟨'z', "null-data", .never⟩, ⟨'U', "binary", .never⟩, ⟨'\x01', "include", .always⟩,
    ⟨'\x02', "exclude", .always⟩, ⟨'\x03', "exclude-dir", .always⟩]

/-- The expressions that patterns spell, one in each line of them. -/
def readPatterns (given : Given) (patterns : List String) : Tool (List Regex) := do
  let kind := (given.last? ['E', 'F', 'G', 'P']).getD 'G'
  (patterns.flatMap (·.splitOn "\n")).mapM fun pattern => do
    if kind == 'F' then return .ofText pattern
    let pattern := if kind == 'P' then pattern.replace "\\d" "[0-9]" else pattern
    if pattern.startsWith "[:" && pattern.endsWith ":]" then
      fail 2 "character class syntax is [[:space:]], not [:space:]"
    match Regex.readNoting (kind == 'E' || kind == 'P') false pattern with
    | .ok (r, idle) =>
      for c in idle do
        warn s!"grep: warning: {c} at start of expression\n"
      return r
    | .error e => fail 2 e.message

/-- Prints the lines of files in which an expression occurs. -/
def grep (args : List String) : Tool Nat := do
  let args := args.map fun a =>
    if a.startsWith "-" && (nat? (String.ofList (a.toList.drop 1))).isSome then
      "-C" ++ String.ofList (a.toList.drop 1)
    else a
  let (given, operands) ← options grepSwitches args 2 true grepUsage
  let named := (given.filter fun e => e.1 == 'e').map Prod.snd
  let mut patterns := named
  for (_, path) in given.filter fun e => e.1 == 'f' do
    match ← input path with
    | .ok text => patterns := patterns ++ linesOf text
    | .error e => fail 2 s!"{path}: {e.text}"
  let separate := given.has 'e' || given.has 'f'
  if !separate then
    match operands with
    | pattern :: _ => patterns := [pattern]
    | [] =>
      warn grepUsage
      warn "Try 'grep --help' for more information.\n"
      throw 2
  let paths := if separate then operands else operands.drop 1
  let number (letter : Char) : Tool (Option Nat) := do
    match given.value? letter with
    | none => return none
    | some v => match nat? v with
      | some n => return some n
      | none => fail 2 (if letter == 'm' then "invalid max count"
        else s!"{v}: invalid context length argument")
  let around := (← number 'C').getD 0
  let w : Wanted :=
    { expressions := ← readPatterns given patterns
      ignoresCase := given.has 'i' || given.has 'y'
      words := given.has 'w', lines := given.has 'x' }
  let recursive := given.has 'r' || given.has 'R'
  let bare := recursive && paths.isEmpty
  let roots := if paths.isEmpty then [if recursive then "." else "-"] else paths
  let p ← get
  let isFolder (path : String) : Bool := match p.entry path with
    | .ok e => e.isDirectory
    | .error _ => false
  let patternsOf (letter : Char) : List String :=
    (given.filter fun e => e.1 == letter).map Prod.snd
  let files := roots.flatMap fun path =>
    if recursive && path != "-" && isFolder path then
      match p.locate path with
      | .ok place => (filesBelow p.files (patternsOf '\x03') 100 place
          (if bare then "" else path)).map fun e => (e.1, e.2.path)
      | .error _ => [(path, path)]
    else [(path, path)]
  let files := files.filter fun (path, _) =>
    let name := (path.splitOn "/").getLast?.getD path
    let included := patternsOf '\x01'
    path == "-" || ((included.isEmpty || isNamed included name) &&
      !isNamed (patternsOf '\x02') name)
  let r : Reporting :=
    { inverted := given.has 'v', counts := given.has 'c', names := given.has 'l'
      otherNames := given.has 'L', quiet := given.has 'q', onlyParts := given.has 'o'
      numbered := given.has 'n', offsets := given.has 'b'
      titled := match given.last? ['H', 'h'] with
        | some 'H' => true
        | some _ => false
        | none => 1 < roots.length || (recursive && roots.any fun x => x != "-" && isFolder x)
      most := ← number 'm', before := (← number 'B').getD around
      after := (← number 'A').getD around }
  let mut hit := false
  let mut failed := false
  for (name, path) in files do
    match ← input path with
    | .ok text =>
      let shown := if name == "-" then "(standard input)" else name
      if ← r.report w shown text then hit := true
    | .error e =>
      if !given.has 's' then complain s!"{name}: {e.text}"
      if e = .isDirectory && given.has 'c' then discard (r.report w name "")
      failed := true
  return if failed && !(given.has 'q' && hit) then 2 else if hit then 0 else 1

end Provision.Tool
