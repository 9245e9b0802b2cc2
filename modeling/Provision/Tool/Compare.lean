import Provision.Tool.Path

/-!
# Comparing files

Programs that tell whether files are the same, and where they differ.
-/

namespace Provision.Tool

/-! ## Octet by octet -/

/-- The place of the first difference, and the number of its line. -/
def firstDifference : Nat → Nat → List Char → List Char → Option (Nat × Nat)
  | n, line, a :: as, b :: bs =>
    if a == b then firstDifference (n + 1) (if a == '\n' then line + 1 else line) as bs
    else some (n, line)
  | _, _, _, _ => none

/-- Compares two files octet by octet. -/
def cmp (args : List String) : Tool Nat := do
  let (given, operands) ← options
    [⟨'s', "quiet", .never⟩, ⟨'s', "silent", .never⟩, ⟨'l', "verbose", .never⟩,
      ⟨'b', "print-bytes", .never⟩, ⟨'i', "ignore-initial", .always⟩,
      ⟨'n', "bytes", .always⟩] args 2
  match operands with
  | [] =>
    let name := (← get).name
    warn s!"{name}: missing operand after {quoted name}\n"
    warn s!"{name}: Try '{name} --help' for more information.\n"
    return 2
  | a :: rest =>
    let b := rest.headD "-"
    let text (path : String) : Tool String := do
      match ← input path with
      | .ok t => return match (given.value? 'n').bind nat? with
        | some n => String.ofList (t.toList.take n)
        | none => t
      | .error e =>
        if !given.has 's' then complain s!"{path}: {e.text}"
        throw 2
    let x ← text a
    let y ← text b
    if x == y then return 0
    if given.has 's' then return 1
    let (short, s) := if x.length < y.length then (a, x) else (b, y)
    let atEnd (place : String) : Tool Unit :=
      if s.isEmpty then complain s!"EOF on {short} which is empty"
      else complain s!"EOF on {short} after byte {s.length}{place}"
    if given.has 'l' then
      let width := (toString (max x.length y.length)).length
      let octal (c : Char) : String := padLeft 3 (String.ofList (Nat.toDigits 8 c.toNat))
      for ((c, d), n) in (x.toList.zip y.toList).zipIdx 1 do
        if c != d then putLine s!"{padLeft width (toString n)} {octal c} {octal d}"
      if x.length != y.length then atEnd ""
    else match firstDifference 1 1 x.toList y.toList with
      | some (n, line) => putLine s!"{a} {b} differ: char {n}, line {line}"
      | none =>
        let lines := s.toList.count '\n'
        atEnd (if s.endsWith "\n" then s!", line {lines}" else s!", in line {lines + 1}")
    return 1

/-! ## Line by line -/

/-- A step from one list of lines to another. -/
inductive Edit
  | keep (line : String) | remove (line : String) | add (line : String)

namespace Edit

/-- Whether a line stays. -/
def keeps : Edit → Bool
  | keep _ => true
  | _ => false

/-- One row of the table of the lengths of common parts, from the row below it. -/
def row (same : String → String → Bool) (a : String) (bs : List String) (next : List Nat) :
    List Nat :=
  match bs, next with
  | b :: bs, n :: ns =>
    let rest := row same a bs ns
    (if same a b then ns.headD 0 + 1 else max n (rest.headD 0)) :: rest
  | _, _ => [0]

/-- The rows of the table, the first one in front. -/
def table (same : String → String → Bool) (bs : List String) : List String → List (List Nat)
  | [] => [List.replicate (bs.length + 1) 0]
  | a :: as =>
    let rest := table same bs as
    row same a bs (rest.headD []) :: rest

/-- The steps between lists of lines, by the table of common parts. -/
def walk (same : String → String → Bool) :
    List (List Nat) → List String → List String → List Edit
  | _, [], bs => bs.map .add
  | _, as, [] => as.map .remove
  | rows, a :: as, b :: bs =>
    if same a b then
      .keep a :: walk same ((rows.drop 1).map (List.drop 1)) as bs
    else
      let down := ((rows[1]?).getD []).headD 0
      let right := ((rows[0]?).getD []).getD 1 0
      if right ≤ down then .remove a :: walk same (rows.drop 1) as (b :: bs)
      else .add b :: walk same (rows.map (List.drop 1)) (a :: as) bs
termination_by _ as bs => as.length + bs.length

/-- The steps between lists of lines. -/
def ofLines (same : String → String → Bool) (as bs : List String) : List Edit :=
  walk same (table same bs as) as bs

end Edit

/-- A group of changes side by side: where it begins on both sides, and its steps. -/
structure Hunk where
  left : Nat
  right : Nat
  edits : List Edit

/-- The changes, each with some unchanged lines around it; those that meet are one group. -/
def hunks (around : Nat) : Nat → Nat → Nat → List Edit → List Hunk
  | 0, _, _, _ => []
  | fuel + 1, left, right, edits =>
    let kept := (edits.takeWhile Edit.keeps).length
    let rest := edits.drop kept
    if rest.isEmpty then []
    else
      let front := min around kept
      let skipped := kept - front
      let body := upTo around (edits.length + 1) rest
      let taken := body.length
      let both := (edits.drop skipped).take (front + taken)
      let lefts := both.countP fun e => match e with
        | .add _ => false
        | _ => true
      let rights := both.countP fun e => match e with
        | .remove _ => false
        | _ => true
      ⟨left + skipped, right + skipped, both⟩ ::
        hunks around fuel (left + skipped + lefts) (right + skipped + rights)
          (rest.drop taken)
where
  /-- The steps up to the end of a group. -/
  upTo (around : Nat) : Nat → List Edit → List Edit
  | 0, _ => []
  | fuel + 1, edits =>
    let changed := edits.takeWhile fun e => !e.keeps
    let rest := edits.drop changed.length
    let kept := rest.takeWhile Edit.keeps
    if kept.length ≤ 2 * around && kept.length < rest.length && around != 0 then
      changed ++ kept ++ upTo around fuel (rest.drop kept.length)
    else changed ++ kept.take around

/-- The range of lines of a group. -/
def rangeText (start count : Nat) : String :=
  if count = 0 then toString (start - 1)
  else if count = 1 then toString start
  else s!"{start},{start + count - 1}"

/-- A group of changes in the plain form. -/
def plainHunk (h : Hunk) : List String :=
  let removed := h.edits.filterMap fun e => match e with
    | .remove l => some l
    | _ => none
  let added := h.edits.filterMap fun e => match e with
    | .add l => some l
    | _ => none
  let letter := if removed.isEmpty then "a" else if added.isEmpty then "d" else "c"
  [rangeText h.left removed.length ++ letter ++ rangeText h.right added.length] ++
    removed.map ("< " ++ ·) ++
    (if removed.isEmpty || added.isEmpty then [] else ["---"]) ++ added.map ("> " ++ ·)

/-- A group of changes in the unified form. -/
def unifiedHunk (h : Hunk) : List String :=
  let lefts := h.edits.countP fun e => match e with
    | .add _ => false
    | _ => true
  let rights := h.edits.countP fun e => match e with
    | .remove _ => false
    | _ => true
  let span (start count : Nat) : String :=
    if count = 1 then toString start
    else s!"{if count = 0 then start - 1 else start},{count}"
  s!"@@ -{span h.left lefts} +{span h.right rights} @@" ::
    h.edits.map fun e => match e with
      | .keep l => " " ++ l
      | .remove l => "-" ++ l
      | .add l => "+" ++ l

/-- Compares two texts line by line, and says whether they are the same. -/
def diffTexts (given : Given) (a b x y : String) (header : Option String) : Tool Nat := do
  let normal (l : String) : String :=
    let l := if given.has 'i' then String.ofList (l.toList.map Char.toLower) else l
    if given.has 'w' then String.ofList (l.toList.filter fun c => c != ' ' && c != '\t')
    else if given.has 'b' then " ".intercalate ((l.splitOn " ").filter (!·.isEmpty)) else l
  let same (l m : String) : Bool := normal l == normal m
  let marked (s : String) : List String :=
    let ls := linesOf s
    if endsOpen s then ls.dropLast ++ ls.getLast?.toList.map (· ++ "\n\\ No newline at end of file")
    else ls
  let edits := Edit.ofLines same (marked x) (marked y)
  if edits.all Edit.keeps then
    if given.has 's' then putLine s!"Files {a} and {b} are identical"
    return 0
  if given.has 'q' then
    putLine s!"Files {a} and {b} differ"
    return 1
  header.forM putLine
  if given.has 'u' || given.has 'U' then
    let around := ((given.value? 'U').bind nat?).getD 3
    putLine s!"--- {a}"
    putLine s!"+++ {b}"
    put (ofLines ((hunks around (edits.length + 1) 1 1 edits).flatMap unifiedHunk))
  else put (ofLines ((hunks 0 (edits.length + 1) 1 1 edits).flatMap plainHunk))
  return 1

/-- Compares two paths, which may be directories. -/
def diffPaths (given : Given) : Nat → Bool → String → String → Tool Nat
  | 0, _, _, _ => return 0
  | fuel + 1, inside, a, b => do
    let p ← get
    let folder (path : String) : Option Place :=
      match p.locate path with
      | .ok place => if (p.files.get? place).any FileEntry.isDirectory then some place else none
      | .error _ => none
    match folder a, folder b with
    | some x, some y =>
      let left := (p.files.listing x).map Prod.fst
      let right := (p.files.listing y).map Prod.fst
      let names := ((left ++ right).mergeSort fun m n => !(n < m)).eraseReps
      forEach names fun name => do
        if !right.contains name then
          putLine s!"Only in {a}: {name}"
          return 1
        if !left.contains name then
          putLine s!"Only in {b}: {name}"
          return 1
        let (c, d) := (below a name, below b name)
        match folder c, folder d with
        | some _, some _ =>
          if given.has 'r' then diffPaths given fuel true c d
          else
            putLine s!"Common subdirectories: {c} and {d}"
            return 0
        | _, _ => diffPaths given fuel true c d
    | x, y =>
      let (a, b) := if inside then (a, b)
        else (if x.isSome then below a (nameOf b) else a,
          if y.isSome then below b (nameOf a) else b)
      let mut texts := []
      for path in [a, b] do
        match ← input path with
        | .ok t => texts := texts ++ [t]
        | .error e => complain s!"{path}: {e.text}"
      match texts with
      | [s, t] =>
        let words := (given.map fun e => "-" ++ String.singleton e.1) ++ [a, b]
        diffTexts given a b s t (if inside && !given.has 'q' then
          some (" ".intercalate ("diff" :: words)) else none)
      | _ => return 2

/-- Compares two files line by line. -/
def diff (args : List String) : Tool Nat := do
  let (given, operands) ← options
    [⟨'q', "brief", .never⟩, ⟨'s', "report-identical-files", .never⟩, ⟨'u', "", .never⟩,
      ⟨'U', "unified", .always⟩, ⟨'r', "recursive", .never⟩, ⟨'i', "ignore-case", .never⟩,
      ⟨'w', "ignore-all-space", .never⟩, ⟨'b', "ignore-space-change", .never⟩,
      ⟨'B', "ignore-blank-lines", .never⟩, ⟨'N', "new-file", .never⟩, ⟨'a', "text", .never⟩] args 2
  match operands with
  | [a, b] => diffPaths given 50 false a b
  | _ =>
    let name := (← get).name
    let last := operands.getLast?.getD name
    let what := if operands.length < 2 then "missing operand after " else "extra operand "
    let last := if operands.length < 2 then last else operands.getD 2 ""
    complain (what ++ quoted last)
    warn s!"{name}: Try '{name} --help' for more information.\n"
    return 2

end Provision.Tool
