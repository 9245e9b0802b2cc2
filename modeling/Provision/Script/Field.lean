import Provision.Script.Session
import Provision.Glob

/-!
# Fields

An expanded word is a list of characters that know whether they were quoted. Blanks that come
from expansions separate fields; what is quoted never does. A field may be a pattern that stands
for paths.

> `fieldsOf_solid`: quoted characters are one field, whatever they are.
-/

namespace Provision.Script

open Glob (Marked)

/-! ## Splitting -/

/-- A character of an expanded word, or something between characters. -/
inductive Atom
  /-- A character that means itself. -/
  | solid (c : Char)
  /-- A character outside quotes: it may be part of a pattern. -/
  | soft (c : Char)
  /-- A character of a value outside quotes: it may separate fields, too. -/
  | loose (c : Char)
  /-- Quotes, which make a field even if they are empty. -/
  | quotes
  /-- The end of a field. -/
  | ends
  /-- The end of a field if there is one. -/
  | breaks

/-- What has been seen since the last character of a field. -/
inductive Gap
  | nothing | blank | mark
deriving DecidableEq

/-- The fields of an expanded word so far: the present one and those before it, backwards. -/
structure Splitting where
  current : Option Marked := none
  done : List Marked := []
  gap : Gap := .mark

namespace Splitting

/-- Adds a character to the present field. -/
def push (s : Splitting) (c : Char) (free : Bool) : Splitting :=
  { s with current := some ((c, free) :: s.current.getD []), gap := .nothing }

/-- Ends the present field, if there is one. -/
def close (s : Splitting) (gap : Gap) : Splitting :=
  match s.current with
  | some cs => { current := none, done := cs.reverse :: s.done, gap := gap }
  | none => s

/-- Goes past an atom. Blanks side by side separate once; other separators separate each time,
with the blanks around them. -/
def step (separators : List Char) (s : Splitting) : Atom → Splitting
  | .solid c => s.push c false
  | .soft c => s.push c true
  | .loose c =>
    if !separators.contains c then s.push c true
    else if c == ' ' || c == '\t' || c == '\n' then s.close .blank
    else match s.current, s.gap with
      | some _, _ => s.close .mark
      | none, .blank => { s with gap := .mark }
      | none, _ => { s with done := [] :: s.done, gap := .mark }
  | .quotes => { s with current := some (s.current.getD []), gap := .nothing }
  | .ends => { current := none, done := (s.current.getD []).reverse :: s.done, gap := .mark }
  | .breaks => s.close .blank

end Splitting

/-- The fields of an expanded word. -/
def fieldsOf (separators : List Char) (atoms : List Atom) : List Marked :=
  ((atoms.foldl (Splitting.step separators) {}).close .mark).done.reverse

/-- Characters that do not separate extend the field that is open, or open one. -/
theorem foldl_solid (separators : List Char) (cs : List Char) (s : Splitting) :
    ((cs.map Atom.solid).foldl (Splitting.step separators) s).done = s.done ∧
      ((cs.map Atom.solid).foldl (Splitting.step separators) s).current =
        if cs.isEmpty then s.current
        else some ((cs.reverse.map (·, false)) ++ s.current.getD []) := by
  induction cs generalizing s with
  | nil => exact ⟨rfl, rfl⟩
  | cons c cs ih =>
    obtain ⟨h₁, h₂⟩ := ih (s.push c false)
    refine ⟨h₁, ?_⟩
    simp only [List.map_cons, List.foldl_cons]
    rw [show Splitting.step separators s (.solid c) = s.push c false from rfl, h₂]
    cases cs <;> simp [Splitting.push]

/-- A word without separators is one field. -/
theorem fieldsOf_solid (separators : List Char) (c : Char) (cs : List Char) :
    fieldsOf separators ((c :: cs).map Atom.solid) = [(c :: cs).map (·, false)] := by
  obtain ⟨h₁, h₂⟩ := foldl_solid separators (c :: cs) {}
  unfold fieldsOf Splitting.close
  rw [h₂]
  simp only [List.isEmpty_cons, Bool.false_eq_true, if_false]
  rw [h₁]
  simp

/-- The characters of an expanded word that is one field. -/
def marked (atoms : List Atom) : Marked :=
  atoms.filterMap fun
    | .solid c => some (c, false)
    | .soft c | .loose c => some (c, true)
    | .quotes => none
    | .ends | .breaks => some (' ', false)

/-- The text of an expanded word. -/
def atomsText (atoms : List Atom) : String := (marked atoms).text

/-- How a word is expanded. -/
structure Setting where
  /-- Between double quotes. -/
  quoted : Bool := false
  /-- Whether the word becomes fields, or one text. -/
  splits : Bool := true
  /-- Whether the text itself counts as a value. -/
  loose : Bool := false

/-- The atoms of a text that is written in a word. -/
def Setting.written (m : Setting) (s : String) : List Atom :=
  s.toList.map fun c => if m.quoted then .solid c else if m.loose then .loose c else .soft c

/-- The atoms of a value. -/
def Setting.valued (m : Setting) (s : String) : List Atom :=
  s.toList.map fun c => if m.quoted then .solid c else .loose c

/-! ## Tildes -/

/-- The directory that a tilde and a name stand for. -/
def homeOf? (s : Session) (user : String) : Option String :=
  match user with
  | "" => s.text? "HOME"
  | "root" => some "/root"
  | "+" => if s.isRich then s.text? "PWD" else none
  | "-" => if s.isRich then s.text? "OLDPWD" else none
  | _ => none

/-- A word with the home directory in place of a tilde in front of it. `ending` says that the
tilde may also be followed by a colon. -/
def atHome (s : Session) (ending : Bool) : Word → Word
  | .text t :: rest =>
    match t.toList with
    | '~' :: cs =>
      let user := cs.takeWhile fun c => c != '/' && !(ending && c == ':')
      let after := cs.drop user.length
      match if after.isEmpty && !rest.isEmpty then none else homeOf? s (String.ofList user) with
      | some home =>
        let rest := if after.isEmpty then rest else .text (String.ofList after) :: rest
        if home.isEmpty then if s.isRich then .quoted [] :: rest else rest
        else .quoted [.text home] :: rest
      | none => .text t :: rest
    | _ => .text t :: rest
  | w => w

/-- The words between the colons of a value, whose tildes count. -/
def atHomes (s : Session) : Nat → Word → Word
  | 0, w => w
  | _, [] => []
  | fuel + 1, w =>
    match atHome s true w with
    | .text t :: rest =>
      let cs := t.toList
      let before := cs.takeWhile (· != ':')
      match cs.drop before.length with
      | ':' :: after =>
        let left := if after.isEmpty then rest else .text (String.ofList after) :: rest
        Word.add (String.ofList (before ++ [':'])) (atHomes s fuel left)
      | _ => .text t :: passed fuel rest
    | p :: rest => p :: passed fuel rest
    | [] => []
where
  /-- Pieces after the start of a word, up to the next colon. -/
  passed : Nat → Word → Word
  | 0, w => w
  | _, [] => []
  | fuel + 1, .text t :: rest =>
    let cs := t.toList
    let before := cs.takeWhile (· != ':')
    match cs.drop before.length with
    | ':' :: after =>
      let left := if after.isEmpty then rest else .text (String.ofList after) :: rest
      Word.add (String.ofList (before ++ [':'])) (atHomes s fuel left)
    | _ => .text t :: passed fuel rest
  | fuel + 1, p :: rest => p :: passed fuel rest

/-! ## Braces -/

/-- A character outside quotes, or a piece. -/
inductive Cell
  | bare (c : Char)
  | piece (p : Piece)

/-- The cells of a word. -/
def cellsOf (w : Word) : List Cell :=
  w.flatMap fun
    | .text s => s.toList.map .bare
    | p => [.piece p]

/-- The word of cells. -/
def ofCells : List Cell → Word
  | [] => []
  | .bare c :: rest => Word.add (String.singleton c) (ofCells rest)
  | .piece p :: rest => p :: ofCells rest

/-- The parts between the commas up to a closing brace, the present one backwards, and what
comes after the brace. -/
def alternatives : Nat → List Cell → List Cell → Option (List (List Cell) × List Cell)
  | _, _, [] => none
  | 0, part, .bare '\x7d' :: rest => some ([part.reverse], rest)
  | 0, part, .bare ',' :: rest =>
    (alternatives 0 [] rest).map fun (ps, rest) => (part.reverse :: ps, rest)
  | depth, part, c :: rest =>
    let depth := match c with
      | .bare '\x7b' => depth + 1
      | .bare '\x7d' => depth - 1
      | _ => depth
    alternatives depth (c :: part) rest

/-- The texts from one to another one: numbers, or letters. -/
def sequence? (text : String) : Option (List String) :=
  let made (a b : Int) (step : Int) (shown : Int → String) : List String :=
    let step := if step = 0 then 1 else step.natAbs
    let count := ((b - a).natAbs) / step + 1
    (List.range count).map fun i =>
      shown (if a ≤ b then a + Int.ofNat (i * step) else a - Int.ofNat (i * step))
  let signed (s : String) : Option Int :=
    match s.toList with
    | '-' :: ds => (Tool.nat? (String.ofList ds)).map fun n => -(n : Int)
    | '+' :: ds => (Tool.nat? (String.ofList ds)).map Int.ofNat
    | ds => (Tool.nat? (String.ofList ds)).map Int.ofNat
  let padded (s : String) : Bool :=
    match s.toList with
    | '-' :: '0' :: _ :: _ | '0' :: _ :: _ => true
    | _ => false
  let between (a b : String) (step : Int) : Option (List String) :=
    match signed a, signed b, a.toList, b.toList with
    | some x, some y, _, _ =>
      let width := if padded a || padded b then max a.length b.length else 0
      let shown (n : Int) : String :=
        let digits := toString n.natAbs
        let sign := if n < 0 then "-" else ""
        sign ++ "".pushn '0' (width - sign.length - digits.length) ++ digits
      some (made x y step shown)
    | none, none, [x], [y] =>
      if x.isAlpha && y.isAlpha then
        some (made x.toNat y.toNat step fun n => String.singleton (Char.ofNat n.toNat))
      else none
    | _, _, _, _ => none
  match text.splitOn ".." with
  | [a, b] => between a b 1
  | [a, b, c] => (signed c).bind (between a b)
  | _ => none

/-- The words that a word with braces stands for. -/
def braceWords : Nat → List Cell → List (List Cell)
  | 0, cells => [cells]
  | _, [] => [[]]
  | fuel + 1, .bare '\x7b' :: rest =>
    let kept : List (List Cell) := (braceWords fuel rest).map (.bare '\x7b' :: ·)
    match alternatives 0 [] rest with
    | some (parts, after) =>
      let texts : Option (List (List Cell)) := match parts with
        | [part] => match (ofCells part) with
          | [.text s] => (sequence? s).map fun l => l.map fun t => t.toList.map .bare
          | _ => none
        | parts => some (parts.flatMap (braceWords fuel))
      match texts with
      | some texts =>
        let ends := braceWords fuel after
        texts.flatMap fun t => ends.map (t ++ ·)
      | none => kept
    | none => kept
  | fuel + 1, c :: rest => (braceWords fuel rest).map (c :: ·)

/-- The words that a word with braces stands for. -/
def braced (w : Word) : List Word :=
  let cells := cellsOf w
  let opens : Cell → Bool
    | .bare '\x7b' => true
    | _ => false
  if cells.any opens then (braceWords (cells.length + 1) cells).map ofCells else [w]

/-! ## Paths -/

/-- The names between the slashes of a field. -/
def components : Marked → List Marked
  | [] => [[]]
  | (c, free) :: rest =>
    if c == '/' then [] :: components rest
    else match components rest with
      | [] => [[(c, free)]]
      | first :: others => ((c, free) :: first) :: others

/-- Which names patterns find in directories. -/
structure Outlook where
  /-- Whether a caret negates brackets, and the directory itself is not found. -/
  rich : Bool := false
  /-- Whether names that begin with a dot are found as others are. -/
  hidden : Bool := false
  /-- Whether two stars stand for directories inside directories. -/
  deep : Bool := false

namespace Outlook

/-- Whether a pattern finds a name. -/
def finds (o : Outlook) (g : Glob) (name : String) : Bool :=
  if o.hidden then g.isMatch name.toList else g.matchesName name

/-- The names in the directory of a path. -/
def names (o : Outlook) (p : Process) (path : String) : List String :=
  match p.locate (if path.isEmpty then "." else path) with
  | .error _ => []
  | .ok place =>
    match (p.files.get? place).map FileEntry.isDirectory with
    | some true =>
      (if o.rich then [] else [".", ".."]) ++ (p.files.listing place).map Prod.fst
    | _ => []

/-- The paths below a path, down to a depth, and whether they are directories. -/
def below (o : Outlook) (p : Process) : Nat → String → List (String × Bool)
  | 0, _ => []
  | depth + 1, path =>
    (o.names p path).flatMap fun name =>
      if !o.hidden && name.startsWith "." then []
      else match p.entryLink (path ++ name) with
        | .error _ => []
        | .ok e =>
          (path ++ name, e.isDirectory) ::
            if e.isDirectory then below o p depth (path ++ name ++ "/") else []

/-- The paths that a pattern stands for, from a path on. -/
def paths (o : Outlook) (p : Process) (path : String) : List Marked → List String
  | [] => []
  | component :: rest =>
    let fits (path : String) : Bool :=
      (p.entryLink (if path.isEmpty then "." else path)).isOk
    if o.deep && component == [('*', true), ('*', true)] then
      let found := o.below p 100 path
      if rest.isEmpty then
        (if path.isEmpty || !fits path then [] else [path]) ++ found.map Prod.fst
      else
        let starts := path :: (found.filter Prod.snd).map fun e => e.1 ++ "/"
        (starts.flatMap fun start => paths o p start rest).filter (!·.isEmpty)
    else
      let glob := Glob.ofMarked o.rich (component.length + 1) component
      let names := if glob.isOpen then (o.names p path).filter (o.finds glob) else [glob.literal]
      names.flatMap fun name =>
        let path := path ++ name
        if rest.isEmpty then if fits path then [path] else []
        else paths o p (path ++ "/") rest

end Outlook

/-- Where patterns of a session look. -/
def outlookOf (s : Session) : Outlook :=
  { rich := s.isRich, hidden := s.has "dotglob", deep := s.has "globstar" }

/-- The words that a field stands for: the paths that it matches, or itself. -/
def globbed (s : Session) (field : Marked) : List String :=
  let isPattern := field.any fun x => x.2 && (x.1 == '*' || x.1 == '?' || x.1 == '[')
  if s.has "noglob" || !isPattern then [field.text]
  else
    let parts := components field
    let opens := parts.any fun c => (Glob.ofMarked s.isRich (c.length + 1) c).isOpen
    match if opens then (outlookOf s).paths s.toProcess "" parts else [] with
    | [] => if s.has "nullglob" then [] else [field.text]
    | found => found.mergeSort fun a b => !(b < a)

end Provision.Script
