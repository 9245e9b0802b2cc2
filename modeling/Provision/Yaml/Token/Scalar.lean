import Provision.Yaml.Token

/-!
# Scanning scalars

Each style is read by a machine that takes one character at a time, so its recursion is on
the text. White space inside plain and quoted scalars is collected in a `Fold` until it is
known what follows: a single line break reads as a space, more of them as all but the first.

Mirrors the scanner of the YAML library for scalars. The strings it keeps for white space and
breaks are a `Fold`, and its loops are the modes of a machine.
-/

namespace Provision.Yaml

/-- White space between two pieces of a scalar. `broken` says that a line has ended in it. -/
structure Fold where
  broken : Bool := false
  spaces : List Char := []
  first : List Char := []
  more : List Char := []

namespace Fold

/-- No white space. -/
def none : Fold := {}

/-- Adds a space or a tab; white space at the start of a line does not count. -/
def white (f : Fold) (c : Char) : Fold :=
  if f.broken then f else { f with spaces := f.spaces ++ [c] }

/-- Adds a line break; white space before it does not count. -/
def lineBreak (f : Fold) (c : Char) : Fold :=
  if f.broken then { f with more := f.more ++ [c] }
  else { f with broken := true, spaces := [], first := [c] }

/-- What the white space reads as. -/
def text (f : Fold) : List Char :=
  if f.broken then
    if f.first = ['\n'] then (if f.more = [] then [' '] else f.more)
    else f.first ++ f.more
  else f.spaces

end Fold

/-- A scalar and the rest of the text. -/
structure ScalarScan where
  text : List Char
  rest : Source
  /-- Whether the scalar ended at the start of a line. -/
  newLine : Bool := false

/-! ## Plain scalars -/

/-- Where a plain scalar is being read. -/
inductive PlainMode
  | start | word | gap
deriving DecidableEq

/-- Whether a character has a meaning of its own in the flow style. -/
def isFlowIndicator (c : Char) : Bool :=
  c == ',' || c == '[' || c == ']' || c == '\x7b' || c == '\x7d'

/-- Reads a plain scalar; `acc` is the text so far, reversed, and so is the text of the answer. -/
def plainFrom (flow : Bool) (start : Mark) (margin : Nat) :
    PlainMode → List Char → Fold → Source → Except Fault ScalarScan
  | _, acc, fold, [] => .ok ⟨acc, [], fold.broken⟩
  | mode, acc, fold, x :: rest =>
    let c := x.char
    let stop : Except Fault ScalarScan := .ok ⟨acc, x :: rest, fold.broken⟩
    if isWhite c then
      if fold.broken && x.mark.column < margin && c == '\t' then
        .error (.inside .plainScalar start .tabInScalar x.mark)
      else plainFrom flow start margin .gap acc (fold.white c) rest
    else if isBreak c then plainFrom flow start margin .gap acc (fold.lineBreak c) rest
    else if mode = .gap && !flow && x.mark.column < margin then stop
    else if mode ≠ .word && (c == '#' || Source.atDocumentMark (x :: rest)) then stop
    else if c == endChar then stop
    else
      let after := Source.char rest
      if flow && c == ':' && (after == '?' || isFlowIndicator after) then
        .error (.inside .plainScalar start .unexpectedColon x.mark)
      else if (c == ':' && isGap after) || (flow && isFlowIndicator c) then stop
      else plainFrom flow start margin .word (c :: (fold.text.reverse ++ acc)) .none rest

/-- Reads a plain scalar whose further lines are indented by at least `margin`. -/
def scanPlain (flow : Bool) (margin : Nat) (s : Source) : Except Fault ScalarScan :=
  (plainFrom flow (Source.mark s) margin .start [] .none s).map fun r =>
    { r with text := r.text.reverse }

/-! ## Quoted scalars -/

/-- What an escape stands for: a character, or the number of digits of its code. -/
inductive Escape
  | char (c : Char)
  | code (digits : Nat)

/-- The meaning of the character after a backslash. -/
def escape? (c : Char) : Option Escape :=
  match c with
  | '0' => some (.char '\x00')
  | 'a' => some (.char '\x07')
  | 'b' => some (.char '\x08')
  | 't' => some (.char '\t')
  | '\t' => some (.char '\t')
  | 'n' => some (.char '\n')
  | 'v' => some (.char '\x0B')
  | 'f' => some (.char '\x0C')
  | 'r' => some (.char '\r')
  | 'e' => some (.char '\x1B')
  | ' ' => some (.char ' ')
  | '"' => some (.char '"')
  | '/' => some (.char '/')
  | '\\' => some (.char '\\')
  | 'N' => some (.char '\x85')
  | '_' => some (.char '\xA0')
  | 'L' => some (.char '\u2028')
  | 'P' => some (.char '\u2029')
  | 'x' => some (.code 2)
  | 'u' => some (.code 4)
  | 'U' => some (.code 8)
  | _ => none

/-- Where a quoted scalar is being read. The marks are those that a fault would bear. -/
inductive QuotedMode
  | start | word | gap
  /-- After a single quote whose partner follows. -/
  | doubled
  | escape (backslash : Mark)
  | code (digits value : Nat) (first : Mark)

/-- Whether the next character begins a piece, white space being behind it. -/
def QuotedMode.opensPiece : QuotedMode → Bool
  | .word => false
  | _ => true

/-- Reads a quoted scalar up to its closing quote; `acc` is the text so far, reversed. -/
def quotedFrom (quote : Char) (start : Mark) :
    QuotedMode → List Char → Fold → Source → Except Fault ScalarScan
  | _, _, _, [] => .error (.inside .quotedScalar start .streamEnd {})
  | mode, acc, fold, x :: rest =>
    let c := x.char
    match mode with
    | .doubled => quotedFrom quote start .word (c :: acc) .none rest
    | .escape m =>
      if isBreak c then quotedFrom quote start .gap acc { broken := true } rest
      else match escape? c with
        | none => .error (.inside .escape start .unknownEscape m)
        | some (.char c) => quotedFrom quote start .word (c :: acc) .none rest
        | some (.code n) => quotedFrom quote start (.code n 0 (Source.mark rest)) acc .none rest
    | .code n value m =>
      match hexValue? c with
      | none => .error (.inside .escape start .missingHex m)
      | some d =>
        let value := 16 * value + d
        if 1 < n then quotedFrom quote start (.code (n - 1) value m) acc .none rest
        else if value.isValidChar then
          quotedFrom quote start .word (Char.ofNat value :: acc) .none rest
        else .error (.inside .escape start .escapedCode m)
    | .start | .word | .gap =>
      if isWhite c then quotedFrom quote start .gap acc (fold.white c) rest
      else if isBreak c then quotedFrom quote start .gap acc (fold.lineBreak c) rest
      else if mode.opensPiece && Source.atDocumentMark (x :: rest) then
        .error (.inside .quotedScalar start .documentIndicator x.mark)
      else if c == endChar then .error (.inside .quotedScalar start .streamEnd x.mark)
      else
        let acc := fold.text.reverse ++ acc
        if c == quote then
          if quote == '\'' && Source.char rest == '\'' then
            quotedFrom quote start .doubled acc .none rest
          else .ok { text := acc.reverse, rest := rest }
        else if quote == '"' && c == '\\' then
          quotedFrom quote start (.escape x.mark) acc .none rest
        else quotedFrom quote start .word (c :: acc) .none rest

/-- Reads a quoted scalar whose opening quote is the next character. -/
def scanQuoted (s : Source) : Except Fault ScalarScan :=
  quotedFrom (Source.char s) (Source.mark s) .start [] .none (s.drop 1)

/-! ## Block scalars -/

/-- What becomes of the line breaks at the end of a block scalar. -/
inductive Chomp
  | clip | strip | keep
deriving DecidableEq

/-- The chomping that an indicator asks for. -/
def chomp? (c : Char) : Option Chomp :=
  if c == '+' then some .keep else if c == '-' then some .strip else none

/-- Skips the blank lines before the first line of a block scalar. With `indent = 0` the
indentation is yet to be found, and all leading spaces are skipped. The answer holds the
greatest column reached and the line breaks. -/
def leadingLines (start : Mark) (indent : Nat) :
    Nat → List Char → Source → Except Fault (Nat × List Char × Source)
  | widest, breaks, [] => .ok (widest, breaks, [])
  | widest, breaks, x :: rest =>
    let inside := indent == 0 || x.mark.column < indent
    if inside && x.char == ' ' then leadingLines start indent widest breaks rest
    else
      let widest := max widest x.mark.column
      if inside && x.char == '\t' then .error (.inside .blockScalar start .tabIndent x.mark)
      else if isBreak x.char then leadingLines start indent widest (breaks ++ [x.char]) rest
      else .ok (widest, breaks, x :: rest)

/-- A block scalar under construction: the text so far, reversed, the break that ended the
last line, the blank lines after it, and whether the last line began with white space. -/
structure BlockText where
  acc : List Char := []
  last : List Char := []
  blank : List Char := []
  spaced : Bool := false

/-- Opens a line whose first character is `c`. A folded scalar joins two lines that both
begin without white space. -/
def BlockText.openLine (folded : Bool) (b : BlockText) (c : Char) : BlockText :=
  let join := folded && b.last = ['\n'] && !b.spaced && !isWhite c
  let between := if join then (if b.blank = [] then [' '] else []) else b.last
  { acc := b.blank.reverse ++ between.reverse ++ b.acc, spaced := isWhite c }

/-- The text of a block scalar that ends here. -/
def BlockText.close (chomp : Chomp) (b : BlockText) : List Char :=
  match chomp with
  | .strip => b.acc.reverse
  | .clip => b.acc.reverse ++ b.last
  | .keep => b.acc.reverse ++ b.last ++ b.blank

/-- Reads the lines of a block scalar; `inLine` says whether a line is open. -/
def blockLines (folded : Bool) (chomp : Chomp) (start : Mark) (indent : Nat) :
    Bool → BlockText → Source → Except Fault ScalarScan
  | _, b, [] => .ok { text := b.close chomp, rest := [] }
  | true, b, x :: rest =>
    if isBreak x.char then
      blockLines folded chomp start indent false { b with last := [x.char], blank := [] } rest
    else if x.char == endChar then .ok { text := b.close chomp, rest := x :: rest }
    else blockLines folded chomp start indent true { b with acc := x.char :: b.acc } rest
  | false, b, x :: rest =>
    let inside := x.mark.column < indent
    if inside && x.char == ' ' then blockLines folded chomp start indent false b rest
    else if inside && x.char == '\t' then .error (.inside .blockScalar start .tabIndent x.mark)
    else if isBreak x.char then
      blockLines folded chomp start indent false { b with blank := b.blank ++ [x.char] } rest
    else if x.mark.column == indent && x.char != endChar then
      let b := b.openLine folded x.char
      blockLines folded chomp start indent true { b with acc := x.char :: b.acc } rest
    else .ok { text := b.close chomp, rest := x :: rest }

/-- The indicators after `|` or `>`, in either order: chomping and indentation, which is 0
where it is left open. -/
def blockHeader (start : Mark) (s : Source) : Except Fault (Chomp × Nat × Source) :=
  let zero : Except Fault (Chomp × Nat × Source) :=
    .error (.inside .blockScalar start .zeroIndent (Source.mark s))
  match chomp? (Source.char s) with
  | some chomp =>
    let s := s.drop 1
    let c := Source.char s
    if c == '0' then .error (.inside .blockScalar start .zeroIndent (Source.mark s))
    else if c.isDigit then .ok (chomp, c.toNat - '0'.toNat, s.drop 1)
    else .ok (chomp, 0, s)
  | none =>
    let c := Source.char s
    if c == '0' then zero
    else if c.isDigit then
      let s := s.drop 1
      match chomp? (Source.char s) with
      | some chomp => .ok (chomp, c.toNat - '0'.toNat, s.drop 1)
      | none => .ok (.clip, c.toNat - '0'.toNat, s)
    else .ok (.clip, 0, s)

/-- Reads a block scalar whose indicator is the next character; its parent's content is
indented by at least `margin`. -/
def scanBlock (folded : Bool) (margin : Nat) (s : Source) : Except Fault ScalarScan := do
  let start := Source.mark s
  let (chomp, given, s) ← blockHeader start (s.drop 1)
  let s := Source.skip isWhite s
  let s := if Source.char s == '#' then Source.skip (fun c => !isStop c) s else s
  if !isStop (Source.char s) then
    throw (.inside .blockScalar start .lineTrailer (Source.mark s))
  let s := if isBreak (Source.char s) then s.drop 1 else s
  let fixed := if given == 0 then 0 else (margin - 1) + given
  let (widest, breaks, s) ← leadingLines start fixed 0 [] s
  let indent := if fixed == 0 then max widest (max margin 1) else fixed
  blockLines folded chomp start indent false { blank := breaks } s

end Provision.Yaml
