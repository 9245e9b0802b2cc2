import Provision.Script.Cursor

/-!
# Reading scripts

Scripts are read line by line, so that a mistake in a line does not keep the lines before it
from being run. Quotes, expansions and compound commands extend a line over line breaks.

> `nextLine`: the commands of a line, or nothing at the end.
-/

namespace Provision.Script

/-! ## Words -/

/-- What surrounds the characters of a word. -/
inductive Region
  | word
  | quotes
  /-- The word of a fallback, inside quotes or not. -/
  | braces (quoted : Bool)
  /-- An expression, with some open parentheses. -/
  | arithmetic (depth : Nat)
  /-- A text that is to be read, up to its end. -/
  | document
  /-- An index up to its bracket. -/
  | index
  /-- One of the three expressions of a loop, with some open parentheses. -/
  | clause (depth : Nat)
  /-- A pattern up to a slash or a brace. -/
  | replacement (quoted : Bool)
  /-- A regular expression, with some open parentheses. -/
  | expression (depth : Nat)
deriving DecidableEq

namespace Region

/-- Whether quotes and backslashes count as between double quotes. -/
def isQuoted : Region → Bool
  | word | index | replacement _ | expression _ => false
  | quotes | arithmetic _ | document | clause _ => true
  | braces q => q

/-- Whether a backslash before a character takes its meaning from it. -/
def escapes (r : Region) (c : Char) : Bool :=
  !r.isQuoted || c == '$' || c == '\x60' || (c == '"' && r ≠ document) || c == '\\' ||
    (c == '\x7d' && match r with | braces _ => true | _ => false)

/-- Whether a character ends the region. -/
def endsAt (r : Region) (c : Char) : Bool :=
  match r with
  | word => isMeta c
  | quotes => c == '"'
  | braces _ => c == '\x7d'
  | replacement _ => c == '/' || c == '\x7d'
  | index => c == ']'
  | expression depth => c == ' ' || c == '\t' || c == '\n' || (c == ')' && depth == 0)
  | arithmetic _ | document | clause _ => false

/-- Whether the region is an expression. -/
def isArithmetic : Region → Bool
  | arithmetic _ => true
  | _ => false

/-- The region after a character that means itself. -/
def after (r : Region) (c : Char) : Region :=
  let deeper (depth : Nat) : Nat :=
    if c == '(' then depth + 1 else if c == ')' then depth - 1 else depth
  match r with
  | arithmetic depth => arithmetic (deeper depth)
  | clause depth => clause (deeper depth)
  | expression depth => expression (deeper depth)
  | r => r

end Region

/-- Whether a character has no meaning of its own in any region. -/
def isOrdinary (c : Char) : Bool :=
  isNameChar c || c == '.' || c == ',' || c == '=' || c == '-' || c == '+' || c == '%' ||
    c == '@' || c == '^' || c == ':' || c == '*' || c == '?' || c == '[' || c == '~' || c == '!' ||
    127 < c.toNat

/-- Reads a text of its own. -/
def within {α : Type} (text : List Char) (read : Parse α) : Parse α := do
  let c ← get
  match (read.run { c with rest := text, taken := 0, held := none }).1 with
  | .ok a => return a
  | .error e => throw e

/-- The text between backquotes, one level of backslashes removed. -/
def backquoted (quoted : Bool) : List Char → Option (List Char × List Char)
  | [] => none
  | '\x60' :: rest => some ([], rest)
  | '\\' :: c :: rest =>
    let removed := c == '$' || c == '\x60' || c == '\\' || (quoted && c == '"')
    (backquoted quoted rest).map fun (cs, rest) =>
      (if removed then c :: cs else '\\' :: c :: cs, rest)
  | c :: rest => (backquoted quoted rest).map fun (cs, rest) => (c :: cs, rest)

/-- The text of single quotes after a dollar sign, with the meaning of its backslashes. -/
def dollarQuoted : Nat → List Char → Option (List Char × List Char)
  | 0, _ | _, [] => none
  | _, '\'' :: rest => some ([], rest)
  | fuel + 1, '\\' :: c :: rest =>
    let plain (d : Char) : Option (List Char × List Char) :=
      (dollarQuoted fuel rest).map fun (cs, rest) => (d :: cs, rest)
    match c with
    | 'n' => plain '\n'
    | 't' => plain '\t'
    | 'r' => plain '\r'
    | 'a' => plain '\x07'
    | 'b' => plain '\x08'
    | 'e' | 'E' => plain '\x1b'
    | 'f' => plain '\x0c'
    | 'v' => plain '\x0b'
    | '\\' | '\'' | '"' | '?' => plain c
    | 'x' =>
      let isHex (d : Char) : Bool := d.isDigit || ('a' ≤ d.toLower && d.toLower ≤ 'f')
      let digits := (rest.takeWhile isHex).take 2
      let value := digits.foldl (fun n d =>
        16 * n + (if d.isDigit then d.toNat - 48 else d.toLower.toNat - 87)) 0
      (dollarQuoted fuel (rest.drop digits.length)).map fun (cs, rest) =>
        (Char.ofNat value :: cs, rest)
    | c =>
      if '0' ≤ c ∧ c ≤ '7' then
        let digits := ((c :: rest).takeWhile fun d => '0' ≤ d && d ≤ '7').take 3
        let value := digits.foldl (fun n d => 8 * n + (d.toNat - 48)) 0
        (dollarQuoted fuel ((c :: rest).drop digits.length)).map fun (cs, rest) =>
          (Char.ofNat (value % 256) :: cs, rest)
      else (dollarQuoted fuel rest).map fun (cs, rest) => ('\\' :: c :: cs, rest)
  | fuel + 1, c :: rest => (dollarQuoted fuel rest).map fun (cs, rest) => (c :: cs, rest)

/-- The fallback of an operator. -/
def fallback? (c : Char) : Option Fallback :=
  if c = '-' then some .use
  else if c = '=' then some .keep
  else if c = '+' then some .replace
  else if c = '?' then some .fail
  else none

/-- The word that ends a text to be read, and whether any of it is quoted: if so, expansions
in the text are left alone. -/
def delimiter : Word → List Char × Bool
  | .text s :: rest => let (cs, quoted) := delimiter rest; (s.toList ++ cs, quoted)
  | .quoted [.text s] :: rest => (s.toList ++ (delimiter rest).1, true)
  | .quoted [] :: rest => ((delimiter rest).1, true)
  | [] => ([], false)
  | _ => ([], true)

/-- What a pattern is taken away from: the end or the start, and as much as it can be. -/
def trimming? (cs : List Char) : Option (Bool × Bool × Nat) :=
  match cs with
  | '%' :: '%' :: _ => some (true, true, 2)
  | '%' :: _ => some (true, false, 1)
  | '#' :: '#' :: _ => some (false, true, 2)
  | '#' :: _ => some (false, false, 1)
  | _ => none

/-- Which letters become upper case or lower case. -/
def casing? (cs : List Char) : Option (Bool × Bool × Nat) :=
  match cs with
  | '^' :: '^' :: _ => some (true, true, 2)
  | '^' :: _ => some (true, false, 1)
  | ',' :: ',' :: _ => some (false, true, 2)
  | ',' :: _ => some (false, false, 1)
  | _ => none

/-- What a letter after an at sign does with a value. -/
def spelling? (letter : Char) : Option Change :=
  match letter with
  | 'Q' => some (.spelt .quoted)
  | 'E' => some (.spelt .unescaped)
  | 'A' => some (.spelt .declared)
  | 'a' => some (.spelt .properties)
  | 'U' => some (.cased true true)
  | 'u' => some (.cased true false)
  | 'L' => some (.cased false true)
  | _ => none

/-- The assignment that a word is, its name being followed by an equals sign, or in an extended
language by an index or by a plus sign in between. -/
def assignment? (extended : Bool) (w : Word) : Option Assignment :=
  match w with
  | .text s :: rest =>
    let cs := s.toList
    let name := cs.takeWhile isNameChar
    if !name.head?.any isNameStart then none
    else
      let value (cs : List Char) : Word :=
        if cs.isEmpty then rest else .text (String.ofList cs) :: rest
      let named := String.ofList name
      match cs.drop name.length with
      | '=' :: cs => some (.mk named none false (value cs))
      | '+' :: '=' :: cs => if extended then some (.mk named none true (value cs)) else none
      | '[' :: cs => if extended then indexed named cs rest else none
      | _ => none
  | _ => none
where
  /-- The assignment to an element of a variable. -/
  indexed (name : String) (cs : List Char) (rest : Word) : Option Assignment :=
    let index := cs.takeWhile (· != ']')
    match cs.drop index.length, rest with
    | ']' :: '=' :: cs, rest =>
      some (.mk name (some [.text (String.ofList index)]) false (.text (String.ofList cs) :: rest))
    | ']' :: '+' :: '=' :: cs, rest =>
      some (.mk name (some [.text (String.ofList index)]) true (.text (String.ofList cs) :: rest))
    | [], p :: .text s :: rest =>
      match s.toList with
      | ']' :: '=' :: cs =>
        let before : Word := if index.isEmpty then [p] else [.text (String.ofList index), p]
        some (.mk name (some before) false (.text (String.ofList cs) :: rest))
      | _ => none
    | _, _ => none

/-- Whether an operator asks about one word. -/
def asksOne (op : String) : Bool :=
  match op.toList with
  | ['-', c] => "abcdefghkLnoprstuvwxzGNORS".contains c
  | _ => false

/-- Whether an operator asks about two words. -/
def asksTwo (op : String) : Bool :=
  ["=", "==", "!=", "<", ">", "=~", "-nt", "-ot", "-ef", "-eq", "-ne", "-lt", "-le", "-gt",
    "-ge"].contains op

/-- How a list ends: a line at the outside; a body, which has a command at least; or an arm of a
choice, which may be empty. -/
inductive Extension
  | line | body | arm
deriving DecidableEq

/-- What may count as more than a word: line breaks go by, keywords are known, and words that
stand for other texts are replaced. -/
structure Attention where
  pastLines : Bool := false
  keywords : Bool := false
  aliases : Bool := false

/-- Where a command may begin. -/
def Attention.command : Attention := ⟨false, true, true⟩

/-- Where a command may begin, perhaps in another line. -/
def Attention.body : Attention := ⟨true, true, true⟩

/-- Puts a token back. -/
def hold (t : Token) : Parse Unit := modify fun c => { c with held := some t }

/-- Complains about a token, where another one may have been expected. -/
def unexpected {α : Type} (t : Token) (expected : Option String) : Parse α :=
  throw (.unexpected t expected)

/-- The name of a parameter in braces: a name or a number. -/
def parameterName : Parse String := do
  match ← peek with
  | c :: _ => return String.ofList (← run (if c.isDigit then Char.isDigit else isNameChar))
  | [] => return ""

/-- The two sides of a colon. -/
def halves : Word → Word × Option Word
  | [] => ([], none)
  | .text s :: rest =>
    let cs := s.toList
    let before := cs.takeWhile (· != ':')
    if before.length < cs.length then
      (if before.isEmpty then [] else [.text (String.ofList before)],
        some (if before.length + 1 < cs.length then
          .text (String.ofList (cs.drop (before.length + 1))) :: rest else rest))
    else
      let (a, b) := halves rest
      (.text s :: a, b)
  | p :: rest =>
    let (a, b) := halves rest
    (p :: a, b)

/-- The names that no function can have. -/
def reservedNames : List String :=
  ["break", "continue", "eval", "exec", "exit", "export", "readonly", "return", "set", "shift",
    "times", "trap", "unset"]

/-- What means nothing, from the text before it was read. -/
def meaningless (start : List Char) : Parse Piece := do
  let after ← peek
  return .meaningless (String.ofList (start.take (start.length - after.length)))

mutual

/-- The pieces of a region up to its end. -/
def pieces : Nat → Region → Parse Word
  | 0, _ => unexpected .eof none
  | fuel + 1, region => do
    match ← peek with
    | [] =>
      match region with
      | .word | .document | .expression _ => return []
      | .quotes => throw (.unterminatedQuote '"')
      | .braces q | .replacement q =>
        throw (if q then .unterminatedQuote '"' else .missing "\x7d")
      | .arithmetic _ | .clause _ => throw (.missing "))")
      | .index => throw (.missing "]")
    | c :: rest =>
      let literal : Parse Word := do
        drop 1
        return Word.add (String.singleton c) (← pieces fuel (region.after c))
      if region = .word && opensChannel (← get).extended (c :: rest) then
        drop 2
        let body ← enclosed fuel
        return .channel body :: (← pieces fuel region)
      else if region.endsAt c then
        match region with
        | .quotes | .braces _ | .index => drop 1
        | _ => pure ()
        return []
      else if isOrdinary c then
        let cs ← run isOrdinary
        return Word.add (String.ofList cs) (← pieces fuel region)
      else if c == '\\' then
        match rest with
        | '\n' :: _ => drop 2; pieces fuel region
        | n :: _ =>
          if region.escapes n then
            drop 2
            return .quoted [.text (String.singleton n)] :: (← pieces fuel region)
          else literal
        | [] => literal
      else if c == '\'' && !region.isQuoted then
        drop 1
        let text ← run (· != '\'')
        if (← peek).isEmpty then throw (.unterminatedQuote '\'')
        drop 1
        return .quoted (if text.isEmpty then [] else [.text (String.ofList text)])
          :: (← pieces fuel region)
      else if c == '"' && region ≠ .document && !(region.isArithmetic && !(← get).extended) then
        drop 1
        let inner ← pieces fuel .quotes
        return .quoted inner :: (← pieces fuel region)
      else if c == '$' then
        drop 1
        let p ← dollar fuel region
        return p :: (← pieces fuel region)
      else if c == '\x60' then
        drop 1
        match backquoted region.isQuoted (← peek) with
        | none => throw .unterminatedOutput
        | some (text, after) =>
          let body ← within text (list fuel .arm)
          drop ((← peek).length - after.length)
          return .output body :: (← pieces fuel region)
      else match region with
        | .arithmetic 0 =>
          if c == ')' && rest.head? == some ')' then
            drop 2
            return []
          if c == ')' && (← get).extended && !rest.isEmpty then
            unexpected (.operator ")") (some "))")
          literal
        | .clause 0 =>
          if c == ';' then
            drop 1
            return []
          else if c == ')' && rest.head? == some ')' then
            drop 2
            return []
          literal
        | _ => literal

/-- What follows a dollar sign in a region. -/
def dollar : Nat → Region → Parse Piece
  | 0, _ => unexpected .eof none
  | fuel + 1, region => do
    let extended := (← get).extended
    match ← peek with
    | '(' :: '(' :: _ =>
      let start ← get
      drop 2
      tryCatch (do return .arithmetic (← pieces fuel (.arithmetic 0))) fun e => do
        match e with
        | .unexpected (.operator ")") (some "))") =>
          set start
          drop 1
          return .output (← enclosed fuel)
        | e => throw e
    | '(' :: _ =>
      drop 1
      return .output (← enclosed fuel)
    | '\x7b' :: rest =>
      drop 1
      inBraces fuel (match region with | .arithmetic _ | .clause _ => true | r => r.isQuoted) rest
    | '[' :: _ =>
      if extended then
        drop 1
        return .arithmetic (← pieces fuel .index)
      else return .text "$"
    | '\'' :: rest =>
      if extended && !region.isQuoted then
        match dollarQuoted (rest.length + 1) rest with
        | some (cs, after) =>
          drop (1 + rest.length - after.length)
          return .quoted [.text (String.ofList cs)]
        | none => throw (.unterminatedQuote '\'')
      else return .text "$"
    | '"' :: _ =>
      if extended && !region.isQuoted then
        drop 1
        return .quoted (← pieces fuel .quotes)
      else return .text "$"
    | c :: _ =>
      if isNameStart c then return .value (String.ofList (← run isNameChar))
      else if c.isDigit || isSpecial c then
        drop 1
        return .value (String.singleton c)
      else return .text "$"
    | [] => return .text "$"

/-- The commands up to a closing parenthesis. -/
def enclosed : Nat → Parse Command
  | 0 => unexpected .eof none
  | fuel + 1 => do
    let body ← list fuel .arm
    match ← next fuel {} with
    | .operator ")" => return body
    | .eof => if (← get).extended then throw (.missing ")") else unexpected .eof (some ")")
    | t => unexpected t (some ")")

/-- A parameter in braces, whose rest is given. -/
def inBraces : Nat → Bool → List Char → Parse Piece
  | 0, _, _ => unexpected .eof none
  | fuel + 1, quoted, cs => do
    let extended := (← get).extended
    match cs with
    | '#' :: c :: rest =>
      if isNameChar c then
        drop 1
        let name ← parameterName
        let element ← (if extended then subscript fuel else pure .whole)
        match ← pieces fuel (.braces quoted) with
        | [] => return .parameter name element .length
        | _ => if extended then meaningless cs else return .parameter name element .length
      else if isSpecial c && rest.head? == some '\x7d' then
        drop 3
        return .parameter (String.singleton c) .whole .length
      else
        drop 1
        changed fuel quoted cs "#" .whole
    | '!' :: c :: rest =>
      if extended && (c == '#' || c == '@' || c == '*') && rest.head? == some '\x7d' then
        drop 3
        return .parameter (String.singleton c) .whole .named
      else if extended && isNameChar c then
        drop 1
        let name ← parameterName
        match ← subscript fuel, ← peek with
        | .all joined, '\x7d' :: _ =>
          drop 1
          return .parameter name (.all joined) .indices
        | element, '\x7d' :: _ =>
          drop 1
          return .parameter name element .named
        | _, _ =>
          discard (pieces fuel (.braces quoted))
          meaningless cs
      else
        drop 1
        changed fuel quoted cs "!" .whole
    | c :: _ =>
      if isNameChar c then
        let name ← parameterName
        changed fuel quoted cs name (← if extended then subscript fuel else pure .whole)
      else if isSpecial c then
        drop 1
        changed fuel quoted cs (String.singleton c) .whole
      else
        discard (pieces fuel (.braces quoted))
        meaningless cs
    | [] => throw (if quoted then .unterminatedQuote '"' else .missing "\x7d")

/-- The index of a parameter, if there is one. -/
def subscript : Nat → Parse (Element Word)
  | 0 => return .whole
  | fuel + 1 => do
    match ← peek with
    | '[' :: '@' :: ']' :: _ => drop 3; return .all false
    | '[' :: '*' :: ']' :: _ => drop 3; return .all true
    | '[' :: _ =>
      drop 1
      return .at (← pieces fuel .index)
    | _ => return .whole

/-- What is done with a parameter, up to the brace. -/
def changed : Nat → Bool → List Char → String → Element Word → Parse Piece
  | 0, _, _, _, _ => unexpected .eof none
  | fuel + 1, quoted, start, name, element => do
    let extended := (← get).extended
    let made (change : Change) : Parse Piece := return .parameter name element change
    let cs ← peek
    let empty := cs.head? == some ':'
    let after := if empty then cs.drop 1 else cs
    match cs, after.head?.bind fallback? with
    | '\x7d' :: _, _ =>
      drop 1
      made .same
    | _, some f =>
      drop (if empty then 2 else 1)
      made (.guarded empty f (← pieces fuel (.braces quoted)))
    | _, none =>
      match trimming? cs, casing? cs with
      | some (fromEnd, longest, size), _ =>
        drop size
        made (.trimmed fromEnd longest (← pieces fuel (.braces false)))
      | none, casing =>
        if !extended then
          discard (pieces fuel (.braces quoted))
          return (← meaningless start)
        match casing, cs with
        | some (upper, all, size), _ =>
          drop size
          discard (pieces fuel (.braces false))
          made (.cased upper all)
        | none, ':' :: _ =>
          drop 1
          let body ← pieces fuel (.braces true)
          let (offset, size) := halves body
          made (.slice offset size)
        | none, '/' :: rest =>
          let (extent, size) := match rest with
            | '/' :: _ => (Extent.all, 2)
            | '#' :: _ => (.atStart, 2)
            | '%' :: _ => (.atEnd, 2)
            | _ => (.first, 1)
          drop size
          let pattern ← pieces fuel (.replacement quoted)
          if (← peek).head? == some '/' then
            drop 1
            made (.replaced extent pattern (← pieces fuel (.braces false)))
          else
            drop 1
            made (.replaced extent pattern [])
        | none, '@' :: letter :: '\x7d' :: _ =>
          match spelling? letter with
          | some change =>
            drop 3
            made change
          | none =>
            discard (pieces fuel (.braces quoted))
            meaningless start
        | _, _ =>
          discard (pieces fuel (.braces quoted))
          meaningless start

/-- The next token, keywords and line breaks as the attention says. -/
def next : Nat → Attention → Parse Token
  | 0, _ => return .eof
  | fuel + 1, attention => do
    let t ← token fuel
    match t with
    | .newline => if attention.pastLines then next fuel attention else return t
    | .word w =>
      let c ← get
      match w.plain? with
      | none => return t
      | some s =>
        if attention.keywords && (keywords c.extended).contains s then return .keyword s
        else if attention.aliases then
          let inUse := c.replacing.any fun e => e.1 == s && e.2 < c.rest.length
          match if inUse then none else c.aliases.find? fun e => e.1 == s with
          | some (_, text) =>
            set { c with
              rest := text.toList ++ c.rest, replacing := (s, c.rest.length) :: c.replacing }
            next fuel attention
          | none => return t
        else return t
    | t => return t

/-- The next token as it stands. -/
def token : Nat → Parse Token
  | 0 => return .eof
  | fuel + 1 => do
    if let some t := (← get).held then
      modify fun c => { c with held := none }
      return t
    skipBlanks ((← peek).length + 1)
    let extended := (← get).extended
    match ← peek with
    | [] => return .eof
    | '\n' :: _ =>
      drop 1
      return .newline
    | c :: rest =>
      let digits := (c :: rest).takeWhile Char.isDigit
      let after := (c :: rest).drop digits.length
      let numbered := (digits.length == 1 || (extended && 1 < digits.length)) &&
        (after.head? == some '<' || after.head? == some '>')
      let opens := if numbered then opening? extended after
        else if opensChannel extended (c :: rest) then none
        else opening? extended (c :: rest)
      match opens, operator? extended (c :: rest) with
      | some (how, usual, size, tabs), _ =>
        drop (size + if numbered then digits.length else 0)
        let number := if numbered then digits.foldl (fun n d => 10 * n + (d.toNat - 48)) 0
          else usual
        return .opening number how tabs
      | none, some op =>
        drop op.length
        return .operator op
      | none, none =>
        let w ← pieces fuel .word
        match w, ← peek with
        | [.text s], '(' :: _ =>
          if extended && s.endsWith "=" && (assignment? true w).isSome then
            drop 1
            return .word [.text s, .elements (← elements fuel)]
          else return .word w
        | w, _ => return .word w

/-- Words up to a closing parenthesis. -/
def elements : Nat → Parse (List Word)
  | 0 => return []
  | fuel + 1 => do
    match ← next fuel ⟨true, false, false⟩ with
    | .word w => return w :: (← elements fuel)
    | .operator ")" => return []
    | t => unexpected t none

/-- The redirection after its operator. -/
def redirection : Nat → Nat → Opening → Bool → Parse Redirection
  | 0, _, _, _ => unexpected .eof none
  | fuel + 1, n, how, tabs => do
    match ← next fuel {} with
    | .word w =>
      if how = .document then
        let (ending, verbatim) := delimiter w
        let text ← takeDocument ending tabs
        let text ← if verbatim then pure [.quoted [.text (String.ofList text)]]
          else within text (pieces fuel .document)
        return .mk n how text
      return .mk n how w
    | t => unexpected t none

/-- The redirections that come next. -/
def redirections : Nat → Parse (List Redirection)
  | 0 => return []
  | fuel + 1 => do
    match ← next fuel .command with
    | .opening number how tabs =>
      let r ← redirection fuel number how tabs
      return r :: (← redirections fuel)
    | t =>
      hold t
      return []

/-- The rest of a simple command. -/
def simple : Nat → Nat → List Assignment → List Word → List Redirection → Parse Command
  | 0, _, _, _, _ => unexpected .eof none
  | fuel + 1, line, assignments, words, opened => do
    let extended := (← get).extended
    match ← next fuel { aliases := words.isEmpty } with
    | .word w =>
      match if words.isEmpty then assignment? extended w else none with
      | some a => simple fuel line (assignments ++ [a]) words opened
      | none => simple fuel line assignments (words ++ [w]) opened
    | .opening number how tabs =>
      simple fuel line assignments words (opened ++ [← redirection fuel number how tabs])
    | .operator "(" =>
      match words, assignments, opened with
      | [w], [], [] =>
        match ← next fuel {} with
        | .operator ")" =>
          let name := w.plain?.getD ""
          if !isName name && !(extended && name ≠ "") then throw .badFunctionName
          if reservedNames.contains name then throw .badFunctionName
          let t ← next fuel .body
          match t with
          | .word _ => if extended then unexpected t none
          | _ => pure ()
          return .function name (← command fuel t)
        | t => unexpected t (some ")")
      | _, _, _ =>
        hold (.operator "(")
        return .simple line assignments words opened
    | t =>
      hold t
      return .simple line assignments words opened

/-- A branch after `if` or `elif`, up to its end. -/
def branch : Nat → Parse Command
  | 0 => unexpected .eof none
  | fuel + 1 => do
    let condition ← list fuel .body
    expect fuel "then"
    let body ← list fuel .body
    match ← next fuel .command with
    | .keyword "elif" => return .branch condition body (some (← branch fuel))
    | .keyword "else" =>
      let otherwise ← list fuel .body
      expect fuel "fi"
      return .branch condition body (some otherwise)
    | .keyword "fi" => return .branch condition body none
    | t => unexpected t (some "fi")

/-- Goes past a keyword. -/
def expect : Nat → String → Parse Unit
  | 0, _ => unexpected .eof none
  | fuel + 1, word => do
    match ← next fuel .command with
    | .keyword k => if k == word then return else unexpected (.keyword k) (some word)
    | t => unexpected t (some word)

/-- The words of a loop over words, up to the end of the line. -/
def loopWords : Nat → Parse (List Word)
  | 0 => return []
  | fuel + 1 => do
    match ← next fuel {} with
    | .word w => return w :: (← loopWords fuel)
    | .newline | .operator ";" => return []
    | t => unexpected t none

/-- The patterns of an arm up to the parenthesis after them, the first token being given. -/
def patterns : Nat → Token → Parse (List Word)
  | 0, _ => unexpected .eof none
  | fuel + 1, t => do
    let w := match t with
      | .word w => w
      | .keyword k => [.text k]
      | _ => []
    match t with
    | .word _ | .keyword _ => pure ()
    | t => if (← get).extended then unexpected t none
    match ← next fuel {} with
    | .operator "|" => return w :: (← patterns fuel (← next fuel {}))
    | .operator ")" => return [w]
    | t => unexpected t (some ")")

/-- The arms of a choice up to its end. -/
def choices : Nat → Parse (List (List Word × Command × Onward))
  | 0 => unexpected .eof none
  | fuel + 1 => do
    match ← next fuel ⟨true, true, false⟩ with
    | .keyword "esac" => return []
    | t =>
      let first ← (match t with
        | .operator "(" => next fuel {}
        | t => pure t)
      let ps ← patterns fuel first
      let body ← list fuel .arm
      match ← next fuel ⟨true, true, false⟩ with
      | .keyword "esac" => return [(ps, body, .ends)]
      | .operator ";;" => return (ps, body, .ends) :: (← choices fuel)
      | .operator ";&" => return (ps, body, .enters) :: (← choices fuel)
      | .operator ";;&" => return (ps, body, .looks) :: (← choices fuel)
      | t => unexpected t (some ";;")

/-- A command without what joins it to others, its first token being given. -/
def command : Nat → Token → Parse Command
  | 0, _ => unexpected .eof none
  | fuel + 1, t => do
    let extended := (← get).extended
    let line := (← get).line
    let compound (c : Command) : Parse Command := do
      let opened ← redirections fuel
      return if opened.isEmpty then c else .redirected line c opened
    let turns (c : Parse Command) : Parse Command := do
      let body ← c
      compound body
    match t with
    | .keyword "if" => do compound (← branch fuel)
    | .keyword "while" | .keyword "until" => do
      let condition ← list fuel .body
      expect fuel "do"
      let body ← list fuel .body
      expect fuel "done"
      let untilDone := match t with | .keyword k => k == "until" | _ => false
      compound (.loop untilDone condition body)
    | .keyword "for" => turns (forLoop fuel line)
    | .keyword "case" => do
      match ← next fuel {} with
      | .word w =>
        match ← next fuel .body with
        | .keyword "in" => compound (.choice line w (← choices fuel))
        | t => unexpected t (some "in")
      | t => unexpected t (some "word")
    | .operator "(" => do
      if extended && (← peek).head? == some '(' then
        drop 1
        let body ← pieces fuel (.arithmetic 0)
        compound (.calculate line body)
      else
        let body ← list fuel .body
        match ← next fuel .command with
        | .operator ")" => compound (.subshell line body)
        | t => unexpected t (some ")")
    | .keyword "\x7b" => do
      let body ← list fuel .body
      expect fuel "\x7d"
      compound body
    | .keyword "[[" => do
      let q ← question fuel
      match ← next fuel ⟨true, false, false⟩ with
      | .word [.text "]]"] => compound (.ask line q)
      | .word w => throw (.misplaced (.after none) (some (shownPieces w)))
      | .eof => throw (.misplaced .unfinished none)
      | t => throw (.misplaced (.after (some t.written)) (some t.written))
    | .keyword "function" => do
      match ← next fuel {} with
      | .word w =>
        let t ← next fuel .body
        match t with
        | .operator "(" =>
          match ← next fuel {} with
          | .operator ")" =>
            return .function (w.plain?.getD "") (← command fuel (← next fuel .body))
          | t => unexpected t none
        | t => return .function (w.plain?.getD "") (← command fuel t)
      | t => unexpected t none
    | .keyword "time" => pipeline fuel (← next fuel .command)
    | .word _ | .opening .. => do
      hold t
      simple fuel line [] [] []
    | t => unexpected t none

/-- A loop over words, or over what is calculated. -/
def forLoop : Nat → Nat → Parse Command
  | 0, _ => unexpected .eof none
  | fuel + 1, line => do
    let extended := (← get).extended
    let turn (c : Command → Command) : Parse Command := do
      match ← next fuel .body with
      | .keyword "do" =>
        let body ← list fuel .body
        expect fuel "done"
        return c body
      | .keyword "\x7b" =>
        if !extended then unexpected (.keyword "\x7b") (some "do")
        let body ← list fuel .body
        expect fuel "\x7d"
        return c body
      | t => unexpected t (some "do")
    match ← next fuel {} with
    | .word w =>
      let name := w.plain?.getD ""
      if !isName name then throw .badLoopVariable
      match ← next fuel .body with
      | .keyword "in" =>
        let words ← loopWords fuel
        turn (.each line name words)
      | .operator ";" => turn (.each line name [[.quoted [.value "@"]]])
      | t =>
        hold t
        turn (.each line name [[.quoted [.value "@"]]])
    | .operator "(" =>
      if extended && (← peek).head? == some '(' then
        drop 1
        let first ← pieces fuel (.clause 0)
        let condition ← pieces fuel (.clause 0)
        let step ← pieces fuel (.clause 0)
        match ← next fuel {} with
        | .operator ";" => pure ()
        | t => hold t
        turn (.counted first condition step)
      else throw .badLoopVariable
    | _ => throw .badLoopVariable

/-- A question between double brackets. -/
def question : Nat → Parse Question
  | 0 => unexpected .eof none
  | fuel + 1 => do
    let first ← conjunction fuel
    match ← next fuel ⟨true, false, false⟩ with
    | .operator "||" => return .either first (← question fuel)
    | t =>
      hold t
      return first

/-- Questions that all have to be true. -/
def conjunction : Nat → Parse Question
  | 0 => unexpected .eof none
  | fuel + 1 => do
    let first ← singleQuestion fuel
    match ← next fuel ⟨true, false, false⟩ with
    | .operator "&&" => return .both first (← conjunction fuel)
    | t =>
      hold t
      return first

/-- A question without what joins it to others. -/
def singleQuestion : Nat → Parse Question
  | 0 => unexpected .eof none
  | fuel + 1 => do
    match ← next fuel ⟨true, false, false⟩ with
    | .operator "(" =>
      let q ← question fuel
      match ← next fuel ⟨true, false, false⟩ with
      | .operator ")" => return q
      | t => throw (.misplaced (.unclosed t.written) (some t.written))
    | .word [.text "!"] => return .negated (← singleQuestion fuel)
    | .word [.text "]]"] => throw (.misplaced .nothing (some "]]"))
    | .word [.text op] =>
      if asksOne op then return .unary op (← operand fuel op "unary")
      comparison fuel [.text op]
    | .word w => comparison fuel w
    | .eof => throw (.misplaced (.start "EOF") none)
    | t => throw (.misplaced (.start t.written) (some t.written))

/-- A comparison whose first side is given, or that side alone. -/
def comparison : Nat → Word → Parse Question
  | 0, _ => unexpected .eof none
  | fuel + 1, w => do
    let second (op : String) : Parse Question := do
      if op == "=~" then
        skipBlanks ((← peek).length + 1)
        match ← pieces fuel (.expression 0) with
        | [.text "]]"] => throw (.misplaced (.argument "]]" "binary") (some "]]"))
        | x => return .binary op w x
      return .binary op w (← operand fuel op "binary")
    match ← next fuel {} with
    | .opening _ .read _ => second "<"
    | .opening _ (.write false) _ => second ">"
    | .word x =>
      match x.plain? with
      | some "]]" =>
        hold (.word x)
        return .word w
      | some op =>
        if asksTwo op then second op else throw (.misplaced (.between none) (some op))
      | none => throw (.misplaced (.between none) (some (shownPieces x)))
    | .newline | .eof =>
      throw (.misplaced (.between (some "newline")) (some (shownPieces w)))
    | t =>
      if t.joinsQuestions then
        hold t
        return .word w
      throw (.misplaced (.between (some t.written)) (some t.written))

/-- The word that an operator asks about, which is the last word or the only one. -/
def operand : Nat → String → String → Parse Word
  | 0, _, _ => unexpected .eof none
  | fuel + 1, op, operands => do
    match ← next fuel {} with
    | .word [.text "]]"] => throw (.misplaced (.argument "]]" operands) (some "]]"))
    | .word x => return x
    | .newline | .eof => throw (.misplaced (.argument "newline" operands) (some op))
    | t => throw (.misplaced (.argument t.written operands) (some t.written))

/-- A pipeline, its first token being given. -/
def pipeline : Nat → Token → Parse Command
  | 0, _ => unexpected .eof none
  | fuel + 1, t => do
    match t with
    | .keyword "!" =>
      let t ← next fuel .command
      if (← get).extended then return .negated (← pipeline fuel t)
      return .negated (← piped fuel (← command fuel t))
    | t => piped fuel (← command fuel t)

/-- Further commands of a pipeline. -/
def piped : Nat → Command → Parse Command
  | 0, c => return c
  | fuel + 1, c => do
    match ← next fuel {} with
    | .operator "|" =>
      let second ← command fuel (← next fuel .body)
      match ← piped fuel second with
      | .pipeline items => return .pipeline (c :: items)
      | d => return .pipeline [c, d]
    | .operator "|&" =>
      hold (.operator "|")
      piped fuel (c.withComplaints (← get).line)
    | t =>
      hold t
      return c

/-- Further pipelines after a command. -/
def joined : Nat → Command → Parse Command
  | 0, c => return c
  | fuel + 1, c => do
    match ← next fuel {} with
    | .operator "&&" => joined fuel (.both c (← pipeline fuel (← next fuel .body)))
    | .operator "||" => joined fuel (.either c (← pipeline fuel (← next fuel .body)))
    | t =>
      hold t
      return c

/-- The commands of a list inside another command. -/
def list : Nat → Extension → Parse Command
  | 0, _ => unexpected .eof none
  | fuel + 1, extension => do
    let t ← next fuel (if extension = .line then .command else .body)
    match t with
    | .newline => return .nothing
    | .eof =>
      hold .eof
      return .nothing
    | t =>
      if extension = .arm && t.endsList then
        hold t
        return .nothing
      listFrom fuel extension t

/-- The commands of a list from a token on. -/
def listFrom : Nat → Extension → Token → Parse Command
  | 0, _, _ => unexpected .eof none
  | fuel + 1, extension, t => do
    let c ← joined fuel (← pipeline fuel t)
    let further (c : Command) : Parse Command := do
      let t ← next fuel (if extension = .line then .command else .body)
      match t with
      | .newline => return c
      | .eof =>
        hold .eof
        return c
      | t =>
        if extension ≠ .line && t.endsList then
          hold t
          return c
        return .sequence c (← listFrom fuel extension t)
    match ← next fuel {} with
    | .operator "&" => further (.background c)
    | .operator ";" => further c
    | .newline =>
      hold .newline
      further c
    | .eof =>
      hold .eof
      return c
    | t =>
      if extension = .line then unexpected t none
      hold t
      return c

end

/-- The commands of the next line, or none at the end. An empty line has no commands. -/
def nextLine (fuel : Nat) : Parse (Option Command) := do
  match ← next fuel .command with
  | .eof => return none
  | .newline => return some .nothing
  | t => return some (← listFrom fuel .line t)

end Provision.Script
