import Provision.Script

/-!
# Cursors

Where the reader of a script stands, the tokens that it finds there, and what can be wrong with
a script.
-/

namespace Provision.Script

/-- A token of a script. -/
inductive Token
  | word (w : Word)
  | keyword (k : String)
  | operator (s : String)
  /-- How a descriptor is opened, and which one. `tabs` says that tabs in front of the lines of
  a text do not count. -/
  | opening (number : Nat) (how : Opening) (tabs : Bool)
  | newline
  | eof

instance : Inhabited Token := ⟨.eof⟩

/-- A token as complaints name it. -/
def Token.shown : Token → String
  | word _ => "word"
  | keyword k => s!"\"{k}\""
  | operator s => s!"\"{s}\""
  | opening .. => "redirection"
  | newline => "newline"
  | eof => "end of file"

/-- Whether a token ends a list. -/
def Token.endsList : Token → Bool
  | eof => true
  | operator s => [")", ";;", ";&", ";;&"].contains s
  | keyword k => ["then", "elif", "else", "fi", "do", "done", "esac", "\x7d"].contains k
  | _ => false

/-- Whether a token may come after a question that is a word. -/
def Token.joinsQuestions : Token → Bool
  | operator s => ["&&", "||", ")"].contains s
  | _ => false

/-- The rest of a script, the number of its first line, and how many lines after that one
have been taken away already. -/
structure Cursor where
  rest : List Char
  line : Nat := 1
  taken : Nat := 0
  /-- A token that has been read and put back. -/
  held : Option Token := none
  /-- The words that stand for other texts. -/
  aliases : List (String × String) := []
  /-- The words whose texts are being read, with the length of what comes after them. -/
  replacing : List (String × Nat) := []
  /-- Whether the language has more than what is common to all shells. -/
  extended : Bool := false
  /-- The lines where texts begin that go up to the end of the script, since no line after them
  is their delimiter, and the delimiters. -/
  unended : List (Nat × String) := []

/-- What is wrong with a question between double brackets. -/
inductive Misplaced
  /-- A token where a question begins. -/
  | start (token : String)
  /-- A token in place of what an operator asks about. -/
  | argument (token operands : String)
  /-- A token between two words that is no operator. -/
  | between (token : Option String)
  /-- A token in place of a closing parenthesis. -/
  | unclosed (token : String)
  /-- A token after the last question. -/
  | after (token : Option String)
  /-- The end of the question where one begins. -/
  | nothing
  /-- The end of the script after the last question. -/
  | unfinished

/-- The wording of what is wrong with a question, which may go without saying. -/
def Misplaced.message? : Misplaced → Option String
  | start token => some s!"unexpected token \x60{token}' in conditional command"
  | argument token operands =>
    some s!"unexpected argument \x60{token}' to conditional {operands} operator"
  | between none => some "conditional binary operator expected"
  | between (some token) =>
    some s!"unexpected token \x60{token}', conditional binary operator expected"
  | unclosed token => some s!"unexpected token \x60{token}', expected \x60)'"
  | after none => some "syntax error in conditional expression"
  | after (some token) =>
    some s!"syntax error in conditional expression: unexpected token \x60{token}'"
  | nothing => none
  | unfinished => some "unexpected EOF while looking for \x60]]'"

/-- What is wrong with a script. -/
inductive Complaint
  /-- A token that cannot stand where it is, perhaps with the one that has to. -/
  | unexpected (token : Token) (expected : Option String)
  | unterminatedQuote (quote : Char)
  /-- An expansion is not closed. -/
  | missing (closing : String)
  | unterminatedOutput
  | badLoopVariable
  | badFunctionName
  | badDescriptor
  /-- A question that makes no sense, and the token where that shows, unless it is the end of
  the script. -/
  | misplaced (what : Misplaced) (near : Option String)

/-- The wording of a complaint. -/
def Complaint.message : Complaint → String
  | unexpected token expected =>
    let wanted := expected.elim "" fun e => s!" (expecting \"{e}\")"
    s!"Syntax error: {token.shown} unexpected{wanted}"
  | unterminatedQuote _ => "Syntax error: Unterminated quoted string"
  | missing closing => "Syntax error: Missing '" ++ closing ++ "'"
  | unterminatedOutput => "Syntax error: EOF in backquote substitution"
  | badLoopVariable => "Syntax error: Bad for loop variable"
  | badFunctionName => "Syntax error: Bad function name"
  | badDescriptor => "Syntax error: Bad fd number"
  | misplaced _ near =>
    let token := near.elim "end of file" fun t => s!"\"{t}\""
    s!"Syntax error: {token} unexpected"

/-- A token as it is written. -/
def Token.written : Token → String
  | word w => shownPieces w
  | keyword k => k
  | operator s => s
  | opening _ how _ => match how with
    | .read => "<"
    | .readWrite => "<>"
    | .append => ">>"
    | .write always => if always then ">|" else ">"
    | .copy => ">&"
    | .document => "<<"
    | .line => "<<<"
    | .both append => if append then "&>>" else "&>"
  | newline => "newline"
  | eof => "end of file"

/-- The wording of a complaint in the richer language. -/
def Complaint.richMessage : Complaint → String
  | unexpected .eof _ => "syntax error: unexpected end of file"
  | unexpected token _ =>
    let written := token.written
    s!"syntax error near unexpected token \x60{written}'"
  | unterminatedQuote quote => s!"unexpected EOF while looking for matching \x60{quote}'"
  | missing closing =>
    let last := String.ofList (closing.toList.take 1)
    s!"unexpected EOF while looking for matching \x60{last}'"
  | unterminatedOutput => "unexpected EOF while looking for matching \x60\x60'"
  | badLoopVariable | badFunctionName => "not a valid identifier"
  | badDescriptor => "syntax error: bad descriptor"
  | misplaced _ none => "syntax error: unexpected end of file"
  | misplaced _ (some near) => s!"syntax error near \x60{near}'"

/-- How many lines after the place of a mistake the richer language sees it. -/
def Complaint.delay : Complaint → Nat
  | unexpected .eof _ | misplaced _ none => 1
  | missing closing => if closing == ")" then 1 else 0
  | _ => 0

/-- Whether the richer language quotes the line of a mistake. -/
def Complaint.quotesLine : Complaint → Bool
  | unexpected .eof _ => false
  | unexpected _ _ | misplaced _ (some _) => true
  | _ => false

/-- What the richer language says before the wording of a complaint, and how many lines after
the place of the mistake it sees that. -/
def Complaint.preface? : Complaint → Option (Nat × String)
  | misplaced (.start token) none => (Misplaced.start token).message?.map (1, ·)
  | misplaced what _ => what.message?.map (0, ·)
  | _ => none

/-- A reader, which stays where it has found a mistake. -/
abbrev Parse := ExceptT Complaint (StateM Cursor)

/-! ## Characters -/

/-- The characters that are still to be read. -/
def peek : Parse (List Char) := Cursor.rest <$> get

/-- Goes past some characters. -/
def drop (n : Nat) : Parse Unit := modify fun c =>
  let lines := (c.rest.take n).count '\n'
  if lines = 0 then { c with rest := c.rest.drop n }
  else { c with rest := c.rest.drop n, line := c.line + lines + c.taken, taken := 0 }

/-- The longest run of characters with a property. -/
def run (p : Char → Bool) : Parse (List Char) := do
  let cs := (← peek).takeWhile p
  drop cs.length
  return cs

/-- The lines up to one that is the delimiter, without it, and the rest, if there is such a line.
Tabs in front of lines may not count. -/
def documentFrom (delimiter : List Char) (trimsTabs : Bool) :
    List (List Char) → List (List Char) × Option (List (List Char))
  | [] => ([], none)
  | l :: rest =>
    let l := if trimsTabs then l.dropWhile (· == '\t') else l
    if l == delimiter then ([], some rest)
    else
      let (inner, after) := documentFrom delimiter trimsTabs rest
      (l :: inner, after)

/-- Takes away the lines after the present one, up to a delimiter. -/
def takeDocument (delimiter : List Char) (trimsTabs : Bool) : Parse (List Char) := do
  let c ← get
  let present := c.rest.takeWhile (· != '\n')
  let unended (c : Cursor) : Cursor :=
    { c with unended := c.unended ++ [(c.line, String.ofList delimiter)] }
  match c.rest.drop present.length with
  | [] =>
    set (unended c)
    return []
  | _ :: below =>
    let lines := ((String.ofList below).splitOn "\n").map String.toList
    let (inner, after) := documentFrom delimiter trimsTabs lines
    let left := ['\n'].intercalate (after.getD [])
    let c := if after.isSome then c else unended c
    set { c with
      rest := present ++ '\n' :: left
      taken := c.taken + below.count '\n' - left.count '\n' }
    let text := ['\n'].intercalate inner
    return if (after.isSome || (c.extended && !text.isEmpty && text.getLast? != some '\n')) &&
      !inner.isEmpty then text ++ ['\n'] else text

/-! ## Classes of characters -/

/-- Whether a character ends a word. -/
def isMeta (c : Char) : Bool :=
  c == ' ' || c == '\t' || c == '\n' || c == ';' || c == '&' || c == '|' || c == '<' || c == '>' ||
    c == '(' || c == ')'

/-- Whether a name may begin with a character. -/
def isNameStart (c : Char) : Bool := c.isAlpha || c == '_'

/-- Whether a name may contain a character. -/
def isNameChar (c : Char) : Bool := c.isAlphanum || c == '_'

/-- Whether a text is a name. -/
def isName (s : String) : Bool :=
  s.toList.head?.any isNameStart && s.toList.all isNameChar

/-- The parameters that the shell sets itself. -/
def isSpecial (c : Char) : Bool := ['@', '*', '#', '?', '$', '!', '-'].contains c

/-- The words that have a meaning of their own where a command begins. -/
def keywords (extended : Bool) : List String :=
  ["if", "then", "elif", "else", "fi", "while", "until", "do", "done", "for", "in", "case",
    "esac", "\x7b", "\x7d", "!"] ++ if extended then ["[[", "function", "time"] else []

/-! ## Operators -/

/-- How an operator opens a descriptor, which one if none is said, its length, and whether tabs
do not count. -/
def opening? (extended : Bool) (cs : List Char) : Option (Opening × Nat × Nat × Bool) :=
  match cs with
  | '>' :: '>' :: _ => some (.append, 1, 2, false)
  | '>' :: '&' :: _ => some (.copy, 1, 2, false)
  | '>' :: '|' :: _ => some (.write true, 1, 2, false)
  | '>' :: _ => some (.write false, 1, 1, false)
  | '<' :: '&' :: _ => some (.copy, 0, 2, false)
  | '<' :: '>' :: _ => some (.readWrite, 0, 2, false)
  | '<' :: '<' :: '<' :: _ =>
    if extended then some (.line, 0, 3, false) else some (.document, 0, 2, false)
  | '<' :: '<' :: '-' :: _ => some (.document, 0, 3, true)
  | '<' :: '<' :: _ => some (.document, 0, 2, false)
  | '<' :: _ => some (.read, 0, 1, false)
  | '&' :: '>' :: '>' :: _ => if extended then some (.both true, 1, 3, false) else none
  | '&' :: '>' :: _ => if extended then some (.both false, 1, 2, false) else none
  | _ => none

/-- The operators between commands, longer ones before those they begin with. -/
def operator? (extended : Bool) (cs : List Char) : Option String :=
  let more := if extended then [";;&", ";;", ";&", "|&"] else [";;"]
  (more ++ ["&&", "||", ";", "&", "|", "(", ")"]).find? fun op => op.toList.isPrefixOf cs

/-- Whether a script whose output can be read under a path begins here. -/
def opensChannel (extended : Bool) : List Char → Bool
  | '<' :: '(' :: _ => extended
  | _ => false

/-- Goes past blanks, joined lines and a comment. -/
def skipBlanks : Nat → Parse Unit
  | 0 => return
  | fuel + 1 => do
    match ← peek with
    | ' ' :: _ | '\t' :: _ => drop 1; skipBlanks fuel
    | '\\' :: '\n' :: _ => drop 2; skipBlanks fuel
    | '#' :: _ => discard (run (· != '\n'))
    | _ => return

end Provision.Script
