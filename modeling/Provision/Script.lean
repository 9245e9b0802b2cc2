/-!
# Scripts

The language of the shell: words, whose pieces are put together when a command is run, and
commands, which are combined to lists, pipelines, branches, loops and functions.
-/

namespace Provision.Script

/-- What stands in for a parameter without a value, or instead of its value. -/
inductive Fallback
  /-- The word is used where there is no value. -/
  | use
  /-- The word is used where there is no value, and kept. -/
  | keep
  /-- The word is used where there is a value. -/
  | replace
  /-- The shell ends with the word for a message where there is no value. -/
  | fail
deriving DecidableEq, Repr

/-- How a descriptor is opened. -/
inductive Opening
  | read | readWrite | append
  /-- A file is emptied, unless the shell protects files; `always` says that it does not. -/
  | write (always : Bool)
  /-- As another descriptor. -/
  | copy
  /-- To read the text of the word itself. -/
  | document
  /-- To read the text of the word and a line break. -/
  | line
  /-- A file for both outputs. -/
  | both (append : Bool)
deriving DecidableEq, Repr

/-- Which matches of a pattern are replaced. -/
inductive Extent
  | first | all | atStart | atEnd
deriving DecidableEq, Repr

/-- What comes after an arm of a choice. -/
inductive Onward
  /-- The end of the choice. -/
  | ends
  /-- The body of the next arm, whatever its patterns are. -/
  | enters
  /-- The next arm of which a pattern matches. -/
  | looks
deriving DecidableEq, Repr

/-- How a value is written again. -/
inductive Spelling
  /-- In quotes, for a shell to read. -/
  | quoted
  /-- With the meaning of its backslashes. -/
  | unescaped
  /-- As the assignment that gives the variable its value and its properties. -/
  | declared
  /-- As the letters of the properties of its variable. -/
  | properties
deriving DecidableEq, Repr

/-- Which element of a variable is meant. -/
inductive Element (α : Type)
  /-- The variable as a whole, which stands for its first element. -/
  | whole
  /-- All elements, one word each, or joined. -/
  | all (joined : Bool)
  /-- The element of an index. -/
  | at (index : α)
deriving Repr

mutual

/-- A piece of a word. -/
inductive Piece
  | text (s : String)
  /-- Pieces between quotes. -/
  | quoted (pieces : List Piece)
  /-- A parameter, and what is done with its value. -/
  | parameter (name : String) (element : Element (List Piece)) (change : Change)
  | arithmetic (body : List Piece)
  /-- What a script prints. -/
  | output (body : Command)
  /-- A path under which what a script prints can be read. -/
  | channel (body : Command)
  /-- The words between parentheses that are assigned to a variable with many elements. -/
  | elements (words : List (List Piece))
  /-- Something in braces after a dollar sign that means nothing. -/
  | meaningless (text : String)

/-- What is done with the value of a parameter. -/
inductive Change
  | same
  /-- The fallback; `empty` says that an empty value counts as none. -/
  | guarded (empty : Bool) (fallback : Fallback) (word : List Piece)
  /-- How many characters, or elements, there are. -/
  | length
  /-- Without what a pattern matches at the start, or at the end. -/
  | trimmed (fromEnd longest : Bool) (pattern : List Piece)
  /-- A part from an offset on, perhaps of a length. -/
  | slice (offset : List Piece) (size : Option (List Piece))
  /-- With a text for what a pattern matches. -/
  | replaced (extent : Extent) (pattern word : List Piece)
  /-- With other letters: upper case or lower case, all or the first one. -/
  | cased (upper all : Bool)
  /-- The value of the parameter that the value names. -/
  | named
  /-- The indices of the elements. -/
  | indices
  | spelt (how : Spelling)

/-- A question between double brackets. -/
inductive Question
  | word (w : List Piece)
  | unary (op : String) (w : List Piece)
  | binary (op : String) (a b : List Piece)
  | negated (q : Question)
  | both (a b : Question)
  | either (a b : Question)

/-- A redirection of a descriptor. -/
inductive Redirection
  | mk (number : Nat) (how : Opening) (word : List Piece)

/-- An assignment, which may add to what there is. -/
inductive Assignment
  | mk (name : String) (index : Option (List Piece)) (adds : Bool) (value : List Piece)

/-- A command. -/
inductive Command
  | simple (line : Nat) (assignments : List Assignment) (words : List (List Piece))
      (opened : List Redirection)
  | redirected (line : Nat) (body : Command) (opened : List Redirection)
  | sequence (first second : Command)
  /-- Nobody waits for its end. -/
  | background (body : Command)
  /-- The second one is run if the first one ends well. -/
  | both (first second : Command)
  /-- The second one is run unless the first one ends well. -/
  | either (first second : Command)
  | negated (body : Command)
  /-- Each one reads what the one before it prints. -/
  | pipeline (items : List Command)
  | subshell (line : Nat) (body : Command)
  | branch (condition body : Command) (otherwise : Option Command)
  /-- The first body of which a pattern matches a word, and perhaps bodies after it. -/
  | choice (line : Nat) (word : List Piece) (arms : List (List (List Piece) × Command × Onward))
  /-- A loop that goes on while its condition ends well, or until it does. -/
  | loop (untilDone : Bool) (condition body : Command)
  | each (line : Nat) (name : String) (words : List (List Piece)) (body : Command)
  /-- A loop with three expressions: at its start, before each turn, and after each turn. -/
  | counted (first condition next : List Piece) (body : Command)
  /-- Gives a command a name. -/
  | function (name : String) (body : Command)
  | ask (line : Nat) (q : Question)
  | calculate (line : Nat) (body : List Piece)
  | nothing

end

mutual

/-- A word as it is written in a script. -/
def shownPieces : List Piece → String
  | [] => ""
  | p :: rest => shownPiece p ++ shownPieces rest

/-- A piece of a word as it is written in a script. -/
def shownPiece : Piece → String
  | .text s => s
  | .quoted ps => "\"" ++ shownPieces ps ++ "\""
  | .parameter name .. => "$" ++ name
  | .arithmetic body => "$((" ++ shownPieces body ++ "))"
  | .output _ => "$(...)"
  | .channel _ => "<(...)"
  | .elements _ => "(...)"
  | .meaningless text => "$\x7b" ++ text

end

/-- A word: its pieces side by side. -/
abbrev Word := List Piece

instance : Inhabited Command := ⟨.nothing⟩

/-- A command in a line whose complaints go where its output goes. -/
def Command.withComplaints (line : Nat) (c : Command) : Command :=
  let opened : List Redirection := [.mk 2 .copy [.text "1"]]
  match c with
  | .simple line assignments words before => .simple line assignments words (before ++ opened)
  | .redirected line body before => .redirected line body (before ++ opened)
  | c => .redirected line c opened

/-- A text in front of a word. -/
def Word.add (s : String) : Word → Word
  | .text t :: rest => .text (s ++ t) :: rest
  | w => .text s :: w

/-- The text of a word without quotes and expansions. -/
def Word.plain? : Word → Option String
  | [] => some ""
  | [.text s] => some s
  | _ => none

/-- A parameter's value as it is. -/
def Piece.value (name : String) : Piece := .parameter name .whole .same

end Provision.Script
