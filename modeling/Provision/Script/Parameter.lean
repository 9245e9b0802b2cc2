import Provision.Script.Redirect

/-!
# Parameters

What a parameter stands for: nothing, a text, or many texts, which become one where they have
to. Parts of the texts can be taken, and letters changed.
-/

namespace Provision.Script

/-- What a parameter stands for. -/
inductive Content
  | nothing
  | text (s : String)
  /-- Many texts, which are one word each, or joined. -/
  | many (items : List String) (joined : Bool)

namespace Content

/-- Texts side by side in one text. -/
def joint (s : Session) (joined : Bool) : String :=
  if s.isRich && !joined then " " else s.joint

/-- What is left of a content where there can be only one text. -/
def single (s : Session) : Content → String
  | nothing => ""
  | text t => t
  | many items joined => (joint s joined).intercalate items

/-- Whether there is a value. -/
def isSet : Content → Bool
  | nothing => false
  | text _ => true
  | many items _ => !items.isEmpty

/-- Whether nothing is left of a content. -/
def isEmpty : Content → Bool
  | nothing => true
  | text t => t.isEmpty
  | many items _ => items.all String.isEmpty && items.length < 2

/-- Does something with each text. -/
def map (f : String → String) : Content → Content
  | nothing => nothing
  | text t => text (f t)
  | many items joined => many (items.map f) joined

/-- The atoms of a content. -/
def atoms (s : Session) (m : Setting) : Content → List Atom
  | nothing => []
  | text t => m.valued t
  | many items joined =>
    if !m.splits || (m.quoted && joined) then m.valued ((joint s joined).intercalate items)
    else if m.quoted then
      [Atom.ends].intercalate (items.map fun t => .quotes :: m.valued t)
    else
      let between : List Atom := match s.joint.toList with
        | [c] => if s.isRich && !(c == ' ' || c == '\t' || c == '\n') then [.loose c] else [.breaks]
        | _ => [.breaks]
      between.intercalate (items.map m.valued)

end Content

namespace Session

/-- What a parameter stands for. -/
def content (s : Session) (name : String) : Content :=
  let text? (t : Option String) : Content := t.elim .nothing .text
  match name with
  | "@" => .many s.parameters false
  | "*" => .many s.parameters true
  | "#" => .text (toString s.parameters.length)
  | "?" => .text (toString s.status)
  | "$" => .text (toString s.self)
  | "!" => text? (s.last.map toString)
  | "-" => .text (Step.optionLetters s)
  | "0" => .text s.name
  | name =>
    if name.toList.all Char.isDigit then
      match Tool.nat? name with
      | some 0 => .text s.name
      | some n => text? s.parameters[n - 1]?
      | none => .nothing
    else if !s.isRich then text? (s.text? name)
    else match name with
      | "FUNCNAME" => text? s.calls.head?
      | "PIPESTATUS" => text? (s.pipe.head?.map toString)
      | "BASHPID" => .text (toString s.number)
      | "BASH_SUBSHELL" => .text (toString s.depth)
      | "SECONDS" => .text (toString (s.waited / 1000))
      | name => text? (s.text? name)

/-- All elements of a variable, with their indices. -/
def elements (s : Session) (name : String) : List (String × String) :=
  let numbered (l : List String) : List (String × String) :=
    l.zipIdx.map fun e => (toString e.2, e.1)
  match name with
  | "FUNCNAME" => numbered s.calls
  | "PIPESTATUS" => numbered (s.pipe.map toString)
  | name => match (s.bindings.get? name).bind Variable.value with
    | some (.items es) => es.map fun e => (toString e.1, e.2)
    | some (.entries es) => listed es
    | some (.text t) => [("0", t)]
    | none => []

end Session

/-! ## Parts -/

/-- A part of a list from an offset on, which counts from the end if it is negative. -/
def partOf {α : Type} (l : List α) (offset : Int) (size : Option Int) : Option (List α) :=
  let length : Int := l.length
  let start := if offset < 0 then length + offset else offset
  if start < 0 || length < start then some []
  else
    let stop := match size with
      | none => length
      | some n => if n < 0 then length + n else min length (start + n)
    if stop < start then none
    else some ((l.drop start.toNat).take (stop - start).toNat)

/-- A text with other letters: all of them, or the first one. -/
def cased (upper all : Bool) (t : String) : String :=
  let change (c : Char) : Char := if upper then c.toUpper else c.toLower
  if all then String.ofList (t.toList.map change)
  else match t.toList with
    | [] => ""
    | c :: cs => String.ofList (change c :: cs)

/-- A text with something else for what a pattern matches. -/
def replacedText (extent : Extent) (glob : Glob) (new : List Char → List Char) (t : String) :
    String :=
  let cs := t.toList
  match extent with
  | .first => String.ofList (glob.replaced new false cs)
  | .all => String.ofList (glob.replaced new true cs)
  | .atStart =>
    let rest := glob.trimmed false true cs
    let found := cs.take (cs.length - rest.length)
    if found.isEmpty && !glob.isMatch [] then t else String.ofList (new found ++ rest)
  | .atEnd =>
    let rest := glob.trimmed true true cs
    let found := cs.drop rest.length
    if found.isEmpty && !glob.isMatch [] then t else String.ofList (rest ++ new found)

end Provision.Script
