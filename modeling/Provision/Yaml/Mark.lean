/-!
# Marks and faults

A mark is a place in a text; a fault is what makes a text ill-formed, with the place where
it shows and, where there is one, the construct it shows in and where that began.

> `Fault.message`: the wording of a fault, places counted from one.
-/

namespace Provision.Yaml

/-- A place in a text, everything counted from zero. The index counts bytes, the column counts
characters. -/
structure Mark where
  index : Nat := 0
  line : Nat := 0
  column : Nat := 0
deriving DecidableEq, Repr, Inhabited

namespace Mark

/-- Whether the mark is the first column of the first line. Messages leave it out. -/
def isOrigin (m : Mark) : Bool := m.line == 0 && m.column == 0

/-- The place after a character on the same line. -/
def next (m : Mark) (c : Char) : Mark := ⟨m.index + c.utf8Size, m.line, m.column + 1⟩

/-- The place after a line break of so many bytes. -/
def nextLine (m : Mark) (bytes : Nat) : Mark := ⟨m.index + bytes, m.line + 1, 0⟩

/-- The wording of a mark after a message. -/
def suffix (m : Mark) : String :=
  if m.isOrigin then "" else s!" at line {m.line + 1} column {m.column + 1}"

end Mark

/-- What can be wrong with a text. -/
inductive Problem
  | tokenStart | entryNotAllowed | keyNotAllowed | valueNotAllowed | missingColon
  | directiveName | missingDirectiveName | directiveCharacter | lineTrailer
  | versionDot | versionLength | missingVersion | missingBlank | missingGap
  | anchorCharacter | missingAngle | missingBang | missingUri | missingOctet
  | leadingOctet | trailingOctet | zeroIndent | tabIndent | documentIndicator | streamEnd
  | unknownEscape | missingHex | escapedCode | unexpectedColon | tabInScalar
  | documentStart | versionTwice | versionUnsupported | handleTwice | handleUndefined
  | missingContent | missingDash | missingKey | missingBracket | missingBrace
deriving DecidableEq, Repr

/-- The wording of a problem. -/
def Problem.text : Problem → String
  | tokenStart => "found character that cannot start any token"
  | entryNotAllowed => "block sequence entries are not allowed in this context"
  | keyNotAllowed => "mapping keys are not allowed in this context"
  | valueNotAllowed => "mapping values are not allowed in this context"
  | missingColon => "could not find expected ':'"
  | directiveName => "found unknown directive name"
  | missingDirectiveName => "could not find expected directive name"
  | directiveCharacter => "found unexpected non-alphabetical character"
  | lineTrailer => "did not find expected comment or line break"
  | versionDot => "did not find expected digit or '.' character"
  | versionLength => "found extremely long version number"
  | missingVersion => "did not find expected version number"
  | missingBlank => "did not find expected whitespace"
  | missingGap => "did not find expected whitespace or line break"
  | anchorCharacter => "did not find expected alphabetic or numeric character"
  | missingAngle => "did not find the expected '>'"
  | missingBang => "did not find expected '!'"
  | missingUri => "did not find expected tag URI"
  | missingOctet => "did not find URI escaped octet"
  | leadingOctet => "found an incorrect leading UTF-8 octet"
  | trailingOctet => "found an incorrect trailing UTF-8 octet"
  | zeroIndent => "found an indentation indicator equal to 0"
  | tabIndent => "found a tab character where an indentation space is expected"
  | documentIndicator => "found unexpected document indicator"
  | streamEnd => "found unexpected end of stream"
  | unknownEscape => "found unknown escape character"
  | missingHex => "did not find expected hexadecimal number"
  | escapedCode => "found invalid Unicode character escape code"
  | unexpectedColon => "found unexpected ':'"
  | tabInScalar => "found a tab character that violates indentation"
  | documentStart => "did not find expected <document start>"
  | versionTwice => "found duplicate %YAML directive"
  | versionUnsupported => "found incompatible YAML document"
  | handleTwice => "found duplicate %TAG directive"
  | handleUndefined => "found undefined tag handle"
  | missingContent => "did not find expected node content"
  | missingDash => "did not find expected '-' indicator"
  | missingKey => "did not find expected key"
  | missingBracket => "did not find expected ',' or ']'"
  | missingBrace => "did not find expected ',' or '\x7d'"

/-- The constructs in which a problem can show. -/
inductive Construct
  | nextToken | simpleKey | directive | versionDirective | handleDirective
  | handleDirectiveUri | handleOfDirective | handleAfterDirective | anchor | aliasName
  | tag | tagUri | blockScalar | quotedScalar | escape | plainScalar
  | node | blockNode | flowNode | blockSequence | blockMapping | flowSequence | flowMapping
deriving DecidableEq, Repr

/-- The wording of a construct. -/
def Construct.text : Construct → String
  | nextToken => "while scanning for the next token"
  | simpleKey => "while scanning a simple key"
  | directive => "while scanning a directive"
  | versionDirective => "while scanning a %YAML directive"
  | handleDirective => "while scanning a %TAG directive"
  | handleDirectiveUri => "while parsing a %TAG directive"
  | handleOfDirective => "while scanning a tag directive"
  | handleAfterDirective => "while parsing a tag directive"
  | anchor => "while scanning an anchor"
  | aliasName => "while scanning an alias"
  | tag => "while scanning a tag"
  | tagUri => "while parsing a tag"
  | blockScalar => "while scanning a block scalar"
  | quotedScalar => "while scanning a quoted scalar"
  | escape => "while parsing a quoted scalar"
  | plainScalar => "while scanning a plain scalar"
  | node => "while parsing a node"
  | blockNode => "while parsing a block node"
  | flowNode => "while parsing a flow node"
  | blockSequence => "while parsing a block collection"
  | blockMapping => "while parsing a block mapping"
  | flowSequence => "while parsing a flow sequence"
  | flowMapping => "while parsing a flow mapping"

/-- What makes a text ill-formed. -/
inductive Fault
  | malformed (problem : Problem) (mark : Mark) (within : Option (Construct × Mark))
  /-- A control character, with the number of bytes before it. -/
  | control (offset : Nat)
  /-- An alias whose anchor has not been written before it. -/
  | unknownAnchor (mark : Mark)
deriving DecidableEq, Repr

namespace Fault

/-- A problem inside a construct. -/
def inside (c : Construct) (start : Mark) (p : Problem) (m : Mark) : Fault :=
  .malformed p m (some (c, start))

/-- A problem by itself. -/
def bare (p : Problem) (m : Mark) : Fault := .malformed p m none

/-- The wording of a fault. The construct's mark is left out where it is the problem's. -/
def message : Fault → String
  | .malformed p m within =>
    let head := p.text ++ m.suffix
    match within with
    | none => head
    | some (c, start) =>
      let place := if start.line == m.line && start.column == m.column then "" else start.suffix
      head ++ ", " ++ c.text ++ place
  | .control offset =>
    let place := if offset == 0 then "" else s!" at position {offset}"
    "control characters are not allowed" ++ place
  | .unknownAnchor m => "unknown anchor" ++ m.suffix

end Fault

end Provision.Yaml
