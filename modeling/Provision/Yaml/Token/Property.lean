import Provision.Yaml.Token

/-!
# Scanning directives, anchors, aliases and tags

The words of a text that begin with `%`, `&`, `*` and `!`. Tag suffixes may hold escaped
bytes, `%` and two hexadecimal digits, that have to spell well-formed UTF-8 lead and
continuation bytes one character at a time.

Mirrors the scanner of the YAML library for directives, anchors and tags.
-/

namespace Provision.Yaml

/-- Whether a character may occur in a tag's suffix; in a tag between angle brackets and in
a directive, commas and square brackets may too. -/
def isUriChar (wide : Bool) (c : Char) : Bool :=
  isWordChar c || c == ';' || c == '/' || c == '?' || c == ':' || c == '@' || c == '&' ||
    c == '=' || c == '+' || c == '$' || c == '.' || c == '%' || c == '!' || c == '~' ||
    c == '*' || c == '\'' || c == '(' || c == ')' ||
    (wide && (c == ',' || c == '[' || c == ']'))

/-- How many bytes a UTF-8 character has that begins with the byte. -/
def octetWidth (b : Nat) : Nat :=
  if b < 0x80 then 1
  else if b / 32 = 6 then 2
  else if b / 16 = 14 then 3
  else if b / 8 = 30 then 4
  else 0

/-- Reads the bytes of a suffix, reversed in `acc`. `owed` continuation bytes have to follow
as escapes, and `passed` characters of an escape have been read ahead. -/
def uriFrom (within : Construct) (start : Mark) (wide : Bool) :
    Nat → Nat → List UInt8 → Source → Except Fault (List UInt8 × Source)
  | _, _, acc, [] => .ok (acc.reverse, [])
  | passed + 1, owed, acc, _ :: rest => uriFrom within start wide passed owed acc rest
  | 0, owed, acc, x :: rest =>
    let fault (p : Problem) : Except Fault (List UInt8 × Source) :=
      .error (.inside within start p x.mark)
    if x.char == '%' then
      match hexValue? (Source.char rest), hexValue? (Source.charAt rest 1) with
      | some high, some low =>
        let b := 16 * high + low
        let width := octetWidth b
        if owed = 0 then
          if width = 0 then fault .leadingOctet
          else uriFrom within start wide 2 (width - 1) (b.toUInt8 :: acc) rest
        else if b / 64 = 2 then uriFrom within start wide 2 (owed - 1) (b.toUInt8 :: acc) rest
        else fault .trailingOctet
      | _, _ => fault .missingOctet
    else if owed ≠ 0 then fault .missingOctet
    else if isUriChar wide x.char then
      uriFrom within start wide 0 0 (x.char.toNat.toUInt8 :: acc) rest
    else .ok (acc.reverse, x :: rest)

/-- Reads a suffix that goes on from `head`, whose leading `!` does not belong to it. The
suffix of a bare handle may be empty. -/
def scanUri (within : Construct) (start : Mark) (wide : Bool) (head : List Char) (s : Source) :
    Except Fault (List UInt8 × Source) := do
  let (bytes, rest) ← uriFrom within start wide 0 0 [] s
  if bytes.isEmpty && head.isEmpty then
    throw (.inside within start .missingUri (Source.mark rest))
  return ((head.drop 1).map (·.toNat.toUInt8) ++ bytes, rest)

/-- Reads a handle: `!`, `!word` or `!word!`. In a directive only the first and the last are
handles. -/
def scanHandle (inDirective : Bool) (start : Mark) (s : Source) :
    Except Fault (List Char × Source) := do
  if Source.char s != '!' then
    let within := if inDirective then Construct.handleOfDirective else .tag
    throw (.inside within start .missingBang (Source.mark s))
  let (word, rest) := Source.run isWordChar (s.drop 1)
  if Source.char rest == '!' then return ('!' :: word ++ ['!'], rest.drop 1)
  if inDirective && !word.isEmpty then
    throw (.inside .handleAfterDirective start .missingBang (Source.mark rest))
  return ('!' :: word, rest)

/-- Reads a tag: `!<suffix>`, `!word!suffix`, `!!suffix`, `!suffix` or `!`. The tag `!` has
no handle, and a suffix that begins with `NUL` counts as none. -/
def scanTag (flow : Bool) (s : Source) : Except Fault (Placed × Source) := do
  let start := Source.mark s
  let (handle, suffix, rest) ← (do
    if Source.charAt s 1 == '<' then
      let (suffix, rest) ← scanUri .tagUri start true [] (s.drop 2)
      if Source.char rest != '>' then
        throw (.inside .tag start .missingAngle (Source.mark rest))
      return ("", suffix, rest.drop 1)
    else
      let (handle, rest) ← scanHandle false start s
      if 1 < handle.length && handle.getLast? == some '!' then
        let (suffix, rest) ← scanUri .tagUri start false [] rest
        return (String.ofList handle, suffix, rest)
      else
        let (suffix, rest) ← scanUri .tagUri start false handle rest
        return if suffix.head?.all (· == 0) then ("", ['!'.toNat.toUInt8], rest)
          else ("!", suffix, rest)
    : Except Fault (String × List UInt8 × Source))
  let c := Source.char rest
  if !(flow && c == ',') && !isGap c then
    throw (.inside .tag start .missingGap (Source.mark rest))
  return (.point (.tag handle suffix) start, rest)

/-- Reads an anchor or an alias. -/
def scanName (isAlias : Bool) (s : Source) : Except Fault (Placed × Source) := do
  let start := Source.mark s
  let (word, rest) := Source.run isWordChar (s.drop 1)
  let c := Source.char rest
  let ends := isGap c || c == '?' || c == ':' || c == ',' || c == ']' || c == '\x7d' ||
    c == '%' || c == '@' || c == '\x60'
  if word.isEmpty || !ends then
    let within := if isAlias then Construct.aliasName else .anchor
    throw (.inside within start .anchorCharacter (Source.mark rest))
  let name := String.ofList word
  return (.point (if isAlias then .aliasName name else .anchor name) start, rest)

/-- Reads a number of at most nine digits. -/
def scanVersionNumber (start : Mark) (s : Source) : Except Fault (Nat × Source) := do
  let (digits, rest) := Source.run Char.isDigit s
  if 9 < digits.length then
    throw (.inside .versionDirective start .versionLength (Source.mark (s.drop 9)))
  if digits.isEmpty then
    throw (.inside .versionDirective start .missingVersion (Source.mark rest))
  return (Nat.ofDigitChars 10 digits 0, rest)

/-- Reads a directive together with the line it stands on. -/
def scanDirective (s : Source) : Except Fault (Placed × Source) := do
  let start := Source.mark s
  let (name, rest) := Source.run isWordChar (s.drop 1)
  if name.isEmpty then
    throw (.inside .directive start .missingDirectiveName (Source.mark rest))
  if !isGap (Source.char rest) then
    throw (.inside .directive start .directiveCharacter (Source.mark rest))
  let (token, rest) ← (
    if name = ['Y', 'A', 'M', 'L'] then do
      let (major, rest) ← scanVersionNumber start (Source.skip isWhite rest)
      if Source.char rest != '.' then
        throw (.inside .versionDirective start .versionDot (Source.mark rest))
      let (minor, rest) ← scanVersionNumber start (rest.drop 1)
      return (Token.versionDirective major minor, rest)
    else if name = ['T', 'A', 'G'] then do
      let (handle, rest) ← scanHandle true start (Source.skip isWhite rest)
      if !isWhite (Source.char rest) then
        throw (.inside .handleDirective start .missingBlank (Source.mark rest))
      let (stem, rest) ← scanUri .handleDirectiveUri start true [] (Source.skip isWhite rest)
      if !isGap (Source.char rest) then
        throw (.inside .handleDirective start .missingGap (Source.mark rest))
      return (Token.handleDirective (String.ofList handle) stem, rest)
    else throw (.inside .directive start .directiveName (Source.mark rest))
    : Except Fault (Token × Source))
  let rest := Source.skip isWhite rest
  let rest := if Source.char rest == '#' then Source.skip (fun c => !isStop c) rest else rest
  if !isStop (Source.char rest) then
    throw (.inside .directive start .lineTrailer (Source.mark rest))
  let rest := if isBreak (Source.char rest) then rest.drop 1 else rest
  return (.point token start, rest)

end Provision.Yaml
