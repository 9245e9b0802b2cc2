import Provision.Script.Invoke

/-!
# Lines of scripts

A script is read and run line after line, so that what a line says about other names of commands
counts for the lines after it. A mistake in a line ends the script there.
-/

namespace Provision.Script.Step

/-- How many lines a text has. -/
def linesOf (text : String) : Nat :=
  let parts := text.splitOn "\n"
  if parts.getLast? == some "" then parts.length - 1 else parts.length

/-- Says what is wrong with a script, in which line, and what that line is. -/
def complainAbout (line shown : Nat) (source : String) (e : Complaint) : Step Unit := do
  let s ← get
  if s.isRich then
    let origin := match s.source, s.command with
      | some file, _ => file
      | none, some "eval" => s.name ++ ": eval"
      | none, _ => if s.direct then s.name ++ ": -c" else s.name
    let message := e.richMessage
    let preface := match e.preface? with
      | some (delay, text) => s!"{origin}: line {shown + delay}: {text}\n"
      | none => ""
    let shown := shown + e.delay
    set (s.warn (preface ++ s!"{origin}: line {shown}: {message}\n"))
    if e.quotesLine then
      modify fun s => s.warn s!"{origin}: line {shown}: \x60{source}'\n"
  else
    set { s with line := line }
    modify fun s => s.complain e.message

/-- Warns of texts that only the end of the script has ended, in the line where that is. -/
def warnOfUnended (line : Nat) (found : List (Nat × String)) : Step Unit := do
  let s ← get
  if s.isRich then
    for (start, delimiter) in found do
      let reason := s!"at line {start} delimited by end-of-file (wanted \x60{delimiter}')"
      modify fun t => { t with line := line }.complain s!"warning: here-document {reason}"
    modify fun t => { t with line := s.line }

/-- Runs the lines of a script from a place on, and says whether there have been commands. Outside
of subshells, a line that has been given up does not end the script. -/
def runLines (r : Runner) (text : String) (start : Nat) :
    Nat → Bool → Cursor → Step Bool
  | 0, ran, _ => return ran
  | fuel + 1, ran, cursor => do
    let s ← get
    let aliases := if s.isRich && !s.has "expand_aliases" then [] else s.aliases.entries
    let cursor := { cursor with aliases := aliases, extended := s.isRich }
    let size := cursor.rest.length
    let (result, next) := (nextLine (20 * size + 100)).run cursor
    warnOfUnended (linesOf text) next.unended
    let next := { next with unended := [] }
    if s.has "verbose" && (s.isRich || (!s.direct && s.command != some "eval")) then
      modify fun s => s.warn (String.ofList (cursor.rest.take (size - next.rest.length)))
    match result with
    | .error e =>
      let relative := next.line + 1 - start
      complainAbout next.line relative ((text.splitOn "\n").getD (relative - 1) "") e
      setStatus 2
      throw .failed
    | .ok none => return ran
    | .ok (some .nothing) => runLines r text start fuel ran next
    | .ok (some c) =>
      tryCatch (r.command c) fun
        | .abandoned => if s.depth == 0 then return else throw .abandoned
        | e => throw e
      runLines r text start fuel true next

/-- Runs a text as a script. -/
def runText (r : Runner) (text : String) : Step Unit := do
  let s ← get
  let start := if s.isRich && s.command == some "eval" then s.line else 1
  let ran ← runLines r text start (text.length + 1) false
    { rest := text.toList, line := start }
  if !ran then setStatus 0

/-- Runs the script that comes from the standard input. The common language takes all of it at
once; in the richer one, commands can read the lines after them. -/
def runInput (r : Runner) : Nat → Nat → Step Unit
  | 0, _ => return
  | fuel + 1, line => do
    let s ← get
    match s.toProcess.available 0 with
    | .error _ => return
    | .ok text =>
      if !s.isRich then
        match s.toProcess.drain 0 with
        | .ok (text, p) =>
          set { s with toProcess := p }
          runText r text
        | .error _ => return
      else
        let aliases := if s.has "expand_aliases" then s.aliases.entries else []
        let cursor : Cursor :=
          { rest := text.toList, line := line, aliases := aliases, extended := true }
        let (result, next) := (nextLine (20 * text.length + 100)).run cursor
        set { s with toProcess := s.toProcess.advance 0 (text.length - next.rest.length) }
        warnOfUnended (line + linesOf text - 1) next.unended
        match result with
        | .error e =>
          complainAbout next.line next.line ((text.splitOn "\n").getD (next.line - line) "") e
          setStatus 2
          throw .failed
        | .ok none => return
        | .ok (some c) =>
          tryCatch (r.command c) fun
            | .abandoned => return
            | e => throw e
          runInput r fuel next.line

end Provision.Script.Step
