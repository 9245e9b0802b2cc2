import Provision.Script.Lines
import Provision.Regex.Read

/-!
# Compound commands

Commands that consist of others: lists, pipelines, branches, loops and subshells, and the
questions and calculations of the richer language.
-/

namespace Provision.Script.Step

/-! ## Commands side by side -/

/-- Runs commands in subshells of their own, each reading what the one before it prints, and
tells their statuses. -/
def runStages (r : Runner) (input : Option Nat) : List Command → Step (List Nat)
  | [] => return []
  | c :: rest => do
    let entered (t : Session) : Session := match input with
      | some i => { t with toProcess := t.toProcess.redirect 0 (some i) }
      | none => t
    if rest.isEmpty then
      let n ← isolated r entered (r.command c)
      return [n]
    else
      let s ← get
      let (p, i) := s.toProcess.add (.buffer "")
      set { s with toProcess := p }
      let change (t : Session) : Session :=
        let t := entered t
        { t with toProcess := t.toProcess.redirect 1 (some i) }
      let n ← isolated r change (r.command c)
      return n :: (← runStages r (some i) rest)

/-- Runs a pipeline. -/
def runPipeline (r : Runner) (items : List Command) : Step Unit := do
  let ended ← runStages r none items
  let rich := (← get).isRich
  let last ← (ended.drop (ended.length - 1)).mapM conclude
  let statuses ← (if rich then pure ((ended.take (ended.length - 1)).map Signal.shown ++ last)
    else do return (← (ended.take (ended.length - 1)).mapM conclude) ++ last)
  let s ← get
  let failed := statuses.filter (· != 0)
  let status := if s.has "pipefail" then failed.getLast?.getD 0 else statuses.getLast?.getD 0
  set { s with status := status, pipe := statuses }
  settle r

/-- Runs a command that nobody waits for. If it spends time, it is put off. -/
def runBackground (r : Runner) (body : Command) : Step Unit := do
  let s ← get
  let (p, i) := s.toProcess.add .null
  let p := p.redirect 0 (some i)
  let change (t : Session) : Session :=
    { t with toProcess := t.toProcess.redirect 0 (some i), tested := false }
  set { s with toProcess := { p with descriptors := s.descriptors } }
  let status ← isolated r change (r.command body)
  let t ← get
  let job : Job := { process := s.next, status := status, ends := t.waited }
  if s.waited < t.waited then
    let later : Deferred :=
      { body := body, bindings := s.bindings, parameters := s.parameters
        descriptors := p.descriptors, here := s.here, directory := s.directory }
    let streams := s.streams.push .null
    set { s with
      streams := streams, next := s.next + 1, last := some s.next, status := 0
      jobs := s.jobs ++ [{ job with later := some later }] }
  else
    set { t with last := some s.next, status := 0, jobs := s.jobs ++ [job] }

/-! ## Loops -/

/-- Runs a body as long as a condition says so. The status is that of the last turn. -/
def runLoop (r : Runner) (untilDone : Bool) (condition body : Command) : Nat → Nat → Step Unit
  | 0, _ => throw (.killed 13)
  | fuel + 1, last => do
    let goesOn ← iteration do
      asTest (r.command condition)
      if ((← get).status == 0) == untilDone then
        setStatus last
        return false
      r.command body
      return true
    if goesOn then runLoop r untilDone condition body fuel (← get).status

/-- Runs a body for each of some words. -/
def runEach (r : Runner) (shown name : String) (body : Command) : List String → Step Unit
  | [] => return
  | w :: rest => do
    let s ← get
    if s.isRich && (s.bindings.get? name).any Variable.fixed then
      complain "" s!"{name}: readonly variable"
      setStatus 1
      return
    assignOrEnd name w
    if (← get).isRich then trace r (← get).descriptors [shown]
    let goesOn ← iteration do
      r.command body
      return true
    if goesOn then runEach r shown name body rest

/-- The value of an expression of the richer language; nothing has no value. -/
def clause (r : Runner) (w : Word) : Step (Option Int) := do
  let text ← textBy r { quoted := true } w
  if text.toList.all Arithmetic.isWhite then return none
  match Arithmetic.evaluate (← get) text with
  | .ok (n, s) =>
    set s
    return some n
  | .error (.wrong message) =>
    complain message s!"((: {message}"
    setStatus 1
    throw .failed
  | .error (.fixed name) => unexpanded false "" s!"{name}: readonly variable"
  | .error (.unset name) => unexpanded true "" s!"{name}: unbound variable"

/-- Runs a body as long as an expression is not zero, and another one after each turn. -/
def runCounted (r : Runner) (condition next : Word) (body : Command) : Nat → Step Unit
  | 0 => throw (.killed 13)
  | fuel + 1 => do
    if (← clause r condition).all (· != 0) then
      let goesOn ← iteration do
        r.command body
        return true
      if goesOn then
        let status := (← get).status
        let _ ← clause r next
        setStatus status
        runCounted r condition next body fuel

/-! ## Choices and questions -/

/-- Whether one of some patterns matches a text. -/
def matchesAny (r : Runner) (cs : List Char) : List Word → Step Bool
  | [] => return false
  | w :: rest => do
    let glob ← globBy r w
    let s ← get
    let lowered (cs : List Char) : List Char :=
      if s.has "nocasematch" then cs.map Char.toLower else cs
    if glob.isMatch (lowered cs) then return true else matchesAny r cs rest

/-- Runs the first body of which a pattern matches, or which is entered from the one before it,
and the bodies after it that it leads to. The status is what it was if there is none. -/
def runArms (r : Runner) (cs : List Char) (status : Nat) :
    Bool → List (List Word × Command × Onward) → Step Unit
  | _, [] => setStatus status
  | entered, (ps, body, onward) :: rest => do
    if entered || (← matchesAny r cs ps) then
      match body with
      | .nothing => setStatus 0
      | body => r.command body
      match onward with
      | .ends => return
      | .enters => if !rest.isEmpty then runArms r cs 0 true rest
      | .looks => runArms r cs (← get).status false rest
    else runArms r cs status false rest

/-- The regular expression of flagged characters: what was quoted means itself. -/
def expressionOf (cs : Glob.Marked) : String :=
  String.join (cs.map fun (c, free) =>
    if free || c.isAlphanum then String.singleton c
    else if c == '\\' || c == '^' then String.ofList ['\\', c]
    else String.ofList ['[', c, ']'])

/-- Whether a text matches a regular expression. What its groups match is kept. -/
def matchesExpression (text : String) (pattern : String) : Step (Option Bool) := do
  match Regex.read true pattern with
  | .error _ => return none
  | .ok e =>
    let subject := Regex.Subject.ofString text false
    match e.find? subject 0 with
    | none =>
      modify fun s => s.setVariable "BASH_REMATCH" (some { value := some (.items []) })
      return some false
    | some m =>
      let groups := pattern.toList.count '('
      let parts := (List.range (groups + 1)).map fun i => (i, (m.part subject i).getD "")
      modify fun s => s.setVariable "BASH_REMATCH" (some { value := some (.items parts) })
      return some true

/-- Compares two words. -/
def compareBy (r : Runner) (op : String) (a b : Word) : Step (Option Bool) := do
  let left ← oneTextBy r a
  let s ← get
  match op with
  | "==" | "=" | "!=" =>
    let found ← matchesAny r left.toList [b]
    return some (found == (op != "!="))
  | "=~" =>
    let cs := marked (← r.pieces { splits := false } b)
    matchesExpression left (expressionOf cs)
  | "-eq" | "-ne" | "-lt" | "-le" | "-gt" | "-ge" =>
    let right ← oneTextBy r b
    let number (text : String) : Step Int := do
      match Arithmetic.evaluate (← get) text with
      | .ok (n, s) =>
        set s
        return n
      | .error (.wrong message) =>
        complain message s!"[[: {message}"
        setStatus 1
        throw .failed
      | .error (.fixed name) => unexpanded false "" s!"{name}: readonly variable"
      | .error (.unset name) => unexpanded true "" s!"{name}: unbound variable"
    let x ← number left
    let y ← number right
    return some (match op with
      | "-eq" => x == y
      | "-ne" => x != y
      | "-lt" => x < y
      | "-le" => x ≤ y
      | "-gt" => y < x
      | _ => y ≤ x)
  | op =>
    let right ← oneTextBy r b
    return (Condition.compare (mannerOf s) s.toProcess op left right).toOption

/-- The answer to a question, if there is one. -/
def answer (r : Runner) : Question → Step (Option Bool)
  | .word w => do return some (!(← oneTextBy r w).isEmpty)
  | .unary op w => do
    let text ← oneTextBy r w
    let s ← get
    return (Condition.ask (mannerOf s) s.toProcess op text).toOption
  | .binary op a b => compareBy r op a b
  | .negated q => do return (← answer r q).map (!·)
  | .both a b => do
    match ← answer r a with
    | some true => answer r b
    | other => return other
  | .either a b => do
    match ← answer r a with
    | some false => answer r b
    | other => return other

/-- A question as it is shown. -/
def shownQuestion : Question → String
  | .word w => "-n " ++ shownPieces w
  | .unary op w => op ++ " " ++ shownPieces w
  | .binary op a b => shownPieces a ++ " " ++ op ++ " " ++ shownPieces b
  | .negated q => "! " ++ shownQuestion q
  | .both a _ => shownQuestion a
  | .either a _ => shownQuestion a

/-- Runs a step that tells by its status; a failure ends it. -/
def recovering (step : Step Unit) : Step Unit :=
  tryCatch step fun
    | .failed => return
    | e => throw e

/-! ## Commands -/

/-- In the richer language, a subshell between parentheses cannot end the loops around it. -/
def inSubshell (s : Session) : Session := if s.isRich then { s with loops := 0 } else s

/-- Runs a command that is not merely read. -/
def runAny (r : Runner) : Command → Step Unit
  | .simple line assignments words opened => do
    runSimple r line assignments words opened
    settle r
  | .redirected line (.subshell _ body) opened => do
    modify fun s => { s with line := line }
    let n ← isolated r inSubshell do
      if ← openAll r opened then r.command body else throw .leave
    setStatus (← conclude n)
    settle r
  | .redirected line body opened => do
    modify fun s => { s with line := line }
    let done ← withDescriptors do
      if ← openAll r opened then
        r.command body
        return true
      return false
    if !done then settle r
  | .sequence first second => do
    r.command first
    r.command second
  | .background body => do
    runBackground r body
    settle r
  | .both first second => do
    asTest (r.command first)
    if (← get).status == 0 then r.command second
  | .either first second => do
    asTest (r.command first)
    if (← get).status != 0 then r.command second
  | .negated body => do
    asTest (r.command body)
    setStatus (if (← get).status == 0 then 1 else 0)
  | .pipeline items => runPipeline r items
  | .subshell line body => do
    modify fun s => { s with line := line }
    let n ← isolated r inSubshell (r.command body)
    setStatus (← conclude n)
    settle r
  | .branch condition body otherwise => do
    asTest (r.command condition)
    if (← get).status == 0 then r.command body
    else match otherwise with
      | some body => r.command body
      | none => setStatus 0
  | .choice line word arms => do
    modify fun s => { s with line := line }
    let text ← oneTextBy r word
    let s ← get
    if s.isRich then trace r s.descriptors ["case " ++ lightlyQuoted text ++ " in"]
    runArms r text.toList 0 false arms
  | .loop untilDone condition body => do runLoop r untilDone condition body r.limit 0
  | .each line name words body => do
    modify fun s => { s with line := line }
    let texts ← words.mapM (fieldsBy r)
    let texts := texts.flatten
    if texts.isEmpty then setStatus 0
    let shown := s!"for {name} in " ++ " ".intercalate (words.map shownPieces)
    runEach r shown name body texts
  | .counted first condition next body => recovering do
    let _ ← clause r first
    setStatus 0
    runCounted r condition next body r.limit
  | .function name body => do
    modify fun s => { s with functions := s.functions.insert name body, status := 0 }
  | .ask line q => do
    modify fun s => { s with line := line }
    let s ← get
    trace r s.descriptors [s!"[[ " ++ shownQuestion q ++ " ]]"]
    recovering do
      match ← answer r q with
      | some b => setStatus (if b then 0 else 1)
      | none => setStatus 2
    settle r
  | .calculate line body => do
    modify fun s => { s with line := line }
    let s ← get
    trace r s.descriptors ["(( " ++ shownPieces body ++ " ))"]
    recovering do
      let n ← clause r body
      setStatus (if n.getD 0 == 0 then 1 else 0)
    settle r
  | .nothing => return

/-- Runs a command, unless commands are only read. -/
def runCommand (r : Runner) (c : Command) : Step Unit := do
  if !(← get).has "noexec" then runAny r c

end Provision.Script.Step
