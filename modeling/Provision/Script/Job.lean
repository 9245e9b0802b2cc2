import Provision.Script.Argument
import Provision.Script.Signal

/-!
# Signals and jobs

The commands that send signals and say what is run when they come, and those that concern the
commands that nobody has waited for.
-/

namespace Provision.Script.Step

/-! ## Signals -/

/-- Says what is run when signals come. -/
def trap (args : List String) : Step Unit := do
  let s ← get
  let rich := s.isRich
  let (given, operands) ← optionsOf (if rich then "lp" else "") "trap [-lp] [[arg] signal_spec ...]"
    args
  let shown (n : Nat) : String :=
    let name := Signal.nameOf n
    if rich && n != 0 && n < Signal.count then "SIG" ++ name else name
  let quote (t : String) : String :=
    if rich then "'" ++ escapedQuotes t ++ "'" else quotedText t
  if operands.isEmpty || given.any (fun e => e.1 == 'p') then
    let sortedTraps := s.traps.mergeSort fun a b => a.1 ≤ b.1
    print (String.join (sortedTraps.map fun (n, t) => s!"trap -- {quote t} {shown n}\n"))
    setStatus 0
  else
    let (action, signals) : Option String × List String := match operands with
      | [one] => (none, [one])
      | "-" :: signals => (none, signals)
      | action :: signals =>
        if rich && (Tool.nat? action).isSome then (none, action :: signals)
        else (some action, signals)
      | [] => (none, [])
    if rich && operands.length == 1 && (Signal.number? rich (operands.headD "")).isNone then
      modify fun s => s.warn "trap: usage: trap [-lp] [[arg] signal_spec ...]\n"
      setStatus 2
      return
    let mut status := 0
    for name in signals do
      match Signal.number? rich name with
      | none =>
        if status == 0 || rich then
          if rich then complain "" s!"trap: {name}: invalid signal specification"
          else modify fun s => s.warn s!"trap: {name}: bad trap\n"
        status := 1
      | some n =>
        if status == 0 || rich then
          modify fun s =>
            let others := s.traps.filter fun e => e.1 != n
            { s with traps := action.elim others fun t => (n, t) :: others }
    setStatus status

/-- Takes a signal in: the process ends, or a trap is run soon. -/
def receive (n : Nat) : Step Unit := do
  let s ← get
  let action := (s.traps.find? fun e => e.1 == n).map Prod.snd
  if n == 9 || n == 19 then throw (.killed n)
  else if s.ignored.contains n then return
  else match action with
    | some "" => return
    | some _ => set { s with pending := s.pending ++ [n] }
    | none => if Signal.isIgnored n then return else throw (.killed n)

/-- Sends a signal to a process, and says whether there is one. -/
def send (n target : Nat) : Step Bool := do
  let s ← get
  if target == s.number then
    if n != 0 then receive n
    return true
  else if s.ancestors.contains target then
    if n != 0 then set { s with sent := s.sent ++ [(target, n)] }
    return true
  else match s.jobs.find? fun j => j.process == target with
    | some _ =>
      let ended (k : Job) : Job :=
        if k.process == target && n != 0 && s.waited < k.ends then
          { k with status := Signal.ended n, ends := s.waited, later := none }
        else k
      set { s with jobs := s.jobs.map ended }
      return true
    | none => return false

/-- The job that an argument means. -/
def jobOf? (s : Session) (text : String) : Option Job :=
  match text.toList with
  | '%' :: cs =>
    match Tool.nat? (String.ofList cs) with
    | some n => if n = 0 then none else s.jobs[n - 1]?
    | none => if cs == ['-'] then s.jobs.dropLast.getLast? else s.jobs.getLast?
  | _ => (Tool.nat? text).bind fun n => s.jobs.find? fun j => j.process == n

/-- Sends signals to processes. -/
def kill (args : List String) : Step Unit := do
  let s ← get
  let rich := s.isRich
  let usage : Step Unit := do
    if rich then
      modify fun s => s.warn ("kill: usage: kill [-s sigspec | -n signum | -sigspec] pid | " ++
        "jobspec ... or kill -l [sigspec]\n")
      setStatus 2
    else failWith 2 ("Usage: kill [-s sigspec | -signum | -sigspec] [pid | job]... or\n" ++
      "kill -l [exitstatus]") ""
  let badSignal {α : Type} (name : String) : Step α := failWith 1
    s!"invalid signal number or name: {name}" s!"kill: {name}: invalid signal specification"
  let send (n : Nat) (targets : List String) : Step Unit := do
    if targets.isEmpty then usage
    else
      let mut status := 0
      for t in targets do
        let s ← get
        if t.startsWith "%" && (jobOf? s t).isNone then
          failWith 1 s!"No such job: {t}" s!"kill: {t}: no such job"
        match if t.startsWith "%" then (jobOf? s t).map Job.process else Tool.nat? t with
        | none =>
          failWith 1 s!"Illegal number: {t}" s!"kill: {t}: arguments must be process or job IDs"
        | some target =>
          if !(← send n target) then
            complain "No such process\n" s!"kill: ({t}) - No such process"
            status := 1
      setStatus status
  match args with
  | [] => usage
  | "-l" :: rest | "-L" :: rest =>
    match rest with
    | [] =>
      if rich then
        let numbers := (List.range 65).filter fun n => n != 0 && n != 32 && n != 33
        print (String.join (numbers.zipIdx.map fun (n, i) =>
          let ending := if i % 5 == 4 then "\n" else "\t"
          let name := Signal.nameOf n
          Tool.padLeft 2 (toString n) ++ s!") SIG{name}" ++ ending) ++ "\n")
      else
        print ("0\n" ++ String.join ((List.range 64).map fun i =>
          let name := if i + 1 == 16 then "16" else Signal.nameOf (i + 1)
          name ++ "\n"))
      setStatus 0
    | a :: _ =>
      match Tool.nat? a, if rich then Signal.number? true a else none with
      | some n, _ =>
        let n := if 128 < n then n - 128 else n
        if 0 < n && n < Signal.count then
          printLine (Signal.nameOf n)
          setStatus 0
        else
          failWith 1 s!"invalid signal number or exit status: {a}"
            s!"kill: {a}: invalid signal specification"
      | none, some n =>
        printLine (toString n)
        setStatus 0
      | none, none =>
        failWith 1 s!"Illegal number: {a}" s!"kill: {a}: invalid signal specification"
  | "-s" :: rest | "-n" :: rest =>
    match rest with
    | [] => failWith 2 "No arg for -s option" "kill: -s: option requires an argument"
    | name :: targets =>
      match Signal.number? rich name with
      | some n => send n targets
      | none => badSignal name
  | "--" :: targets => send 15 targets
  | a :: targets =>
    match a.toList with
    | '-' :: cs =>
      match Signal.number? rich (String.ofList cs) with
      | some n => send n targets
      | none =>
        let c := cs.headD '-'
        let name := String.ofList cs
        failWith 1 s!"Illegal option -{c}" s!"kill: {name}: invalid signal specification"
    | _ => send 15 (a :: targets)

/-! ## Jobs -/

/-- Waits for commands. -/
def wait (args : List String) : Step Unit := do
  let until_ (j : Job) : Step Unit := do
    modify fun s => { s with waited := max s.waited j.ends }
    match Signal.of? j.status with
    | some n =>
      let s ← get
      if !s.isRich && n != 2 && n != 13 then modify fun s => s.warn (Signal.wording n ++ "\n")
    | none => pure ()
  if args.isEmpty then
    for j in (← get).jobs do until_ j
    modify fun s => { s with jobs := [] }
    setStatus 0
  else for a in args do
    let s ← get
    if a.startsWith "-" then pure ()
    else match jobOf? s a with
      | some j =>
        until_ j
        setStatus (Signal.shown j.status)
      | none => match Tool.nat? a with
        | some target =>
          if s.isRich then
            complain "" s!"wait: pid {target} is not a child of this shell"
          setStatus 127
        | none =>
          if a.startsWith "%" then
            complain s!"No such job: {a}" s!"wait: {a}: no such job"
            setStatus (if s.isRich then 127 else 2)
          else failWith 1 s!"Illegal number: {a}" s!"wait: \x60{a}': not a pid or valid job spec"

/-- Lists the commands that nobody has waited for and that go on. -/
def jobs (args : List String) : Step Unit := do
  let s ← get
  let count := s.jobs.length
  let shown (i : Nat) (j : Job) : String :=
    let sign := if i + 1 == count then "+" else if i + 2 == count then "-" else " "
    if args.contains "-p" then toString j.process ++ "\n"
    else Tool.padRight 33 (s!"[{i + 1}] {sign} Running") ++ "\n"
  let going := s.jobs.zipIdx.filter fun e => s.waited < e.1.ends
  print (String.join (going.map fun e => shown e.2 e.1))
  setStatus 0

end Provision.Script.Step
