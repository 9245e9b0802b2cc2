import Provision.Script.Argument
import Provision.Script.Arithmetic

/-!
# Variables and options

The commands that change variables, or how the shell works, and those that tell about them.
-/

namespace Provision.Script.Step

/-! ## Variables -/

/-- A name and the value after an equals sign. -/
def nameAndValue (word : String) : String × Option String :=
  let name := word.toList.takeWhile (· != '=')
  (String.ofList name,
    if name.length < word.length then some (String.ofList (word.toList.drop (name.length + 1)))
    else none)

/-- Complains about a name. -/
def badName {α : Type} (word : String) : Step α := do
  let command := (← get).command.getD ""
  failWith 1 s!"{(nameAndValue word).1}: bad variable name"
    s!"{command}: \x60{word}': not a valid identifier"

/-- The variables in the order of their names. -/
def sorted (s : Session) : List (String × Variable) :=
  s.bindings.entries.mergeSort fun a b => !(b.1 < a.1)

/-- The letters of the properties of a variable. -/
def propertiesOf (v : Variable) : String :=
  let kind := match v.value with
    | some (.items _) => "a"
    | some (.entries _) => "A"
    | _ => ""
  kind ++ (if v.numeric then "i" else "") ++ (if v.fixed then "r" else "") ++
    (if v.exported then "x" else "")

/-- How a variable is declared again. -/
def declaration (name : String) (v : Variable) : String :=
  let flags := propertiesOf v
  let flags := if flags.isEmpty then "-" else flags
  let value := match v.value with
    | none => ""
    | some (.text t) => "=" ++ doublyQuoted t
    | some (.items es) =>
      let shown (e : Nat × String) : String := s!"[{e.1}]=" ++ doublyQuoted e.2
      "=(" ++ " ".intercalate (es.map shown) ++ ")"
    | some (.entries es) =>
      let shown (e : String × String) : String := s!"[{e.1}]=" ++ doublyQuoted e.2 ++ " "
      "=(" ++ String.join ((Session.listed es).map shown) ++ ")"
  s!"declare -{flags} {name}{value}\n"

/-- Prints the variables that have a property. -/
def listVariables (command : String) (p : Variable → Bool) : Step Unit := do
  let s ← get
  let shown := (sorted s).filter fun e => p e.2
  print (String.join (shown.map fun (name, v) =>
    if s.isRich then declaration name v
    else
      let value := (v.value.bind Session.textOf).elim "" fun t => "=" ++ quotedText t
      s!"{command} {name}{value}\n"))

/-- Exports variables, or fixes their values. -/
def mark (fixes : Bool) (args : List String) : Step Unit := do
  let command := if fixes then "readonly" else "export"
  let rich := (← get).isRich
  let (given, operands) ← optionsOf (if rich then "pnfaA" else "p") "" args
  if operands.isEmpty then
    listVariables command fun v => if fixes then v.fixed else v.exported
    setStatus 0
  else
    let removes := given.any fun e => e.1 == 'n'
    let mut status := 0
    for word in operands do
      let (name, value) := nameAndValue word
      let adds := rich && name.endsWith "+" && value.isSome
      let name := if adds then String.ofList name.toList.dropLast else name
      if !isName name then
        if rich then
          complain "" s!"{command}: \x60{word}': not a valid identifier"
          status := 1
        else badName word
      else
        match value with
        | some t =>
          if rich && ((← get).bindings.get? name).any Variable.fixed then
            complain "" s!"{name}: readonly variable"
            status := 1
          else
            let before := ((← get).text? name).getD ""
            assign name (if adds then before ++ t else t)
        | none => pure ()
        modify fun s =>
          let v := (s.bindings.get? name).getD {}
          s.setVariable name (some (if fixes then { v with fixed := true }
            else { v with exported := !removes }))
    setStatus status

/-- Takes variables or functions away. -/
def unset (args : List String) : Step Unit := do
  let rich := (← get).isRich
  let (given, operands) ← optionsOf (if rich then "vfn" else "vf") "unset [-f] [-v] [-n] [name ...]"
    args
  let mut status := 0
  let functionsOnly := (given.getLast?.map Prod.fst) == some 'f'
  for name in operands do
    let s ← get
    if functionsOnly then set { s with functions := s.functions.erase name }
    else
      let base := String.ofList (name.toList.takeWhile (· != '['))
      if !rich && !isName name then badName name
      else if (s.bindings.get? base).any Variable.fixed then
        if rich then
          complain "" s!"unset: {name}: cannot unset: readonly variable"
          status := 1
        else refuseChange name
      else if base.length < name.length then
        let index := String.ofList ((name.toList.drop (base.length + 1)).dropLast)
        match (s.bindings.get? base).bind Variable.value with
        | some (.items es) =>
          match Arithmetic.evaluate s index with
          | .ok (i, s) =>
            let v := (s.bindings.get? base).getD {}
            set (s.setVariable base
              (some { v with value := some (.items (es.filter fun e => (e.1 : Int) != i)) }))
          | .error _ => pure ()
        | some (.entries es) =>
          let v := (s.bindings.get? base).getD {}
          set (s.setVariable base (some { v with value := some (.entries (es.erase index)) }))
        | _ => pure ()
      else if (s.bindings.get? name).isSome then set (s.setVariable name none)
      else if rich && given.isEmpty then set { s with functions := s.functions.erase name }
  setStatus status

/-- Keeps what a variable is until the present function ends. -/
def keep (name : String) : Step Unit := modify fun s =>
  match s.frames with
  | frame :: outer =>
    if frame.any fun e => e.1 == name then s
    else { s with frames := ((name, s.bindings.get? name) :: frame) :: outer }
  | [] => s

/-- Gives variables values for the present function alone. -/
def localVariables (args : List String) : Step Unit := do
  let s ← get
  if s.frames.isEmpty then
    failWith 1 "not in a function" "local: can only be used in a function"
  let mut status := 0
  for word in args do
    let (name, value) := nameAndValue word
    if word == "-" then pure ()
    else if !isName name then
      if s.isRich then
        complain "" s!"local: \x60{word}': not a valid identifier"
        status := 1
      else badName word
    else if ((← get).bindings.get? name).any Variable.fixed then
      if s.isRich then
        complain "" s!"local: {name}: readonly variable"
        status := 1
      else refuseChange name
    else
      keep name
      match value with
      | some t => assign name t
      | none => if s.isRich then modify fun s => s.setVariable name (some {})
  setStatus status

/-- Declares variables of the richer language. -/
def declare (command : String) (args : List String) : Step Unit := do
  let words := args.takeWhile fun a => 1 < a.length && (a.startsWith "-" || a.startsWith "+")
  let operands := args.drop words.length
  let flags := words.flatMap fun w => if w.startsWith "-" then w.toList.drop 1 else []
  let has (c : Char) : Bool := flags.contains c
  match flags.find? fun c => !"aAfFgiIlnrtuxp".contains c with
  | some c =>
    failWith 2 ""
      (s!"{command}: -{c}: invalid option\n{command}: usage: " ++
        s!"{command} [-aAfFgiIlnrtux] [name[=value] ...] or {command} -p [-aAfFilnrtux] [name ...]")
  | none => pure ()
  if command == "local" && (← get).frames.isEmpty then
    failWith 1 "" "local: can only be used in a function"
  let mut status := 0
  if has 'f' || has 'F' then
    for name in operands do
      if !(← get).functions.contains name then status := 1
      else if has 'F' then printLine name
  else if has 'p' || operands.isEmpty then
    let s ← get
    if operands.isEmpty then
      let wanted (v : Variable) : Bool :=
        (!has 'x' || v.exported) && (!has 'r' || v.fixed) && (!has 'i' || v.numeric) &&
          (!has 'a' || match v.value with | some (.items _) => true | _ => false) &&
          (!has 'A' || match v.value with | some (.entries _) => true | _ => false)
      listVariables "declare" wanted
    for name in operands do
      match s.bindings.get? name with
      | some v => print (declaration name v)
      | none =>
        complain "" s!"{command}: {name}: not found"
        status := 1
  else for word in operands do
    let (name, value) := nameAndValue word
    let adds := name.endsWith "+" && value.isSome
    let name := if adds then String.ofList name.toList.dropLast else name
    if !isName name then
      complain "" s!"{command}: \x60{word}': not a valid identifier"
      status := 1
    else if ((← get).bindings.get? name).any Variable.fixed && value.isSome then
      if command == "local" then complain "" s!"local: {name}: readonly variable"
      else complain "" s!"{command}: {name}: readonly variable"
      status := 1
    else
      if !(← get).frames.isEmpty && !has 'g' then
        let known := ((← get).frames.headD []).any fun e => e.1 == name
        keep name
        if !known then modify fun s => s.setVariable name (some {})
      let v := ((← get).bindings.get? name).getD {}
      let v := { v with
        exported := v.exported || has 'x', numeric := v.numeric || has 'i' }
      let v := match v.value with
        | none =>
          if has 'A' then { v with value := some (.entries {}) }
          else if has 'a' then { v with value := some (.items []) } else v
        | some (.text t) => if has 'a' then { v with value := some (.items [(0, t)]) } else v
        | some _ => v
      modify fun s => s.setVariable name (some v)
      match value with
      | some t =>
        let before := ((← get).text? name).getD ""
        let old := if adds then before else ""
        if v.numeric then
          let sum := if adds && !old.isEmpty then s!"{old}+({t})" else t
          match Arithmetic.evaluate (← get) sum with
          | .ok (n, s) => set (s.put name (toString n))
          | .error _ => status := 1
        else assign name (old ++ t)
      | none => pure ()
      if has 'r' then
        modify fun s =>
          s.setVariable name (some { (s.bindings.get? name).getD {} with fixed := true })
  setStatus status

/-! ## Options -/

/-- The options of the common language, with their letters. -/
def plainOptions : List (String × Option Char) :=
  [("errexit", some 'e'), ("noglob", some 'f'), ("ignoreeof", some 'I'),
    ("interactive", some 'i'), ("monitor", some 'm'), ("noexec", some 'n'), ("stdin", some 's'),
    ("xtrace", some 'x'), ("verbose", some 'v'), ("vi", some 'V'), ("emacs", some 'E'),
    ("noclobber", some 'C'), ("allexport", some 'a'), ("notify", some 'b'),
    ("nounset", some 'u'), ("nolog", none), ("debug", none)]

/-- The options of the richer language, with their letters. -/
def richOptions : List (String × Option Char) :=
  [("allexport", some 'a'), ("braceexpand", some 'B'), ("emacs", none), ("errexit", some 'e'),
    ("errtrace", some 'E'), ("functrace", some 'T'), ("hashall", some 'h'),
    ("histexpand", some 'H'), ("history", none), ("ignoreeof", none),
    ("interactive-comments", none), ("keyword", some 'k'), ("monitor", some 'm'),
    ("noclobber", some 'C'), ("noexec", some 'n'), ("noglob", some 'f'), ("nolog", none),
    ("notify", some 'b'), ("nounset", some 'u'), ("onecmd", some 't'), ("physical", some 'P'),
    ("pipefail", none), ("posix", none), ("privileged", some 'p'), ("verbose", some 'v'),
    ("vi", none), ("xtrace", some 'x')]

/-- The options of a language. -/
def optionTable (s : Session) : List (String × Option Char) :=
  if s.isRich then richOptions else plainOptions

/-- The letters of the options that are on. -/
def optionLetters (s : Session) : String :=
  if s.isRich then
    let order := "abefhkmnptuvxBCEHPT".toList
    let on := order.filter fun c => richOptions.any fun e => e.2 == some c && s.has e.1
    String.ofList on ++ if s.direct then "c" else if s.has "stdin" then "s" else ""
  else
    String.ofList ((plainOptions.filter fun e => s.has e.1).filterMap Prod.snd).reverse

/-- Prints the options. -/
def listOptions (asCommands : Bool) : Step Unit := do
  let s ← get
  let table := optionTable s
  if asCommands then
    print (String.join (table.map fun (name, _) =>
      let sign := if s.has name then "-" else "+"
      s!"set {sign}o {name}\n"))
  else
    let width := if s.isRich then 15 else 16
    let tab := if s.isRich then "\t" else ""
    let state (name : String) : String := if s.has name then "on" else "off"
    print ((if s.isRich then "" else "Current option settings\n") ++
      String.join (table.map fun (name, _) =>
        Tool.padRight width name ++ tab ++ state name ++ "\n"))

/-- Sets options by the words in front of arguments; the other arguments are left, if there
are any or if two dashes ask for that. -/
def setOptions : Nat → List String → Step (Option (List String))
  | 0, _ => return none
  | _, [] => return none
  | fuel + 1, a :: rest => do
    let s ← get
    match a.toList with
    | ['-', '-'] => return some rest
    | ['-'] =>
      set ((s.switch "xtrace" false).switch "verbose" false)
      return if rest.isEmpty then none else some rest
    | sign :: letters =>
      if (sign != '-' && sign != '+') || letters.isEmpty then return some (a :: rest)
      let rest ← turn (sign == '-') letters rest
      setOptions fuel rest
    | [] => return some (a :: rest)
where
  /-- Turns options on or off by their letters. -/
  turn (on : Bool) : List Char → List String → Step (List String)
  | [], rest => return rest
  | 'o' :: cs, rest => do
    match rest with
    | [] =>
      listOptions (!on)
      turn on cs []
    | name :: rest =>
      let s ← get
      if (optionTable s).any fun e => e.1 == name then
        set (s.switch name on)
        turn on cs rest
      else
        let sign := if on then "-" else "+"
        failWith 2 s!"Illegal option {sign}o {name}" s!"set: {name}: invalid option name"
  | c :: cs, rest => do
    let s ← get
    match (optionTable s).find? fun e => e.2 == some c with
    | some e =>
      set (s.switch e.1 on)
      turn on cs rest
    | none =>
      let sign := if on then "-" else "+"
      failWith 2 s!"Illegal option {sign}{c}" (s!"set: {sign}{c}: invalid option\n" ++
        "set: usage: set [-abefhkmnptuvxBCEHPT] [-o option-name] [--] [-] [arg ...]")

/-- Sets options and parameters, or prints the variables. -/
def setCommand (args : List String) : Step Unit := do
  if args.isEmpty then
    let s ← get
    let known := (sorted s).filterMap fun e => (e.2.value.bind Session.textOf).map (e.1, ·)
    print (String.join (known.map fun (name, t) =>
      name ++ "=" ++ (if s.isRich then (if t.isEmpty then "" else lightlyQuoted t)
        else quotedText t) ++ "\n"))
  else match ← setOptions (args.length + 1) args with
    | some parameters =>
      modify fun s => { s with parameters := parameters, optionWord := 1, letter := 0 }
    | none => pure ()
  setStatus 0

/-- Goes on to later parameters. -/
def shift (args : List String) : Step Unit := do
  let s ← get
  let count : Option Nat ← (match args with
    | [] => pure (some 1)
    | a :: _ =>
      if s.isRich then
        match Tool.nat? a with
        | some n => pure (some n)
        | none => do
          let negative := a.startsWith "-" && (Tool.nat? (String.ofList (a.toList.drop 1))).isSome
          complain "" (if negative then s!"shift: {a}: shift count out of range"
            else s!"shift: {a}: numeric argument required")
          pure none
      else do return some (← number a))
  match count with
  | none => setStatus 1
  | some n =>
    if s.parameters.length < n then
      if s.isRich then setStatus 1
      else failWith 2 "can't shift that many" ""
    else
      modify fun s => { s with parameters := s.parameters.drop n, optionWord := 1, letter := 0 }
      setStatus 0

end Provision.Script.Step
