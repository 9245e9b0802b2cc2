import Provision.CommandLine

/-!
# Reading command lines

Options that stand before and after the name of a command belong to two scopes. Each scope
knows an option once, and those after the name win. The value of an option or a positional
argument is looked at only when the next thing begins, so a mistake in that one may be
reported first.

> `CommandLine.read`: the arguments, with a value of the environment for the path.

Mirrors what the argument parser makes of `Cli`: its scopes, its order of complaints and their
wording. There is no table of options; each scope is one function over the arguments that are
left.
-/

namespace Provision

namespace CommandLine

/-- The commands by their names. -/
inductive Subcommand
  | validate | list | deps | ls | status | install | completions | help
deriving DecidableEq, Repr

/-- The command of a name. -/
def Subcommand.ofName? (s : String) : Option Subcommand :=
  match s with
  | "validate" => some validate
  | "list" => some list
  | "deps" => some deps
  | "ls" => some ls
  | "status" => some status
  | "install" => some install
  | "completions" => some completions
  | "help" => some help
  | _ => none

/-- The options. -/
inductive Flag
  | config | verbose | quiet | help | version | json | yes
deriving DecidableEq, Repr

/-- The options that a scope knows: `none` is the one before the name of a command. -/
def Flag.isKnown (scope : Option Subcommand) : Flag → Bool
  | version => scope.isNone
  | json => scope == some .status
  | yes => scope == some .install
  | _ => true

/-- The option of a long name. -/
def Flag.ofLong? (scope : Option Subcommand) (s : String) : Option Flag :=
  (match s with
    | "config" => some config
    | "verbose" => some verbose
    | "quiet" => some quiet
    | "help" => some help
    | "version" => some version
    | "json" => some json
    | "yes" => some yes
    | _ => none).filter (isKnown scope)

/-- The option of a letter. -/
def Flag.ofShort? (scope : Option Subcommand) (c : Char) : Option Flag :=
  (match c with
    | 'c' => some config
    | 'v' => some verbose
    | 'q' => some quiet
    | 'h' => some help
    | 'V' => some version
    | 'y' => some yes
    | _ => none).filter (isKnown scope)

/-- A value that has not been looked at. -/
inductive Pending
  | nothing
  /-- The path of the configuration, which may not have come yet. -/
  | config (value : Option String)
  | shell (name : String)
deriving DecidableEq, Repr

/-- What has been read in a scope. -/
structure Scope where
  subcommand : Option Subcommand := none
  config : Option String := none
  verbose : Option Nat := none
  quiet : Bool := false
  /-- Whether the option that only this command knows has been given. -/
  own : Bool := false
  shell : Option CompletionShell := none
  pending : Pending := .nothing
  /-- Whether only positional arguments follow. -/
  trailing : Bool := false

namespace Scope

/-- Whether a value is expected. -/
def awaits (s : Scope) : Bool := s.pending == .config none && !s.trailing

/-- Sets the path of the configuration, which can be done once and not be empty. -/
def setConfig (s : Scope) (value : String) : Except Refusal Scope :=
  if s.config.isSome then .error .argumentConflict
  else if value.isEmpty then .error .invalidValue
  else .ok { s with config := some value }

/-- Looks at the value that is pending. -/
def settle (s : Scope) : Except Refusal Scope :=
  let s' := { s with pending := .nothing }
  match s.pending with
  | .nothing => .ok s
  | .config none => .error .invalidValue
  | .config (some value) => s'.setConfig value
  | .shell name =>
    match CompletionShell.ofName? name with
    | some c => .ok { s' with shell := some c }
    | none => .error .invalidValue

/-- Takes an option that has no value. -/
def take (s : Scope) (f : Flag) : Except Refusal Scope := do
  let s ← s.settle
  match f with
  | .help => throw .help
  | .version => throw .version
  | .verbose => return { s with verbose := some (min 255 (s.verbose.getD 0 + 1)) }
  | .quiet => if s.quiet then throw .argumentConflict else return { s with quiet := true }
  | .json | .yes => if s.own then throw .argumentConflict else return { s with own := true }
  | .config => return { s with pending := .config none }

/-- Takes an option by its long name. -/
def takeLong (s : Scope) (name : String) (value : Option String) : Except Refusal Scope :=
  match Flag.ofLong? s.subcommand name, value with
  | none, _ => .error .unknownArgument
  | some .config, some v => do (← s.settle).setConfig v
  | some _, some _ => .error .tooManyValues
  | some f, none => s.take f

/-- Takes options by their letters. What follows the letter of the path is its value. -/
def takeShort (s : Scope) : List Char → Except Refusal Scope
  | [] => .ok s
  | c :: rest =>
    match Flag.ofShort? s.subcommand c with
    | none => .error .unknownArgument
    | some .config =>
      match rest with
      | [] => s.take .config
      | '=' :: value => do (← s.settle).setConfig (String.ofList value)
      | value => do (← s.settle).setConfig (String.ofList value)
    | some f => do takeShort (← s.take f) rest

/-- Takes an argument that begins with a dash, or none if it does not. -/
def option? (s : Scope) (arg : String) : Option (Except Refusal Scope) :=
  if s.trailing then none
  else match arg.toList with
    | ['-', '-'] => some (.ok { s with trailing := true })
    | '-' :: '-' :: rest =>
      let name := rest.takeWhile (· != '=')
      let value := (rest[name.length]?).map fun _ => String.ofList (rest.drop (name.length + 1))
      some (s.takeLong (String.ofList name) value)
    | '-' :: c :: rest => some (s.takeShort (c :: rest))
    | _ => none

/-- Whether the environment gives a path that cannot be used where one is needed. -/
def checkEnvironment (s : Scope) (env : Option String) : Except Refusal Unit :=
  if s.config.isNone && env == some "" then .error .invalidValue else .ok ()

end Scope

/-- Reads the arguments after the name of a command. -/
def readOwn (s : Scope) : List String → Except Refusal Scope
  | [] => s.settle
  | arg :: rest =>
    match s.option? arg with
    | some next => do readOwn (← next) rest
    | none =>
      if s.awaits then readOwn { s with pending := .config (some arg) } rest
      else if s.subcommand == some .completions && s.shell.isNone &&
          !(match s.pending with | .shell _ => true | _ => false) then do
        readOwn { (← s.settle) with pending := .shell arg } rest
      else .error .unknownArgument

/-- The refusal of a request for help about commands. -/
def helpAbout : List String → Refusal
  | [] => .help
  | name :: rest =>
    if (Subcommand.ofName? name).isSome && rest.isEmpty then .help else .invalidSubcommand

/-- Reads the arguments up to the name of a command and those after it. -/
def readScopes (s : Scope) (env : Option String) :
    List String → Except Refusal (Scope × Option Scope)
  | [] => do return (← s.settle, none)
  | arg :: rest =>
    match (if s.trailing || s.awaits then none else Subcommand.ofName? arg) with
    | some .help => .error (helpAbout rest)
    | some c => do
      let own ← readOwn { subcommand := some c } rest
      own.checkEnvironment env
      if c = .completions && own.shell.isNone then throw .missingArgument
      return (← s.settle, some own)
    | none =>
      match s.option? arg with
      | some next => do readScopes (← next) env rest
      | none =>
        if s.awaits then readScopes { s with pending := .config (some arg) } env rest
        else if s.trailing && (Subcommand.ofName? arg).isSome then .error .unknownArgument
        else .error .invalidSubcommand

/-- The command of a scope. -/
def Scope.action? (s : Scope) : Option Action :=
  match s.subcommand with
  | some .validate => some .validate
  | some .list => some .list
  | some .deps => some .dependencies
  | some .ls => some .details
  | some .status => some (.status s.own)
  | some .install => some (.install s.own)
  | some .completions => s.shell.map .completions
  | some .help | none => none

/-- The path that is used where none is given. -/
def defaultConfig : String := "systemconf.yaml"

/-- Reads a command line; `env` is what the environment says about the path. -/
def read (env : Option String) (args : List String) : Except Refusal CommandLine := do
  let (top, own) ← readScopes {} env args
  top.checkEnvironment env
  let given := top.config.isSome || top.verbose.isSome || top.quiet || env.isSome
  match own, own.bind Scope.action? with
  | some own, some action =>
    return {
      config := (own.config <|> top.config <|> env).getD defaultConfig
      verbose := (own.verbose <|> top.verbose).getD 0
      quiet := own.quiet || top.quiet
      action := action }
  | _, _ => throw (if given then .missingSubcommand else .nothingGiven)

end CommandLine

end Provision
