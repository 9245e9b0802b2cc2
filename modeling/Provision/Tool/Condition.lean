import Provision.Tool
import Provision.Tool.Print

/-!
# Conditions

What `test` asks of files, texts and numbers. There are two ways to read its arguments. One
looks at their number first; the other one reads them from left to right, alternatives binding
weaker than combinations, and those weaker than negation.
-/

namespace Provision.Condition

/-! ## Questions -/

/-- What can be asked, and how it is worded that something is wrong. -/
structure Manner where
  style : PrintStyle
  /-- What is asked of things that a process does not know. -/
  extra : String → Option (String → Bool) := fun _ => none

/-- What is wrong with a condition. -/
inductive Fault
  | badNumber (s : String)
  | unexpected (s : String)
  | argumentExpected (op : String)
  | closingExpected
  | unaryExpected (s : String)
  | binaryExpected (s : String)
  | tooMany (s : String)
  | missingAfter (s : String)
  | missingBracket

/-- The wording of what is wrong. -/
def Fault.message (style : PrintStyle) : Fault → String
  | badNumber s => match style with
    | .plain => s!"Illegal number: {s}"
    | .rich => s!"{s}: integer expression expected"
    | .tool => s!"invalid integer {Tool.quoted s}"
  | unexpected s => s!"{s}: unexpected operator"
  | argumentExpected op => s!"{op}: argument expected"
  | closingExpected => match style with
    | .plain => "closing paren expected"
    | .rich => "\x60)' expected"
    | .tool => "')' expected"
  | unaryExpected s => match style with
    | .tool => s!"{Tool.quoted s}: unary operator expected"
    | _ => s!"{s}: unary operator expected"
  | binaryExpected s => match style with
    | .tool => s!"{Tool.quoted s}: binary operator expected"
    | _ => s!"{s}: binary operator expected"
  | tooMany s => match style with
    | .tool => s!"extra argument {Tool.quoted s}"
    | _ => "too many arguments"
  | missingAfter s => match style with
    | .tool => s!"missing argument after {Tool.quoted s}"
    | _ => s!"{s}: unary operator expected"
  | missingBracket => match style with
    | .plain => "missing ]"
    | .rich => "missing \x60]'"
    | .tool => "missing ']'"

/-- What is asked of two operands. -/
def binaryOperators (style : PrintStyle) : List String :=
  ["=", "!=", "-eq", "-ne", "-lt", "-le", "-gt", "-ge", "-nt", "-ot", "-ef"] ++
    (if style == .plain then [] else ["=="]) ++ (if style == .tool then [] else ["<", ">"])

/-- What is asked of one operand. -/
def unaryOperators : List String :=
  ["-n", "-z", "-e", "-f", "-d", "-r", "-w", "-x", "-s", "-h", "-L", "-p", "-S", "-t", "-b", "-c",
    "-u", "-g", "-k", "-O", "-G"]

/-- A number for a comparison. -/
def number (style : PrintStyle) (s : String) : Except Fault Int :=
  let isWhite (c : Char) : Bool := c == ' ' || ('\t' ≤ c && c ≤ '\x0d')
  let cs := ((s.toList.dropWhile isWhite).reverse.dropWhile isWhite).reverse
  let digits := match cs with
    | '-' :: ds | '+' :: ds => ds
    | ds => ds
  match Tool.nat? (String.ofList digits) with
  | some n =>
    let value : Int := if cs.head? == some '-' then -(n : Int) else n
    if style != .tool && (PrintStyle.maxSigned < value || value < -PrintStyle.maxSigned - 1) then
      .error (.badNumber s)
    else .ok value
  | none => .error (.badNumber s)

/-- Compares two operands. -/
def compare (m : Manner) (p : Process) (op a b : String) : Except Fault Bool :=
  let time (path : String) : Option Int := (p.entry path).toOption.map FileEntry.time
  let later (x y : Option Int) : Bool := match x, y with
    | some x, some y => y < x
    | some _, none => m.style != .plain
    | none, _ => false
  match op with
  | "=" | "==" => .ok (a == b)
  | "!=" => .ok (a != b)
  | "<" => .ok (decide (a < b))
  | ">" => .ok (decide (b < a))
  | "-nt" => .ok (later (time a) (time b))
  | "-ot" => .ok (later (time b) (time a))
  | "-ef" => .ok (match p.locate a, p.locate b with
    | .ok x, .ok y => x == y && (p.files.get? x).isSome
    | _, _ => false)
  | _ => do
    let x ← number m.style a
    let y ← number m.style b
    return match op with
      | "-eq" => x == y
      | "-ne" => x != y
      | "-lt" => x < y
      | "-le" => x ≤ y
      | "-gt" => y < x
      | _ => y ≤ x

/-- Asks something of one operand. -/
def ask (m : Manner) (p : Process) (op s : String) : Except Fault Bool :=
  let found? : Option FileEntry := match Process.descriptor? s with
    | some n => match p.stream? n with
      | some (.buffer _) => some ⟨.device, 0o600, 0⟩
      | some (.file place ..) => p.files.get? place
      | some _ => some ⟨.device, 0o666, 0⟩
      | none => none
    | none => (p.entry s).toOption
  let body (f : FileBody → Bool) : Except Fault Bool := .ok (found?.any fun e => f e.body)
  let mode (bits : Nat) : Except Fault Bool := .ok (found?.any fun e => e.mode &&& bits != 0)
  match m.extra op with
  | some f => .ok (f s)
  | none => match op with
    | "-n" => .ok (!s.isEmpty)
    | "-z" => .ok s.isEmpty
    | "-f" => body fun b => match b with
      | .file _ => true
      | _ => false
    | "-d" => body (· == .directory)
    | "-c" => body (· == .device)
    | "-h" | "-L" => .ok (match p.entryLink s with
      | .ok ⟨.link _, _, _⟩ => true
      | _ => false)
    | "-s" => body fun b => match b with
      | .file bytes => !bytes.isEmpty
      | .directory => true
      | _ => false
    | "-x" => mode 0o111
    | "-u" => mode 0o4000
    | "-g" => mode 0o2000
    | "-k" => mode 0o1000
    | "-p" => .ok (match Process.descriptor? s with
      | some n => match p.stream? n with
        | some (.buffer _) => true
        | _ => false
      | none => false)
    | "-b" | "-S" => .ok false
    | "-t" => if m.style == .rich then .ok false else (number m.style s).map fun _ => false
    | _ => .ok found?.isSome

/-! ## From left to right -/

/-- What an argument is for a reader from left to right. -/
inductive Role
  | nothing | operand
  | unary (op : String)
  | binary (op : String)
  | negation | conjunction | disjunction | opening | closing
deriving DecidableEq

/-- What an argument is by itself. -/
def role? (s : String) : Option Role :=
  if unaryOperators.contains s then some (.unary s)
  else if (binaryOperators .plain).contains s then some (.binary s)
  else match s with
    | "!" => some .negation
    | "-a" => some .conjunction
    | "-o" => some .disjunction
    | "(" => some .opening
    | ")" => some .closing
    | _ => none

/-- Whether an argument is a binary operator. -/
def isBinary (s : Option String) : Bool :=
  match s.bind role? with
  | some (.binary _) => true
  | _ => false

/-- What the argument at a place is. -/
def roleAt (args : Array String) (i : Nat) : Role :=
  match args[i]? with
  | none => .nothing
  | some s =>
    match role? s with
    | none => .operand
    | some (.unary op) =>
      let isOperand := match args[i + 1]?, args[i + 2]? with
        | none, _ => true
        | some _, none => false
        | some t, some _ => isBinary (some t)
      if isOperand then .operand else .unary op
    | some .opening => if (args[i + 1]?).isNone then .operand else .opening
    | some r => r

/-- The place of the argument that has been read last, and whether its role is known. -/
abbrev Reading := StateT Nat (Except Fault)

mutual

/-- Alternatives. -/
def either (m : Manner) (p : Process) (args : Array String) : Nat → Role → Bool → Reading Bool
  | 0, _, _ => return false
  | fuel + 1, r, before => do
    let b ← both m p args fuel r true
    let i ← get
    if roleAt args (i + 1) = .disjunction then
      set (i + 2)
      either m p args fuel (roleAt args (i + 2)) (before || b)
    else return before || b

/-- Combinations. -/
def both (m : Manner) (p : Process) (args : Array String) : Nat → Role → Bool → Reading Bool
  | 0, _, _ => return false
  | fuel + 1, r, before => do
    let b ← negated m p args fuel r
    let i ← get
    if roleAt args (i + 1) = .conjunction then
      set (i + 2)
      both m p args fuel (roleAt args (i + 2)) (before && b)
    else return before && b

/-- Negations. -/
def negated (m : Manner) (p : Process) (args : Array String) : Nat → Role → Reading Bool
  | 0, _ => return false
  | fuel + 1, r => do
    if r = .negation then
      let i ← get
      let next := roleAt args (i + 1)
      if next ≠ .nothing then set (i + 1)
      return !(← negated m p args fuel next)
    else primary m p args fuel r

/-- A single question. -/
def primary (m : Manner) (p : Process) (args : Array String) : Nat → Role → Reading Bool
  | 0, _ => return false
  | fuel + 1, r => do
    let i ← get
    let operand := args.getD i ""
    match r with
    | .nothing => return false
    | .opening =>
      set (i + 1)
      let inner := roleAt args (i + 1)
      if inner = .closing then return false
      let b ← either m p args fuel inner false
      modify (· + 1)
      if roleAt args (← get) ≠ .closing then throw .closingExpected
      return b
    | .unary op =>
      set (i + 1)
      match args[i + 1]? with
      | none => throw (.argumentExpected op)
      | some s => ask m p op s
    | _ =>
      match roleAt args (i + 1) with
      | .binary op =>
        set (i + 2)
        match args[i + 2]? with
        | none => throw (.argumentExpected op)
        | some b => compare m p op operand b
      | _ => return !operand.isEmpty

end

/-- Whether a condition holds, read from left to right. -/
def holdsInOrder (m : Manner) (p : Process) : Nat → List String → Bool → Except Fault Bool
  | 0, _, _ => .ok false
  | fuel + 1, args, negatedBefore => do
    let finish (args : List String) (first : Option Role) : Except Fault Bool := do
      let a := args.toArray
      let r := first.getD (roleAt a 0)
      let (b, i) ← (either m p a (8 * a.size + 8) r false).run 0
      match a[i]?, a[i + 1]? with
      | some s, some _ => throw (.unexpected s)
      | _, _ => return b != negatedBefore
    match args with
    | [] => return negatedBefore
    | [_, op, _] =>
      if isBinary (some op) then finish args (some .operand)
      else match args with
        | "!" :: rest => holdsInOrder m p fuel rest true
        | ["(", s, ")"] => finish [s] none
        | _ => finish args none
    | [a, b, c, d] =>
      if a == "(" && d == ")" then finish [b, c] none
      else if a == "!" then holdsInOrder m p fuel [b, c, d] true
      else finish args none
    | _ => finish args none

/-! ## By the number of arguments -/

/-- What is left of the arguments while they are read. -/
abbrev Counting := StateT (List String) (Except Fault)

/-- Whether an argument asks something of the one after it. -/
def asksOne (m : Manner) (op : String) : Bool :=
  unaryOperators.contains op || (m.extra op).isSome

mutual

/-- Alternatives. -/
def anyOf (m : Manner) (p : Process) : Nat → Counting Bool
  | 0 => return false
  | fuel + 1 => do
    let a ← allOf m p fuel
    match ← get with
    | "-o" :: rest =>
      set rest
      let b ← anyOf m p fuel
      return a || b
    | _ => return a

/-- Combinations. -/
def allOf (m : Manner) (p : Process) : Nat → Counting Bool
  | 0 => return false
  | fuel + 1 => do
    let a ← term m p fuel
    match ← get with
    | "-a" :: rest =>
      set rest
      let b ← allOf m p fuel
      return a && b
    | _ => return a

/-- A single question. -/
def term (m : Manner) (p : Process) : Nat → Counting Bool
  | 0 => return false
  | fuel + 1 => do
    match ← get with
    | [] => throw (.missingAfter "")
    | "!" :: rest =>
      set rest
      return !(← term m p fuel)
    | "(" :: rest =>
      set rest
      let b ← anyOf m p fuel
      match ← get with
      | ")" :: rest =>
        set rest
        return b
      | _ => throw .closingExpected
    | a :: op :: b :: rest =>
      if (binaryOperators m.style).contains op then
        set rest
        compare m p op a b
      else if asksOne m a then
        set (b :: rest)
        ask m p a op
      else
        set (op :: b :: rest)
        return !a.isEmpty
    | [a, b] =>
      if asksOne m a then
        set ([] : List String)
        ask m p a b
      else
        set [b]
        return !a.isEmpty
    | [a] =>
      set ([] : List String)
      return !a.isEmpty

end

/-- A condition of two arguments. -/
def holdsTwo (m : Manner) (p : Process) (a b : String) : Except Fault Bool :=
  if a == "!" then .ok b.isEmpty
  else if a.startsWith "-" && a.length == 2 then
    if asksOne m a then ask m p a b else .error (.unaryExpected a)
  else .error (if m.style == .tool then .missingAfter b else .unaryExpected a)

/-- A condition of three arguments. -/
def holdsThree (m : Manner) (p : Process) (a op b : String) : Except Fault Bool :=
  if (binaryOperators m.style).contains op then compare m p op a b
  else if op == "-a" then .ok (!a.isEmpty && !b.isEmpty)
  else if op == "-o" then .ok (!a.isEmpty || !b.isEmpty)
  else if a == "!" then (holdsTwo m p op b).map (!·)
  else if a == "(" && b == ")" then .ok (!op.isEmpty)
  else .error (.binaryExpected op)

/-- Whether a condition holds, its arguments being counted first. -/
def holdsByCount (m : Manner) (p : Process) (args : List String) : Except Fault Bool :=
  let general : Except Fault Bool := do
    match ← (anyOf m p (4 * args.length + 8)).run args with
    | (b, []) => return b
    | (_, s :: _) => throw (.tooMany s)
  match args with
  | [] => .ok false
  | [a] => .ok (!a.isEmpty)
  | [a, b] => holdsTwo m p a b
  | [a, op, b] => holdsThree m p a op b
  | [a, b, c, d] =>
    if a == "!" then (holdsThree m p b c d).map (!·)
    else if a == "(" && d == ")" then holdsTwo m p b c
    else general
  | _ => general

/-! ## The command -/

/-- Whether a condition holds. -/
def holds (m : Manner) (p : Process) (args : List String) : Except Fault Bool :=
  if m.style == .plain then holdsInOrder m p (args.length + 2) args false
  else holdsByCount m p args

/-- The condition in the arguments of a command, which a bracket has to close. -/
def ofCommand (name : String) (args : List String) : Except Fault (List String) :=
  if name.endsWith "[" then
    if args.getLast? == some "]" then .ok args.dropLast else .error .missingBracket
  else .ok args

end Provision.Condition

namespace Provision.Tool

/-- Tells by its status whether a condition holds. -/
def test (args : List String) : Tool Nat := do
  let p ← get
  let result := do
    let args ← Condition.ofCommand p.name args
    Condition.holds { style := .tool } p args
  match result with
  | .ok b => return if b then 0 else 1
  | .error e =>
    complain (e.message .tool)
    return 2

end Provision.Tool
