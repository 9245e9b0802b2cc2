import Provision.Tool
import Provision.Regex.Read

/-!
# Expressions in arguments

The program that takes each of its arguments for a part of an expression over texts and
integers.
-/

namespace Provision.Expr

/-- The integer that a text spells. -/
def integer? (s : String) : Option Int :=
  match s.toList with
  | '-' :: ds => (Tool.nat? (String.ofList ds)).map fun n => -(n : Int)
  | ds => (Tool.nat? (String.ofList ds)).map fun n => (n : Int)

/-- Whether a value counts as nothing: an empty text, or zeros. -/
def isNull (s : String) : Bool :=
  match s.toList with
  | '-' :: ds => !ds.isEmpty && ds.all (· == '0')
  | ds => ds.all (· == '0')

/-- What is wrong with an expression, and the status that it ends with. -/
inductive Fault
  | unexpected (s : String)
  | missing (s : String)
  | expectingClosing (s : String)
  | missingOperand
  | nonInteger
  | divisionByZero
  | badExpression

/-- The wording of what is wrong. -/
def Fault.message : Fault → String
  | unexpected s => s!"syntax error: unexpected argument {Tool.quoted s}"
  | missing s => s!"syntax error: missing argument after {Tool.quoted s}"
  | expectingClosing s => s!"syntax error: expecting ')' after {Tool.quoted s}"
  | missingOperand => "missing operand"
  | nonInteger => "non-integer argument"
  | divisionByZero => "division by zero"
  | badExpression => "Invalid regular expression"

/-- The arguments that are left, and the one that has been read last. -/
structure Reading where
  rest : List String
  last : String := ""

/-- A reader of expressions. -/
abbrev Reader := StateT Reading (Except Fault)

/-- The next argument, which is taken away. -/
def take : Reader String := do
  let s ← get
  match s.rest with
  | a :: rest =>
    set ({ rest := rest, last := a } : Reading)
    return a
  | [] => throw (.missing s.last)

/-- Takes the next argument if it is one of some. -/
def takeIf (ops : List String) : Reader (Option String) := do
  match (← get).rest with
  | a :: _ => if ops.contains a then return some (← take) else return none
  | [] => return none

/-- The value of a text that is matched with an expression from its start. -/
def matched (s pattern : String) : Except Fault String :=
  match Regex.read false pattern with
  | .error _ => .error .badExpression
  | .ok r =>
    let t := Regex.Subject.ofString s false
    let r := match r with
      | .sequence (.edge .lineStart) r => r
      | r => r
    let grouped := pattern.contains '(' && (pattern.splitOn "\\(").length != 1
    match r.matchAt? t 0 with
    | some m => .ok (if grouped then (m.part t 1).getD "" else toString (m.stop - m.start))
    | none => .ok (if grouped then "" else "0")

/-- The value of an operation on integers. -/
def operate (op a b : String) : Except Fault String :=
  match integer? a, integer? b with
  | some x, some y =>
    match op with
    | "+" => .ok (toString (x + y))
    | "-" => .ok (toString (x - y))
    | "*" => .ok (toString (x * y))
    | "/" => if y = 0 then .error .divisionByZero else .ok (toString (x.tdiv y))
    | _ => if y = 0 then .error .divisionByZero else .ok (toString (x.tmod y))
  | _, _ => .error .nonInteger

/-- Whether a comparison holds: of integers if both sides are, of texts otherwise. -/
def compares (op a b : String) : Bool :=
  let o := match integer? a, integer? b with
    | some x, some y => compare x y
    | _, _ => compare a b
  match op with
  | "<" => o == .lt
  | "<=" => o != .gt
  | "=" | "==" => o == .eq
  | "!=" => o != .eq
  | ">=" => o != .lt
  | _ => o == .gt

/-- The operators between two values by their strength, the weakest ones first. -/
def levels : List (List String) :=
  [["|"], ["&"], ["<", "<=", "=", "==", "!=", ">=", ">"], ["+", "-"], ["*", "/", "%"], [":"]]

/-- The value of an operator between two values. -/
def combine (op a b : String) : Except Fault String :=
  match op with
  | "|" => .ok (if !isNull a then a else if isNull b then "0" else b)
  | "&" => .ok (if isNull a || isNull b then "0" else a)
  | ":" => matched a b
  | "+" | "-" | "*" | "/" | "%" => operate op a b
  | op => .ok (if compares op a b then "1" else "0")

mutual

/-- The value of an expression whose operators are of a level or stronger. -/
def level : Nat → Nat → Reader String
  | 0, _ => throw .missingOperand
  | fuel + 1, n => do
    if n ≥ levels.length then value fuel
    else further fuel n (← level fuel (n + 1))

/-- Further operators of a level after a value. -/
def further : Nat → Nat → String → Reader String
  | 0, _, a => return a
  | fuel + 1, n, a => do
    match ← takeIf (levels.getD n []) with
    | none => return a
    | some op =>
      let b ← level fuel (n + 1)
      match combine op a b with
      | .ok v => further fuel n v
      | .error e => throw e

/-- A single value. -/
def value : Nat → Reader String
  | 0 => throw .missingOperand
  | fuel + 1 => do
    match ← take with
    | "(" =>
      let v ← level fuel 0
      match (← get).rest with
      | ")" :: _ =>
        discard take
        return v
      | [] => throw (.expectingClosing (← get).last)
      | a :: _ => throw (.unexpected a)
    | ")" => throw (.unexpected ")")
    | "+" => take
    | "length" => return toString (← value fuel).length
    | "match" =>
      let a ← value fuel
      match matched a (← value fuel) with
      | .ok v => return v
      | .error e => throw e
    | "index" =>
      let a ← value fuel
      let set1 := (← value fuel).toList
      match a.toList.findIdx? set1.contains with
      | some i => return toString (i + 1)
      | none => return "0"
    | "substr" =>
      let a ← value fuel
      let start := integer? (← value fuel)
      let size := integer? (← value fuel)
      match start, size with
      | some i, some n =>
        if i ≤ 0 || n ≤ 0 then return ""
        return String.ofList ((a.toList.drop (i.toNat - 1)).take n.toNat)
      | _, _ => return ""
    | s => return s

end

/-- The value of arguments. -/
def evaluate (args : List String) : Except Fault String := do
  if args.isEmpty then throw .missingOperand
  let (v, s) ← (level (16 * args.length + 16) 0).run { rest := args }
  match s.rest with
  | [] => return v
  | a :: _ => throw (.unexpected a)

end Provision.Expr

namespace Provision.Tool

/-- Prints the value of an expression, and tells by its status whether that is nothing. -/
def expr (args : List String) : Tool Nat := do
  let args := if args.head? == some "--" then args.drop 1 else args
  match Expr.evaluate args with
  | .ok v =>
    putLine v
    return if Expr.isNull v then 1 else 0
  | .error .missingOperand => refuse 2 Expr.Fault.missingOperand.message
  | .error e => fail 2 e.message

end Provision.Tool
