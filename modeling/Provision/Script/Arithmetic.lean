import Provision.Script.Session

/-!
# Arithmetic

Expressions over integers of 64 bits, with the operators of C. A variable counts as the number
in it, or as zero. What is not needed for the value is not evaluated.

> `wrap_range`: every value fits into 64 bits.
-/

namespace Provision.Script.Arithmetic

/-! ## Numbers -/

/-- The smallest number that is too large. -/
def bound : Nat := Nat.pow 2 63

/-- An integer of 64 bits. -/
def wrap (n : Int) : Int := n.bmod (Nat.pow 2 64)

/-- What is wrapped lies in the range of the integers. -/
theorem wrap_range (n : Int) : -(bound : Int) ≤ wrap n ∧ wrap n < bound := by
  unfold wrap bound
  constructor
  · have := Int.le_bmod (x := n) (m := Nat.pow 2 64) (by decide)
    simpa using this
  · have := Int.bmod_lt (x := n) (m := Nat.pow 2 64) (by decide)
    simpa using this

/-- A truth value as a number. -/
def truth (b : Bool) : Int := if b then 1 else 0

/-- The value of a digit, letters being digits after nine. -/
def digit? (c : Char) : Option Nat :=
  if c.isDigit then some (c.toNat - 48)
  else if 'a' ≤ c ∧ c ≤ 'z' then some (c.toNat - 87)
  else if 'A' ≤ c ∧ c ≤ 'Z' then some (c.toNat - 55)
  else none

/-- The digits of a base in front of a text. -/
def digitsOf (base : Nat) (cs : List Char) : List Nat :=
  (cs.takeWhile fun c => (digit? c).any (· < base)).filterMap digit?

/-- The number that digits stand for. -/
def ofDigits (base : Nat) (ds : List Nat) : Nat := ds.foldl (fun n d => base * n + d) 0

/-- The number in front of a text whose base its first characters tell, and what comes after
it. -/
def leading (cs : List Char) : Option (Nat × List Char) :=
  let read (base skipped : Nat) : Option (Nat × List Char) :=
    let ds := digitsOf base (cs.drop skipped)
    if ds.isEmpty then none else some (ofDigits base ds, cs.drop (skipped + ds.length))
  let based : Option (Nat × List Char) := match cs with
    | '0' :: 'x' :: _ | '0' :: 'X' :: _ => read 16 2
    | '0' :: 'b' :: _ | '0' :: 'B' :: _ => read 2 2
    | _ => none
  match based, cs with
  | some r, _ => some r
  | none, '0' :: _ => read 8 0
  | none, _ => read 10 0

/-- Whether a character is white space. -/
def isWhite (c : Char) : Bool := c == ' ' || ('\t' ≤ c && c ≤ '\x0d')

/-- The number that a whole text stands for, as large or small as it can be at most. Nothing
is zero. -/
def numberOf? (s : String) : Option Int :=
  let cs := s.toList.dropWhile isWhite
  let (negative, cs) := match cs with
    | '-' :: rest => (true, rest)
    | '+' :: rest => (false, rest)
    | cs => (false, cs)
  match leading cs with
  | some (n, rest) =>
    if rest.all isWhite then some (if negative then -(min n bound : Int) else min n (bound - 1))
    else none
  | none => if s.toList.all isWhite then some 0 else none

/-- The number of a token of the richer language: the base may stand before a sharp sign. -/
def based? (s : String) : Option Int :=
  let value (base : Nat) (cs : List Char) : Option Nat :=
    let ds := cs.map fun c =>
      if base ≤ 36 then digit? c
      else if c.isDigit then some (c.toNat - 48)
      else if c.isLower then some (c.toNat - 87)
      else if c.isUpper then some (c.toNat - 29)
      else if c == '@' then some 62
      else if c == '_' then some 63
      else none
    if ds.all fun d => d.any (· < base) then some (ofDigits base (ds.filterMap id)) else none
  match s.splitOn "#" with
  | [base, digits] =>
    match Tool.nat? base with
    | some b =>
      if 2 ≤ b && b ≤ 64 && !digits.isEmpty then
        (value b digits.toList).map fun n => wrap (Int.ofNat n)
      else none
    | none => none
  | [_] =>
    let n := match s.toList with
      | '0' :: 'x' :: rest | '0' :: 'X' :: rest => value 16 rest
      | '0' :: rest => value 8 rest
      | cs => value 10 cs
    n.map fun n => wrap (Int.ofNat n)
  | _ => none

/-! ## Operations -/

/-- The operators, longer ones before those they begin with. -/
def operators (rich : Bool) : List String :=
  ["<<=", ">>="] ++ (if rich then ["**", "++", "--"] else []) ++
  ["&&", "||", "==", "!=", "<=", ">=", "<<", ">>", "+=", "-=", "*=", "/=", "%=",
    "&=", "|=", "^=", "+", "-", "*", "/", "%", "<", ">", "=", "!", "~", "&", "|", "^", "?", ":",
    "(", ")"] ++ if rich then [","] else []

/-- The operators that change a variable. -/
def assignments : List String :=
  ["=", "+=", "-=", "*=", "/=", "%=", "&=", "|=", "^=", "<<=", ">>="]

/-- The precedence of an operator between two operands, the strongest first. -/
def precedence? (op : String) : Option Nat :=
  [["*", "/", "%"], ["+", "-"], ["<<", ">>"], ["<", "<=", ">", ">="], ["==", "!="], ["&"], ["^"],
    ["|"], ["&&"], ["||"]].findIdx? fun l => l.contains op

/-- The value of an operation on bits. -/
def bits (f : UInt64 → UInt64 → UInt64) (a b : Int) : Int :=
  wrap (f (a.emod (Nat.pow 2 64)).toNat.toUInt64 (b.emod (Nat.pow 2 64)).toNat.toUInt64).toNat

/-- The value of an operation, unless it divides by zero. -/
def apply (op : String) (a b : Int) : Option Int :=
  match op with
  | "*" => some (wrap (a * b))
  | "/" => if b = 0 then none else some (wrap (a.tdiv b))
  | "%" => if b = 0 then none else some (wrap (a.tmod b))
  | "+" => some (wrap (a + b))
  | "-" => some (wrap (a - b))
  | "<<" => some (wrap (a * Nat.pow 2 (b.emod 64).toNat))
  | ">>" => some (a.fdiv (Nat.pow 2 (b.emod 64).toNat))
  | "<" => some (truth (a < b))
  | "<=" => some (truth (a ≤ b))
  | ">" => some (truth (b < a))
  | ">=" => some (truth (b ≤ a))
  | "==" => some (truth (a == b))
  | "!=" => some (truth (a != b))
  | "&" => some (bits (· &&& ·) a b)
  | "^" => some (bits (· ^^^ ·) a b)
  | "|" => some (bits (· ||| ·) a b)
  | "&&" => some (truth (a != 0 && b != 0))
  | _ => some (truth (a != 0 || b != 0))

/-- A power, by squaring. -/
def raised : Nat → Int → Nat → Int
  | 0, _, _ => 1
  | fuel + 1, a, n =>
    if n = 0 then 1
    else
      let half := raised fuel (wrap (a * a)) (n / 2)
      if n % 2 = 1 then wrap (a * half) else half

/-! ## Evaluation -/

/-- A token of an expression. -/
inductive Token
  | number (n : Int)
  /-- A variable, perhaps with the text of an index. -/
  | name (s : String) (index : Option String)
  | operator (s : String)
  | ending
deriving DecidableEq

/-- Why an expression has no value. -/
inductive Fault
  | wrong (message : String)
  /-- The value of a variable cannot be changed. -/
  | fixed (name : String)
  /-- A variable has no value, but should have one. -/
  | unset (name : String)

/-- The state of an evaluation. -/
structure State where
  session : Session
  /-- The whole expression. -/
  expression : String
  /-- What comes after the present token. -/
  rest : List Char
  token : Token := .ending
  /-- The expression from the last token on. -/
  last : List Char := []

/-- An evaluation. -/
abbrev Eval := StateT State (Except Fault)

/-- Complains in the wording of a language: one names the whole expression, the other one
where it goes wrong. -/
def wrong {α : Type} (plain rich : String) : Eval α := do
  let s ← get
  let text := s.expression
  if s.session.isRich then
    let trimmed := String.ofList (text.toList.dropWhile fun c => c == ' ' || c == '\t')
    let token := String.ofList s.last
    throw (.wrong s!"{trimmed}: {rich} (error token is \"{token}\")")
  else throw (.wrong s!"arithmetic expression: {plain}: \"{text}\"")

/-- Complains that an operand is missing. -/
def noOperand {α : Type} : Eval α := wrong "expecting primary" "syntax error: operand expected"

/-- The text up to the bracket that closes an index, and what comes after that. -/
def bracketed : Nat → List Char → Option (List Char × List Char)
  | _, [] => none
  | 0, ']' :: rest => some ([], rest)
  | depth + 1, ']' :: rest => (bracketed depth rest).map fun (a, b) => (']' :: a, b)
  | depth, '[' :: rest => (bracketed (depth + 1) rest).map fun (a, b) => ('[' :: a, b)
  | depth, c :: rest => (bracketed depth rest).map fun (a, b) => (c :: a, b)

/-- Goes on to the next token. -/
def advance : Eval Unit := do
  let s ← get
  let rich := s.session.isRich
  let cs := s.rest.dropWhile fun c => c == ' ' || c == '\t' || c == '\n'
  let found (token : Token) (rest : List Char) : Eval Unit :=
    set { s with token := token, rest := rest, last := cs }
  match cs with
  | [] => set { s with token := .ending, rest := [] }
  | c :: _ =>
    if isNameStart c then
      let name := cs.takeWhile isNameChar
      let rest := cs.drop name.length
      match if rich && rest.head? == some '[' then bracketed 0 (rest.drop 1) else none with
      | some (index, rest) =>
        found (.name (String.ofList name) (some (String.ofList index))) rest
      | none => found (.name (String.ofList name) none) rest
    else if c.isDigit then
      if rich then
        let word := cs.takeWhile fun c => c.isAlphanum || c == '#' || c == '@' || c == '_'
        match based? (String.ofList word) with
        | some n => found (.number n) (cs.drop word.length)
        | none =>
          set { s with last := cs }
          wrong "" "value too great for base"
      else match leading cs with
        | some (n, rest) => found (.number (min n (bound - 1))) rest
        | none => found (.operator (String.singleton c)) (cs.drop 1)
    else match (operators rich).find? fun op => op.toList.isPrefixOf cs with
      | some op => found (.operator op) (cs.drop op.length)
      | none =>
        if rich then
          set { s with last := cs }
          match s.token with
          | .number _ | .name .. => wrong "" "syntax error: invalid arithmetic operator"
          | _ => wrong "" "syntax error: operand expected"
        else found (.operator (String.singleton c)) (cs.drop 1)

/-- The element of a variable with a number, or with a name. -/
def element? (session : Session) (name : String) (index : String ⊕ Int) : Option String := do
  match ← (← session.bindings.get? name).value, index with
  | .text t, .inr i => if i = 0 then some t else none
  | .items es, .inr i =>
    let size : Nat := (es.map fun e => e.1 + 1).foldl max 0
    let i := if i < 0 then i + size else i
    (es.find? fun e => (e.1 : Int) == i).map Prod.snd
  | .entries es, .inl key => es.get? key
  | _, _ => none

/-- Gives an element of a variable a text. -/
def withElement (session : Session) (name : String) (index : String ⊕ Int) (text : String) :
    Session :=
  let v := (session.bindings.get? name).getD {}
  let items (es : List (Nat × String)) (i : Int) : Value :=
    let size : Nat := (es.map fun e => e.1 + 1).foldl max 0
    let i := (if i < 0 then i + size else i).toNat
    .items (((i, text) :: es.filter fun e => e.1 != i).mergeSort fun a b => a.1 ≤ b.1)
  let value : Value := match v.value, index with
    | some (.entries es), .inl key => .entries (es.insert key text)
    | some (.items es), .inr i => items es i
    | some (.text t), .inr i => items [(0, t)] i
    | _, .inr i => items [] i
    | _, .inl key => .entries (Registry.ofList [(key, text)])
  session.setVariable name (some { v with value := some value })

/-- Whether the elements of a variable have names. -/
def hasNames (session : Session) (name : String) : Bool :=
  match (session.bindings.get? name).bind Variable.value with
  | some (.entries _) => true
  | _ => false

mutual

/-- The value of a text as an expression of its own. -/
def valueOfText : Nat → String → Eval Int
  | 0, _ => noOperand
  | fuel + 1, text => do
    let s ← get
    if text.toList.all isWhite then return 0
    set { s with expression := text, rest := text.toList, token := .ending, last := [] }
    advance
    let n ← commas fuel true
    let t ← get
    if t.token ≠ .ending then wrong "" "syntax error in expression"
    set { s with session := t.session }
    return n

/-- The index of an element. -/
def indexOf : Nat → String → Option String → Eval (String ⊕ Int)
  | 0, _, _ => noOperand
  | _, _, none => return .inr 0
  | fuel + 1, name, some text => do
    if hasNames (← get).session name then return .inl text
    return .inr (← valueOfText fuel text)

/-- The number in a variable. -/
def valueOf : Nat → String → Option String → Eval Int
  | 0, _, _ => noOperand
  | fuel + 1, name, index => do
    let session := (← get).session
    let text ← (match index with
      | none => pure (session.text? name)
      | some _ => do
        let i ← indexOf fuel name index
        pure (element? session name i))
    match text with
    | none =>
      if session.isRich && session.has "nounset" then throw (.unset name)
      return 0
    | some t =>
      if session.isRich then valueOfText fuel t
      else match numberOf? t with
        | some n => return n
        | none => throw (.wrong s!"Illegal number: {t}")

/-- Gives a variable a number. -/
def store : Nat → String → Option String → Int → Eval Unit
  | 0, _, _, _ => noOperand
  | fuel + 1, name, index, n => do
    let session := (← get).session
    if (session.bindings.get? name).any Variable.fixed then throw (.fixed name)
    match index with
    | none => modify fun s => { s with session := s.session.put name (toString n) }
    | some _ =>
      let i ← indexOf fuel name index
      modify fun s => { s with session := withElement s.session name i (toString n) }

/-- Expressions with commas between them. The last one counts. -/
def commas : Nat → Bool → Eval Int
  | 0, _ => noOperand
  | fuel + 1, live => do
    let n ← assigned fuel live
    if (← get).token = .operator "," then
      advance
      commas fuel live
    else return n

/-- An assignment, or a choice. -/
def assigned : Nat → Bool → Eval Int
  | 0, _ => noOperand
  | fuel + 1, live => do
    let s ← get
    match s.token with
    | .name x index =>
      advance
      match (← get).token with
      | .operator op =>
        if assignments.contains op then
          advance
          let value ← assigned fuel live
          if !live then return value
          let value ← (if op == "=" then pure value else do
            let old ← valueOf fuel x index
            match apply (String.ofList op.toList.dropLast) old value with
            | some v => pure v
            | none => wrong "division by zero" "division by 0")
          store fuel x index value
          return value
        else
          set s
          choice fuel live
      | _ =>
        set s
        choice fuel live
    | _ =>
      let n ← choice fuel live
      match (← get).token with
      | .operator op =>
        if s.session.isRich && assignments.contains op then
          wrong "" "attempted assignment to non-variable"
        return n
      | _ => return n

/-- A choice between two operands. -/
def choice : Nat → Bool → Eval Int
  | 0, _ => noOperand
  | fuel + 1, live => do
    let c ← operation fuel live 9
    if (← get).token = .operator "?" then
      advance
      if (← get).session.isRich && (← get).token == .ending then wrong "" "expression expected"
      let a ← (if (← get).session.isRich then commas fuel (live && c != 0)
        else assigned fuel (live && c != 0))
      if (← get).token ≠ .operator ":" then
        wrong "expecting ':'" "\x60:' expected for conditional expression"
      advance
      if (← get).session.isRich && (← get).token == .ending then wrong "" "expression expected"
      let b ← choice fuel (live && c == 0)
      return if c != 0 then a else b
    else return c

/-- Operations of a precedence and of stronger ones. -/
def operation : Nat → Bool → Nat → Eval Int
  | 0, _, _ => noOperand
  | fuel + 1, live, level => do
    let a ← operand fuel live level
    further fuel live level a

/-- An operand of an operation of a precedence. -/
def operand : Nat → Bool → Nat → Eval Int
  | 0, _, _ => noOperand
  | fuel + 1, live, 0 => power fuel live
  | fuel + 1, live, level + 1 => operation fuel live level

/-- Further operations of a precedence. -/
def further : Nat → Bool → Nat → Int → Eval Int
  | 0, _, _, a => return a
  | fuel + 1, live, level, a => do
    match (← get).token with
    | .operator op =>
      if precedence? op = some level then
        let operandAt := (← get).rest
        advance
        let needed := !((op == "&&" && a == 0) || (op == "||" && a != 0))
        let b ← operand fuel (live && needed) level
        match apply op a b with
        | some v => further fuel live level v
        | none =>
          if !live then further fuel live level 0
          else
            modify fun s => { s with
              last := operandAt.dropWhile fun c => c == ' ' || c == '\t' }
            wrong "division by zero" "division by 0"
      else return a
    | _ => return a

/-- A power, which is as strong as a sign. -/
def power : Nat → Bool → Eval Int
  | 0, _ => noOperand
  | fuel + 1, live => do
    let a ← atom fuel live
    if (← get).token = .operator "**" then
      advance
      let b ← power fuel live
      if b < 0 then
        if live then wrong "" "exponent less than 0"
        return 0
      return raised 64 a b.toNat
    else return a

/-- An operand without operators after it. -/
def atom : Nat → Bool → Eval Int
  | 0, _ => noOperand
  | fuel + 1, live => do
    let changed (x : String) (index : Option String) (by_ : Int) (before : Bool) : Eval Int := do
      if !live then return 0
      let n ← valueOf fuel x index
      store fuel x index (wrap (n + by_))
      return if before then n else wrap (n + by_)
    match (← get).token with
    | .number n =>
      advance
      return n
    | .name x index =>
      advance
      match (← get).token with
      | .operator "++" =>
        advance
        changed x index 1 true
      | .operator "--" =>
        advance
        changed x index (-1) true
      | _ => if live then valueOf fuel x index else return 0
    | .operator "(" =>
      advance
      let v ← (if (← get).session.isRich then commas fuel live else assigned fuel live)
      if (← get).token ≠ .operator ")" then wrong "expecting ')'" "missing \x60)'"
      advance
      return v
    | .operator "-" =>
      advance
      return wrap (-(← atom fuel live))
    | .operator "+" =>
      advance
      atom fuel live
    | .operator "!" =>
      advance
      return truth ((← atom fuel live) == 0)
    | .operator "~" =>
      advance
      return -(← atom fuel live) - 1
    | .operator "++" =>
      advance
      match (← get).token with
      | .name x index =>
        advance
        changed x index 1 false
      | _ => atom fuel live
    | .operator "--" =>
      advance
      match (← get).token with
      | .name x index =>
        advance
        changed x index (-1) false
      | _ => atom fuel live
    | _ => noOperand

end

/-- The value of an expression, and the session after its assignments. -/
def evaluate (session : Session) (text : String) : Except Fault (Int × Session) := do
  let start : State :=
    { session := session, expression := text, rest := text.toList }
  let whole : Eval Int := do
    if session.isRich && text.toList.all isWhite then return 0
    advance
    let n ← (if session.isRich then commas (30 * text.length + 300) true
      else assigned (30 * text.length + 300) true)
    if (← get).token ≠ .ending then wrong "expecting EOF" "syntax error in expression"
    return n
  let (n, s) ← whole.run start
  return (n, s.session)

end Provision.Script.Arithmetic
