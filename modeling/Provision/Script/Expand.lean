import Provision.Script.Parameter
import Provision.Script.Read

/-!
# Expansion

Words are expanded when their command is run: parameters give way to their values, scripts to
what they print, and expressions to their numbers. Most words are then split into fields.
-/

namespace Provision.Script

namespace Step

/-! ## Failures -/

/-- Ends the shell, because a word cannot be expanded. In the richer language only the present
line may be ended. -/
def unexpanded {α : Type} (whole : Bool) (plain rich : String) : Step α := do
  complain plain rich
  let s ← get
  if !s.isRich then
    setStatus 2
    throw .failed
  else if whole then
    setStatus (if s.direct && s.depth == 0 then 127 else 1)
    throw .leave
  else
    setStatus 1
    throw .abandoned

/-- The name of a parameter as complaints give it. -/
def parameterLabel (name : String) : String :=
  if isName name then name else "$" ++ name

/-- The value of an expression. -/
def calculated (text : String) : Step Int := do
  match Arithmetic.evaluate (← get) text with
  | .ok (n, s) =>
    set s
    return n
  | .error (.wrong message) => unexpanded false message message
  | .error (.fixed name) =>
    unexpanded false s!"{name}: is read only" s!"{name}: readonly variable"
  | .error (.unset name) =>
    unexpanded true s!"{name}: parameter not set" s!"{name}: unbound variable"

/-- Gives a variable a text in an expansion or an assignment. -/
def assignOrEnd (name text : String) : Step Unit := do
  let s ← get
  match s.bindings.get? name with
  | some v =>
    if v.fixed then
      unexpanded false s!"{name}: is read only" s!"{name}: readonly variable"
    else if v.numeric then set (s.put name (toString (← calculated text)))
    else set (s.put name text)
  | none => set (s.put name text)

/-! ## Words -/

/-- The text of a word that is not split. -/
def textBy (r : Runner) (m : Setting) (w : Word) : Step String := do
  return atomsText (← r.pieces { m with splits := false } w)

/-- The pattern that a word spells. -/
def globBy (r : Runner) (w : Word) : Step Glob := do
  let s ← get
  let cs := marked (← r.pieces { splits := false } (atHome s false w))
  return Glob.ofMarked s.isRich (cs.length + 1) cs

/-- The index of an element. -/
def indexBy (r : Runner) (name : String) (index : Word) : Step (String ⊕ Int) := do
  let text ← textBy r { quoted := true } index
  let s ← get
  if Arithmetic.hasNames s name then return .inl text
  return .inr (← calculated text)

/-- What a parameter, or an element of it, stands for. -/
def contentBy (r : Runner) (name : String) (element : Element Word) : Step Content := do
  match element with
  | .whole => return (← get).content name
  | .all joined => return .many (((← get).elements name).map Prod.snd) joined
  | .at index =>
    let i ← indexBy r name index
    let s ← get
    let dynamic := ((s.bindings.get? name).bind Variable.value).isNone
    let found := match i with
      | .inr n => if dynamic && 0 ≤ n then (s.elements name)[n.toNat]?.map Prod.snd
        else Arithmetic.element? s name i
      | .inl _ => Arithmetic.element? s name i
    return found.elim .nothing .text

/-- Ends the shell if a parameter without a value must not be used. -/
def demand (name : String) (c : Content) : Step Unit := do
  let s ← get
  match c with
  | .nothing =>
    if s.has "nounset" then
      let label := parameterLabel name
      unexpanded true s!"{name}: parameter not set" s!"{label}: unbound variable"
  | _ => pure ()

/-- The content that the value of a parameter names. -/
def namedContent (r : Runner) (c : Content) : Step Content := do
  let s ← get
  let target := c.single s
  let base := String.ofList (target.toList.takeWhile (· != '['))
  if base.length < target.length then
    let index := String.ofList ((target.toList.drop (base.length + 1)).dropLast)
    if index == "@" || index == "*" then contentBy r base (.all (index == "*"))
    else contentBy r base (.at [.text index])
  else return s.content target

/-- The parts of a content from an offset on. -/
def sliced (name : String) (c : Content) (offset : Int) (size : Option Int) : Step Content := do
  let s ← get
  let refused {α : Type} : Step α := do
    let n := (size.map toString).getD ""
    unexpanded false "" s!"{n}: substring expression < 0"
  match c with
  | .nothing => return .nothing
  | .text t =>
    match partOf t.toList offset size with
    | some cs => return .text (String.ofList cs)
    | none => refused
  | .many items joined =>
    let items := if name == "@" || name == "*" then s.name :: items else items
    let whole := name == "@" || name == "*"
    let offset := if whole && offset < 0 then offset + items.length else offset
    match partOf items offset size with
    | some part => return .many part joined
    | none => refused

/-- A content written again, as that of a variable. -/
def speltContent (name : String) (element : Element Word) (how : Spelling) (c : Content) :
    Step Content := do
  let s ← get
  let v := (s.bindings.get? name).getD {}
  let letters := propertiesOf v
  match how with
  | .quoted => return c.map singlyQuoted
  | .unescaped =>
    return c.map fun t => match dollarQuoted (t.length + 1) (t.toList ++ ['\'']) with
      | some (cs, _) => String.ofList cs
      | none => t
  | .properties => return if v.value.isNone then .nothing else .text letters
  | .declared =>
    return match element, c with
      | .all _, .many .. =>
        let whole := declaration name v
        .text (String.ofList (whole.toList.take (whole.length - 1)))
      | _, .text t =>
        let assigned := s!"{name}=" ++ singlyQuoted t
        .text (if letters.isEmpty then assigned else s!"declare -{letters} " ++ assigned)
      | _, c => c

/-- Expands a parameter. -/
def expandParameter (r : Runner) (m : Setting) (name : String) (element : Element Word)
    (change : Change) : Step (List Atom) := do
  let c ← contentBy r name element
  let shown (c : Content) : Step (List Atom) := do return c.atoms (← get) m
  let inner : Setting := { m with loose := !m.quoted && m.splits }
  let fallbackWord (w : Word) : Step Word := do
    let s ← get
    return if m.quoted then w else atHome s false w
  match change with
  | .same =>
    demand name c
    shown c
  | .guarded empty fallback word =>
    let present := c.isSet && !(empty && c.isEmpty)
    match fallback, present with
    | .replace, true => r.pieces inner (← fallbackWord word)
    | .replace, false => return []
    | _, true => shown c
    | .use, false => r.pieces inner (← fallbackWord word)
    | .keep, false =>
      let text ← textBy r m (← fallbackWord word)
      let s ← get
      if !isName name then
        unexpanded false s!"{name}: bad variable name" s!"${name}: cannot assign in this way"
      match element with
      | .at index => set (Arithmetic.withElement s name (← indexBy r name index) text)
      | _ => assignOrEnd name text
      shown (.text text)
    | .fail, false =>
      let text ← textBy r m (← fallbackWord word)
      let plain := if empty then "parameter not set or null" else "parameter not set"
      let rich := if empty then "parameter null or not set" else "parameter not set"
      if text.isEmpty then unexpanded true s!"{name}: {plain}" s!"{name}: {rich}"
      else unexpanded true s!"{name}: {text}" s!"{name}: {text}"
  | .length =>
    demand name c
    let s ← get
    let n := match c with
      | .many items _ => if s.isRich then items.length else (c.single s).length
      | c => (c.single s).length
    return m.valued (toString n)
  | .trimmed fromEnd longest pattern =>
    demand name c
    let glob ← globBy r pattern
    shown (c.map fun t => String.ofList (glob.trimmed fromEnd longest t.toList))
  | .slice offset size =>
    demand name c
    let start ← calculated (← textBy r { quoted := true } offset)
    let length ← (match size with
      | none => pure none
      | some w => do
        let text ← textBy r { quoted := true } w
        return some (← calculated text))
    shown (← sliced name c start length)
  | .replaced extent pattern word =>
    demand name c
    let glob ← globBy r pattern
    let new := marked (← r.pieces { m with splits := false } word)
    let made (found : List Char) : List Char :=
      new.flatMap fun (c, free) => if free && c == '&' then found else [c]
    shown (c.map (replacedText extent glob made))
  | .cased upper all =>
    demand name c
    shown (c.map (cased upper all))
  | .named =>
    demand name c
    shown (← namedContent r c)
  | .spelt how =>
    demand name c
    shown (← speltContent name element how c)
  | .indices =>
    let joined := match element with
      | .all joined => joined
      | _ => false
    let s ← get
    shown (.many ((s.elements name).map Prod.fst) joined)

/-- Whether pieces between quotes may be no field at all. -/
def mayVanish (rich : Bool) (ps : List Piece) : Bool :=
  let isList : Piece → Bool
    | .parameter "@" .whole .same => true
    | .parameter "@" .whole _ | .parameter _ (.all false) _ => rich
    | _ => false
  !ps.isEmpty && ps.all isList && (rich || ps.length == 1)

/-- Expands a piece of a word. -/
def expandPiece (r : Runner) (m : Setting) : Piece → Step (List Atom)
  | .text s => return m.written s
  | .quoted ps => do
    let atoms ← r.pieces { m with quoted := true, loose := false } ps
    if atoms.isEmpty && mayVanish (← get).isRich ps then return []
    return .quotes :: atoms
  | .parameter name element change => expandParameter r m name element change
  | .arithmetic body => do
    let text ← textBy r { quoted := true } body
    return m.valued (toString (← calculated text))
  | .output body => do
    let text ← captured r (r.command body)
    let cs := text.toList.filter (· != '\x00')
    return m.valued (String.ofList (cs.reverse.dropWhile (· == '\n')).reverse)
  | .channel body => do
    return m.valued (← channelled r (r.command body))
  | .elements words => do
    let texts ← words.mapM (textBy r m)
    return m.valued ("(" ++ " ".intercalate texts ++ ")")
  | .meaningless text => do
    let whole := "$\x7b" ++ text
    unexpanded false "Bad substitution" s!"{whole}: bad substitution"

/-- Expands the pieces of a word. -/
def expandPieces (r : Runner) (m : Setting) : Word → Step (List Atom)
  | [] => return []
  | p :: rest => do
    let first ← expandPiece r m p
    return first ++ (← expandPieces r m rest)

/-! ## Fields -/

/-- The fields that a word stands for. -/
def fieldsBy (r : Runner) (w : Word) : Step (List String) := do
  let s ← get
  let words := if s.isRich && s.has "braceexpand" then braced w else [w]
  let parts ← words.mapM fun w => do
    let s ← get
    let w := match if s.isRich then assignment? true w else none with
      | some (.mk name none adds value) =>
        Word.add (name ++ if adds then "+=" else "=") (atHomes s 1000 value)
      | _ => atHome s false w
    let atoms ← r.pieces {} w
    let t ← get
    return (fieldsOf t.separators atoms).flatMap (globbed t)
  return parts.flatten

/-- The text of a word, a tilde in front of it standing for the home directory. -/
def oneTextBy (r : Runner) (w : Word) : Step String := do
  let s ← get
  textBy r {} (atHome s false w)

/-- The text of the value of an assignment. -/
def valueBy (r : Runner) (w : Word) : Step String := do
  let s ← get
  textBy r {} (atHomes s 1000 w)

/-- The value that words between parentheses make, beside what there is already. -/
def elementsBy (r : Runner) (words : List Word) (old : Option Value) : Step Value := do
  let named := match old with
    | some (.entries _) => true
    | _ => false
  let mut items : List (Nat × String) := match old with
    | some (.items es) => es
    | some (.text t) => [(0, t)]
    | _ => []
  let mut entries : Registry String := match old with
    | some (.entries es) => es
    | _ => {}
  let mut next : Nat := (items.map fun e => e.1 + 1).foldl max 0
  for w in words do
    match indexed w with
    | some (index, value) =>
      let text ← valueBy r value
      let key ← textBy r { quoted := true } index
      if named then entries := entries.insert key text
      else
        let i := (← calculated key).toNat
        items := ((i, text) :: items.filter fun e => e.1 != i)
        next := i + 1
    | none =>
      for text in ← fieldsBy r w do
        items := ((next, text) :: items.filter fun e => e.1 != next)
        next := next + 1
  return if named then .entries entries else .items (items.mergeSort fun a b => a.1 ≤ b.1)
where
  /-- The index and the value of an element that says its index. -/
  indexed : Word → Option (Word × Word)
    | .text t :: rest =>
      match t.toList with
      | '[' :: cs =>
        let inner := cs.takeWhile (· != ']')
        match cs.drop inner.length, rest with
        | ']' :: '=' :: cs, rest =>
          some ([.text (String.ofList inner)],
            if cs.isEmpty then rest else .text (String.ofList cs) :: rest)
        | [], p :: .text u :: rest =>
          match u.toList with
          | ']' :: '=' :: cs =>
            some ([.text (String.ofList inner), p],
              if cs.isEmpty then rest else .text (String.ofList cs) :: rest)
          | _ => none
        | _, _ => none
      | _ => none
    | _ => none

/-- Performs an assignment, and tells it again. -/
def assignBy (r : Runner) : Assignment → Step String
  | .mk name index adds [.elements words] => do
    let s ← get
    let old := (s.bindings.get? name).bind Variable.value
    let start : Option Value := match adds, old with
      | true, old => old
      | false, some (.entries _) => some (.entries {})
      | false, _ => none
    let value ← elementsBy r words start
    match index with
    | some _ => unexpanded false "" s!"{name}: cannot assign list to array member"
    | none =>
      modify fun s =>
        s.setVariable name (some { (s.bindings.get? name).getD {} with value := some value })
      let sign := if adds then "+=" else "="
      return name ++ sign ++ "(" ++ " ".intercalate (words.map shownPieces) ++ ")"
  | .mk name none adds w => do
    let text ← valueBy r w
    let s ← get
    let numeric := (s.bindings.get? name).any Variable.numeric
    let before := if adds then (s.text? name).getD "" else ""
    if numeric && !before.isEmpty then assignOrEnd name s!"{before}+({text})"
    else assignOrEnd name (before ++ text)
    let sign := if adds then "+=" else "="
    return name ++ sign ++ (if s.isRich && !text.isEmpty then lightlyQuoted text else text)
  | .mk name (some index) adds w => do
    let i ← indexBy r name index
    let text ← valueBy r w
    let s ← get
    if (s.bindings.get? name).any Variable.fixed then
      unexpanded false "" s!"{name}: readonly variable"
    let before := if adds then (Arithmetic.element? s name i).getD "" else ""
    set (Arithmetic.withElement s name i (before ++ text))
    let sign := if adds then "]+=" else "]="
    return name ++ "[" ++ shownPieces index ++ sign ++ lightlyQuoted text

end Step

end Provision.Script
