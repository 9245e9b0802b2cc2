import Provision.Proofs.Yaml.Readback.Document
import Provision.Yaml.Node.Read

/-!
# Tokens are built into a tree

The tokens of a node are built into a tree with its tags, its scalars and their styles, whatever
follows. Three steps of the descent for each token are enough.

> `Shows`: a tree that says what an outline says;
> `isBuilt_of_legible`: the tokens of a node are built into a tree that shows it;
> `read_render`: what is written of an outline is read as a tree that shows it.
-/

namespace Provision.Yaml

open Outline (settle simpleKey?)

/-! ## Trees -/

/-- Whether a tree is that of an outline, wherever its nodes begin. Where a scalar is a key it may
have another style than elsewhere. -/
inductive Shows : Outline → Node → Prop
  | scalar {tag : Option String} {style : Style} {s : String} {m : Mark} (isKey : Bool) :
      Shows (.scalar tag style s)
        (.scalar m (tag.map fun t => .custom (tagName t)) (settle style isKey s.toList) s)
  | sequence {tag : Option String} {os : List Outline} {m : Mark} {ns : List Node}
      (items : List.Forall₂ Shows os ns) :
      Shows (.sequence tag os) (.sequence m (tag.map fun t => .custom (tagName t)) ns)
  | mapping {tag : Option String} {es : List (Outline × Outline)} {m : Mark}
      {ns : List (Node × Node)} (keys : List.Forall₂ Shows (es.map Prod.fst) (ns.map Prod.fst))
      (values : List.Forall₂ Shows (es.map Prod.snd) (ns.map Prod.snd)) :
      Shows (.mapping tag es) (.mapping m (tag.map fun t => .custom (tagName t)) ns)

/-- Whether a place is in an entry of a mapping, where sequences may stand in its column. -/
def Outline.Place.inEntry : Outline.Place → Bool
  | top | item _ => false
  | mark _ | key _ => true

/-- A state before other tokens, in which no fault has been met and no directive stands. -/
def Building.before (b : Building) (ps : List Placed) (size : Nat) : Building :=
  { b with tokens := ps, stopped := none, handles := Build.defaultHandles, size := size }

/-- Whether a token begins the content of a node. -/
def Token.isContent : Token → Bool
  | .aliasName _ | .anchor _ | .tag .. => false
  | _ => true

namespace Build

variable {α β : Type} {b : Building} {ps rest : List Placed} {t : Placed} {tag : Option String}
  {fuel n : Nat} {block indentless : Bool}

/-! ## Steps -/

@[simp] theorem run_bind (x : Build α) (f : α → Build β) (b : Building) :
    (x >>= f) b = f (x b).1 (x b).2 := rfl

@[simp] theorem run_pure (a : α) (b : Building) : (pure a : Build α) b = (a, b) := rfl

@[simp] theorem peek_before : peek (b.before (t :: rest) n) = (some t, b.before (t :: rest) n) :=
  rfl

@[simp] theorem advance_before : advance (b.before (t :: rest) n) = ((), b.before rest n) := rfl

@[simp] theorem count_before : count (b.before ps n) = ((), b.before ps (n + 1)) := rfl

@[simp] theorem isStopped_before : isStopped (b.before ps n) = (false, b.before ps n) := rfl

/-- The properties of a node without an anchor end before its content. -/
theorem properties_content (rest : List Placed) (ht : t.token.isContent = true) (fuel : Nat)
    (p : Properties) :
    properties fuel p (b.before (t :: rest) n) = (p, b.before (t :: rest) n) := by
  cases fuel with
  | zero => rfl
  | succ fuel =>
    obtain ⟨token, start, stop⟩ := t
    rw [properties]
    cases token <;> first | rfl | exact nomatch ht

/-- The tag that is read names what has been written. -/
theorem tagBytes_tagToken (ps : List Placed) {t' : String} (ht : LegibleTag t') {handle : String}
    {suffix : List UInt8}
    (htoken : tagToken t' = .tag handle suffix) (start m : Mark) :
    ∃ bytes, tagBytes start (some (handle, suffix, m)) (b.before ps n) =
      (some bytes, b.before ps n) ∧
      Tag.ofBytes bytes = .custom (tagName t') := by
  rw [tagToken] at htoken
  split at htoken
  next hmark =>
    obtain ⟨rfl, rfl⟩ := Token.tag.inj htoken
    exact ⟨_, rfl, by rw [hmark]; exact ofBytes_mark⟩
  next hmark =>
    obtain ⟨rfl, rfl⟩ := Token.tag.inj htoken
    exact ⟨_, rfl, ofBytes_tag ht hmark⟩

/-- A node begins with its tag, and goes on with its content. -/
theorem node_before (fuel : Nat) (block indentless : Bool) (rest : List Placed)
    (htag : ∀ t ∈ tag, LegibleTag t) (hps : ps.map Placed.token = tagTokens tag)
    (ht : t.token.isContent = true) : ∃ start p,
      node (fuel + 1) block indentless (b.before (ps ++ t :: rest) n) =
        content fuel block indentless start (tag.map fun t => .custom (tagName t)) p t
          (b.before (t :: rest) n) := by
  cases tag with
  | none =>
    obtain rfl := List.map_eq_nil_iff.mp hps
    refine ⟨t.start, {}, ?_⟩
    have hproperties := properties_content rest (b := b) (n := n) ht 2 {}
    obtain ⟨token, start, stop⟩ := t
    rw [node]
    cases token
    case aliasName | anchor | tag => exact nomatch ht
    all_goals
      simp only [List.nil_append, run_bind, peek_before, hproperties]
      rfl
  | some t' =>
    obtain ⟨p, rfl, hp⟩ := List.map_eq_singleton_iff.mp hps
    obtain ⟨token, start, stop⟩ := p
    obtain ⟨handle, suffix, rfl⟩ : ∃ handle suffix, token = .tag handle suffix := by
      rw [show token = tagToken t' from hp, tagToken]
      split <;> exact ⟨_, _, rfl⟩
    obtain ⟨bytes, hbytes, hname⟩ := tagBytes_tagToken (t :: rest) (b := b) (n := n)
      (htag t' rfl) hp.symm start start
    have hproperties : properties 2 {}
        (b.before (⟨.tag handle suffix, start, stop⟩ :: t :: rest) n) =
        ({ tag := some (handle, suffix, start), start := some start }, b.before (t :: rest) n) := by
      rw [properties]
      exact properties_content _ ht 1 _
    refine ⟨start, { tag := some (handle, suffix, start), start := some start }, ?_⟩
    rw [node]
    simp only [List.singleton_append, run_bind, peek_before, hproperties, Option.getD_some, hbytes,
      isStopped_before, Option.map_some, hname]
    rfl

/-! ## What is built of tokens -/

/-- Whether tokens go on with one that has a property. -/
def Faces (next : Token → Prop) (rest : List Placed) : Prop := ∃ t ∈ rest.head?, next t.token

/-- Whether a step builds something of tokens, whatever comes after a token with a property. -/
def Builds (step : Build α) (tokens : List Token) (next : Token → Prop) (P : α → Prop) : Prop :=
  ∀ (b : Building) (ps rest : List Placed) (n : Nat), ps.map Placed.token = tokens →
    Faces next rest → ∃ x n', step (b.before (ps ++ rest) n) = (x, b.before rest n') ∧ P x

/-- What builds the content of a node builds the node behind its tag. -/
theorem builds_node_of_content {token : Token} {tokens : List Token} {next : Token → Prop}
    {P : Node → Prop} (htag : ∀ t ∈ tag, LegibleTag t) (htoken : token.isContent = true)
    (hcontent : ∀ (start : Mark) (p : Properties) (b : Building) (t : Placed)
      (ps rest : List Placed) (n : Nat), t.token = token → ps.map Placed.token = tokens →
      Faces next rest → ∃ x n', content fuel block indentless start
        (tag.map fun t => .custom (tagName t)) p t (b.before (t :: ps ++ rest) n) =
          (x, b.before rest n') ∧ P x) :
    Builds (node (fuel + 1) block indentless) (tagTokens tag ++ token :: tokens) next P := by
  intro b ps rest n hps hnext
  obtain ⟨ps₁, ps₂, rfl, hps₁, hps₂⟩ := List.map_eq_append_iff.mp hps
  obtain ⟨t, ps₂, rfl, rfl, htail⟩ := List.map_eq_cons_iff.mp hps₂
  obtain ⟨start, p, hnode⟩ := node_before fuel block indentless (ps₂ ++ rest) (b := b) (n := n)
    htag hps₁ htoken
  obtain ⟨x, n', hx, hP⟩ := hcontent start p b t ps₂ rest n rfl htail hnext
  refine ⟨x, n', ?_, hP⟩
  rw [List.append_assoc, List.cons_append, hnode]
  exact hx

/-- A scalar is built of its tag and its text. -/
theorem builds_scalar (fuel : Nat) (block indentless : Bool) (htag : ∀ t ∈ tag, LegibleTag t)
    {style : Style} {s : String}
    {next : Token → Prop} : Builds (node (fuel + 2) block indentless)
      (tagTokens tag ++ [.scalar style s.toList]) next
      fun n => ∃ m, n = .scalar m (tag.map fun t => .custom (tagName t)) style s := by
  refine builds_node_of_content htag rfl fun start p b t ps rest n ht hps _ => ?_
  obtain rfl := List.map_eq_nil_iff.mp hps
  obtain ⟨token, m, m'⟩ := t
  obtain rfl : token = .scalar style s.toList := ht
  refine ⟨_, n + 1, rfl, start, ?_⟩
  rw [String.ofList_toList]

/-- An empty sequence is built of its brackets. -/
theorem builds_emptySequence (htag : ∀ t ∈ tag, LegibleTag t) {next : Token → Prop} :
    Builds (node (fuel + 3) block indentless)
      (tagTokens tag ++ [.flowSequenceStart, .flowSequenceEnd]) next
      (Shows (.sequence tag [])) := by
  refine builds_node_of_content htag rfl fun start p b t ps rest n ht hps _ => ?_
  obtain ⟨t', rfl, ht'⟩ := List.map_eq_singleton_iff.mp hps
  obtain ⟨token, m, m'⟩ := t
  obtain rfl : token = .flowSequenceStart := ht
  obtain ⟨token', left, right⟩ := t'
  obtain rfl : token' = .flowSequenceEnd := ht'
  exact ⟨_, n + 2, rfl, .sequence .nil⟩

/-- An empty mapping is built of its brackets. -/
theorem builds_emptyMapping (htag : ∀ t ∈ tag, LegibleTag t) {next : Token → Prop} :
    Builds (node (fuel + 3) block indentless)
      (tagTokens tag ++ [.flowMappingStart, .flowMappingEnd]) next (Shows (.mapping tag [])) := by
  refine builds_node_of_content htag rfl fun start p b t ps rest n ht hps _ => ?_
  obtain ⟨t', rfl, ht'⟩ := List.map_eq_singleton_iff.mp hps
  obtain ⟨token, m, m'⟩ := t
  obtain rfl : token = .flowMappingStart := ht
  obtain ⟨token', left, right⟩ := t'
  obtain rfl : token' = .flowMappingEnd := ht'
  exact ⟨_, n + 2, rfl, .mapping .nil .nil⟩

/-! ## First tokens -/

theorem exists_first_tagged {tokens : List Token} {p : Token → Prop} {token : Token}
    (htoken : p token) (htags : ∀ handle suffix, p (.tag handle suffix)) :
    ∃ first more, tagTokens tag ++ token :: tokens = first :: more ∧ p first := by
  cases tag with
  | none => exact ⟨_, _, rfl, htoken⟩
  | some t =>
    refine ⟨_, _, rfl, ?_⟩
    rw [tagToken]
    split <;> exact htags _ _

/-- A node begins with a token that neither ends an entry nor begins an item, unless it is a
sequence in the column of the mapping around it. -/
theorem exists_first_node (place : Outline.Place) (o : Outline) :
    ∃ first more, nodeTokens place o = first :: more ∧ endsBlockEntry first = false ∧
      (place.inEntry = false → first ≠ .blockEntry) := by
  have htags : ∀ handle suffix, endsBlockEntry (.tag handle suffix) = false ∧
      (place.inEntry = false → Token.tag handle suffix ≠ .blockEntry) := fun _ _ => ⟨rfl, by simp⟩
  cases o with
  | scalar tag style s => exact exists_first_tagged ⟨rfl, by simp⟩ htags
  | sequence tag os =>
    cases os with
    | nil =>
      rw [nodeTokens]
      exact exists_first_tagged ⟨rfl, by simp⟩ htags
    | cons o os =>
      rw [nodeTokens]
      split
      next hindentless =>
        have hentry : place.inEntry = true := by
          cases place <;> first | rfl | exact absurd hindentless Bool.false_ne_true
        exact exists_first_tagged ⟨rfl, by simp [hentry]⟩ htags
      next => exact exists_first_tagged ⟨rfl, by simp⟩ htags
  | mapping tag es =>
    cases es with
    | nil =>
      rw [nodeTokens]
      exact exists_first_tagged ⟨rfl, by simp⟩ htags
    | cons e es =>
      rw [nodeTokens, List.append_assoc]
      exact exists_first_tagged ⟨rfl, by simp⟩ htags

theorem exists_first_key (o : Outline) :
    ∃ first more, keyTokens o = first :: more ∧ endsBlockEntry first = false := by
  cases o <;> exact exists_first_tagged rfl fun _ _ => rfl

/-! ## Collections -/

/-- Whether the tokens of a node in a place are built into a tree that shows it. -/
def IsBuilt (place : Outline.Place) (o : Outline) : Prop :=
  ∀ fuel : Nat, 3 * (nodeTokens place o).length + 3 ≤ fuel →
    Builds (node fuel true place.inEntry) (nodeTokens place o)
      (fun t => place.inEntry = true → t ≠ .blockEntry) (Shows o)

/-- What comes after more tokens, of which nothing is asked. -/
theorem Faces.append {next next' : Token → Prop} (h : Faces next rest) (hnext : ∀ t, next' t)
    (ps : List Placed) : Faces next' (ps ++ rest) := by
  obtain ⟨t, ht, -⟩ := h
  cases ps with
  | nil => exact ⟨t, ht, hnext _⟩
  | cons p ps => exact ⟨p, rfl, hnext _⟩

/-- An item of a block sequence and those after it. -/
def itemThen (fuel : Nat) (more : Build (List Node)) : Build (List Node) := do
  let item ← node fuel true false
  if ← isStopped then return [item]
  return item :: (← more)

/-- Behind the dash of a block an item comes, and then further ones. -/
theorem blockItems_entry {start : Mark} {e : Placed} (he : e.token = .blockEntry)
    (hentry : t.token ≠ .blockEntry) (hend : endsBlockEntry t.token = false) :
    blockItems (fuel + 1) start (b.before (e :: t :: rest) n) =
      itemThen fuel (blockItems fuel start) (b.before (t :: rest) n) := by
  obtain ⟨token, m, m'⟩ := e
  obtain rfl : token = .blockEntry := he
  rw [endsBlockEntry, Bool.or_eq_false_iff] at hend
  rw [blockItems]
  simp only [run_bind, peek_before, advance_before, beq_false_of_ne hentry, hend.2, Bool.or_self,
    Bool.false_eq_true, if_false]
  rfl

/-- Behind the dash of a sequence in the column of a mapping an item comes, and then further
ones. -/
theorem indentlessItems_entry {e : Placed} (he : e.token = .blockEntry)
    (hentry : t.token ≠ .blockEntry) (hend : endsBlockEntry t.token = false) :
    indentlessItems (fuel + 1) (b.before (e :: t :: rest) n) =
      itemThen fuel (indentlessItems fuel) (b.before (t :: rest) n) := by
  obtain ⟨token, m, m'⟩ := e
  obtain rfl : token = .blockEntry := he
  rw [indentlessItems]
  simp only [run_bind, peek_before, advance_before, beq_false_of_ne hentry, hend, Bool.or_self,
    Bool.false_eq_true, if_false]
  rfl

/-- Items are built one by one, whatever ends them. -/
theorem builds_items (step : Nat → Build (List Node)) (close : List Token) (fuel : Nat)
    {next : Token → Prop}
    {os : List Outline} {column : Nat}
    (hentry : ∀ (fuel : Nat) (b : Building) (n : Nat) (e t : Placed) (rest : List Placed),
      e.token = .blockEntry → t.token ≠ .blockEntry → endsBlockEntry t.token = false →
      step (fuel + 1) (b.before (e :: t :: rest) n) =
        itemThen fuel (step fuel) (b.before (t :: rest) n))
    (hclose : ∀ fuel, Builds (step (fuel + 1)) close next (· = []))
    (hos : ∀ o ∈ os, IsBuilt (.item column) o)
    (hfuel : 3 * (itemTokens column os).length + 1 ≤ fuel) :
    Builds (step fuel) (itemTokens column os ++ close) next (List.Forall₂ Shows os) := by
  induction os generalizing fuel with
  | nil =>
    obtain ⟨fuel, rfl⟩ : ∃ k, fuel = k + 1 := ⟨fuel - 1, by omega⟩
    intro b ps rest n hps hnext
    obtain ⟨_, n', hx, rfl⟩ := hclose fuel b ps rest n hps hnext
    exact ⟨[], n', hx, .nil⟩
  | cons o os ih =>
    obtain ⟨ho, hos⟩ := List.forall_mem_cons.mp hos
    rw [itemTokens, List.cons_append, List.length_cons, List.length_append] at hfuel
    obtain ⟨fuel, rfl⟩ : ∃ k, fuel = k + 1 := ⟨fuel - 1, by omega⟩
    intro b ps rest n hps hnext
    rw [itemTokens, List.cons_append, List.cons_append, List.append_assoc] at hps
    obtain ⟨e, ps, rfl, he, hps⟩ := List.map_eq_cons_iff.mp hps
    obtain ⟨ps₁, ps₂, rfl, hps₁, hps₂⟩ := List.map_eq_append_iff.mp hps
    obtain ⟨first, more, hfirst, hend, hdash⟩ := exists_first_node (.item column) o
    obtain ⟨t, ps₁', rfl, rfl, -⟩ := List.map_eq_cons_iff.mp (hps₁.trans hfirst)
    have hstep := hentry fuel b n e t (ps₁' ++ (ps₂ ++ rest)) he (hdash rfl) hend
    obtain ⟨x, n₁, hx, hshows⟩ := ho fuel (by omega) b (t :: ps₁') (ps₂ ++ rest) n hps₁
      (hnext.append (fun _ h => absurd h Bool.false_ne_true) ps₂)
    obtain ⟨xs, n₂, hxs, hrest⟩ := ih fuel hos (by omega) b ps₂ rest n₁ hps₂ hnext
    have hx : node fuel true false (b.before (t :: (ps₁' ++ (ps₂ ++ rest))) n) =
      (x, b.before (ps₂ ++ rest) n₁) := hx
    refine ⟨x :: xs, n₂, ?_, .cons hshows hrest⟩
    rw [List.cons_append, List.append_assoc, List.cons_append, hstep, itemThen]
    simp only [run_bind, hx, isStopped_before, Bool.false_eq_true, ↓reduceIte, hxs, run_pure]

/-- A block of items ends with its end. -/
theorem builds_blockItems_close (fuel : Nat) (start : Mark) (next : Token → Prop) :
    Builds (blockItems (fuel + 1) start) [.blockEnd] next (· = []) := by
  intro b ps rest n hps _
  obtain ⟨⟨token, m, m'⟩, rfl, rfl⟩ := List.map_eq_singleton_iff.mp hps
  exact ⟨_, n + 1, rfl, rfl⟩

/-- A sequence in the column of a mapping ends where no item begins. -/
theorem builds_indentlessItems_close (fuel : Nat) :
    Builds (indentlessItems (fuel + 1)) [] (· ≠ .blockEntry) (· = []) := by
  intro b ps rest n hps hnext
  obtain rfl := List.map_eq_nil_iff.mp hps
  obtain ⟨t, ht, hnext⟩ := hnext
  obtain ⟨rest, rfl⟩ : ∃ more, rest = t :: more := List.head?_eq_some_iff.mp ht
  obtain ⟨token, m, m'⟩ := t
  refine ⟨[], n + 1, ?_, rfl⟩
  rw [indentlessItems]
  cases token
  case blockEntry => exact absurd rfl hnext
  all_goals rfl

/-- The tokens of one node of an entry: they do not end the entry, and are built into a tree. -/
structure IsPart (tokens : List Token) (o : Outline) : Prop where
  begins : ∃ first more, tokens = first :: more ∧ endsBlockEntry first = false
  builds : ∀ fuel : Nat, 3 * tokens.length + 3 ≤ fuel →
    Builds (node fuel true true) tokens (· ≠ .blockEntry) (Shows o)

/-- A node in an entry is a part of it. -/
theorem IsBuilt.isPart {place : Outline.Place} {o : Outline} (h : IsBuilt place o)
    (hentry : place.inEntry = true) : IsPart (nodeTokens place o) o := by
  obtain ⟨first, more, hfirst, hend, -⟩ := exists_first_node place o
  refine ⟨⟨first, more, hfirst, hend⟩, fun fuel hfuel => ?_⟩
  have hnode := h fuel hfuel
  simp only [hentry, forall_const] at hnode
  exact hnode

/-- A key on the line of its value is a part of its entry. -/
theorem isPart_keyTokens {o : Outline} {text : List Char} (hkey : SimpleKey o text)
    (hlegible : o.Legible) : IsPart (keyTokens o) o := by
  refine ⟨exists_first_key o, fun fuel hfuel => ?_⟩
  obtain ⟨fuel, rfl⟩ : ∃ k, fuel = k + 3 := ⟨fuel - 3, by omega⟩
  cases hkey with
  | scalar =>
    cases hlegible with
    | scalar legible =>
      intro b ps rest n hps hnext
      obtain ⟨_, n', hx, m, rfl⟩ := builds_scalar (fuel + 1) true true legible b ps rest n hps hnext
      exact ⟨_, n', hx, .scalar true⟩
  | sequence =>
    cases hlegible with
    | sequence legible => exact builds_emptySequence legible
  | mapping =>
    cases hlegible with
    | mapping legible => exact builds_emptyMapping legible

/-- The tokens of an entry are those of its key and its value behind their indicators. -/
theorem exists_parts {key value : Outline} {column : Nat} (hlegible : key.Legible)
    (hkey : IsBuilt (.mark column) key) (hmark : IsBuilt (.mark column) value)
    (hvalue : IsBuilt (.key column) value) : ∃ kts vts,
      entryTokens column [(key, value)] = .key :: kts ++ .value :: vts ∧
        IsPart kts key ∧ IsPart vts value := by
  cases hsimple : simpleKey? key with
  | some text =>
    exact ⟨_, _, by simp [entryTokens, hsimple],
      isPart_keyTokens (simpleKey_of_eq_some hsimple) hlegible, hvalue.isPart rfl⟩
  | none => exact ⟨_, _, by simp [entryTokens, hsimple], hkey.isPart rfl, hmark.isPart rfl⟩

/-- Behind an entry comes the next one, or the end. -/
theorem exists_first_entry (column : Nat) (es : List (Outline × Outline)) :
    ∃ first more, entryTokens column es ++ [.blockEnd] = first :: more ∧ first ≠ .blockEntry := by
  cases es with
  | nil => exact ⟨_, _, rfl, by simp⟩
  | cons e es =>
    rw [entryTokens]
    split <;> exact ⟨_, _, rfl, by simp⟩

/-- The entries of a block are built one by one. -/
theorem builds_blockEntries (fuel : Nat) (start : Mark) {es : List (Outline × Outline)}
    {column : Nat}
    {next : Token → Prop} (hes : ∀ e ∈ es, ∃ kts vts,
      entryTokens column [e] = .key :: kts ++ .value :: vts ∧ IsPart kts e.1 ∧ IsPart vts e.2)
    (hfuel : 3 * (entryTokens column es).length + 1 ≤ fuel) :
    Builds (blockEntries fuel start) (entryTokens column es ++ [.blockEnd]) next
      fun ns => List.Forall₂ Shows (es.map Prod.fst) (ns.map Prod.fst) ∧
        List.Forall₂ Shows (es.map Prod.snd) (ns.map Prod.snd) := by
  induction es generalizing fuel with
  | nil =>
    obtain ⟨fuel, rfl⟩ : ∃ k, fuel = k + 1 := ⟨fuel - 1, by omega⟩
    intro b ps rest n hps _
    obtain ⟨⟨token, m, m'⟩, rfl, rfl⟩ := List.map_eq_singleton_iff.mp hps
    exact ⟨_, n + 1, rfl, .nil, .nil⟩
  | cons e es ih =>
    obtain ⟨⟨kts, vts, htokens, hkey, hvalue⟩, hes⟩ := List.forall_mem_cons.mp hes
    rw [Scanner.entryTokens_cons, htokens] at hfuel ⊢
    simp only [List.length_append, List.length_cons] at hfuel
    obtain ⟨fuel, rfl⟩ : ∃ k, fuel = k + 1 := ⟨fuel - 1, by omega⟩
    intro b ps rest n hps hnext
    simp only [List.cons_append, List.append_assoc] at hps
    obtain ⟨⟨e₁, m₁, m₁'⟩, ps, rfl, he₁, hps₁⟩ := List.map_eq_cons_iff.mp hps
    obtain ⟨kps, ps, rfl, hkps, hps₂⟩ := List.map_eq_append_iff.mp hps₁
    obtain ⟨⟨e₂, m₂, m₂'⟩, ps, rfl, he₂, hps₃⟩ := List.map_eq_cons_iff.mp hps₂
    obtain ⟨vps, ps, rfl, hvps, hps₄⟩ := List.map_eq_append_iff.mp hps₃
    obtain rfl : e₁ = .key := he₁
    obtain rfl : e₂ = .value := he₂
    obtain ⟨_, more, hfirst, hend⟩ := hkey.begins
    obtain ⟨kp, kps, rfl, rfl, -⟩ := List.map_eq_cons_iff.mp (hkps.trans hfirst)
    obtain ⟨_, more', hfirst', hend'⟩ := hvalue.begins
    obtain ⟨vp, vps, rfl, rfl, -⟩ := List.map_eq_cons_iff.mp (hvps.trans hfirst')
    obtain ⟨x, n₁, hx, hshows⟩ := hkey.builds fuel (by omega) b (kp :: kps)
      (⟨.value, m₂, m₂'⟩ :: vp :: (vps ++ (ps ++ rest))) n hkps ⟨_, rfl, nofun⟩
    have hface : Faces (· ≠ .blockEntry) (ps ++ rest) := by
      obtain ⟨_, _, hnone, hne⟩ := exists_first_entry column es
      obtain ⟨p, ps, rfl, rfl, -⟩ := List.map_eq_cons_iff.mp (hps₄.trans hnone)
      exact ⟨p, rfl, hne⟩
    obtain ⟨y, n₂, hy, hshows'⟩ := hvalue.builds fuel (by omega) b (vp :: vps)
      (ps ++ rest) n₁ hvps hface
    obtain ⟨ns, n₃, hns, hkeys, hvalues⟩ := ih fuel hes (by omega) b ps rest n₂ hps₄ hnext
    refine ⟨(x, y) :: ns, n₃, ?_, .cons hshows hkeys, .cons hshows' hvalues⟩
    simp only [List.cons_append, List.append_assoc] at hx hy ⊢
    rw [blockEntries]
    simp only [run_bind, peek_before, advance_before, hend, hend', Bool.false_eq_true, ↓reduceIte,
      hx, hy, isStopped_before, beq_self_eq_true, hns, run_pure]

/-! ## Nodes -/

section

variable {start m m' : Mark} {meaning : Option Tag} {p : Properties}

theorem content_blockEntry : content (fuel + 1) block true start meaning p ⟨.blockEntry, m, m'⟩ =
    (do
      count
      return .sequence start meaning (← indentlessItems fuel)) := rfl

theorem content_blockSequenceStart :
    content (fuel + 1) true indentless start meaning p ⟨.blockSequenceStart, m, m'⟩ =
      (do
        advance
        count
        return .sequence start meaning (← blockItems fuel m)) := rfl

theorem content_blockMappingStart :
    content (fuel + 1) true indentless start meaning p ⟨.blockMappingStart, m, m'⟩ =
      (do
        advance
        count
        return .mapping start meaning (← blockEntries fuel m)) := rfl

end

/-- A sequence in the column of a mapping is built of its items. -/
theorem builds_indentless {column : Nat} {o : Outline} {os : List Outline}
    (legible : ∀ t ∈ tag, LegibleTag t) (hitems : ∀ i ∈ o :: os, IsBuilt (.item column) i)
    (hfuel : 3 * (itemTokens column (o :: os)).length ≤ fuel) :
    Builds (node (fuel + 3) true true) (tagTokens tag ++ itemTokens column (o :: os))
      (· ≠ .blockEntry) (Shows (.sequence tag (o :: os))) := by
  have hbuilds := builds_items indentlessItems [] (fuel + 1)
    (fun _ _ _ _ _ _ => indentlessItems_entry) builds_indentlessItems_close hitems (by omega)
  rw [List.append_nil] at hbuilds
  rw [itemTokens] at hbuilds ⊢
  refine builds_node_of_content legible rfl fun start p b t ps rest n ht hps hnext => ?_
  obtain ⟨xs, n', hxs, hshows⟩ := hbuilds b (t :: ps) rest (n + 1)
    (by rw [List.map_cons, ht, hps]; rfl) hnext
  obtain ⟨token, m, m'⟩ := t
  obtain rfl : token = .blockEntry := ht
  refine ⟨_, n', ?_, .sequence (m := start) hshows⟩
  rw [content_blockEntry]
  simp only [run_bind, count_before, hxs, run_pure]

/-- A block of items is built up to its end. -/
theorem builds_blockSequence {column : Nat} {os : List Outline} {next : Token → Prop}
    (legible : ∀ t ∈ tag, LegibleTag t) (hitems : ∀ i ∈ os, IsBuilt (.item column) i)
    (hfuel : 3 * (itemTokens column os).length ≤ fuel) :
    Builds (node (fuel + 3) true indentless)
      (tagTokens tag ++ .blockSequenceStart :: (itemTokens column os ++ [.blockEnd])) next
      (Shows (.sequence tag os)) := by
  refine builds_node_of_content legible rfl fun start p b t ps rest n ht hps hnext => ?_
  obtain ⟨token, m, m'⟩ := t
  obtain rfl : token = .blockSequenceStart := ht
  obtain ⟨xs, n', hxs, hshows⟩ := builds_items (fun fuel => blockItems fuel m) _ (fuel + 1)
    (fun _ _ _ _ _ _ => blockItems_entry)
    (fun _ => builds_blockItems_close _ _ _) hitems (by omega) b ps rest (n + 1) hps hnext
  refine ⟨_, n', ?_, .sequence (m := start) hshows⟩
  rw [content_blockSequenceStart]
  simp only [List.cons_append, run_bind, advance_before, count_before, hxs, run_pure]

/-- A block of entries is built up to its end. -/
theorem builds_blockMapping {column : Nat} {es : List (Outline × Outline)} {next : Token → Prop}
    (legible : ∀ t ∈ tag, LegibleTag t)
    (hes : ∀ e ∈ es, ∃ kts vts,
      entryTokens column [e] = .key :: kts ++ .value :: vts ∧ IsPart kts e.1 ∧ IsPart vts e.2)
    (hfuel : 3 * (entryTokens column es).length ≤ fuel) :
    Builds (node (fuel + 3) true indentless)
      (tagTokens tag ++ .blockMappingStart :: (entryTokens column es ++ [.blockEnd])) next
      (Shows (.mapping tag es)) := by
  refine builds_node_of_content legible rfl fun start p b t ps rest n ht hps hnext => ?_
  obtain ⟨token, m, m'⟩ := t
  obtain rfl : token = .blockMappingStart := ht
  obtain ⟨ns, n', hns, hshows, hshows'⟩ := builds_blockEntries (fuel + 1) m hes (by omega) b ps
    rest (n + 1) hps hnext
  refine ⟨_, n', ?_, .mapping (m := start) hshows hshows'⟩
  rw [content_blockMappingStart]
  simp only [List.cons_append, run_bind, advance_before, count_before, hns, run_pure]

/-- **The tokens of a node are built into a tree that shows it.** -/
theorem isBuilt_of_legible {o : Outline} (ho : o.Legible) (place : Outline.Place) :
    IsBuilt place o := by
  induction ho generalizing place with
  | scalar legible =>
    intro fuel hfuel b ps rest n hps hnext
    obtain ⟨fuel, rfl⟩ : ∃ k, fuel = k + 2 := ⟨fuel - 2, by omega⟩
    rw [nodeTokens] at hps
    obtain ⟨_, n', hx, m, rfl⟩ := builds_scalar fuel true place.inEntry
      legible b ps rest n hps hnext
    exact ⟨_, n', hx, .scalar false⟩
  | @sequence tag os legible items ih =>
    intro fuel hfuel
    obtain ⟨fuel, rfl⟩ : ∃ k, fuel = k + 3 := ⟨fuel - 3, by omega⟩
    cases os with
    | nil =>
      rw [nodeTokens]
      exact builds_emptySequence legible
    | cons o os =>
      have hitems : ∀ i ∈ o :: os, IsBuilt (.item (place.sequenceColumn tag.isSome)) i :=
        fun i hi => ih i hi _
      rw [nodeTokens] at hfuel ⊢
      cases hindentless : place.isIndentless tag.isSome with
      | true =>
        have hentry : place.inEntry = true := by
          cases place <;> first | rfl | exact absurd hindentless Bool.false_ne_true
        simp only [hindentless, ↓reduceIte, List.length_append] at hfuel ⊢
        simp only [hentry, forall_const]
        exact builds_indentless legible hitems (by omega)
      | false =>
        simp only [hindentless, Bool.false_eq_true, ↓reduceIte, List.length_append,
          List.length_cons, List.cons_append] at hfuel ⊢
        exact builds_blockSequence legible hitems (by omega)
  | @mapping tag es legible keys values ihkeys ihvalues =>
    intro fuel hfuel
    obtain ⟨fuel, rfl⟩ : ∃ k, fuel = k + 3 := ⟨fuel - 3, by omega⟩
    cases es with
    | nil =>
      rw [nodeTokens]
      exact builds_emptyMapping legible
    | cons e es =>
      rw [nodeTokens, List.append_assoc, List.cons_append] at hfuel ⊢
      simp only [List.length_append, List.length_cons] at hfuel
      exact builds_blockMapping legible (fun e he => exists_parts (keys e he) (ihkeys e he _)
        (ihvalues e he _) (ihvalues e he _)) (by omega)

/-! ## Documents -/

/-- The state before the tokens of a text. -/
abbrev atStart (ps : List Placed) (n : Nat) : Building :=
  Building.before { tokens := [], fault := none } ps n

/-- A mapping that is built up to the end of the text is all of the document. -/
theorem first_of_node {p e : Placed} {root : Node} (hp : p.token = .blockMappingStart)
    (he : e.token = .streamEnd)
    (hnode : node fuel true false (atStart (p :: ps) 0) = (root, atStart [e] n)) :
    (first fuel { tokens := p :: ps, fault := none }).1 =
      { root := root, anchored := [], size := n, fault := none, more := false } := by
  obtain ⟨start, m, m'⟩ := p
  obtain rfl : start = .blockMappingStart := hp
  obtain ⟨stop, end₁, end₂⟩ := e
  obtain rfl : stop = .streamEnd := he
  have hdocument : document fuel ⟨.blockMappingStart, m, m'⟩
      { tokens := ⟨.blockMappingStart, m, m'⟩ :: ps, fault := none } =
        (root, atStart [⟨.streamEnd, end₁, end₂⟩] n) := hnode
  have hrest : ∀ step : Build Node,
      step { tokens := ⟨.blockMappingStart, m, m'⟩ :: ps, fault := none } =
        (root, atStart [⟨.streamEnd, end₁, end₂⟩] n) →
      ((do
        let n ← step
        let _ ← peek
        let b ← get
        let anchored := b.bearers.filterMap fun bearer =>
          (b.built.find? (·.1 == bearer.2)).map fun e => (bearer.1, e.2)
        return { root := n, anchored := anchored, size := b.size, fault := b.stopped,
                 more := !restIsEmpty b.tokens } : Build Document)
        { tokens := ⟨.blockMappingStart, m, m'⟩ :: ps, fault := none }).1 =
        { root := root, anchored := [], size := n, fault := none, more := false } := by
    intro step hstep
    rw [run_bind, hstep]
    rfl
  exact hrest _ hdocument

end Build

/-- **A document the root of which is a mapping with entries is read as a tree that shows it.** -/
theorem read_render {e : Outline × Outline} {es : List (Outline × Outline)}
    (h : Outline.Legible (.mapping none (e :: es))) :
    ∃ root size, Document.read (Outline.render (.mapping none (e :: es))) =
      { root := root, anchored := [], size := size, fault := none, more := false } ∧
      Shows (.mapping none (e :: es)) root := by
  obtain ⟨ps, hscan, htokens⟩ := scan_render h
  obtain ⟨ps, ps', rfl, hps, hps'⟩ := List.map_eq_append_iff.mp htokens
  obtain ⟨last, rfl, hlast⟩ := List.map_eq_singleton_iff.mp hps'
  have hlength := congrArg List.length hps
  rw [List.length_map] at hlength
  obtain ⟨root, size, hroot, hshows⟩ := Build.isBuilt_of_legible h .top
    (4 * (ps ++ [last]).length + 8)
    (by rw [← hlength, List.length_append]; omega)
    { tokens := [], fault := none } ps [last] 0 hps ⟨_, rfl, nofun⟩
  obtain ⟨first, ps, rfl, hfirst, -⟩ : ∃ p ps', ps = p :: ps' ∧
      p.token = .blockMappingStart ∧ _ := by
    rw [nodeTokens] at hps
    exact List.map_eq_cons_iff.mp hps
  refine ⟨root, size, ?_, hshows⟩
  rw [Document.read, hscan]
  exact Build.first_of_node hfirst hlast hroot

end Provision.Yaml
