import Mathlib.Data.List.Forall2
import Provision.Config.Read
import Provision.Proofs.Result

/-!
# What a decoder has read

A decoder that succeeds has seen a scalar, a sequence or a mapping of the document, if need be
by way of a reference. What it has made of the parts of a collection, it has made of each part
by itself: the lemmas here take a decoder apart at its outermost node.

> `reads_sequence`, `reads_mapping`: a collection has been read part by part;
> `Gathers.field`: what a mapping says of a field is said by one of its entries.
-/

namespace Provision.Yaml

/-! ## The document behind a node -/

namespace Surroundings

/-- The node that is read for a node: what it refers to, or the node itself. -/
def resolve (env : Surroundings) : Node → Option Node
  | .reference _ id => (env.anchored.find? (·.1 == id)).map (·.2)
  | node => some node

/-- The text of a scalar. -/
def text? (env : Surroundings) (n : Node) : Option String :=
  match env.resolve n with
  | some (.scalar _ _ _ text) => some text
  | _ => none

/-- The items of a sequence; an empty plain scalar counts as one without items. -/
def items? (env : Surroundings) (n : Node) : Option (List Node) :=
  match env.resolve n with
  | some (.sequence _ _ items) => some items
  | some (.scalar _ _ style text) => if Decode.isBlank style text then some [] else none
  | _ => none

/-- The entries of a mapping; an empty plain scalar counts as one without entries. -/
def entries? (env : Surroundings) (n : Node) : Option (List (Node × Node)) :=
  match env.resolve n with
  | some (.mapping _ _ entries) => some entries
  | some (.scalar _ _ style text) => if Decode.isBlank style text then some [] else none
  | _ => none

/-- The entries of a mapping whose keys are scalars, by the texts of their keys. -/
def named? (env : Surroundings) (n : Node) : Option (List (String × Node)) :=
  (env.entries? n).bind fun es => es.mapM fun e => (env.text? e.1).map fun name => (name, e.2)

/-- Whether a node is null: a plain scalar that spells null, or one that is empty, where it has no
tag. -/
def isNull (env : Surroundings) (n : Node) : Bool :=
  match env.resolve n with
  | some (.scalar _ none .plain text) => text.isEmpty || Scalar.isNull text.toList
  | some (.scalar _ (some .null) .plain text) => Scalar.isNull text.toList
  | _ => false

/-- The name of a field. A reference in its place may lead to another one. -/
def fieldName? (env : Surroundings) (key : Node) : Option String :=
  (env.resolve key).bind env.text?

end Surroundings

/-- What is known of a document while it is decoded. -/
def Document.surroundings (doc : Document) : Surroundings :=
  { anchored := doc.anchored, fault := doc.fault, limit := 100 * doc.size }

namespace Decode

variable {α β σ : Type} {env : Surroundings} {t t' : Target} {x : α} {y : β}

/-! ## Steps that have succeeded -/

/-- Whether a decoder may have read a value, whatever it has followed before. -/
def Reads (d : Decode α) (env : Surroundings) (x : α) : Prop :=
  ∃ before after, d env before = .ok (x, after)

/-- Two steps that read a value do so one after the other. -/
theorem reads_bind {d : Decode α} {f : α → Decode β} (h : (d >>= f).Reads env y) :
    ∃ x, d.Reads env x ∧ (f x).Reads env y := by
  obtain ⟨before, after, h⟩ := h
  have hsteps : (d >>= f) env before = d env before >>= fun r => f r.1 env r.2 := rfl
  rw [hsteps] at h
  obtain ⟨r, hd, hf⟩ := bind_eq_ok_iff.mp h
  exact ⟨r.1, ⟨before, r.2, hd⟩, r.2, after, hf⟩

theorem reads_pure {x y : α} (h : (pure x : Decode α).Reads env y) : y = x := by
  obtain ⟨before, after, h⟩ := h
  have hsame : (pure x : Decode α) env before = .ok (x, before) := rfl
  rw [hsame] at h
  exact (Prod.mk.inj (Except.ok.inj h)).1.symm

theorem reads_map {d : Decode α} {f : α → β} (h : (f <$> d).Reads env y) :
    ∃ x, d.Reads env x ∧ f x = y := by
  rw [map_eq_pure_bind] at h
  obtain ⟨x, hx, hy⟩ := reads_bind h
  exact ⟨x, hx, (reads_pure hy).symm⟩

/-- A complaint reads nothing. -/
theorem not_reads_complain {c : Complaint} : ¬ (complain c : Decode α).Reads env x := by
  rintro ⟨before, after, h⟩
  exact nomatch h

theorem not_reads_throw {e : Error} : ¬ (throw e : Decode α).Reads env x := by
  rintro ⟨before, after, h⟩
  exact nomatch h

theorem not_reads_cut : ¬ (cut : Decode α).Reads env x := by
  intro h
  obtain ⟨surroundings, -, h⟩ := reads_bind h
  split at h
  · exact not_reads_throw h
  · exact not_reads_throw h

theorem reads_placed {path : Path} {m : Mark} {d : Decode α}
    (h : (placed path m d).Reads env x) : d.Reads env x := by
  obtain ⟨before, after, h⟩ := h
  rw [placed] at h
  split at h
  next r hr => exact ⟨before, after, by rw [hr, h]⟩
  next => simp at h

/-- The surroundings stay the same while reading. -/
theorem reads_read {env' : Surroundings} (h : (read : Decode Surroundings).Reads env env') :
    env' = env := by
  obtain ⟨before, after, h⟩ := h
  have hsame : (read : Decode Surroundings) env before = .ok (env, before) := rfl
  rw [hsame] at h
  exact (Prod.mk.inj (Except.ok.inj h)).1.symm

/-- Following a node resolves it. -/
theorem reads_follow (h : (follow t).Reads env t') : env.resolve t.node = some t'.node := by
  unfold follow at h
  split at h
  next m id hnode =>
    rw [hnode, Surroundings.resolve]
    obtain ⟨n, -, h⟩ := reads_bind h
    obtain ⟨env', henv, h⟩ := reads_bind h
    obtain rfl := reads_read henv
    dsimp only at h
    split at h
    · obtain ⟨_, hthrow, -⟩ := reads_bind h
      exact absurd hthrow not_reads_throw
    · obtain ⟨_, -, h⟩ := reads_bind h
      split at h
      next hfind =>
        obtain rfl := reads_pure h
        rw [hfind]
        rfl
      next => exact absurd h not_reads_throw
  next hnode =>
    obtain rfl := reads_pure h
    rw [Surroundings.resolve]
    exact hnode

/-! ## Scalars -/

/-- A string is the text of its node. -/
theorem reads_string {expected s : String} (h : (string expected t).Reads env s) :
    env.text? t.node = some s := by
  obtain ⟨t', hfollow, h⟩ := reads_bind h
  rw [Surroundings.text?, reads_follow hfollow]
  split at h
  next hnode =>
    rw [hnode, reads_pure h]
  next => exact absurd (reads_placed h) not_reads_complain
  next => exact absurd (reads_placed h) not_reads_complain
  next => exact absurd h not_reads_cut

/-- The name of a field is the text of its key, and it is a known one. -/
theorem reads_fieldName {known : List String} {name : String}
    (h : (fieldName known t).Reads env name) :
    env.fieldName? t.node = some name ∧ name ∈ known := by
  obtain ⟨t', hfollow, h⟩ := reads_bind h
  obtain ⟨s, hs, h⟩ := reads_bind h
  split at h
  next hknown =>
    obtain rfl := reads_pure h
    rw [Surroundings.fieldName?, reads_follow hfollow]
    exact ⟨reads_string hs, by simpa using hknown⟩
  next => exact absurd (reads_placed h) not_reads_complain

/-- A field that is given once was not given before. -/
theorem reads_once {name : String} {given : Option α} {d : Decode α} {o : Option α}
    (h : (once name given d).Reads env o) : given = none ∧ ∃ x, d.Reads env x ∧ o = some x := by
  rw [once] at h
  split at h
  · exact absurd h not_reads_complain
  next hgiven =>
    obtain ⟨x, hx, ho⟩ := reads_map h
    exact ⟨by simpa using hgiven, x, hx, ho.symm⟩

/-- What sets a field has found it not given before. -/
theorem reads_set {name : String} {given : Option α} {d : Decode α} {set : Option α → β}
    (h : (do return set (← once name given d) : Decode β).Reads env y) :
    given = none ∧ ∃ x, d.Reads env x ∧ y = set (some x) := by
  obtain ⟨o, ho, h⟩ := reads_bind h
  obtain ⟨hnone, x, hx, rfl⟩ := reads_once ho
  exact ⟨hnone, x, hx, reads_pure h⟩

/-! ## Values at a node -/

/-- Whether a decoder may have read a value at a node, wherever it stands. -/
def Yields (d : Target → Decode α) (env : Surroundings) (n : Node) (x : α) : Prop :=
  ∃ path, (d ⟨n, path⟩).Reads env x

/-- Whether a decoder may have read a value at a node, wherever it stands and however deep. -/
def Makes (d : Nat → Target → Decode α) (env : Surroundings) (n : Node) (x : α) : Prop :=
  ∃ depth, Yields (d depth) env n x

/-! ## Options -/

/-- What an optional value has been read from: nothing from a null, or the value itself. -/
inductive OptionRead (env : Surroundings) (P : Node → α → Prop) (n : Node) : Option α → Prop
  | absent {m : Mark} {tag : Option Tag} {text : String}
      (null : env.resolve n = some (.scalar m tag .plain text))
      (spelt : text = "" ∨ Scalar.isNull text.toList = true) : OptionRead env P n none
  | present {n' : Node} {x : α} (node : env.resolve n = some n') (reads : P n' x) :
      OptionRead env P n (some x)

/-- An optional value is absent exactly where the node is null. -/
theorem reads_option {present : Target → Decode α} {o : Option α}
    (h : (option present t).Reads env o) :
    (env.isNull t.node = true ∧ o = none) ∨
    (env.isNull t.node = false ∧
      ∃ n x, env.resolve t.node = some n ∧ Yields present env n x ∧ o = some x) := by
  obtain ⟨t', hfollow, h⟩ := reads_bind h
  rw [Surroundings.isNull, reads_follow hfollow]
  have hsome : (some <$> present t').Reads env o →
      ∃ n x, some t'.node = some n ∧ Yields present env n x ∧ o = some x := by
    intro h
    obtain ⟨x, hx, rfl⟩ := reads_map h
    exact ⟨t'.node, x, rfl, ⟨t'.path, hx⟩, rfl⟩
  split at h
  next m tag style text hnode =>
    split at h
    next hquoted =>
      refine Or.inr ⟨?_, hsome h⟩
      rw [hnode]
      cases style <;> simp_all
    next hplain =>
      obtain rfl : style = .plain := by simpa using hplain
      split at h
      · split at h
        next hnull => exact Or.inl ⟨by rw [hnode]; exact hnull, reads_pure h⟩
        next hnull => exact Or.inr ⟨by rw [hnode]; simpa using hnull, hsome h⟩
      · split at h
        next hnull => exact Or.inl ⟨by rw [hnode]; exact hnull, reads_pure h⟩
        next => exact absurd h not_reads_complain
      next tag hnone hother =>
        refine Or.inr ⟨?_, hsome h⟩
        rw [hnode]
        cases tag <;> simp_all
  · exact absurd h not_reads_cut
  next hscalar _ =>
    refine Or.inr ⟨?_, hsome h⟩
    cases hnode : t'.node <;> simp_all

/-- What counts as null is plain, and it is empty or spelt as null. -/
theorem spelt_of_isNull {n : Node} (h : env.isNull n = true) :
    ∃ m tag text, env.resolve n = some (.scalar m tag .plain text) ∧
      (text = "" ∨ Scalar.isNull text.toList = true) := by
  unfold Surroundings.isNull at h
  split at h
  next hresolve => exact ⟨_, _, _, hresolve, by simpa using h⟩
  next hresolve => exact ⟨_, _, _, hresolve, Or.inr h⟩
  next => exact nomatch h

theorem optionRead_of_makes {present : Nat → Target → Decode α} {P : Node → α → Prop} {n : Node}
    {o : Option α} (hpresent : ∀ {n x}, Makes present env n x → P n x)
    (h : Makes (fun depth => option (present depth)) env n o) : OptionRead env P n o := by
  obtain ⟨depth, path, h⟩ := h
  rcases reads_option h with ⟨hnull, rfl⟩ | ⟨-, n', x, hresolve, hx, rfl⟩
  · obtain ⟨m, tag, text, hscalar, hspelt⟩ := spelt_of_isNull hnull
    exact .absent hscalar hspelt
  · exact .present hresolve (hpresent ⟨depth, hx⟩)

/-! ## Collections -/

/-- A list of items is read one by one, whatever their places are called. -/
theorem reads_items {item : Target → Decode α} {path : Path} {nodes : List Node} {xs : List α} :
    ∀ {i : Nat}, (items item path i nodes).Reads env xs →
      List.Forall₂ (Yields item env) nodes xs := by
  induction nodes generalizing xs with
  | nil =>
    intro i h
    obtain rfl := reads_pure h
    exact .nil
  | cons n nodes ih =>
    intro i h
    obtain ⟨x, hx, h⟩ := reads_bind h
    obtain ⟨rest, hrest, h⟩ := reads_bind h
    obtain rfl := reads_pure h
    exact .cons ⟨_, hx⟩ (ih hrest)

/-- Inside a collection the depth is one less. -/
theorem reads_deeper {depth inner : Nat} {m : Mark} (h : (deeper depth m).Reads env inner) :
    depth = inner + 1 := by
  cases depth with
  | zero => exact absurd h not_reads_throw
  | succ depth => exact congrArg (· + 1) (reads_pure h).symm

/-- A sequence has been read item by item, each of them one level deeper. -/
theorem reads_sequence {item : Nat → Target → Decode α} {depth : Nat} {xs : List α}
    (h : (sequence item depth t).Reads env xs) :
    ∃ nodes inner, env.items? t.node = some nodes ∧ (nodes ≠ [] → depth = inner + 1) ∧
      List.Forall₂ (Yields (item inner) env) nodes xs := by
  obtain ⟨t', hfollow, h⟩ := reads_bind h
  rw [Surroundings.items?, reads_follow hfollow]
  split at h
  next m tag nodes hnode =>
    obtain ⟨inner, hinner, h⟩ := reads_bind (reads_placed h)
    exact ⟨nodes, inner, by rw [hnode], fun _ => reads_deeper hinner, reads_items h⟩
  next hnode =>
    split at h
    next hblank =>
      obtain rfl := reads_pure h
      exact ⟨[], 0, by simp [hnode, hblank], by simp, .nil⟩
    next =>
      obtain ⟨s, -, h⟩ := reads_bind (reads_placed h)
      exact absurd h not_reads_complain
  next => exact absurd (reads_placed h) not_reads_complain
  next => exact absurd h not_reads_cut

/-- Entries have been gone through, each going on from what the former have left. -/
inductive Gathers (Step : σ → Node → Node → σ → Prop) : σ → List (Node × Node) → σ → Prop
  | done (s : σ) : Gathers Step s [] s
  | next {s s' s'' : σ} {k v : Node} {es : List (Node × Node)} (step : Step s k v s')
      (rest : Gathers Step s' es s'') : Gathers Step s ((k, v) :: es) s''

/-- Whether a decoder of entries may have gone from one state to another, wherever they stand. -/
def EntryReads (entry : σ → Target → Target → Decode σ) (env : Surroundings) (s : σ)
    (k v : Node) (s' : σ) : Prop :=
  ∃ path path', (entry s ⟨k, path⟩ ⟨v, path'⟩).Reads env s'

/-- A list of entries is gathered one by one. -/
theorem reads_entries {entry : σ → Target → Target → Decode σ} {path : Path}
    {es : List (Node × Node)} : ∀ {s s' : σ}, (entries entry path s es).Reads env s' →
      Gathers (EntryReads entry env) s es s' := by
  induction es with
  | nil =>
    intro s s' h
    obtain rfl := reads_pure h
    exact .done _
  | cons e es ih =>
    intro s s' h
    obtain ⟨k, v⟩ := e
    obtain ⟨next, hnext, h⟩ := reads_bind h
    exact .next ⟨_, _, hnext⟩ (ih h)

/-- A mapping has been read entry by entry, each of them one level deeper. -/
theorem reads_mapping {expected : String} {start : σ} {entry : Nat → σ → Target → Target → Decode σ}
    {finish : σ → Decode α} {depth : Nat}
    (h : (mapping expected start entry finish depth t).Reads env x) :
    ∃ es inner s, env.entries? t.node = some es ∧ (es ≠ [] → depth = inner + 1) ∧
      Gathers (EntryReads (entry inner) env) start es s ∧
      (finish s).Reads env x := by
  obtain ⟨t', hfollow, h⟩ := reads_bind h
  rw [Surroundings.entries?, reads_follow hfollow]
  split at h
  next m tag es hnode =>
    obtain ⟨inner, hinner, h⟩ := reads_bind (reads_placed h)
    obtain ⟨s, hs, h⟩ := reads_bind h
    exact ⟨es, inner, s, by rw [hnode], fun _ => reads_deeper hinner, reads_entries hs, h⟩
  next hnode =>
    have h := reads_placed h
    split at h
    next hblank => exact ⟨[], 0, start, by simp [hnode, hblank], by simp, .done _, h⟩
    next =>
      obtain ⟨s, -, h⟩ := reads_bind h
      exact absurd h not_reads_complain
  next => exact absurd (reads_placed h) not_reads_complain
  next => exact absurd h not_reads_cut

/-! ## Fields

A declaration is read from a mapping whose keys are names of fields. Each entry sets one field, and
the others stay as they are; that a field is set once is seen along all entries.
-/

section Fields

variable {key : Node → Option String} {name : String} {P : Node → α → Prop} {k v : Node}

/-- What one entry does to a field: it gives it, unless it has been given, or it leaves it. -/
def FieldStep (key : Node → Option String) (name : String) (P : Node → α → Prop) (k v : Node)
    (before after : Option α) : Prop :=
  if key k = some name then before = none ∧ ∃ x, P v x ∧ after = some x else after = before

theorem FieldStep.given {before : Option α} (hname : key k = some name) (hnone : before = none)
    (hx : P v x) : FieldStep key name P k v before (some x) := by
  rw [FieldStep, if_pos hname]
  exact ⟨hnone, x, hx, rfl⟩

theorem FieldStep.other {name' : String} {o : Option α} (hname : key k = some name')
    (hne : name' ≠ name) : FieldStep key name P k v o o := by
  rw [FieldStep, if_neg fun h => hne (Option.some.inj (hname.symm.trans h))]

/-- What the entries of a mapping say of a field: nothing, or what one of them says. -/
inductive FieldRead (key : Node → Option String) (name : String) (P : Node → α → Prop)
    (es : List (Node × Node)) : Option α → Prop
  | absent (unnamed : ∀ e ∈ es, key e.1 ≠ some name) : FieldRead key name P es none
  | present {former later : List (Node × Node)} {k v : Node} {x : α}
      (split : es = former ++ (k, v) :: later) (named : key k = some name)
      (once : ∀ e ∈ former ++ later, key e.1 ≠ some name) (reads : P v x) :
      FieldRead key name P es (some x)

namespace FieldRead

variable {es : List (Node × Node)} {o : Option α}

/-- An entry that names the field is the one that is read. -/
theorem of_mem (h : FieldRead key name P es o) (hmem : (k, v) ∈ es) (hname : key k = some name) :
    ∃ x, P v x ∧ o = some x := by
  cases h with
  | absent unnamed => exact absurd hname (unnamed _ hmem)
  | present split named once reads =>
    rw [split, List.mem_append, List.mem_cons] at hmem
    rcases hmem with hmem | heq | hmem
    · exact absurd hname (once _ (List.mem_append_left _ hmem))
    · obtain ⟨-, rfl⟩ := Prod.mk.inj heq
      exact ⟨_, reads, rfl⟩
    · exact absurd hname (once _ (List.mem_append_right _ hmem))

/-- What is read of a field may be weakened. -/
theorem imp {Q : Node → α → Prop} (h : FieldRead key name P es o)
    (hPQ : ∀ {n x}, P n x → Q n x) : FieldRead key name Q es o := by
  cases h with
  | absent unnamed => exact .absent unnamed
  | present split named once reads => exact .present split named once (hPQ reads)

/-- An entry for another field changes nothing. -/
theorem cons (h : FieldRead key name P es o) {e : Node × Node} (hname : key e.1 ≠ some name) :
    FieldRead key name P (e :: es) o := by
  cases h with
  | absent unnamed => exact .absent (List.forall_mem_cons.mpr ⟨hname, unnamed⟩)
  | @present former later k v x split named once reads =>
    have hrest : ∀ e' ∈ e :: (former ++ later), key e'.1 ≠ some name :=
      List.forall_mem_cons.mpr ⟨hname, once⟩
    exact .present (by rw [split, List.cons_append]) named hrest reads

end FieldRead

variable {Step : σ → Node → Node → σ → Prop} {get : σ → Option α}

/-- A field that has been given stays as it is, and is not named again. -/
theorem Gathers.field_given {es : List (Node × Node)} {s s' : σ} (h : Gathers Step s es s')
    (hstep : ∀ {s s' k v}, Step s k v s' → FieldStep key name P k v (get s) (get s'))
    (hs : get s = some x) :
    get s' = some x ∧ ∀ e ∈ es, key e.1 ≠ some name := by
  induction h with
  | done => exact ⟨hs, by simp⟩
  | next step rest ih =>
    have hone := hstep step
    rw [FieldStep, hs] at hone
    split at hone
    · exact nomatch hone.1
    next hname =>
      obtain ⟨hlast, hrest⟩ := ih hone
      exact ⟨hlast, List.forall_mem_cons.mpr ⟨hname, hrest⟩⟩

/-- What a mapping says of a field is said by one of its entries. -/
theorem Gathers.field {es : List (Node × Node)} {s s' : σ} (h : Gathers Step s es s')
    (get : σ → Option α)
    (hstep : ∀ {s s' k v}, Step s k v s' → FieldStep key name P k v (get s) (get s'))
    (hs : get s = none) : FieldRead key name P es (get s') := by
  induction h with
  | done => exact hs ▸ .absent (by simp)
  | next step rest ih =>
    have hone := hstep step
    rw [FieldStep] at hone
    split at hone
    next hname =>
      obtain ⟨-, x, hx, hset⟩ := hone
      obtain ⟨hlast, hrest⟩ := rest.field_given hstep hset
      exact hlast ▸ .present (List.nil_append _).symm hname hrest hx
    next hname => exact (ih (hone.trans hs)).cons hname

/-- What holds of each step holds of each entry. -/
theorem Gathers.forall_mem {Q : Node → Node → Prop} {es : List (Node × Node)} {s s' : σ}
    (h : Gathers Step s es s') (hstep : ∀ {s s' k v}, Step s k v s' → Q k v) :
    ∀ e ∈ es, Q e.1 e.2 := by
  induction h with
  | done => simp
  | next step rest ih => exact List.forall_mem_cons.mpr ⟨hstep step, ih⟩

end Fields

end Decode

end Provision.Yaml
