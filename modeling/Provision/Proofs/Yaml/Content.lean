import Provision.Proofs.Yaml.Decode
import Provision.Yaml.Value.Read

/-!
# What a node holds

A node whose shape is open is read as its content: references give way to what they stand for,
scalars to what they mean, collections to the contents of their parts. The relation here says
which node holds which content, and does not speak of decoders. Three things can be in the way:
a tag of one's own, a scalar that means nothing, collections that nest too deep. Besides, a
document limits how many references may be followed, so that it matters how many there are.

> `Exactly`: a decoder reads exactly what a relation says, at the price that it says;
> `loose_exactly`: a node is read loosely exactly as the content that it holds.
-/

namespace Provision.Yaml

namespace Surroundings

/-- Whether so many more references may be followed after those before. -/
def Affords (env : Surroundings) (before k : Nat) : Prop := k = 0 ∨ before + k ≤ env.limit

variable {env : Surroundings} {before j k : Nat}

@[simp] theorem affords_zero : env.Affords before 0 := Or.inl rfl

/-- One more reference is affordable below the limit. -/
theorem affords_one_iff : env.Affords before 1 ↔ before < env.limit := by
  rw [Affords]
  omega

/-- Fewer references may be followed where more may, and from the start where any may later. -/
theorem Affords.of_le {before' : Nat} (h : env.Affords before k) (hbefore : before' ≤ before)
    (hle : j ≤ k) : env.Affords before' j := by
  rw [Affords] at h ⊢
  omega

/-- A budget can be spent in parts. -/
theorem affords_add_iff :
    env.Affords before (j + k) ↔ env.Affords before j ∧ env.Affords (before + j) k := by
  rw [Affords, Affords, Affords]
  omega

end Surroundings

namespace Decode

variable {α β : Type} {env : Surroundings}

/-! ## What a decoder reads, and at which price -/

/-- Whether a decoder reads exactly the values that a relation allows, following as many references
for each of them as the relation says. -/
def Exactly (d : Decode α) (env : Surroundings) (P : α → Nat → Prop) : Prop :=
  ∀ before x after, d env before = .ok (x, after) ↔
    ∃ k, P x k ∧ env.Affords before k ∧ after = before + k

/-- The exact meaning of a reader can be rephrased. -/
theorem Exactly.congr {d : Decode α} {P Q : α → Nat → Prop} (h : d.Exactly env P)
    (hPQ : ∀ x k, P x k ↔ Q x k) : d.Exactly env Q := by
  intro before x after
  rw [h]
  exact exists_congr fun k => and_congr_left' (hPQ x k)

/-- Returning a value costs no reference. -/
theorem exactly_pure (a : α) : (pure a : Decode α).Exactly env fun x k => x = a ∧ k = 0 := by
  intro before x after
  have hsame : (pure a : Decode α) env before = .ok (a, before) := rfl
  rw [hsame, Except.ok.injEq, Prod.mk.injEq]
  constructor
  · rintro ⟨rfl, rfl⟩
    exact ⟨0, ⟨rfl, rfl⟩, Surroundings.affords_zero, rfl⟩
  · rintro ⟨k, ⟨rfl, rfl⟩, -, rfl⟩
    exact ⟨rfl, rfl⟩

theorem exactly_throw (e : Error) : (throw e : Decode α).Exactly env fun _ _ => False := by
  intro before x after
  constructor
  · exact fun h => nomatch h
  · exact fun ⟨_, h, _⟩ => h.elim

theorem exactly_complain (c : Complaint) : (complain c : Decode α).Exactly env fun _ _ => False :=
  exactly_throw _

theorem exactly_cut : (cut : Decode α).Exactly env fun _ _ => False := by
  intro before x after
  constructor
  · exact fun h => absurd ⟨before, after, h⟩ not_reads_cut
  · exact fun ⟨_, h, _⟩ => h.elim

/-- One decoder after the other: the prices add up. -/
theorem Exactly.bind {d : Decode α} {f : α → Decode β} {P : α → Nat → Prop}
    {Q : α → β → Nat → Prop} (hd : d.Exactly env P)
    (hf : ∀ x k, P x k → (f x).Exactly env (Q x)) :
    (d >>= f).Exactly env fun y k => ∃ x i j, P x i ∧ Q x y j ∧ k = i + j := by
  intro before y after
  have hsteps : (d >>= f) env before = d env before >>= fun r => f r.1 env r.2 := rfl
  rw [hsteps, bind_eq_ok_iff]
  constructor
  · rintro ⟨⟨x, between⟩, hx, hy⟩
    obtain ⟨i, hP, hi, rfl⟩ := (hd before x between).mp hx
    obtain ⟨j, hQ, hj, rfl⟩ := (hf x i hP _ y after).mp hy
    exact ⟨i + j, ⟨x, i, j, hP, hQ, rfl⟩, Surroundings.affords_add_iff.mpr ⟨hi, hj⟩,
      Nat.add_assoc before i j⟩
  · rintro ⟨_, ⟨x, i, j, hP, hQ, rfl⟩, hk, rfl⟩
    obtain ⟨hi, hj⟩ := Surroundings.affords_add_iff.mp hk
    refine ⟨(x, before + i), (hd before x _).mpr ⟨i, hP, hi, rfl⟩, ?_⟩
    exact (hf x i hP _ y _).mpr ⟨j, hQ, hj, (Nat.add_assoc before i j).symm⟩

/-- Mapping a result costs nothing. -/
theorem Exactly.map {d : Decode α} {P : α → Nat → Prop} (hd : d.Exactly env P) (f : α → β) :
    (do return f (← d) : Decode β).Exactly env fun y k => ∃ x, P x k ∧ y = f x := by
  refine (hd.bind fun x _ _ => exactly_pure (f x)).congr fun y k => ⟨?_, ?_⟩
  · rintro ⟨x, i, _, hP, ⟨rfl, rfl⟩, rfl⟩
    exact ⟨x, hP, rfl⟩
  · rintro ⟨x, hP, rfl⟩
    exact ⟨x, k, 0, hP, ⟨rfl, rfl⟩, rfl⟩

/-- Placing a fault costs nothing, and it does not change the result. -/
theorem Exactly.placed {d : Decode α} {P : α → Nat → Prop} (hd : d.Exactly env P) (path : Path)
    (m : Mark) : (placed path m d).Exactly env P := by
  intro before x after
  rw [← hd before x after, Decode.placed]
  cases d env before <;> simp

/-! ## References -/

/-- How many references are followed from a node. -/
def hops : Node → Nat
  | .reference .. => 1
  | _ => 0

/-- Where a node is after the reference in its place has been followed. -/
def landing (t : Target) : Path :=
  match t.node with
  | .reference .. => .target :: t.path
  | _ => t.path

/-- Following a reference counts against the limit before the anchor is looked up. -/
theorem follow_reference (m : Mark) (id : Nat) (path : Path) (env : Surroundings) (before : Nat) :
    follow ⟨.reference m id, path⟩ env before =
      if env.limit ≤ before then .error .repetitionLimit
      else match env.anchored.find? (·.1 == id) with
        | some (_, node) => .ok (⟨node, .target :: path⟩, before + 1)
        | none => .error .endOfText := by
  have hsteps : follow ⟨.reference m id, path⟩ env before =
      (if env.limit ≤ before then (throw .repetitionLimit : Decode Target)
        else do
          set (before + 1)
          match env.anchored.find? (·.1 == id) with
          | some (_, node) => return ⟨node, .target :: path⟩
          | none => throw .endOfText) env before := rfl
  rw [hsteps]
  split
  · rfl
  · cases env.anchored.find? (·.1 == id) <;> rfl

/-- Following a node costs one reference when it is one. -/
theorem follow_exactly (t : Target) : (follow t).Exactly env fun t' k =>
    env.resolve t.node = some t'.node ∧ t'.path = landing t ∧ k = hops t.node := by
  obtain ⟨node, path⟩ := t
  cases node with
  | reference m id =>
    rintro before ⟨node', path'⟩ after
    have hresolve : env.resolve (.reference m id) =
      (env.anchored.find? (·.1 == id)).map (·.2) := rfl
    rw [follow_reference, hresolve]
    split
    next hlimit =>
      constructor
      · exact fun h => nomatch h
      · rintro ⟨k, ⟨-, -, rfl⟩, hafford, -⟩
        exact absurd (Surroundings.affords_one_iff.mp hafford) (Nat.not_lt.mpr hlimit)
    next hlimit =>
      have hafford := Surroundings.affords_one_iff.mpr (Nat.lt_of_not_le hlimit)
      cases env.anchored.find? (·.1 == id) with
      | none => simp
      | some e =>
        simp only [Except.ok.injEq, Prod.mk.injEq, Target.mk.injEq, Option.map_some,
          Option.some.injEq, landing, hops]
        constructor
        · rintro ⟨⟨rfl, rfl⟩, rfl⟩
          exact ⟨1, ⟨rfl, rfl, rfl⟩, hafford, rfl⟩
        · rintro ⟨k, ⟨rfl, rfl, rfl⟩, -, rfl⟩
          exact ⟨⟨rfl, rfl⟩, rfl⟩
  | scalar | sequence | mapping | cut =>
    refine (exactly_pure _).congr fun t' k => ?_
    obtain ⟨node', path'⟩ := t'
    simp only [Surroundings.resolve, landing, hops, Target.mk.injEq, Option.some.injEq,
      eq_comm (b := node'), and_assoc]

/-! ## Contents -/

mutual

/-- Whether a node holds a content, by way of a reference or by itself, with its collections at most
`depth` deep and with so many references in it. -/
inductive Holds (env : Surroundings) : Nat → Node → Loose → Nat → Prop
  | node {depth : Nat} {n n' : Node} {l : Loose} {k : Nat} (resolved : env.resolve n = some n')
      (held : HoldsItself env depth n' l k) : Holds env depth n l (hops n + k)

/-- Whether a node that is no reference holds a content. It must not have a tag of its own. -/
inductive HoldsItself (env : Surroundings) : Nat → Node → Loose → Nat → Prop
  | scalar {depth : Nat} {m : Mark} {tag : Option Tag} {style : Style} {text : String} {s : Scalar}
      {l : Loose} (untagged : ownTag (.scalar m tag style text) = none)
      (meaning : Scalar.ofNode tag style text = .ok s) (kept : Loose.ofScalar? text s = some l) :
      HoldsItself env depth (.scalar m tag style text) l 0
  | sequence {depth : Nat} {m : Mark} {tag : Option Tag} {nodes : List Node} {items : List Loose}
      {k : Nat} (untagged : ownTag (.sequence m tag nodes) = none)
      (parts : HoldsItems env depth nodes items k) :
      HoldsItself env (depth + 1) (.sequence m tag nodes) (.sequence items) k
  | mapping {depth : Nat} {m : Mark} {tag : Option Tag} {es : List (Node × Node)}
      {kept : List (Loose × Loose)} {k : Nat} (untagged : ownTag (.mapping m tag es) = none)
      (parts : HoldsEntries env depth es kept k) :
      HoldsItself env (depth + 1) (.mapping m tag es) (.mapping kept) k

/-- Whether nodes hold contents, item by item. -/
inductive HoldsItems (env : Surroundings) : Nat → List Node → List Loose → Nat → Prop
  | nil {depth : Nat} : HoldsItems env depth [] [] 0
  | cons {depth : Nat} {n : Node} {nodes : List Node} {l : Loose} {items : List Loose} {j k : Nat}
      (item : Holds env depth n l j) (rest : HoldsItems env depth nodes items k) :
      HoldsItems env depth (n :: nodes) (l :: items) (j + k)

/-- Whether entries hold contents, key by key and value by value. -/
inductive HoldsEntries (env : Surroundings) :
    Nat → List (Node × Node) → List (Loose × Loose) → Nat → Prop
  | nil {depth : Nat} : HoldsEntries env depth [] [] 0
  | cons {depth : Nat} {n n' : Node} {es : List (Node × Node)} {l l' : Loose}
      {kept : List (Loose × Loose)} {i j k : Nat} (key : Holds env depth n l i)
      (value : Holds env depth n' l' j) (rest : HoldsEntries env depth es kept k) :
      HoldsEntries env depth ((n, n') :: es) ((l, l') :: kept) (i + j + k)

end

/-! ## What is read loosely -/

/-- The meaning of a scalar costs no reference. -/
theorem scalarMeaning_exactly (tag : Option Tag) (style : Style) (text : String) :
    (scalarMeaning tag style text).Exactly env fun s k =>
      Scalar.ofNode tag style text = .ok s ∧ k = 0 := by
  rw [scalarMeaning]
  cases Scalar.ofNode tag style text with
  | ok s =>
    refine (exactly_pure s).congr fun s' k => ?_
    simp only [Except.ok.injEq, eq_comm]
  | error d => exact (exactly_complain _).congr fun s' k => by simp

/-- A list of items costs what its items do. -/
theorem items_exactly {read : Target → Decode Loose} {depth : Nat}
    (hread : ∀ t : Target, (read t).Exactly env (Holds env depth t.node)) (path : Path)
    (nodes : List Node) : ∀ i, (items read path i nodes).Exactly env
      (HoldsItems env depth nodes) := by
  induction nodes with
  | nil =>
    intro i
    refine (exactly_pure []).congr fun items k => ⟨?_, ?_⟩
    · rintro ⟨rfl, rfl⟩
      exact .nil
    · rintro ⟨⟩
      exact ⟨rfl, rfl⟩
  | cons n nodes ih =>
    intro i
    refine ((hread _).bind fun l _ _ => (ih (i + 1)).map (l :: ·)).congr fun items k => ⟨?_, ?_⟩
    · rintro ⟨l, j, k, hl, ⟨rest, hrest, rfl⟩, rfl⟩
      exact .cons hl hrest
    · rintro ⟨⟩
      next hl hrest => exact ⟨_, _, _, hl, ⟨_, hrest, rfl⟩, rfl⟩

/-- A list of entries costs what its keys and values do. -/
theorem entries_exactly {read : Target → Decode Loose} {depth : Nat}
    (hread : ∀ t : Target, (read t).Exactly env (Holds env depth t.node)) (path : Path)
    (es : List (Node × Node)) : ∀ done, (entries (gatherLoosely read) path done es).Exactly env
      fun done' k => ∃ kept, done' = kept.reverse ++ done ∧ HoldsEntries env depth es kept k := by
  induction es with
  | nil =>
    intro done
    refine (exactly_pure done).congr fun done' k => ⟨?_, ?_⟩
    · rintro ⟨rfl, rfl⟩
      exact ⟨[], rfl, .nil⟩
    · rintro ⟨_, rfl, ⟨⟩⟩
      exact ⟨rfl, rfl⟩
  | cons e es ih =>
    intro done
    obtain ⟨key, value⟩ := e
    have hentry : (gatherLoosely read done ⟨key, path⟩ ⟨value, stepTo key :: path⟩).Exactly env
        fun done' k => ∃ l i, Holds env depth key l i ∧ ∃ l' j, Holds env depth value l' j ∧
          done' = (l, l') :: done ∧ k = i + j := by
      refine ((hread _).bind fun l _ _ =>
        (hread _).map fun l' => (l, l') :: done).congr fun done' k => ⟨?_, ?_⟩
      · rintro ⟨l, i, j, hl, ⟨l', hl', rfl⟩, rfl⟩
        exact ⟨l, i, hl, l', j, hl', rfl, rfl⟩
      · rintro ⟨l, i, hl, l', j, hl', rfl, rfl⟩
        exact ⟨l, i, j, hl, ⟨l', hl', rfl⟩, rfl⟩
    refine (hentry.bind fun done' _ _ => ih done').congr fun done' k => ⟨?_, ?_⟩
    · rintro ⟨_, _, k, ⟨l, i, hl, l', j, hl', rfl, rfl⟩, ⟨kept, rfl, hkept⟩, rfl⟩
      exact ⟨(l, l') :: kept, by simp, .cons hl hl' hkept⟩
    · rintro ⟨_, rfl, ⟨⟩⟩
      next l l' kept i j k hl hl' hkept =>
        exact ⟨_, _, _, ⟨l, _, hl, l', _, hl', rfl, rfl⟩, ⟨kept, by simp, hkept⟩, rfl⟩

/-- The reader of the parts of a collection that stands so deep. -/
def partsWithin : Nat → Option (Target → Decode Loose)
  | 0 => none
  | depth + 1 => some (loose depth)

theorem loose_eq (depth : Nat) (t : Target) : loose depth t = looseStep (partsWithin depth) t := by
  cases depth <;> rfl

theorem HoldsItself.ownTag_eq_none {depth : Nat} {n : Node} {l : Loose} {k : Nat}
    (h : HoldsItself env depth n l k) : ownTag n = none := by
  cases h <;> assumption

section Kinds

variable {depth : Nat} {m : Mark} {tag : Option Tag} {path : Path}

/-- A scalar without a tag of its own is kept as what it means. -/
theorem scalar_exactly {style : Style} {text : String}
    (htag : ownTag (.scalar m tag style text) = none) :
    (do
      let s ← scalarMeaning tag style text
      match Loose.ofScalar? text s with
      | some v => return v
      | none => complain (.unexpected (.scalar s) "any value") : Decode Loose).Exactly env
      (HoldsItself env depth (.scalar m tag style text)) := by
  refine ((scalarMeaning_exactly tag style text).bind (Q := fun s l k =>
    Loose.ofScalar? text s = some l ∧ k = 0) fun s _ _ => ?_).congr fun l k => ⟨?_, fun h => ?_⟩
  · cases Loose.ofScalar? text s with
    | none => exact (exactly_complain _).congr fun l k => by simp
    | some v => exact (exactly_pure v).congr fun l k => by simp [eq_comm]
  · rintro ⟨s, _, _, ⟨hs, rfl⟩, ⟨hl, rfl⟩, rfl⟩
    exact .scalar htag hs hl
  · cases h with
    | scalar _ hs hl => exact ⟨_, _, _, ⟨hs, rfl⟩, ⟨hl, rfl⟩, rfl⟩

/-- Nothing is held by a collection at the greatest depth. -/
theorem partReader_none_exactly {β : Type} (f : (Target → Decode Loose) → Decode β) :
    (partReader none m >>= f).Exactly env fun _ _ => False :=
  ((exactly_throw _).bind (Q := fun _ _ _ => False) fun _ _ h => h.elim).congr
    fun _ _ => ⟨fun ⟨_, _, _, h, _⟩ => h, False.elim⟩

variable (hparts : ∀ inner, depth = inner + 1 →
  ∀ t, (loose inner t).Exactly env (Holds env inner t.node))

include hparts

/-- A sequence without a tag of its own is kept as its items. -/
theorem sequence_exactly {nodes : List Node} (htag : ownTag (.sequence m tag nodes) = none) :
    (do
      return .sequence (← items (← partReader (partsWithin depth) m) path 0 nodes) :
      Decode Loose).Exactly env (HoldsItself env depth (.sequence m tag nodes)) := by
  cases depth with
  | zero => exact (partReader_none_exactly _).congr fun l k => ⟨False.elim, fun h => nomatch h⟩
  | succ depth =>
    have hitems := items_exactly (hparts depth rfl) path nodes 0
    refine (hitems.map Loose.sequence).congr fun l k => ⟨?_, fun h => ?_⟩
    · rintro ⟨items, hitems, rfl⟩
      exact .sequence htag hitems
    · cases h with
      | sequence _ hitems => exact ⟨_, hitems, rfl⟩

/-- A mapping without a tag of its own is kept as its entries. -/
theorem mapping_exactly {es : List (Node × Node)} (htag : ownTag (.mapping m tag es) = none) :
    (do
      let done ← entries (gatherLoosely (← partReader (partsWithin depth) m)) path [] es
      return .mapping done.reverse : Decode Loose).Exactly env
      (HoldsItself env depth (.mapping m tag es)) := by
  cases depth with
  | zero => exact (partReader_none_exactly _).congr fun l k => ⟨False.elim, fun h => nomatch h⟩
  | succ depth =>
    have hes := entries_exactly (hparts depth rfl) path es []
    refine (hes.map fun done => Loose.mapping done.reverse).congr fun l k => ⟨?_, fun h => ?_⟩
    · rintro ⟨_, ⟨kept, rfl, hkept⟩, rfl⟩
      rw [List.append_nil, List.reverse_reverse]
      exact .mapping htag hkept
    · cases h with
      | @mapping _ _ _ _ kept _ _ hkept =>
        exact ⟨kept.reverse, ⟨kept, (List.append_nil _).symm, hkept⟩, by rw [List.reverse_reverse]⟩

/-- Keeping a node, one level at a time. -/
theorem looseStep_exactly (t : Target) :
    (looseStep (partsWithin depth) t).Exactly env (Holds env depth t.node) := by
  refine ((follow_exactly t).bind (Q := fun t' => HoldsItself env depth t'.node)
    fun t' _ _ => Exactly.placed ?_ _ _).congr fun l k => ⟨?_, fun h => ?_⟩
  · obtain ⟨node, path⟩ := t'
    by_cases htag : (ownTag node).isSome
    · rw [if_pos htag]
      refine ((exactly_complain _).bind (Q := fun _ _ _ => False) fun _ _ h => h.elim).congr ?_
      refine fun l k => ⟨fun ⟨_, _, _, h, _⟩ => h.elim, fun h => ?_⟩
      rw [h.ownTag_eq_none] at htag
      exact absurd htag (by decide)
    · rw [if_neg htag]
      have htag : ownTag node = none := by simpa using htag
      cases node with
      | scalar => exact scalar_exactly htag
      | sequence => exact sequence_exactly hparts htag
      | mapping => exact mapping_exactly hparts htag
      | reference | cut => exact exactly_cut.congr fun l k => ⟨False.elim, fun h => nomatch h⟩
  · rintro ⟨t', _, j, ⟨hresolve, -, rfl⟩, hheld, rfl⟩
    exact .node hresolve hheld
  · cases h with
    | @node _ _ n' _ j hresolve hheld =>
      exact ⟨⟨n', landing t⟩, hops t.node, j, ⟨hresolve, rfl, rfl⟩, hheld, rfl⟩

end Kinds

/-- **A node is read loosely exactly as the content that it holds.** The induction is on the depth,
since references may lead anywhere. -/
theorem loose_exactly (depth : Nat) : ∀ t : Target,
    (loose depth t).Exactly env (Holds env depth t.node) := by
  induction depth with
  | zero =>
    intro t
    rw [loose_eq]
    exact looseStep_exactly (fun inner h => absurd h.symm (Nat.succ_ne_zero inner)) t
  | succ depth ih =>
    intro t
    rw [loose_eq]
    refine looseStep_exactly (fun inner h => ?_) t
    rwa [← Nat.succ.inj h]

end Decode

end Provision.Yaml
