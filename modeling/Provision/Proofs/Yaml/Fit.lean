import Provision.Proofs.Registry
import Provision.Proofs.Yaml.Loose

/-!
# Values that are read fit

Scalars are in the range of their kinds wherever they stand in a value, collections nest no deeper
than the reader goes, no mapping has a key twice, and a node has one tag at most: none where it is
read loosely. What a decoder makes of a collection has what its items have, one level deeper.

> `ensures_value`, `fits_of_holds`: what has been read of a node fits;
> `ensures_sequence`, `ensures_mapping`, `ensures_registry`: what is read of collections.
-/

namespace Provision.Yaml

/-- Whether the format has all scalars of a value, its collections nest at most `depth` deep, no key
is there twice and no tag on another one. There are no tags in what has been read loosely. -/
inductive Value.Fits (loosely : Bool) : (depth : Nat) → Value → Prop
  | scalar {depth : Nat} {s : Scalar} {v : Value} (fits : s.Fits) (value : s.value? = some v) :
      Fits loosely depth v
  | sequence {depth : Nat} {items : List Value} (parts : ∀ v ∈ items, Fits loosely depth v) :
      Fits loosely (depth + 1) (.sequence items)
  | mapping {depth : Nat} {entries : List (Value × Value)} (distinct : distinctKeys entries = true)
      (keys : ∀ e ∈ entries, Fits loosely depth e.1)
      (parts : ∀ e ∈ entries, Fits loosely depth e.2) : Fits loosely (depth + 1) (.mapping entries)
  | tagged {depth : Nat} {name : String} {v : Value} (strictly : loosely = false)
      (bare : ∀ name w, v ≠ .tagged name w) (inside : Fits loosely depth v) :
      Fits loosely depth (.tagged name v)

/-- Keys are distinct when no earlier one is the same as a later one. -/
theorem Value.distinctKeys_iff {es : List (Value × Value)} :
    distinctKeys es = true ↔ es.Pairwise fun e e' => e.1.same e'.1 = false := by
  induction es with
  | nil => simp [distinctKeys]
  | cons e es ih => simp [distinctKeys, ih]

namespace Decode

variable {α σ : Type} {env : Surroundings} {n : Node} {v : Value}

/-- What is related to something, one by one, is related to each of it. -/
theorem exists_mem_of_forall₂ {α β : Type} {R : α → β → Prop} {l : List α} {xs : List β}
    (h : List.Forall₂ R l xs) : ∀ x ∈ xs, ∃ a ∈ l, R a x := by
  induction h with
  | nil => exact nofun
  | cons hone _ ih =>
    refine List.forall_mem_cons.mpr ⟨⟨_, List.mem_cons_self, hone⟩, fun x hx => ?_⟩
    obtain ⟨a, ha, hR⟩ := ih x hx
    exact ⟨a, List.mem_cons_of_mem _ ha, hR⟩

/-! ## What decoders ensure -/

/-- Whether a decoder reads only what has a property. -/
def Ensures (d : Target → Decode α) (P : α → Prop) : Prop :=
  ∀ ⦃env t x⦄, (d t).Reads env x → P x

/-- What is related to something that a decoder reads has what the decoder ensures. -/
theorem Ensures.forall_mem {d : Target → Decode α} {P : α → Prop} (h : Ensures d P)
    {nodes : List Node} {xs : List α} (hread : List.Forall₂ (Yields d env) nodes xs) :
    ∀ x ∈ xs, P x := by
  intro x hx
  obtain ⟨n, -, path, hn⟩ := exists_mem_of_forall₂ hread x hx
  exact h hn

/-- What is optional has what is read where it is present. -/
theorem ensures_option {present : Target → Decode α} {P : α → Prop} (h : Ensures present P) :
    Ensures (option present) fun o => ∀ x ∈ o, P x := by
  intro env t o hread
  obtain ⟨-, rfl⟩ | ⟨-, n, x, -, ⟨path, hx⟩, rfl⟩ := reads_option hread
  · exact nofun
  · rintro _ ⟨⟩
    exact h hx

/-- The items of a sequence have what is read one level deeper. -/
theorem ensures_sequence {item : Nat → Target → Decode α} {depth : Nat} {P : α → Prop}
    (h : Ensures (item depth) P) : Ensures (sequence item (depth + 1)) fun xs => ∀ x ∈ xs, P x := by
  intro env t xs hread
  obtain ⟨nodes, inner, -, hinner, hread⟩ := reads_sequence hread
  cases hread with
  | nil => simp
  | cons hone hrest =>
    obtain rfl := Nat.succ.inj (hinner (List.cons_ne_nil _ _))
    exact h.forall_mem (.cons hone hrest)

/-- What is gathered along entries stays as it is at each of them. -/
theorem Gathers.keeps {Step : σ → Node → Node → σ → Prop} {I : σ → Prop} {s s' : σ}
    {es : List (Node × Node)} (h : Gathers Step s es s')
    (hstep : ∀ {s k v s'}, Step s k v s' → I s → I s') (hs : I s) : I s' := by
  induction h with
  | done => exact hs
  | next step rest ih => exact ih (hstep step hs)

/-- What holds of the start and is kept by each entry, read one level deeper, holds at the end. -/
theorem ensures_mapping {expected : String} {start : σ}
    {entry : Nat → σ → Target → Target → Decode σ} {finish : σ → Decode α} {depth : Nat}
    {I : σ → Prop} {P : α → Prop} (hstart : I start)
    (hentry : ∀ {env s k v s'}, EntryReads (entry depth) env s k v s' → I s → I s')
    (hfinish : ∀ {env s x}, I s → (finish s).Reads env x → P x) :
    Ensures (mapping expected start entry finish (depth + 1)) P := by
  intro env t x hread
  obtain ⟨es, inner, s, -, hinner, hgathers, hread⟩ := reads_mapping hread
  refine hfinish ?_ hread
  cases hgathers with
  | done => exact hstart
  | next step rest =>
    obtain rfl := Nat.succ.inj (hinner (List.cons_ne_nil _ _))
    exact (Gathers.next step rest).keeps hentry hstart

/-- What stands under free names has what is read one level deeper. -/
theorem ensures_registry {item : Nat → Target → Decode α} {depth : Nat} {P : α → Prop}
    (h : Ensures (item depth) P) :
    Ensures (registry item (depth + 1)) fun r => ∀ x ∈ r.values, P x := by
  refine ensures_mapping (I := fun r => ∀ x ∈ r.values, P x) nofun ?_ ?_
  · rintro env r k n r' ⟨path, path', hread⟩ hr
    obtain ⟨name, -, hread⟩ := reads_bind hread
    obtain ⟨x, hx, hread⟩ := reads_bind hread
    obtain rfl := reads_pure hread
    intro y hy
    obtain rfl | hy := Registry.mem_values_insert hy
    · exact h hx
    · exact hr y hy
  · intro env r r' hr hread
    rwa [reads_pure hread]

/-! ## Strictly -/

/-- The value of a scalar carries no tag. -/
theorem not_tagged_of_value? {s : Scalar} (h : s.value? = some v) :
    ∀ name w, v ≠ .tagged name w := by
  rintro name w rfl
  cases s <;> exact nomatch h

/-- What has been gathered of a mapping: keys that are not the same, and parts that fit. -/
structure FitsGathered (depth : Nat) (done : List (Value × Value)) : Prop where
  distinct : done.Pairwise fun later earlier => earlier.1.same later.1 = false
  keys : ∀ e ∈ done, e.1.Fits false depth
  parts : ∀ e ∈ done, e.2.Fits false depth

/-- An entry whose key is new leaves what has been gathered as it should be. -/
theorem fitsGathered_gather {read : Target → Decode Value} {depth : Nat}
    (hread : Ensures read (Value.Fits false depth)) {done done' : List (Value × Value)} {k v : Node}
    (h : EntryReads (gather read) env done k v done') (hdone : FitsGathered depth done) :
    FitsGathered depth done' := by
  obtain ⟨path, path', h⟩ := h
  obtain ⟨key, hkey, h⟩ := reads_bind h
  split at h
  · exact absurd h not_reads_complain
  next hnew =>
    obtain ⟨v, hv, h⟩ := reads_bind h
    obtain rfl := reads_pure h
    have hnew : ∀ e ∈ done, e.1.same key = false := by simpa using hnew
    exact ⟨List.pairwise_cons.mpr ⟨hnew, hdone.distinct⟩,
      List.forall_mem_cons.mpr ⟨hread hkey, hdone.keys⟩,
      List.forall_mem_cons.mpr ⟨hread hv, hdone.parts⟩⟩

/-- The reader of the parts of a value whose collections nest so deep. -/
def valuesWithin : Nat → Option (Target → Decode Value)
  | 0 => none
  | depth + 1 => some (value depth)

theorem value_eq (depth : Nat) (t : Target) : value depth t = valueStep (valuesWithin depth) t := by
  cases depth <;> rfl

/-- An untagged value fits when its parts do, and it carries no tag. -/
theorem ensures_bareValue {depth : Nat}
    (hparts : ∀ inner, depth = inner + 1 → Ensures (value inner) (Value.Fits false inner)) :
    Ensures (bareValue (valuesWithin depth)) fun v =>
      v.Fits false depth ∧ ∀ name w, v ≠ .tagged name w := by
  have hreader : ∀ {env m reader}, (partReader (valuesWithin depth) m).Reads env reader →
      ∃ inner, depth = inner + 1 ∧ Ensures reader (Value.Fits false inner) := by
    intro env m reader h
    have h := reads_partReader h
    cases depth with
    | zero => exact nomatch h
    | succ inner => exact ⟨inner, rfl, Option.some.inj h ▸ hparts inner rfl⟩
  intro env t v h
  unfold bareValue at h
  split at h
  · obtain ⟨s, hs, h⟩ := reads_bind h
    split at h
    next hvalue =>
      obtain rfl := reads_pure h
      exact ⟨.scalar (Scalar.fits_of_ofNode (reads_scalarMeaning hs)) hvalue,
        not_tagged_of_value? hvalue⟩
    next => exact absurd h not_reads_complain
  · obtain ⟨reader, hpart, h⟩ := reads_bind h
    obtain ⟨items, hitems, h⟩ := reads_bind h
    obtain rfl := reads_pure h
    obtain ⟨inner, rfl, hread⟩ := hreader hpart
    exact ⟨.sequence (hread.forall_mem (reads_items hitems)), nofun⟩
  · obtain ⟨reader, hpart, h⟩ := reads_bind h
    obtain ⟨done, hdone, h⟩ := reads_bind h
    obtain rfl := reads_pure h
    obtain ⟨inner, rfl, hread⟩ := hreader hpart
    obtain ⟨hdistinct, hkeys, hfits⟩ := (reads_entries hdone).keeps (fitsGathered_gather hread)
      ⟨.nil, nofun, nofun⟩
    refine ⟨.mapping (Value.distinctKeys_iff.mpr (List.pairwise_reverse.mpr hdistinct))
      ?_ ?_, nofun⟩
    · exact fun e he => hkeys e (List.mem_reverse.mp he)
    · exact fun e he => hfits e (List.mem_reverse.mp he)
  · exact absurd h not_reads_cut

/-- A value fits when its parts do: there is one tag on it at most. -/
theorem ensures_valueStep {depth : Nat}
    (hparts : ∀ inner, depth = inner + 1 → Ensures (value inner) (Value.Fits false inner)) :
    Ensures (value depth) (Value.Fits false depth) := by
  intro env t v h
  rw [value_eq] at h
  obtain ⟨t', -, h⟩ := reads_bind h
  obtain ⟨w, hw, h⟩ := reads_bind (reads_placed h)
  obtain rfl := reads_pure h
  obtain ⟨hfits, hbare⟩ := ensures_bareValue hparts hw
  cases ownTag t'.node with
  | none => exact hfits
  | some name => exact .tagged rfl hbare hfits

/-- **A value that has been read fits.** The induction is on the depth: the parts of a collection
are read with one less. -/
theorem ensures_value (depth : Nat) : Ensures (value depth) (Value.Fits false depth) := by
  induction depth with
  | zero => exact ensures_valueStep fun inner h => nomatch h
  | succ depth ih => exact ensures_valueStep fun inner h => Nat.succ.inj h ▸ ih

/-! ## Loosely -/

theorem value?_of_ofScalar? {text : String} {s : Scalar} {l : Loose}
    (hkept : Loose.ofScalar? text s = some l) : l.value? = s.value? := by
  cases s with
  | wide n => exact nomatch hkept
  | _ =>
    obtain rfl := Option.some.inj hkept
    rw [Loose.value?]
    rfl

/-- A scalar is not kept as a collection. -/
theorem not_collection_of_ofScalar? {text : String} {s : Scalar} {l : Loose}
    (hkept : Loose.ofScalar? text s = some l) :
    (∀ items, l ≠ .sequence items) ∧ ∀ es, l ≠ .mapping es := by
  cases s with
  | wide n => exact nomatch hkept
  | _ =>
    obtain rfl := Option.some.inj hkept
    exact ⟨nofun, nofun⟩

theorem HoldsItems.exists_holds {depth : Nat} {nodes : List Node} {items : List Loose} {k : Nat}
    (h : HoldsItems env depth nodes items k) : ∀ l ∈ items, ∃ n j, Holds env depth n l j := by
  induction items generalizing nodes k with
  | nil => exact nofun
  | cons l items ih =>
    cases h with
    | cons item rest => exact List.forall_mem_cons.mpr ⟨⟨_, _, item⟩, ih rest⟩

theorem HoldsEntries.exists_holds {depth : Nat} {es : List (Node × Node)}
    {kept : List (Loose × Loose)} {k : Nat} (h : HoldsEntries env depth es kept k) :
    ∀ e ∈ kept, (∃ n j, Holds env depth n e.1 j) ∧ ∃ n j, Holds env depth n e.2 j := by
  induction kept generalizing es k with
  | nil => exact nofun
  | cons e kept ih =>
    cases h with
    | cons key value rest =>
      exact List.forall_mem_cons.mpr ⟨⟨⟨_, _, key⟩, _, _, value⟩, ih rest⟩

/-- What is kept of the items of a sequence is held by nodes one level deeper. -/
theorem Holds.of_sequence {depth k : Nat} {items : List Loose}
    (h : Holds env depth n (.sequence items) k) :
    ∃ inner, depth = inner + 1 ∧ ∀ l ∈ items, ∃ n' j, Holds env inner n' l j := by
  cases h with
  | node _ hheld =>
    cases hheld with
    | scalar _ _ hkept => exact absurd rfl ((not_collection_of_ofScalar? hkept).1 items)
    | sequence _ hparts => exact ⟨_, rfl, hparts.exists_holds⟩

/-- What is kept of the entries of a mapping is held by nodes one level deeper. -/
theorem Holds.of_mapping {depth k : Nat} {es : List (Loose × Loose)}
    (h : Holds env depth n (.mapping es) k) : ∃ inner, depth = inner + 1 ∧
      ∀ e ∈ es, (∃ n' j, Holds env inner n' e.1 j) ∧ ∃ n' j, Holds env inner n' e.2 j := by
  cases h with
  | node _ hheld =>
    cases hheld with
    | scalar _ _ hkept => exact absurd rfl ((not_collection_of_ofScalar? hkept).2 es)
    | mapping _ hparts => exact ⟨_, rfl, hparts.exists_holds⟩

/-- What is kept of a node that has no parts fits. -/
theorem fits_of_leaf {depth k : Nat} {l : Loose} (h : Holds env depth n l k)
    (hsequence : ∀ items, l ≠ .sequence items) (hmapping : ∀ es, l ≠ .mapping es)
    (hv : l.value? = some v) : v.Fits true depth := by
  cases h with
  | node _ hheld =>
    cases hheld with
    | scalar _ hmeaning hkept =>
      exact .scalar (Scalar.fits_of_ofNode hmeaning) (value?_of_ofScalar? hkept ▸ hv)
    | sequence => exact absurd rfl (hsequence _)
    | mapping => exact absurd rfl (hmapping _)

/-- **A value that has been read loosely fits.** Along what has been kept of its node. -/
theorem fits_of_holds {depth k : Nat} {n : Node} {v : Value} : ∀ {l : Loose},
    Holds env depth n l k → l.value? = some v → v.Fits true depth
  | .null, h, hv => fits_of_leaf h nofun nofun hv
  | .bool _, h, hv => fits_of_leaf h nofun nofun hv
  | .integer _ _, h, hv => fits_of_leaf h nofun nofun hv
  | .float _, h, hv => fits_of_leaf h nofun nofun hv
  | .string _, h, hv => fits_of_leaf h nofun nofun hv
  | .sequence items, h, hv => by
    obtain ⟨inner, rfl, hparts⟩ := h.of_sequence
    rw [Loose.value?] at hv
    obtain ⟨values, hvalues, rfl⟩ := Option.map_eq_some_iff.mp hv
    refine .sequence fun v hv => ?_
    obtain ⟨l, hl, hvalue⟩ := exists_mem_of_forall₂ (Loose.values?_eq_some_iff.mp hvalues) v hv
    obtain ⟨n', j, hheld⟩ := hparts l hl
    have := List.sizeOf_lt_of_mem hl
    exact fits_of_holds hheld hvalue
  | .mapping es, h, hv => by
    obtain ⟨inner, rfl, hparts⟩ := h.of_mapping
    rw [Loose.value?] at hv
    obtain ⟨values, hvalues, hv⟩ := Option.bind_eq_some_iff.mp hv
    split at hv
    next hdistinct =>
      obtain rfl := Option.some.inj hv
      have hfits : ∀ e ∈ values, e.1.Fits true inner ∧ e.2.Fits true inner := by
        intro e he
        obtain ⟨⟨k, l⟩, hl, hkey, hvalue⟩ :=
          exists_mem_of_forall₂ (Loose.entries?_eq_some_iff.mp hvalues) e he
        obtain ⟨⟨_, _, hheldKey⟩, _, _, hheld⟩ := hparts (k, l) hl
        have : 1 + sizeOf k + sizeOf l < sizeOf es := List.sizeOf_lt_of_mem hl
        exact ⟨fits_of_holds hheldKey hkey, fits_of_holds hheld hvalue⟩
      exact .mapping hdistinct (fun e he => (hfits e he).1) fun e he => (hfits e he).2
    next => exact nomatch hv
termination_by l => sizeOf l
decreasing_by
  · rw [Loose.sequence.sizeOf_spec]
    omega
  · rw [Loose.mapping.sizeOf_spec]
    omega
  · rw [Loose.mapping.sizeOf_spec]
    omega

end Decode

end Provision.Yaml
