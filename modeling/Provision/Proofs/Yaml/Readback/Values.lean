import Provision.Proofs.Yaml.Fit
import Provision.Proofs.Yaml.Readback.Recover

/-!
# Values are recovered

A value that fits is recovered from what is written of it, strictly with its tags, and loosely where
it has none. What depends on the text are the names of the tags alone: a name that would be cut
short, or taken for a handle, is not legible.

> `recovers_value`: a value with legible tags is read strictly as it is;
> `exists_conveys_value`: what is kept of a value that is read loosely has that value.
-/

namespace Provision.Yaml

/-! ## Names of tags -/

namespace Value

mutual

/-- The names of the tags in a value. -/
def tagNames : Value → List String
  | .sequence items => itemTagNames items
  | .mapping entries => entryTagNames entries
  | .tagged name v => name :: tagNames v
  | .null | .bool _ | .integer _ | .float _ | .string _ => []

/-- The names of the tags in the items of a sequence. -/
def itemTagNames : List Value → List String
  | [] => []
  | v :: rest => tagNames v ++ itemTagNames rest

/-- The names of the tags in the entries of a mapping. -/
def entryTagNames : List (Value × Value) → List String
  | [] => []
  | (k, v) :: rest => tagNames k ++ tagNames v ++ entryTagNames rest

end

theorem mem_itemTagNames {name : String} {items : List Value} :
    name ∈ itemTagNames items ↔ ∃ v ∈ items, name ∈ v.tagNames := by
  induction items with
  | nil => simp [itemTagNames]
  | cons v items ih => simp [itemTagNames, ih]

theorem mem_entryTagNames {name : String} {entries : List (Value × Value)} :
    name ∈ entryTagNames entries ↔ ∃ e ∈ entries, name ∈ e.1.tagNames ∨ name ∈ e.2.tagNames := by
  induction entries with
  | nil => simp [entryTagNames]
  | cons e entries ih => simp [entryTagNames, ih, or_assoc]

end Value

/-- Whether the name of a tag is read as it is written: it is a single exclamation mark, or it
begins with another character and has none that ends a tag or the text of its name. -/
def LegibleName (name : String) : Prop :=
  name = "!" ∨ name ≠ "" ∧ name.toList.head? ≠ some '!' ∧ ∀ c ∈ name.toList, c ∉ '\x00' :: tagEnds

instance (name : String) : Decidable (LegibleName name) := inferInstanceAs (Decidable (_ ∨ _))

/-- Whether all tags in a value are legible. -/
def Value.Legible (v : Value) : Prop := ∀ name ∈ v.tagNames, LegibleName name

instance (v : Value) : Decidable v.Legible := inferInstanceAs (Decidable (∀ _ ∈ _, _))

namespace Value

theorem Legible.of_item {items : List Value} (h : Legible (.sequence items)) :
    ∀ v ∈ items, v.Legible :=
  fun v hv name hname => h name (mem_itemTagNames.mpr ⟨v, hv, hname⟩)

theorem Legible.of_entry {entries : List (Value × Value)} (h : Legible (.mapping entries)) :
    ∀ e ∈ entries, e.1.Legible ∧ e.2.Legible :=
  fun e he => ⟨fun name hname => h name (mem_entryTagNames.mpr ⟨e, he, .inl hname⟩),
    fun name hname => h name (mem_entryTagNames.mpr ⟨e, he, .inr hname⟩)⟩

theorem Legible.of_tagged {name : String} {v : Value} (h : Legible (.tagged name v)) :
    LegibleName name ∧ v.Legible :=
  ⟨h name List.mem_cons_self, fun _ hname => h _ (List.mem_cons_of_mem _ hname)⟩

end Value

/-- The tag of a legible name is legible, and it is the tag of that name. -/
theorem legibleTag_tagOf {name : String} (h : LegibleName name) :
    LegibleTag (Outline.tagOf name) ∧ tagName (Outline.tagOf name) = name := by
  obtain rfl | ⟨hne, hhead, hends⟩ := h
  · have hmark : Outline.tagOf "!" = "!" := if_pos (by simp [String.startsWith_string_iff])
    rw [hmark]
    exact ⟨.inl rfl, if_pos rfl⟩
  · obtain ⟨c, cs, hcs⟩ := List.exists_cons_of_ne_nil fun h => hne (String.toList_eq_nil_iff.mp h)
    rw [hcs] at hhead hends
    have hc : c ≠ '!' := by simpa using hhead
    have htag : (Outline.tagOf name).toList = '!' :: c :: cs := by
      have hstart : name.startsWith "!" = false := by
        rw [String.startsWith_string_eq_false_iff, hcs]
        exact fun h => hc (List.cons_prefix_cons.mp h).1.symm
      rw [Outline.tagOf, hstart, if_neg Bool.false_ne_true, String.toList_append, hcs]
      rfl
    have hmark : Outline.tagOf name ≠ "!" := by
      intro h
      rw [h] at htag
      exact nomatch htag
    refine ⟨.inr ⟨c, cs, htag, hc, hends⟩, ?_⟩
    rw [tagName, if_neg hmark, htag, List.drop_one, List.tail_cons, ← hcs, String.ofList_toList]

namespace Decode

open Outline (ofValueIn ofItems ofEntries tagOf ofItems_eq_ok_iff ofEntries_eq_ok_iff
  ofValueIn_means ofEntries_of_ofValueIn tag_of_ofValueIn)

variable {α β γ : Type} {o : Outline} {n : Node} {v : Value} {depth : Nat}

/-- What is made of each member of a list is related to it as a whole. -/
theorem forall₂_flip_of_mem {R : α → β → Prop} {S : β → α → Prop} {xs : List α} {ys : List β}
    (h : List.Forall₂ R xs ys) (hRS : ∀ x ∈ xs, ∀ y, R x y → S y x) : List.Forall₂ S ys xs := by
  induction h with
  | nil => exact .nil
  | cons hone _ ih =>
    rw [List.forall_mem_cons] at hRS
    exact .cons (hRS.1 _ hone) (ih hRS.2)

/-! ## Strictly -/

theorem gives_scalarMeaning {tag : Option Tag} {style : Style} {text : String} {s : Scalar}
    (h : Scalar.ofNode tag style text = .ok s) : Gives (scalarMeaning tag style text) s := by
  rw [scalarMeaning, h]
  exact gives_pure s

theorem gives_partReader (reader : Target → Decode α) (m : Mark) :
    Gives (partReader (some reader) m) reader := gives_pure reader

/-- A tree is read as what is behind its tag, with the tag around it. -/
theorem value_shows (hn : Shows o n) (path : Path) :
    value depth ⟨n, path⟩ = placed path n.mark (do
      let v ← bareValue (valuesWithin depth) ⟨n, path⟩
      return (ownTag n).elim v fun name => .tagged name v) := by
  rw [value_eq]
  cases hn <;> rfl

/-- Behind a tag is what would be there without it. -/
theorem exists_untagged {t : String} (ho : o.tag = none) (hn : Shows (o.tagged t) n) :
    ∃ n', Shows o n' ∧ ownTag n' = none ∧ ownTag n = some (tagName t) ∧
      ∀ inner path, bareValue inner ⟨n, path⟩ = bareValue inner ⟨n', path⟩ := by
  cases o with
  | scalar tag style s =>
    obtain rfl : tag = none := ho
    cases hn with
    | @scalar _ _ _ m isKey => exact ⟨_, .scalar (m := m) isKey, rfl, rfl, fun _ _ => rfl⟩
  | sequence tag os =>
    obtain rfl : tag = none := ho
    cases hn with
    | @sequence _ _ m _ items => exact ⟨_, .sequence (m := m) items, rfl, rfl, fun _ _ => rfl⟩
  | mapping tag es =>
    obtain rfl : tag = none := ho
    cases hn with
    | @mapping _ _ m _ keys values =>
      exact ⟨_, .mapping (m := m) keys values, rfl, rfl, fun _ _ => rfl⟩

/-- A scalar is recovered as the value that it means. -/
theorem recovers_scalar {s : Scalar} (hmeans : o.Means s) (hvalue : s.value? = some v) :
    Recovers (value depth) o v := by
  refine ⟨legible_of_means hmeans, fun n hn path => ?_⟩
  rw [value_shows hn]
  obtain ⟨style, text, rfl, -, hmeans⟩ := hmeans
  cases hn with
  | scalar isKey =>
    refine Gives.placed (Gives.bind (x := v) ?_ (gives_pure _)) path _
    rw [bareValue]
    simp only [Option.map_none]
    refine (gives_scalarMeaning (hmeans isKey)).bind ?_
    rw [hvalue]
    exact gives_pure v

/-- Items that are recovered are those of a sequence. -/
theorem recovers_items {os : List Outline} {items : List Value}
    (h : List.Forall₂ (Recovers (value depth)) os items) :
    Recovers (value (depth + 1)) (.sequence none os) (.sequence items) := by
  refine ⟨.sequence nofun (forall_mem_of_forall₂ Recovers.legible h), fun n hn path => ?_⟩
  rw [value_shows hn]
  cases hn with
  | sequence hns =>
    refine Gives.placed (Gives.bind (x := Value.sequence items) ?_ (gives_pure _)) path _
    exact (gives_partReader (value depth) _).bind ((gives_items h hns path 0).bind (gives_pure _))

/-- Entries are gathered while their keys are new. -/
theorem recoversEntries_gather {os : List (Outline × Outline)} {es : List (Value × Value)}
    (h : List.Forall₂ (fun o e => Recovers (value depth) o.1 e.1 ∧ Recovers (value depth) o.2 e.2)
      os es) :
    ∀ done : List (Value × Value), (∀ e ∈ es, ∀ e' ∈ done, e'.1.same e.1 = false) →
      es.Pairwise (fun e e' => e.1.same e'.1 = false) →
      RecoversEntries (gather (value depth)) done os (es.reverse ++ done) := by
  induction h with
  | nil => exact fun done _ _ => .nil
  | @cons o e os es hone _ ih =>
    intro done hnew hdistinct
    obtain ⟨k, v⟩ := e
    obtain ⟨hkey, hvalue⟩ := hone
    rw [List.forall_mem_cons] at hnew
    rw [List.pairwise_cons] at hdistinct
    have hfind : (done.find? fun e => e.1.same k) = none := by
      simpa using hnew.1
    have hrest := ih ((k, v) :: done) (fun e he => List.forall_mem_cons.mpr
      ⟨hdistinct.1 e he, hnew.2 e he⟩) hdistinct.2
    rw [List.reverse_cons, List.append_assoc]
    refine .cons ⟨hkey.legible, hvalue.legible, fun n n' hn hn' path path' => ?_⟩ hrest
    refine (hkey.gives hn path).bind ?_
    rw [hfind]
    exact (hvalue.gives hn' path').bind (gives_pure _)

/-- Entries that are recovered are those of a mapping, if their keys are distinct. -/
theorem recovers_entries {os : List (Outline × Outline)} {es : List (Value × Value)}
    (h : List.Forall₂ (fun o e => Recovers (value depth) o.1 e.1 ∧ Recovers (value depth) o.2 e.2)
      os es) (hdistinct : Value.distinctKeys es = true) :
    Recovers (value (depth + 1)) (.mapping none os) (.mapping es) := by
  have hentries := recoversEntries_gather h [] (fun _ _ => nofun)
    (Value.distinctKeys_iff.mp hdistinct)
  refine ⟨.mapping nofun (fun e he => (hentries.legible e he).1)
    fun e he => (hentries.legible e he).2, fun n hn path => ?_⟩
  rw [value_shows hn]
  cases hn with
  | mapping hkeys hvalues =>
    have hgather := (gives_entries hentries hkeys hvalues path).map fun done =>
      Value.mapping done.reverse
    rw [List.append_nil, List.reverse_reverse] at hgather
    refine Gives.placed (Gives.bind (x := Value.mapping es) ?_ (gives_pure _)) path _
    exact (gives_partReader (value depth) _).bind hgather

/-- A legible tag may be put on what is legible. -/
theorem legible_tagged {t : String} (ht : LegibleTag t) (h : o.Legible) : (o.tagged t).Legible := by
  cases h with
  | scalar _ htext => exact .scalar (fun _ h => Option.some.inj h ▸ ht) htext
  | sequence _ hitems => exact .sequence (fun _ h => Option.some.inj h ▸ ht) hitems
  | mapping _ hkeys hvalues => exact .mapping (fun _ h => Option.some.inj h ▸ ht) hkeys hvalues

/-- What is recovered behind a tag is recovered with it. -/
theorem recovers_tagged {name : String} (hname : LegibleName name) (ho : o.tag = none)
    (h : Recovers (value depth) o v) :
    Recovers (value depth) (o.tagged (tagOf name)) (.tagged name v) := by
  obtain ⟨htag, hname⟩ := legibleTag_tagOf hname
  refine ⟨legible_tagged htag h.legible, fun n hn path => ?_⟩
  obtain ⟨n', hn', hnone, hown, hbare⟩ := exists_untagged ho hn
  have hgives := h.gives hn' path
  rw [value_shows hn', hnone] at hgives
  rw [value_shows hn, hown, hname, hbare]
  have hbare : Gives (bareValue (valuesWithin depth) ⟨n', path⟩) v := by
    have hsame := bind_pure (bareValue (valuesWithin depth) ⟨n', path⟩)
    rw [← hsame]
    exact hgives.of_placed
  exact (hbare.bind (gives_pure (Value.tagged name v))).placed path _

/-- **A value with legible tags is recovered from what is written of it.** Along the value, which
may be tagged wherever it stands. -/
theorem recovers_value (hfits : v.Fits false depth) : ∀ {bare : Bool} {o : Outline},
    ofValueIn bare v = .ok o → v.Legible → Recovers (value depth) o v := by
  induction hfits with
  | scalar fits value =>
    intro bare o h _
    obtain ⟨o', ho', hmeans⟩ := ofValueIn_means fits value bare
    obtain rfl := Except.ok.inj (ho'.symm.trans h)
    exact recovers_scalar hmeans value
  | sequence parts ih =>
    intro bare o h hlegible
    rw [ofValueIn] at h
    obtain ⟨os, hos, rfl⟩ := map_eq_ok_iff.mp h
    exact recovers_items (forall₂_flip_of_mem (ofItems_eq_ok_iff.mp hos)
      fun v hv o ho => ih v hv ho (hlegible.of_item v hv))
  | mapping distinct keys parts ihkeys ih =>
    intro bare o h hlegible
    obtain ⟨os, hos, rfl⟩ := map_eq_ok_iff.mp (ofEntries_of_ofValueIn h)
    refine recovers_entries (forall₂_flip_of_mem (ofEntries_eq_ok_iff.mp hos)
      fun e he o ho => ?_) distinct
    obtain ⟨hkey, hvalue⟩ := hlegible.of_entry e he
    exact ⟨ihkeys e he ho.1 hkey, ih e he ho.2 hvalue⟩
  | tagged _ bare inside ih =>
    intro bare' o h hlegible
    rw [ofValueIn] at h
    obtain ⟨o', ho', rfl⟩ := map_eq_ok_iff.mp h
    obtain ⟨hname, hlegible⟩ := hlegible.of_tagged
    exact recovers_tagged hname (tag_of_ofValueIn bare ho') (ih ho' hlegible)

/-! ## Loosely -/

/-- Whether an outline is legible and every tree of it holds a content, in which no reference is
followed. -/
structure Conveys (depth : Nat) (o : Outline) (l : Loose) : Prop where
  legible : o.Legible
  holds : ∀ ⦃n : Node⦄, Shows o n → ∀ env, Holds env depth n l 0

/-- A scalar conveys what it means, if that can be kept. -/
theorem exists_conveys_scalar {s : Scalar} (depth : Nat) (hmeans : o.Means s)
    (hvalue : s.value? = some v) : ∃ l, Conveys depth o l ∧ l.value? = some v := by
  have hlegible := legible_of_means hmeans
  obtain ⟨style, text, rfl, -, hmeans⟩ := hmeans
  obtain ⟨l, hl⟩ : ∃ l, Loose.ofScalar? text s = some l := by
    cases s with
    | wide n => exact nomatch hvalue
    | _ => exact ⟨_, rfl⟩
  refine ⟨l, ⟨hlegible, fun n hn env => ?_⟩, (value?_of_ofScalar? hl).trans hvalue⟩
  cases hn with
  | scalar isKey => exact .node rfl (.scalar rfl (hmeans isKey) hl)

/-- A string conveys itself. -/
theorem conveys_string (depth : Nat) (s : String) : Conveys depth (.string s) (.string s) := by
  have hmeans := Outline.means_string s
  refine ⟨legible_of_means hmeans, fun n hn env => ?_⟩
  obtain ⟨_, _, heq, -, hmeans⟩ := hmeans
  obtain ⟨-, rfl, rfl⟩ := Outline.scalar.inj heq
  cases hn with
  | scalar isKey => exact .node rfl (.scalar rfl (hmeans isKey) rfl)

/-- Items that are conveyed one by one are held by the trees of them. -/
theorem holdsItems_of_conveys {os : List Outline} {ls : List Loose} {ns : List Node}
    (h : List.Forall₂ (Conveys depth) os ls) (hns : List.Forall₂ Shows os ns) (env : Surroundings) :
    HoldsItems env depth ns ls 0 := by
  induction h generalizing ns with
  | nil =>
    cases hns
    exact .nil
  | cons hone _ ih =>
    cases hns with
    | cons hn hns => exact .cons (hone.holds hn env) (ih hns)

/-- A sequence conveys what its items do. -/
theorem conveys_sequence {os : List Outline} {ls : List Loose}
    (h : List.Forall₂ (Conveys depth) os ls) :
    Conveys (depth + 1) (.sequence none os) (.sequence ls) := by
  refine ⟨.sequence nofun (forall_mem_of_forall₂ Conveys.legible h), fun n hn env => ?_⟩
  cases hn with
  | sequence hns => exact .node rfl (.sequence rfl (holdsItems_of_conveys h hns env))

/-- Entries that are conveyed one by one are held by the trees of them. -/
theorem holdsEntries_of_conveys {os : List (Outline × Outline)} {ls : List (Loose × Loose)}
    {ns : List (Node × Node)}
    (h : List.Forall₂ (fun o l => Conveys depth o.1 l.1 ∧ Conveys depth o.2 l.2) os ls)
    (hkeys : List.Forall₂ Shows (os.map Prod.fst) (ns.map Prod.fst))
    (hvalues : List.Forall₂ Shows (os.map Prod.snd) (ns.map Prod.snd)) (env : Surroundings) :
    HoldsEntries env depth ns ls 0 := by
  induction h generalizing ns with
  | nil =>
    obtain rfl : ns = [] := List.map_eq_nil_iff.mp (List.forall₂_nil_left_iff.mp hkeys)
    exact .nil
  | cons hone _ ih =>
    cases ns with
    | nil => exact nomatch hkeys
    | cons n ns =>
      cases hkeys with
      | cons hkey hkeys =>
        cases hvalues with
        | cons hvalue hvalues =>
          exact .cons (hone.1.holds hkey env) (hone.2.holds hvalue env) (ih hkeys hvalues)

/-- A mapping conveys what its entries do. -/
theorem conveys_mapping {os : List (Outline × Outline)} {ls : List (Loose × Loose)}
    (h : List.Forall₂ (fun o l => Conveys depth o.1 l.1 ∧ Conveys depth o.2 l.2) os ls) :
    Conveys (depth + 1) (.mapping none os) (.mapping ls) := by
  have hlegible : ∀ e ∈ os, e.1.Legible ∧ e.2.Legible :=
    forall_mem_of_forall₂ (fun h => ⟨h.1.legible, h.2.legible⟩) h
  refine ⟨.mapping nofun (fun e he => (hlegible e he).1) fun e he => (hlegible e he).2,
    fun n hn env => ?_⟩
  cases hn with
  | mapping hkeys hvalues =>
    exact .node rfl (.mapping rfl (holdsEntries_of_conveys h hkeys hvalues env))

/-- What comes between two lists, member by member, is a list between them. -/
theorem exists_forall₂_between {R : α → β → Prop} {S : β → γ → Prop} {xs : List α} {zs : List γ}
    (h : List.Forall₂ (fun x z => ∃ y, R x y ∧ S y z) xs zs) :
    ∃ ys, List.Forall₂ R xs ys ∧ List.Forall₂ S ys zs := by
  induction h with
  | nil => exact ⟨[], .nil, .nil⟩
  | cons hone _ ih =>
    obtain ⟨y, hR, hS⟩ := hone
    obtain ⟨ys, hRs, hSs⟩ := ih
    exact ⟨y :: ys, .cons hR hRs, .cons hS hSs⟩

/-- **What is written of a value without tags conveys that value.** -/
theorem exists_conveys_value (hfits : v.Fits true depth) : ∀ {bare : Bool} {o : Outline},
    ofValueIn bare v = .ok o → ∃ l, Conveys depth o l ∧ l.value? = some v := by
  induction hfits with
  | @scalar depth s v fits value =>
    intro bare o h
    obtain ⟨o', ho', hmeans⟩ := ofValueIn_means fits value bare
    obtain rfl := Except.ok.inj (ho'.symm.trans h)
    exact exists_conveys_scalar depth hmeans value
  | sequence parts ih =>
    intro bare o h
    rw [ofValueIn] at h
    obtain ⟨os, hos, rfl⟩ := map_eq_ok_iff.mp h
    obtain ⟨ls, hls, hvalues⟩ := exists_forall₂_between
      (forall₂_flip_of_mem (ofItems_eq_ok_iff.mp hos) fun v hv o ho => ih v hv ho)
    refine ⟨.sequence ls, conveys_sequence hls, ?_⟩
    rw [Loose.value?, Loose.values?_eq_some_iff.mpr hvalues]
    rfl
  | @mapping depth entries distinct keys parts ihkeys ih =>
    intro bare o h
    obtain ⟨os, hos, rfl⟩ := map_eq_ok_iff.mp (ofEntries_of_ofValueIn h)
    obtain ⟨ls, hls, hvalues⟩ := exists_forall₂_between
      (R := fun o (l : Loose × Loose) => Conveys depth o.1 l.1 ∧ Conveys depth o.2 l.2)
      (S := fun l e => l.1.value? = some e.1 ∧ l.2.value? = some e.2)
      (forall₂_flip_of_mem (ofEntries_eq_ok_iff.mp hos) fun e he o ho => by
        obtain ⟨k, hk, hkey⟩ := ihkeys e he ho.1
        obtain ⟨l, hl, hvalue⟩ := ih e he ho.2
        exact ⟨(k, l), ⟨hk, hl⟩, hkey, hvalue⟩)
    refine ⟨.mapping ls, conveys_mapping hls, ?_⟩
    rw [Loose.value?, Loose.entries?_eq_some_iff.mpr hvalues]
    simp [distinct]
  | tagged strictly => cases strictly

end Decode

end Provision.Yaml
