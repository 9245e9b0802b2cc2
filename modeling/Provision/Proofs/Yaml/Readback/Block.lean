import Provision.Proofs.Yaml.Readback.SimpleKey

/-!
# Nodes are read in their places

Each node is read in its place as the tokens that it is made of, up to the first column of what
stands after it. The items of a sequence and the entries of a mapping are read one after another;
the first of them opens a block, unless the sequence stands in the column of the mapping around it.

> `reads_items`, `reads_entries`: a collection from its first line on;
> `isRead_of_legible`: a node in its place.
-/

namespace Provision.Yaml

open Outline (isSafe endsLine spaces tagText tagBefore scalarText settle endsItself simpleKey?
  node items entries block)
open Source (laid)

/-! ## Tokens of a node -/

/-- Whether a sequence in a place stands in the column of the mapping around it. -/
def Outline.Place.isIndentless (tagged : Bool) : Outline.Place → Bool
  | top | item _ => false
  | mark _ => tagged
  | key _ => true

mutual

/-- The tokens of a node in a place. -/
def nodeTokens (place : Outline.Place) : Outline → List Token
  | .scalar tag style s => tagTokens tag ++ [.scalar (settle style false s.toList) s.toList]
  | .sequence tag [] => tagTokens tag ++ [.flowSequenceStart, .flowSequenceEnd]
  | .sequence tag (o :: os) =>
    let all := itemTokens (place.sequenceColumn tag.isSome) (o :: os)
    tagTokens tag ++
      if place.isIndentless tag.isSome then all else .blockSequenceStart :: all ++ [.blockEnd]
  | .mapping tag [] => tagTokens tag ++ [.flowMappingStart, .flowMappingEnd]
  | .mapping tag (e :: es) =>
    tagTokens tag ++ .blockMappingStart :: entryTokens place.mappingColumn (e :: es) ++ [.blockEnd]

/-- The tokens of the items of a sequence. -/
def itemTokens (column : Nat) : List Outline → List Token
  | [] => []
  | o :: os => .blockEntry :: nodeTokens (.item column) o ++ itemTokens column os

/-- The tokens of the entries of a mapping. -/
def entryTokens (column : Nat) : List (Outline × Outline) → List Token
  | [] => []
  | (k, v) :: es =>
    let entry := match simpleKey? k with
      | some _ => .key :: keyTokens k ++ .value :: nodeTokens (.key column) v
      | none => .key :: nodeTokens (.mark column) k ++ .value :: nodeTokens (.mark column) v
    entry ++ entryTokens column es

end

namespace Scanner

variable {blocks : List Nat} {allowed : Bool} {m : Mark} {tail : List Char} {c d k : Nat}
  {tag : Option String} {place : Outline.Place}

/-! ## Places -/

/-- A reader behind the indicator that a place is after, which stands in a column or further
right. -/
inductive AtPlace : Outline.Place → Nat → Bool → Mark → Prop
  | item {c : Nat} {m : Mark} (column : m.column = c + 1) : AtPlace (.item c) c true m
  | mark {c : Nat} {m : Mark} (column : m.column = c + 1) : AtPlace (.mark c) c true m
  | key {c : Nat} {m : Mark} (column : c < m.column) : AtPlace (.key c) c false m

theorem AtPlace.gap (h : AtPlace place c allowed m) : place.gap = [' '] := by
  cases h <;> rfl

theorem AtPlace.margin (h : AtPlace place c allowed m) : place.margin = c + 2 := by
  cases h <;> rfl

theorem AtPlace.mappingColumn (h : AtPlace place c allowed m) : place.mappingColumn = c + 2 := by
  cases h <;> rfl

theorem AtPlace.lt (h : AtPlace place c allowed m) : c < m.column := by
  cases h <;> omega

/-- A sequence stands in the column of the mapping around it, or opens a block. -/
theorem AtPlace.sequenceColumn (h : AtPlace place c allowed m) (tagged : Bool) :
    place.sequenceColumn tagged = if place.isIndentless tagged then c else c + 2 := by
  cases h <;> cases tagged <;> rfl

/-- A collection on the line of its indicator has its column there. -/
theorem AtPlace.column_of_isCompact (h : AtPlace place c allowed m) {tagged : Bool}
    (hcompact : place.isCompact tagged = true) :
    allowed = true ∧ m.column = c + 1 ∧ place.isIndentless tagged = false := by
  cases h <;> cases tagged <;> simp_all [Outline.Place.isCompact, Outline.Place.isIndentless]

/-- Every node but one on its own begins with a gap. -/
theorem exists_gap_node (h : AtPlace place c allowed m) (o : Outline) :
    ∃ g cs, isGap g = true ∧ node place o = g :: cs := by
  have hblock : ∀ tag column all,
      ∃ g cs, isGap g = true ∧ block place tag column all = g :: cs := by
    intro tag column all
    rw [block, h.gap]
    split
    · exact ⟨_, _, rfl, rfl⟩
    · cases tag with
      | none => exact ⟨_, _, rfl, rfl⟩
      | some t => exact ⟨_, _, rfl, rfl⟩
  cases o with
  | scalar tag style s =>
    rw [node, h.gap]
    exact ⟨_, _, rfl, rfl⟩
  | sequence tag os =>
    cases os with
    | nil =>
      rw [node, h.gap]
      exact ⟨_, _, rfl, rfl⟩
    | cons o os =>
      rw [node]
      exact hblock _ _ _
  | mapping tag es =>
    cases es with
    | nil =>
      rw [node, h.gap]
      exact ⟨_, _, rfl, rfl⟩
    | cons e es =>
      rw [node]
      exact hblock _ _ _

/-! ## What stands before a node -/

/-- Behind a gap no key has begun, or one that has not to be one. -/
theorem atLeaf_of_lt (blocks : List Nat) (allowed : Bool) (hc : c < m.column) :
    AtLeaf (c :: blocks) none allowed m ∧ Idle (opened (c :: blocks) none allowed m) m := by
  refine ⟨⟨fun _ => rfl, ?_, rfl⟩, ?_⟩
  · rintro _ ⟨⟩
    exact Nat.le_of_lt hc
  · cases allowed with
    | false => exact nofun
    | true =>
      rintro _ ⟨⟩
      exact ⟨by simpa using Nat.ne_of_lt hc, Nat.le_refl _⟩

/-- A space goes before a node. -/
theorem reads_space (blocks : List Nat) {cs : List Char} (hcs : Stands cs) :
    Reads (spot blocks none allowed m (' ' :: cs)) (spot blocks none allowed (m.after ' ') cs) [] :=
  .of_leads fun _ => leads_space _ none _ _ hcs nofun

/-- A line ends where no key has begun, or one that has not to be one. -/
theorem reads_line (blocks : List Nat) (key : Option Key) (allowed : Bool) {cs : List Char}
    (hkey : Idle key m) (hcs : Stands cs) :
    Reads (spot blocks key allowed m ('\n' :: (spaces k ++ cs)))
      (spot blocks none true (m.past ('\n' :: spaces k)) cs) [] :=
  .of_leads fun _ => leads_line _ _ _ hkey hcs

/-- A gap and the tag of a value. -/
theorem reads_gapTag (blocks : List Nat) (allowed : Bool) (cs : List Char) {t : String} {g : Char}
    (hc : c < m.column)
    (ht : LegibleTag t) (hg : isGap g = true) : ∃ key m', c < m'.column ∧ Idle key m' ∧
      Reads (spot (c :: blocks) none allowed m (' ' :: (tagText t ++ g :: cs)))
        (spot (c :: blocks) key false m' (g :: cs)) [tagToken t] := by
  have hstands : Stands (tagText t ++ g :: cs) := by
    obtain ⟨text, htext⟩ := exists_tagText t
    rw [htext]
    rintro _ ⟨⟩
    decide
  have hlt : c < (m.after ' ').column := Nat.lt_succ_of_lt hc
  obtain ⟨hleaf, hidle⟩ := atLeaf_of_lt blocks allowed hlt
  refine ⟨_, (m.after ' ').past (tagText t), ?_, (hidle.aged 1).past (tagText t),
    (reads_space _ hstands).trans (reads_tag _ _ _ hleaf ht hg)⟩
  rw [past_oneLine (isSafe_of_mem_tagText t)]
  exact Nat.lt_add_right _ hlt

/-- A gap and a tag that may be missing before a scalar or an empty collection. -/
theorem reads_valueTag (blocks : List Nat) (allowed : Bool) (cs : List Char) (hc : c < m.column)
    (htag : ∀ t ∈ tag, LegibleTag t)
    (hcs : Stands cs) : ∃ key allowed' m', c < m'.column ∧
      AtLeaf (c :: blocks) key allowed' m' ∧ Idle (opened (c :: blocks) key allowed' m') m' ∧
      Reads (spot (c :: blocks) none allowed m (' ' :: (tagBefore tag ++ cs)))
        (spot (c :: blocks) key allowed' m' cs) (tagTokens tag) := by
  cases tag with
  | none =>
    have hlt : c < (m.after ' ').column := Nat.lt_succ_of_lt hc
    obtain ⟨hleaf, hidle⟩ := atLeaf_of_lt blocks allowed hlt
    exact ⟨none, allowed, m.after ' ', hlt, hleaf, hidle, reads_space _ hcs⟩
  | some t =>
    obtain ⟨key, m', hlt, hidle, hread⟩ := reads_gapTag blocks allowed cs
      (g := ' ') hc (htag t rfl) rfl
    have hspace : Reads (spot (c :: blocks) key false m' (' ' :: cs))
        (spot (c :: blocks) (Key.fresh key (m'.after ' ')) false (m'.after ' ') cs) [] :=
      .of_leads fun _ => leads_space _ _ _ _ hcs (hidle.spare _)
    refine ⟨Key.fresh key (m'.after ' '), false, m'.after ' ', Nat.lt_succ_of_lt hlt,
      ⟨nofun, ?_, Key.fresh_fresh _ _ []⟩, (hidle.past [' ']).of_fresh _, ?_⟩
    · rintro _ ⟨⟩
      exact Nat.le_of_lt (Nat.lt_succ_of_lt hlt)
    · simpa [tagBefore, tagTokens] using hread.trans hspace

/-- What stands before the first line of a collection. -/
theorem reads_blockHead (blocks : List Nat) (column : Nat) (e : List Char) (es : List (List Char))
    (cs : List Char)
    (h : AtPlace place c allowed m) (htag : ∀ t ∈ tag, LegibleTag t)
    (hcolumn : place.isCompact tag.isSome = true → column = c + 2)
    (hstands : Stands (e ++ ((es.flatMap fun e => spaces column ++ e) ++ cs))) :
    ∃ m', m'.column = column ∧
      Reads (spot (c :: blocks) none allowed m (block place tag column (e :: es) ++ cs))
        (spot (c :: blocks) none true m' (e ++ ((es.flatMap fun e => spaces column ++ e) ++ cs)))
        (tagTokens tag) := by
  rw [block, h.gap, List.flatMap_cons]
  cases hcompact : place.isCompact tag.isSome with
  | true =>
    obtain ⟨rfl, hm, -⟩ := h.column_of_isCompact hcompact
    obtain rfl : tag = none := by
      cases h <;> simp_all [Outline.Place.isCompact]
    have hdrop : (spaces column ++ e ++ es.flatMap fun e => spaces column ++ e).drop column =
        e ++ es.flatMap fun e => spaces column ++ e := by
      rw [List.append_assoc]
      exact List.drop_left' List.length_replicate
    refine ⟨m.after ' ', (congrArg (· + 1) hm).trans (hcolumn hcompact).symm, ?_⟩
    rw [if_pos rfl, hdrop]
    simpa [tagTokens] using reads_space (c :: blocks) (m := m) hstands
  | false =>
    rw [if_neg Bool.false_ne_true]
    cases tag with
    | none =>
      refine ⟨_, Mark.column_past_line m (c := '\n') rfl column, ?_⟩
      simpa [tagTokens] using reads_line (c :: blocks) none allowed (m := m)
        (idle_none m) hstands
    | some t =>
      obtain ⟨key, m', -, hidle, hread⟩ := reads_gapTag blocks allowed
        (spaces column ++ (e ++ ((es.flatMap fun e => spaces column ++ e) ++ cs))) (g := '\n')
        h.lt (htag t rfl) rfl
      refine ⟨_, Mark.column_past_line m' (c := '\n') rfl column, ?_⟩
      simpa [tagTokens] using hread.trans (reads_line _ _ _ hidle hstands)

/-! ## Nodes -/

/-- Whether a node is read in every place, up to the first column of what stands after it. -/
def IsRead (o : Outline) : Prop :=
  ∀ (blocks : List Nat) ⦃place : Outline.Place⦄ ⦃c k : Nat⦄ ⦃allowed : Bool⦄ ⦃m : Mark⦄
    ⦃tail : List Char⦄,
    AtPlace place c allowed m → k ≤ c → Stands tail → ∃ m', m'.column = k ∧
      Reads (spot (c :: blocks) none allowed m (node place o ++ (spaces k ++ tail)))
        (spot (c :: blocks) none true m' tail) (nodeTokens place o)

/-- A scalar is read. -/
theorem isRead_scalar {style : Style} {s : String} (htag : ∀ t ∈ tag, LegibleTag t)
    (hs : style = .plain → s ≠ "") : IsRead (.scalar tag style s) := by
  intro blocks place c k allowed m tail h hk htail
  have hne := Outline.ne_nil_of_settle false hs
  obtain ⟨key, allowed', m₁, hlt, hleaf, hidle, hread⟩ := reads_valueTag blocks allowed
    (scalarText (c + 2) style false s.toList ++
      ((if endsItself style false s.toList then [] else ['\n']) ++ (spaces k ++ tail)))
    h.lt htag (stands_scalarText hne)
  obtain ⟨m', hm', hread'⟩ := reads_value hleaf hidle hlt hk htail hne
  refine ⟨m', hm', ?_⟩
  rw [node, h.gap, h.margin, nodeTokens]
  simpa using hread.trans hread'

/-- An empty collection is read. -/
theorem reads_emptyValue (blocks : List Nat) (allowed : Bool) {left right : Char}
    {start stop : Token}
    (hbrackets : Brackets left right start stop)
    (hc : c < m.column) (htag : ∀ t ∈ tag, LegibleTag t) (htail : Stands tail) :
    ∃ m', m'.column = k ∧ Reads
      (spot (c :: blocks) none allowed m
        (' ' :: (tagBefore tag ++ left :: right :: '\n' :: (spaces k ++ tail))))
      (spot (c :: blocks) none true m' tail) (tagTokens tag ++ [start, stop]) := by
  obtain ⟨key, allowed', m₁, -, hleaf, hidle, hread⟩ := reads_valueTag blocks allowed
    (left :: right :: '\n' :: (spaces k ++ tail)) hc htag (hbrackets.stands _)
  have hidle' := (((hidle.aged 1).past [left]).of_fresh (m₁.after left)).aged 1 |>.past [right]
  exact ⟨_, Mark.column_past_line ((m₁.after left).after right) (c := '\n') rfl k, by
    simpa using hread.trans ((reads_brackets _ hleaf hbrackets ((hidle.aged 1).spare _)).trans
      (reads_line _ _ _ hidle' htail))⟩

variable {blocks' : List Nat} {pre : List Token}

/-- An item of a sequence is read. -/
theorem reads_item {o : Outline} (ho : IsRead o)
    (hopens : Opens .blockSequenceStart m.column blocks (d :: blocks') pre) (hd : m.column = d)
    (hk : k ≤ d) (htail : Stands tail) : ∃ m', m'.column = k ∧
      Reads (spot blocks none true m ('-' :: node (.item d) o ++ (spaces k ++ tail)))
        (spot (d :: blocks') none true m' tail) (pre ++ itemTokens d [o]) := by
  have hplace : AtPlace (.item d) d true (m.after '-') := .item (congrArg (· + 1) hd)
  obtain ⟨m', hm', hread⟩ := ho blocks' hplace hk htail
  obtain ⟨g, cs, hg, hnode⟩ := exists_gap_node hplace o
  refine ⟨m', hm', ?_⟩
  have hdash := reads_dash (cs ++ (spaces k ++ tail)) hopens hg
  rw [hnode] at hread ⊢
  simpa [itemTokens] using hdash.trans hread

/-- **The items of a sequence are read.** -/
theorem reads_items {o : Outline} {os : List Outline} (hos : ∀ i ∈ o :: os, IsRead i)
    (hopens : Opens .blockSequenceStart m.column blocks (d :: blocks') pre) (hd : m.column = d)
    (hk : k ≤ d) (htail : Stands tail) : ∃ m', m'.column = k ∧
      Reads (spot blocks none true m ('-' :: node (.item d) o ++
          (((items d os).flatMap fun e => spaces d ++ e) ++ (spaces k ++ tail))))
        (spot (d :: blocks') none true m' tail) (pre ++ itemTokens d (o :: os)) := by
  induction os generalizing o blocks m pre with
  | nil => simpa [items] using reads_item (hos o (by simp)) hopens hd hk htail
  | cons o' os ih =>
    obtain ⟨ho, hos⟩ := List.forall_mem_cons.mp hos
    have hstands : ∀ cs, Stands ('-' :: cs) := by
      rintro cs _ ⟨⟩
      decide
    obtain ⟨m₁, hm₁, hitem⟩ := reads_item ho hopens hd (Nat.le_refl d)
      (hstands (node (.item d) o' ++
        (((items d os).flatMap fun e => spaces d ++ e) ++ (spaces k ++ tail))))
    obtain ⟨m', hm', hrest⟩ := ih (m := m₁) hos (by rw [hm₁]; exact .stays) hm₁
    refine ⟨m', hm', ?_⟩
    rw [items, List.flatMap_cons, itemTokens]
    simpa [itemTokens] using hitem.trans hrest

/-- What is written of an entry of a mapping. -/
def entryText (column : Nat) (key value : Outline) : List Char :=
  match simpleKey? key with
  | some text => text ++ ':' :: node (.key column) value
  | none => '?' :: node (.mark column) key ++ spaces column ++ ':' :: node (.mark column) value

theorem entries_cons (column : Nat) (key value : Outline) (es : List (Outline × Outline)) :
    entries column ((key, value) :: es) = entryText column key value :: entries column es := by
  rw [entries]
  rfl

theorem entryTokens_cons (column : Nat) (key value : Outline) (es : List (Outline × Outline)) :
    entryTokens column ((key, value) :: es) =
      entryTokens column [(key, value)] ++ entryTokens column es := by
  simp [entryTokens]

/-- A key on the line of its value is read, and the colon after it. -/
theorem reads_keyColon (cs : List Char) {o : Outline} {text : List Char} {g : Char}
    (hkey : SimpleKey o text)
    (hlegible : o.Legible) (hopens : Opens .blockMappingStart m.column blocks (d :: blocks') pre)
    (hg : isGap g = true) :
    Reads (spot blocks none true m (text ++ ':' :: g :: cs))
      (spot (d :: blocks') none false ((m.past text).after ':') (g :: cs))
      (pre ++ .key :: keyTokens o ++ [.value]) := by
  obtain ⟨hline, hsize⟩ := hkey.oneLine
  have hcolumn : m.column ≤ (m.past text).column := by
    rw [past_oneLine hline]
    exact Nat.le_add_right _ _
  intro tokens
  obtain ⟨since, hsince, hread⟩ := reads_simpleKey cs hkey hlegible hopens.le hg tokens
  obtain ⟨more, hmore, hcolon⟩ := leads_colon false tokens since cs
    (k := ⟨blocks.head? == some m.column, (keyTokens o).length, m⟩)
    hopens hg (by rw [← hsince, List.length_map]) hcolumn (Key.not_stale hline hsize rfl)
  exact ⟨more, by rw [hmore, hsince], hread.trans hcolon⟩

/-- An entry of a mapping is read. -/
theorem reads_entry {key value : Outline} (hkey : IsRead key) (hvalue : IsRead value)
    (hlegible : key.Legible) (hopens : Opens .blockMappingStart m.column blocks (d :: blocks') pre)
    (hd : m.column = d) (hk : k ≤ d) (htail : Stands tail) : ∃ m', m'.column = k ∧
      Reads (spot blocks none true m (entryText d key value ++ (spaces k ++ tail)))
        (spot (d :: blocks') none true m' tail) (pre ++ entryTokens d [(key, value)]) := by
  cases hsimple : simpleKey? key with
  | some text =>
    have hkey' := simpleKey_of_eq_some hsimple
    have hplace : AtPlace (.key d) d false ((m.past text).after ':') := by
      refine .key (Nat.lt_succ_of_le ?_)
      rw [past_oneLine hkey'.oneLine.1, ← hd]
      exact Nat.le_add_right _ _
    obtain ⟨m', hm', hread⟩ := hvalue blocks' hplace hk htail
    obtain ⟨g, cs, hg, hnode⟩ := exists_gap_node hplace value
    have hcolon := reads_keyColon (cs ++ (spaces k ++ tail)) hkey' hlegible hopens hg
    refine ⟨m', hm', ?_⟩
    simp only [entryText, entryTokens, hsimple]
    rw [hnode] at hread ⊢
    simpa using hcolon.trans hread
  | none =>
    have hplace : AtPlace (.mark d) d true (m.after '?') := .mark (congrArg (· + 1) hd)
    have hstands : ∀ cs, Stands (':' :: cs) := by
      rintro cs _ ⟨⟩
      decide
    obtain ⟨m₁, hm₁, hkey'⟩ := hkey blocks' hplace (Nat.le_refl d)
      (hstands (node (.mark d) value ++ (spaces k ++ tail)))
    have hplace' : AtPlace (.mark d) d true (m₁.after ':') := .mark (congrArg (· + 1) hm₁)
    obtain ⟨m', hm', hvalue'⟩ := hvalue blocks' hplace' hk htail
    obtain ⟨g, cs, hg, hnode⟩ := exists_gap_node hplace key
    obtain ⟨g', cs', hg', hnode'⟩ := exists_gap_node hplace' value
    have hquestion := reads_question
      (cs ++ (spaces d ++ ':' :: (node (.mark d) value ++ (spaces k ++ tail)))) hopens hg
    have hcolon := reads_colon blocks' (cs' ++ (spaces k ++ tail)) (m := m₁) hg'
    refine ⟨m', hm', ?_⟩
    simp only [entryText, entryTokens, hsimple]
    rw [hnode] at hkey' ⊢
    rw [hnode'] at hkey' hvalue' hquestion ⊢
    rw [hm₁] at hcolon
    simpa using hquestion.trans (hkey'.trans (hcolon.trans hvalue'))

/-- What is written of an entry stands there as a token. -/
theorem stands_entryText (value : Outline) {key : Outline} (hlegible : key.Legible)
    (cs : List Char) :
    Stands (entryText d key value ++ cs) := by
  rw [entryText]
  split
  next text hsimple =>
    cases simpleKey_of_eq_some hsimple with
    | scalar line short =>
      cases hlegible with
      | scalar legible htext =>
        simpa using stands_tagBefore _ (stands_scalarText (Outline.ne_nil_of_settle _ htext))
    | sequence short =>
      simpa using stands_tagBefore ('[' :: _) (by rintro _ ⟨⟩; decide)
    | mapping short =>
      simpa using stands_tagBefore ('\x7b' :: _) (by rintro _ ⟨⟩; decide)
  next =>
    rintro _ ⟨⟩
    decide

/-- **The entries of a mapping are read.** -/
theorem reads_entries (blocks blocks' : List Nat) (tail : List Char) (pre : List Token)
    {key value : Outline} {es : List (Outline × Outline)}
    (hkeys : ∀ e ∈ (key, value) :: es, IsRead e.1) (hvalues : ∀ e ∈ (key, value) :: es, IsRead e.2)
    (hlegible : ∀ e ∈ (key, value) :: es, e.1.Legible)
    (hopens : Opens .blockMappingStart m.column blocks (d :: blocks') pre) (hd : m.column = d)
    (hk : k ≤ d) (htail : Stands tail) : ∃ m', m'.column = k ∧
      Reads (spot blocks none true m (entryText d key value ++
          (((entries d es).flatMap fun e => spaces d ++ e) ++ (spaces k ++ tail))))
        (spot (d :: blocks') none true m' tail) (pre ++ entryTokens d ((key, value) :: es)) := by
  induction es generalizing key value blocks m pre with
  | nil =>
    simpa [entries] using reads_entry (hkeys _ List.mem_cons_self)
      (hvalues _ List.mem_cons_self) (hlegible _ List.mem_cons_self) hopens hd hk htail
  | cons e es ih =>
    obtain ⟨key', value'⟩ := e
    obtain ⟨hkey, hkeys⟩ := List.forall_mem_cons.mp hkeys
    obtain ⟨hvalue, hvalues⟩ := List.forall_mem_cons.mp hvalues
    obtain ⟨hfirst, hlegible⟩ := List.forall_mem_cons.mp hlegible
    obtain ⟨m₁, hm₁, hentry⟩ := reads_entry hkey hvalue hfirst hopens hd (Nat.le_refl d)
      (stands_entryText value' (d := d) (hlegible _ List.mem_cons_self)
        (((entries d es).flatMap fun e => spaces d ++ e) ++ (spaces k ++ tail)))
    obtain ⟨m', hm', hrest⟩ := ih _ _ (m := m₁) hkeys hvalues hlegible
      (by rw [hm₁]; exact .stays) hm₁
    refine ⟨m', hm', ?_⟩
    rw [entries_cons, List.flatMap_cons, entryTokens_cons]
    simpa using hentry.trans hrest

/-- Behind the last line of a block its end is read. -/
theorem reads_blockEnd {column : Nat} (hcolumn : m.column < column) (htail : Stands tail) :
    Reads (spot (column :: blocks) none allowed m tail) (spot blocks none allowed m tail)
      [.blockEnd] := fun _ =>
  ⟨[.point .blockEnd m], rfl, leads_close htail hcolumn⟩

/-- A sequence with items is read. -/
theorem isRead_sequence {o : Outline} {os : List Outline} (htag : ∀ t ∈ tag, LegibleTag t)
    (hos : ∀ i ∈ o :: os, IsRead i) : IsRead (.sequence tag (o :: os)) := by
  intro blocks place c k allowed m tail h hk htail
  have hcolumn := h.sequenceColumn tag.isSome
  obtain ⟨m₁, hm₁, hhead⟩ := reads_blockHead blocks (place.sequenceColumn tag.isSome)
    ('-' :: node (.item (place.sequenceColumn tag.isSome)) o)
    (items (place.sequenceColumn tag.isSome) os) (spaces k ++ tail) h htag
    (fun hcompact => by
      rw [hcolumn, (h.column_of_isCompact hcompact).2.2]
      rfl) (by rintro _ ⟨⟩; decide)
  rw [node, items, nodeTokens]
  cases hindentless : place.isIndentless tag.isSome with
  | true =>
    rw [hindentless, if_pos rfl] at hcolumn
    have hopens : Opens .blockSequenceStart m₁.column (c :: blocks)
        (place.sequenceColumn tag.isSome :: blocks) [] := by
      rw [hm₁, hcolumn]
      exact .stays
    obtain ⟨m', hm', hitems⟩ := reads_items (k := k) hos hopens hm₁ (by omega) htail
    refine ⟨m', hm', ?_⟩
    rw [hcolumn] at hitems hhead ⊢
    simpa using hhead.trans hitems
  | false =>
    rw [hindentless, if_neg Bool.false_ne_true] at hcolumn
    have hopens : Opens .blockSequenceStart m₁.column (c :: blocks)
        (place.sequenceColumn tag.isSome :: c :: blocks) [.blockSequenceStart] := by
      rw [← hm₁]
      refine .opens ?_
      rintro _ ⟨⟩
      omega
    obtain ⟨m', hm', hitems⟩ := reads_items (k := k) hos hopens hm₁ (by omega) htail
    refine ⟨m', hm', ?_⟩
    simpa using (hhead.trans hitems).trans (reads_blockEnd (by omega) htail)

/-- A mapping with entries is read. -/
theorem isRead_mapping {key value : Outline} {es : List (Outline × Outline)}
    (htag : ∀ t ∈ tag, LegibleTag t) (hkeys : ∀ e ∈ (key, value) :: es, IsRead e.1)
    (hvalues : ∀ e ∈ (key, value) :: es, IsRead e.2)
    (hlegible : ∀ e ∈ (key, value) :: es, e.1.Legible) :
    IsRead (.mapping tag ((key, value) :: es)) := by
  intro blocks place c k allowed m tail h hk htail
  have hcolumn := h.mappingColumn
  obtain ⟨m₁, hm₁, hhead⟩ := reads_blockHead blocks place.mappingColumn
    (entryText place.mappingColumn key value) (entries place.mappingColumn es) (spaces k ++ tail) h
    htag (fun _ => hcolumn) (stands_entryText _ (hlegible _ List.mem_cons_self) _)
  have hopens : Opens .blockMappingStart m₁.column (c :: blocks)
      (place.mappingColumn :: c :: blocks) [.blockMappingStart] := by
    rw [← hm₁]
    refine .opens ?_
    rintro _ ⟨⟩
    omega
  obtain ⟨m', hm', hentries⟩ := reads_entries _ _ _ _ (k := k) hkeys hvalues hlegible hopens hm₁
    (by omega) htail
  refine ⟨m', hm', ?_⟩
  rw [node, entries_cons, nodeTokens]
  simpa using (hhead.trans hentries).trans (reads_blockEnd (by omega) htail)

/-- **A node is read in its place.** -/
theorem isRead_of_legible {o : Outline} (ho : o.Legible) : IsRead o := by
  induction ho with
  | scalar legible text => exact isRead_scalar legible text
  | @sequence tag os legible items ih =>
    cases os with
    | nil =>
      intro blocks place c k allowed m tail h hk htail
      obtain ⟨m', hm', hread⟩ := reads_emptyValue blocks allowed (k := k)
        .sequence h.lt legible htail
      refine ⟨m', hm', ?_⟩
      rw [node, h.gap, nodeTokens]
      simpa using hread
    | cons o os => exact isRead_sequence legible ih
  | @mapping tag es legible keys values ihkeys ihvalues =>
    cases es with
    | nil =>
      intro blocks place c k allowed m tail h hk htail
      obtain ⟨m', hm', hread⟩ := reads_emptyValue blocks allowed (k := k)
        .mapping h.lt legible htail
      refine ⟨m', hm', ?_⟩
      rw [node, h.gap, nodeTokens]
      simpa using hread
    | cons e es => exact isRead_mapping legible ihkeys ihvalues keys

end Scanner

end Provision.Yaml
