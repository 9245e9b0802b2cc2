import Provision.Proofs.Yaml.Readback.Line

/-!
# Keys on the line of their value

A key stands on the line of its value only if it is short and has no line end. Then what is written
of it is short as well, and a reader still takes it for a key at the colon after it.

> `SimpleKey.oneLine`: what is written of a short key is short, and on one line;
> `reads_simpleKey`: a key is read up to the colon after it.
-/

namespace Provision.Yaml

open Outline (isSafe endsLine spaces tagText tagChars tagBefore scalarText settle escaped simpleKey?
  tagSize)
open Source (laid)

/-! ## What is written on one line -/

/-- Whether a text is safe and on one line. -/
abbrev OneLine (cs : List Char) : Prop := ∀ c ∈ cs, isSafe c = true ∧ endsLine c = false

theorem oneLine_escaped (cs : List Char) : OneLine (cs.flatMap escaped) := by
  intro d hd
  obtain ⟨c, -, hd⟩ := List.mem_flatMap.mp hd
  obtain ⟨hself, hsafe, hline, -⟩ | ⟨-, -, -, hall, -⟩ := escaped_cases c
  · rw [hself, List.mem_singleton] at hd
    rw [hd]
    exact ⟨hsafe, hline⟩
  · exact hall d hd

theorem oneLine_singleBody {cs : List Char} (h : OneLine cs) :
    OneLine (Outline.singleBody 0 false cs) := by
  induction cs with
  | nil => exact nofun
  | cons c cs ih =>
    rw [OneLine, List.forall_mem_cons] at h
    rw [Outline.singleBody, h.1.2, if_neg Bool.false_ne_true, if_neg Bool.false_ne_true]
    refine List.forall_mem_append.mpr ⟨?_, ih h.2⟩
    split
    · decide
    · simpa using h.1

/-- A key in its style is on one line. -/
theorem oneLine_scalarText {wanted : Style} {cs : List Char}
    (hline : ∀ c ∈ cs, endsLine c = false) : OneLine (scalarText 0 wanted true cs) := by
  have hquote : ∀ c ∈ ['\'', '"'], isSafe c = true ∧ endsLine c = false := by decide
  obtain ⟨hstyle, hholds⟩ | ⟨hstyle, hholds⟩ | hstyle | ⟨-, -, h⟩ :=
    Scanner.settle_holds wanted true cs
  · rw [scalarText, hstyle]
    exact (plainHolds_iff.mp hholds).1
  · have hsafe := (singleHolds_iff.mp hholds).1
    rw [scalarText, hstyle]
    exact List.forall_mem_append.mpr ⟨List.forall_mem_cons.mpr ⟨hquote _ (by simp),
      oneLine_singleBody fun c hc => ⟨hsafe c hc, hline c hc⟩⟩, by decide⟩
  · rw [scalarText, hstyle]
    exact List.forall_mem_append.mpr ⟨List.forall_mem_cons.mpr ⟨hquote _ (by simp),
      oneLine_escaped cs⟩, by decide⟩
  · cases h

/-! ## How long it is -/

/-- Escapes are at most four times as long as what they stand for. -/
theorem utf8Len_escaped (cs : List Char) :
    String.utf8Len (cs.flatMap escaped) ≤ 4 * String.utf8Len cs := by
  induction cs with
  | nil => simp
  | cons c cs ih =>
    have hc : String.utf8Len (escaped c) ≤ 4 * c.utf8Size := by
      obtain ⟨hself, -⟩ | ⟨-, -, -, -, hsize⟩ := escaped_cases c
      · rw [hself]
        simp
        omega
      · exact hsize
    rw [List.flatMap_cons, String.utf8Len_append, String.utf8Len_cons]
    omega

theorem utf8Len_singleBody {cs : List Char} (h : ∀ c ∈ cs, endsLine c = false) :
    String.utf8Len (Outline.singleBody 0 false cs) ≤ 2 * String.utf8Len cs := by
  induction cs with
  | nil => simp [Outline.singleBody]
  | cons c cs ih =>
    rw [List.forall_mem_cons] at h
    have hc : String.utf8Len (if c == '\'' then ['\'', '\''] else [c]) ≤ 2 * c.utf8Size := by
      split
      next hquote =>
        rw [beq_iff_eq] at hquote
        subst hquote
        decide
      next =>
        simp
        omega
    have := ih h.2
    rw [Outline.singleBody, h.1, if_neg Bool.false_ne_true, if_neg Bool.false_ne_true,
      String.utf8Len_append, String.utf8Len_append, String.utf8Len_cons]
    simp only [String.utf8Len_nil]
    omega

theorem utf8Len_scalarText (wanted : Style) {cs : List Char}
    (hline : ∀ c ∈ cs, endsLine c = false) :
    String.utf8Len (scalarText 0 wanted true cs) ≤ 4 * String.utf8Len cs + 2 := by
  have hsingle : Char.utf8Size '\'' = 1 := by decide
  have hdouble : Char.utf8Size '"' = 1 := by decide
  obtain ⟨hstyle, -⟩ | ⟨hstyle, -⟩ | hstyle | ⟨-, -, h⟩ := Scanner.settle_holds wanted true cs
  · rw [scalarText, hstyle]
    dsimp only
    omega
  · have := utf8Len_singleBody hline
    rw [scalarText, hstyle]
    simp only [String.utf8Len_append, String.utf8Len_cons, String.utf8Len_nil, hsingle]
    omega
  · have := utf8Len_escaped cs
    rw [scalarText, hstyle]
    simp only [String.utf8Len_append, String.utf8Len_cons, String.utf8Len_nil, hdouble]
    omega
  · cases h

/-- A tag is at most three times as long as its bytes, and has up to three marks. -/
theorem utf8Len_tagText (t : String) :
    String.utf8Len (tagText t) ≤ 3 * t.utf8ByteSize + 3 := by
  have hbyte : ∀ n < 256, String.utf8Len ('%' :: Outline.hexDigits 2 n) = 3 := by
    set_option maxRecDepth 1000 in decide
  have hbytes : ∀ bytes : List UInt8,
      String.utf8Len (bytes.flatMap escapedByte) = 3 * bytes.length := by
    intro bytes
    induction bytes with
    | nil => rfl
    | cons b bytes ih =>
      rw [List.flatMap_cons, String.utf8Len_append, ih, escapedByte, hbyte _ b.toNat_lt,
        List.length_cons]
      omega
  have hchars : ∀ cs : List Char, String.utf8Len (tagChars cs) ≤ 3 * String.utf8Len cs := by
    intro cs
    induction cs with
    | nil => exact Nat.zero_le _
    | cons c cs ih =>
      rw [tagChars_cons, String.utf8Len_append, String.utf8Len_cons]
      split
      · simp only [String.utf8Len_cons, String.utf8Len_nil]
        omega
      · rw [hbytes, String.length_utf8EncodeChar]
        omega
  have hsize : t.utf8ByteSize = String.utf8Len t.toList := by
    rw [← String.utf8ByteSize_ofList, String.ofList_toList]
  have hmarks : Char.utf8Size '!' = 1 ∧ Char.utf8Size '<' = 1 ∧ Char.utf8Size '>' = 1 := by decide
  rw [hsize, tagText]
  split
  next c rest heq =>
    have := hchars (c :: rest)
    rw [heq, String.utf8Len_cons _ (c :: rest), String.utf8Len_cons _ (tagChars _), hmarks.1]
    omega
  next =>
    have := hchars t.toList
    simp only [String.utf8Len_append, String.utf8Len_cons, String.utf8Len_nil, hmarks]
    omega

theorem oneLine_tagBefore (tag : Option String) : OneLine (tagBefore tag) := by
  cases tag with
  | none => exact nofun
  | some t => exact List.forall_mem_append.mpr ⟨isSafe_of_mem_tagText t, by decide⟩

theorem utf8Len_tagBefore (tag : Option String) :
    String.utf8Len (tagBefore tag) ≤ 3 * tagSize tag + 4 := by
  have hspace : Char.utf8Size ' ' = 1 := by decide
  cases tag with
  | none => exact Nat.zero_le _
  | some t =>
    have := utf8Len_tagText t
    simp only [tagBefore, tagSize, Option.elim_some, String.utf8Len_append, String.utf8Len_cons,
      String.utf8Len_nil, hspace]
    omega

/-- The keys that stand on the line of their value: short scalars on one line, and empty
collections. -/
inductive SimpleKey : Outline → List Char → Prop
  | scalar {tag : Option String} {style : Style} {s : String}
    (line : ∀ c ∈ s.toList, endsLine c = false) (short : tagSize tag + s.utf8ByteSize ≤ 128) :
    SimpleKey (.scalar tag style s) (tagBefore tag ++ scalarText 0 style true s.toList)
  | sequence {tag : Option String} (short : tagSize tag ≤ 128) :
    SimpleKey (.sequence tag []) (tagBefore tag ++ ['[', ']'])
  | mapping {tag : Option String} (short : tagSize tag ≤ 128) :
    SimpleKey (.mapping tag []) (tagBefore tag ++ ['\x7b', '\x7d'])

theorem simpleKey_of_eq_some {o : Outline} {text : List Char} (h : simpleKey? o = some text) :
    SimpleKey o text := by
  unfold simpleKey? at h
  split at h
  · split at h
    · exact nomatch h
    next hshort =>
      obtain rfl := Option.some.inj h
      rw [Bool.or_eq_true, not_or, Bool.not_eq_true, List.any_eq_false, decide_eq_true_eq] at hshort
      exact .scalar (fun c hc => by simpa using hshort.1 c hc) (Nat.le_of_not_lt hshort.2)
  · split at h
    · exact nomatch h
    next hshort =>
      obtain rfl := Option.some.inj h
      exact .sequence (Nat.le_of_not_lt hshort)
  · split at h
    · exact nomatch h
    next hshort =>
      obtain rfl := Option.some.inj h
      exact .mapping (Nat.le_of_not_lt hshort)
  · exact nomatch h

/-- **A key that stands on the line of its value is on one line, and short.** -/
theorem SimpleKey.oneLine {o : Outline} {text : List Char} (h : SimpleKey o text) :
    OneLine text ∧ String.utf8Len text ≤ 1024 := by
  cases h with
  | @scalar tag style s line short =>
    have hsize : s.utf8ByteSize = String.utf8Len s.toList := by
      rw [← String.utf8ByteSize_ofList, String.ofList_toList]
    have hkey := utf8Len_scalarText style line
    refine ⟨List.forall_mem_append.mpr ⟨oneLine_tagBefore tag, oneLine_scalarText line⟩, ?_⟩
    rw [String.utf8Len_append]
    have := utf8Len_tagBefore tag
    omega
  | @sequence tag short =>
    have hbrackets : String.utf8Len ['[', ']'] = 2 := by decide
    refine ⟨List.forall_mem_append.mpr ⟨oneLine_tagBefore tag, by decide⟩, ?_⟩
    rw [String.utf8Len_append]
    have := utf8Len_tagBefore tag
    omega
  | @mapping tag short =>
    have hbrackets : String.utf8Len ['\x7b', '\x7d'] = 2 := by decide
    refine ⟨List.forall_mem_append.mpr ⟨oneLine_tagBefore tag, by decide⟩, ?_⟩
    rw [String.utf8Len_append]
    have := utf8Len_tagBefore tag
    omega

/-! ## Reading a key -/

/-- The token of a tag that may be missing. -/
def tagTokens (tag : Option String) : List Token := (tag.map tagToken).toList

/-- The tokens of a key on the line of its value. -/
def keyTokens : Outline → List Token
  | .scalar tag style s => tagTokens tag ++ [.scalar (settle style true s.toList) s.toList]
  | .sequence tag _ => tagTokens tag ++ [.flowSequenceStart, .flowSequenceEnd]
  | .mapping tag _ => tagTokens tag ++ [.flowMappingStart, .flowMappingEnd]

/-- Whether an outline is read as it is written: its tags are legible, and no scalar that is wanted
plain is empty. -/
inductive Outline.Legible : Outline → Prop
  | scalar {tag : Option String} {style : Style} {s : String} (legible : ∀ t ∈ tag, LegibleTag t)
    (text : style = .plain → s ≠ "") : Legible (.scalar tag style s)
  | sequence {tag : Option String} {os : List Outline} (legible : ∀ t ∈ tag, LegibleTag t)
    (items : ∀ o ∈ os, Legible o) : Legible (.sequence tag os)
  | mapping {tag : Option String} {es : List (Outline × Outline)}
    (legible : ∀ t ∈ tag, LegibleTag t) (keys : ∀ e ∈ es, Legible e.1)
    (values : ∀ e ∈ es, Legible e.2) : Legible (.mapping tag es)

/-- A text that is not empty does not become so when its style is settled. -/
theorem Outline.ne_nil_of_settle (isKey : Bool) {style : Style} {s : String}
    (h : style = .plain → s ≠ "") (hstyle : settle style isKey s.toList = .plain) :
    s.toList ≠ [] := by
  have hplain : style = .plain := by
    cases style <;> simp only [settle] at hstyle <;> grind
  intro hs
  exact h hplain (String.toList_eq_nil_iff.mp hs)

namespace Scanner

variable {blocks : List Nat} {m : Mark} {rest : List Char} {tag : Option String} {g : Char}

/-- On one line the columns count up. -/
theorem past_oneLine {text : List Char} (h : OneLine text) (m : Mark) :
    m.past text = ⟨m.index + String.utf8Len text, m.line, m.column + text.length⟩ :=
  Mark.past_solid (fun c hc => by
    have := (h c hc).2
    rw [endsLine, Bool.or_eq_false_iff, Bool.or_eq_false_iff] at this
    exact this.1.1) m

/-- On a short line a key does not become stale. -/
theorem Key.not_stale {k : Key} {text : List Char} (h : OneLine text)
    (hsize : String.utf8Len text ≤ 1024) (hmark : k.mark = m) : k.stale (m.past text) = false := by
  rw [past_oneLine h, stale, hmark]
  simp only [Bool.or_eq_false_iff, decide_eq_false_iff_not]
  omega

/-- On a short line no key has become stale before the end either. -/
theorem Key.fresh_of_append (more : List Char) {k : Key} {text : List Char}
    (h : OneLine (text ++ more))
    (hsize : String.utf8Len (text ++ more) ≤ 1024) (hmark : k.mark = m) :
    Key.fresh (some k) (m.past text) = some k := by
  rw [OneLine, List.forall_mem_append] at h
  rw [String.utf8Len_append] at hsize
  rw [Key.fresh, not_stale h.1 (by omega) hmark, if_neg Bool.false_ne_true]

/-- **A tag that may be missing begins a key**, which goes on behind it. -/
theorem reads_keyTag (cs : List Char) (hle : ∀ c ∈ blocks.head?, c ≤ m.column)
    (htag : ∀ t ∈ tag, LegibleTag t) (hcs : Stands cs)
    (hfresh : ∀ k : Key, k.mark = m → Key.fresh (some k) (m.past (tagBefore tag)) = some k) :
    ∃ key allowed, AtLeaf blocks key allowed (m.past (tagBefore tag)) ∧
      opened blocks key allowed (m.past (tagBefore tag)) =
        some ⟨blocks.head? == some m.column, (tagTokens tag).length, m⟩ ∧
      Reads (spot blocks none true m (tagBefore tag ++ cs))
        (spot blocks key allowed (m.past (tagBefore tag)) cs) (tagTokens tag) := by
  cases tag with
  | none => exact ⟨none, true, ⟨fun _ => rfl, hle, rfl⟩, rfl, .refl _⟩
  | some t =>
    have hread := reads_tag none true cs (g := ' ') (m := m)
      ⟨fun _ => rfl, hle, rfl⟩ (htag t rfl) rfl
    have hmark : m.past (tagBefore (some t)) = (m.past (tagText t)).after ' ' := by
      rw [tagBefore, Option.elim_some, Mark.past_append]
      rfl
    have hkey : Key.fresh (openedBefore blocks none true m) ((m.past (tagText t)).after ' ') =
        openedBefore blocks none true m := by
      rw [← hmark]
      exact hfresh _ rfl
    have hspace : Reads (spot blocks (openedBefore blocks none true m) false (m.past (tagText t))
        (' ' :: cs)) (spot blocks (openedBefore blocks none true m) false
          ((m.past (tagText t)).after ' ') cs) [] :=
      .of_leads fun tokens => by
        have hleads := leads_space blocks _ false tokens hcs
          (Key.spare_of_fresh hkey)
        rwa [hkey] at hleads
    refine ⟨openedBefore blocks none true m, false, ⟨nofun, fun c hc => ?_, ?_⟩, rfl, ?_⟩
    · rw [past_oneLine (oneLine_tagBefore _)]
      exact Nat.le_add_right_of_le (hle c hc)
    · rw [hmark]
      exact hkey
    · rw [hmark]
      simpa [tagBefore, tagTokens] using hread.trans hspace

/-- What stands on the line of a value stands there as a token. -/
theorem stands_scalarText {wanted : Style} {isKey : Bool} {margin : Nat} {cs more : List Char}
    (hne : settle wanted isKey cs = .plain → cs ≠ []) :
    Stands (scalarText margin wanted isKey cs ++ more) := by
  have hmark : ∀ c ∈ ['\'', '"', '|'],
      isWhite c = false ∧ isBreak c = false ∧ c ≠ '#' ∧ c ≠ '\uFEFF' := by decide
  obtain ⟨hstyle, hholds⟩ | ⟨hstyle, -⟩ | hstyle | ⟨hstyle, -⟩ := settle_holds wanted isKey cs
  · rw [scalarText, hstyle]
    exact stands_plain hholds (hne hstyle)
  · rw [scalarText, hstyle]
    rintro _ ⟨⟩
    exact hmark _ (by simp)
  · rw [scalarText, hstyle]
    rintro _ ⟨⟩
    exact hmark _ (by simp)
  · rw [scalarText, hstyle]
    rintro _ ⟨⟩
    exact hmark _ (by simp)

theorem stands_tagBefore (cs : List Char) (hcs : Stands cs) : Stands (tagBefore tag ++ cs) := by
  cases tag with
  | none => exact hcs
  | some t =>
    obtain ⟨text, htext⟩ := exists_tagText t
    rw [tagBefore, Option.elim_some, htext]
    rintro _ ⟨⟩
    decide

/-- An empty collection as a key. -/
theorem reads_keyBrackets (rest : List Char) {left right : Char} {start stop : Token}
    (hbrackets : Brackets left right start stop)
    (hle : ∀ c ∈ blocks.head?, c ≤ m.column) (htag : ∀ t ∈ tag, LegibleTag t)
    (hline : OneLine (tagBefore tag ++ [left, right]))
    (hsize : String.utf8Len (tagBefore tag ++ [left, right]) ≤ 1024) :
    Reads (spot blocks none true m (tagBefore tag ++ left :: right :: rest))
      (spot blocks (some ⟨blocks.head? == some m.column, (tagTokens tag).length + 2, m⟩) false
        (m.past (tagBefore tag ++ [left, right])) rest) (tagTokens tag ++ [start, stop]) := by
  obtain ⟨key, allowed, hleaf, hopened, hread⟩ := reads_keyTag _ hle htag
    (hbrackets.stands (right :: rest)) fun k hk => Key.fresh_of_append _ hline hsize hk
  have hfresh : Key.fresh (openedBefore blocks key allowed (m.past (tagBefore tag)))
      ((m.past (tagBefore tag)).after left) =
        openedBefore blocks key allowed (m.past (tagBefore tag)) := by
    have hmark : (m.past (tagBefore tag)).after left = m.past (tagBefore tag ++ [left]) := by
      rw [Mark.past_append]
      rfl
    rw [openedBefore, hopened, hmark]
    exact Key.fresh_of_append [right] (by simpa using hline) (by simpa using hsize) rfl
  have hread' := reads_brackets rest hleaf hbrackets (Key.spare_of_fresh hfresh)
  rw [hfresh, openedBefore, hopened] at hread'
  rw [Mark.past_append]
  exact hread.trans hread'

/-- **A key is read up to the colon after it.** -/
theorem reads_simpleKey (rest : List Char) {o : Outline} {text : List Char}
    (hkey : SimpleKey o text)
    (hlegible : o.Legible) (hle : ∀ c ∈ blocks.head?, c ≤ m.column) (hg : isGap g = true) :
    Reads (spot blocks none true m (text ++ ':' :: g :: rest))
      (spot blocks (some ⟨blocks.head? == some m.column, (keyTokens o).length, m⟩) false
        (m.past text) (':' :: g :: rest)) (keyTokens o) := by
  obtain ⟨hline, hsize⟩ := hkey.oneLine
  cases hkey with
  | @scalar tag style s line short =>
    cases hlegible with
    | scalar htag htext =>
      have hne := Outline.ne_nil_of_settle true htext
      obtain ⟨key, allowed, hleaf, hopened, hread⟩ := reads_keyTag
        (scalarText 0 style true s.toList ++ ':' :: g :: rest) hle htag
        (stands_scalarText hne) fun k hk => Key.fresh_of_append _ hline hsize hk
      have hread' := reads_key rest hleaf hg line hne
      rw [openedBefore, hopened] at hread'
      rw [Mark.past_append, keyTokens, List.length_append]
      simpa [Key.aged] using hread.trans hread'
  | @sequence tag short =>
    cases hlegible with
    | sequence htag hitems =>
      have hread := reads_keyBrackets (':' :: g :: rest) .sequence
        hle htag hline hsize
      rw [keyTokens, List.length_append]
      simpa using hread
  | @mapping tag short =>
    cases hlegible with
    | mapping htag hkeys hvalues =>
      have hread := reads_keyBrackets (':' :: g :: rest) .mapping
        hle htag hline hsize
      rw [keyTokens, List.length_append]
      simpa using hread

end Scanner

end Provision.Yaml
