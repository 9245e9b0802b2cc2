import Provision.Proofs.Yaml.Readback.Indicator
import Provision.Proofs.Yaml.Readback.Literal
import Provision.Proofs.Yaml.Readback.Plain
import Provision.Proofs.Yaml.Readback.Quoted
import Provision.Proofs.Yaml.Readback.Tag

/-!
# Tags, scalars and empty collections are read

Where keys are allowed, each of them may begin one, and remains a possible key up to the end of its
line.

> `reads_tag`, `reads_quoted`, `reads_plain`, `reads_literal`, `reads_brackets`: one of them each.
-/

namespace Provision.Yaml.Scanner

open Outline (isSafe endsLine spaces tagText settle)
open Source (laid)

variable {blocks : List Nat} {key : Option Key} {allowed : Bool} {m : Mark} {rest : List Char}
  {tokens : List Placed}

/-! ## Places of keys -/

/-- The key that may begin at a token: a new one where keys are allowed, else the one before. -/
def opened (blocks : List Nat) (key : Option Key) (allowed : Bool) (m : Mark) : Option Key :=
  if allowed then some ⟨blocks.head? == some m.column, 0, m⟩ else key

/-- What is known before a tag or a scalar: where keys are allowed none has begun, no block that is
open is further right, and no key has become stale. -/
structure AtLeaf (blocks : List Nat) (key : Option Key) (allowed : Bool) (m : Mark) : Prop where
  none_of_allowed : allowed = true → key = none
  le : ∀ c ∈ blocks.head?, c ≤ m.column
  fresh : Key.fresh key m = key

variable {cs : List Char}

theorem openKey_spot (h : AtLeaf blocks key allowed m) :
    (spot blocks key allowed m cs tokens).openKey =
      .ok (spot blocks (opened blocks key allowed m) allowed m cs tokens) := by
  cases allowed with
  | false => rfl
  | true =>
    obtain rfl := h.none_of_allowed rfl
    rw [openKey_eq]
    simp [spot, dropKey, keyPlace, setKeyPlace, opened, Key.place, bind, Except.bind, inFlow, mark]

/-- The key after one more token. -/
def openedBefore (blocks : List Nat) (key : Option Key) (allowed : Bool) (m : Mark) : Option Key :=
  (opened blocks key allowed m).map (Key.aged 1)

theorem push_spot (blocks : List Nat) (key : Option Key) (allowed : Bool) (cs : List Char)
    (tokens : List Placed) (t : Placed) : (spot blocks key allowed m cs tokens).push t =
    spot blocks (key.map (Key.aged 1)) allowed m cs (tokens ++ [t]) := by
  cases key with
  | none => rfl
  | some k => simp [spot, push, Key.place, Key.aged]

/-- What is read after a key may have begun is one token. -/
theorem reads_of_openKey {f : Scanner → Except Fault Scanner} {allowed' : Bool} {m' : Mark}
    {t : Placed} (hleaf : AtLeaf blocks key allowed m) (hcs : Stands cs)
    (htoken : ∀ tokens, (spot blocks key allowed m cs tokens).readToken =
      (spot blocks key allowed m cs tokens).openKey >>= f)
    (hread : ∀ s : Scanner, s.source = laid m cs → s.blocks = blocks → s.flowKeys = [] →
      f s = .ok { s.push t with keyAllowed := allowed', source := laid m' rest })
    (hshrinks : rest.length < cs.length) :
    Reads (spot blocks key allowed m cs)
      (spot blocks (openedBefore blocks key allowed m) allowed' m' rest) [t.token] := by
  intro tokens
  refine ⟨[t], rfl, leads_of_take ⟨hcs, hleaf.fresh⟩ ((take_spot hleaf.le).trans ?_)
    (t := spot blocks (openedBefore blocks key allowed m) allowed' m' rest (tokens ++ [t]))
    (by simpa [spot] using hshrinks)⟩
  rw [htoken, openKey_spot hleaf]
  show f _ = _
  rw [hread _ rfl rfl rfl, push_spot]
  rfl

/-- A character that is neither a dash nor a point begins no mark of a document. -/
theorem not_startsDocumentMark_of_other (cs : List Char) {c : Char} (hdash : c ≠ '-')
    (hdot : c ≠ '.') :
    Source.startsDocumentMark (laid m (c :: cs)) '-' = false ∧
      Source.startsDocumentMark (laid m (c :: cs)) '.' = false :=
  ⟨not_startsDocumentMark_of_ne hdash, not_startsDocumentMark_of_ne hdot⟩

/-! ## Tags -/

theorem readToken_bang : (spot blocks key allowed m ('!' :: cs) tokens).readToken =
    (spot blocks key allowed m ('!' :: cs) tokens).property (scanTag false) := by
  obtain ⟨hdash, hdot⟩ := not_startsDocumentMark_of_other cs (m := m) (c := '!')
    (by decide) (by decide)
  simp [readToken, spot, inFlow, hdash, hdot, endChar]

/-- **A tag is read**, and may begin a key. -/
theorem reads_tag (key : Option Key) (allowed : Bool) (rest : List Char) {tag : String} {g : Char}
    (hleaf : AtLeaf blocks key allowed m)
    (htag : LegibleTag tag) (hg : isGap g = true) :
    Reads (spot blocks key allowed m (tagText tag ++ g :: rest))
      (spot blocks (openedBefore blocks key allowed m) false (m.past (tagText tag)) (g :: rest))
      [tagToken tag] := by
  obtain ⟨text, htext⟩ := exists_tagText tag
  refine reads_of_openKey (f := fun s => scanTag false s.source >>= fun x =>
    .ok { s.push x.1 with keyAllowed := false, source := x.2 }) (t := .point (tagToken tag) m) hleaf
    ?_ (fun tokens => ?_) (fun s hsource _ _ => ?_) ?_
  · rw [htext]
    rintro _ ⟨⟩
    decide
  · rw [htext, List.cons_append, readToken_bang]
    rfl
  · rw [hsource, scanTag_tagText htag hg]
    rfl
  · rw [htext]
    simp only [List.length_append, List.length_cons]
    omega

/-! ## Scalars -/

theorem readToken_quote {quote : Char} (hquote : quote = '\'' ∨ quote = '"') :
    (spot blocks key allowed m (quote :: cs) tokens).readToken =
      (spot blocks key allowed m (quote :: cs) tokens).quotedScalar := by
  obtain ⟨hdash, hdot⟩ := not_startsDocumentMark_of_other cs (m := m) (c := quote)
    (by rintro rfl; simp at hquote) (by rintro rfl; simp at hquote)
  rcases hquote with rfl | rfl <;> simp [readToken, spot, hdash, hdot, endChar]

/-- **A quoted scalar is read**, and may begin a key. -/
theorem reads_quoted (body text rest : List Char) {quote : Char}
    (hleaf : AtLeaf blocks key allowed m)
    (hquote : quote = '\'' ∨ quote = '"')
    (hscan : scanQuoted (laid m (quote :: (body ++ rest))) =
      .ok ⟨text, laid (m.past (quote :: body)) rest, false⟩) :
    Reads (spot blocks key allowed m (quote :: (body ++ rest)))
      (spot blocks (openedBefore blocks key allowed m) false (m.past (quote :: body)) rest)
      [.scalar (if quote == '"' then .double else .single) text] := by
  refine reads_of_openKey (f := fun s => scanQuoted s.source >>= fun x => .ok { s.push (.point
    (.scalar (if Source.char s.source == '"' then .double else .single) x.text) s.mark) with
      keyAllowed := false, source := x.rest }) (t := .point (.scalar
    (if quote == '"' then .double else .single) text) m) hleaf ?_ (fun tokens => ?_)
    (fun s hsource _ _ => ?_) ?_
  · rcases hquote with rfl | rfl <;> (rintro _ ⟨⟩; decide)
  · rw [readToken_quote hquote]
    rfl
  · have hmark : s.mark = m := by rw [mark, hsource, Source.mark_laid]
    rw [hmark, hsource, hscan]
    rfl
  · simp only [List.length_append, List.length_cons]
    omega

/-- What a plain text begins with: no indicator, and no gap after a character that is one before a
gap. -/
theorem first_of_plainHolds (rest : List Char) {c : Char} {text : List Char}
    (hholds : Outline.plainHolds (c :: text) = true) :
    c ∉ Outline.indicators ∧ isGap c = false ∧ (c ∈ ['?', ':', '-'] →
      ∀ m : Mark, isGap (Source.char (laid m (text ++ rest))) = false) := by
  obtain ⟨hsafe, hhead, -, -, hstructural⟩ := plainHolds_iff.mp hholds
  rw [List.forall_mem_cons] at hsafe
  obtain ⟨hwhite, hbreak, hend⟩ := solid_of_isSafe hsafe.1.1 hsafe.1.2 (by simpa using hhead)
  simp only [Outline.looksStructural, Bool.or_eq_false_iff] at hstructural
  obtain ⟨-, ⟨hindicator, hmark⟩, -⟩ := hstructural
  refine ⟨by simpa using hindicator, ?_, fun hc m => ?_⟩
  · rw [isGap, isStop, hwhite, hbreak, beq_false_of_ne hend]
    rfl
  · rw [List.contains_iff_mem.mpr hc, Bool.true_and] at hmark
    cases text with
    | nil => exact absurd hmark (by decide)
    | cons d text => exact isGap_eq_false_of_separates hmark

/-- A plain text is not taken for anything else. -/
theorem readToken_plain {text : List Char} (hholds : Outline.plainHolds text = true)
    (hne : text ≠ []) (hrest : ∀ c ∈ rest.head?, c = '\n' ∨ c = ':') :
    (spot blocks key allowed m (text ++ rest) tokens).readToken =
      (spot blocks key allowed m (text ++ rest) tokens).plainScalar := by
  cases text with
  | nil => exact absurd rfl hne
  | cons c text =>
    obtain ⟨-, -, -, -, hstructural⟩ := plainHolds_iff.mp hholds
    simp only [Outline.looksStructural, Bool.or_eq_false_iff] at hstructural
    have hdash : Source.startsDocumentMark (laid m (c :: (text ++ rest))) '-' = false :=
      not_startsDocumentMark (by decide) hstructural.1.1 hne
        (fun c hc => by rcases hrest c hc with rfl | rfl <;> decide) m
    have hdot : Source.startsDocumentMark (laid m (c :: (text ++ rest))) '.' = false :=
      not_startsDocumentMark (by decide) hstructural.1.2 hne
        (fun c hc => by rcases hrest c hc with rfl | rfl <;> decide) m
    obtain ⟨hindicator, hgap, hnext⟩ := first_of_plainHolds rest hholds
    simp only [Outline.indicators, List.mem_cons, List.not_mem_nil, or_false, not_or] at hindicator
    have hend : c ≠ endChar := by
      rintro rfl
      exact absurd hgap (by decide)
    by_cases hmark : c ∈ ['?', ':', '-']
    · have hnext := hnext hmark (m.after c)
      have hwhite : isWhite (Source.char (laid (m.after c) (text ++ rest))) = false := by
        rw [isGap, Bool.or_eq_false_iff] at hnext
        exact hnext.1
      simp only [List.mem_cons, List.not_mem_nil, or_false] at hmark
      rcases hmark with rfl | rfl | rfl <;>
        simp [readToken, spot, inFlow, hdash, hdot, endChar, startsPlain, hnext, hwhite]
    · simp only [List.mem_cons, List.not_mem_nil, or_false, not_or] at hmark
      simp [readToken, spot, inFlow, hend, hindicator, hmark, startsPlain, hgap, isFlowIndicator,
        hdash, hdot]

theorem stands_plain {text : List Char} (hholds : Outline.plainHolds text = true)
    (hne : text ≠ []) :
    Stands (text ++ rest) := by
  cases text with
  | nil => exact absurd rfl hne
  | cons c text =>
    obtain ⟨hindicator, hgap, -⟩ := first_of_plainHolds rest hholds
    obtain ⟨hsafe, -⟩ := plainHolds_iff.mp hholds
    rintro _ ⟨⟩
    rw [isGap, isStop, Bool.or_eq_false_iff, Bool.or_eq_false_iff] at hgap
    refine ⟨hgap.1, hgap.2.1, ?_, ?_⟩
    · rintro rfl
      exact hindicator (by decide)
    · rintro rfl
      exact absurd (hsafe _ List.mem_cons_self).1 (by decide)

/-- The least column of further lines of a scalar. -/
def marginOf (blocks : List Nat) : Nat := match blocks with | [] => 0 | c :: _ => c + 1

/-- **A plain scalar is read**, and may begin a key. -/
theorem reads_plain (rest : List Char) {text rest' : List Char} {m' : Mark} {newLine : Bool}
    (hleaf : AtLeaf blocks key allowed m) (hholds : Outline.plainHolds text = true)
    (hne : text ≠ []) (hrest : ∀ c ∈ rest.head?, c = '\n' ∨ c = ':')
    (hscan : scanPlain false (marginOf blocks) (laid m (text ++ rest)) =
      .ok ⟨text, laid m' rest', newLine⟩) (hshrinks : rest'.length < (text ++ rest).length) :
    Reads (spot blocks key allowed m (text ++ rest))
      (spot blocks (openedBefore blocks key allowed m) newLine m' rest') [.scalar .plain text] := by
  refine reads_of_openKey (f := fun s => scanPlain s.inFlow s.margin s.source >>= fun x => .ok
    { s.push (.point (.scalar .plain x.text) s.mark) with
      keyAllowed := x.newLine, source := x.rest }) (t := .point (.scalar .plain text) m) hleaf
    (stands_plain hholds hne) (fun tokens => ?_) (fun s hsource hblocks hflow => ?_) hshrinks
  · rw [readToken_plain hholds hne hrest]
    rfl
  · have hmark : s.mark = m := by rw [mark, hsource, Source.mark_laid]
    have hinFlow : s.inFlow = false := by rw [inFlow, hflow]; rfl
    have hmargin : s.margin = marginOf blocks := by rw [margin, hblocks]; rfl
    rw [hmark, hsource, hinFlow, hmargin, hscan]
    rfl

/-- **A literal block is read.** It is no key. -/
theorem reads_literal {text body rest' : List Char} {m' : Mark}
    (hleaf : AtLeaf blocks key allowed m) (hkey : ∀ k ∈ key, k.required = false)
    (hscan : scanBlock false (marginOf blocks) (laid m ('|' :: body)) =
      .ok ⟨text, laid m' rest', false⟩) (hshrinks : rest'.length < body.length + 1) :
    Reads (spot blocks key allowed m ('|' :: body)) (spot blocks none true m' rest')
      [.scalar .literal text] := by
  intro tokens
  have htoken : (spot blocks key allowed m ('|' :: body) tokens).readToken =
      (spot blocks key allowed m ('|' :: body) tokens).blockScalar false := by
    obtain ⟨hdash, hdot⟩ := not_startsDocumentMark_of_other body (m := m) (c := '|')
      (by decide) (by decide)
    simp [readToken, spot, inFlow, hdash, hdot, endChar]
  have hdrop : (spot blocks key allowed m ('|' :: body) tokens).dropKey =
      .ok (spot blocks none allowed m ('|' :: body) tokens) := by
    cases key with
    | none => rfl
    | some k =>
      have hrequired : (k.place tokens).required = false := hkey k rfl
      show (if (k.place tokens).required = true then _ else _) = _
      rw [hrequired]
      rfl
  have hblock : (spot blocks key allowed m ('|' :: body) tokens).blockScalar false =
      .ok (spot blocks none true m' rest' (tokens ++ [.point (.scalar .literal text) m])) := by
    rw [blockScalar, hdrop]
    show (scanBlock false (marginOf blocks) (laid m ('|' :: body)) >>= _) = _
    rw [hscan]
    rfl
  refine ⟨[.point (.scalar .literal text) m], rfl, leads_of_take ⟨?_, hleaf.fresh⟩
    ((take_spot hleaf.le).trans (htoken.trans hblock)) (by simpa [spot] using hshrinks)⟩
  rintro _ ⟨⟩
  decide

/-! ## Empty collections -/

/-- A reader behind the bracket that opens an empty collection. -/
def flowSpot (blocks : List Nat) (key : Option Key) (m : Mark) (cs : List Char)
    (tokens : List Placed) : Scanner :=
  { spot blocks key true m cs tokens with flowKeys := [none] }

theorem dropStale_flowSpot (blocks : List Nat) (cs : List Char) (tokens : List Placed)
    (h : Key.Spare key m) : (flowSpot blocks key m cs tokens).dropStale =
    .ok (flowSpot blocks (Key.fresh key m) m cs tokens) := by
  have hrefresh := refresh_place tokens (s := flowSpot blocks key m cs tokens)
    Source.mark_laid h
  show (refresh _ (key.map (Key.place tokens)) >>= _) = _
  rw [hrefresh]
  rfl

/-- A bracket is read where no key has become stale. -/
theorem fetch_flowSpot (blocks : List Nat) (cs : List Char) (tokens : List Placed) {c : Char}
    (hc : isWhite c = false ∧ isBreak c = false ∧ c ≠ '#' ∧
    c ≠ '\uFEFF') (hfresh : Key.fresh key m = key) :
    (flowSpot blocks key m (c :: cs) tokens).dropStale =
        .ok (flowSpot blocks key m (c :: cs) tokens) ∧
      (flowSpot blocks key m (c :: cs) tokens).fetch =
        (flowSpot blocks key m (c :: cs) tokens).readToken := by
  have hdrop := dropStale_flowSpot blocks (c :: cs) tokens
    (Key.spare_of_fresh hfresh)
  rw [hfresh] at hdrop
  obtain ⟨hwhite, hbreak, hnumber, hmark⟩ := hc
  rw [isWhite, Bool.or_eq_false_iff] at hwhite
  have hgap : skipGapFrom true true false (laid m (c :: cs)) = (true, laid m (c :: cs)) := by
    simp [laid, skipGapFrom, hwhite, hbreak, hnumber, hmark]
  have hskip : (flowSpot blocks key m (c :: cs) tokens).skipGap =
      flowSpot blocks key m (c :: cs) tokens := by
    rw [skipGap]
    show ({ flowSpot blocks key m (c :: cs) tokens with
      keyAllowed := (skipGapFrom true true false (laid m (c :: cs))).1,
      source := (skipGapFrom true true false (laid m (c :: cs))).2 } : Scanner) = _
    rw [hgap]
    rfl
  refine ⟨hdrop, ?_⟩
  rw [fetch, approach, hskip, hdrop]
  rfl

/-- The brackets of an empty collection, and the tokens that they are. -/
inductive Brackets : Char → Char → Token → Token → Prop
  | sequence : Brackets '[' ']' .flowSequenceStart .flowSequenceEnd
  | mapping : Brackets '\x7b' '\x7d' .flowMappingStart .flowMappingEnd

variable {left right : Char} {start stop : Token}

theorem Brackets.stands (h : Brackets left right start stop) (cs : List Char) :
    Stands (left :: cs) := by
  cases h <;> (rintro _ ⟨⟩; decide)

theorem Brackets.readToken_left (h : Brackets left right start stop) :
    (spot blocks key allowed m (left :: cs) tokens).readToken =
      (spot blocks key allowed m (left :: cs) tokens).flowOpen start := by
  obtain ⟨hdash, hdot⟩ := not_startsDocumentMark_of_other cs (m := m) (c := left)
    (by cases h <;> decide) (by cases h <;> decide)
  cases h <;> simp [readToken, spot, hdash, hdot, endChar]

theorem Brackets.readToken_right (h : Brackets left right start stop) :
    (flowSpot blocks key m (right :: cs) tokens).readToken =
      (flowSpot blocks key m (right :: cs) tokens).flowClose stop := by
  obtain ⟨hdash, hdot⟩ := not_startsDocumentMark_of_other cs (m := m) (c := right)
    (by cases h <;> decide) (by cases h <;> decide)
  cases h <;> simp [readToken, flowSpot, spot, hdash, hdot, endChar]

/-- Behind the left bracket a flow collection is open. -/
theorem Brackets.leads_left (h : Brackets left right start stop)
    (hleaf : AtLeaf blocks key allowed m) :
    Leads (spot blocks key allowed m (left :: cs) tokens)
      (flowSpot blocks (openedBefore blocks key allowed m) (m.after left) cs
        (tokens ++ [.single start m])) := by
  have hpush := push_spot blocks (opened blocks key allowed m) allowed (left :: cs) tokens
    (.single start m) (m := m)
  have hopen : (spot blocks key allowed m (left :: cs) tokens).flowOpen start =
      .ok (flowSpot blocks (openedBefore blocks key allowed m) (m.after left) cs
        (tokens ++ [.single start m])) := by
    rw [flowOpen, openKey_spot hleaf]
    exact congrArg (fun s : Scanner =>
      Except.ok { s.advance 1 with flowKeys := [none], keyAllowed := true }) hpush
  exact leads_of_take ⟨h.stands cs, hleaf.fresh⟩
    ((take_spot hleaf.le).trans (h.readToken_left.trans hopen)) (by simp [flowSpot, spot])

/-- Behind the right bracket none is open any more. -/
theorem Brackets.leads_right (blocks : List Nat) (cs : List Char) (tokens : List Placed)
    (h : Brackets left right start stop) (hfresh : Key.fresh key m = key) :
    Leads (flowSpot blocks key m (right :: cs) tokens)
      (spot blocks (key.map (Key.aged 1)) false (m.after right) cs
        (tokens ++ [.single stop m])) := by
  have hpush := push_spot blocks key true (right :: cs) tokens (.single stop m) (m := m)
  have hclose : (flowSpot blocks key m (right :: cs) tokens).flowClose stop =
      .ok (spot blocks (key.map (Key.aged 1)) false (m.after right) cs
        (tokens ++ [.single stop m])) :=
    congrArg (fun s : Scanner => (.ok { ({ s with flowKeys := [none] } : Scanner).advance 1 with
      flowKeys := [], keyAllowed := false } : Except Fault Scanner)) hpush
  obtain ⟨hdrop, hfetch⟩ := fetch_flowSpot blocks cs tokens (c := right)
    (by cases h <;> decide) hfresh
  exact leads_of_fetch hdrop (hfetch.trans (h.readToken_right.trans hclose))
    (by simp [flowSpot, spot])

/-- **An empty collection is read**, and may begin a key. -/
theorem reads_brackets (rest : List Char) (hleaf : AtLeaf blocks key allowed m)
    (hbrackets : Brackets left right start stop)
    (hspare : Key.Spare (openedBefore blocks key allowed m) (m.after left)) :
    Reads (spot blocks key allowed m (left :: right :: rest))
      (spot blocks ((Key.fresh (openedBefore blocks key allowed m) (m.after left)).map (Key.aged 1))
        false ((m.after left).after right) rest) [start, stop] := by
  intro tokens
  have hfresh := Key.fresh_fresh (openedBefore blocks key allowed m) (m.after left) []
  -- a key that has become stale is dropped between the brackets
  have hstale : Leads (flowSpot blocks (openedBefore blocks key allowed m) (m.after left)
      (right :: rest) (tokens ++ [.single start m])) (flowSpot blocks (Key.fresh
        (openedBefore blocks key allowed m) (m.after left)) (m.after left) (right :: rest)
        (tokens ++ [.single start m])) :=
    leads_of_fetch_eq (dropStale_flowSpot _ _ _ hspare)
      (fetch_flowSpot _ _ _ (by cases hbrackets <;> decide) hfresh).1 rfl (Nat.le_refl _)
      fun r hr => .refl hr
  have hright := hbrackets.leads_right blocks rest (tokens ++ [.single start m]) hfresh
  rw [List.append_assoc] at hright
  exact ⟨[.single start m, .single stop (m.after left)], rfl,
    (hbrackets.leads_left hleaf).trans (hstale.trans hright)⟩

end Provision.Yaml.Scanner
