import Provision.Proofs.Yaml.Readback.Spot

/-!
# Indicators are read

Dashes, question marks and colons are read as the entries, keys and values that they stand for. The
first of them in a column further right opens a block there.

> `reads_dash`, `reads_question`, `reads_colon`: an indicator with a gap after it;
> `leads_colon`: a colon that settles that a key has begun before it.
-/

namespace Provision.Yaml.Scanner

open Outline (spaces)
open Source (laid)

variable {start : Token} {blocks blocks' : List Nat} {key : Option Key} {allowed : Bool} {m : Mark}
  {g : Char} {cs : List Char} {tokens : List Placed} {pre : List Token}

/-! ## What is read on the way -/

/-- What is read between two states, each with the tokens behind it. -/
def Reads (s t : List Placed → Scanner) (read : List Token) : Prop :=
  ∀ tokens, ∃ more, more.map Placed.token = read ∧ Leads (s tokens) (t (tokens ++ more))

section

variable {s t u : List Placed → Scanner} {read read' : List Token}

theorem Reads.refl (s : List Placed → Scanner) : Reads s s [] := fun tokens =>
  ⟨[], rfl, by rw [List.append_nil]; exact .refl _⟩

theorem Reads.trans (hst : Reads s t read) (htu : Reads t u read') : Reads s u (read ++ read') := by
  intro tokens
  obtain ⟨more, hmore, hleads⟩ := hst tokens
  obtain ⟨more', hmore', hleads'⟩ := htu (tokens ++ more)
  refine ⟨more ++ more', by rw [List.map_append, hmore, hmore'], hleads.trans ?_⟩
  rw [← List.append_assoc]
  exact hleads'

/-- A way on which no token is read. -/
theorem Reads.of_leads (h : ∀ tokens, Leads (s tokens) (t tokens)) : Reads s t [] := fun tokens =>
  ⟨[], rfl, by rw [List.append_nil]; exact h tokens⟩

end

/-- Whether a token opens a block in a column or belongs to one that is open, and what is read
before it. -/
inductive Opens (start : Token) (column : Nat) : List Nat → List Nat → List Token → Prop
  | opens {blocks : List Nat} (right : ∀ c ∈ blocks.head?, c < column) :
    Opens start column blocks (column :: blocks) [start]
  | stays {blocks : List Nat} : Opens start column (column :: blocks) (column :: blocks) []

/-- No block that is open is further right. -/
theorem Opens.le {column : Nat} (h : Opens start column blocks blocks' pre) :
    ∀ c ∈ blocks.head?, c ≤ column := by
  cases h with
  | opens right => exact fun c hc => Nat.le_of_lt (right c hc)
  | stays =>
    rintro c ⟨⟩
    exact Nat.le_refl _

/-- A token that may open a block does so in its column. -/
theorem Opens.openBlock (allowed : Bool) (cs : List Char) (tokens : List Placed)
    (h : Opens start m.column blocks blocks' pre) :
    ∃ more, more.map Placed.token = pre ∧
      (spot blocks none allowed m cs tokens).openBlock m.column push start m =
        spot blocks' none allowed m cs (tokens ++ more) := by
  cases h with
  | opens right =>
    refine ⟨[.point start m], rfl, ?_⟩
    have hmargin : (spot blocks none allowed m cs tokens).margin ≤ m.column := by
      cases blocks with
      | nil => exact Nat.zero_le _
      | cons c blocks => exact right c rfl
    have hright : ((spot blocks none allowed m cs tokens).inFlow ||
        decide (m.column < (spot blocks none allowed m cs tokens).margin)) = false := by
      rw [decide_eq_false (Nat.not_lt.mpr hmargin)]
      rfl
    rw [Scanner.openBlock, hright]
    rfl
  | stays =>
    refine ⟨[], rfl, ?_⟩
    rw [Scanner.openBlock, if_pos, List.append_nil]
    simp [spot, margin]

/-- A gap is no indicator. -/
theorem ne_of_gap (hg : isGap g = true) {c : Char} (hc : isGap c = false) : g ≠ c := by
  rintro rfl
  rw [hg] at hc
  exact nomatch hc

/-- A mark of a document is three of a kind. -/
theorem not_startsDocumentMark_of_ne {c d : Char} (h : c ≠ d) :
    Source.startsDocumentMark (laid m (c :: cs)) d = false := by
  simp [Source.startsDocumentMark, h]

theorem not_startsDocumentMark_of_next {c d : Char} (h : Source.char (laid (m.after c) cs) ≠ d) :
    Source.startsDocumentMark (laid m (c :: cs)) d = false := by
  simp [Source.startsDocumentMark, h]

/-- **A dash is read as an entry of a sequence.** -/
theorem reads_dash (cs : List Char) (hopens : Opens .blockSequenceStart m.column blocks blocks' pre)
    (hg : isGap g = true) : Reads (spot blocks none true m ('-' :: g :: cs))
      (spot blocks' none true (m.after '-') (g :: cs)) (pre ++ [.blockEntry]) := by
  intro tokens
  obtain ⟨more, hmore, hopen⟩ := hopens.openBlock true ('-' :: g :: cs) tokens
  have hread : (spot blocks none true m ('-' :: g :: cs) tokens).readToken =
      (spot blocks none true m ('-' :: g :: cs) tokens).blockEntry := by
    have hdash : Source.startsDocumentMark (laid m ('-' :: g :: cs)) '-' = false :=
      not_startsDocumentMark_of_next (ne_of_gap hg rfl)
    have hdot : Source.startsDocumentMark (laid m ('-' :: g :: cs)) '.' = false :=
      not_startsDocumentMark_of_ne (by decide)
    simp [readToken, spot, hdash, hdot, hg, endChar]
  have hentry : (spot blocks none true m ('-' :: g :: cs) tokens).blockEntry =
      .ok (spot blocks' none true (m.after '-') (g :: cs)
        (tokens ++ (more ++ [.single .blockEntry m]))) := by
    rw [blockEntry]
    show (openBlock _ m.column push .blockSequenceStart m).dropKey >>= _ = _
    rw [hopen, ← List.append_assoc]
    rfl
  refine ⟨more ++ [.single .blockEntry m], by simp [hmore, Placed.single], ?_⟩
  refine leads_of_take ⟨?_, rfl⟩ ((take_spot hopens.le).trans (hread.trans hentry)) (by simp [spot])
  rintro _ ⟨⟩
  decide

/-- **A question mark is read as a key of a mapping.** -/
theorem reads_question (cs : List Char)
    (hopens : Opens .blockMappingStart m.column blocks blocks' pre)
    (hg : isGap g = true) : Reads (spot blocks none true m ('?' :: g :: cs))
      (spot blocks' none true (m.after '?') (g :: cs)) (pre ++ [.key]) := by
  intro tokens
  obtain ⟨more, hmore, hopen⟩ := hopens.openBlock true ('?' :: g :: cs) tokens
  have hread : (spot blocks none true m ('?' :: g :: cs) tokens).readToken =
      (spot blocks none true m ('?' :: g :: cs) tokens).key := by
    have hdash : Source.startsDocumentMark (laid m ('?' :: g :: cs)) '-' = false :=
      not_startsDocumentMark_of_ne (by decide)
    have hdot : Source.startsDocumentMark (laid m ('?' :: g :: cs)) '.' = false :=
      not_startsDocumentMark_of_ne (by decide)
    simp [readToken, spot, hdash, hdot, hg, endChar]
  have hkey : (spot blocks none true m ('?' :: g :: cs) tokens).key = .ok (spot blocks' none
      true (m.after '?') (g :: cs) (tokens ++ (more ++ [.single .key m]))) := by
    rw [Scanner.key]
    show (openBlock _ m.column push .blockMappingStart m).dropKey >>= _ = _
    rw [hopen, ← List.append_assoc]
    rfl
  refine ⟨more ++ [.single .key m], by simp [hmore, Placed.single], ?_⟩
  refine leads_of_take ⟨?_, rfl⟩ ((take_spot hopens.le).trans (hread.trans hkey)) (by simp [spot])
  rintro _ ⟨⟩
  decide

/-- A colon with a gap after it is read as a value. -/
theorem readToken_colon (hg : isGap g = true) :
    (spot blocks key allowed m (':' :: g :: cs) tokens).readToken =
      (spot blocks key allowed m (':' :: g :: cs) tokens).value := by
  have hdash : Source.startsDocumentMark (laid m (':' :: g :: cs)) '-' = false :=
    not_startsDocumentMark_of_ne (by decide)
  have hdot : Source.startsDocumentMark (laid m (':' :: g :: cs)) '.' = false :=
    not_startsDocumentMark_of_ne (by decide)
  simp [readToken, spot, hdash, hdot, hg, endChar]

/-- **A colon on a line of its own is read as a value**, the key of which has been marked. -/
theorem reads_colon (blocks : List Nat) (cs : List Char) (hg : isGap g = true) :
    Reads (spot (m.column :: blocks) none true m (':' :: g :: cs))
      (spot (m.column :: blocks) none true (m.after ':') (g :: cs)) [.value] := by
  intro tokens
  have hstays : Opens .blockMappingStart m.column (m.column :: blocks) (m.column :: blocks) [] :=
    .stays
  obtain ⟨more, hmore, hopen⟩ := hstays.openBlock true (':' :: g :: cs) tokens
  obtain rfl := List.map_eq_nil_iff.mp hmore
  have hvalue : (spot (m.column :: blocks) none true m (':' :: g :: cs) tokens).value =
      .ok (spot (m.column :: blocks) none true (m.after ':') (g :: cs)
        (tokens ++ [.single .value m])) := by
    have hend : ∀ u : Scanner, u = spot (m.column :: blocks) none true m (':' :: g :: cs) tokens →
        Except.ok { (u.push (.single .value u.mark)).advance 1 with keyAllowed := !u.inFlow } =
          (.ok (spot (m.column :: blocks) none true (m.after ':') (g :: cs)
            (tokens ++ [.single .value m])) : Except Fault Scanner) := by
      rintro _ rfl
      rfl
    exact hend _ (hopen.trans (by rw [List.append_nil]))
  refine ⟨[.single .value m], rfl, ?_⟩
  refine leads_of_take ⟨?_, rfl⟩
    ((take_spot hstays.le).trans ((readToken_colon hg).trans hvalue)) (by simp [spot])
  rintro _ ⟨⟩
  decide

/-- A token that is inserted comes before what has been read since. -/
theorem pushAt_eq {s : Scanner} {before since : List Placed} (hreleased : s.released = 0)
    (hpending : s.pending = before ++ since) (t : Placed) :
    s.pushAt before.length t = { s with pending := before ++ t :: since } := by
  simp [pushAt, hreleased, hpending]

/-- A key and the block that it may open are inserted where it begins. -/
theorem openBlock_pushAt (mark : Mark) {s : Scanner} {before since : List Placed}
    (hopens : Opens .blockMappingStart mark.column s.blocks blocks' pre) (hflow : s.flowKeys = [])
    (hreleased : s.released = 0) (hpending : s.pending = before ++ since) :
    ∃ more, more.map Placed.token = pre ++ .key :: since.map Placed.token ∧
      (s.pushAt before.length (.point .key mark)).openBlock mark.column (·.pushAt before.length)
        .blockMappingStart mark = { s with blocks := blocks', pending := before ++ more } := by
  rw [pushAt_eq hreleased hpending]
  obtain ⟨source, blocks, outerKey, flowKeys, keyAllowed, pending, released⟩ := s
  obtain rfl : flowKeys = [] := hflow
  cases hopens with
  | opens right =>
    refine ⟨.point .blockMappingStart mark :: .point .key mark :: since, rfl, ?_⟩
    have hmargin : ¬ mark.column < margin ⟨source, blocks, outerKey, [], keyAllowed,
        before ++ .point .key mark :: since, released⟩ := by
      cases blocks with
      | nil => exact Nat.not_lt_zero _
      | cons c blocks => exact Nat.not_lt.mpr (right c rfl)
    have hpush := pushAt_eq (s := ⟨source, blocks, outerKey, [], keyAllowed,
      before ++ .point .key mark :: since, released⟩) hreleased rfl (.point .blockMappingStart mark)
    rw [openBlock, if_neg (by simpa [inFlow] using hmargin)]
    exact congrArg (fun u : Scanner => { u with blocks := mark.column :: blocks }) hpush
  | stays =>
    refine ⟨.point .key mark :: since, rfl, ?_⟩
    rw [openBlock, if_pos (by simp [margin])]

/-- **A colon settles that a key has begun before it.** The key and the block that it may open come
before what has been read since. -/
theorem leads_colon (allowed : Bool) (before since : List Placed) (cs : List Char) {k : Key}
    (hopens : Opens .blockMappingStart k.mark.column blocks blocks' pre) (hg : isGap g = true)
    (hsince : since.length = k.since) (hcolumn : k.mark.column ≤ m.column)
    (hstale : k.stale m = false) :
    ∃ more, more.map Placed.token = pre ++ .key :: since.map Placed.token ++ [.value] ∧
      Leads (spot blocks (some k) allowed m (':' :: g :: cs) (before ++ since))
        (spot blocks' none false (m.after ':') (g :: cs) (before ++ more)) := by
  have hordinal : (k.place (before ++ since)).ordinal = before.length := by
    simp [Key.place, ← hsince]
  obtain ⟨more, hmore, hinsert⟩ := openBlock_pushAt k.mark (s := spot blocks (some k) allowed m
    (':' :: g :: cs) (before ++ since)) hopens rfl rfl rfl
  rw [← hordinal] at hinsert
  have hvalue : (spot blocks (some k) allowed m (':' :: g :: cs) (before ++ since)).value =
      .ok (spot blocks' none false (m.after ':') (g :: cs)
        (before ++ (more ++ [.single .value m]))) := by
    have hend : ∀ u : Scanner, u = { spot blocks (some k) allowed m (':' :: g :: cs)
          (before ++ since) with blocks := blocks', pending := before ++ more } →
        Except.ok { ((u.setKeyPlace none).push (.single .value (u.setKeyPlace none).mark)).advance 1
          with keyAllowed := false } = (.ok (spot blocks' none false (m.after ':') (g :: cs)
            (before ++ (more ++ [.single .value m]))) : Except Fault Scanner) := by
      rintro _ rfl
      rw [← List.append_assoc]
      rfl
    exact hend _ hinsert
  refine ⟨more ++ [.single .value m], by rw [List.map_append, hmore]; rfl, leads_of_take ⟨?_, ?_⟩
    ((take_spot fun c hc => Nat.le_trans (hopens.le c hc) hcolumn).trans
      ((readToken_colon hg).trans hvalue)) (by simp [spot])⟩
  · rintro _ ⟨⟩
    decide
  · rw [Key.fresh, hstale]
    rfl

end Provision.Yaml.Scanner
