import Provision.Proofs.Yaml.Readback.Source
import Provision.Yaml.Token.Scalar

/-!
# Plain text is read back

A text that plain style can hold is read to its end, whatever it is a value of or a key to: a
colon in it has a word after it and a number sign has a word before it, and there is no space at
its ends.

> `scanPlain_line`: a plain text that ends with its line;
> `scanPlain_colon`: a plain text that is a key.
-/

namespace Provision.Yaml

open Outline (isSafe endsLine spaces separates separatedNext hasInnerMark plainHolds)
open Source (laid)

section

variable {start : Mark} {margin : Nat} {tail : List Char}

/-- What separates nothing is no gap. -/
theorem isGap_eq_false_of_separates {c : Char} (h : separates c = false) : isGap c = false := by
  simp only [separates, endsLine, isGap, isWhite, isStop, endChar, Bool.or_eq_false_iff] at h ⊢
  exact ⟨⟨h.1.1.1, h.1.1.2⟩, h.1.2.1.1, h.2⟩

/-- A colon inside of plain text has no gap after it. -/
theorem not_isGap_of_hasInnerMark (tail : List Char) {before c : Char} {cs : List Char}
    (h : hasInnerMark before (c :: cs) = false) (m : Mark) :
    (c == ':' && isGap (Source.char (laid m (cs ++ tail)))) = false := by
  simp only [hasInnerMark, Bool.or_eq_false_iff] at h
  by_cases hc : c = ':'
  · have hnext : separatedNext cs = false := by simpa [hc] using h.1.1
    cases cs with
    | nil => exact absurd hnext (by decide)
    | cons d cs =>
      rw [List.cons_append, Source.char_laid_cons, isGap_eq_false_of_separates hnext,
        Bool.and_false]
  · simp [hc]

/-- A character of a word, where the reader is on the line of the text. -/
theorem plainFrom_char (start : Mark) (margin : Nat) (acc : List Char) {mode : PlainMode}
    {before c : Char} {cs tail gap : List Char} {m : Mark} (hc : c ≠ ' ')
    (hbefore : before = ' ' ∧ mode = .gap ∨ before ≠ ' ' ∧ mode = .word ∧ gap = [])
    (hsafe : isSafe c = true ∧ endsLine c = false) (hinner : hasInnerMark before (c :: cs) = false)
    (hmargin : margin ≤ m.column) (hcolumn : 0 < m.column) :
    plainFrom false start margin mode acc { spaces := gap } (laid m (c :: cs ++ tail)) =
      plainFrom false start margin .word (c :: (gap.reverse ++ acc)) .none
        (laid (m.after c) (cs ++ tail)) := by
  obtain ⟨hwhite, hbreak, hstop⟩ := solid_of_isSafe hsafe.1 hsafe.2 hc
  have hdocument : Source.atDocumentMark (laid m (c :: cs ++ tail)) = false :=
    Source.atDocumentMark_eq_false hcolumn _
  have hopen : (mode ≠ .word && (c == '#' || Source.atDocumentMark (laid m (c :: cs ++ tail))))
      = false := by
    rw [hdocument, Bool.or_false]
    obtain ⟨rfl, rfl⟩ | ⟨-, rfl, -⟩ := hbefore
    · simp only [hasInnerMark, Bool.or_eq_false_iff] at hinner
      have hsep : separates ' ' = true := by decide
      simpa [hsep] using hinner.1.2
    · rfl
  have hcolon := not_isGap_of_hasInnerMark tail hinner (m.after c)
  have htext : Fold.text { spaces := gap } = gap := rfl
  rw [List.cons_append, laid] at hopen ⊢
  rw [plainFrom]
  simp only [hwhite, hbreak, htext, hcolon, Bool.false_eq_true, if_false,
    Nat.not_lt.mpr hmargin, decide_false, Bool.and_false, Bool.false_and, Bool.or_false,
    Bool.not_false, hstop, beq_iff_eq]
  rw [if_neg (by rw [hopen]; exact Bool.false_ne_true)]

/-- **The words of a plain text.** Along the text: behind a space the reader is in a gap, and what
it has seen of it becomes text with the next word. -/
theorem plainFrom_words (start : Mark) (margin : Nat) (tail : List Char) {cs : List Char} :
    ∀ {before : Char} {mode : PlainMode} (gap acc : List Char) {m : Mark},
    (before = ' ' ∧ mode = .gap ∨ before ≠ ' ' ∧ mode = .word ∧ gap = []) →
    (∀ c ∈ cs, isSafe c = true ∧ endsLine c = false) → hasInnerMark before cs = false →
    (before :: cs).getLast? ≠ some ' ' → margin ≤ m.column → 0 < m.column →
    plainFrom false start margin mode acc { spaces := gap } (laid m (cs ++ tail)) =
      plainFrom false start margin .word (cs.reverse ++ (gap.reverse ++ acc)) .none
        (laid (m.past cs) tail) := by
  induction cs with
  | nil =>
    intro before mode gap acc m hbefore _ _ hend _ _
    obtain ⟨rfl, -⟩ | ⟨-, rfl, rfl⟩ := hbefore
    · exact absurd rfl hend
    · rfl
  | cons c cs ih =>
    intro before mode gap acc m hbefore hsafe hinner hend hmargin hcolumn
    rw [List.forall_mem_cons] at hsafe
    have hinner' : hasInnerMark c cs = false := by
      simp only [hasInnerMark, Bool.or_eq_false_iff] at hinner
      exact hinner.2
    have hend' : (c :: cs).getLast? ≠ some ' ' := by simpa [List.getLast?_cons_cons] using hend
    have hafter : (m.after c).column = m.column + 1 := by
      have hbreak : isBreak c = false := (endsLine_eq_isBreak hsafe.1.1).symm.trans hsafe.1.2
      rw [Mark.after_of_not_isBreak hbreak]
      rfl
    by_cases hc : c = ' '
    · subst hc
      have hstep : plainFrom false start margin mode acc { spaces := gap }
          (laid m (' ' :: cs ++ tail)) =
          plainFrom false start margin .gap acc { spaces := gap ++ [' '] }
            (laid (m.after ' ') (cs ++ tail)) := rfl
      rw [hstep, ih _ _ (Or.inl ⟨rfl, rfl⟩) hsafe.2 hinner' hend' (by omega) (by omega)]
      simp
    · have hrest := ih [] (c :: (gap.reverse ++ acc)) (m := m.after c)
        (Or.inr ⟨hc, rfl, rfl⟩) hsafe.2 hinner' hend' (by omega) (by omega)
      rw [List.reverse_nil, List.nil_append] at hrest
      rw [plainFrom_char start margin acc hc hbefore hsafe.1 hinner hmargin hcolumn,
        List.reverse_cons, List.append_assoc, Mark.past_cons]
      exact hrest

/-- A plain text ends with its line: what comes on the next one stands too far left. -/
theorem plainFrom_line {k : Nat} {acc : List Char} {m : Mark} (hk : k < margin)
    (htail : Stands tail) :
    plainFrom false start margin .word acc .none (laid m ('\n' :: (spaces k ++ tail))) =
      .ok ⟨acc, laid (m.past ('\n' :: spaces k)) tail, true⟩ := by
  have hspaces : ∀ {k : Nat} {m : Mark}, m.column + k < margin →
      plainFrom false start margin .gap acc { broken := true, first := ['\n'] }
        (laid m (spaces k ++ tail)) = .ok ⟨acc, laid (m.past (spaces k)) tail, true⟩ := by
    intro k
    induction k with
    | zero =>
      intro m hm
      have hleft : m.column < margin := hm
      obtain ⟨hwhite, hbreak⟩ := htail.char m
      cases tail with
      | nil => simp [spaces, laid, plainFrom, isWhite, isBreak, endChar]
      | cons c tail =>
        rw [Source.char_laid_cons] at hwhite hbreak
        simp [spaces, laid, plainFrom, hwhite, hbreak, hleft]
    | succ k ih =>
      intro m hm
      have hstep : plainFrom false start margin .gap acc { broken := true, first := ['\n'] }
          (laid m (spaces (k + 1) ++ tail)) =
          plainFrom false start margin .gap acc { broken := true, first := ['\n'] }
            (laid (m.after ' ') (spaces k ++ tail)) := by
        simp [spaces, List.replicate_succ, laid, plainFrom, isWhite, Fold.white]
      have hcolumn : (m.after ' ').column = m.column + 1 := rfl
      rw [hstep, ih (by omega)]
      rfl
  have hstep : plainFrom false start margin .word acc .none (laid m ('\n' :: (spaces k ++ tail))) =
      plainFrom false start margin .gap acc { broken := true, first := ['\n'] }
        (laid (m.after '\n') (spaces k ++ tail)) := rfl
  have hcolumn : (m.after '\n').column = 0 := rfl
  rw [hstep, hspaces (by omega)]
  rfl

/-- A plain text ends before a colon with a gap after it. -/
theorem plainFrom_colon {acc : List Char} {m : Mark}
    (hgap : isGap (Source.char (laid (m.after ':') tail)) = true) :
    plainFrom false start margin .word acc .none (laid m (':' :: tail)) =
      .ok ⟨acc, laid m (':' :: tail), false⟩ := by
  simp [laid, plainFrom, hgap, isWhite, isBreak, endChar, Fold.none]

end

/-! ## The whole scalar -/

/-- What plain style can hold, part by part. -/
theorem plainHolds_iff {cs : List Char} : plainHolds cs = true ↔
    (∀ c ∈ cs, isSafe c = true ∧ endsLine c = false) ∧ cs.head? ≠ some ' ' ∧
      cs.getLast? ≠ some ' ' ∧ Outline.hasPair (· == ' ') endsLine cs = false ∧
      Outline.looksStructural cs = false := by
  simp only [plainHolds, Outline.needsEscapes, Bool.not_eq_true', Bool.or_eq_false_iff,
    List.any_eq_false, Bool.not_eq_true, Bool.not_eq_false, beq_eq_false_iff_ne, ne_eq,
    forall_and]
  tauto

/-- A text that does not begin with three marks does not open or close a document. -/
theorem not_startsDocumentMark {cs tail : List Char} {d : Char} (hd : d ≠ endChar)
    (hmark : [d, d, d].isPrefixOf cs = false) (hne : cs ≠ []) (htail : ∀ c ∈ tail.head?, c ≠ d)
    (m : Mark) : Source.startsDocumentMark (laid m (cs ++ tail)) d = false := by
  have hnext : ∀ m : Mark, (Source.char (laid m tail) == d) = false := by
    intro m
    cases tail with
    | nil => simpa using hd.symm
    | cons c tail => simpa using htail c rfl
  match cs, hne with
  | [a], _ => simp [Source.startsDocumentMark, hnext]
  | [a, b], _ => simp [Source.startsDocumentMark, hnext]
  | a :: b :: c :: cs, _ =>
    simp only [List.isPrefixOf, Bool.and_true, Bool.and_eq_false_imp, beq_iff_eq] at hmark
    simp only [Source.startsDocumentMark, List.cons_append, Source.char_laid_cons,
      Source.charAt_laid_cons, Source.charAt_laid_zero, Bool.and_eq_false_imp, Bool.and_eq_true,
      beq_iff_eq, and_imp]
    rintro - rfl rfl rfl
    exact absurd (hmark rfl rfl) (by simp)

/-- **What is read of a plain text.** Only its first character may stand further left than the text
has to. -/
theorem plainFrom_laid {cs tail : List Char} {m start : Mark} {margin : Nat}
    (hholds : plainHolds cs = true) (hne : cs ≠ []) (hmargin : margin ≤ m.column + 1)
    (htail : ∀ c ∈ tail.head?, c ≠ '-' ∧ c ≠ '.') :
    plainFrom false start margin .start [] .none (laid m (cs ++ tail)) =
      plainFrom false start margin .word cs.reverse .none (laid (m.past cs) tail) := by
  obtain ⟨hsafe, hhead, hlast, -, hstructural⟩ := plainHolds_iff.mp hholds
  cases cs with
  | nil => exact absurd rfl hne
  | cons c cs =>
    rw [List.forall_mem_cons] at hsafe
    have hc : c ≠ ' ' := by simpa using hhead
    obtain ⟨hwhite, hbreak, hstop⟩ := solid_of_isSafe hsafe.1.1 hsafe.1.2 hc
    simp only [Outline.looksStructural, Bool.or_eq_false_iff] at hstructural
    obtain ⟨⟨hdashes, hdots⟩, ⟨hindicator, hmark⟩, hinner⟩ := hstructural
    have hnumber : c ≠ '#' := by
      rintro rfl
      exact absurd hindicator (by decide)
    have hdocument : Source.atDocumentMark (laid m (c :: cs ++ tail)) = false := by
      rw [Source.atDocumentMark, Bool.or_eq_false_iff]
      exact ⟨not_startsDocumentMark (by decide) hdashes hne (fun c hc => (htail c hc).1) m,
        not_startsDocumentMark (by decide) hdots hne (fun c hc => (htail c hc).2) m⟩
    have hcolon : (c == ':' && isGap (Source.char (laid (m.after c) (cs ++ tail)))) = false := by
      by_cases hcolon : c = ':'
      · subst hcolon
        have hnext : separatedNext cs = false := by simpa using hmark
        cases cs with
        | nil => exact absurd hnext (by decide)
        | cons d cs =>
          rw [List.cons_append, Source.char_laid_cons, isGap_eq_false_of_separates hnext,
            Bool.and_false]
      · simp [hcolon]
    have hstep : plainFrom false start margin .start [] .none (laid m (c :: cs ++ tail)) =
        plainFrom false start margin .word [c] .none (laid (m.after c) (cs ++ tail)) := by
      rw [List.cons_append, laid] at hdocument ⊢
      rw [plainFrom]
      simp [hwhite, hbreak, hnumber, hdocument, hcolon, hstop, Fold.none, Fold.text]
    have hafter : (m.after c).column = m.column + 1 := by
      rw [Mark.after_of_not_isBreak hbreak]
      rfl
    have hwords := plainFrom_words start margin tail [] [c] (m := m.after c)
      (Or.inr ⟨hc, rfl, rfl⟩) hsafe.2 hinner hlast (by omega) (by omega)
    rw [hstep, List.reverse_cons, Mark.past_cons]
    exact hwords

/-- **A plain text that ends with its line is read back**, with the spaces that begin the next
one. -/
theorem scanPlain_line (margin : Nat) {cs tail : List Char} {m : Mark} {k : Nat}
    (hholds : plainHolds cs = true) (hne : cs ≠ []) (hmargin : margin ≤ m.column + 1)
    (hk : k < margin) (htail : Stands tail) :
    scanPlain false margin (laid m (cs ++ '\n' :: (spaces k ++ tail))) =
      .ok ⟨cs, laid (m.past (cs ++ '\n' :: spaces k)) tail, true⟩ := by
  rw [scanPlain, plainFrom_laid hholds hne hmargin (by simp), plainFrom_line hk htail,
    Mark.past_append]
  simp [Except.map]

/-- **A plain text that is a key is read back.** -/
theorem scanPlain_colon (tail : List Char) {cs : List Char} {m : Mark} {margin : Nat}
    (hholds : plainHolds cs = true) (hne : cs ≠ []) (hmargin : margin ≤ m.column + 1)
    (hgap : ∀ m : Mark, isGap (Source.char (laid m tail)) = true) :
    scanPlain false margin (laid m (cs ++ ':' :: tail)) =
      .ok ⟨cs, laid (m.past cs) (':' :: tail), false⟩ := by
  rw [scanPlain, plainFrom_laid hholds hne hmargin (by simp), plainFrom_colon (hgap _)]
  simp [Except.map]

end Provision.Yaml
