import Provision.Proofs.Yaml.Readback.Source
import Provision.Yaml.Token.Scalar

/-!
# Quoted text is read back

Between single quotes a quote is doubled, and a line that ends is followed by a margin, which the
reader leaves out again. Between double quotes a character that is not safe is an escape, and
each of the escapes that are written stands for its character.

> `scanQuoted_single`, `scanQuoted_double`: what is written between quotes is read back.
-/

namespace Provision.Yaml

open Outline (isSafe endsLine spaces hasPair escaped singleBody)
open Source (laid)

/-! ## One step -/

section Steps

variable {quote : Char} {start : Mark} {mode : QuotedMode} {acc : List Char} {fold : Fold}
  {c : Char} {m : Mark} {rest : List Char}

/-- Whether the reader is neither inside of an escape nor of a doubled quote. -/
def QuotedMode.Reading (mode : QuotedMode) : Prop := mode = .start ∨ mode = .word ∨ mode = .gap

/-- What a character does where the reader is neither inside of an escape nor of a doubled quote. -/
theorem quotedFrom_reading (hmode : mode.Reading) (x : Located) (rest : Source) :
    quotedFrom quote start mode acc fold (x :: rest) =
      if isWhite x.char then quotedFrom quote start .gap acc (fold.white x.char) rest
      else if isBreak x.char then quotedFrom quote start .gap acc (fold.lineBreak x.char) rest
      else if mode.opensPiece && Source.atDocumentMark (x :: rest) then
        .error (.inside .quotedScalar start .documentIndicator x.mark)
      else if x.char == endChar then .error (.inside .quotedScalar start .streamEnd x.mark)
      else if x.char == quote then
        if quote == '\'' && Source.char rest == '\'' then
          quotedFrom quote start .doubled (fold.text.reverse ++ acc) .none rest
        else .ok { text := (fold.text.reverse ++ acc).reverse, rest := rest }
      else if quote == '"' && x.char == '\\' then
        quotedFrom quote start (.escape x.mark) (fold.text.reverse ++ acc) .none rest
      else quotedFrom quote start .word (x.char :: (fold.text.reverse ++ acc)) .none rest := by
  rcases hmode with rfl | rfl | rfl <;> rfl

theorem quotedFrom_white (quote : Char) (start : Mark) (acc : List Char) (fold : Fold)
    (rest : List Char) (hmode : mode.Reading) (hc : isWhite c = true) :
    quotedFrom quote start mode acc fold (laid m (c :: rest)) =
      quotedFrom quote start .gap acc (fold.white c) (laid (m.after c) rest) := by
  simp [laid, quotedFrom_reading hmode, hc]

theorem quotedFrom_break (hmode : mode.Reading) (hc : isBreak c = true) :
    quotedFrom quote start mode acc fold (laid m (c :: rest)) =
      quotedFrom quote start .gap acc (fold.lineBreak c) (laid (m.after c) rest) := by
  have hwhite : isWhite c = false := by
    by_contra h
    rw [Bool.not_eq_false, isWhite, Bool.or_eq_true, beq_iff_eq, beq_iff_eq] at h
    rcases h with rfl | rfl <;> exact absurd hc (by decide)
  simp [laid, quotedFrom_reading hmode, hc, hwhite]

/-- A character that means nothing else is text. -/
theorem quotedFrom_char (quote : Char) (start : Mark) (acc : List Char) (fold : Fold)
    (rest : List Char) (hmode : mode.Reading) (hwhite : isWhite c = false)
    (hbreak : isBreak c = false) (hend : c ≠ endChar) (hcolumn : 0 < m.column) (hquote : c ≠ quote)
    (hescape : quote = '"' → c ≠ '\\') :
    quotedFrom quote start mode acc fold (laid m (c :: rest)) =
      quotedFrom quote start .word (c :: (fold.text.reverse ++ acc)) .none
        (laid (m.after c) rest) := by
  have hdocument := Source.atDocumentMark_eq_false hcolumn (c :: rest)
  have hbackslash : (quote == '"' && c == '\\') = false := by
    by_cases hq : quote = '"'
    · simp [hescape hq]
    · simp [hq]
  rw [laid] at hdocument ⊢
  simp [quotedFrom_reading hmode, hwhite, hbreak, hend, hquote, hdocument, hbackslash]

/-- A quote ends the text, unless it is doubled. -/
theorem quotedFrom_close (quote : Char) (start : Mark) (acc : List Char) (fold : Fold)
    (rest : List Char) (hmode : mode.Reading) (hquote : quote = '\'' ∨ quote = '"')
    (hcolumn : 0 < m.column)
    (hnext : quote = '\'' → Source.char (laid (m.after quote) rest) ≠ '\'') :
    quotedFrom quote start mode acc fold (laid m (quote :: rest)) =
      .ok ⟨acc.reverse ++ fold.text, laid (m.after quote) rest, false⟩ := by
  have hdocument := Source.atDocumentMark_eq_false hcolumn (quote :: rest)
  rw [laid] at hdocument ⊢
  rw [quotedFrom_reading hmode]
  rcases hquote with rfl | rfl <;> simp [hdocument, hnext, isWhite, isBreak, endChar]

/-- A doubled quote is one. -/
theorem quotedFrom_doubled (start : Mark) (acc : List Char) (fold : Fold) (rest : List Char)
    (hmode : mode.Reading) (hcolumn : 0 < m.column) :
    quotedFrom '\'' start mode acc fold (laid m ('\'' :: '\'' :: rest)) =
      quotedFrom '\'' start .word ('\'' :: (fold.text.reverse ++ acc)) .none
        (laid ((m.after '\'').after '\'') rest) := by
  have hdocument := Source.atDocumentMark_eq_false hcolumn ('\'' :: '\'' :: rest)
  rw [laid, laid] at hdocument ⊢
  rw [quotedFrom_reading hmode]
  simp [quotedFrom, hdocument, isWhite, isBreak, endChar, Source.char]

theorem quotedFrom_backslash (hmode : mode.Reading) (hcolumn : 0 < m.column) :
    quotedFrom '"' start mode acc fold (laid m ('\\' :: rest)) =
      quotedFrom '"' start (.escape m) (fold.text.reverse ++ acc) .none
        (laid (m.after '\\') rest) := by
  have hdocument := Source.atDocumentMark_eq_false hcolumn ('\\' :: rest)
  rw [laid] at hdocument ⊢
  rw [quotedFrom_reading hmode]
  simp [hdocument, isWhite, isBreak, endChar]

end Steps

/-! ## Single quotes -/

/-- What has been seen between the last word and the next one: nothing, spaces, or lines, of
which a line feed that comes first is followed by another one. -/
inductive Between : Char → Fold → List Char → Prop
  | word {before : Char} (space : before ≠ ' ') (line : endsLine before = false) :
    Between before .none []
  | spaces {gap : List Char} : Between ' ' { spaces := gap } gap
  | lines {before first : Char} {more : List Char} (line : endsLine before = true)
    (other : first ≠ '\n') :
    Between before { broken := true, first := [first], more := more } (first :: more)
  | feeds {before : Char} {more : List Char} (line : endsLine before = true) (some : more ≠ []) :
    Between before { broken := true, first := ['\n'], more := more } more

theorem Between.text {before : Char} {fold : Fold} {gap : List Char} (h : Between before fold gap) :
    fold.text = gap := by
  cases h with
  | word => rfl
  | spaces => rfl
  | lines line other => simp [Fold.text, other]
  | feeds line some => simp [Fold.text, some]

/-- A line has ended exactly where the character before ends one. -/
theorem Between.broken {before : Char} {fold : Fold} {gap : List Char}
    (h : Between before fold gap) : fold.broken = endsLine before := by
  cases h with
  | word space line => rw [line]; rfl
  | spaces => rfl
  | lines line other => rw [line]
  | feeds line some => rw [line]

/-- On a line, spaces are all that has been seen. -/
theorem Between.eq_spaces {before : Char} {fold : Fold} {gap : List Char}
    (h : Between before fold gap) (hline : endsLine before = false) : fold = { spaces := gap } := by
  cases h with
  | word => rfl
  | spaces => rfl
  | lines line other => simp [line] at hline
  | feeds line some => simp [line] at hline

/-- A break after a word or a line, as single quotes write it. -/
theorem quotedFrom_between_break (start : Mark) (acc rest : List Char) {mode : QuotedMode}
    {gap : List Char} {fold : Fold} {before c : Char} {m : Mark} (hmode : mode.Reading)
    (hbetween : Between before fold gap) (hspace : before ≠ ' ') (hline : endsLine c = true)
    (hc : isBreak c = true) : ∃ fold', Between c fold' (gap ++ [c]) ∧
      quotedFrom '\'' start mode acc fold (laid m ((if c == '\n' && !endsLine before then ['\n']
        else []) ++ c :: rest)) =
      quotedFrom '\'' start .gap acc fold' (laid ((m.past (if c == '\n' && !endsLine before then
        ['\n'] else [])).after c) rest) := by
  cases hbetween with
  | spaces => exact absurd rfl hspace
  | word _ line =>
    by_cases hfeed : c = '\n'
    · subst hfeed
      refine ⟨_, .feeds hline (List.cons_ne_nil '\n' []), ?_⟩
      rw [line]
      simp only [beq_self_eq_true, Bool.not_false, Bool.and_self, if_true, List.cons_append,
        List.nil_append, Mark.past_cons, Mark.past_nil]
      rw [quotedFrom_break hmode hc, quotedFrom_break (.inr (.inr rfl)) hc]
      rfl
    · refine ⟨_, .lines hline hfeed, ?_⟩
      simp only [hfeed, beq_iff_eq, Bool.and_eq_true, false_and, if_false, List.nil_append,
        Mark.past_nil]
      rw [quotedFrom_break hmode hc]
      rfl
  | lines line other =>
    refine ⟨_, .lines hline other, ?_⟩
    rw [line, Bool.not_true, Bool.and_false]
    simp only [Bool.false_eq_true, if_false, List.nil_append, Mark.past_nil]
    rw [quotedFrom_break hmode hc]
    rfl
  | feeds line some =>
    refine ⟨_, .feeds hline (List.append_ne_nil_of_right_ne_nil gap (List.cons_ne_nil c [])), ?_⟩
    rw [line, Bool.not_true, Bool.and_false]
    simp only [Bool.false_eq_true, if_false, List.nil_append, Mark.past_nil]
    rw [quotedFrom_break hmode hc]
    rfl

/-- The margin of a line is left out. -/
theorem quotedFrom_margin {quote : Char} {start : Mark} {acc : List Char} {fold : Fold}
    (hbroken : fold.broken = true) : ∀ {margin : Nat} {m : Mark} {rest : List Char},
      quotedFrom quote start .gap acc fold (laid m (spaces margin ++ rest)) =
        quotedFrom quote start .gap acc fold (laid (m.past (spaces margin)) rest) := by
  intro margin
  induction margin with
  | zero => intros; rfl
  | succ margin ih =>
    intro m rest
    have hwhite : fold.white ' ' = fold := by rw [Fold.white, hbroken, if_pos rfl]
    rw [spaces, List.replicate_succ, List.cons_append,
      quotedFrom_white _ _ _ _ _ (.inr (.inr rfl)) rfl, hwhite]
    exact ih

/-- The margin that stands before a word, or before the end, where a line has ended. -/
theorem quotedFrom_indent (start : Mark) (acc tail : List Char) {margin : Nat} {mode : QuotedMode}
    {gap : List Char} {fold : Fold} {before : Char} {m : Mark} (hmargin : 0 < margin)
    (hbetween : Between before fold gap)
    (hgap : endsLine before = true → mode = .gap)
    (hcolumn : endsLine before = false → 0 < m.column) :
    0 < (m.past (if endsLine before then spaces margin else [])).column ∧
      quotedFrom '\'' start mode acc fold
          (laid m ((if endsLine before then spaces margin else []) ++ tail)) =
        quotedFrom '\'' start mode acc fold
          (laid (m.past (if endsLine before then spaces margin else [])) tail) := by
  cases hline : endsLine before with
  | false => exact ⟨hcolumn hline, rfl⟩
  | true =>
    rw [hgap hline, if_pos rfl]
    refine ⟨?_, quotedFrom_margin (hbetween.broken.trans hline)⟩
    rw [Mark.past_solid Mark.not_isBreak_of_mem_spaces]
    simp [spaces]
    omega

/-- A character of a word, as single quotes write it. -/
theorem quotedFrom_single_char (start : Mark) (acc tail : List Char) {mode : QuotedMode}
    {fold : Fold} {c : Char} {m : Mark} (hmode : mode.Reading) (hcolumn : 0 < m.column)
    (hsafe : isSafe c = true) (hline : endsLine c = false) (hblank : c ≠ ' ') :
    0 < (m.past (if c == '\'' then ['\'', '\''] else [c])).column ∧
      quotedFrom '\'' start mode acc fold
          (laid m ((if c == '\'' then ['\'', '\''] else [c]) ++ tail)) =
        quotedFrom '\'' start .word (c :: (fold.text.reverse ++ acc)) .none
          (laid (m.past (if c == '\'' then ['\'', '\''] else [c])) tail) := by
  by_cases hquote : c = '\''
  · subst hquote
    exact ⟨Nat.succ_pos _, quotedFrom_doubled start acc fold tail hmode hcolumn⟩
  · obtain ⟨hwhite, hbreak, hend⟩ := solid_of_isSafe hsafe hline hblank
    rw [if_neg (by simpa using hquote)]
    refine ⟨?_, quotedFrom_char '\'' start acc fold tail hmode hwhite hbreak hend hcolumn hquote
      fun h => absurd h (by decide)⟩
    rw [Mark.past_cons, Mark.past_nil, Mark.after_of_not_isBreak hbreak]
    exact Nat.succ_pos _

/-- **What is read between single quotes.** Along the text, with what has been seen since the last
word. -/
theorem quotedFrom_single (start : Mark) {margin : Nat} {rest : List Char} (hmargin : 0 < margin)
    (hrest : ∀ m : Mark, Source.char (laid m rest) ≠ '\'') {cs : List Char} :
    ∀ (before : Char) {mode : QuotedMode} {fold : Fold} (acc gap : List Char) {m : Mark},
      Between before fold gap → mode.Reading → (endsLine before = true → mode = .gap) →
      (endsLine before = false → 0 < m.column) → (∀ c ∈ cs, isSafe c = true) →
      hasPair (· == ' ') endsLine (before :: cs) = false →
      hasPair endsLine (· == ' ') (before :: cs) = false →
      quotedFrom '\'' start mode acc fold
          (laid m (singleBody margin (endsLine before) cs ++ '\'' :: rest)) =
        .ok ⟨acc.reverse ++ gap ++ cs,
          laid (m.past (singleBody margin (endsLine before) cs ++ ['\''])) rest, false⟩ := by
  induction cs with
  | nil =>
    intro before mode fold acc gap m hbetween hmode hgap hcolumn _ _ _
    obtain ⟨hright, hindent⟩ :=
      quotedFrom_indent start acc ('\'' :: rest) hmargin hbetween hgap hcolumn
    rw [singleBody, hindent, quotedFrom_close _ _ _ _ _ hmode (.inl rfl) hright fun _ => hrest _,
      hbetween.text, List.append_nil, Mark.past_append]
    rfl
  | cons c cs ih =>
    intro before mode fold acc gap m hbetween hmode hgap hcolumn hsafe hspace hspace'
    rw [List.forall_mem_cons] at hsafe
    rw [hasPair, Bool.or_eq_false_iff] at hspace hspace'
    by_cases hline : endsLine c = true
    · have hbefore : before ≠ ' ' := by
        rintro rfl
        simp [hline] at hspace
      have hbody : singleBody margin (endsLine before) (c :: cs) =
          (if c == '\n' && !endsLine before then ['\n'] else []) ++
            c :: singleBody margin (endsLine c) cs := by
        rw [singleBody, if_pos hline, hline]
      obtain ⟨fold', hbetween', hstep⟩ := quotedFrom_between_break start acc
        (singleBody margin (endsLine c) cs ++ '\'' :: rest) (m := m) hmode hbetween hbefore
        hline ((endsLine_eq_isBreak hsafe.1).symm.trans hline)
      rw [hbody, List.append_assoc, List.cons_append, hstep,
        ih _ _ _ hbetween' (.inr (.inr rfl)) (fun _ => rfl) (fun h => absurd hline (by simp [h]))
          hsafe.2 hspace.2 hspace'.2]
      simp [Mark.past_append]
    · have hline : endsLine c = false := by simpa using hline
      have hbody : singleBody margin (endsLine before) (c :: cs) =
          (if endsLine before then spaces margin else []) ++
            ((if c == '\'' then ['\'', '\''] else [c]) ++ singleBody margin (endsLine c) cs) := by
        rw [singleBody, if_neg (by simp [hline]), hline, List.append_assoc]
      by_cases hblank : c = ' '
      · -- a space stands on a line that has begun
        subst hblank
        have hbefore : endsLine before = false := by simpa using hspace'.1
        obtain rfl := hbetween.eq_spaces hbefore
        have hstep := quotedFrom_white '\'' start acc { spaces := gap }
          (singleBody margin (endsLine ' ') cs ++ '\'' :: rest) (c := ' ') (m := m) hmode rfl
        have hrest := ih ' ' acc (gap ++ [' ']) (m := m.after ' ') .spaces
          (.inr (.inr rfl)) (fun h => absurd h (by decide)) (fun _ => Nat.succ_pos _) hsafe.2
          hspace.2 hspace'.2
        rw [hbody, hbefore]
        refine (hstep.trans hrest).trans ?_
        simp
      · -- a word goes on behind the margin
        obtain ⟨hright, hindent⟩ := quotedFrom_indent start acc
          ((if c == '\'' then ['\'', '\''] else [c]) ++
            (singleBody margin (endsLine c) cs ++ '\'' :: rest)) hmargin hbetween hgap hcolumn
        obtain ⟨hafter, hword⟩ := quotedFrom_single_char start acc
          (singleBody margin (endsLine c) cs ++ '\'' :: rest) hmode hright hsafe.1 hline hblank
        rw [hbody, List.append_assoc, List.append_assoc, hindent, hword,
          ih c _ [] (.word hblank hline) (.inr (.inl rfl)) (fun h => absurd h (by simp [hline]))
            (fun _ => hafter) hsafe.2 hspace.2 hspace'.2, hbetween.text]
        simp [Mark.past_append]

/-- What single quotes can hold, part by part. -/
theorem singleHolds_iff {cs : List Char} : Outline.singleHolds cs = true ↔
    (∀ c ∈ cs, isSafe c = true) ∧ hasPair (· == ' ') endsLine cs = false ∧
      hasPair endsLine (· == ' ') cs = false := by
  simp only [Outline.singleHolds, Outline.needsEscapes, Bool.not_eq_true', Bool.or_eq_false_iff,
    List.any_eq_false, Bool.not_eq_false, and_assoc]

/-- A pair does not begin before a text if its first part is not that character. -/
theorem hasPair_cons {p q : Char → Bool} {a : Char} (h : p a = false) (cs : List Char) :
    hasPair p q (a :: cs) = hasPair p q cs := by
  cases cs with
  | nil => rfl
  | cons b cs => rw [hasPair, h, Bool.false_and, Bool.false_or]

/-- **What is written between single quotes is read back.** -/
theorem scanQuoted_single {cs rest : List Char} {m : Mark} {margin : Nat}
    (hholds : Outline.singleHolds cs = true) (hmargin : 0 < margin)
    (hrest : ∀ m : Mark, Source.char (laid m rest) ≠ '\'') :
    scanQuoted (laid m ('\'' :: (singleBody margin false cs ++ '\'' :: rest))) =
      .ok ⟨cs, laid (m.past ('\'' :: (singleBody margin false cs ++ ['\'']))) rest, false⟩ := by
  obtain ⟨hsafe, hspace, hspace'⟩ := singleHolds_iff.mp hholds
  -- the quote stands for the character before
  have hread := quotedFrom_single m hmargin hrest '\'' [] [] (m := m.after '\'')
    (.word (by decide) (by decide)) (.inl rfl) (fun h => absurd h (by decide))
    (fun _ => Nat.succ_pos _) hsafe ((hasPair_cons rfl cs).trans hspace)
    ((hasPair_cons rfl cs).trans hspace')
  have hquote : endsLine '\'' = false := by decide
  rw [hquote] at hread
  simpa [scanQuoted] using hread

/-- On one line no margin is written. -/
theorem singleBody_of_line (cs : List Char) (h : ∀ c ∈ cs, endsLine c = false)
    (margin margin' : Nat) : singleBody margin false cs = singleBody margin' false cs := by
  induction cs with
  | nil => rfl
  | cons c cs ih =>
    rw [List.forall_mem_cons] at h
    simp [singleBody, h.1, ih h.2]

/-! ## Escapes -/

/-- The character that an escape stands for, without its backslash. -/
def unescape : List Char → Option Char
  | [] => none
  | x :: digits =>
    match escape? x with
    | none => none
    | some (.char c) => if digits.isEmpty then some c else none
    | some (.code n) =>
      if n = digits.length ∧ 0 < n then do
        let v := (← digits.mapM hexValue?).foldl (fun v d => 16 * v + d) 0
        if v.isValidChar then some (Char.ofNat v) else none
      else none

section

variable {start first : Mark} {acc : List Char} {fold : Fold} {rest : List Char}

/-- The digits of an escape are read one by one. -/
theorem quotedFrom_code {digits : List Char} {ds : List Nat} :
    ∀ {value : Nat} {m : Mark}, digits.mapM hexValue? = some ds → digits ≠ [] →
      (ds.foldl (fun v d => 16 * v + d) value).isValidChar →
      quotedFrom '"' start (.code digits.length value first) acc fold (laid m (digits ++ rest)) =
        quotedFrom '"' start .word
          (Char.ofNat (ds.foldl (fun v d => 16 * v + d) value) :: acc) .none
          (laid (m.past digits) rest) := by
  induction digits generalizing ds fold with
  | nil => exact fun _ h => absurd rfl h
  | cons c digits ih =>
    intro value m hdigits _ hvalid
    rw [List.mapM_cons, Option.bind_eq_bind, Option.bind_eq_some_iff] at hdigits
    obtain ⟨d, hd, hdigits⟩ := hdigits
    obtain ⟨ds', hds, hdigits⟩ := Option.bind_eq_some_iff.mp hdigits
    obtain rfl := Option.some.inj hdigits
    rw [List.cons_append, laid, quotedFrom]
    simp only [hd, List.length_cons, Nat.add_sub_cancel]
    cases digits with
    | nil =>
      obtain rfl : ds' = [] := by simpa using hds.symm
      have hvalid : (16 * value + d).isValidChar := hvalid
      rw [if_neg (by simp), if_pos hvalid]
      rfl
    | cons c' digits =>
      rw [if_pos (by simp)]
      exact ih hds (List.cons_ne_nil _ _) hvalid

theorem isBreak_eq_false_of_escape? {x : Char} (h : escape? x ≠ none) : isBreak x = false := by
  by_contra hbreak
  rw [Bool.not_eq_false, isBreak, Bool.or_eq_true, Bool.or_eq_true, beq_iff_eq, beq_iff_eq,
    beq_iff_eq] at hbreak
  rcases hbreak with (rfl | rfl) | rfl <;> exact h (by decide)

/-- **An escape is read as the character that it stands for.** -/
theorem quotedFrom_escape {body : List Char} {c : Char} {m : Mark}
    (hbody : unescape body = some c) :
    quotedFrom '"' start (.escape first) acc fold (laid m (body ++ rest)) =
      quotedFrom '"' start .word (c :: acc) .none (laid (m.past body) rest) := by
  unfold unescape at hbody
  split at hbody
  · cases hbody
  next x digits =>
    split at hbody
    · cases hbody
    next hx =>
      split at hbody
      next hdigits =>
        obtain rfl := Option.some.inj hbody
        obtain rfl := List.isEmpty_iff.mp hdigits
        have hbreak := isBreak_eq_false_of_escape? (by rw [hx]; exact Option.some_ne_none _)
        simp [laid, quotedFrom, hbreak, hx]
      next => cases hbody
    next n hx =>
      split at hbody
      next hdigits =>
        obtain ⟨rfl, hpos⟩ := hdigits
        obtain ⟨ds, hds, hbody⟩ := Option.bind_eq_some_iff.mp hbody
        dsimp only at hbody
        split at hbody
        next hvalid =>
          obtain rfl := Option.some.inj hbody
          have hbreak := isBreak_eq_false_of_escape? (by rw [hx]; exact Option.some_ne_none _)
          rw [List.cons_append, laid, quotedFrom]
          simp only [hbreak, hx, Bool.false_eq_true, if_false]
          exact quotedFrom_code hds (List.ne_nil_of_length_pos hpos) hvalid
        next => cases hbody
      next => cases hbody

/-- The characters that are written as escapes. -/
theorem not_isSafe_cases {c : Char} (h : isSafe c = false) :
    (∃ n < 0x20, c = Char.ofNat n) ∨ (∃ n < 0x21, c = Char.ofNat (0x7F + n)) ∨
      c = '\uFEFF' ∨ c = '\uFFFE' ∨ c = '\uFFFF' := by
  have hnat : ∀ {n : Nat}, c.toNat = n → c = Char.ofNat n := fun h => by
    rw [← h, Char.ofNat_toNat]
  have hsurrogate : c.toNat < 0xD800 ∨ 0xDFFF < c.toNat := by
    rcases c.valid with h | h
    · exact .inl h
    · exact .inr h.1
  simp only [isSafe, Bool.or_eq_false_iff, Bool.and_eq_false_iff, beq_eq_false_iff_ne,
    bne_eq_false_iff_eq, decide_eq_false_iff_not, ne_eq] at h
  by_cases hlow : c.toNat < 0x20
  · exact .inl ⟨c.toNat, hlow, hnat rfl⟩
  by_cases hmiddle : c.toNat < 0xA0
  · exact .inr (.inl ⟨c.toNat - 0x7F, by omega, hnat (by omega)⟩)
  · have : c.toNat = 0xFEFF ∨ c.toNat = 0xFFFE ∨ c.toNat = 0xFFFF := by omega
    rcases this with h | h | h
    · exact .inr (.inr (.inl (hnat h)))
    · exact .inr (.inr (.inr (.inl (hnat h))))
    · exact .inr (.inr (.inr (.inr (hnat h))))

/-- Whether a character is written as an escape that stands for it, is on one line and not much
longer. -/
abbrev IsEscaped (c : Char) : Prop :=
  escaped c = '\\' :: (escaped c).tail ∧ unescape (escaped c).tail = some c ∧
    (∀ d ∈ (escaped c).tail, isBreak d = false) ∧
      (∀ d ∈ escaped c, isSafe d = true ∧ endsLine d = false) ∧
        String.utf8Len (escaped c) ≤ 4 * c.utf8Size

/-- **Every escape that is written stands for its character.** There are few enough of them to be
looked at one by one. -/
theorem escaped_cases (c : Char) :
    (escaped c = [c] ∧ isSafe c = true ∧ endsLine c = false ∧ c ≠ '"' ∧ c ≠ '\\') ∨
      IsEscaped c := by
  have hlow : ∀ n < 0x20, IsEscaped (Char.ofNat n) := by decide
  have hmiddle : ∀ n < 0x21, IsEscaped (Char.ofNat (0x7F + n)) := by decide
  have hothers : ∀ c ∈ ['\uFEFF', '\uFFFE', '\uFFFF', '"', '\\', '\u2028', '\u2029'],
      IsEscaped c := by
    decide
  cases hsafe : isSafe c with
  | false =>
    right
    rcases not_isSafe_cases hsafe with ⟨n, hn, rfl⟩ | ⟨n, hn, rfl⟩ | rfl | rfl | rfl
    · exact hlow n hn
    · exact hmiddle n hn
    · exact hothers _ (by simp)
    · exact hothers _ (by simp)
    · exact hothers _ (by simp)
  | true =>
    by_cases hquote : c = '"'
    · exact .inr (hothers c (by simp [hquote]))
    by_cases hbackslash : c = '\\'
    · exact .inr (hothers c (by simp [hbackslash]))
    cases hline : endsLine c with
    | false =>
      left
      refine ⟨?_, rfl, rfl, hquote, hbackslash⟩
      exact if_pos (by simp [hsafe, hline, hquote, hbackslash])
    | true =>
      right
      have hbreak := (endsLine_eq_isBreak hsafe).symm.trans hline
      rw [isBreak, Bool.or_eq_true, Bool.or_eq_true, beq_iff_eq, beq_iff_eq, beq_iff_eq] at hbreak
      rcases hbreak with (rfl | rfl) | rfl
      · exact hlow 10 (by decide)
      · exact hothers _ (by simp)
      · exact hothers _ (by simp)

/-! ## Double quotes -/

/-- **What is read between double quotes.** Along the text, with the spaces since the last word. -/
theorem quotedFrom_double (start : Mark) (cs rest : List Char) :
    ∀ {mode : QuotedMode} (acc gap : List Char) {m : Mark}, mode.Reading → 0 < m.column →
      quotedFrom '"' start mode acc { spaces := gap } (laid m (cs.flatMap escaped ++ '"' :: rest)) =
        .ok ⟨acc.reverse ++ gap ++ cs, laid (m.past (cs.flatMap escaped ++ ['"']))
          rest, false⟩ := by
  induction cs with
  | nil =>
    intro mode acc gap m hmode hcolumn
    have hclose := quotedFrom_close '"' start acc { spaces := gap } rest hmode (.inr rfl) hcolumn
      (fun h => absurd h (by decide))
    have htext : Fold.text { spaces := gap } = gap := rfl
    simpa [htext] using hclose
  | cons c cs ih =>
    intro mode acc gap m hmode hcolumn
    have htext : Fold.text { spaces := gap } = gap := rfl
    rw [List.flatMap_cons, List.append_assoc]
    obtain ⟨hself, hsafe, hline, hquote, hbackslash⟩ | ⟨hbody, hmeans, hline, -⟩ := escaped_cases c
    · rw [hself, List.singleton_append]
      by_cases hblank : c = ' '
      · subst hblank
        rw [quotedFrom_white _ _ _ _ _ hmode rfl]
        have hrest := ih acc (gap ++ [' ']) (m := m.after ' ') (.inr (.inr rfl))
          (Nat.succ_pos _)
        exact hrest.trans (by simp)
      · obtain ⟨hwhite, hbreak, hend⟩ := solid_of_isSafe hsafe hline hblank
        rw [quotedFrom_char _ _ _ _ _ hmode hwhite hbreak hend hcolumn hquote fun _ => hbackslash,
          htext]
        have hrest := ih (c :: (gap.reverse ++ acc)) [] (m := m.after c)
          (.inr (.inl rfl)) (by rw [Mark.after_of_not_isBreak hbreak]; exact Nat.succ_pos _)
        exact hrest.trans (by simp)
    · rw [hbody, List.cons_append, quotedFrom_backslash hmode hcolumn, quotedFrom_escape hmeans,
        htext]
      have hright : 0 < ((m.after '\\').past (escaped c).tail).column := by
        rw [Mark.past_solid hline]
        exact Nat.add_pos_left (Nat.succ_pos _) _
      have hrest := ih (c :: (gap.reverse ++ acc)) []
        (m := (m.after '\\').past (escaped c).tail) (.inr (.inl rfl)) hright
      exact hrest.trans (by simp [Mark.past_append])

end

/-- **What is written between double quotes is read back.** -/
theorem scanQuoted_double {cs rest : List Char} {m : Mark} :
    scanQuoted (laid m ('"' :: (cs.flatMap escaped ++ '"' :: rest))) =
      .ok ⟨cs, laid (m.past ('"' :: (cs.flatMap escaped ++ ['"']))) rest, false⟩ := by
  have hread := quotedFrom_double m cs rest [] []
    (m := m.after '"') (.inl rfl) (Nat.succ_pos _)
  rw [scanQuoted, Source.char_laid_cons, Source.mark_laid]
  exact hread

end Provision.Yaml
