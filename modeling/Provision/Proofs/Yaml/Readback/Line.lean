import Provision.Proofs.Yaml.Readback.Leaf

/-!
# Scalars as values and as keys

A scalar that is a value ends its line, and what comes next begins another one. A scalar that is a
key has no line ends and is short, so that it is still a possible key at the colon after it.

> `reads_value`: a scalar up to the next line;
> `reads_key`: a scalar up to the colon after it.
-/

namespace Provision.Yaml.Scanner

open Outline (isSafe endsLine spaces settle scalarText endsItself)
open Source (laid)

variable {blocks : List Nat} {key : Option Key} {allowed : Bool} {m : Mark} {rest : List Char}
  {tokens : List Placed}

/-! ## The ends of lines -/

/-- Whether a key that may have begun has not to be one, and is not on a later line. -/
def Idle (key : Option Key) (m : Mark) : Prop :=
  ∀ k ∈ key, k.required = false ∧ k.mark.line ≤ m.line

theorem idle_none (m : Mark) : Idle none m := by simp [Idle]

theorem Idle.spare (h : Idle key m) (m' : Mark) : Key.Spare key m' := fun k hk hrequired => by
  rw [(h k hk).1] at hrequired
  exact nomatch hrequired

/-- On a later line no key is left. -/
theorem Idle.fresh (h : Idle key m) {m' : Mark} (hline : m.line < m'.line) :
    Key.fresh key m' = none := by
  cases key with
  | none => rfl
  | some k =>
    have hle := (h k rfl).2
    have hstale : k.stale m' = true := by
      simp only [Key.stale, Bool.or_eq_true, decide_eq_true_eq]
      omega
    rw [Key.fresh, if_pos hstale]

theorem Idle.past (h : Idle key m) (w : List Char) : Idle key (m.past w) := fun k hk =>
  ⟨(h k hk).1, Nat.le_trans (h k hk).2 (Mark.line_le_past m w)⟩

/-- What remains of an idle key is idle, and so it is after more tokens. -/
theorem Idle.aged (h : Idle key m) (n : Nat) : Idle (key.map (Key.aged n)) m := by
  intro k hk
  obtain ⟨k, hkey, rfl⟩ := Option.map_eq_some_iff.mp hk
  exact h k hkey

theorem Idle.of_fresh (h : Idle key m) (m' : Mark) : Idle (Key.fresh key m') m := by
  cases key with
  | none => exact h
  | some k =>
    rw [Key.fresh]
    split
    · exact idle_none m
    · exact h

theorem blank_spaces (n : Nat) : Blank (spaces n) := fun _ hc =>
  .inl (List.eq_of_mem_replicate hc)

/-- **A line ends and another one begins.** -/
theorem leads_line (blocks : List Nat) (allowed : Bool) (tokens : List Placed) {k : Nat}
    {tail : List Char} (hkey : Idle key m) (htail : Stands tail) :
    Leads (spot blocks key allowed m ('\n' :: (spaces k ++ tail)) tokens)
      (spot blocks none true (m.past ('\n' :: spaces k)) tail tokens) := by
  have hgap := leads_gap blocks key allowed tokens (m := m) (w := '\n' :: spaces k)
    (List.forall_mem_cons.mpr ⟨.inr rfl, blank_spaces k⟩) htail (hkey.spare _)
  rw [hkey.fresh (Mark.line_lt_past_line m rfl k)] at hgap
  simpa using hgap

/-- Where another line has begun no key is left. -/
theorem leads_later (blocks : List Nat) (allowed : Bool) (tokens : List Placed) (m' : Mark)
    {cs : List Char} (hkey : Idle key m) (hcs : Stands cs)
    (hline : m.line < m'.line) :
    Leads (spot blocks key allowed m' cs tokens) (spot blocks none allowed m' cs tokens) := by
  have hgap := leads_gap blocks key allowed tokens (m := m')
    (w := []) (by simp [Blank]) hcs (hkey.spare _)
  simpa [hkey.fresh hline] using hgap

/-- A space goes before a tag or a scalar. -/
theorem leads_space (blocks : List Nat) (key : Option Key) (allowed : Bool) (tokens : List Placed)
    {cs : List Char} (hcs : Stands cs) (hkey : Key.Spare key (m.after ' ')) :
    Leads (spot blocks key allowed m (' ' :: cs) tokens)
      (spot blocks (Key.fresh key (m.after ' ')) allowed (m.after ' ') cs tokens) := by
  have hgap := leads_gap blocks _ allowed tokens (w := [' '])
    (by simp [Blank]) hcs hkey
  simpa using hgap

/-! ## Styles -/

/-- A style that has been settled holds the text. -/
theorem settle_holds (wanted : Style) (isKey : Bool) (cs : List Char) :
    settle wanted isKey cs = .plain ∧ Outline.plainHolds cs = true ∨
      settle wanted isKey cs = .single ∧ Outline.singleHolds cs = true ∨
      settle wanted isKey cs = .double ∨
      settle wanted isKey cs = .literal ∧ Outline.literalHolds cs = true ∧ isKey = false := by
  cases wanted <;> simp only [settle] <;> grind

/-- A scalar that is not literal leaves the end of its line to others. -/
theorem endsItself_eq_false {wanted : Style} {isKey : Bool} {cs : List Char}
    (h : settle wanted isKey cs ≠ .literal) : endsItself wanted isKey cs = false := by
  rw [endsItself, beq_false_of_ne h, Bool.false_and]

/-! ## Values -/

section

variable {column k : Nat} {text tail : List Char}

/-- A quoted scalar and the end of its line. -/
theorem reads_quoted_line (body text tail : List Char) {quote : Char}
    (hleaf : AtLeaf blocks key allowed m)
    (hidle : Idle (opened blocks key allowed m) m) (hquote : quote = '\'' ∨ quote = '"')
    (htail : Stands tail) (hscan : ∀ rest : List Char,
      (∀ m : Mark, Source.char (laid m rest) ≠ '\'') →
      scanQuoted (laid m (quote :: (body ++ rest))) =
        .ok ⟨text, laid (m.past (quote :: body)) rest, false⟩) :
    ∃ m', m'.column = k ∧
      Reads (spot blocks key allowed m (quote :: (body ++ '\n' :: (spaces k ++ tail))))
        (spot blocks none true m' tail)
        [.scalar (if quote == '"' then .double else .single) text] := by
  refine ⟨_, Mark.column_past_line (m.past (quote :: body)) (c := '\n') rfl k, ?_⟩
  have hread := reads_quoted _ _ ('\n' :: (spaces k ++ tail)) hleaf hquote
    (hscan _ fun _ => by rw [Source.char_laid_cons]; decide)
  have hline := Reads.of_leads fun tokens => leads_line blocks false tokens
    (k := k) ((hidle.aged 1).past (quote :: body)) htail
  simpa using hread.trans hline

/-- A plain scalar and the end of its line. -/
theorem reads_plain_line (hleaf : AtLeaf (column :: blocks) key allowed m)
    (hidle : Idle (opened (column :: blocks) key allowed m) m) (hcolumn : column < m.column)
    (hk : k ≤ column) (htail : Stands tail) (hholds : Outline.plainHolds text = true)
    (hne : text ≠ []) : ∃ m', m'.column = k ∧
      Reads (spot (column :: blocks) key allowed m (text ++ '\n' :: (spaces k ++ tail)))
        (spot (column :: blocks) none true m' tail) [.scalar .plain text] := by
  refine ⟨_, Mark.column_past_line (m.past text) (c := '\n') rfl k, ?_⟩
  have hscan := scanPlain_line (column + 1) (m := m) hholds hne (by omega)
    (Nat.lt_succ_of_le hk) htail
  have hread := reads_plain ('\n' :: (spaces k ++ tail)) hleaf hholds hne (by simp) hscan
    (by simp; omega)
  have hlater := Reads.of_leads fun tokens => leads_later (column :: blocks) true tokens
    (m.past (text ++ '\n' :: spaces k)) (hidle.aged 1) htail (by
      rw [Mark.past_append]
      exact Nat.lt_of_le_of_lt (Mark.line_le_past m text) (Mark.line_lt_past_line _ rfl k))
  rw [← Mark.past_append]
  exact hread.trans hlater

/-- A literal block and the end of its last line. -/
theorem reads_literal_line (hleaf : AtLeaf (column :: blocks) key allowed m)
    (hidle : Idle (opened (column :: blocks) key allowed m) m) (hk : k ≤ column)
    (htail : Stands tail) (hholds : Outline.literalHolds text = true) : ∃ m', m'.column = k ∧
      Reads (spot (column :: blocks) key allowed m (Outline.literalHead text ++ '\n' ::
          (Outline.literalBody (column + 2) true
            (text ++ if Outline.endsOpen text then [] else ['\n']) ++ (spaces k ++ tail))))
        (spot (column :: blocks) none true m' tail) [.scalar .literal text] := by
  obtain ⟨hne, hsafe, -, -⟩ := literalHolds_iff.mp hholds
  obtain ⟨head, hhead⟩ : ∃ head, Outline.literalHead text = '|' :: head := ⟨_, rfl⟩
  have hkey : ∀ k ∈ key, k.required = false := by
    cases allowed with
    | false => exact fun k hk => (hidle k hk).1
    | true =>
      rw [hleaf.none_of_allowed rfl]
      exact nofun
  have hscan := scanBlock_literal (m := m) hholds hk htail
  rw [hhead] at hscan ⊢
  refine ⟨_, ?_, reads_literal hleaf hkey hscan (by simp; omega)⟩
  rw [List.cons_append, Mark.past_cons, Mark.past_append, Mark.past_cons, Mark.past_append,
    Mark.past_solid Mark.not_isBreak_of_mem_spaces, column_past_literalBody hne hsafe]
  simp [spaces]

/-- **A scalar is read up to the next line.** -/
theorem reads_value {wanted : Style} (hleaf : AtLeaf (column :: blocks) key allowed m)
    (hidle : Idle (opened (column :: blocks) key allowed m) m) (hcolumn : column < m.column)
    (hk : k ≤ column) (htail : Stands tail)
    (hne : settle wanted false text = .plain → text ≠ []) :
    ∃ m', m'.column = k ∧ Reads
      (spot (column :: blocks) key allowed m (scalarText (column + 2) wanted false text ++
        ((if endsItself wanted false text then [] else ['\n']) ++ (spaces k ++ tail))))
      (spot (column :: blocks) none true m' tail) [.scalar (settle wanted false text) text] := by
  obtain ⟨hstyle, hholds⟩ | ⟨hstyle, hholds⟩ | hstyle | ⟨hstyle, hholds, -⟩ :=
    settle_holds wanted false text
  · have hread := reads_plain_line hleaf hidle hcolumn hk htail hholds (hne hstyle)
    rw [endsItself_eq_false (by rw [hstyle]; decide), scalarText, hstyle]
    simpa using hread
  · have hread := reads_quoted_line (Outline.singleBody (column + 2) false text ++ ['\'']) text tail
      (k := k) hleaf hidle (.inl rfl) htail fun rest hrest => by
        simpa using scanQuoted_single hholds (Nat.succ_pos _) hrest
    rw [endsItself_eq_false (by rw [hstyle]; decide), scalarText, hstyle]
    simpa using hread
  · have hread := reads_quoted_line (text.flatMap Outline.escaped ++ ['"']) text tail (k := k) hleaf
      hidle (.inr rfl) htail fun rest _ => by
        simpa using scanQuoted_double
    rw [endsItself_eq_false (by rw [hstyle]; decide), scalarText, hstyle]
    simpa using hread
  · have hread := reads_literal_line hleaf hidle hk htail hholds
    have hends : endsItself wanted false text = Outline.endsOpen text := by
      rw [endsItself, hstyle]
      rfl
    rw [hends, scalarText, hstyle]
    cases hopen : Outline.endsOpen text with
    | false =>
      rw [hopen, if_neg Bool.false_ne_true, literalBody_append_break rfl] at hread
      simpa using hread
    | true =>
      rw [hopen, if_pos rfl, List.append_nil] at hread
      simpa using hread

end

/-! ## Keys -/

section

variable {text : List Char} {g : Char}

/-- **A scalar on one line is read up to the colon after it.** -/
theorem reads_key (rest : List Char) {wanted : Style} (hleaf : AtLeaf blocks key allowed m)
    (hg : isGap g = true)
    (hline : ∀ c ∈ text, endsLine c = false) (hne : settle wanted true text = .plain → text ≠ []) :
    Reads (spot blocks key allowed m (scalarText 0 wanted true text ++ ':' :: g :: rest))
      (spot blocks (openedBefore blocks key allowed m) false
        (m.past (scalarText 0 wanted true text))
        (':' :: g :: rest)) [.scalar (settle wanted true text) text] := by
  obtain ⟨hstyle, hholds⟩ | ⟨hstyle, hholds⟩ | hstyle | ⟨-, -, h⟩ := settle_holds wanted true text
  · have hmargin : marginOf blocks ≤ m.column + 1 := by
      cases blocks with
      | nil => exact Nat.zero_le _
      | cons c blocks => exact Nat.succ_le_succ (hleaf.le c rfl)
    have hscan := scanPlain_colon (g :: rest) (m := m) hholds (hne hstyle) hmargin
      fun _ => hg
    rw [scalarText, hstyle]
    exact reads_plain _ hleaf hholds (hne hstyle) (by simp) hscan (by
      have := List.length_pos_of_ne_nil (hne hstyle)
      simp
      omega)
  · have hbody := singleBody_of_line text hline 0 1
    have hread := reads_quoted (Outline.singleBody 1 false text ++ ['\'']) text (':' :: g :: rest)
      hleaf (.inl rfl) (by
        simpa using scanQuoted_single hholds Nat.one_pos fun _ => by
          rw [Source.char_laid_cons]; decide)
    rw [scalarText, hstyle]
    simpa [hbody] using hread
  · have hread := reads_quoted (text.flatMap Outline.escaped ++ ['"']) text (':' :: g :: rest) hleaf
      (.inr rfl) (by simpa using scanQuoted_double)
    rw [scalarText, hstyle]
    simpa using hread
  · exact nomatch h

end

end Provision.Yaml.Scanner
