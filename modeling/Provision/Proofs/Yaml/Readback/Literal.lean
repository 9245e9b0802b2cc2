import Provision.Proofs.Yaml.Readback.Source
import Provision.Yaml.Token.Scalar

/-!
# Literal blocks are read back

A literal block has its lines as they are, each that is not empty behind a margin. The head of the
block tells how wide the margin is, where the first line cannot show it, and what becomes of the
line breaks at the end.

> `BlockText.foldl_feed_whole`: no character of a block is lost;
> `scanBlock_literal`: a literal block is read back, up to what stands further left.
-/

namespace Provision.Yaml

open Outline (isSafe endsLine spaces literalHolds literalHead literalBody)
open Source (laid)

/-! ## The text of a block -/

namespace BlockText

/-- Takes one character of a literal block, on a line that is open or before one. -/
def feed : Bool × BlockText → Char → Bool × BlockText
  | (true, b), c =>
    if isBreak c then (false, { b with last := [c], blank := [] })
    else (true, { b with acc := c :: b.acc })
  | (false, b), c =>
    if isBreak c then (false, { b with blank := b.blank ++ [c] })
    else (true, { b.openLine false c with acc := c :: (b.openLine false c).acc })

/-- All that has been taken. -/
def whole (b : BlockText) : List Char := b.acc.reverse ++ b.last ++ b.blank

/-- Whether breaks are kept apart only where no line is open. -/
def Sound (s : Bool × BlockText) : Prop := s.1 = true → s.2.last = [] ∧ s.2.blank = []

variable {s : Bool × BlockText} {c : Char} {cs : List Char}

/-- One character is added to what has been taken. -/
theorem feed_whole (hs : Sound s) (c : Char) :
    Sound (feed s c) ∧ (feed s c).2.whole = s.2.whole ++ [c] := by
  obtain ⟨inLine, b⟩ := s
  by_cases hc : isBreak c = true
  · cases inLine with
    | true =>
      obtain ⟨hlast, hblank⟩ := hs rfl
      dsimp only at hlast hblank
      simp [feed, hc, Sound, whole, hlast, hblank]
    | false => simp [feed, hc, Sound, whole]
  · cases inLine with
    | true =>
      obtain ⟨hlast, hblank⟩ := hs rfl
      dsimp only at hlast hblank
      simp [feed, hc, Sound, whole, hlast, hblank]
    | false => simp [feed, hc, Sound, whole, openLine]

/-- **No character of a block is lost.** -/
theorem foldl_feed_whole (hs : Sound s) (cs : List Char) :
    Sound (cs.foldl feed s) ∧ (cs.foldl feed s).2.whole = s.2.whole ++ cs := by
  induction cs generalizing s with
  | nil => simpa using hs
  | cons c cs ih =>
    obtain ⟨hsound, hwhole⟩ := feed_whole hs c
    obtain ⟨hsound', hwhole'⟩ := ih hsound
    refine ⟨hsound', ?_⟩
    rw [List.foldl_cons, hwhole', hwhole, List.append_assoc, List.singleton_append]

theorem feed_break (hc : isBreak c = true) : (feed s c).1 = false := by
  obtain ⟨inLine, b⟩ := s
  cases inLine <;> simp [feed, hc]

/-- After a line that is not empty its break is set apart. -/
theorem feed_line {x : Char} (hs : Sound s) (hx : isBreak x = false) (hc : isBreak c = true) :
    (feed (feed s x) c).2.acc.reverse = s.2.whole ++ [x] ∧ (feed (feed s x) c).2.last = [c] ∧
      (feed (feed s x) c).2.blank = [] := by
  obtain ⟨hsound, hwhole⟩ := feed_whole hs x
  have hopen : (feed s x).1 = true := by
    obtain ⟨inLine, b⟩ := s
    cases inLine <;> simp [feed, hx]
  obtain ⟨hlast, hblank⟩ := hsound hopen
  rw [whole, hlast, hblank, List.append_nil, List.append_nil] at hwhole
  generalize feed s x = t at hopen hwhole
  obtain ⟨inLine, b⟩ := t
  obtain rfl : inLine = true := hopen
  simpa [feed, hc] using hwhole

end BlockText

/-! ## The lines of a block -/

section

variable {chomp : Chomp} {start m : Mark} {indent k : Nat} {b : BlockText} {tail : List Char}

/-- What stands left of a block's margin is passed over. -/
theorem blockLines_spaces {rest : List Char} (hk : m.column + k ≤ indent) :
    blockLines false chomp start indent false b (laid m (spaces k ++ rest)) =
      blockLines false chomp start indent false b (laid (m.past (spaces k)) rest) := by
  induction k generalizing m with
  | zero => rfl
  | succ k ih =>
    have hstep : blockLines false chomp start indent false b (laid m (spaces (k + 1) ++ rest)) =
        blockLines false chomp start indent false b (laid (m.after ' ') (spaces k ++ rest)) := by
      have hinside : m.column < indent := by omega
      simp [spaces, List.replicate_succ, laid, blockLines, hinside]
    have hcolumn : (m.after ' ').column = m.column + 1 := rfl
    rw [hstep, ih (by omega)]
    rfl

/-- A block ends before what stands further left. -/
theorem blockLines_end (hm : m.column = 0) (hk : k < indent) (htail : Stands tail) :
    blockLines false chomp start indent false b (laid m (spaces k ++ tail)) =
      .ok ⟨b.close chomp, laid (m.past (spaces k)) tail, false⟩ := by
  rw [blockLines_spaces (by omega)]
  have hcolumn : (m.past (spaces k)).column = k := by
    rw [Mark.past_solid Mark.not_isBreak_of_mem_spaces, hm]
    simp [spaces]
  have hindent : ((m.past (spaces k)).column == indent) = false := by
    rw [hcolumn]
    simpa using Nat.ne_of_lt hk
  cases tail with
  | nil => simp [laid, blockLines, hindent, isBreak, endChar]
  | cons c tail =>
    obtain ⟨hwhite, hbreak, -, -⟩ := htail c rfl
    rw [isWhite, Bool.or_eq_false_iff] at hwhite
    simp [laid, blockLines, hindent, hbreak, hwhite]

/-- **The lines of a literal block are taken one character at a time.** Where no line is open the
reader is at the start of one. -/
theorem blockLines_literal (chomp : Chomp) (start : Mark) (indent : Nat) (cs rest : List Char) :
    ∀ {s : Bool × BlockText} {m : Mark},
    (s.1 = false → m.column = 0) → (∀ c ∈ cs, isSafe c = true) →
    blockLines false chomp start indent s.1 s.2 (laid m (literalBody indent (!s.1) cs ++ rest)) =
      blockLines false chomp start indent (cs.foldl BlockText.feed s).1
        (cs.foldl BlockText.feed s).2 (laid (m.past (literalBody indent (!s.1) cs)) rest) := by
  induction cs with
  | nil => intros; rfl
  | cons c cs ih =>
    rintro ⟨inLine, b⟩ m hm hsafe
    rw [List.forall_mem_cons] at hsafe
    obtain ⟨htab, hend⟩ := ne_tab_of_isSafe hsafe.1
    cases hc : isBreak c with
    | true =>
      have hspace : c ≠ ' ' := by
        rintro rfl
        exact absurd hc (by decide)
      have hbody : literalBody indent (!inLine) (c :: cs) = c :: literalBody indent true cs := by
        rw [literalBody, endsLine_eq_isBreak hsafe.1, hc, if_pos rfl]
      have hclosed : (BlockText.feed (inLine, b) c).1 = false := BlockText.feed_break hc
      have hcolumn : (m.after c).column = 0 := by
        rw [Mark.after_of_isBreak hc]
        rfl
      have hrest := ih (s := BlockText.feed (inLine, b) c) (m := m.after c)
        (fun _ => hcolumn) hsafe.2
      rw [hclosed] at hrest
      rw [hbody, List.foldl_cons, Mark.past_cons]
      refine Eq.trans ?_ hrest
      cases inLine <;> simp [laid, blockLines, hc, BlockText.feed, hspace, htab]
    | false =>
      have hopen : (BlockText.feed (inLine, b) c).1 = true := by
        cases inLine <;> simp [BlockText.feed, hc]
      have hbody : literalBody indent (!inLine) (c :: cs) =
          (if !inLine then spaces indent else []) ++ c :: literalBody indent false cs := by
        rw [literalBody, endsLine_eq_isBreak hsafe.1, hc, if_neg Bool.false_ne_true]
      have hrest : ∀ m : Mark, _ := fun m => ih (s := BlockText.feed (inLine, b) c) (m := m.after c)
        (fun h => absurd h (by simp [hopen])) hsafe.2
      rw [hopen] at hrest
      rw [hbody, List.append_assoc, List.foldl_cons, Mark.past_append]
      refine Eq.trans ?_ (hrest _)
      cases inLine with
      | true => simp [laid, blockLines, hc, BlockText.feed, hend]
      | false =>
        -- the margin comes first
        have hzero : m.column = 0 := hm rfl
        simp only [Bool.not_false, if_true]
        rw [blockLines_spaces (by omega)]
        have hcolumn : (m.past (spaces indent)).column = indent := by
          rw [Mark.past_solid Mark.not_isBreak_of_mem_spaces, hzero]
          simp [spaces]
        simp [laid, blockLines, hc, BlockText.feed, hend, hcolumn]

/-! ## The blank lines before a block -/

/-- Blank lines before a block are blank lines of the block, once its margin is known. -/
theorem blockLines_of_leadingLines {widest widest' : Nat} {breaks breaks' : List Char}
    {s s' : Source} (hindent : indent ≠ 0)
    (h : leadingLines start indent widest breaks s = .ok (widest', breaks', s')) :
    blockLines false chomp start indent false { blank := breaks' } s' =
      blockLines false chomp start indent false { blank := breaks } s := by
  have hzero : (indent == 0) = false := by simpa using hindent
  induction s generalizing widest breaks with
  | nil =>
    rw [leadingLines, Except.ok.injEq, Prod.mk.injEq, Prod.mk.injEq] at h
    obtain ⟨-, rfl, rfl⟩ := h
    rfl
  | cons x s ih =>
    rw [leadingLines, hzero, Bool.false_or] at h
    simp only at h
    split at h
    next hspace =>
      rw [ih h]
      conv_rhs => rw [blockLines]
      simp [hspace]
    next hspace =>
      split at h
      · exact nomatch h
      next htab =>
        split at h
        next hbreak =>
          rw [ih h]
          conv_rhs => rw [blockLines]
          simp [hspace, htab, hbreak]
        next =>
          rw [Except.ok.injEq, Prod.mk.injEq, Prod.mk.injEq] at h
          obtain ⟨-, rfl, rfl⟩ := h
          rfl

/-- The blank lines before a block end where a text has no tab. -/
theorem exists_leadingLines (start : Mark) (indent : Nat) {cs : List Char}
    (hcs : ∀ c ∈ cs, c ≠ '\t') (htail : Stands tail) :
    ∀ (m : Mark) (widest : Nat) (breaks : List Char),
      ∃ r, leadingLines start indent widest breaks (laid m (cs ++ tail)) = .ok r := by
  induction cs with
  | nil =>
    intro m widest breaks
    cases tail with
    | nil => simp [laid, leadingLines, isBreak, endChar]
    | cons c tail =>
      obtain ⟨hwhite, hbreak, -, -⟩ := htail c rfl
      rw [isWhite, Bool.or_eq_false_iff] at hwhite
      simp [laid, leadingLines, hbreak, hwhite]
  | cons c cs ih =>
    intro m widest breaks
    rw [List.forall_mem_cons] at hcs
    rw [List.cons_append, laid, leadingLines]
    simp only
    split
    · exact ih hcs.2 _ _ _
    · rw [if_neg (by simp [hcs.1])]
      split
      · exact ih hcs.2 _ _ _
      · exact ⟨_, rfl⟩

/-- A first line that does not begin with a space shows the margin. -/
theorem leadingLines_margin (start : Mark) (rest : List Char) {x : Char} (hx : x ≠ ' ' ∧ x ≠ '\t')
    (hbreak : isBreak x = false) :
    leadingLines start 0 0 [] (laid m (spaces k ++ x :: rest)) =
      .ok (m.column + k, [], laid (m.past (spaces k)) (x :: rest)) := by
  induction k generalizing m with
  | zero => simp [spaces, laid, leadingLines, hx, hbreak]
  | succ k ih =>
    have hstep : leadingLines start 0 0 [] (laid m (spaces (k + 1) ++ x :: rest)) =
        leadingLines start 0 0 [] (laid (m.after ' ') (spaces k ++ x :: rest)) := by
      simp [spaces, List.replicate_succ, laid, leadingLines]
    have hcolumn : (m.after ' ').column = m.column + 1 := rfl
    rw [hstep, ih, hcolumn, Nat.add_assoc, Nat.add_comm 1]
    rfl

end

/-! ## The head of a block -/

/-- Whether a text has a break at its end, which then is not added. -/
abbrev Outline.endsOpen (cs : List Char) : Bool := cs.getLast?.any endsLine

/-- How deep a literal block says that it is, or zero. -/
def literalDepth (cs : List Char) : Nat :=
  if cs.head?.any fun c => c == ' ' || endsLine c then 2 else 0

/-- What a literal block says of the breaks at its end. -/
def literalChomp (cs : List Char) : Chomp :=
  match cs.reverse with
  | [] => .strip
  | c :: before => if !endsLine c then .strip
    else if before.head?.all endsLine then .keep else .clip

/-- The head of a literal block says how deep it is and how it ends. -/
theorem blockHeader_literal (start : Mark) (rest : List Char) (cs : List Char) {m : Mark} :
    ∃ head, literalHead cs = '|' :: head ∧
      blockHeader start (laid m (head ++ '\n' :: rest)) =
        .ok (literalChomp cs, literalDepth cs, laid (m.past head) ('\n' :: rest)) := by
  have hhead : ∀ (depth : List Char) (given : Nat) (ending : List Char) (chomp : Chomp),
      (depth = [] ∧ given = 0 ∨ depth = ['2'] ∧ given = 2) →
      (ending = [] ∧ chomp = .clip ∨ ending = ['-'] ∧ chomp = .strip ∨
        ending = ['+'] ∧ chomp = .keep) →
      blockHeader start (laid m (depth ++ ending ++ '\n' :: rest)) =
        .ok (chomp, given, laid (m.past (depth ++ ending)) ('\n' :: rest)) := by
    rintro _ _ _ _ (⟨rfl, rfl⟩ | ⟨rfl, rfl⟩) (⟨rfl, rfl⟩ | ⟨rfl, rfl⟩ | ⟨rfl, rfl⟩) <;>
      rfl
  refine ⟨_, rfl, hhead _ _ _ _ ?_ ?_⟩
  · rw [literalDepth]
    split <;> simp
  · rw [literalChomp]
    cases cs.reverse with
    | nil => simp
    | cons c before => dsimp only; split <;> [skip; split] <;> simp

/-! ## The whole scalar -/

/-- What a literal block can hold, part by part. -/
theorem literalHolds_iff {cs : List Char} : literalHolds cs = true ↔ cs ≠ [] ∧
    (∀ c ∈ cs, isSafe c = true) ∧ Outline.hasPair (· == ' ') endsLine cs = false ∧
      cs.getLast? ≠ some ' ' := by
  simp only [literalHolds, Outline.needsEscapes, Bool.not_eq_true', Bool.or_eq_false_iff,
    List.any_eq_false, Bool.not_eq_false, beq_eq_false_iff_ne, ne_eq, List.isEmpty_eq_false_iff]
  tauto

/-- A break that ends a text ends its last line. -/
theorem literalBody_append_break {c : Char} (hc : endsLine c = true) (margin : Nat)
    (cs : List Char) (fresh : Bool) :
    literalBody margin fresh (cs ++ [c]) = literalBody margin fresh cs ++ [c] := by
  induction cs generalizing fresh with
  | nil => simp [literalBody, hc]
  | cons d cs ih =>
    rw [List.cons_append, literalBody, literalBody, ih, ih]
    split <;> simp

/-- Nothing but spaces is added to the characters of a text. -/
theorem isSafe_of_mem_literalBody {margin : Nat} {cs : List Char} {fresh : Bool}
    (h : ∀ c ∈ cs, isSafe c = true) : ∀ c ∈ literalBody margin fresh cs, isSafe c = true := by
  induction cs generalizing fresh with
  | nil => simp [literalBody]
  | cons d cs ih =>
    rw [List.forall_mem_cons] at h
    rw [literalBody]
    split
    · exact List.forall_mem_cons.mpr ⟨h.1, ih h.2⟩
    · refine List.forall_mem_append.mpr ⟨?_, List.forall_mem_cons.mpr ⟨h.1, ih h.2⟩⟩
      intro c hc
      split at hc
      · rw [List.eq_of_mem_replicate hc]
        rfl
      · exact absurd hc List.not_mem_nil

/-- **A block is chomped to the text that was written.** -/
theorem close_literal {cs : List Char} (hne : cs ≠ []) (hsafe : ∀ c ∈ cs, isSafe c = true) :
    (((cs ++ if Outline.endsOpen cs then [] else ['\n']).foldl BlockText.feed (false, {})).2.close
      (literalChomp cs)) = cs := by
  have hstart : BlockText.Sound (false, {}) := fun h => absurd h Bool.false_ne_true
  obtain ⟨ds, c, rfl⟩ := List.eq_nil_or_concat cs |>.resolve_left hne
  rw [List.concat_eq_append] at *
  have hline : ∀ d ∈ ds ++ [c], endsLine d = isBreak d := fun d hd =>
    endsLine_eq_isBreak (hsafe d hd)
  have hc := hline c (by simp)
  have hreverse : (ds ++ [c]).reverse = c :: ds.reverse := by simp
  rw [Outline.endsOpen, List.getLast?_append_of_ne_nil _ (by simp), literalChomp, hreverse]
  cases hbreak : isBreak c with
  | false =>
    obtain ⟨hsound, hwhole⟩ := BlockText.foldl_feed_whole hstart ds
    obtain ⟨hacc, -, -⟩ := BlockText.feed_line (c := '\n') hsound hbreak rfl
    rw [hbreak] at hc
    rw [hwhole] at hacc
    simp [hc, BlockText.close, List.foldl_append, hacc, BlockText.whole]
  | true =>
    rw [hbreak] at hc
    simp only [List.getLast?_singleton, Option.any_some, hc, if_true, List.append_nil,
      Bool.not_true, Bool.false_eq_true, if_false]
    rcases List.eq_nil_or_concat' ds with rfl | ⟨es, x, rfl⟩
    · simp [BlockText.close, BlockText.feed, hbreak]
    · cases hx : isBreak x with
      | false =>
        obtain ⟨hsound, hwhole⟩ := BlockText.foldl_feed_whole hstart es
        obtain ⟨hacc, hlast, -⟩ := BlockText.feed_line hsound hx hbreak
        have hx' : endsLine x = false := (hline x (by simp)).trans hx
        rw [hwhole] at hacc
        simp [hx', BlockText.close, List.foldl_append, hacc, hlast, BlockText.whole]
      | true =>
        have hx' : endsLine x = true := (hline x (by simp)).trans hx
        have hwhole := (BlockText.foldl_feed_whole hstart (es ++ [x] ++ [c])).2
        simpa [hx', BlockText.close, BlockText.whole] using hwhole

/-- A block ends with a break, its own or one that is added. -/
theorem exists_last_break {cs : List Char} (hne : cs ≠ []) (hsafe : ∀ c ∈ cs, isSafe c = true) :
    ∃ ds c, (cs ++ if Outline.endsOpen cs then [] else ['\n']) = ds ++ [c] ∧ isSafe c = true ∧
      endsLine c = true ∧ ∀ d ∈ ds, isSafe d = true := by
  cases hopen : Outline.endsOpen cs with
  | false => exact ⟨cs, '\n', by simp, rfl, rfl, hsafe⟩
  | true =>
    rcases List.eq_nil_or_concat' cs with rfl | ⟨ds, c, rfl⟩
    · exact absurd rfl hne
    · exact ⟨ds, c, by simp, hsafe c (by simp), by simpa [Outline.endsOpen] using hopen,
        fun d hd => hsafe d (by simp [hd])⟩

/-- After a block a line begins. -/
theorem column_past_literalBody {cs : List Char} (hne : cs ≠ [])
    (hsafe : ∀ c ∈ cs, isSafe c = true) (margin : Nat) (m : Mark) :
    (m.past (literalBody margin true
      (cs ++ if Outline.endsOpen cs then [] else ['\n']))).column = 0 := by
  obtain ⟨ds, c, hfull, hc, hline, -⟩ := exists_last_break hne hsafe
  rw [hfull, literalBody_append_break hline, Mark.past_append, Mark.past_cons,
    Mark.after_of_isBreak ((endsLine_eq_isBreak hc).symm.trans hline)]
  rfl

/-- **The lines of a block are read back**, with the spaces that begin the next line. -/
theorem blockLines_close (start : Mark) (margin : Nat) (tail : List Char) {cs : List Char}
    {m : Mark} {k : Nat} (hne : cs ≠ [])
    (hsafe : ∀ c ∈ cs, isSafe c = true) (hm : m.column = 0) (hk : k < margin)
    (htail : Stands tail) :
    blockLines false (literalChomp cs) start margin false {} (laid m (literalBody margin true
        (cs ++ if Outline.endsOpen cs then [] else ['\n']) ++ (spaces k ++ tail))) =
      .ok ⟨cs, laid (m.past (literalBody margin true
        (cs ++ if Outline.endsOpen cs then [] else ['\n']) ++ spaces k)) tail, false⟩ := by
  have hclose := close_literal hne hsafe
  obtain ⟨ds, c, hfull, hc, hline, hds⟩ := exists_last_break hne hsafe
  rw [hfull] at hclose ⊢
  have hbreak : isBreak c = true := (endsLine_eq_isBreak hc).symm.trans hline
  have hread := blockLines_literal (literalChomp cs) start margin (ds ++ [c]) (spaces k ++ tail)
    (s := (false, {})) (m := m) (fun _ => hm)
    (by simpa [or_imp, forall_and] using ⟨hds, hc⟩)
  have hclosed : ((ds ++ [c]).foldl BlockText.feed (false, {})).1 = false := by
    rw [List.foldl_append]
    exact BlockText.feed_break hbreak
  have hcolumn := column_past_literalBody hne hsafe margin m
  rw [hfull] at hcolumn
  rw [hclosed, Bool.not_false] at hread
  rw [hread, blockLines_end hcolumn hk htail, hclose, Mark.past_append]

/-- After a head that ends with its line come the blank lines, which may tell the margin, and the
lines of the block. -/
theorem scanBlock_of_blockHeader (margin : Nat) {given : Nat} {chomp : Chomp} {s : Source}
    {m : Mark}
    {rest : List Char}
    (h : blockHeader (Source.mark s) (s.drop 1) = .ok (chomp, given, laid m ('\n' :: rest))) :
    scanBlock false margin s =
      (leadingLines (Source.mark s) (if given == 0 then 0 else margin - 1 + given) 0 []
        (laid (m.after '\n') rest)).bind fun r =>
          blockLines false chomp (Source.mark s)
            (if given == 0 then max r.1 (max margin 1) else margin - 1 + given) false
            { blank := r.2.1 } r.2.2 := by
  have hwhite : Source.skip isWhite (laid m ('\n' :: rest)) = laid m ('\n' :: rest) := rfl
  have hnumber : ('\n' == '#') = false := rfl
  have hstop : isStop '\n' = true := rfl
  have hbreak : isBreak '\n' = true := rfl
  rw [scanBlock, h]
  simp only [bind, Except.bind, hwhite, Source.char_laid_cons, hnumber, hstop, hbreak,
    Bool.not_true, Bool.false_eq_true, if_false, if_true, Source.drop_laid_cons, List.drop_zero]
  by_cases hgiven : given = 0
  · simp only [hgiven, beq_self_eq_true, if_true]
  · simp [hgiven]

/-- Where the head tells the margin, lines are passed over first that may be part of the text. -/
theorem blockLines_told (chomp : Chomp) (start n : Mark) {margin : Nat} {text tail : List Char}
    (hmargin : margin ≠ 0) (htab : ∀ c ∈ text, c ≠ '\t') (htail : Stands tail) :
    ((leadingLines start margin 0 [] (laid n (text ++ tail))).bind fun r =>
        blockLines false chomp start margin false { blank := r.2.1 } r.2.2) =
      blockLines false chomp start margin false {} (laid n (text ++ tail)) := by
  obtain ⟨⟨widest, breaks, s⟩, hleading⟩ := exists_leadingLines start margin htab htail n 0 []
  rw [hleading]
  exact blockLines_of_leadingLines hmargin hleading

/-- Where it does not, the first line shows it. -/
theorem blockLines_shown (chomp : Chomp) (start : Mark) (least : Nat) (rest : List Char)
    {n : Mark} {x : Char} {margin : Nat} (hx : x ≠ ' ' ∧ x ≠ '\t') (hbreak : isBreak x = false)
    (hn : n.column = 0) (hleast : least ≤ margin) :
    ((leadingLines start 0 0 [] (laid n (spaces margin ++ x :: rest))).bind fun r =>
        blockLines false chomp start (max r.1 least) false { blank := r.2.1 } r.2.2) =
      blockLines false chomp start margin false {} (laid n (spaces margin ++ x :: rest)) := by
  rw [leadingLines_margin start rest hx hbreak, blockLines_spaces (by omega), hn, Nat.zero_add,
    Except.bind]
  rw [Nat.max_eq_left hleast]

/-- **A literal block is read back**, with the spaces that begin the next line. -/
theorem scanBlock_literal {cs tail : List Char} {m : Mark} {column k : Nat}
    (hholds : literalHolds cs = true) (hk : k ≤ column) (htail : Stands tail) :
    scanBlock false (column + 1) (laid m (literalHead cs ++ '\n' :: (literalBody (column + 2) true
        (cs ++ if Outline.endsOpen cs then [] else ['\n']) ++ (spaces k ++ tail)))) =
      .ok ⟨cs, laid (m.past (literalHead cs ++ '\n' :: (literalBody (column + 2) true
        (cs ++ if Outline.endsOpen cs then [] else ['\n']) ++ spaces k))) tail, false⟩ := by
  obtain ⟨hne, hsafe, -, -⟩ := literalHolds_iff.mp hholds
  generalize hfull : (cs ++ if Outline.endsOpen cs then [] else ['\n']) = full
  obtain ⟨head, hhead, hheader⟩ := blockHeader_literal m
    (literalBody (column + 2) true full ++ (spaces k ++ tail)) cs (m := m.after '|')
  generalize hn : ((m.after '|').past head).after '\n' = n
  have hzero : n.column = 0 := by rw [← hn]; rfl
  have hlines := blockLines_close m (column + 2) tail (k := k)
    hne hsafe hzero (by omega) htail
  rw [hfull] at hlines
  have hmark : m.past (literalHead cs ++ '\n' :: (literalBody (column + 2) true full ++ spaces k)) =
      n.past (literalBody (column + 2) true full ++ spaces k) := by
    rw [hhead, ← hn, List.cons_append, Mark.past_cons, Mark.past_append, Mark.past_cons]
  have hscan := scanBlock_of_blockHeader (column + 1)
    (s := laid m (literalHead cs ++ '\n' ::
    (literalBody (column + 2) true full ++ (spaces k ++ tail)))) (by rw [hhead]; exact hheader)
  rw [hmark, ← hlines, hscan, hn, Source.mark_laid]
  obtain ⟨x, xs, rfl⟩ := List.exists_cons_of_ne_nil hne
  rw [literalDepth, List.head?_cons, Option.any_some]
  cases hdeep : x == ' ' || endsLine x with
  | true =>
    have hsafe' : ∀ c ∈ full, isSafe c = true := by
      rw [← hfull]
      refine List.forall_mem_append.mpr ⟨hsafe, ?_⟩
      split <;> decide
    have htab : ∀ c ∈ literalBody (column + 2) true full ++ spaces k, c ≠ '\t' := by
      refine List.forall_mem_append.mpr ⟨fun c hc =>
        (ne_tab_of_isSafe (isSafe_of_mem_literalBody hsafe' c hc)).1, fun c hc => ?_⟩
      rw [List.eq_of_mem_replicate hc]
      decide
    have htold := blockLines_told (literalChomp (x :: xs)) m n (Nat.succ_ne_zero (column + 1))
      htab htail
    rw [List.append_assoc] at htold
    exact htold
  | false =>
    rw [Bool.or_eq_false_iff, beq_eq_false_iff_ne] at hdeep
    have hx := ne_tab_of_isSafe (hsafe x (by simp))
    have hbreak : isBreak x = false :=
      (endsLine_eq_isBreak (hsafe x (by simp))).symm.trans hdeep.2
    have hbody : literalBody (column + 2) true full ++ (spaces k ++ tail) = spaces (column + 2) ++
        x :: (literalBody (column + 2) false full.tail ++ (spaces k ++ tail)) := by
      rw [← hfull, List.cons_append, literalBody, hdeep.2, if_neg Bool.false_ne_true, if_pos rfl]
      simp
    rw [hbody]
    exact blockLines_shown (literalChomp (x :: xs)) m (max (column + 1) 1) _ ⟨hdeep.1, hx.1⟩
      hbreak hzero (by omega)

end Provision.Yaml
