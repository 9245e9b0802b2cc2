import Provision.Proofs.Yaml.Readback.Leads

/-!
# Spots of a block text

Between two tokens of a text without flow collections a reader is at a spot: blocks are open in
some columns, a key may have begun, keys are allowed to begin or not, and a text comes next.

> `leads_gap`: what stands before a token is passed over, and a key that has become stale is given
> up;
> `leads_close`: blocks end before what stands further left.
-/

namespace Provision.Yaml.Scanner

open Outline (spaces)
open Source (laid)

/-! ## Spots -/

/-- A place where a key may have begun, with the number of tokens since. -/
structure Key where
  required : Bool
  since : Nat
  mark : Mark

namespace Key

/-- Whether a key that has not ended at a mark is none. -/
def stale (k : Key) (m : Mark) : Bool := k.mark.line < m.line || k.mark.index + 1024 < m.index

/-- The key after some more tokens. -/
def aged (n : Nat) (k : Key) : Key := { k with since := k.since + n }

/-- What remains of a key at a mark. -/
def fresh : Option Key → Mark → Option Key
  | none, _ => none
  | some k, m => if k.stale m then none else some k

/-- The place of a key among tokens. -/
def place (tokens : List Placed) (k : Key) : KeyPlace :=
  ⟨k.required, tokens.length - k.since, k.mark⟩

end Key

/-- A reader at a spot, with the tokens behind it. -/
def spot (blocks : List Nat) (key : Option Key) (allowed : Bool) (m : Mark) (cs : List Char)
    (tokens : List Placed) : Scanner where
  source := laid m cs
  blocks := blocks
  outerKey := key.map (Key.place tokens)
  keyAllowed := allowed
  pending := tokens

variable {blocks : List Nat} {key : Option Key} {allowed : Bool} {m : Mark} {cs : List Char}
  {tokens : List Placed}

/-- Whether a key can be given up at a mark, or has not to be. -/
def Key.Spare (key : Option Key) (m : Mark) : Prop :=
  ∀ k ∈ key, k.required = true → k.stale m = false

/-- A key that is stale at a mark is given up there. -/
theorem refresh_place (tokens : List Placed) {s : Scanner} (hm : s.mark = m) (h : Key.Spare key m) :
    s.refresh (key.map (Key.place tokens)) =
      .ok ((Key.fresh key m).map (Key.place tokens)) := by
  cases key with
  | none => rfl
  | some k =>
    have hstale : s.isStale (k.place tokens) = k.stale m := by
      rw [isStale, hm]
      rfl
    rw [Option.map_some, refresh, hstale, Key.fresh]
    cases hk : k.stale m with
    | false => rfl
    | true =>
      have hrequired : (k.place tokens).required = false := by
        by_contra hr
        have := h k rfl ((Bool.not_eq_false _).mp hr)
        rw [hk] at this
        cases this
      rw [if_pos rfl, hrequired]
      rfl

theorem dropStale_spot (blocks : List Nat) (key : Option Key) (allowed : Bool) (cs : List Char)
    (tokens : List Placed) (h : Key.Spare key m) :
    (spot blocks key allowed m cs tokens).dropStale =
      .ok (spot blocks (Key.fresh key m) allowed m cs tokens) := by
  have hrefresh := refresh_place tokens (s := spot blocks key allowed m cs tokens)
    Source.mark_laid h
  show (refresh _ (key.map (Key.place tokens)) >>= _) = _
  rw [hrefresh]
  rfl

/-- A blank text, as it may stand before a token. -/
def Blank (cs : List Char) : Prop := ∀ c ∈ cs, c = ' ' ∨ c = '\n'

/-- A blank text is passed over; where a line ends in it, keys are allowed to begin. -/
theorem skipGapFrom_blank {w : List Char} (hw : Blank w) (hcs : Stands cs) :
    skipGapFrom false allowed false (laid m (w ++ cs)) =
      (allowed || w.contains '\n', laid (m.past w) cs) := by
  induction w generalizing m allowed with
  | nil =>
    cases cs with
    | nil => simp [laid, skipGapFrom, isBreak, endChar]
    | cons c cs =>
      obtain ⟨hwhite, hbreak, hnumber, hmark⟩ := hcs c rfl
      rw [isWhite, Bool.or_eq_false_iff] at hwhite
      simp [laid, skipGapFrom, hwhite, hbreak, hnumber, hmark]
  | cons c w ih =>
    rw [Blank, List.forall_mem_cons] at hw
    obtain ⟨rfl | rfl, hw⟩ := hw
    · have hstep : skipGapFrom false allowed false (laid m (' ' :: w ++ cs)) =
          skipGapFrom false allowed false (laid (m.after ' ') (w ++ cs)) := by
        simp [laid, skipGapFrom, isBreak]
      rw [hstep, ih hw]
      simp
    · have hstep : skipGapFrom false allowed false (laid m ('\n' :: w ++ cs)) =
          skipGapFrom false true false (laid (m.after '\n') (w ++ cs)) := by
        simp [laid, skipGapFrom, isBreak]
      rw [hstep, ih hw]
      simp

/-- Marks only grow, so a key that is stale stays so. -/
theorem Key.stale_past {k : Key} (h : k.stale m = true) (w : List Char) :
    k.stale (m.past w) = true := by
  have hline := Mark.line_le_past m w
  have hindex := Mark.index_le_past m w
  simp only [stale, Bool.or_eq_true, decide_eq_true_eq] at h ⊢
  omega

theorem Key.Spare.of_past {w : List Char} (h : Spare key (m.past w)) : Spare key m := by
  intro k hk hrequired
  by_contra hstale
  have := h k hk hrequired
  rw [stale_past ((Bool.not_eq_false _).mp hstale)] at this
  exact nomatch this

/-- A key that is given up is given up once. -/
theorem Key.fresh_fresh (key : Option Key) (m : Mark) (w : List Char) :
    fresh (fresh key m) (m.past w) = fresh key (m.past w) := by
  cases key with
  | none => rfl
  | some k =>
    simp only [fresh]
    cases hk : k.stale m with
    | false => simp
    | true => simp [stale_past hk]

theorem Key.Spare.fresh (h : Spare key m) (m' : Mark) : Spare (fresh key m') m := by
  cases key with
  | none => exact h
  | some k =>
    rw [Key.fresh]
    split
    · rintro k ⟨⟩
    · exact h

/-- A key that has not become stale has not to be given up. -/
theorem Key.spare_of_fresh (h : Key.fresh key m = key) : Spare key m := by
  intro k hk _
  obtain rfl := Option.mem_def.mp hk
  by_contra hstale
  rw [fresh, if_pos ((Bool.not_eq_false _).mp hstale)] at h
  exact nomatch h

/-- A reader comes to the next token. -/
theorem approach_spot (blocks : List Nat) (allowed : Bool) (tokens : List Placed) {w : List Char}
    (hw : Blank w) (hcs : Stands cs)
    (hkey : Key.Spare key (m.past w)) :
    (spot blocks key allowed m (w ++ cs) tokens).approach = .ok (spot blocks
      (Key.fresh key (m.past w)) (allowed || w.contains '\n') (m.past w) cs tokens) := by
  have hgap : skipGapFrom (spot blocks key allowed m (w ++ cs) tokens).inFlow
      (spot blocks key allowed m (w ++ cs) tokens).keyAllowed false
      (spot blocks key allowed m (w ++ cs) tokens).source =
      (allowed || w.contains '\n', laid (m.past w) cs) := skipGapFrom_blank hw hcs
  have hskip : (spot blocks key allowed m (w ++ cs) tokens).skipGap =
      spot blocks key (allowed || w.contains '\n') (m.past w) cs tokens := by
    rw [skipGap, hgap]
    rfl
  rw [approach, hskip, dropStale_spot _ _ _ _ _ hkey]

/-- A spot at a token where no key has become stale. -/
structure AtToken (key : Option Key) (m : Mark) (cs : List Char) : Prop where
  stands : Stands cs
  fresh : Key.fresh key m = key

/-- Nothing has to be done before a token. -/
theorem AtToken.stays (h : AtToken key m cs) :
    (spot blocks key allowed m cs tokens).dropStale = .ok (spot blocks key allowed m cs tokens) ∧
      (spot blocks key allowed m cs tokens).fetch = (spot blocks key allowed m cs tokens).take := by
  have hdrop := dropStale_spot blocks _ allowed cs tokens (Key.spare_of_fresh h.fresh)
  have happroach := approach_spot blocks allowed tokens
    (w := []) (by simp [Blank]) h.stands (Key.spare_of_fresh h.fresh)
  simp only [List.nil_append, Mark.past_nil, List.contains_nil, Bool.or_false, h.fresh]
    at hdrop happroach
  exact ⟨hdrop, by rw [fetch, happroach]; rfl⟩

/-- **What stands before a token is passed over.** -/
theorem leads_gap (blocks : List Nat) (key : Option Key) (allowed : Bool) (tokens : List Placed)
    {w : List Char} (hw : Blank w) (hcs : Stands cs)
    (hkey : Key.Spare key (m.past w)) :
    Leads (spot blocks key allowed m (w ++ cs) tokens)
      (spot blocks (Key.fresh key (m.past w)) (allowed || w.contains '\n')
        (m.past w) cs tokens) := by
  have happroach := approach_spot blocks allowed tokens hw hcs
    (hkey.fresh m)
  rw [Key.fresh_fresh] at happroach
  have hat : AtToken (Key.fresh key (m.past w)) (m.past w) cs :=
    ⟨hcs, Key.fresh_fresh key (m.past w) []⟩
  refine leads_of_fetch_eq (dropStale_spot _ _ _ _ _ hkey.of_past) hat.stays.1 ?_ ?_ fun r hr =>
    (commutes_approach hr).2 _ happroach
  · rw [hat.stays.2, fetch, happroach]
    rfl
  · simp [spot]

/-- **A reader goes on behind a token that it reads.** -/
theorem leads_of_take {t : Scanner} (hat : AtToken key m cs)
    (ht : (spot blocks key allowed m cs tokens).take = .ok t)
    (hshrinks : t.source.length < cs.length + 1) :
    Leads (spot blocks key allowed m cs tokens) t :=
  leads_of_fetch hat.stays.1 (hat.stays.2.trans ht) (by simpa [spot] using hshrinks)

/-- **A block that is further right ends.** -/
theorem leads_close {column : Nat} (hcs : Stands cs) (hcolumn : m.column < column) :
    Leads (spot (column :: blocks) none allowed m cs tokens)
      (spot blocks none allowed m cs (tokens ++ [.point .blockEnd m])) := by
  have hat : AtToken none m cs := ⟨hcs, rfl⟩
  have hmark : ∀ blocks tokens, (spot blocks none allowed m cs tokens).mark = m := fun _ _ =>
    Source.mark_laid
  have hclose : (spot (column :: blocks) none allowed m cs tokens).closeBlocks (· ≤ m.column) =
      (spot blocks none allowed m cs (tokens ++ [.point .blockEnd m])).closeBlocks
        (· ≤ m.column) := by
    simp only [closeBlocks, hmark]
    simp [spot, inFlow, hcolumn]
  refine leads_of_fetch_eq hat.stays.1 hat.stays.1 ?_ (Nat.le_refl _) fun r hr => ?_
  · rw [hat.stays.2, hat.stays.2, take, take, hmark, hmark, hclose]
  · refine ⟨⟨Nat.le_trans hr.held (by simp [spot]), ?_, hr.flow⟩, rfl,
      List.take_append_of_le_length hr.held⟩
    rintro k ⟨⟩

/-- Blocks that are not further right stay open. -/
theorem take_spot (h : ∀ c ∈ blocks.head?, c ≤ m.column) :
    (spot blocks key allowed m cs tokens).take =
      (spot blocks key allowed m cs tokens).readToken := by
  have hmark : (spot blocks key allowed m cs tokens).mark = m := Source.mark_laid
  rw [take, hmark]
  congr 1
  cases blocks with
  | nil => simp [closeBlocks, spot, inFlow]
  | cons c blocks =>
    have hc : c ≤ m.column := h c rfl
    simp [closeBlocks, spot, inFlow, hc]

/-- At the end of the text the last block ends. -/
theorem yields_end (column : Nat) (allowed : Bool) (tokens : List Placed)
    (hcolumn : column ≤ m.column)
    (htokens : ∀ p ∈ tokens, p.token ≠ .streamEnd) :
    ∃ ends, ends.map Placed.token = [.blockEnd, .streamEnd] ∧
      Yields (spot [column] none allowed m [] tokens) (tokens ++ ends) := by
  have hat : AtToken none m [] := ⟨by simp [Stands], rfl⟩
  obtain ⟨m', hend⟩ : ∃ m', (spot [column] none allowed m [] tokens).readToken = .ok
      { source := [⟨endChar, m'⟩], keyAllowed := false,
        pending := tokens ++ [.point .blockEnd m'] ++ [.point .streamEnd m'] } := by
    refine ⟨if m.column = 0 then m else ⟨m.index, m.line + 1, 0⟩, ?_⟩
    rfl
  refine ⟨[.point .blockEnd m', .point .streamEnd m'], rfl, ?_⟩
  have hstays : (spot [column] none allowed m [] tokens).dropStale =
      .ok (spot [column] none allowed m [] tokens) := hat.stays.1
  have hyields := yields_of_atEnd [.point .blockEnd m'] (e := .point .streamEnd m') hstays
    (hat.stays.2.trans ((take_spot (by simpa using hcolumn)).trans hend)) rfl ⟨rfl, rfl⟩ rfl rfl
    ?_ (by simp [spot, laid])
  · simpa [spot] using hyields
  · intro p hp
    rcases List.mem_append.mp hp with hp | hp
    · exact htokens p hp
    · rw [List.mem_singleton.mp hp]
      intro h
      cases h

end Provision.Yaml.Scanner
