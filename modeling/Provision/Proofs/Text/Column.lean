import Mathlib.Data.String.Basic
import Provision.Text.Blank
import Provision.Text.Column

/-!
# Lines and columns

Lines that have no line breaks of their own can be told apart again: a text of such lines, taken
apart at its line breaks, is these lines, with nothing after the last one. A column that is as wide
as its longest text has bytes is wide enough, as no text has more characters than bytes.

> `splitOn_lines`: a text of lines, taken apart at the line breaks;
> `newline_notMem_oneLine`: words on one line take no more than one;
> `length_le_widest`: every text fits the column that is made for it.
-/

namespace Provision.Text

/-! ## Lines -/

theorem toList_lines_cons (s : String) (l : List String) :
    (lines (s :: l)).toList = s.toList ++ '\n' :: (lines l).toList := by
  simp [lines, line, String.toList_join]

/-- A text of lines, taken apart at the line breaks. -/
theorem splitOn_lines {l : List String} (h : ∀ s ∈ l, '\n' ∉ s.toList) :
    (lines l).toList.splitOn '\n' = l.map String.toList ++ [[]] := by
  induction l with
  | nil => rfl
  | cons s l ih =>
    rw [List.forall_mem_cons] at h
    have hline : (['\n'].intercalate [s.toList]).splitOn '\n' = [s.toList] :=
      List.splitOn_intercalate '\n' (by simpa using h.1) (by simp)
    rw [List.intercalate_singleton] at hline
    rw [toList_lines_cons, List.splitOn_eq_splitOnP, List.splitOnP_append_cons _ _ (by simp),
      ← List.splitOn_eq_splitOnP, ← List.splitOn_eq_splitOnP, hline, ih h.2]
    rfl

/-- What is joined has characters of its parts, and of what stands between them. -/
theorem mem_intercalate {sep : String} {l : List String} {c : Char}
    (h : c ∈ (sep.intercalate l).toList) : c ∈ sep.toList ∨ ∃ s ∈ l, c ∈ s.toList := by
  rw [String.toList_intercalate] at h
  induction l with
  | nil => simp at h
  | cons s l ih =>
    cases l with
    | nil => exact Or.inr ⟨s, List.mem_singleton_self s, by simpa using h⟩
    | cons s' l =>
      rw [List.map_cons, List.map_cons, List.intercalate_cons_cons, List.mem_append,
        List.mem_append] at h
      rcases h with (h | h) | h
      · exact Or.inr ⟨s, List.mem_cons_self .., h⟩
      · exact Or.inl h
      · exact (ih h).imp_right fun ⟨t, ht, hc⟩ => ⟨t, List.mem_cons_of_mem _ ht, hc⟩

/-- Words on one line take no more than one. -/
theorem newline_notMem_oneLine (s : String) : '\n' ∉ (oneLine s).toList := by
  intro h
  rcases mem_intercalate h with h | ⟨w, hw, h⟩
  · exact absurd h (by decide)
  · exact absurd (isBlank_of_mem_words hw h) (by decide)

/-! ## Columns -/

/-- A padded text is followed by blanks up to its width. -/
theorem toList_padded (width : Nat) (s : String) :
    (padded width s).toList = s.toList ++ List.replicate (width - s.length) ' ' := by
  rw [padded, String.toList_append, String.toList_ofList]

/-- A text has no more characters than bytes. -/
theorem length_le_utf8ByteSize (s : String) : s.length ≤ s.utf8ByteSize := by
  have h : ∀ cs : List Char, cs.length ≤ String.utf8Len cs := by
    intro cs
    induction cs with
    | nil => exact Nat.le_refl 0
    | cons c cs ih =>
      have := c.utf8Size_pos
      rw [List.length_cons, String.utf8Len_cons]
      omega
  rw [← String.length_toList, ← String.ofList_toList (s := s), String.utf8ByteSize_ofList,
    String.toList_ofList]
  exact h s.toList

/-- A column is as wide as its widest text, and never less than its title. -/
theorem widest_le_iff {least n : Nat} {texts : List String} :
    widest least texts ≤ n ↔ least ≤ n ∧ ∀ s ∈ texts, s.utf8ByteSize ≤ n := by
  rw [widest]
  induction texts generalizing least with
  | nil => simp
  | cons s texts ih => rw [List.foldl_cons, ih, Nat.max_le, List.forall_mem_cons, and_assoc]

theorem least_le_widest (least : Nat) (texts : List String) : least ≤ widest least texts :=
  (widest_le_iff.mp (Nat.le_refl _)).1

/-- Every text fits the column that is made for it. -/
theorem length_le_widest {least : Nat} {texts : List String} {s : String} (h : s ∈ texts) :
    s.length ≤ widest least texts :=
  Nat.le_trans (length_le_utf8ByteSize s) ((widest_le_iff.mp (Nat.le_refl _)).2 s h)

end Provision.Text
