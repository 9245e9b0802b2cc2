/-!
# Blank characters

The characters with the Unicode property `White_Space`. Process output is trimmed
and collapsed by them, and so is the answer to a question on the terminal.

> `isBlank_of_isWhitespace`: every character that is blank in ASCII is blank here;
> `isBlank_of_mem_words`: words have no blanks.
-/

namespace Provision.Text

/-- Whether a character separates words: the Unicode property `White_Space`. -/
def isBlank (c : Char) : Bool :=
  let n := c.toNat
  (9 ≤ n && n ≤ 13) || n == 0x20 || n == 0x85 || n == 0xA0 || n == 0x1680 ||
    (0x2000 ≤ n && n ≤ 0x200A) || n == 0x2028 || n == 0x2029 || n == 0x202F ||
    n == 0x205F || n == 0x3000

/-- White space in the narrow sense is blank. -/
theorem isBlank_of_isWhitespace {c : Char} (h : c.isWhitespace = true) : isBlank c = true := by
  simp only [Char.isWhitespace, Bool.or_eq_true, decide_eq_true_eq] at h
  rcases h with ((rfl | rfl) | rfl) | rfl <;> rfl

/-- The text without blanks at either end. -/
def trim (s : String) : String :=
  String.ofList ((s.toList.dropWhile isBlank).reverse.dropWhile isBlank).reverse

/-- Adds a character to the first word of a list of words. -/
private def extend (c : Char) : List (List Char) → List (List Char)
  | [] => [[c]]
  | w :: ws => (c :: w) :: ws

/-- The stretches between blanks, empty ones included. -/
private def split : List Char → List (List Char)
  | [] => [[]]
  | c :: cs => if isBlank c then [] :: split cs else extend c (split cs)

/-- The maximal runs of characters that are not blank. -/
def words (s : String) : List String :=
  ((split s.toList).filter fun w => !w.isEmpty).map String.ofList

/-- No word holds a blank. -/
private theorem isBlank_of_mem_split (cs : List Char) :
    ∀ w ∈ split cs, ∀ c ∈ w, isBlank c = false := by
  induction cs with
  | nil => simp [split]
  | cons d cs ih =>
    cases hd : isBlank d with
    | true => simpa [split, hd] using ih
    | false =>
      rw [split, hd, if_neg Bool.false_ne_true]
      generalize split cs = ws at ih
      cases ws with
      | nil => simpa [extend] using hd
      | cons w ws => simpa [extend, hd] using ih

/-- Words have no blanks. -/
theorem isBlank_of_mem_words {s w : String} (hw : w ∈ words s) {c : Char} (hc : c ∈ w.toList) :
    isBlank c = false := by
  obtain ⟨cs, hcs, rfl⟩ := List.mem_map.mp hw
  rw [String.toList_ofList] at hc
  exact isBlank_of_mem_split s.toList cs (List.mem_filter.mp hcs).1 c hc

/-- The words of a text on one line, one space between each two. -/
def oneLine (s : String) : String := " ".intercalate (words s)

end Provision.Text
