import Mathlib.Data.String.Basic
import Provision.Yaml.Outline.Scalar
import Provision.Yaml.Source

/-!
# Written text as a source

A text that is written has line feeds for its breaks, or the two separators of Unicode, so that
each of its characters is located by itself. What comes before and after a character is told by
the marks: a column counts the characters since the last break.

> `locate_eq_laid`: a text of safe characters is located one character at a time;
> `past_solid`: on one line the columns count up.
-/

namespace Provision.Yaml

open Outline (isSafe endsLine spaces)

/-- What holds of all characters of a text is decided along the text. There is another way, through
all the characters there are, which takes too long. -/
scoped instance (priority := high) decidableForallMem {p : Char → Prop} [DecidablePred p]
    (cs : List Char) : Decidable (∀ c ∈ cs, p c) :=
  List.decidableBAll p cs

/-! ## Marks -/

namespace Mark

/-- The place after a character that stands for itself. -/
def after (m : Mark) (c : Char) : Mark := if isBreak c then m.nextLine c.utf8Size else m.next c

/-- The place after several of them. -/
def past (m : Mark) (cs : List Char) : Mark := cs.foldl after m

@[simp] theorem past_nil (m : Mark) : m.past [] = m := rfl

@[simp] theorem past_cons (m : Mark) (c : Char) (cs : List Char) :
    m.past (c :: cs) = (m.after c).past cs := rfl

theorem past_append (m : Mark) (cs ds : List Char) : m.past (cs ++ ds) = (m.past cs).past ds :=
  List.foldl_append

theorem after_of_not_isBreak {c : Char} (h : isBreak c = false) (m : Mark) :
    m.after c = m.next c := by
  rw [after, h, if_neg Bool.false_ne_true]

theorem after_of_isBreak {c : Char} (h : isBreak c = true) (m : Mark) :
    m.after c = m.nextLine c.utf8Size := by
  rw [after, if_pos h]

/-- On one line the columns count up, and the index counts bytes. -/
theorem past_solid {cs : List Char} (h : ∀ c ∈ cs, isBreak c = false) (m : Mark) :
    m.past cs = ⟨m.index + String.utf8Len cs, m.line, m.column + cs.length⟩ := by
  induction cs generalizing m with
  | nil => rfl
  | cons c cs ih =>
    rw [List.forall_mem_cons] at h
    rw [past_cons, after_of_not_isBreak h.1, ih h.2]
    simp only [next, String.utf8Len_cons, List.length_cons, Nat.add_assoc, Nat.add_comm 1,
      Nat.add_comm c.utf8Size]

theorem not_isBreak_of_mem_spaces {n : Nat} : ∀ c ∈ spaces n, isBreak c = false := by
  intro c hc
  rw [List.eq_of_mem_replicate hc]
  rfl

/-- The column after the spaces that begin a line is their number. -/
theorem column_past_line (m : Mark) {c : Char} (hc : isBreak c = true) (n : Nat) :
    (m.past (c :: spaces n)).column = n := by
  rw [past_cons, after_of_isBreak hc, past_solid not_isBreak_of_mem_spaces]
  simp [nextLine, spaces]

/-- After a break the line is a later one. -/
theorem line_lt_past_line (m : Mark) {c : Char} (hc : isBreak c = true) (n : Nat) :
    m.line < (m.past (c :: spaces n)).line := by
  rw [past_cons, after_of_isBreak hc, past_solid not_isBreak_of_mem_spaces]
  exact Nat.lt_succ_self _

/-- Lines are never left again. -/
theorem line_le_past (m : Mark) (cs : List Char) : m.line ≤ (m.past cs).line := by
  induction cs generalizing m with
  | nil => exact Nat.le_refl _
  | cons c cs ih =>
    refine Nat.le_trans ?_ (ih (m.after c))
    rw [after]
    split
    · exact Nat.le_succ _
    · exact Nat.le_refl _

/-- The bytes before a place only become more. -/
theorem index_le_past (m : Mark) (cs : List Char) : m.index ≤ (m.past cs).index := by
  induction cs generalizing m with
  | nil => exact Nat.le_refl _
  | cons c cs ih =>
    refine Nat.le_trans ?_ (ih (m.after c))
    rw [after]
    split <;> exact Nat.le_add_right _ _

end Mark

/-! ## Located characters -/

namespace Source

/-- Characters from a mark on, each by itself, and the end after them. -/
def laid : Mark → List Char → Source
  | m, [] => [⟨endChar, m⟩]
  | m, c :: cs => ⟨c, m⟩ :: laid (m.after c) cs

variable {m : Mark} {c : Char} {cs : List Char}

@[simp] theorem char_laid_cons : char (laid m (c :: cs)) = c := rfl

@[simp] theorem char_laid_nil : char (laid m []) = endChar := rfl

@[simp] theorem mark_laid : mark (laid m cs) = m := by cases cs <;> rfl

@[simp] theorem column_laid : column (laid m cs) = m.column := by rw [column, mark_laid]

@[simp] theorem drop_laid_cons (n : Nat) :
    (laid m (c :: cs)).drop (n + 1) = (laid (m.after c) cs).drop n := rfl

@[simp] theorem tail_laid_cons : (laid m (c :: cs)).tail = laid (m.after c) cs := rfl

@[simp] theorem charAt_laid_zero : charAt (laid m cs) 0 = char (laid m cs) := rfl

@[simp] theorem charAt_laid_cons (n : Nat) :
    charAt (laid m (c :: cs)) (n + 1) = charAt (laid (m.after c) cs) n := rfl

@[simp] theorem length_laid : (laid m cs).length = cs.length + 1 := by
  induction cs generalizing m with
  | nil => rfl
  | cons c cs ih => rw [laid, List.length_cons, ih, List.length_cons]

/-- A run of characters ends where another one begins. -/
theorem run_laid {p : Char → Bool} {run rest : List Char} (hrun : ∀ c ∈ run, p c = true)
    (hrest : p (char (laid (m.past run) rest)) = false) :
    Source.run p (laid m (run ++ rest)) = (run, laid (m.past run) rest) := by
  induction run generalizing m with
  | nil =>
    cases rest with
    | nil => simp only [laid, char, List.nil_append, Mark.past_nil] at hrest ⊢
             rw [Source.run, hrest]
             rfl
    | cons c rest =>
      simp only [List.nil_append, Mark.past_nil, char_laid_cons] at hrest ⊢
      rw [laid, Source.run, hrest]
      rfl
  | cons c run ih =>
    rw [List.forall_mem_cons] at hrun
    rw [List.cons_append, laid, Source.run, hrun.1, ih hrun.2 hrest]
    rfl

/-- Right of the first column no document can open or close. -/
theorem atDocumentMark_eq_false {m : Mark} (hcolumn : 0 < m.column) (cs : List Char) :
    atDocumentMark (laid m cs) = false := by
  have : (m.column == 0) = false := by simpa using Nat.pos_iff_ne_zero.mp hcolumn
  simp [atDocumentMark, startsDocumentMark, this]

end Source

/-- Whether a text is empty or begins with a character that is passed over nowhere: a token
stands there. -/
def Stands (cs : List Char) : Prop :=
  ∀ c ∈ cs.head?, isWhite c = false ∧ isBreak c = false ∧ c ≠ '#' ∧ c ≠ '\uFEFF'

/-- What stands is neither white nor a break, and neither is the end of the text. -/
theorem Stands.char {cs : List Char} (h : Stands cs) (m : Mark) :
    isWhite (Source.char (Source.laid m cs)) = false ∧
      isBreak (Source.char (Source.laid m cs)) = false := by
  cases cs with
  | nil => exact ⟨rfl, rfl⟩
  | cons c cs =>
    obtain ⟨hwhite, hbreak, -, -⟩ := h c rfl
    exact ⟨hwhite, hbreak⟩

/-! ## Safe characters -/

/-- A safe character is no carriage return and no next line, which would be made a line feed. -/
theorem ne_of_isSafe {c : Char} (h : isSafe c = true) : c ≠ '\r' ∧ c ≠ '\x85' := by
  constructor <;> rintro rfl <;> exact absurd h (by decide)

/-- A safe character is no tab and not the end of the text. -/
theorem ne_tab_of_isSafe {c : Char} (h : isSafe c = true) : c ≠ '\t' ∧ c ≠ endChar := by
  constructor <;> rintro rfl <;> exact absurd h (by decide)

/-- Among safe characters a line ends at a break. -/
theorem endsLine_eq_isBreak {c : Char} (h : isSafe c = true) : endsLine c = isBreak c := by
  obtain ⟨hreturn, hnext⟩ := ne_of_isSafe h
  rw [endsLine, beq_false_of_ne hreturn, beq_false_of_ne hnext, Bool.or_false, Bool.or_false]

/-- What is known of a safe character that is neither a space nor ends a line. -/
theorem solid_of_isSafe {c : Char} (h : isSafe c = true) (hline : endsLine c = false)
    (hspace : c ≠ ' ') : isWhite c = false ∧ isBreak c = false ∧ c ≠ endChar := by
  obtain ⟨htab, hend⟩ := ne_tab_of_isSafe h
  exact ⟨by simp [isWhite, hspace, htab], (endsLine_eq_isBreak h).symm.trans hline, hend⟩

/-- A text of safe characters is located one character at a time. -/
theorem locate_eq_laid {cs : List Char} (h : ∀ c ∈ cs, isSafe c = true) (m : Mark) :
    locate m cs = Source.laid m cs := by
  induction cs generalizing m with
  | nil => rfl
  | cons c cs ih =>
    rw [List.forall_mem_cons] at h
    obtain ⟨hreturn, hnext⟩ := ne_of_isSafe h.1
    rw [locate.eq_def]
    split
    next heq => exact nomatch heq
    next heq => exact absurd (List.cons.inj heq).1 hreturn
    next heq =>
      obtain ⟨rfl, rfl⟩ := List.cons.inj heq
      rw [Source.laid, ih h.2, ih h.2, Mark.after]
      by_cases hfeed : c = '\n'
      · subst hfeed
        rfl
      · rw [if_neg (by simp [hreturn, hnext, hfeed])]
        split <;> rfl

/-- A safe character may occur in a text. -/
theorem isAllowed_of_isSafe {c : Char} (h : isSafe c = true) : isAllowed c = true := by
  simp only [isSafe, isAllowed, Bool.or_eq_true, Bool.and_eq_true, beq_iff_eq, bne_iff_ne,
    decide_eq_true_eq] at h ⊢
  omega

/-- A text of safe characters can be read to its end. -/
theorem readable_of_isSafe {cs : List Char} (h : ∀ c ∈ cs, isSafe c = true) :
    readable cs = ⟨cs, none⟩ := by
  have hwalk : ∀ {cs : List Char} (done block : List Char) (offset blockEnd : Nat),
      (∀ c ∈ cs, isSafe c = true) →
        readableFrom done block offset blockEnd cs = ⟨(block ++ done).reverse ++ cs, none⟩ := by
    intro cs
    induction cs with
    | nil => intros; simp [readableFrom]
    | cons c cs ih =>
      intro done block offset blockEnd h
      rw [List.forall_mem_cons] at h
      by_cases hblock : blockEnd < offset + c.utf8Size
      · simp [readableFrom, isAllowed_of_isSafe h.1, hblock, ih _ _ _ _ h.2]
      · simp [readableFrom, isAllowed_of_isSafe h.1, hblock, ih _ _ _ _ h.2]
  rw [readable, hwalk _ _ _ _ h]
  rfl

end Provision.Yaml
