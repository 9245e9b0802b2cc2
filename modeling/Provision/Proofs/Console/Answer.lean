import Mathlib.Data.List.TakeWhile
import Provision.Console
import Provision.Proofs.Text.Utf8

/-!
# Answers

The answer to a question is the first line of what is typed. It is yes if the line is a text that
consists of `y` or `yes`, in small or capital letters, and of blanks before and after. Nothing is
said about a line break at the end, nor about what comes after it, which may not even be a text.

> `trim_ofList`: trimming takes away the blanks around a word, and nothing else;
> `ofInput_eq_yes_iff`: which inputs begin with a yes.
-/

namespace Provision

/-! ## Trimming -/

namespace Text

/-- What is taken away are blanks. -/
theorem exists_trim (s : String) : ∃ before after, s.toList = before ++ (trim s).toList ++ after ∧
    ∀ c ∈ before ++ after, isBlank c = true := by
  -- what is taken away in front, and then behind
  have hfront := List.takeWhile_append_dropWhile (p := isBlank) (l := s.toList)
  generalize hrest : s.toList.dropWhile isBlank = rest at hfront
  have hback := List.takeWhile_append_dropWhile (p := isBlank) (l := rest.reverse)
  refine ⟨s.toList.takeWhile isBlank, (rest.reverse.takeWhile isBlank).reverse, ?_, ?_⟩
  · rw [trim, hrest, String.toList_ofList, List.append_assoc, ← List.reverse_append, hback,
      List.reverse_reverse, hfront]
  · intro c hc
    rcases List.mem_append.mp hc with hc | hc
    · exact List.mem_takeWhile_imp hc
    · exact List.mem_takeWhile_imp (List.mem_reverse.mp hc)

/-- From the front, blanks are taken away up to the first letter. -/
theorem dropWhile_isBlank_append {blanks word : List Char} (hblanks : ∀ c ∈ blanks, isBlank c)
    (hword : ∀ c ∈ word, isBlank c = false) (rest : List Char) (hne : word ≠ []) :
    (blanks ++ (word ++ rest)).dropWhile isBlank = word ++ rest := by
  rw [List.dropWhile_append_of_pos hblanks]
  cases word with
  | nil => exact absurd rfl hne
  | cons c word => exact List.dropWhile_cons_of_neg (by simp [hword c (List.mem_cons_self ..)])

/-- The blanks around a word are taken away. -/
theorem trim_ofList {before word after : List Char} (hblank : ∀ c ∈ before ++ after, isBlank c)
    (hword : ∀ c ∈ word, isBlank c = false) (hne : word ≠ []) :
    trim (String.ofList (before ++ word ++ after)) = String.ofList word := by
  have hbefore : ∀ c ∈ before, isBlank c := fun c hc => hblank c (List.mem_append_left _ hc)
  have hafter : ∀ c ∈ after.reverse, isBlank c :=
    fun c hc => hblank c (List.mem_append_right _ (List.mem_reverse.mp hc))
  -- behind, it is the same of the word read backwards
  have hback := dropWhile_isBlank_append hafter
    (fun c hc => hword c (List.mem_reverse.mp hc)) [] (mt List.reverse_eq_nil_iff.mp hne)
  rw [trim, String.toList_ofList, List.append_assoc,
    dropWhile_isBlank_append hbefore hword after hne, List.reverse_append]
  rw [List.append_nil] at hback
  rw [hback, List.reverse_reverse]

end Text

/-! ## The first line -/

/-- The line ends before the line break, or where the input ends. -/
theorem firstLine_append {line rest : List UInt8} (hline : (10 : UInt8) ∉ line)
    (hrest : ∀ b ∈ rest.head?, b = 10) : firstLine (line ++ rest) = line := by
  have hall : ∀ b ∈ line, (b != 10) = true := by
    intro b hb
    rw [bne_iff_ne]
    rintro rfl
    exact hline hb
  rw [firstLine, List.takeWhile_append_of_pos hall]
  cases rest with
  | nil => exact List.append_nil _
  | cons b rest =>
    have hb : b = 10 := hrest b rfl
    rw [List.takeWhile_cons_of_neg (by simp [hb]), List.append_nil]

/-- An input is its first line, and what comes from the line break on. -/
theorem exists_firstLine (input : List UInt8) : ∃ rest, input = firstLine input ++ rest ∧
    (10 : UInt8) ∉ firstLine input ∧ ∀ b ∈ rest.head?, b = 10 := by
  refine ⟨input.dropWhile (· != 10), List.takeWhile_append_dropWhile.symm, fun h => ?_, ?_⟩
  · exact absurd (List.mem_takeWhile_imp h) (by simp)
  · -- what stops the line does not pass the test
    intro b hb
    have hstop := List.head?_dropWhile_not (· != 10) input
    rw [Option.mem_def.mp hb] at hstop
    simpa using hstop

/-! ## Yes -/

/-- An input that begins with a line that says yes: `y` or `yes`, in small or capital letters, with
blanks around. -/
inductive SaysYes : List UInt8 → Prop
  | line {line rest : List UInt8} {before word after : List Char}
      (oneLine : (10 : UInt8) ∉ line) (ends : ∀ b ∈ rest.head?, b = 10)
      (reads : line = Text.Utf8.encode (String.ofList (before ++ word ++ after)))
      (blank : ∀ c ∈ before ++ after, Text.isBlank c)
      (yes : word.map Char.toLower = ['y'] ∨ word.map Char.toLower = ['y', 'e', 's']) :
      SaysYes (line ++ rest)

/-- Blanks are no letters, and are the same in small letters. -/
theorem toLower_eq_of_isBlank {c : Char} (h : Text.isBlank c) : c.toLower = c := by
  have hletter : ¬ (c.val ≥ 'A'.val ∧ c.val ≤ 'Z'.val) := by
    rintro ⟨hlow, hhigh⟩
    have hlow : 65 ≤ c.toNat := UInt32.le_iff_toNat_le.mp hlow
    have hhigh : c.toNat ≤ 90 := UInt32.le_iff_toNat_le.mp hhigh
    simp only [Text.isBlank, Bool.or_eq_true, Bool.and_eq_true, decide_eq_true_eq, beq_iff_eq] at h
    omega
  exact dif_neg hletter

/-- The letters of a yes are no blanks. -/
theorem isBlank_eq_false_of_yes {word : List Char}
    (h : word.map Char.toLower = ['y'] ∨ word.map Char.toLower = ['y', 'e', 's']) :
    ∀ c ∈ word, Text.isBlank c = false := by
  intro c hc
  by_contra hblank
  rw [Bool.not_eq_false] at hblank
  have hsmall : c ∈ word.map Char.toLower :=
    List.mem_map.mpr ⟨c, hc, toLower_eq_of_isBlank hblank⟩
  have hletter : c = 'y' ∨ c = 'e' ∨ c = 's' := by
    rcases h with h | h
    · rw [h, List.mem_singleton] at hsmall
      exact .inl hsmall
    · rw [h] at hsmall
      simpa using hsmall
  rcases hletter with rfl | rfl | rfl <;> exact Bool.noConfusion hblank

namespace Answer

theorem ofInput_eq_yes_iff_exists (input : List UInt8) : ofInput input = yes ↔
    ∃ s, Text.Utf8.strict? (firstLine input) = some s ∧
      ((Text.trim s).map Char.toLower = "y" ∨ (Text.trim s).map Char.toLower = "yes") := by
  rw [ofInput]
  cases Text.Utf8.strict? (firstLine input) with
  | none => simp
  | some s =>
    by_cases hword : (Text.trim s).map Char.toLower = "y" ∨ (Text.trim s).map Char.toLower = "yes"
    · simp [hword]
    · simp [hword]

theorem map_toLower_eq_iff (s word : String) :
    s.map Char.toLower = word ↔ s.toList.map Char.toLower = word.toList := by
  rw [← String.toList_inj, String.toList_map]

/-- **Which inputs begin with a yes.** -/
theorem ofInput_eq_yes_iff (input : List UInt8) : ofInput input = yes ↔ SaysYes input := by
  rw [ofInput_eq_yes_iff_exists]
  simp only [map_toLower_eq_iff, Text.Utf8.strict?_eq_some_iff]
  constructor
  · rintro ⟨s, hreads, hword⟩
    obtain ⟨before, after, hs, hblank⟩ := Text.exists_trim s
    obtain ⟨rest, hinput, hone, hends⟩ := exists_firstLine input
    rw [hinput]
    refine .line hone hends ?_ hblank hword
    rw [hreads, ← hs, String.ofList_toList]
  · intro h
    cases h with
    | @line line rest before word after hone hends hreads hblank hyes =>
      have hne : word ≠ [] := by
        rintro rfl
        simp at hyes
      refine ⟨_, (firstLine_append hone hends).trans hreads, ?_⟩
      rw [Text.trim_ofList hblank (isBlank_eq_false_of_yes hyes) hne, String.toList_ofList]
      exact hyes

-- what comes after the line need not be a text
example : ofInput [0x20, 0x59, 0x45, 0x53, 0x0D, 0x0A, 0xFF] = yes := by decide +kernel

end Answer

end Provision
