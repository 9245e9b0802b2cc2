import Provision.Proofs.Recipe.Segments

/-!
# Expansions of the shell inside of templates

A reference for the shell ends at the first closing brace, whatever it holds. Expansions of the
shell may stand inside of one another, and then all but the innermost one are left with a closing
brace outside of any reference: a loose one. Read by itself it is copied. But a template has the
second of two loose braces in a row for a doubled one, and shows one brace for both. So a template
made of expansions is not always copied: a loose brace is lost if it stands directly after
a loose brace that is kept.

> `shows_write`: what a text of expansions shows, whatever follows it;
> `shown_eq_write_iff`: when nothing is lost;
> `substitute_shellText`: what becomes of a template made of expansions.
-/

namespace Provision.Template

/-! ## Texts of expansions -/

/-- A text without braces, except for those of well-nested expansions of the shell. -/
inductive ShellText
  | nil
  | plain (c : Char) (rest : ShellText) (free : c ≠ '\x7b' ∧ c ≠ '\x7d' := by decide)
  | expansion (inner rest : ShellText)
deriving DecidableEq, Repr

namespace ShellText

/-- How the text is written. -/
def write : ShellText → List Char
  | nil => []
  | plain c rest _ => c :: rest.write
  | expansion inner rest => '$' :: '\x7b' :: (inner.write ++ '\x7d' :: rest.write)

/-- How deep expansions are nested. -/
def depth : ShellText → Nat
  | nil => 0
  | plain _ rest _ => rest.depth
  | expansion inner rest => max (inner.depth + 1) rest.depth

def isNil : ShellText → Bool
  | nil => true
  | _ => false

/-- Whether there is an expansion in the text. -/
def expands : ShellText → Bool
  | nil => false
  | plain _ rest _ => rest.expands
  | expansion _ _ => true

/-- Whether the text ends with an expansion that holds another one. -/
def endsLayered : ShellText → Bool
  | nil => false
  | plain _ rest _ => rest.endsLayered
  | expansion inner rest => rest.isNil && inner.expands || rest.endsLayered

/-- Whether no expansion in the text ends with one that holds another one. -/
def Whole : ShellText → Prop
  | nil => True
  | plain _ rest _ => rest.Whole
  | expansion inner rest => inner.endsLayered = false ∧ inner.Whole ∧ rest.Whole

/-- Whether the text ends with a loose closing brace that is kept, so that another one after it is
lost. -/
def endsLoose : ShellText → Bool
  | nil => false
  | plain _ rest _ => rest.endsLoose
  | expansion inner rest => rest.isNil && inner.expands && !inner.endsLoose || rest.endsLoose

/-- What the text shows: of loose closing braces in a row every second one is lost. -/
def shown : ShellText → List Char
  | nil => []
  | plain c rest _ => c :: rest.shown
  | expansion inner rest => '$' :: '\x7b' ::
    (inner.shown ++ (if inner.endsLoose then [] else ['\x7d']) ++ rest.shown)

theorem isNil_iff {t : ShellText} : t.isNil = true ↔ t = nil := by
  cases t <;> simp [isNil]

/-- A text that ends in a loose brace contains an expansion. -/
theorem expands_of_endsLoose {t : ShellText} (h : t.endsLoose = true) : t.expands = true := by
  induction t with
  | nil => exact h
  | plain _ _ _ ih => exact ih h
  | expansion => rfl

/-- A text does not begin with a brace, nor does what follows it if it is empty. -/
theorem head?_write_append {t : ShellText} {rest : List Char} {c : Char}
    (hc : c = '\x7b' ∨ c = '\x7d') (h : t = nil → rest.head? ≠ some c) :
    (t.write ++ rest).head? ≠ some c := by
  cases t with
  | nil => exact h rfl
  | plain d _ free =>
    have hd : d ≠ c := by
      rintro rfl
      rcases hc with rfl | rfl
      · exact free.1 rfl
      · exact free.2 rfl
    simpa [write] using hd
  | expansion inner _ =>
    have hd : '$' ≠ c := by
      rintro rfl
      simp at hc
    simpa [write] using hd

end ShellText

/-! ## Reading what follows -/

/-- Whether a rest of a template has a text, without the need of values that are missing. -/
def Shows (value : String → Option String) (cs out : List Char) : Prop :=
  renderPieces value (pieces cs) = .ok out

variable {value : String → Option String}

theorem Shows.nil : Shows value [] [] := by
  rw [Shows, pieces, renderPieces]

/-- A literal piece is shown as it is. -/
theorem Shows.literal {c : Char} {cs rest shown out : List Char}
    (hnext : next c cs = (.literal shown, rest)) (h : Shows value rest out) :
    Shows value (c :: cs) (shown ++ out) := by
  rw [Shows, pieces, hnext, renderPieces]
  rw [Shows] at h
  rw [h]
  rfl

/-- What is left to read after a text: a loose closing brace at its end takes another one with
it. -/
def afterLoose : Bool → List Char → List Char
  | true, '\x7d' :: rest => rest
  | _, rest => rest

theorem afterLoose_false (rest : List Char) : afterLoose false rest = rest := by
  cases rest <;> rfl

/-- A loose brace is lost only before another closing brace. -/
theorem afterLoose_of_head? (loose : Bool) {rest : List Char}
    (h : rest.head? ≠ some '\x7d') : afterLoose loose rest = rest := by
  cases rest with
  | nil => cases loose <;> rfl
  | cons c rest =>
    have hc : c ≠ '\x7d' := fun hc => h (hc ▸ rfl)
    cases loose <;> simp [afterLoose, hc]

/-- A loose closing brace is shown, and takes another one with it. -/
theorem Shows.closing {rest out : List Char} (h : Shows value (afterLoose true rest) out) :
    Shows value ('\x7d' :: rest) ('\x7d' :: out) := by
  by_cases hrest : rest.head? = some '\x7d'
  · obtain ⟨rest, rfl⟩ := List.head?_eq_some_iff.mp hrest
    exact Shows.literal (next_doubled (Or.inr rfl) rest) h
  · rw [afterLoose_of_head? true hrest] at h
    exact Shows.literal (next_closing hrest) h

/-! ## Reading texts of expansions -/

/-- What the closing brace of an expansion and what follows it show. The brace ends the reference if
the text of the expansion holds no other one; otherwise it is a loose one. -/
def Closes (value : String → Option String) (inner : ShellText) (rest out : List Char) : Prop :=
  if inner.expands then Shows value (afterLoose inner.endsLoose ('\x7d' :: rest)) out
  else ∃ out', out = '\x7d' :: out' ∧ Shows value rest out'

/-- Whether a text that is read from its beginning is shown as `shown` says, whatever follows. -/
def ShownOutside (value : String → Option String) (t : ShellText) : Prop :=
  ∀ {rest out : List Char}, rest.head? ≠ some '\x7b' →
    Shows value (afterLoose t.endsLoose rest) out → Shows value (t.write ++ rest) (t.shown ++ out)

/-- Whether a text inside of a reference that has been begun is shown as `shown` says: the reference
is copied up to the first closing brace, and what follows that one is read. -/
def ShownInside (value : String → Option String) (t : ShellText) : Prop :=
  ∀ {rest out : List Char}, Closes value t rest out →
    ∃ before after out', t.write ++ '\x7d' :: rest = before ++ '\x7d' :: after ∧
      '\x7d' ∉ before ∧ Shows value after out' ∧ before ++ '\x7d' :: out' = t.shown ++ out

/-- What follows the text of an expansion: its closing brace, unless that is lost, and the text
after it. -/
theorem closes_expansion {inner rest : ShellText} (hrest : ShownOutside value rest)
    {after out : List Char} (hafter : after.head? ≠ some '\x7b')
    (h : Shows value (afterLoose (ShellText.expansion inner rest).endsLoose after) out) :
    Closes value inner (rest.write ++ after)
      ((if inner.endsLoose then [] else ['\x7d']) ++ (rest.shown ++ out)) := by
  rw [ShellText.endsLoose] at h
  rw [Closes]
  cases hexpands : inner.expands with
  | false =>
    have hloose : inner.endsLoose = false := by
      rw [← Bool.not_eq_true]
      exact fun hloose => by simp [ShellText.expands_of_endsLoose hloose] at hexpands
    rw [hexpands, Bool.and_false, Bool.false_and, Bool.false_or] at h
    rw [hloose]
    exact ⟨rest.shown ++ out, rfl, hrest hafter h⟩
  | true =>
    cases hloose : inner.endsLoose with
    | true =>
      -- the closing brace is lost after the loose one at the end of the text
      rw [hloose, Bool.not_true, Bool.and_false, Bool.false_or] at h
      exact hrest hafter h
    | false =>
      rw [hexpands, hloose, Bool.not_false, Bool.and_true, Bool.and_true] at h
      rw [if_pos rfl, afterLoose_false]
      refine Shows.closing ?_
      by_cases hnil : rest = .nil
      · subst hnil
        exact h
      · -- the text after the expansion does not begin with a brace
        have hempty : rest.isNil = false := by
          rw [← Bool.not_eq_true, ShellText.isNil_iff]
          exact hnil
        rw [hempty, Bool.false_or] at h
        have hhead : (rest.write ++ after).head? ≠ some '\x7d' :=
          ShellText.head?_write_append (Or.inr rfl) fun h => absurd h hnil
        rw [afterLoose_of_head? _ hhead]
        exact hrest hafter h

/-- A reference that is begun is shown, with all that its text holds. -/
theorem shows_reference {inner : ShellText} (hinner : ShownInside value inner)
    {rest out : List Char} (h : Closes value inner rest out) :
    Shows value ('$' :: '\x7b' :: (inner.write ++ '\x7d' :: rest))
      ('$' :: '\x7b' :: (inner.shown ++ out)) := by
  obtain ⟨before, after, out', hsplit, hbefore, hafter, hshown⟩ := hinner h
  have hreference := Shows.literal (next_shell hbefore after) hafter
  rw [hsplit, ← hshown]
  simpa using hreference

/-- **Texts of expansions are shown.** The induction is on the text: an expansion is shown by what
is known of the text inside of it, which is read after a reference has been begun, and of the text
after it, which is read either way. -/
theorem shownOutside_and_shownInside (value : String → Option String) (t : ShellText) :
    ShownOutside value t ∧ ShownInside value t := by
  induction t with
  | nil =>
    constructor
    · intro rest out _ h
      simpa [ShellText.endsLoose, afterLoose_false, ShellText.write, ShellText.shown] using h
    · -- the closing brace ends the reference
      intro rest out h
      obtain ⟨out', rfl, hout'⟩ := h
      exact ⟨[], rest, out', rfl, by simp, hout', rfl⟩
  | plain c t free ih =>
    obtain ⟨houter, hinner⟩ := ih
    constructor
    · intro rest out hrest h
      have hnext : next c (t.write ++ rest) = (.literal [c], t.write ++ rest) := by
        by_cases hdollar : c = '$'
        · subst hdollar
          exact next_dollar (ShellText.head?_write_append (Or.inl rfl) fun _ => hrest)
        · exact next_other free.1 free.2 hdollar _
      have hshown := Shows.literal hnext (houter hrest h)
      simpa [ShellText.write, ShellText.shown] using hshown
    · intro rest out h
      obtain ⟨before, after, out', hsplit, hbefore, hafter, hshown⟩ := hinner h
      refine ⟨c :: before, after, out', ?_, ?_, hafter, ?_⟩
      · rw [ShellText.write, List.cons_append, hsplit, List.cons_append]
      · rw [List.mem_cons, not_or]
        exact ⟨free.2.symm, hbefore⟩
      · rw [ShellText.shown, List.cons_append, List.cons_append, hshown]
  | expansion inner t ihinner iht =>
    obtain ⟨houter, -⟩ := iht
    obtain ⟨-, hinner⟩ := ihinner
    constructor
    · -- the reference is begun here
      intro rest out hrest h
      have hreference := shows_reference hinner (closes_expansion houter hrest h)
      simpa [ShellText.write, ShellText.shown] using hreference
    · -- the reference has been begun before, and its first closing brace is that of the innermost
      -- expansion, so that this one is copied as a part of it
      intro rest out h
      have hcloses := closes_expansion houter (by simp) h
      obtain ⟨before, after, out', hsplit, hbefore, hafter, hshown⟩ := hinner hcloses
      refine ⟨'$' :: '\x7b' :: before, after, out', ?_, ?_, hafter, ?_⟩
      · simpa [ShellText.write] using hsplit
      · simpa using hbefore
      · simpa [ShellText.shown] using hshown

/-- What a text of expansions shows. -/
theorem shows_write (value : String → Option String) (t : ShellText) :
    Shows value t.write t.shown := by
  have hend : Shows value (afterLoose t.endsLoose []) [] := by
    rw [afterLoose_of_head? _ (by simp)]
    exact Shows.nil
  have h := (shownOutside_and_shownInside value t).1 (by simp) hend
  rwa [List.append_nil, List.append_nil] at h

/-! ## What is lost -/

namespace ShellText

/-- Nothing is added, and nothing changes its place. -/
theorem shown_sublist (t : ShellText) : t.shown.Sublist t.write := by
  induction t with
  | nil => exact .slnil
  | plain c t _ ih => exact ih.cons_cons c
  | expansion inner t ihinner iht =>
    have hbrace : (if inner.endsLoose then [] else ['\x7d']).Sublist ['\x7d'] := by
      split <;> simp
    rw [shown, write, List.append_assoc]
    exact ((ihinner.append (hbrace.append iht)).cons_cons _).cons_cons _

/-- An expansion is shown as it is written exactly when nothing is lost inside, after it or at its
end. -/
theorem shown_expansion_eq_iff (inner t : ShellText) :
    (expansion inner t).shown = (expansion inner t).write ↔
      inner.endsLoose = false ∧ inner.shown = inner.write ∧ t.shown = t.write := by
  constructor
  · intro h
    -- what is shown is no longer than what is written, part by part
    have hlength := congrArg List.length h
    have hinner := inner.shown_sublist.length_le
    have ht := t.shown_sublist.length_le
    simp only [shown, write, List.length_cons, List.length_append] at hlength
    cases hloose : inner.endsLoose with
    | true =>
      simp only [hloose, if_true, List.length_nil] at hlength
      omega
    | false =>
      simp only [hloose, Bool.false_eq_true, if_false, List.length_singleton] at hlength
      exact ⟨rfl, inner.shown_sublist.eq_of_length (by omega),
        t.shown_sublist.eq_of_length (by omega)⟩
  · rintro ⟨hloose, hinner, ht⟩
    rw [shown, write, hloose, hinner, ht]
    simp

/-- As long as nothing is lost, an expansion that holds another one ends with a loose brace. -/
theorem endsLoose_eq_endsLayered {t : ShellText} (h : t.shown = t.write) :
    t.endsLoose = t.endsLayered := by
  induction t with
  | nil => rfl
  | plain c t _ ih => exact ih (List.cons.inj h).2
  | expansion inner t _ iht =>
    obtain ⟨hloose, -, ht⟩ := (shown_expansion_eq_iff inner t).mp h
    rw [endsLoose, endsLayered, hloose, iht ht, Bool.not_false, Bool.and_true]

/-- **When nothing is lost**: no expansion ends with one that holds another one. -/
theorem shown_eq_write_iff (t : ShellText) : t.shown = t.write ↔ t.Whole := by
  induction t with
  | nil => simp [shown, write, Whole]
  | plain c t _ ih => simp [shown, write, Whole, ih]
  | expansion inner t ihinner iht =>
    rw [shown_expansion_eq_iff, ihinner, iht, Whole]
    refine and_congr_left fun h => ?_
    rw [endsLoose_eq_endsLayered (ihinner.mpr h.1)]

/-- A text with an expansion has a positive depth. -/
theorem depth_pos_of_expands {t : ShellText} (h : t.expands = true) : 0 < t.depth := by
  induction t with
  | nil => simp [expands] at h
  | plain _ t _ ih => exact ih h
  | expansion inner t => exact Nat.lt_of_lt_of_le (Nat.succ_pos _) (Nat.le_max_left _ _)

/-- A text that ends in two layers has a depth of two at least. -/
theorem one_lt_depth_of_endsLayered {t : ShellText} (h : t.endsLayered = true) : 1 < t.depth := by
  induction t with
  | nil => simp [endsLayered] at h
  | plain _ t _ ih => exact ih h
  | expansion inner t _ iht =>
    rw [endsLayered, Bool.or_eq_true, Bool.and_eq_true] at h
    rw [depth]
    rcases h with ⟨-, hexpands⟩ | ht
    · have hinner := depth_pos_of_expands hexpands
      omega
    · have ht := iht ht
      omega

/-- Nothing is lost of expansions that are nested at most twice. -/
theorem whole_of_depth_le {t : ShellText} (h : t.depth ≤ 2) : t.Whole := by
  induction t with
  | nil => trivial
  | plain _ t _ ih => exact ih h
  | expansion inner t ihinner iht =>
    rw [depth] at h
    refine ⟨?_, ihinner (by omega), iht (by omega)⟩
    rw [← Bool.not_eq_true]
    intro hlayered
    have hinner := one_lt_depth_of_endsLayered hlayered
    omega

end ShellText

/-! ## Templates -/

/-- A text for the shell is shown, with what it loses, whatever the bindings are. -/
theorem substitute_write (recipe : String) (b : Bindings) (t : ShellText) :
    Recipe.substitute recipe (String.ofList t.write) b = .ok (String.ofList t.shown) := by
  have h := shows_write b.get? t
  rw [Shows] at h
  rw [Recipe.substitute, render, String.toList_ofList, h]
  rfl

/-- **What becomes of a template made of expansions.** It is never refused, whatever is bound, and
its text is what the expansions show: of closing braces that are left over in a row every second
one is lost. It is copied exactly if no expansion ends with one that holds another one, and so
always if expansions are nested at most twice. -/
theorem substitute_shellText (recipe : String) (b : Bindings) (t : ShellText) :
    Recipe.substitute recipe (String.ofList t.write) b = .ok (String.ofList t.shown) ∧
    (Recipe.substitute recipe (String.ofList t.write) b = .ok (String.ofList t.write) ↔ t.Whole) ∧
    (t.depth ≤ 2 → Recipe.substitute recipe (String.ofList t.write) b =
      .ok (String.ofList t.write)) := by
  have hwhole : Recipe.substitute recipe (String.ofList t.write) b = .ok (String.ofList t.write) ↔
      t.Whole := by
    rw [substitute_write, Except.ok.injEq, String.ofList_inj, ShellText.shown_eq_write_iff]
  exact ⟨substitute_write recipe b t, hwhole,
    fun h => hwhole.mpr (ShellText.whole_of_depth_le h)⟩

/-- A variable, or else another one. -/
def fallback : ShellText :=
  .expansion (.plain 'a' (.plain ':' (.plain '-' (.expansion (.plain 'b' .nil) .nil)))) .nil

/-- A default inside of a default, which keeps its braces. -/
theorem substitute_shellText_fallback :
    fallback.depth ≤ 2 ∧
    Recipe.substitute "r" "$\x7ba:-$\x7bb\x7d\x7d" ∅ = .ok "$\x7ba:-$\x7bb\x7d\x7d" :=
  ⟨by decide, (substitute_shellText "r" ∅ fallback).2.2 (by decide)⟩

/-- A variable, or else another one, or else a third one. -/
def fallbacks : ShellText :=
  .expansion (.plain 'a' (.plain ':' (.plain '-' (.expansion
    (.plain 'b' (.plain ':' (.plain '-' (.expansion (.plain 'c' .nil) .nil)))) .nil)))) .nil

/-- **A closing brace may be lost.** The template is made of well-nested expansions, but the text is
a brace short of it. -/
theorem substitute_loses_brace :
    String.ofList fallbacks.write = "$\x7ba:-$\x7bb:-$\x7bc\x7d\x7d\x7d" ∧
    Recipe.substitute "r" (String.ofList fallbacks.write) ∅ =
      .ok "$\x7ba:-$\x7bb:-$\x7bc\x7d\x7d" ∧
    Recipe.substitute "r" (String.ofList fallbacks.write) ∅ ≠
      .ok (String.ofList fallbacks.write) := by
  rw [substitute_write]
  decide

end Provision.Template
