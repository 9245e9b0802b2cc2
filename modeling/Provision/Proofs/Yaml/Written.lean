import Provision.Yaml.Outline.Scalar
import Provision.Proofs.Result
import Provision.Proofs.Yaml.Number
import Provision.Proofs.Yaml.Scalar

/-!
# Values are written part by part

The style of a scalar is settled where it is written, as a key or elsewhere. Whatever it comes to
be, the scalar means what has been read: numbers and words stay plain text, and a string that would
mean something else is quoted.

> `ofValueIn_means`: a scalar that fits is written as one that means it;
> `ofItems_eq_ok_iff`, `ofEntries_eq_ok_iff`: collections are written part by part.
-/

namespace Provision.Yaml

open Provision.Number (Binary64 minus)

namespace Outline

open Scalar (ofNode ofPlain)

/-! ## Plain text -/

/-- No pair of neighbours has a property that none of the characters has. -/
theorem hasPair_eq_false {p q : Char → Bool} {cs : List Char} (h : ∀ c ∈ cs, p c = false) :
    hasPair p q cs = false := by
  induction cs with
  | nil => rfl
  | cons a cs ih =>
    rw [List.forall_mem_cons] at h
    cases cs with
    | nil => rfl
    | cons b cs => rw [hasPair, h.1, ih h.2, Bool.false_and, Bool.or_self]

/-- A text without colons and hashes has no mark inside. -/
theorem hasInnerMark_eq_false {cs : List Char} (h : ∀ c ∈ cs, c ≠ ':' ∧ c ≠ '#') (before : Char) :
    hasInnerMark before cs = false := by
  induction cs generalizing before with
  | nil => rfl
  | cons c cs ih =>
    rw [List.forall_mem_cons] at h
    simp [hasInnerMark, h.1, ih h.2]

/-- A property of digits, checked one by one. -/
@[elab_as_elim]
theorem forall_isDigit {P : Char → Prop} {c : Char} (hc : c.isDigit = true)
    (h : ∀ n < 10, P (Char.ofNat (48 + n))) : P c := by
  obtain ⟨hlow, hhigh⟩ := Char.isDigit_iff_toNat.mp hc
  have hzero : '0'.toNat = 48 := rfl
  have hnine : '9'.toNat = 57 := rfl
  have := h (c.toNat - 48) (by omega)
  rwa [(by omega : 48 + (c.toNat - 48) = c.toNat), Char.ofNat_toNat] at this

/-- A digit neither begins a structure nor separates words. -/
theorem looksStructural_of_isDigit {c : Char} (h : c.isDigit = true) :
    c ≠ '-' ∧ c ≠ '.' ∧ indicators.contains c = false ∧ ['?', ':', '-'].contains c = false ∧
      separates c = false :=
  forall_isDigit h (by decide)

/-- What occurs in numbers can stand in plain text. -/
theorem isSafe_of_isNumeric {c : Char} (h : Scalar.isNumeric c = true) :
    isSafe c = true ∧ endsLine c = false ∧ c ≠ ' ' ∧ c ≠ ':' ∧ c ≠ '#' := by
  rw [Scalar.isNumeric, Bool.or_eq_true, List.contains_iff_mem] at h
  rcases h with h | h
  · exact forall_isDigit h (by decide)
  · simp only [List.mem_cons, List.not_mem_nil, or_false] at h
    rcases h with rfl | rfl | rfl | rfl <;> decide

/-- A text of digits and signs can stand plain. -/
theorem plainHolds_of_isNumeric {cs : List Char} (hall : ∀ c ∈ cs, Scalar.isNumeric c = true)
    (hstructural : looksStructural cs = false) : plainHolds cs = true := by
  have hsafe : cs.any (fun c => !isSafe c) = false := by
    rw [List.any_eq_false]
    intro c hc
    simp [(isSafe_of_isNumeric (hall c hc)).1]
  have hends : cs.any endsLine = false := by
    rw [List.any_eq_false]
    intro c hc
    simp [(isSafe_of_isNumeric (hall c hc)).2.1]
  have hspace : ∀ c ∈ cs, (c == ' ') = false := fun c hc =>
    beq_false_of_ne (isSafe_of_isNumeric (hall c hc)).2.2.1
  have hhead : (cs.head? == some ' ') = false := by
    rw [beq_eq_false_iff_ne]
    intro h
    exact (isSafe_of_isNumeric (hall _ (List.mem_of_head? h))).2.2.1 rfl
  have hlast : (cs.getLast? == some ' ') = false := by
    rw [beq_eq_false_iff_ne]
    intro h
    exact (isSafe_of_isNumeric (hall _ (List.mem_of_getLast? h))).2.2.1 rfl
  rw [plainHolds, needsEscapes, hsafe, hasPair_eq_false hspace, hends, hhead, hlast, hstructural]
  rfl

/-- **Plain text can hold a number.** -/
theorem plainHolds_minus {c : Char} {rest : List Char} (negative : Bool) (hc : c.isDigit = true)
    (hrest : ∀ d ∈ rest, Scalar.isNumeric d = true) :
    plainHolds (minus negative (c :: rest)) = true := by
  obtain ⟨hminus, hpoint, hindicator, hmark, hseparates⟩ := looksStructural_of_isDigit hc
  have hinner : ∀ {cs : List Char}, (∀ d ∈ cs, Scalar.isNumeric d = true) → ∀ before,
      hasInnerMark before cs = false := fun hcs =>
    hasInnerMark_eq_false fun d hd => (isSafe_of_isNumeric (hcs d hd)).2.2.2
  have hbody : ∀ d ∈ c :: rest, Scalar.isNumeric d = true :=
    List.forall_mem_cons.mpr ⟨Scalar.isNumeric_of_isDigit hc, hrest⟩
  cases negative with
  | true =>
    -- a minus looks like the mark of an item unless a digit comes next
    refine plainHolds_of_isNumeric (List.forall_mem_cons.mpr ⟨by decide, hbody⟩) ?_
    show looksStructural ('-' :: c :: rest) = false
    have hindicator : indicators.contains '-' = false := by decide
    simp only [looksStructural, separatedNext, hindicator, hinner hbody]
    simp [List.isPrefixOf, hminus.symm, hseparates]
  | false =>
    refine plainHolds_of_isNumeric hbody ?_
    show looksStructural (c :: rest) = false
    simp only [looksStructural, hindicator, hmark, hinner hrest]
    simp [List.isPrefixOf, hminus.symm, hpoint.symm]

/-! ## What is written -/

/-- Whether an outline is a scalar with a meaning, wherever it stands. It is not to stand plain
without a text. -/
def Means (o : Outline) (s : Scalar) : Prop :=
  ∃ style text, o = .scalar none style text ∧ (style = .plain → text ≠ "") ∧
    ∀ isKey, ofNode none (settle style isKey text.toList) text = .ok s

/-- A scalar that stays plain means what its text says. -/
theorem means_plain {text : String} {s : Scalar} (hne : text ≠ "")
    (hsettle : ∀ isKey, settle .plain isKey text.toList = .plain) (hmeans : ofPlain text = s) :
    (plain text).Means s := by
  refine ⟨.plain, text, rfl, fun _ => hne, fun isKey => ?_⟩
  rw [hsettle isKey, ← hmeans]
  rfl

theorem minus_ne_nil (negative : Bool) (c : Char) (rest : List Char) :
    minus negative (c :: rest) ≠ [] := by
  cases negative <;> exact List.cons_ne_nil _ _

/-- A number stays plain text. -/
theorem settle_minus {c : Char} {rest : List Char} (negative : Bool) (hc : c.isDigit = true)
    (hrest : ∀ d ∈ rest, Scalar.isNumeric d = true) (isKey : Bool) :
    settle .plain isKey (minus negative (c :: rest)) = .plain := by
  have hne : (minus negative (c :: rest)).isEmpty = false :=
    List.isEmpty_eq_false_iff.mpr (minus_ne_nil negative c rest)
  rw [settle, plainHolds_minus negative hc hrest, hne, Bool.and_false]
  rfl

/-- Quotes are never taken away: what ends up plain was meant to be. -/
theorem wanted_of_settle {wanted : Style} {isKey : Bool} {cs : List Char}
    (h : settle wanted isKey cs = .plain) : wanted = .plain := by
  cases wanted with
  | plain => rfl
  | double => exact h
  | single | literal | folded =>
    simp only [settle] at h
    split_ifs at h

/-- A string for which plain text is wanted means itself. -/
theorem ofPlain_of_stringStyle {s : String} (h : stringStyle s = .plain) :
    ofPlain s = .string s := by
  unfold stringStyle at h
  split at h
  · exact nomatch h
  · split at h
    · exact nomatch h
    · split at h
      next s' hs => rw [hs, Scalar.eq_of_ofPlain_eq_string hs]
      next => exact nomatch h

/-- **A string is written as a string.** -/
theorem means_string (s : String) : (string s).Means (.string s) := by
  have htext : stringStyle s = .plain → s ≠ "" := by
    rintro h rfl
    exact absurd h (by decide)
  refine ⟨stringStyle s, s, rfl, htext, fun isKey => ?_⟩
  by_cases hplain : settle (stringStyle s) isKey s.toList = .plain
  · -- no string becomes plain text for which that has not been wanted
    rw [hplain]
    exact congrArg Except.ok (ofPlain_of_stringStyle (wanted_of_settle hplain))
  · exact Scalar.ofNode_quoted hplain s

/-- An integer in the range that is kept is written as digits. -/
theorem means_integer {n : Int} (hlow : -2 ^ 63 ≤ n) (hhigh : n < 2 ^ 64) :
    (plain (toString n)).Means (.integer n) := by
  obtain ⟨c, rest, h, hc⟩ := Scalar.exists_toDigits n.natAbs
  have hrest : ∀ d ∈ rest, Scalar.isNumeric d = true := fun d hd =>
    Scalar.isNumeric_of_isDigit
      (Number.isDigit_of_mem_toDigits (h ▸ List.mem_cons_of_mem c hd))
  have htext : (toString n).toList = minus (n < 0) (c :: rest) := by
    rw [Scalar.toList_toString, h]
  have hne : toString n ≠ "" := fun h => by
    rw [h] at htext
    exact absurd htext.symm (minus_ne_nil _ _ _)
  exact means_plain hne (htext ▸ settle_minus _ hc hrest) (Scalar.ofPlain_toString hlow hhigh)

/-- A number of the format is written as the shortest decimal that rounds to it. -/
theorem means_float {x : Binary64} (hx : x.IsCanonical) :
    (plain (Value.numberLayout.text x)).Means (.float x) := by
  have htext : Value.numberLayout.text x ≠ "" ∧ ∀ isKey,
      settle .plain isKey (Value.numberLayout.text x).toList = .plain := by
    cases x with
    | nan => decide
    | infinite negative => cases negative <;> decide
    | finite negative m e =>
      obtain ⟨s, htext, -⟩ := Value.numberLayout.text_finite hx negative
      obtain ⟨c, rest, h, hc⟩ := Scalar.exists_text s Value.numberLayout.plusSign
      rw [htext, String.toList_ofList, h]
      refine ⟨fun hempty => minus_ne_nil negative c rest ?_, settle_minus negative hc fun d hd =>
        Scalar.isNumeric_of_mem_text d (h ▸ List.mem_cons_of_mem c hd)⟩
      simpa using hempty
  exact means_plain htext.1 htext.2 (Scalar.ofPlain_text hx _ rfl rfl)

/-- **A scalar that fits is written as one that means it.** -/
theorem ofValueIn_means {s : Scalar} {v : Value} (hfits : s.Fits) (hv : s.value? = some v)
    (bare : Bool) : ∃ o, ofValueIn bare v = .ok o ∧ o.Means s := by
  cases s with
  | null =>
    obtain rfl := Option.some.inj hv
    exact ⟨_, rfl, means_plain (by decide) (by decide) (by decide)⟩
  | bool b =>
    obtain rfl := Option.some.inj hv
    refine ⟨_, rfl, means_plain ?_ ?_ ?_⟩ <;> cases b <;> decide
  | integer n =>
    obtain rfl := Option.some.inj hv
    exact ⟨_, rfl, means_integer hfits.1 hfits.2⟩
  | wide n => exact nomatch hv
  | float x =>
    obtain rfl := Option.some.inj hv
    exact ⟨_, rfl, means_float hfits⟩
  | string s =>
    obtain rfl := Option.some.inj hv
    exact ⟨_, rfl, means_string s⟩

/-! ## Values -/

/-- The tag of an outline. -/
def tag : Outline → Option String
  | .scalar tag .. => tag
  | .sequence tag _ => tag
  | .mapping tag _ => tag

/-- A mapping is written entry by entry, if it can be written. -/
theorem ofEntries_of_ofValueIn {bare : Bool} {entries : List (Value × Value)} {o : Outline}
    (h : ofValueIn bare (.mapping entries) = .ok o) :
    (ofEntries entries).map (.mapping none) = .ok o := by
  unfold ofValueIn at h
  split at h
  · split at h
    · cases h
    · exact h
  · exact h

/-- Only a tagged value is written with a tag. -/
theorem tag_of_ofValueIn {bare : Bool} {v : Value} {o : Outline}
    (hv : ∀ name w, v ≠ .tagged name w) (h : ofValueIn bare v = .ok o) : o.tag = none := by
  cases v with
  | tagged name w => exact absurd rfl (hv name w)
  | sequence items =>
    rw [ofValueIn] at h
    obtain ⟨_, -, rfl⟩ := map_eq_ok_iff.mp h
    rfl
  | mapping entries =>
    obtain ⟨_, -, rfl⟩ := map_eq_ok_iff.mp (ofEntries_of_ofValueIn h)
    rfl
  | _ =>
    rw [ofValueIn] at h
    obtain rfl := Except.ok.inj h
    rfl

/-- The items of a sequence are outlined one by one. -/
theorem ofItems_eq_ok_iff {items : List Value} {os : List Outline} :
    ofItems items = .ok os ↔ List.Forall₂ (fun v o => ofValueIn true v = .ok o) items os := by
  have hmapM : ofItems items = items.mapM (ofValueIn true) := by
    induction items with
    | nil => rfl
    | cons v items ih => rw [ofItems, ih, List.mapM_cons]
  rw [hmapM, mapM_eq_ok_iff]

/-- The entries of a mapping are outlined one by one. -/
theorem ofEntries_eq_ok_iff {entries : List (Value × Value)} {os : List (Outline × Outline)} :
    ofEntries entries = .ok os ↔ List.Forall₂
      (fun e o => ofValueIn true e.1 = .ok o.1 ∧ ofValueIn true e.2 = .ok o.2) entries os := by
  induction entries generalizing os with
  | nil => simp [ofEntries, eq_comm]
  | cons e entries ih =>
    rw [ofEntries, List.forall₂_cons_left_iff]
    simp only [bind_eq_ok_iff, ih, pure, Except.pure, Except.ok.injEq]
    constructor
    · rintro ⟨k, hk, v, hv, rest, hrest, rfl⟩
      exact ⟨(k, v), rest, ⟨hk, hv⟩, hrest, rfl⟩
    · rintro ⟨⟨k, v⟩, rest, ⟨hk, hv⟩, hrest, rfl⟩
      exact ⟨k, hk, v, hv, rest, hrest, rfl⟩

end Outline

end Provision.Yaml
