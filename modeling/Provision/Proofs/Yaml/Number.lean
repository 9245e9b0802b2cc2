import Provision.Yaml.Scalar
import Provision.Proofs.Number.Layout

/-!
# Numbers mean themselves

Plain text is tried as a word, as an integer, and as a decimal. The text of a number begins with a
digit or a minus, so that it is no word; that of a decimal has a point or a power of ten, so that
it is no integer; and neither has zeros in front that would make it a string.

> `decimal?_text`: the parts of a decimal spell it;
> `ofPlain_toString`, `ofPlain_text`: integers and numbers mean themselves as plain text.
-/

namespace Provision.Yaml.Scalar

open Provision.Number (Binary64 Decimal Layout Spelling isDigit_of_mem_toDigits minus)
open Provision.Number.Spelling (pointText powerText signText)

/-! ## Digits -/

theorem sub_lt_of_isDigit {c : Char} (h : c.isDigit = true) : c.toNat - '0'.toNat < 10 := by
  obtain ⟨hlow, hhigh⟩ := Char.isDigit_iff_toNat.mp h
  have hzero : '0'.toNat = 48 := rfl
  have hnine : '9'.toNat = 57 := rfl
  omega

/-- What digits spell. -/
theorem natural?_eq_some {cs : List Char} (hne : cs ≠ []) (hdigits : ∀ c ∈ cs, c.isDigit = true) :
    natural? 10 cs = some (Nat.ofDigitChars 10 cs 0) := by
  have hfold : ∀ {cs : List Char} {n : Nat}, (∀ c ∈ cs, c.isDigit = true) →
      (cs.foldlM (fun n c => do
        let d ← hexValue? c
        if d < 10 then some (10 * n + d) else none) n) = some (Nat.ofDigitChars 10 cs n) := by
    intro cs
    induction cs with
    | nil => intro n _; rfl
    | cons c cs ih =>
      intro n hdigits
      rw [List.forall_mem_cons] at hdigits
      obtain ⟨hc, hcs⟩ := hdigits
      rw [List.foldlM_cons, Nat.ofDigitChars_cons, ← ih hcs, hexValue?, if_pos hc]
      show ((if c.toNat - '0'.toNat < 10 then _ else none) : Option Nat).bind _ = _
      rw [if_pos (sub_lt_of_isDigit hc)]
      rfl
  rw [natural?, if_neg (by simpa using hne), hfold hdigits]

/-- The decimal digits of a number are read back as the number. -/
theorem natural?_toDigits (n : Nat) : natural? 10 (Nat.toDigits 10 n) = some n := by
  rw [natural?_eq_some Nat.toDigits_ne_nil fun _ hc => isDigit_of_mem_toDigits hc,
    Nat.ofDigitChars_ten_toDigits]

/-- Digits end where something else begins. -/
theorem takeWhile_digits {cs rest : List Char} (hdigits : ∀ c ∈ cs, c.isDigit = true)
    (hrest : rest.head?.all (fun c => !c.isDigit) = true) :
    (cs ++ rest).takeWhile Char.isDigit = cs ∧ (cs ++ rest).dropWhile Char.isDigit = rest := by
  have hstop : rest.takeWhile Char.isDigit = [] ∧ rest.dropWhile Char.isDigit = rest := by
    cases rest with
    | nil => exact ⟨rfl, rfl⟩
    | cons c rest =>
      have hc : c.isDigit = false := by simpa using hrest
      simp [hc]
  rw [List.takeWhile_append_of_pos hdigits, List.dropWhile_append_of_pos hdigits, hstop.1, hstop.2,
    List.append_nil]
  exact ⟨rfl, rfl⟩

/-! ## Decimals -/

/-- Digits alone have no sign. -/
theorem signed?_toDigits (n : Nat) : signed? (Nat.toDigits 10 n) = some (n : Int) := by
  have hdigit : ∀ {c : Char} {ds : List Char}, Nat.toDigits 10 n = c :: ds → c.isDigit = true :=
    fun h => isDigit_of_mem_toDigits (h ▸ List.mem_cons_self)
  unfold signed?
  split
  next ds hds => exact absurd (hdigit hds) (by decide)
  next ds hds => exact absurd (hdigit hds) (by decide)
  next => rw [natural?_toDigits]; rfl

/-- A sign and digits are read back as the integer. -/
theorem signed?_signText (plus : Bool) (k : Int) :
    signed? (signText plus k ++ Nat.toDigits 10 k.natAbs) = some k := by
  rw [signText]
  split
  next h =>
    rw [List.singleton_append, signed?, natural?_toDigits]
    show some (-(k.natAbs : Int)) = some k
    congr 1
    omega
  next h =>
    have hk : ((k.natAbs : Nat) : Int) = k := by omega
    cases plus with
    | false => exact (signed?_toDigits _).trans (congrArg some hk)
    | true =>
      rw [if_pos rfl, List.singleton_append, signed?, natural?_toDigits]
      exact congrArg some hk

/-- The exponent of a spelling is read back. -/
theorem power?_powerText (plus : Bool) (power : Option Int) :
    power? (powerText plus power) = some (power.getD 0) := by
  cases power with
  | none => rfl
  | some k => exact signed?_signText plus k

theorem head?_powerText (plus : Bool) (power : Option Int) :
    (powerText plus power).head?.all (fun c => !c.isDigit) = true := by
  cases power <;> rfl

/-- The part after the point is read back, up to the exponent. -/
theorem fraction_pointText {part : Option (List Char)}
    (hpart : ∀ c ∈ part.getD [], c.isDigit = true) (plus : Bool) (power : Option Int) :
    fraction (pointText part ++ powerText plus power) = (part.getD [], powerText plus power) := by
  cases part with
  | none => cases power <;> rfl
  | some part =>
    obtain ⟨htake, hdrop⟩ := takeWhile_digits hpart (head?_powerText plus power)
    exact congrArg₂ Prod.mk htake hdrop

/-- **The parts of a decimal spell it.** -/
theorem decimal?_text (s : Spelling) (plus negative : Bool) :
    decimal? negative (s.text plus) = some (Binary64.ofDecimal negative s.digits s.exponent) := by
  have hrest : (pointText s.part ++ powerText plus s.power).head?.all (fun c => !c.isDigit) := by
    cases s.part with
    | none => exact head?_powerText plus s.power
    | some part => rfl
  obtain ⟨htake, hdrop⟩ := takeWhile_digits s.isDigit_whole hrest
  have hall : ∀ c ∈ s.whole ++ s.part.getD [], c.isDigit = true := fun c hc =>
    (List.mem_append.mp hc).elim (s.isDigit_whole c) (s.isDigit_part c)
  rw [decimal?, Spelling.text]
  dsimp only
  rw [htake, hdrop, fraction_pointText s.isDigit_part]
  dsimp only
  rw [power?_powerText, natural?_eq_some (by simp [s.whole_ne_nil]) hall]
  rfl

/-! ## Numbers are no words -/

/-- Whether a text begins as a number does. -/
def Begins (cs : List Char) : Prop := ∃ c rest, cs = c :: rest ∧ (c.isDigit = true ∨ c = '-')

/-- What begins with a digit, or with a minus and a digit, is neither null nor a truth value. -/
theorem begins_minus {c : Char} {rest : List Char} (negative : Bool) (hc : c.isDigit = true) :
    Begins (minus negative (c :: rest)) := by
  cases negative with
  | true => exact ⟨'-', _, rfl, Or.inr rfl⟩
  | false => exact ⟨c, rest, rfl, Or.inl hc⟩

theorem ofList_beq (cs : List Char) (s : String) : (String.ofList cs == s) = (cs == s.toList) := by
  rw [Bool.eq_iff_iff, beq_iff_eq, beq_iff_eq, String.ext_iff, String.toList_ofList]

variable {cs : List Char} {n : Nat}

theorem isNull_eq_false (h : Begins cs) : isNull cs = false := by
  obtain ⟨c, rest, rfl, hc⟩ := h
  have hn : c ≠ 'n' ∧ c ≠ 'N' ∧ c ≠ '~' := by
    refine ⟨?_, ?_, ?_⟩ <;> rintro rfl <;> revert hc <;> decide
  simp [isNull, hn]

theorem bool?_eq_none (h : Begins cs) : bool? cs = none := by
  obtain ⟨c, rest, rfl, hc⟩ := h
  have hn : c ≠ 't' ∧ c ≠ 'T' ∧ c ≠ 'f' ∧ c ≠ 'F' := by
    refine ⟨?_, ?_, ?_, ?_⟩ <;> rintro rfl <;> revert hc <;> decide
  simp only [bool?, ofList_beq]
  simp [hn]

/-! ## Integers -/

theorem digitChar_ne_zero : ∀ n < 10, 0 < n → n.digitChar ≠ '0' := by decide

/-- A positive number does not begin with a zero. -/
theorem head?_toDigits_ne (n : Nat) (hn : 0 < n) : (Nat.toDigits 10 n).head? ≠ some '0' := by
  induction n using Nat.strongRecOn with
  | ind n ih =>
    rcases Nat.lt_or_ge n 10 with hlt | hge
    · rw [Nat.toDigits_of_lt_base hlt]
      exact fun h => digitChar_ne_zero n hlt hn (Option.some.inj h)
    · rw [Nat.toDigits_of_base_le (by norm_num) hge,
        List.head?_append_of_ne_nil _ Nat.toDigits_ne_nil]
      exact ih (n / 10) (by omega) (by omega)

theorem ne_cons_of_isDigit {c d : Char} {cs ds : List Char} (hc : c.isDigit = true)
    (hd : d.isDigit = false) : c :: cs ≠ d :: ds := by
  intro h
  rw [(List.cons.inj h).1, hd] at hc
  exact absurd hc Bool.false_ne_true

/-- Digits have no sign. -/
theorem unsigned_of_isDigit {c : Char} {rest : List Char} (h : c.isDigit = true) :
    unsigned (c :: rest) = c :: rest := by
  unfold unsigned
  split
  next heq => exact absurd heq (ne_cons_of_isDigit h (by decide))
  next heq => exact absurd heq (ne_cons_of_isDigit h (by decide))
  next => rfl

/-- A digit is no sign. -/
theorem withoutPlus_of_isDigit {c : Char} {rest : List Char} (h : c.isDigit = true) :
    withoutPlus (c :: rest) = c :: rest := by
  unfold withoutPlus
  split
  next heq => exact absurd heq (ne_cons_of_isDigit h (by decide))
  next => rfl

/-- The integer that a text without a sign is. -/
theorem integer?_of_isDigit {c : Char} {rest : List Char} (h : c.isDigit = true) :
    integer? (c :: rest) = (magnitude? (c :: rest)).bind fun n =>
      if n < Nat.pow 2 64 then some (.integer n)
      else if n < Nat.pow 2 128 then some (.wide n) else none := by
  unfold integer?
  split
  next heq => exact absurd heq (ne_cons_of_isDigit h (by decide))
  next =>
    rw [withoutPlus_of_isDigit h]
    rfl

theorem exists_toDigits (n : Nat) :
    ∃ c rest, Nat.toDigits 10 n = c :: rest ∧ c.isDigit = true := by
  obtain ⟨c, rest, h⟩ := List.exists_cons_of_ne_nil (Nat.toDigits_ne_nil (n := n) (b := 10))
  exact ⟨c, rest, h, isDigit_of_mem_toDigits (h ▸ List.mem_cons_self)⟩

/-- The digits of a number have no zeros that say nothing. -/
theorem hasLeadingZero_toDigits (n : Nat) : hasLeadingZero (Nat.toDigits 10 n) = false := by
  rcases Nat.eq_zero_or_pos n with rfl | hn
  · decide
  · obtain ⟨c, rest, h, hc⟩ := exists_toDigits n
    have hhead : c ≠ '0' := by
      rintro rfl
      exact head?_toDigits_ne n hn (by rw [h]; rfl)
    rw [h]
    unfold hasLeadingZero
    rw [unsigned_of_isDigit hc]
    split
    next heq => exact absurd (List.cons.inj heq).1 hhead
    next => rfl

/-- The digits of a number are its magnitude, with no other base. -/
theorem magnitude?_toDigits (n : Nat) : magnitude? (Nat.toDigits 10 n) = some n := by
  have hdigit : ∀ {c : Char} {ds : List Char}, Nat.toDigits 10 n = '0' :: c :: ds →
      c.isDigit = true := fun h =>
    isDigit_of_mem_toDigits (h ▸ List.mem_cons_of_mem _ List.mem_cons_self)
  unfold magnitude?
  split
  next h => exact absurd (hdigit h) (by decide)
  next h => exact absurd (hdigit h) (by decide)
  next h => exact absurd (hdigit h) (by decide)
  next => rw [hasLeadingZero_toDigits, if_neg Bool.false_ne_true, natural?_toDigits]

/-- Negative integers are read back, down to the least. -/
theorem integer?_neg {n : Nat} (hn : n ≤ 2 ^ 63) :
    integer? ('-' :: Nat.toDigits 10 n) = some (.integer (-n)) := by
  rw [integer?, magnitude?_toDigits]
  exact if_pos hn

/-- Other integers are read back, up to the greatest. -/
theorem integer?_toDigits {n : Nat} (hn : n < 2 ^ 64) :
    integer? (Nat.toDigits 10 n) = some (.integer n) := by
  obtain ⟨c, rest, h, hc⟩ := exists_toDigits n
  have hread := magnitude?_toDigits n
  rw [h] at hread ⊢
  rw [integer?_of_isDigit hc, hread]
  exact if_pos hn

/-- Of the digits in base sixteen, those below ten are decimal ones. -/
theorem isDigit_of_hexValue? {c : Char} {d : Nat} (h : hexValue? c = some d) (hlt : d < 10) :
    c.isDigit = true := by
  rw [hexValue?] at h
  split at h
  next hc => exact hc
  next =>
    exfalso
    split at h
    · obtain rfl := Option.some.inj h
      omega
    · split at h
      · obtain rfl := Option.some.inj h
        omega
      · exact nomatch h

/-- What is not a digit keeps a text from being an integer. -/
theorem isDigit_of_natural? (h : natural? 10 cs = some n) : ∀ c ∈ cs, c.isDigit = true := by
  have hfold : ∀ {cs : List Char} {n m : Nat}, (cs.foldlM (fun n c => do
      let d ← hexValue? c
      if d < 10 then some (10 * n + d) else none) n) = some m → ∀ c ∈ cs, c.isDigit = true := by
    intro cs
    induction cs with
    | nil => intro _ _ _; simp
    | cons c cs ih =>
      intro n m h
      rw [List.foldlM_cons] at h
      obtain ⟨n', hstep, hrest⟩ := Option.bind_eq_some_iff.mp h
      obtain ⟨d, hd, hlt⟩ := Option.bind_eq_some_iff.mp hstep
      rw [List.forall_mem_cons]
      refine ⟨isDigit_of_hexValue? hd ?_, ih hrest⟩
      by_contra hcon
      simp [hcon] at hlt
  rw [natural?] at h
  split at h
  · simp at h
  · exact hfold h

/-! ## Decimals are no integers -/

/-- Whether a character occurs in decimals. -/
def isNumeric (c : Char) : Bool := c.isDigit || ['.', 'e', '-', '+'].contains c

theorem isNumeric_of_isDigit {c : Char} (h : c.isDigit = true) : isNumeric c = true := by
  simp [isNumeric, h]

/-- A spelling of a number consists of digits, a point, an exponent and signs. -/
theorem isNumeric_of_mem_text {s : Spelling} {plus : Bool} :
    ∀ c ∈ s.text plus, isNumeric c = true := by
  intro c hc
  rw [Spelling.text, List.mem_append, List.mem_append] at hc
  rcases hc with hc | hc | hc
  · exact isNumeric_of_isDigit (s.isDigit_whole c hc)
  · cases hpart : s.part with
    | none => simp [hpart, pointText] at hc
    | some part =>
      rw [hpart] at hc
      rcases List.mem_cons.mp hc with rfl | hc
      · decide
      · exact isNumeric_of_isDigit (s.isDigit_part c (by simpa [hpart] using hc))
  · cases hpower : s.power with
    | none => simp [hpower, powerText] at hc
    | some k =>
      rw [hpower] at hc
      rcases List.mem_cons.mp hc with rfl | hc
      · decide
      · rcases List.mem_append.mp hc with hc | hc
        · have hsign : c = '-' ∨ c = '+' := by
            rw [signText] at hc
            split_ifs at hc <;> simp_all
          rcases hsign with rfl | rfl <;> decide
        · exact isNumeric_of_isDigit (isDigit_of_mem_toDigits hc)

/-- A decimal has a point or a power of ten. -/
theorem exists_not_isDigit (s : Spelling) (plus : Bool) :
    ∃ c ∈ s.text plus, c.isDigit = false := by
  rcases s.marked with h | h
  · obtain ⟨part, hpart⟩ := Option.isSome_iff_exists.mp h
    exact ⟨'.', by simp [Spelling.text, hpart, pointText], by decide⟩
  · obtain ⟨power, hpower⟩ := Option.isSome_iff_exists.mp h
    exact ⟨'e', by simp [Spelling.text, hpower, powerText], by decide⟩

theorem exists_text (s : Spelling) (plus : Bool) :
    ∃ c rest, s.text plus = c :: rest ∧ c.isDigit = true := by
  obtain ⟨c, rest, h⟩ := List.exists_cons_of_ne_nil s.whole_ne_nil
  refine ⟨c, rest ++ (pointText s.part ++ powerText plus s.power), ?_, ?_⟩
  · rw [Spelling.text, h, List.cons_append]
  · exact s.isDigit_whole c (h ▸ List.mem_cons_self)

/-- A spelling with a point or an exponent is no integer. -/
theorem magnitude?_text (s : Spelling) (plus : Bool) : magnitude? (s.text plus) = none := by
  have hnumeric : ∀ {c : Char} {ds : List Char}, s.text plus = '0' :: c :: ds →
      isNumeric c = true := fun h =>
    isNumeric_of_mem_text _ (h ▸ List.mem_cons_of_mem _ List.mem_cons_self)
  unfold magnitude?
  -- the mark of a base is no character of a decimal
  split
  next h => exact absurd (hnumeric h) (by decide)
  next h => exact absurd (hnumeric h) (by decide)
  next h => exact absurd (hnumeric h) (by decide)
  next =>
    split
    · rfl
    · rw [Option.eq_none_iff_forall_ne_some]
      intro n hn
      obtain ⟨c, hc, hdigit⟩ := exists_not_isDigit s plus
      exact absurd (isDigit_of_natural? hn c hc) (by simp [hdigit])

variable {s : Spelling} {plus negative : Bool}

/-- A spelling with a sign is no integer either. -/
theorem integer?_minus_text : integer? (minus negative (s.text plus)) = none := by
  have hread := magnitude?_text s plus
  cases negative with
  | true =>
    rw [minus, if_pos rfl, integer?, hread]
    rfl
  | false =>
    obtain ⟨c, rest, h, hc⟩ := exists_text s plus
    rw [h] at hread
    rw [minus, if_neg Bool.false_ne_true, h, integer?_of_isDigit hc, hread]
    rfl

theorem unsigned_minus_text : unsigned (minus negative (s.text plus)) = s.text plus := by
  cases negative with
  | true => rfl
  | false =>
    obtain ⟨c, rest, h, hc⟩ := exists_text s plus
    rw [minus, if_neg Bool.false_ne_true, h, unsigned_of_isDigit hc]

theorem hasLeadingZero_minus_text : hasLeadingZero (minus negative (s.text plus)) = false := by
  unfold hasLeadingZero
  rw [unsigned_minus_text]
  split
  next c rest heq =>
    -- what is not a digit comes after the zero
    obtain ⟨d, hd, hdigit⟩ := exists_not_isDigit s plus
    rw [heq, List.mem_cons] at hd
    rw [← Bool.not_eq_true, List.all_eq_true]
    intro hall
    rcases hd with rfl | hd
    · exact absurd hdigit (by decide)
    · exact absurd (hall d hd) (by simp [hdigit])
  next => rfl

/-- **The text of a decimal spells the number that it is read as, if that is finite.** -/
theorem float?_minus_text (hfinite : (Binary64.ofDecimal negative s.digits s.exponent).isFinite) :
    float? (minus negative (s.text plus)) =
      some (Binary64.ofDecimal negative s.digits s.exponent) := by
  obtain ⟨c, rest, h, hc⟩ := exists_text s plus
  have hread := decimal?_text s plus negative
  have hpoint : c ≠ '.' := by rintro rfl; exact absurd hc (by decide)
  have hplus : c ≠ '+' := by rintro rfl; exact absurd hc (by decide)
  have hminus : c ≠ '-' := by rintro rfl; exact absurd hc (by decide)
  rw [h] at hread ⊢
  unfold float?
  -- a digit tells the text from the words for what is not finite
  cases negative with
  | true =>
    simp only [minus, ofList_beq]
    simp [withoutPlus, hread, hfinite, hpoint]
  | false =>
    simp only [minus, ofList_beq]
    simp [withoutPlus_of_isDigit hc, hread, hfinite, hpoint, hplus, hminus]

/-! ## What numbers mean as plain text -/

/-- A text that begins like a number and is an integer means that integer. -/
theorem ofPlain_of_integer? (hbegins : Begins cs) {v : Scalar} (h : integer? cs = some v) :
    ofPlain (String.ofList cs) = v := by
  have hne : cs.isEmpty = false := by
    obtain ⟨c, rest, rfl, -⟩ := hbegins
    rfl
  unfold ofPlain
  simp only [String.toList_ofList, hne, isNull_eq_false hbegins, bool?_eq_none hbegins, h,
    Bool.or_self, Bool.false_eq_true, if_false]

/-- A text that begins like a number and is none but a float means that float. -/
theorem ofPlain_of_float? (hbegins : Begins cs) {x : Binary64} (hinteger : integer? cs = none)
    (hzero : hasLeadingZero cs = false) (h : float? cs = some x) :
    ofPlain (String.ofList cs) = .float x := by
  have hne : cs.isEmpty = false := by
    obtain ⟨c, rest, rfl, -⟩ := hbegins
    rfl
  unfold ofPlain
  simp only [String.toList_ofList, hne, isNull_eq_false hbegins, bool?_eq_none hbegins, hinteger,
    hzero, h, Bool.or_self, Bool.false_eq_true, if_false]

/-- **The text of a number of the format means the number.** -/
theorem ofPlain_text {x : Binary64} (hx : x.IsCanonical) (l : Layout) (hnan : l.nan = ".nan")
    (hinfinity : l.infinity = ".inf") : ofPlain (l.text x) = .float x := by
  cases x with
  | nan =>
    rw [Layout.text, hnan]
    decide
  | infinite negative =>
    rw [Layout.text, hinfinity]
    cases negative <;> decide
  | finite negative m e =>
    obtain ⟨s, htext, hread⟩ := l.text_finite hx negative
    obtain ⟨c, rest, h, hc⟩ := exists_text s l.plusSign
    have hfinite : (Binary64.ofDecimal negative s.digits s.exponent).isFinite := by
      rw [hread]
      rfl
    rw [htext, ← hread]
    exact ofPlain_of_float? (h ▸ begins_minus negative hc) integer?_minus_text
      hasLeadingZero_minus_text (float?_minus_text hfinite)

/-- The text of an integer. -/
theorem toList_toString (n : Int) :
    (toString n).toList = minus (n < 0) (Nat.toDigits 10 n.natAbs) := by
  cases n with
  | ofNat m =>
    show (toString m).toList = _
    rw [Nat.toString_eq_ofList_toDigits, String.toList_ofList]
    rfl
  | negSucc m =>
    show ("-" ++ toString (m + 1)).toList = _
    rw [Nat.toString_eq_ofList_toDigits, String.toList_append, minus,
      if_pos (decide_eq_true (Int.negSucc_lt_zero m))]
    simp

/-- **The text of an integer of 64 bits means the integer.** -/
theorem ofPlain_toString {n : Int} (hlow : -2 ^ 63 ≤ n) (hhigh : n < 2 ^ 64) :
    ofPlain (toString n) = .integer n := by
  have hread : integer? (minus (n < 0) (Nat.toDigits 10 n.natAbs)) = some (.integer n) := by
    by_cases h : n < 0
    · rw [minus, if_pos (by simpa using h), integer?_neg (by omega)]
      congr 2
      omega
    · rw [minus, if_neg (by simpa using h), integer?_toDigits (by omega)]
      congr 2
      omega
  obtain ⟨c, rest, h, hc⟩ := exists_toDigits n.natAbs
  rw [← String.ofList_toList (s := toString n), toList_toString]
  exact ofPlain_of_integer? (h ▸ begins_minus _ hc) hread

end Provision.Yaml.Scalar
