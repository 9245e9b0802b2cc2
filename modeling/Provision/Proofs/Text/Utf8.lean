import Mathlib.Data.List.Basic
import Provision.Text.Utf8

/-!
# Reading bytes as text, strictly

A sequence of bytes is read as a text exactly if it is the UTF-8 form of that text. The machine
reads the form of one character from between characters and is between characters again
afterwards; and whatever it reads as a character is the form of this character, since the first
byte fixes how many follow and in which range the next one is, so that no form is too long and no
value is a surrogate or too large.

> `decode_encodeChars`: the form of a text is read as this text;
> `strict?_eq_some_iff`: nothing else is.
-/

namespace Provision.Text.Utf8

/-! ## First bytes -/

/-- What is owed after the first byte of a character of two bytes. -/
def afterLeadOfTwo (b : Nat) : Incomplete := ⟨b - 0xC0, 1, 0x80, 0xBF⟩

/-- What is owed after the first byte of a character of three bytes. The ranges leave out what
fits into two bytes, and the surrogates. -/
def afterLeadOfThree (b : Nat) : Incomplete :=
  ⟨b - 0xE0, 2, if b = 0xE0 then 0xA0 else 0x80, if b = 0xED then 0x9F else 0xBF⟩

/-- What is owed after the first byte of a character of four bytes. The ranges leave out what fits
into three bytes, and what is too large. -/
def afterLeadOfFour (b : Nat) : Incomplete :=
  ⟨b - 0xF0, 3, if b = 0xF0 then 0x90 else 0x80, if b = 0xF4 then 0x8F else 0xBF⟩

variable {b : Nat}

/-- A byte below 0x80 is a character. -/
theorem lead_of_one (h : b < 0x80) : lead b = .whole (Char.ofNat b) := by
  rw [lead, if_pos h]

/-- Bytes from 0xC2 to 0xDF lead two bytes. -/
theorem lead_of_two (low : 0xC2 ≤ b) (high : b < 0xE0) : lead b = .more (afterLeadOfTwo b) := by
  rw [lead, if_neg (by omega), if_neg (by omega), if_pos high]
  rfl

/-- Bytes from 0xE0 to 0xEF lead three bytes. -/
theorem lead_of_three (low : 0xE0 ≤ b) (high : b < 0xF0) :
    lead b = .more (afterLeadOfThree b) := by
  rw [lead, if_neg (by omega), if_neg (by omega), if_neg (by omega)]
  unfold afterLeadOfThree
  by_cases hfirst : b = 0xE0
  · have hvalue : b - 0xE0 = 0 := by omega
    rw [if_pos hfirst, if_pos hfirst, if_neg (by omega), hvalue]
  · by_cases hsurrogate : b = 0xED
    · have hvalue : b - 0xE0 = 0xD := by omega
      rw [if_neg hfirst, if_pos hsurrogate, if_neg hfirst, if_pos hsurrogate, hvalue]
    · rw [if_neg hfirst, if_neg hsurrogate, if_pos high, if_neg hfirst, if_neg hsurrogate]

/-- Bytes from 0xF0 to 0xF4 lead four bytes. -/
theorem lead_of_four (low : 0xF0 ≤ b) (high : b ≤ 0xF4) : lead b = .more (afterLeadOfFour b) := by
  rw [lead, if_neg (by omega), if_neg (by omega), if_neg (by omega), if_neg (by omega),
    if_neg (by omega), if_neg (by omega)]
  unfold afterLeadOfFour
  by_cases hfirst : b = 0xF0
  · have hvalue : b - 0xF0 = 0 := by omega
    rw [if_pos hfirst, if_pos hfirst, if_neg (by omega), hvalue]
  · by_cases hlast : b = 0xF4
    · have hvalue : b - 0xF0 = 4 := by omega
      rw [if_neg hfirst, if_neg (by omega), if_pos hlast, if_neg hfirst, if_pos hlast, hvalue]
    · rw [if_neg hfirst, if_pos (by omega), if_neg hfirst, if_neg hlast]

/-- Other bytes lead nothing: they continue, or would be longer than needed or out of range. -/
theorem lead_of_none (h : 0x80 ≤ b ∧ b < 0xC2 ∨ 0xF4 < b) : lead b = .malformed := by
  rw [lead, if_neg (by omega)]
  rcases h with h | h
  · rw [if_pos h.2]
  · rw [if_neg (by omega), if_neg (by omega), if_neg (by omega), if_neg (by omega),
      if_neg (by omega), if_neg (by omega), if_neg (by omega), if_neg (by omega)]

/-- What a first byte says, by the range that it is in. -/
inductive Leads (b : Nat) : Lead → Prop
  | one (range : b < 0x80) : Leads b (.whole (Char.ofNat b))
  | two (low : 0xC2 ≤ b) (high : b < 0xE0) : Leads b (.more (afterLeadOfTwo b))
  | three (low : 0xE0 ≤ b) (high : b < 0xF0) : Leads b (.more (afterLeadOfThree b))
  | four (low : 0xF0 ≤ b) (high : b ≤ 0xF4) : Leads b (.more (afterLeadOfFour b))
  | malformed : Leads b .malformed

theorem lead_leads (b : Nat) : Leads b (lead b) := by
  by_cases hone : b < 0x80
  · rw [lead_of_one hone]
    exact .one hone
  by_cases hnone : b < 0xC2 ∨ 0xF4 < b
  · rw [lead_of_none (by omega)]
    exact .malformed
  by_cases htwo : b < 0xE0
  · rw [lead_of_two (by omega) htwo]
    exact .two (by omega) htwo
  by_cases hthree : b < 0xF0
  · rw [lead_of_three (by omega) hthree]
    exact .three (by omega) hthree
  · rw [lead_of_four (by omega) (by omega)]
    exact .four (by omega) (by omega)

/-! ## Bytes after the first one -/

/-- The machine at the beginning of a character. -/
theorem decodeFrom_cons (b : UInt8) (rest : List UInt8) :
    decodeFrom none (b :: rest) = match lead b.toNat with
      | .whole c => some c :: decodeFrom none rest
      | .more i => decodeFrom (some i) rest
      | .malformed => none :: decodeFrom none rest := rfl

/-- Which bytes complete a character, and its value then. -/
inductive Incomplete.Completes : Incomplete → List UInt8 → Nat → Prop
  | last {i : Incomplete} {b : UInt8} (one : i.missing = 1) (low : i.low ≤ b.toNat)
      (high : b.toNat ≤ i.high) : Completes i [b] (i.value * 64 + (b.toNat - 0x80))
  | next {i : Incomplete} {b : UInt8} {form : List UInt8} {v : Nat} (more : i.missing ≠ 1)
      (low : i.low ≤ b.toNat) (high : b.toNat ≤ i.high)
      (tail : Completes ⟨i.value * 64 + (b.toNat - 0x80), i.missing - 1, 0x80, 0xBF⟩ form v) :
      Completes i (b :: form) v

namespace Incomplete

/-- What completes a character is decoded as it, whatever comes after. -/
theorem Completes.decodeFrom {i : Incomplete} {form : List UInt8} {v : Nat}
    (h : i.Completes form v) (rest : List UInt8) :
    decodeFrom (some i) (form ++ rest) = some (Char.ofNat v) :: Utf8.decodeFrom none rest := by
  induction h with
  | last one low high => simp [Utf8.decodeFrom, one, low, high]
  | next more low high _ ih => simp [Utf8.decodeFrom, more, low, high, ih]

/-- What is read without a malformed run completes the character that has begun. -/
theorem exists_completes {bytes : List UInt8} {cs : List Char} {i : Incomplete}
    (h : Utf8.decodeFrom (some i) bytes = cs.map some) :
    ∃ form v rest cs', bytes = form ++ rest ∧ i.Completes form v ∧ cs = Char.ofNat v :: cs' ∧
      Utf8.decodeFrom none rest = cs'.map some := by
  -- each byte takes the character one step further, until it is complete
  induction bytes generalizing i with
  | nil =>
    -- a character that is not complete at the end is malformed
    cases cs <;> simp [Utf8.decodeFrom] at h
  | cons b rest ih =>
    by_cases hrange : i.low ≤ b.toNat ∧ b.toNat ≤ i.high
    · by_cases hone : i.missing = 1
      · simp only [Utf8.decodeFrom, hrange, hone, and_self, if_true] at h
        cases cs with
        | nil => simp at h
        | cons c cs' =>
          obtain ⟨rfl, hcs'⟩ : Char.ofNat _ = c ∧ Utf8.decodeFrom none rest = cs'.map some := by
            simpa using h
          exact ⟨[b], _, rest, cs', rfl, .last hone hrange.1 hrange.2, rfl, hcs'⟩
      · simp only [Utf8.decodeFrom, hrange, hone, and_self, if_true, if_false] at h
        obtain ⟨form, v, rest', cs', rfl, htail, rfl, hcs'⟩ := ih h
        exact ⟨b :: form, v, rest', cs', rfl, .next hone hrange.1 hrange.2 htail, rfl, hcs'⟩
    · -- a byte out of range closes the character as malformed
      cases cs <;> simp [Utf8.decodeFrom, hrange] at h

variable {x low high v : Nat} {form : List UInt8}

/-- One byte completes a character when it is in the range that is asked for. -/
theorem completes_one : (Incomplete.mk x 1 low high).Completes form v ↔
    ∃ b : UInt8, form = [b] ∧ low ≤ b.toNat ∧ b.toNat ≤ high ∧ v = x * 64 + (b.toNat - 0x80) := by
  constructor
  · intro h
    cases h with
    | @last _ b _ hlow hhigh => exact ⟨b, rfl, hlow, hhigh, rfl⟩
    | next more => exact absurd rfl more
  · rintro ⟨b, rfl, hlow, hhigh, hv⟩
    rw [hv]
    exact .last rfl hlow hhigh

/-- More bytes complete a character one by one, the range being narrowed for the first only. -/
theorem completes_succ {n : Nat} : (Incomplete.mk x (n + 2) low high).Completes form v ↔
    ∃ (b : UInt8) (rest : List UInt8), form = b :: rest ∧ low ≤ b.toNat ∧ b.toNat ≤ high ∧
      (Incomplete.mk (x * 64 + (b.toNat - 0x80)) (n + 1) 0x80 0xBF).Completes rest v := by
  constructor
  · intro h
    cases h with
    | last one => exact absurd one (show n + 2 ≠ 1 by omega)
    | next _ hlow hhigh tail => exact ⟨_, _, rfl, hlow, hhigh, tail⟩
  · rintro ⟨b, rest, rfl, hlow, hhigh, tail⟩
    exact .next (show n + 2 ≠ 1 by omega) hlow hhigh tail

end Incomplete

/-! ## The form of one character -/

section EncodeChar

variable {c : Char}

theorem toNat_valid (c : Char) : c.toNat < 0xD800 ∨ 0xDFFF < c.toNat ∧ c.toNat < 0x110000 :=
  c.valid

theorem toNat_val (c : Char) : c.val.toNat = c.toNat := rfl

/-- Characters below 0x80 are one byte. -/
theorem encodeChar_of_one (h : c.toNat < 0x80) :
    String.utf8EncodeChar c = [UInt8.ofNat c.toNat] := by
  rw [String.utf8EncodeChar, toNat_val, if_pos (by omega)]

/-- Characters below 0x800 are two bytes. -/
theorem encodeChar_of_two (low : 0x80 ≤ c.toNat) (high : c.toNat < 0x800) :
    String.utf8EncodeChar c =
      [UInt8.ofNat (0xC0 + c.toNat / 64), UInt8.ofNat (0x80 + c.toNat % 64)] := by
  have hlead : c.toNat / 64 % 32 + 192 = 0xC0 + c.toNat / 64 := by omega
  have hlast : c.toNat % 64 + 128 = 0x80 + c.toNat % 64 := by omega
  rw [String.utf8EncodeChar, toNat_val, if_neg (by omega), if_pos (by omega), hlead,
    hlast]

/-- Characters below 0x10000 are three bytes. -/
theorem encodeChar_of_three (low : 0x800 ≤ c.toNat) (high : c.toNat < 0x10000) :
    String.utf8EncodeChar c =
      [UInt8.ofNat (0xE0 + c.toNat / 4096), UInt8.ofNat (0x80 + c.toNat / 64 % 64),
        UInt8.ofNat (0x80 + c.toNat % 64)] := by
  have hlead : c.toNat / 4096 % 16 + 224 = 0xE0 + c.toNat / 4096 := by omega
  have hnext : c.toNat / 64 % 64 + 128 = 0x80 + c.toNat / 64 % 64 := by omega
  have hlast : c.toNat % 64 + 128 = 0x80 + c.toNat % 64 := by omega
  rw [String.utf8EncodeChar, toNat_val, if_neg (by omega), if_neg (by omega),
    if_pos (by omega), hlead, hnext, hlast]

/-- All other characters are four bytes. -/
theorem encodeChar_of_four (low : 0x10000 ≤ c.toNat) :
    String.utf8EncodeChar c =
      [UInt8.ofNat (0xF0 + c.toNat / 262144), UInt8.ofNat (0x80 + c.toNat / 4096 % 64),
        UInt8.ofNat (0x80 + c.toNat / 64 % 64), UInt8.ofNat (0x80 + c.toNat % 64)] := by
  have hvalid := toNat_valid c
  have hlead : c.toNat / 262144 % 8 + 240 = 0xF0 + c.toNat / 262144 := by omega
  have hnext : c.toNat / 4096 % 64 + 128 = 0x80 + c.toNat / 4096 % 64 := by omega
  have hthird : c.toNat / 64 % 64 + 128 = 0x80 + c.toNat / 64 % 64 := by omega
  have hlast : c.toNat % 64 + 128 = 0x80 + c.toNat % 64 := by omega
  rw [String.utf8EncodeChar, toNat_val, if_neg (by omega), if_neg (by omega),
    if_neg (by omega), hlead, hnext, hthird, hlast]

/-! ### The form is read -/

theorem toNat_byte {n : Nat} (h : n < 256) : (UInt8.ofNat n).toNat = n :=
  UInt8.toNat_ofNat_of_lt' h

/-- Whether a first byte and the bytes after it stand for a character: it is one by itself, or it
calls for what the others are. -/
def IsForm (c : Char) (b : UInt8) (form : List UInt8) : Prop :=
  lead b.toNat = .whole c ∧ form = [] ∨
    ∃ i, lead b.toNat = .more i ∧ i.Completes form c.toNat

theorem isForm_of_two (low : 0x80 ≤ c.toNat) (high : c.toNat < 0x800) :
    IsForm c (UInt8.ofNat (0xC0 + c.toNat / 64)) [UInt8.ofNat (0x80 + c.toNat % 64)] := by
  have hlead := toNat_byte (n := 0xC0 + c.toNat / 64) (by omega)
  have hlast := toNat_byte (n := 0x80 + c.toNat % 64) (by omega)
  refine .inr ⟨afterLeadOfTwo (0xC0 + c.toNat / 64), ?_, ?_⟩
  · rw [hlead, lead_of_two (by omega) (by omega)]
  · exact Incomplete.completes_one.2 ⟨_, rfl, by omega, by omega, by omega⟩

theorem isForm_of_three (low : 0x800 ≤ c.toNat) (high : c.toNat < 0x10000) :
    IsForm c (UInt8.ofNat (0xE0 + c.toNat / 4096))
      [UInt8.ofNat (0x80 + c.toNat / 64 % 64), UInt8.ofNat (0x80 + c.toNat % 64)] := by
  have hvalid := toNat_valid c
  have hlead := toNat_byte (n := 0xE0 + c.toNat / 4096) (by omega)
  have hnext := toNat_byte (n := 0x80 + c.toNat / 64 % 64) (by omega)
  have hlast := toNat_byte (n := 0x80 + c.toNat % 64) (by omega)
  refine .inr ⟨afterLeadOfThree (0xE0 + c.toNat / 4096), ?_, ?_⟩
  · rw [hlead, lead_of_three (by omega) (by omega)]
  · refine Incomplete.completes_succ.2 ⟨_, _, rfl, ?_, ?_, ?_⟩
    · rw [hnext]
      split <;> omega
    · rw [hnext]
      split <;> omega
    · exact Incomplete.completes_one.2 ⟨_, rfl, by omega, by omega, by omega⟩

theorem isForm_of_four (low : 0x10000 ≤ c.toNat) :
    IsForm c (UInt8.ofNat (0xF0 + c.toNat / 262144))
      [UInt8.ofNat (0x80 + c.toNat / 4096 % 64), UInt8.ofNat (0x80 + c.toNat / 64 % 64),
        UInt8.ofNat (0x80 + c.toNat % 64)] := by
  have hvalid := toNat_valid c
  have hlead := toNat_byte (n := 0xF0 + c.toNat / 262144) (by omega)
  have hnext := toNat_byte (n := 0x80 + c.toNat / 4096 % 64) (by omega)
  have hthird := toNat_byte (n := 0x80 + c.toNat / 64 % 64) (by omega)
  have hlast := toNat_byte (n := 0x80 + c.toNat % 64) (by omega)
  refine .inr ⟨afterLeadOfFour (0xF0 + c.toNat / 262144), ?_, ?_⟩
  · rw [hlead, lead_of_four (by omega) (by omega)]
  · refine Incomplete.completes_succ.2 ⟨_, _, rfl, ?_, ?_, ?_⟩
    · rw [hnext]
      split <;> omega
    · rw [hnext]
      split <;> omega
    · refine Incomplete.completes_succ.2 ⟨_, _, rfl, by omega, by omega, ?_⟩
      exact Incomplete.completes_one.2 ⟨_, rfl, by omega, by omega, by omega⟩

/-- The form of a character is a first byte and what it calls for. -/
theorem exists_isForm (c : Char) :
    ∃ b form, String.utf8EncodeChar c = b :: form ∧ IsForm c b form := by
  by_cases hone : c.toNat < 0x80
  · refine ⟨_, _, encodeChar_of_one hone, .inl ⟨?_, rfl⟩⟩
    rw [toNat_byte (by omega), lead_of_one hone, Char.ofNat_toNat]
  by_cases htwo : c.toNat < 0x800
  · exact ⟨_, _, encodeChar_of_two (by omega) htwo, isForm_of_two (by omega) htwo⟩
  by_cases hthree : c.toNat < 0x10000
  · exact ⟨_, _, encodeChar_of_three (by omega) hthree, isForm_of_three (by omega) hthree⟩
  · exact ⟨_, _, encodeChar_of_four (by omega), isForm_of_four (by omega)⟩

/-! ### What is read is the form -/

theorem toNat_ofNat_of_valid {n : Nat} (h : n.isValidChar) : (Char.ofNat n).toNat = n := by
  rw [Char.ofNat, dif_pos h]
  rfl

theorem ofNat_eq_byte {b : UInt8} {n : Nat} (h : n = b.toNat) : UInt8.ofNat n = b := by
  rw [h, UInt8.ofNat_toNat]

variable {b : UInt8} {form : List UInt8} {v : Nat}

/-- What completes two bytes is encoded as these two bytes. -/
theorem encodeChar_of_afterLeadOfTwo (low : 0xC2 ≤ b.toNat) (high : b.toNat < 0xE0)
    (h : (afterLeadOfTwo b.toNat).Completes form v) :
    String.utf8EncodeChar (Char.ofNat v) = b :: form := by
  obtain ⟨b₁, rfl, hlow, hhigh, hv⟩ := Incomplete.completes_one.1 h
  have hc : (Char.ofNat v).toNat = v := toNat_ofNat_of_valid (.inl (by omega))
  rw [encodeChar_of_two (by omega) (by omega), hc, ofNat_eq_byte (b := b) (by omega),
    ofNat_eq_byte (b := b₁) (by omega)]

/-- What completes three bytes is encoded as these three bytes. -/
theorem encodeChar_of_afterLeadOfThree (low : 0xE0 ≤ b.toNat) (high : b.toNat < 0xF0)
    (h : (afterLeadOfThree b.toNat).Completes form v) :
    String.utf8EncodeChar (Char.ofNat v) = b :: form := by
  obtain ⟨b₁, _, rfl, hlow₁, hhigh₁, h⟩ := Incomplete.completes_succ.1 h
  obtain ⟨b₂, rfl, hlow, hhigh, hv⟩ := Incomplete.completes_one.1 h
  have hrange : 0x80 ≤ b₁.toNat ∧ b₁.toNat ≤ 0xBF := by
    constructor
    · split at hlow₁ <;> omega
    · split at hhigh₁ <;> omega
  -- what would fit into two bytes and what would be a surrogate are out of range
  have hfirst : 0x800 ≤ v := by
    split at hlow₁ <;> omega
  have hsurrogate : v < 0xD800 ∨ 0xDFFF < v := by
    split at hhigh₁ <;> omega
  have hvalid : v.isValidChar := by
    unfold Nat.isValidChar
    omega
  have hc : (Char.ofNat v).toNat = v := toNat_ofNat_of_valid hvalid
  rw [encodeChar_of_three (by omega) (by omega), hc, ofNat_eq_byte (b := b) (by omega),
    ofNat_eq_byte (b := b₁) (by omega), ofNat_eq_byte (b := b₂) (by omega)]

/-- What completes four bytes is encoded as these four bytes. -/
theorem encodeChar_of_afterLeadOfFour (low : 0xF0 ≤ b.toNat) (high : b.toNat ≤ 0xF4)
    (h : (afterLeadOfFour b.toNat).Completes form v) :
    String.utf8EncodeChar (Char.ofNat v) = b :: form := by
  obtain ⟨b₁, _, rfl, hlow₁, hhigh₁, h⟩ := Incomplete.completes_succ.1 h
  obtain ⟨b₂, _, rfl, hlow₂, hhigh₂, h⟩ := Incomplete.completes_succ.1 h
  obtain ⟨b₃, rfl, hlow, hhigh, hv⟩ := Incomplete.completes_one.1 h
  have hrange : 0x80 ≤ b₁.toNat ∧ b₁.toNat ≤ 0xBF := by
    constructor
    · split at hlow₁ <;> omega
    · split at hhigh₁ <;> omega
  -- so are what would fit into three bytes and what would be too large
  have hfirst : 0x10000 ≤ v := by
    split at hlow₁ <;> omega
  have hlast : v < 0x110000 := by
    split at hhigh₁ <;> omega
  have hvalid : v.isValidChar := by
    unfold Nat.isValidChar
    omega
  have hc : (Char.ofNat v).toNat = v := toNat_ofNat_of_valid hvalid
  rw [encodeChar_of_four (by omega), hc, ofNat_eq_byte (b := b) (by omega),
    ofNat_eq_byte (b := b₁) (by omega), ofNat_eq_byte (b := b₂) (by omega),
    ofNat_eq_byte (b := b₃) (by omega)]

/-- What completes a character is its form. -/
theorem encodeChar_of_completes {i : Incomplete} (hlead : lead b.toNat = .more i)
    (h : i.Completes form v) : String.utf8EncodeChar (Char.ofNat v) = b :: form := by
  have hleads := lead_leads b.toNat
  rw [hlead] at hleads
  -- the range of the first byte fixes how many bytes follow
  generalize hmore : Lead.more i = l at hleads
  cases hleads with
  | one | malformed => exact nomatch hmore
  | two low high => exact encodeChar_of_afterLeadOfTwo low high (Lead.more.inj hmore ▸ h)
  | three low high => exact encodeChar_of_afterLeadOfThree low high (Lead.more.inj hmore ▸ h)
  | four low high => exact encodeChar_of_afterLeadOfFour low high (Lead.more.inj hmore ▸ h)

theorem encodeChar_of_whole (hlead : lead b.toNat = .whole c) :
    String.utf8EncodeChar c = [b] := by
  have hleads := lead_leads b.toNat
  rw [hlead] at hleads
  generalize hwhole : Lead.whole c = l at hleads
  cases hleads with
  | two | three | four | malformed => exact nomatch hwhole
  | one range =>
    obtain rfl := Lead.whole.inj hwhole
    have hc : (Char.ofNat b.toNat).toNat = b.toNat := toNat_ofNat_of_valid (.inl (by omega))
    rw [encodeChar_of_one (by omega), hc, UInt8.ofNat_toNat]

end EncodeChar

/-! ## Texts -/

/-- The form of a character is read as this character. -/
theorem decodeFrom_encodeChar (c : Char) (rest : List UInt8) :
    decodeFrom none (String.utf8EncodeChar c ++ rest) = some c :: decodeFrom none rest := by
  obtain ⟨b, form, hform, ⟨hlead, rfl⟩ | ⟨i, hlead, h⟩⟩ := exists_isForm c
  · rw [hform, List.singleton_append, decodeFrom_cons, hlead]
  · rw [hform, List.cons_append, decodeFrom_cons, hlead]
    show decodeFrom (some i) (form ++ rest) = _
    rw [h.decodeFrom, Char.ofNat_toNat]

/-- The form of a text is read as this text. -/
theorem decode_encodeChars (cs : List Char) :
    decode (cs.flatMap String.utf8EncodeChar) = cs.map some := by
  induction cs with
  | nil => rfl
  | cons c cs ih =>
    rw [List.flatMap_cons, List.map_cons, ← ih]
    exact decodeFrom_encodeChar c _

/-- Nothing else is read as this text. -/
theorem eq_encodeChars_of_decode {bytes : List UInt8} {cs : List Char}
    (h : decode bytes = cs.map some) : bytes = cs.flatMap String.utf8EncodeChar := by
  -- the first character takes its form off the bytes, and the others are read from the rest
  induction cs generalizing bytes with
  | nil =>
    cases bytes with
    | nil => rfl
    | cons b rest =>
      -- any first byte gives something: a character, or a malformed run
      rw [decode, decodeFrom_cons] at h
      cases hlead : lead b.toNat with
      | whole c => simp [hlead] at h
      | more i =>
        simp only [hlead] at h
        obtain ⟨_, _, _, _, _, _, hcs, _⟩ := Incomplete.exists_completes h
        cases hcs
      | malformed => simp [hlead] at h
  | cons c cs ih =>
    cases bytes with
    | nil => simp [decode, decodeFrom] at h
    | cons b rest =>
      rw [decode, decodeFrom_cons] at h
      cases hlead : lead b.toNat with
      | whole c' =>
        rw [hlead] at h
        obtain ⟨hc, hrest⟩ := List.cons.inj h
        obtain rfl := Option.some.inj hc
        rw [List.flatMap_cons, encodeChar_of_whole hlead, List.singleton_append, ← ih hrest]
      | more i =>
        simp only [hlead] at h
        obtain ⟨form, v, rest', cs', rfl, hform, hcs, hrest⟩ := Incomplete.exists_completes h
        obtain ⟨rfl, rfl⟩ := List.cons.inj hcs
        rw [List.flatMap_cons, encodeChar_of_completes hlead hform, List.cons_append, ← ih hrest]
      | malformed => simp [hlead] at h

/-- A list of optional characters is all there when none is missing. -/
theorem mapM_id_eq_some {α : Type} {l : List (Option α)} {xs : List α} :
    l.mapM id = some xs ↔ l = xs.map some := by
  induction l generalizing xs with
  | nil => cases xs <;> simp
  | cons x l ih =>
    cases x with
    | none => cases xs <;> simp
    | some x =>
      cases xs with
      | nil => simp [Option.bind_eq_some_iff]
      | cons y xs => simp [Option.bind_eq_some_iff, ih, and_comm]

/-- The library writes the list of bytes by a loop. -/
theorem toList_loop (bytes : ByteArray) (i : Nat) (read : List UInt8) :
    ByteArray.toList.loop bytes i read = read.reverse ++ bytes.data.toList.drop i := by
  fun_induction ByteArray.toList.loop bytes i read with
  | case1 i read h ih =>
    have hi : i < bytes.data.toList.length := h
    have hget : bytes.get! i = bytes.data.toList[i] := getElem!_pos bytes.data i h
    rw [ih, hget, List.reverse_cons, List.append_assoc, List.singleton_append,
      ← List.drop_eq_getElem_cons hi]
  | case2 i read h =>
    have hi : bytes.data.toList.length ≤ i := Nat.le_of_not_lt h
    rw [List.drop_eq_nil_of_le hi, List.append_nil]

theorem encode_ofList (cs : List Char) :
    encode (String.ofList cs) = cs.flatMap String.utf8EncodeChar := by
  rw [encode, ByteArray.toList, toList_loop, List.reverse_nil, List.nil_append, List.drop_zero,
    String.toUTF8_eq_toByteArray, String.toByteArray_ofList, List.utf8Encode,
    List.toList_data_toByteArray]

/-- Bytes are read strictly as a text exactly if they are its form. -/
theorem strict?_eq_some_iff {bytes : List UInt8} {s : String} :
    strict? bytes = some s ↔ bytes = encode s := by
  obtain ⟨cs, rfl⟩ : ∃ cs, s = String.ofList cs := ⟨s.toList, s.ofList_toList.symm⟩
  rw [strict?, Option.map_eq_some_iff, encode_ofList]
  constructor
  · rintro ⟨cs', hcs', heq⟩
    obtain rfl := String.ofList_injective heq
    exact eq_encodeChars_of_decode (mapM_id_eq_some.1 hcs')
  · rintro rfl
    exact ⟨cs, mapM_id_eq_some.2 (decode_encodeChars cs), rfl⟩
end Provision.Text.Utf8
