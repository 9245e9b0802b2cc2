import Provision.Proofs.Number.Shortest

/-!
# How decimals are laid out

Whatever its layout is, the text of a decimal has digits, perhaps a point with digits after it, and
perhaps a power of ten. It always has one of the two, which tells it from an integer.

> `Spelling`: the parts of such a text;
> `Layout.decimal_eq_text`: the text of a decimal has parts that stand for the decimal;
> `Layout.text_finite`: the text of a number has parts that are read as the number.
-/

namespace Provision.Number

/-- The parts of the text of a decimal. -/
structure Spelling where
  whole : List Char
  part : Option (List Char)
  power : Option Int
  whole_ne_nil : whole ≠ []
  isDigit_whole : ∀ c ∈ whole, c.isDigit = true
  isDigit_part : ∀ c ∈ part.getD [], c.isDigit = true
  marked : part.isSome ∨ power.isSome

namespace Spelling

/-- A point with the digits after it. -/
def pointText (part : Option (List Char)) : List Char := part.elim [] ('.' :: ·)

/-- The sign of a power of ten. -/
def signText (plus : Bool) (k : Int) : List Char :=
  if k < 0 then ['-'] else if plus then ['+'] else []

/-- A power of ten. -/
def powerText (plus : Bool) (power : Option Int) : List Char :=
  power.elim [] fun k => 'e' :: (signText plus k ++ Nat.toDigits 10 k.natAbs)

/-- The text. -/
def text (s : Spelling) (plus : Bool) : List Char :=
  s.whole ++ (pointText s.part ++ powerText plus s.power)

/-- All digits of a text. -/
def digits (s : Spelling) : Nat := Nat.ofDigitChars 10 (s.whole ++ s.part.getD []) 0

/-- The power of ten of the last digit. -/
def exponent (s : Spelling) : Int := s.power.getD 0 - (s.part.getD []).length

end Spelling

theorem isDigit_of_mem_toDigits {n : Nat} {c : Char} (h : c ∈ Nat.toDigits 10 n) :
    c.isDigit = true :=
  Nat.isDigit_of_mem_toDigits (by norm_num) (by norm_num) h

theorem isDigit_of_mem_zeros {n : Nat} {c : Char} (h : c ∈ List.replicate n '0') :
    c.isDigit = true :=
  List.eq_of_mem_replicate h ▸ rfl

/-- A number with a minus, or without. -/
def minus (negative : Bool) (cs : List Char) : List Char := if negative then '-' :: cs else cs

/-! ## The four shapes of a text -/

namespace Spelling

section Shapes

variable {ds : List Char} {n : Nat} {e : Int} (plus : Bool)

/-- Zeros up to the point. -/
theorem exists_of_zeros (hne : ds ≠ []) (hall : ∀ c ∈ ds, c.isDigit = true)
    (hdigits : Nat.ofDigitChars 10 ds 0 = n) (he : 0 ≤ e) :
    ∃ s : Spelling, ds ++ List.replicate e.toNat '0' ++ ['.', '0'] = s.text plus ∧
      (s.digits : ℚ) * 10 ^ s.exponent = n * 10 ^ e := by
  refine ⟨⟨ds ++ List.replicate e.toNat '0', some ['0'], none, by simp [hne], fun c hc =>
    (List.mem_append.mp hc).elim (hall c) isDigit_of_mem_zeros,
    fun _ => isDigit_of_mem_zeros (n := 1), Or.inl rfl⟩, by simp [text, pointText, powerText], ?_⟩
  obtain ⟨k, rfl⟩ := Int.eq_ofNat_of_zero_le he
  have hzero : Nat.ofDigitChars 10 ['0'] (10 ^ k * n) = 10 * (10 ^ k * n) := rfl
  simp only [digits, exponent, Option.getD_some, Option.getD_none, Int.toNat_natCast,
    Nat.ofDigitChars_append, hdigits, Nat.ofDigitChars_replicate_zero, hzero]
  push_cast
  norm_num
  ring

/-- The point between two digits. -/
theorem exists_of_inside (hall : ∀ c ∈ ds, c.isDigit = true)
    (hdigits : Nat.ofDigitChars 10 ds 0 = n) (he : e < 0) (hpoint : 0 < e + ds.length) :
    ∃ s : Spelling, ds.take (e + ds.length).toNat ++ '.' :: ds.drop (e + ds.length).toNat =
      s.text plus ∧ (s.digits : ℚ) * 10 ^ s.exponent = n * 10 ^ e := by
  have hne : ds.take (e + ds.length).toNat ≠ [] := by
    intro hnil
    have := congrArg List.length hnil
    simp only [List.length_take, List.length_nil] at this
    omega
  refine ⟨⟨ds.take (e + ds.length).toNat, some (ds.drop (e + ds.length).toNat), none, hne,
    fun c hc => hall c (List.mem_of_mem_take hc), fun c hc => hall c (List.mem_of_mem_drop hc),
    Or.inl rfl⟩, by simp [text, pointText, powerText], ?_⟩
  simp only [digits, exponent, Option.getD_some, Option.getD_none, List.take_append_drop, hdigits,
    List.length_drop]
  congr 2
  omega

/-- Zeros after the point. -/
theorem exists_of_before (hall : ∀ c ∈ ds, c.isDigit = true)
    (hdigits : Nat.ofDigitChars 10 ds 0 = n) (hpoint : e + ds.length ≤ 0) :
    ∃ s : Spelling, '0' :: '.' :: List.replicate (-(e + ds.length)).toNat '0' ++ ds =
      s.text plus ∧ (s.digits : ℚ) * 10 ^ s.exponent = n * 10 ^ e := by
  refine ⟨⟨['0'], some (List.replicate (-(e + ds.length)).toNat '0' ++ ds), none, by simp,
    fun _ => isDigit_of_mem_zeros (n := 1), fun c hc => (List.mem_append.mp hc).elim isDigit_of_mem_zeros (hall c),
    Or.inl rfl⟩, by simp [text, pointText, powerText], ?_⟩
  have hzero : Nat.ofDigitChars 10 ['0'] 0 = 0 := rfl
  simp only [digits, exponent, Option.getD_some, Option.getD_none, Nat.ofDigitChars_append, hzero,
    Nat.ofDigitChars_replicate_zero, Nat.mul_zero, hdigits, List.length_append,
    List.length_replicate]
  congr 2
  omega

/-- A power of ten after one digit, or after the point with the further ones. -/
theorem exists_of_power {d : Char} {rest : List Char} (hall : ∀ c ∈ d :: rest, c.isDigit = true)
    (hdigits : Nat.ofDigitChars 10 (d :: rest) 0 = n) :
    ∃ s : Spelling, d :: pointText (if rest = [] then none else some rest) ++
      powerText plus (some (e + rest.length)) = s.text plus ∧
      (s.digits : ℚ) * 10 ^ s.exponent = n * 10 ^ e := by
  have hrest : (if rest = [] then none else some rest).getD [] = rest := by
    split
    next h => exact h.symm
    next => rfl
  refine ⟨⟨[d], if rest = [] then none else some rest, some (e + rest.length), by simp,
    by simpa using hall d List.mem_cons_self,
    fun c hc => hall c (List.mem_cons_of_mem d (hrest ▸ hc)), Or.inr rfl⟩, rfl, ?_⟩
  simp only [digits, exponent, Option.getD_some, hrest, List.singleton_append, hdigits]
  congr 2
  omega

end Shapes

end Spelling

namespace Layout

open Binary64 (Canonical)
open Spelling (exists_of_zeros exists_of_inside exists_of_before exists_of_power)

variable (l : Layout)

/-- **The text of a decimal has parts that stand for it.** -/
theorem decimal_eq_text (x : Decimal) : ∃ s : Spelling, l.decimal x = s.text l.plusSign ∧
    (s.digits : ℚ) * 10 ^ s.exponent = x.digits * 10 ^ x.exponent := by
  have hdigits : Nat.ofDigitChars 10 (Nat.toDigits 10 x.digits) 0 = x.digits :=
    Nat.ofDigitChars_ten_toDigits
  have hne : Nat.toDigits 10 x.digits ≠ [] := Nat.toDigits_ne_nil
  have hall : ∀ c ∈ Nat.toDigits 10 x.digits, c.isDigit = true := fun c hc =>
    isDigit_of_mem_toDigits hc
  rw [decimal]
  dsimp only
  generalize Nat.toDigits 10 x.digits = ds at *
  split
  · split
    next hwhole => exact exists_of_zeros _ hne hall hdigits hwhole
    next hwhole =>
      split
      next hinside => exact exists_of_inside _ hall hdigits (by omega) hinside
      next hbefore => exact exists_of_before _ hall hdigits (by omega)
  · -- the point stands after the first digit, and a single digit has none
    obtain ⟨d, rest, rfl⟩ := List.exists_cons_of_ne_nil hne
    obtain ⟨s, htext, hvalue⟩ := exists_of_power (e := x.exponent) l.plusSign hall hdigits
    refine ⟨s, htext ▸ ?_, hvalue⟩
    have hpower : x.exponent + (d :: rest).length - 1 = x.exponent + rest.length := by
      rw [List.length_cons]
      omega
    rw [hpower]
    cases rest <;> simp [Spelling.pointText, Spelling.powerText, Spelling.signText]

/-- Zero has parts that stand for it. -/
def zeroSpelling : Spelling where
  whole := ['0']
  part := some ['0']
  power := none
  whole_ne_nil := by decide
  isDigit_whole _ := isDigit_of_mem_zeros (n := 1)
  isDigit_part _ := isDigit_of_mem_zeros (n := 1)
  marked := Or.inl rfl

/-- **The text of a number has parts that are read as the number.** -/
theorem text_finite {m : Nat} {e : Int} (hcanonical : Canonical m e) (negative : Bool) :
    ∃ s : Spelling,
      l.text (.finite negative m e) = String.ofList (minus negative (s.text l.plusSign)) ∧
      Binary64.ofDecimal negative s.digits s.exponent = .finite negative m e := by
  rcases Nat.eq_zero_or_pos m with rfl | hm
  · obtain rfl : e = Binary64.minExponent := hcanonical.normal.resolve_left (by decide)
    exact ⟨zeroSpelling, rfl, by cases negative <;> decide⟩
  · obtain ⟨s, htext, hvalue⟩ := l.decimal_eq_text (Shortest.ofFinite m e)
    obtain ⟨hpos, hrounds⟩ := Shortest.ofFinite_rounds hcanonical hm
    have hdigits : 0 < s.digits := by
      rw [Nat.pos_iff_ne_zero]
      intro hzero
      rw [hzero, Nat.cast_zero, zero_mul] at hvalue
      have : (0 : ℚ) < (Shortest.ofFinite m e).digits := by exact_mod_cast hpos
      have : (0 : ℚ) < (Shortest.ofFinite m e).digits * 10 ^ (Shortest.ofFinite m e).exponent := by
        positivity
      exact this.ne hvalue
    have hread := Binary64.ofDecimal_eq_of_rounds hcanonical hm hdigits (hvalue ▸ hrounds) negative
    refine ⟨s, ?_, hread⟩
    rw [text, if_neg hm.ne', htext, minus]

end Layout

end Provision.Number
