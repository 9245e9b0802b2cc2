import Mathlib.Tactic
import Provision.Number.Binary64

/-!
# Where numbers of 64 bits are rounded to

Each number has an interval around it that is rounded to it: half the distance to its neighbours
in both directions, the ends belonging to it if its mantissa is even. Below the least mantissa the
neighbours are twice as close.

> `ofQuotient_eq_of_rounds`: whatever quotient lies in the interval is read as the number;
> `ofDecimal_eq_of_rounds`: whatever decimal does;
> `ofDecimal_isCanonical`: a decimal is read as a number of the format, if as a finite one.
-/

namespace Provision.Number.Binary64

/-! ## Rounding a quotient -/

/-- A quotient less than a half away from a natural is rounded to it, and so is one that is a half
away from an even one. -/
theorem roundEven_eq {num den n : Nat} (hden : 0 < den)
    (hlow : 2 * (n * den) < 2 * num + den ∨ 2 * (n * den) = 2 * num + den ∧ n % 2 = 0)
    (hhigh : 2 * num < 2 * (n * den) + den ∨ 2 * num = 2 * (n * den) + den ∧ n % 2 = 0) :
    roundEven num den = n := by
  have hsplit := Nat.div_add_mod' num den
  have hmod := Nat.mod_lt num hden
  rw [roundEven]
  generalize num / den = q at hsplit ⊢
  generalize num % den = r at hsplit hmod ⊢
  subst hsplit
  -- the natural is the quotient or the next one
  have hle : n ≤ q + 1 := by
    by_contra hcon
    have : (q + 2) * den ≤ n * den := Nat.mul_le_mul_right den (by omega)
    have : (q + 2) * den = q * den + 2 * den := Nat.add_mul q 2 den
    omega
  have hge : q ≤ n := by
    by_contra hcon
    have : (n + 1) * den ≤ q * den := Nat.mul_le_mul_right den (by omega)
    have : (n + 1) * den = n * den + den := Nat.succ_mul n den
    omega
  obtain rfl | rfl : n = q ∨ n = q + 1 := by omega
  · split_ifs <;> omega
  · rw [Nat.succ_mul q den] at hlow hhigh
    split_ifs <;> omega

/-- The same for a quotient of rationals. -/
theorem roundEven_eq_of_abs {num den n : Nat} {y : ℚ} (hden : 0 < den)
    (hy : (num : ℚ) / den = y) (hlow : n - 1 / 2 < y ∨ n - 1 / 2 = y ∧ n % 2 = 0)
    (hhigh : y < n + 1 / 2 ∨ y = n + 1 / 2 ∧ n % 2 = 0) : roundEven num den = n := by
  have hpos : (0 : ℚ) < den := by exact_mod_cast hden
  have hnum : (num : ℚ) = y * den := by rw [← hy]; field_simp
  apply roundEven_eq hden
  · rcases hlow with h | ⟨h, heven⟩
    · left
      have : (2 * (n * den) : ℚ) < 2 * num + den := by rw [hnum]; nlinarith
      exact_mod_cast this
    · right
      have : (2 * (n * den) : ℚ) = 2 * num + den := by rw [hnum, ← h]; ring
      exact ⟨by exact_mod_cast this, heven⟩
  · rcases hhigh with h | ⟨h, heven⟩
    · left
      have : (2 * num : ℚ) < 2 * (n * den) + den := by rw [hnum]; nlinarith
      exact_mod_cast this
    · right
      have : (2 * num : ℚ) = 2 * (n * den) + den := by rw [hnum, h]; ring
      exact ⟨by exact_mod_cast this, heven⟩

/-! ## The order of a quotient -/

/-- Powers in the numerator or in the denominator are one power. -/
theorem zpow_eq_div (b : Nat) (e : Int) :
    (b : ℚ) ^ e = (b ^ e.toNat : Nat) / (b ^ (-e).toNat : Nat) := by
  rcases le_total 0 e with h | h
  · obtain ⟨k, rfl⟩ := Int.eq_ofNat_of_zero_le h
    simp
  · obtain ⟨k, hk⟩ := Int.eq_ofNat_of_zero_le (Int.neg_nonneg.mpr h)
    obtain rfl : e = -(k : Int) := by omega
    simp

/-- The binary logarithm from below. -/
theorem two_zpow_log2_le {n : Nat} (h : 0 < n) : (2 : ℚ) ^ (Nat.log2 n : Int) ≤ n := by
  have := Nat.log2_self_le (by omega : n ≠ 0)
  exact_mod_cast this

/-- The binary logarithm from above. -/
theorem lt_two_zpow_log2 (n : Nat) : (n : ℚ) < 2 ^ ((Nat.log2 n : Int) + 1) := by
  have := Nat.lt_log2_self (n := n)
  exact_mod_cast this

/-- The order is that of the leading binary digit. -/
theorem binaryOrder_spec {num den : Nat} (hnum : 0 < num) (hden : 0 < den) :
    (2 : ℚ) ^ binaryOrder num den ≤ num / den ∧
      (num : ℚ) / den < 2 ^ (binaryOrder num den + 1) := by
  have hpos : (0 : ℚ) < den := by exact_mod_cast hden
  rw [binaryOrder]
  generalize hguess : (Nat.log2 num : Int) - (Nat.log2 den : Int) = guess
  have hupper : (num : ℚ) / den < 2 ^ (guess + 1) := by
    rw [div_lt_iff₀ hpos]
    calc (num : ℚ) < 2 ^ ((Nat.log2 num : Int) + 1) := lt_two_zpow_log2 num
      _ = 2 ^ (guess + 1) * 2 ^ (Nat.log2 den : Int) := by
        rw [← zpow_add₀ two_ne_zero]; congr 1; omega
      _ ≤ 2 ^ (guess + 1) * den := by gcongr; exact two_zpow_log2_le hden
  have hlower : (2 : ℚ) ^ (guess - 1) ≤ num / den := by
    rw [le_div_iff₀ hpos]
    calc (2 : ℚ) ^ (guess - 1) * den ≤ 2 ^ (guess - 1) * 2 ^ ((Nat.log2 den : Int) + 1) := by
          gcongr; exact (lt_two_zpow_log2 den).le
      _ = 2 ^ (Nat.log2 num : Int) := by rw [← zpow_add₀ two_ne_zero]; congr 1; omega
      _ ≤ num := two_zpow_log2_le hnum
  have hreached : (if 0 ≤ guess then decide (den * Nat.pow 2 guess.toNat ≤ num)
      else decide (den ≤ num * Nat.pow 2 (-guess).toNat)) = true ↔ (2 : ℚ) ^ guess ≤ num / den := by
    rw [le_div_iff₀ hpos]
    split
    next h =>
      obtain ⟨k, rfl⟩ := Int.eq_ofNat_of_zero_le h
      rw [decide_eq_true_iff, mul_comm, Int.toNat_natCast, zpow_natCast]
      exact_mod_cast Iff.rfl
    next h =>
      obtain ⟨k, hk⟩ := Int.eq_ofNat_of_zero_le (by omega : 0 ≤ -guess)
      obtain rfl : guess = -(k : Int) := by omega
      rw [decide_eq_true_iff, zpow_neg, zpow_natCast, inv_mul_le_iff₀ (by positivity), neg_neg,
        Int.toNat_natCast, mul_comm]
      exact_mod_cast Iff.rfl
  by_cases h : (2 : ℚ) ^ guess ≤ num / den
  · rw [if_pos (hreached.mpr h)]
    exact ⟨h, hupper⟩
  · rw [if_neg (fun hr => h (hreached.mp hr)), sub_add_cancel]
    exact ⟨hlower, not_le.mp h⟩

/-! ## The interval of a number -/

/-- Whether a finite number is written with the exponent that it has in the format. -/
structure Canonical (m : Nat) (e : Int) : Prop where
  mantissa_lt : m < 2 * hidden
  minExponent_le : minExponent ≤ e
  le_maxExponent : e ≤ maxExponent
  normal : hidden ≤ m ∨ e = minExponent

/-- How far the interval of a number reaches below it, in units of its last place. -/
def below (m : Nat) (e : Int) : ℚ := if m = hidden ∧ minExponent < e then 1 / 4 else 1 / 2

/-- Whether a positive rational is rounded to a number. -/
structure Rounds (m : Nat) (e : Int) (q : ℚ) : Prop where
  low : (m - below m e) * 2 ^ e < q ∨ (m - below m e) * 2 ^ e = q ∧ m % 2 = 0
  high : q < (m + 1 / 2) * 2 ^ e ∨ q = (m + 1 / 2) * 2 ^ e ∧ m % 2 = 0

/-- The mantissa that is found at an exponent. -/
theorem mantissa_eq {num den : Nat} (hden : 0 < den) {e : Int} {n : Nat} {y : ℚ}
    (hy : (num : ℚ) / den = y * 2 ^ e) (hlow : n - 1 / 2 < y ∨ n - 1 / 2 = y ∧ n % 2 = 0)
    (hhigh : y < n + 1 / 2 ∨ y = n + 1 / 2 ∧ n % 2 = 0) :
    (if 0 ≤ e then roundEven num (den * Nat.pow 2 e.toNat)
      else roundEven (num * Nat.pow 2 (-e).toNat) den) = n := by
  have hpos : (0 : ℚ) < den := by exact_mod_cast hden
  split
  next h =>
    obtain ⟨k, rfl⟩ := Int.eq_ofNat_of_zero_le h
    refine roundEven_eq_of_abs (Nat.mul_pos hden (Nat.pow_pos (by norm_num))) ?_ hlow hhigh
    rw [div_eq_iff hpos.ne'] at hy
    have hpow : (0 : ℚ) < 2 ^ k := by positivity
    simp only [Int.toNat_natCast, Nat.pow_eq, Nat.cast_mul, Nat.cast_pow, Nat.cast_ofNat,
      zpow_natCast] at hy ⊢
    rw [div_eq_iff (mul_pos hpos hpow).ne', hy]
    ring
  next h =>
    obtain ⟨k, hk⟩ := Int.eq_ofNat_of_zero_le (by omega : 0 ≤ -e)
    obtain rfl : e = -(k : Int) := by omega
    refine roundEven_eq_of_abs hden ?_ hlow hhigh
    rw [div_eq_iff hpos.ne'] at hy ⊢
    simp only [neg_neg, Int.toNat_natCast, Nat.pow_eq, Nat.cast_mul, Nat.cast_pow, Nat.cast_ofNat,
      zpow_neg, zpow_natCast] at hy ⊢
    rw [hy]
    field_simp

/-- The number that is found, by its exponent and its mantissa. -/
theorem ofQuotient_eq_of_mantissa {num den : Nat} (hden : 0 < den) {e : Int} {n : Nat} {y : ℚ}
    (hexponent : max minExponent (binaryOrder num den - 52) = e)
    (hy : (num : ℚ) / den = y * 2 ^ e) (hlow : n - 1 / 2 < y ∨ n - 1 / 2 = y ∧ n % 2 = 0)
    (hhigh : y < n + 1 / 2 ∨ y = n + 1 / 2 ∧ n % 2 = 0) (negative : Bool) :
    ofQuotient negative num den =
      if n = 2 * hidden then
        if maxExponent < e + 1 then .infinite negative else .finite negative hidden (e + 1)
      else if maxExponent < e then .infinite negative else .finite negative n e := by
  unfold ofQuotient
  simp only [hexponent]
  rw [mantissa_eq hden hy hlow hhigh]
  split <;> rfl

theorem zpow_add_eq (e k : Int) : (2 : ℚ) ^ (e + k) = 2 ^ k * 2 ^ e := by
  rw [add_comm, zpow_add₀ two_ne_zero]

theorem hidden_cast : ((hidden : Nat) : ℚ) = 2 ^ 52 := by norm_num [hidden]

/-- The exponent is found that is in the format: that of a leading binary digit in the place of
the hidden one, unless it would be too small. -/
theorem max_binaryOrder_eq {num den : Nat} (hnum : 0 < num) (hden : 0 < den) {e : Int} {y : ℚ}
    (hmin : minExponent ≤ e) (hy : (num : ℚ) / den = y * 2 ^ e) (hless : y < 2 ^ 53)
    (hside : 2 ^ 52 ≤ y ∨ e = minExponent) :
    max minExponent (binaryOrder num den - 52) = e := by
  obtain ⟨horder, horder'⟩ := binaryOrder_spec hnum hden
  rw [hy] at horder horder'
  have hpow : (0 : ℚ) < 2 ^ e := by positivity
  have hlt : ∀ {a b : Int}, (2 : ℚ) ^ a < 2 ^ b → a < b :=
    (zpow_lt_zpow_iff_right₀ (by norm_num : (1 : ℚ) < 2)).mp
  have hle : binaryOrder num den < e + 53 := by
    apply hlt
    rw [zpow_add_eq]
    exact horder.trans_lt (mul_lt_mul_of_pos_right hless hpow)
  rcases hside with h | h
  · have hge : e + 52 < binaryOrder num den + 1 := by
      apply hlt
      rw [zpow_add_eq]
      exact (mul_le_mul_of_nonneg_right h hpow.le).trans_lt horder'
    omega
  · omega

/-- **A quotient that is rounded to a number is read as it.** -/
theorem ofQuotient_eq_of_rounds {m : Nat} {e : Int} (hcanonical : Canonical m e)
    {num den : Nat} (hnum : 0 < num) (hden : 0 < den) (h : Rounds m e (num / den))
    (negative : Bool) : ofQuotient negative num den = .finite negative m e := by
  obtain ⟨hmantissa, hmin, hmax, hnormal⟩ := hcanonical
  have hpow : (0 : ℚ) < 2 ^ e := by positivity
  -- `y` is the quotient in units of the last place
  obtain ⟨y, hy⟩ : ∃ y, (num : ℚ) / den = y * 2 ^ e := ⟨num / den / 2 ^ e, by field_simp⟩
  rw [hy] at h
  have hlow : m - below m e < y ∨ m - below m e = y ∧ m % 2 = 0 :=
    h.low.imp (lt_of_mul_lt_mul_right · hpow.le) (.imp_left (mul_right_cancel₀ hpow.ne'))
  have hhigh : y < m + 1 / 2 ∨ y = m + 1 / 2 ∧ m % 2 = 0 :=
    h.high.imp (lt_of_mul_lt_mul_right · hpow.le) (.imp_left (mul_right_cancel₀ hpow.ne'))
  have hless : y < 2 ^ 53 := by
    have hcast : m + 1 ≤ 2 ^ 53 := hmantissa
    have hcast : (m : ℚ) + 1 ≤ 2 ^ 53 := by exact_mod_cast hcast
    rcases hhigh with h | ⟨h, -⟩ <;> linarith
  by_cases hside : y < 2 ^ 52 ∧ minExponent < e
  · -- the number is the least one with its exponent, and the quotient is below it
    obtain ⟨hside, he⟩ := hside
    have hm : m = hidden := by
      by_contra hne
      have hmore : hidden + 1 ≤ m := by omega
      have hmore : (2 : ℚ) ^ 52 + 1 ≤ m := by rw [← hidden_cast]; exact_mod_cast hmore
      rw [below, if_neg (fun h => hne h.1)] at hlow
      rcases hlow with h | ⟨h, -⟩ <;> linarith
    subst hm
    have hclose : (2 : ℚ) ^ 52 - 1 / 4 ≤ y := by
      rw [below, if_pos ⟨rfl, he⟩, hidden_cast] at hlow
      rcases hlow with h | ⟨h, -⟩ <;> linarith
    have hy : (num : ℚ) / den = 2 * y * 2 ^ (e - 1) := by
      rw [hy, zpow_sub_one₀ two_ne_zero]
      ring
    have hexponent : max minExponent (binaryOrder num den - 52) = e - 1 :=
      max_binaryOrder_eq hnum hden (by omega) hy (by linarith) (Or.inl (by linarith))
    have htwice : ((2 * hidden : Nat) : ℚ) = 2 ^ 53 := by norm_num [hidden]
    rw [ofQuotient_eq_of_mantissa hden hexponent hy (n := 2 * hidden), if_pos rfl, sub_add_cancel,
      if_neg (not_lt.mpr hmax)]
    · rw [htwice]
      exact (by linarith : (2 : ℚ) ^ 53 - 1 / 2 ≤ 2 * y).lt_or_eq.imp_right (⟨·, by decide⟩)
    · rw [htwice]
      exact Or.inl (by linarith)
  · have hside : 2 ^ 52 ≤ y ∨ e = minExponent := by
      rcases not_and_or.mp hside with h | h
      · exact Or.inl (not_lt.mp h)
      · exact Or.inr (le_antisymm (not_lt.mp h) hmin)
    have hlow : (m : ℚ) - 1 / 2 < y ∨ (m : ℚ) - 1 / 2 = y ∧ m % 2 = 0 := by
      rw [below] at hlow
      split at hlow
      · left
        rcases hlow with h | ⟨h, -⟩ <;> linarith
      · exact hlow
    have hexponent := max_binaryOrder_eq hnum hden hmin hy hless hside
    rw [ofQuotient_eq_of_mantissa hden hexponent hy hlow hhigh, if_neg hmantissa.ne,
      if_neg (not_lt.mpr hmax)]

/-! ## Decimals -/

/-- What rounds to a number other than zero lies within the range of the format. -/
theorem Rounds.bounds {m : Nat} {e : Int} {q : ℚ} (h : Rounds m e q) (hcanonical : Canonical m e)
    (hm : 0 < m) : (2 : ℚ) ^ (-1075 : Int) ≤ q ∧ q < 2 ^ (1024 : Int) := by
  obtain ⟨hmantissa, hmin, hmax, -⟩ := hcanonical
  have hone : (1 : ℚ) ≤ m := by exact_mod_cast hm
  have hlast : (2 : ℚ) ^ (-1074 : Int) ≤ 2 ^ e := zpow_le_zpow_right₀ (by norm_num) hmin
  have hfirst : (2 : ℚ) ^ e ≤ 2 ^ (971 : Int) := zpow_le_zpow_right₀ (by norm_num) hmax
  have hpow : (0 : ℚ) < 2 ^ e := by positivity
  constructor
  · have hbelow : below m e ≤ 1 / 2 := by
      rw [below]
      split <;> norm_num
    calc (2 : ℚ) ^ (-1075 : Int) = 1 / 2 * 2 ^ (-1074 : Int) := by
          rw [(by norm_num : (-1075 : Int) = -1074 - 1), zpow_sub_one₀ two_ne_zero, mul_comm,
            one_div]
      _ ≤ 1 / 2 * 2 ^ e := by gcongr
      _ ≤ (m - below m e) * 2 ^ e := by gcongr; linarith
      _ ≤ q := by rcases h.low with h | ⟨h, -⟩ <;> linarith
  · have hcast : m + 1 ≤ 2 ^ 53 := hmantissa
    have hcast : (m : ℚ) + 1 ≤ 2 ^ 53 := by exact_mod_cast hcast
    calc q ≤ (m + 1 / 2) * 2 ^ e := by rcases h.high with h | ⟨h, -⟩ <;> linarith
      _ < 2 ^ (53 : Int) * 2 ^ e := by gcongr; norm_num at hcast ⊢; linarith
      _ ≤ 2 ^ (53 : Int) * 2 ^ (971 : Int) := by gcongr
      _ = 2 ^ (1024 : Int) := (zpow_add_eq 971 53).symm

/-- A positive decimal lies between the powers of ten that its number of digits tells. -/
theorem digitCount_spec {d : Nat} (hd : 0 < d) (k : Int) :
    (10 : ℚ) ^ (k + digitCount d - 1) ≤ d * 10 ^ k ∧
      (d : ℚ) * 10 ^ k < 10 ^ (k + digitCount d) := by
  rw [digitCount, if_neg hd.ne']
  generalize hlength : (Nat.toDigits 10 d).length = l
  have hl : 0 < l := hlength ▸ Nat.length_toDigits_pos
  have hlt : d < 10 ^ l := (Nat.length_toDigits_le_iff (by norm_num) hl).mp hlength.le
  have hle : 10 ^ (l - 1) ≤ d := by
    by_contra hcon
    rcases Nat.eq_zero_or_pos (l - 1) with h | h
    · rw [h] at hcon
      omega
    · have := (Nat.length_toDigits_le_iff (by norm_num) h).mpr (not_le.mp hcon)
      omega
  have hlt : (d : ℚ) < 10 ^ (l : Int) := by exact_mod_cast hlt
  have hle : (10 : ℚ) ^ ((l - 1 : Nat) : Int) ≤ d := by exact_mod_cast hle
  have hpow : (0 : ℚ) < 10 ^ k := by positivity
  constructor
  · rw [(by omega : k + (l : Int) - 1 = ((l - 1 : Nat) : Int) + k), zpow_add₀ (by norm_num)]
    gcongr
  · rw [add_comm, zpow_add₀ (by norm_num)]
    gcongr

/-- A number of 310 decimal digits or more is out of range. -/
theorem two_zpow_lt_ten_zpow : (2 : ℚ) ^ (1024 : Int) < 10 ^ (310 : Int) := by
  have h : 2 ^ 1024 < 10 ^ 310 := by decide +kernel
  exact_mod_cast h

/-- A number below that decimal place is rounded to zero. -/
theorem ten_zpow_lt_two_zpow : (10 : ℚ) ^ (-331 : Int) < 2 ^ (-1075 : Int) := by
  have h : 2 ^ 1075 < 10 ^ 331 := by decide +kernel
  rw [zpow_neg, zpow_neg, inv_lt_inv₀ (by positivity) (by positivity)]
  exact_mod_cast h

/-- **A decimal that is rounded to a number is read as it.** -/
theorem ofDecimal_eq_of_rounds {m : Nat} {e : Int} (hcanonical : Canonical m e) (hm : 0 < m)
    {d : Nat} {k : Int} (hd : 0 < d) (h : Rounds m e (d * 10 ^ k)) (negative : Bool) :
    ofDecimal negative d k = .finite negative m e := by
  obtain ⟨hlow, hhigh⟩ := h.bounds hcanonical hm
  obtain ⟨horder, horder'⟩ := digitCount_spec hd k
  have hlt : ∀ {a b : Int}, (10 : ℚ) ^ a < 10 ^ b → a < b :=
    (zpow_lt_zpow_iff_right₀ (by norm_num : (1 : ℚ) < 10)).mp
  -- the powers of ten around the range of the format
  have hlarge : k + digitCount d - 1 < 310 :=
    hlt (horder.trans_lt (hhigh.trans two_zpow_lt_ten_zpow))
  have hsmall : -331 < k + digitCount d :=
    hlt ((ten_zpow_lt_two_zpow.trans_le hlow).trans horder')
  rw [ofDecimal, if_neg hd.ne']
  dsimp only
  rw [if_neg (by omega), if_neg (by omega)]
  split
  next hk =>
    obtain ⟨j, rfl⟩ := Int.eq_ofNat_of_zero_le hk
    refine ofQuotient_eq_of_rounds hcanonical (Nat.mul_pos hd (Nat.pow_pos (by norm_num)))
      Nat.one_pos ?_ negative
    simpa using h
  next hk =>
    obtain ⟨j, hj⟩ := Int.eq_ofNat_of_zero_le (by omega : 0 ≤ -k)
    obtain rfl : k = -(j : Int) := by omega
    refine ofQuotient_eq_of_rounds hcanonical hd (Nat.pow_pos (by norm_num)) ?_ negative
    simpa [div_eq_mul_inv] using h

/-! ## Everything that is read is canonical -/

/-- Whether a number is one of the format. -/
def IsCanonical : Binary64 → Prop
  | finite _ m e => Canonical m e
  | _ => True

/-- Zero has the least exponent. -/
theorem canonical_zero : Canonical 0 minExponent := by
  constructor <;> decide

/-- There is a nearest natural, an even one of two. -/
theorem exists_nearest {y : ℚ} (hy : 0 ≤ y) : ∃ n : Nat,
    (n - 1 / 2 < y ∨ n - 1 / 2 = y ∧ n % 2 = 0) ∧ (y < n + 1 / 2 ∨ y = n + 1 / 2 ∧ n % 2 = 0) := by
  have hle := Nat.floor_le hy
  have hlt := Nat.lt_floor_add_one y
  generalize ⌊y⌋₊ = q at hle hlt
  rcases lt_trichotomy y (q + 1 / 2) with h | h | h
  · exact ⟨q, Or.inl (by linarith), Or.inl h⟩
  · rcases Nat.mod_two_eq_zero_or_one q with heven | hodd
    · exact ⟨q, Or.inl (by linarith), Or.inr ⟨h, heven⟩⟩
    · refine ⟨q + 1, Or.inr ⟨?_, by omega⟩, Or.inl ?_⟩ <;> push_cast <;> linarith
  · refine ⟨q + 1, Or.inl ?_, Or.inl ?_⟩ <;> push_cast <;> linarith

/-- **A quotient is read as a number of the format, or as an infinite one.** -/
theorem ofQuotient_isCanonical {num den : Nat} (hnum : 0 < num) (hden : 0 < den)
    (negative : Bool) : (ofQuotient negative num den).IsCanonical := by
  obtain ⟨horder, horder'⟩ := binaryOrder_spec hnum hden
  obtain ⟨e, hexponent⟩ : ∃ e, max minExponent (binaryOrder num den - 52) = e := ⟨_, rfl⟩
  have hpow : (0 : ℚ) < 2 ^ e := by positivity
  -- `y` is the quotient in units of the last place, and `n` is what it is rounded to
  obtain ⟨y, hy⟩ : ∃ y, (num : ℚ) / den = y * 2 ^ e := ⟨num / den / 2 ^ e, by field_simp⟩
  rw [hy] at horder horder'
  have hless : y < 2 ^ (53 : Int) := by
    refine lt_of_mul_lt_mul_right (horder'.trans_le ?_) hpow.le
    rw [← zpow_add_eq]
    exact zpow_le_zpow_right₀ (by norm_num) (by omega)
  have hside : 2 ^ (52 : Int) ≤ y ∨ e = minExponent := by
    by_cases he : e = minExponent
    · exact Or.inr he
    · left
      refine le_of_mul_le_mul_right (le_trans ?_ horder) hpow
      rw [← zpow_add_eq]
      exact zpow_le_zpow_right₀ (by norm_num) (by omega)
  have hpositive : 0 ≤ y :=
    (pos_of_mul_pos_left (lt_of_lt_of_le (by positivity) horder) hpow.le).le
  obtain ⟨n, hlow, hhigh⟩ := exists_nearest hpositive
  have hle : n ≤ 2 * hidden := by
    have hcast : ((2 * hidden : Nat) : ℚ) = 2 ^ (53 : Int) := by norm_num [hidden]
    have : (n : ℚ) < (2 * hidden + 1 : Nat) := by
      rw [Nat.cast_add, hcast]
      rcases hlow with h | ⟨h, -⟩ <;> push_cast <;> linarith
    exact Nat.lt_succ_iff.mp (by exact_mod_cast this)
  have hnormal : hidden ≤ n ∨ e = minExponent := by
    refine hside.imp_left fun h => ?_
    have hcast : ((hidden : Nat) : ℚ) = 2 ^ (52 : Int) := by norm_num [hidden]
    have : ((hidden : Nat) : ℚ) < (n + 1 : Nat) := by
      rw [hcast]
      rcases hhigh with h | ⟨h, -⟩ <;> push_cast <;> linarith
    exact Nat.lt_succ_iff.mp (by exact_mod_cast this)
  rw [ofQuotient_eq_of_mantissa hden hexponent hy hlow hhigh]
  split_ifs with htwice hover hover
  · trivial
  · exact ⟨by decide, by omega, by omega, Or.inl le_rfl⟩
  · trivial
  · exact ⟨by omega, by omega, by omega, hnormal⟩

/-- **A decimal is read as a number of the format, or as an infinite one.** -/
theorem ofDecimal_isCanonical (negative : Bool) (d : Nat) (k : Int) :
    (ofDecimal negative d k).IsCanonical := by
  rw [ofDecimal]
  dsimp only
  split_ifs with hzero hlarge hsmall hwhole
  · exact canonical_zero
  · trivial
  · exact canonical_zero
  · have hnum : 0 < d * Nat.pow 10 k.toNat :=
      Nat.mul_pos (by omega) (Nat.pow_pos (by norm_num))
    exact ofQuotient_isCanonical hnum Nat.one_pos negative
  · exact ofQuotient_isCanonical (by omega) (Nat.pow_pos (by norm_num)) negative

end Provision.Number.Binary64
