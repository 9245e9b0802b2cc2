import Provision.Number.Shortest
import Provision.Proofs.Number.Binary64

/-!
# The shortest decimal reads back

The search for the shortest decimal tries the neighbours of a number on finer and finer decimal
grids. Whatever it finds lies in the interval of the number; and it does find something, because
a grid of eighteen digits is finer than the half of the interval above the number.

> `ofFinite_rounds`: the shortest decimal of a number is rounded to the number.
-/

namespace Provision.Number.Shortest

open Binary64 (Canonical Rounds below zpow_eq_div)

variable {m : Nat} {e k : Int}

/-! ## Intervals -/

/-- The unit of the cell of a number. -/
theorem cell_scale (e : Int) :
    ((Nat.pow 2 (e - 2).toNat : Nat) : ℚ) = 2 ^ e / 4 * (Nat.pow 2 (-(e - 2)).toNat : Nat) := by
  have hpos : (0 : ℚ) < (2 ^ (-(e - 2)).toNat : Nat) := by positivity
  have h := zpow_eq_div 2 (e - 2)
  rw [eq_div_iff hpos.ne'] at h
  rw [Nat.pow_eq, ← h, zpow_sub₀ (by norm_num)]
  norm_num

/-- The number in the middle of its cell. -/
theorem cell_value : ((cell m e).value : ℚ) = m * 2 ^ e * (cell m e).den := by
  simp only [cell, Nat.cast_mul, cell_scale]
  push_cast
  ring

/-- The upper end of a cell is half a unit above. -/
theorem cell_high : ((cell m e).high : ℚ) = (m + 1 / 2) * 2 ^ e * (cell m e).den := by
  simp only [cell, Nat.cast_mul, cell_scale]
  push_cast
  ring

/-- The lower end of a cell is as far below as the number before allows. -/
theorem cell_low (hm : 0 < m) :
    ((cell m e).low : ℚ) = (m - below m e) * 2 ^ e * (cell m e).den := by
  simp only [cell, Nat.cast_mul, cell_scale, below]
  split
  · rw [Nat.cast_sub (by omega)]
    push_cast
    ring
  · rw [Nat.cast_sub (by omega)]
    push_cast
    ring

theorem cell_den_pos : 0 < (cell m e).den := Nat.pow_pos (by norm_num)

/-- What an interval is measured in, in units of a power of ten. -/
def unit (m : Nat) (e k : Int) : ℚ := (cell m e).den * (Nat.pow 10 (-k).toNat : Nat)

theorem unit_pos : 0 < unit m e k :=
  mul_pos (by exact_mod_cast cell_den_pos) (by exact_mod_cast Nat.pow_pos (by norm_num))

theorem inUnits_den : (((cell m e).inUnits k).den : ℚ) = 10 ^ k * unit m e k := by
  have hpos : (0 : ℚ) < (10 ^ (-k).toNat : Nat) := by positivity
  have h := zpow_eq_div 10 k
  rw [eq_div_iff hpos.ne'] at h
  simp only [Cell.inUnits, unit, Nat.cast_mul, Nat.pow_eq, ← h]
  push_cast
  ring

/-- The number, counted in units of a decimal place. -/
theorem inUnits_value : (((cell m e).inUnits k).value : ℚ) = m * 2 ^ e * unit m e k := by
  simp only [Cell.inUnits, unit, Nat.cast_mul, cell_value]
  ring

/-- The upper end of the cell, counted in units of a decimal place. -/
theorem inUnits_high : (((cell m e).inUnits k).high : ℚ) = (m + 1 / 2) * 2 ^ e * unit m e k := by
  simp only [Cell.inUnits, unit, Nat.cast_mul, cell_high]
  ring

/-- The lower end of the cell, counted in units of a decimal place. -/
theorem inUnits_low (hm : 0 < m) :
    (((cell m e).inUnits k).low : ℚ) = (m - below m e) * 2 ^ e * unit m e k := by
  simp only [Cell.inUnits, unit, Nat.cast_mul, cell_low hm]
  ring

/-- What the interval of a number holds, in units of a power of ten, is rounded to the number. -/
theorem rounds_of_holds (hm : 0 < m) {n : Nat} (h : ((cell m e).inUnits k).holds n = true) :
    Rounds m e (n * 10 ^ k) := by
  have hunit : 0 < unit m e k := unit_pos
  have hlow := inUnits_low (e := e) (k := k) hm
  have hhigh := inUnits_high (m := m) (e := e) (k := k)
  have hden := inUnits_den (m := m) (e := e) (k := k)
  have hclosed : ((cell m e).inUnits k).closed = decide (m % 2 = 0) := rfl
  generalize (cell m e).inUnits k = c at *
  have hscaled : ((n * c.den : Nat) : ℚ) = n * 10 ^ k * unit m e k := by
    rw [Nat.cast_mul, hden]
    ring
  rw [Cell.holds, hclosed] at h
  split at h
  next heven =>
    rw [Bool.and_eq_true, decide_eq_true_iff, decide_eq_true_iff] at h
    have heven : m % 2 = 0 := of_decide_eq_true heven
    have h1 : (c.low : ℚ) ≤ (n * c.den : Nat) := by exact_mod_cast h.1
    have h2 : ((n * c.den : Nat) : ℚ) ≤ c.high := by exact_mod_cast h.2
    rw [hlow, hscaled] at h1
    rw [hhigh, hscaled] at h2
    exact ⟨(le_of_mul_le_mul_right h1 hunit).lt_or_eq.imp_right (⟨·, heven⟩),
      (le_of_mul_le_mul_right h2 hunit).lt_or_eq.imp_right (⟨·, heven⟩)⟩
  next =>
    rw [Bool.and_eq_true, decide_eq_true_iff, decide_eq_true_iff] at h
    have h1 : (c.low : ℚ) < (n * c.den : Nat) := by exact_mod_cast h.1
    have h2 : ((n * c.den : Nat) : ℚ) < c.high := by exact_mod_cast h.2
    rw [hlow, hscaled] at h1
    rw [hhigh, hscaled] at h2
    exact ⟨Or.inl (lt_of_mul_lt_mul_right h1 hunit.le), Or.inl (lt_of_mul_lt_mul_right h2 hunit.le)⟩

/-! ## Neighbours on a grid -/

/-- A neighbour that is taken is positive and in the interval. -/
theorem holds_of_neighbour {c : Cell} {d : Nat} (h : c.neighbour = some d) :
    0 < d ∧ c.holds d = true := by
  unfold Cell.neighbour at h
  dsimp only at h
  split at h
  next hboth =>
    rw [Bool.and_eq_true, Bool.and_eq_true, decide_eq_true_iff] at hboth
    obtain rfl := Option.some.inj h
    split
    · exact hboth.1
    · exact ⟨Nat.succ_pos _, hboth.2⟩
  · split at h
    next hdown =>
      rw [Bool.and_eq_true, decide_eq_true_iff] at hdown
      obtain rfl := Option.some.inj h
      exact hdown
    · split at h
      next hup =>
        obtain rfl := Option.some.inj h
        exact ⟨Nat.succ_pos _, hup⟩
      · simp at h

/-- There is a neighbour if the one above is in the interval. -/
theorem neighbour_isSome {c : Cell} (h : c.holds (c.value / c.den + 1) = true) :
    ∃ d, c.neighbour = some d := by
  unfold Cell.neighbour
  dsimp only
  rw [h]
  cases decide (0 < c.value / c.den) && c.holds (c.value / c.den) with
  | true => exact ⟨_, rfl⟩
  | false => exact ⟨_, rfl⟩

/-- On a grid that is fine enough, the neighbour above is in the interval. -/
theorem holds_of_fine (hm : 0 < m) (hfine : (10 : ℚ) ^ k < 2 ^ e / 2) :
    ((cell m e).inUnits k).holds
      (((cell m e).inUnits k).value / ((cell m e).inUnits k).den + 1) = true := by
  have hunit : 0 < unit m e k := unit_pos
  have hlast : (0 : ℚ) < 2 ^ e := by positivity
  have hlow := inUnits_low (e := e) (k := k) hm
  have hvalue := inUnits_value (m := m) (e := e) (k := k)
  have hhigh := inUnits_high (m := m) (e := e) (k := k)
  have hden := inUnits_den (m := m) (e := e) (k := k)
  generalize (cell m e).inUnits k = c at *
  have hpos : 0 < c.den := by
    have : (0 : ℚ) < c.den := by rw [hden]; positivity
    exact_mod_cast this
  -- the neighbour is above the value, but by less than a unit
  have habove : c.value < (c.value / c.den + 1) * c.den :=
    (Nat.lt_div_mul_add hpos).trans_eq (Nat.succ_mul _ _).symm
  have hclose : (c.value / c.den + 1) * c.den ≤ c.value + c.den := by
    have := Nat.div_mul_le_self c.value c.den
    rw [Nat.succ_mul]
    omega
  have hbelow : 0 < below m e := by
    rw [below]
    split <;> norm_num
  have hleft : c.low < (c.value / c.den + 1) * c.den := by
    refine lt_of_le_of_lt ?_ habove
    have : (c.low : ℚ) ≤ c.value := by
      rw [hlow, hvalue]
      gcongr
      linarith
    exact_mod_cast this
  have hright : (c.value / c.den + 1) * c.den < c.high := by
    refine lt_of_le_of_lt hclose ?_
    have : ((c.value + c.den : Nat) : ℚ) < c.high := by
      rw [Nat.cast_add, hvalue, hden, hhigh, ← add_mul]
      gcongr
      linarith
    exact_mod_cast this
  rw [Cell.holds]
  split <;> simp [hleft, hright, hleft.le, hright.le]

/-! ## The search -/

/-- If one of the grids that are tried has a neighbour in the interval, one is found. -/
theorem search_eq {c : Cell} {top : Int} : ∀ {fuel j : Nat} {k : Int}, j < fuel →
    (∃ d, (c.inUnits (k - j)).neighbour = some d) →
      ∃ d k', search c top fuel k = ⟨d, k'⟩ ∧ (c.inUnits k').neighbour = some d := by
  intro fuel
  induction fuel with
  | zero => intro j k hj; omega
  | succ fuel ih =>
    intro j k hj hd
    rw [search]
    split
    next d hnow => exact ⟨d, k, rfl, hnow⟩
    next hnow =>
      cases j with
      | zero =>
        obtain ⟨d, hd⟩ := hd
        simp [hnow] at hd
      | succ j =>
        refine ih (j := j) (by omega) ?_
        rwa [(by push_cast; ring : k - 1 - (j : Int) = k - ((j + 1 : Nat) : Int))]

/-- The leading power of ten is not above the value, if the last of those tried is not. -/
theorem leading_le {fuel : Nat} : ∀ {k : Int}, (10 : ℚ) ^ (k - fuel) ≤ m * 2 ^ e →
    (10 : ℚ) ^ leading (cell m e) fuel k ≤ m * 2 ^ e := by
  induction fuel with
  | zero => intro k h; simpa [leading] using h
  | succ fuel ih =>
    intro k h
    rw [leading]
    split
    next hle =>
      have hle : (((cell m e).inUnits k).den : ℚ) ≤ ((cell m e).inUnits k).value := by
        exact_mod_cast hle
      rw [inUnits_den, inUnits_value] at hle
      exact le_of_mul_le_mul_right hle unit_pos
    next =>
      apply ih
      rwa [(by push_cast; ring : k - 1 - (fuel : Int) = k - ((fuel + 1 : Nat) : Int))]

/-! ## The power of ten that the search begins with -/

/-- Powers of two and of ten of about the same size. -/
theorem ten_pow_le_two_pow : ∀ n < 1024, 10 ^ (30103 * n / 100000) ≤ 2 ^ n * 10 ^ 6 := by
  decide +kernel

/-- The decimal logarithm of two, as a fraction that is large enough for every exponent of the
format. -/
theorem two_pow_le_ten_pow : ∀ n < 1075, 2 ^ n ≤ 10 ^ ((30103 * n + 99999) / 100000 + 6) := by
  decide +kernel

/-- A power of ten that is not above a power of two, by its order alone. -/
theorem ten_zpow_le_two_zpow {b : Int} (hmin : -1074 ≤ b) (hmax : b < 1024) :
    (10 : ℚ) ^ (b * 30103 / 100000 - 6) ≤ 2 ^ b := by
  rcases le_total 0 b with h | h
  · obtain ⟨n, rfl⟩ := Int.eq_ofNat_of_zero_le h
    have hle := ten_pow_le_two_pow n (by omega)
    have hle : (10 : ℚ) ^ (30103 * n / 100000) ≤ 2 ^ n * 10 ^ 6 := by exact_mod_cast hle
    rw [(by omega : (n : Int) * 30103 / 100000 = ((30103 * n / 100000 : Nat) : Int)),
      zpow_sub₀ (by norm_num), div_le_iff₀ (by positivity)]
    exact_mod_cast hle
  · obtain ⟨n, hn⟩ := Int.eq_ofNat_of_zero_le (by omega : 0 ≤ -b)
    obtain rfl : b = -(n : Int) := by omega
    have hle := two_pow_le_ten_pow n (by omega)
    have hle : (2 : ℚ) ^ n ≤ 10 ^ ((30103 * n + 99999) / 100000 + 6) := by exact_mod_cast hle
    rw [(by omega : -(n : Int) * 30103 / 100000 - 6 =
        -(((30103 * n + 99999) / 100000 + 6 : Nat) : Int)), zpow_neg, zpow_neg,
      inv_le_inv₀ (by positivity) (by positivity)]
    exact_mod_cast hle

/-- The order of a canonical number is in the range of the format. -/
theorem order_mem (hcanonical : Canonical m e) (hm : 0 < m) :
    -1074 ≤ (Nat.log2 m : Int) + e ∧ (Nat.log2 m : Int) + e < 1024 := by
  have hmin := hcanonical.minExponent_le
  have hmax := hcanonical.le_maxExponent
  have hlog : Nat.log2 m < 53 := (Nat.log2_lt hm.ne').mpr hcanonical.mantissa_lt
  rw [Binary64.minExponent] at hmin
  rw [Binary64.maxExponent] at hmax
  omega

/-- The power of ten that the search begins with is not above the number. -/
theorem ten_zpow_top_le (hcanonical : Canonical m e) (hm : 0 < m) :
    (10 : ℚ) ^ leading (cell m e) 8 (((Nat.log2 m : Int) + e) * 30103 / 100000 + 2) ≤
      m * 2 ^ e := by
  obtain ⟨hmin, hmax⟩ := order_mem hcanonical hm
  apply leading_le
  calc (10 : ℚ) ^ (((Nat.log2 m : Int) + e) * 30103 / 100000 + 2 - (8 : Nat))
      = 10 ^ (((Nat.log2 m : Int) + e) * 30103 / 100000 - 6) := by congr 1; push_cast; ring
    _ ≤ 2 ^ ((Nat.log2 m : Int) + e) := ten_zpow_le_two_zpow hmin hmax
    _ = 2 ^ (Nat.log2 m : Int) * 2 ^ e := zpow_add₀ two_ne_zero _ _
    _ ≤ m * 2 ^ e := by gcongr; exact Binary64.two_zpow_log2_le hm

/-! ## The shortest decimal -/

/-- Trailing zeros that are moved into the exponent change nothing. -/
theorem strip_eq : ∀ (fuel : Nat) {x : Decimal}, 0 < x.digits →
    0 < (strip fuel x).digits ∧
      ((strip fuel x).digits : ℚ) * 10 ^ (strip fuel x).exponent = x.digits * 10 ^ x.exponent := by
  intro fuel
  induction fuel with
  | zero => intro x hx; exact ⟨hx, rfl⟩
  | succ fuel ih =>
    intro x hx
    rw [strip]
    split
    next hzero =>
      have hsplit : x.digits = 10 * (x.digits / 10) := by omega
      obtain ⟨hpos, hsame⟩ := ih (x := ⟨x.digits / 10, x.exponent + 1⟩) (by dsimp only; omega)
      refine ⟨hpos, hsame.trans ?_⟩
      have hcast : (x.digits : ℚ) = 10 * ((x.digits / 10 : Nat) : ℚ) := by exact_mod_cast hsplit
      dsimp only
      rw [zpow_add_one₀ (by norm_num), hcast]
      ring
    next => exact ⟨hx, rfl⟩

/-- **The shortest decimal of a number is rounded to the number.** -/
theorem ofFinite_rounds (hcanonical : Canonical m e) (hm : 0 < m) :
    0 < (ofFinite m e).digits ∧
      Rounds m e ((ofFinite m e).digits * 10 ^ (ofFinite m e).exponent) := by
  have htop := ten_zpow_top_le hcanonical hm
  rw [ofFinite]
  generalize leading (cell m e) 8 _ = top at htop ⊢
  -- a grid of eighteen digits is fine enough
  have hfine : (10 : ℚ) ^ (top - (17 : Nat)) < 2 ^ e / 2 := by
    have hcast : (m : ℚ) < 2 * 2 ^ 52 := by
      rw [← Binary64.hidden_cast]
      exact_mod_cast hcanonical.mantissa_lt
    have hlast : (0 : ℚ) < 2 ^ e := by positivity
    rw [zpow_sub₀ (by norm_num), zpow_natCast, div_lt_iff₀ (by positivity)]
    calc (10 : ℚ) ^ top ≤ m * 2 ^ e := htop
      _ < 2 * 2 ^ 52 * 2 ^ e := by gcongr
      _ < 2 ^ e / 2 * 10 ^ 17 := by linarith
  obtain ⟨d, k, hsearch, hd⟩ : ∃ d k, search (cell m e) top 20 top = ⟨d, k⟩ ∧
      ((cell m e).inUnits k).neighbour = some d :=
    search_eq (by norm_num : 17 < 20) (neighbour_isSome (holds_of_fine hm hfine))
  obtain ⟨hpos, hholds⟩ := holds_of_neighbour hd
  rw [hsearch]
  obtain ⟨hpos', hsame⟩ := strip_eq 20 (x := ⟨d, k⟩) hpos
  exact ⟨hpos', hsame ▸ rounds_of_holds hm hholds⟩

end Provision.Number.Shortest
