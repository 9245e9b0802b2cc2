import Provision.Yaml.Scalar
import Provision.Proofs.Number.Binary64

/-!
# What scalars can be

Whatever a scalar is read as, it is in the range of its kind, and a string is the text itself.

> `fits_of_ofNode`: an integer that is read has 64 bits, a number is one of the format;
> `eq_of_ofNode_eq_string`: a string that is read is its text.
-/

namespace Provision.Yaml.Scalar

open Provision.Number (Binary64)

/-! ## Ranges -/

/-- Whether the format has a scalar: an integer of 64 bits, or a number of the format. -/
def Fits : Scalar → Prop
  | integer n => -2 ^ 63 ≤ n ∧ n < 2 ^ 64
  | float x => x.IsCanonical
  | _ => True

/-- An integer has 64 bits, or is a wide one. -/
theorem integer?_cases {cs : List Char} {s : Scalar} (h : integer? cs = some s) :
    (∃ n : Int, s = .integer n ∧ -2 ^ 63 ≤ n ∧ n < 2 ^ 64) ∨ ∃ n, s = .wide n := by
  unfold integer? at h
  split at h
  · obtain ⟨n, -, h⟩ := Option.bind_eq_some_iff.mp h
    split_ifs at h with hsmall hwide
    · have hsmall : n ≤ 2 ^ 63 := hsmall
      exact Or.inl ⟨_, (Option.some.inj h).symm, by omega, by omega⟩
    · exact Or.inr ⟨_, (Option.some.inj h).symm⟩
  · obtain ⟨n, -, h⟩ := Option.bind_eq_some_iff.mp h
    split_ifs at h with hsmall hwide
    · have hsmall : n < 2 ^ 64 := hsmall
      exact Or.inl ⟨_, (Option.some.inj h).symm, by omega, by omega⟩
    · exact Or.inr ⟨_, (Option.some.inj h).symm⟩

/-- An integer that is read from a text is in the range that is kept. -/
theorem fits_of_integer? {cs : List Char} {s : Scalar} (h : integer? cs = some s) : s.Fits := by
  obtain ⟨n, rfl, hn⟩ | ⟨n, rfl⟩ := integer?_cases h
  · exact hn
  · trivial

/-- A decimal is rounded to a number of the format. -/
theorem isCanonical_of_decimal? {negative : Bool} {cs : List Char} {x : Binary64}
    (h : decimal? negative cs = some x) : x.IsCanonical := by
  rw [decimal?] at h
  obtain ⟨digits, -, h⟩ := Option.bind_eq_some_iff.mp h
  obtain ⟨power, -, h⟩ := Option.bind_eq_some_iff.mp h
  obtain rfl := Option.some.inj h
  exact Binary64.ofDecimal_isCanonical _ _ _

/-- A float is canonical in each of its spellings. -/
theorem isCanonical_of_float? {cs : List Char} {x : Binary64} (h : float? cs = some x) :
    x.IsCanonical := by
  unfold float? at h
  dsimp only at h
  split at h
  · obtain rfl := Option.some.inj h
    trivial
  · split at h
    · obtain rfl := Option.some.inj h
      trivial
    · generalize withoutPlus cs = positive at h
      split at h
      · obtain rfl := Option.some.inj h
        trivial
      · obtain ⟨h, -⟩ := Option.filter_eq_some_iff.mp h
        split at h
        · split at h
          · simp at h
          · exact isCanonical_of_decimal? h
        · simp at h
        · exact isCanonical_of_decimal? h

/-- What a plain text means fits, whatever it says. -/
theorem ofPlain_fits (text : String) : (ofPlain text).Fits := by
  unfold ofPlain
  dsimp only
  split
  · trivial
  · split
    · trivial
    · split
      next h => exact fits_of_integer? h
      next =>
        split
        · trivial
        · split
          next h => exact isCanonical_of_float? h
          next => trivial

/-- What a tag demands is met. -/
theorem eq_some_of_elim {o : Option Scalar} {d : Demand} {s : Scalar}
    (h : o.elim (Except.error d) Except.ok = .ok s) : o = some s := by
  cases o with
  | none => exact nomatch h
  | some s' => exact congrArg some (Except.ok.inj h)

/-- **Every scalar that is read fits.** -/
theorem fits_of_ofNode {tag : Option Tag} {style : Style} {text : String} {s : Scalar}
    (h : ofNode tag style text = .ok s) : s.Fits := by
  have hfree : (if style == .plain then ofPlain text else .string text).Fits := by
    split
    · exact ofPlain_fits text
    · trivial
  unfold ofNode at h
  dsimp only at h
  split at h
  · obtain rfl := Except.ok.inj h
    exact hfree
  · obtain rfl := Except.ok.inj h
    exact hfree
  · obtain rfl := Except.ok.inj h
    exact hfree
  · obtain rfl := Except.ok.inj h
    trivial
  · obtain ⟨b, -, rfl⟩ := Option.map_eq_some_iff.mp (eq_some_of_elim h)
    trivial
  · exact fits_of_integer? (eq_some_of_elim h)
  · obtain ⟨x, hx, rfl⟩ := Option.map_eq_some_iff.mp (eq_some_of_elim h)
    exact isCanonical_of_float? hx
  · split at h
    · obtain rfl := Except.ok.inj h
      trivial
    · exact nomatch h

/-! ## Strings -/

/-- A text that means a string means itself. -/
theorem eq_of_ofPlain_eq_string {text s : String} (h : ofPlain text = .string s) : s = text := by
  unfold ofPlain at h
  dsimp only at h
  split at h
  · exact nomatch h
  · split at h
    · exact nomatch h
    · split at h
      next hs =>
        obtain ⟨n, rfl, -⟩ | ⟨n, rfl⟩ := integer?_cases hs
        · exact nomatch h
        · exact nomatch h
      next =>
        split at h
        · exact (Scalar.string.inj h).symm
        · split at h
          · exact nomatch h
          · exact (Scalar.string.inj h).symm

/-- A scalar that is a string is its text. -/
theorem eq_of_ofNode_eq_string {tag : Option Tag} {style : Style} {text s : String}
    (h : ofNode tag style text = .ok (.string s)) : s = text := by
  have hfree : (if style == .plain then ofPlain text else .string text) = .string s → s = text := by
    intro h
    split at h
    · exact eq_of_ofPlain_eq_string h
    · exact (Scalar.string.inj h).symm
  unfold ofNode at h
  dsimp only at h
  split at h
  · exact hfree (Except.ok.inj h)
  · exact hfree (Except.ok.inj h)
  · exact hfree (Except.ok.inj h)
  · exact (Scalar.string.inj (Except.ok.inj h)).symm
  · obtain ⟨b, -, h⟩ := Option.map_eq_some_iff.mp (eq_some_of_elim h)
    exact nomatch h
  · obtain ⟨n, h, -⟩ | ⟨n, h⟩ := integer?_cases (eq_some_of_elim h)
    · exact nomatch h
    · exact nomatch h
  · obtain ⟨x, -, h⟩ := Option.map_eq_some_iff.mp (eq_some_of_elim h)
    exact nomatch h
  · split at h
    · exact nomatch h
    · exact nomatch h

end Provision.Yaml.Scalar
