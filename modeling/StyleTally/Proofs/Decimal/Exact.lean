import Mathlib.Algebra.Order.Field.Power
import Mathlib.Data.Rat.Floor
import Mathlib.Tactic.FieldSimp
import Mathlib.Tactic.Linarith
import Mathlib.Tactic.NormNum
import Mathlib.Tactic.Positivity
import StyleTally.Decimal.Binary64

/-!
# Doubles without rounding

A quotient that is a number of 53 bits times a power of two in the range is kept as it is when it
becomes a double, unless it is too great: from `2^1024` on it is infinite. So doubles are multiplied
by powers of two exactly, up to that bound.
-/

namespace StyleTally.Binary64

variable {negative : Bool} {num den m : Nat} {e : Int}

/-- A number of 53 bits times a power of two in the range, or no finite number. -/
def IsDouble : Binary64 → Prop
  | finite _ m e => m < 2 ^ 53 ∧ minExponent ≤ e ∧ e ≤ maxExponent
  | _ => True

/-- The number that a finite double is. -/
def toRat? : Binary64 → Option ℚ
  | finite negative m e => some (if negative then -(m * 2 ^ e) else m * 2 ^ e)
  | _ => none

section Quotients

theorem natPow_cast (k : Nat) : ((Nat.pow 2 k : Nat) : ℚ) = 2 ^ (k : Int) := by
  rw [Nat.pow_eq, Nat.cast_pow, Nat.cast_ofNat, zpow_natCast]

theorem two_zpow_pos (e : Int) : (0 : ℚ) < 2 ^ e := by positivity

theorem two_zpow_le {a b : Int} (h : a ≤ b) : (2 : ℚ) ^ a ≤ 2 ^ b :=
  zpow_le_zpow_right₀ (by norm_num) h

theorem two_zpow_add (a b : Int) : (2 : ℚ) ^ (a + b) = 2 ^ a * 2 ^ b := zpow_add₀ (by norm_num) a b

theorem scaled_ne_zero (hden : den ≠ 0) (e : Int) : (scaled num den e).2 ≠ 0 := by
  rw [scaled]
  split
  · exact hden
  · exact Nat.mul_ne_zero hden (Nat.pow_pos (by decide)).ne'

theorem scaled_ratio (num den : Nat) (e : Int) :
    ((scaled num den e).1 : ℚ) / (scaled num den e).2 = num / den / 2 ^ e := by
  rw [scaled]
  split
  · rename_i hneg
    have habs : (e.natAbs : Int) = -e := by omega
    rw [Nat.cast_mul, natPow_cast, habs, zpow_neg]
    field_simp
  · rename_i hneg
    have habs : (e.natAbs : Int) = e := by omega
    rw [Nat.cast_mul, natPow_cast, habs, div_div]

theorem log2_le (hnum : num ≠ 0) : (2 : ℚ) ^ (num.log2 : Int) ≤ num := by
  rw [zpow_natCast]
  exact_mod_cast Nat.log2_self_le hnum

theorem lt_log2 (num : Nat) : (num : ℚ) < 2 ^ (num.log2 + 1 : Int) := by
  have hlt : num < 2 ^ (num.log2 + 1) := Nat.lt_log2_self
  have hcast : (num : ℚ) < 2 ^ (num.log2 + 1) := by exact_mod_cast hlt
  rwa [← zpow_natCast, Nat.cast_add, Nat.cast_one] at hcast

/-- The number of bits of a quotient is known but for one. -/
theorem ratio_bounds (hnum : num ≠ 0) (hden : den ≠ 0) :
    (2 : ℚ) ^ ((num.log2 : Int) - den.log2 - 1) < num / den ∧
      (num / den : ℚ) < 2 ^ ((num.log2 : Int) - den.log2 + 1) := by
  have hdenpos : (0 : ℚ) < den := by exact_mod_cast Nat.pos_of_ne_zero hden
  constructor
  · rw [lt_div_iff₀ hdenpos]
    calc (2 : ℚ) ^ ((num.log2 : Int) - den.log2 - 1) * den
        < 2 ^ ((num.log2 : Int) - den.log2 - 1) * 2 ^ (den.log2 + 1 : Int) :=
          mul_lt_mul_of_pos_left (lt_log2 den) (two_zpow_pos _)
      _ = 2 ^ (num.log2 : Int) := by
          rw [← two_zpow_add]
          congr 1
          omega
      _ ≤ num := log2_le hnum
  · rw [div_lt_iff₀ hdenpos]
    calc (num : ℚ) < 2 ^ (num.log2 + 1 : Int) := lt_log2 num
      _ = 2 ^ ((num.log2 : Int) - den.log2 + 1) * 2 ^ (den.log2 : Int) := by
          rw [← two_zpow_add]
          congr 1
          omega
      _ ≤ 2 ^ ((num.log2 : Int) - den.log2 + 1) * den :=
          mul_le_mul_of_nonneg_left (log2_le hden) (two_zpow_pos _).le

/-- With the exponent that is chosen, the significand has at most 53 bits, and no fewer where the
range allows it. -/
theorem exponentFor_bounds (hnum : num ≠ 0) (hden : den ≠ 0) :
    minExponent ≤ exponentFor num den ∧ (num / den : ℚ) < 2 ^ (exponentFor num den + 53) ∧
      (minExponent < exponentFor num den → (2 : ℚ) ^ (exponentFor num den + 52) ≤ num / den) := by
  obtain ⟨hlow, hhigh⟩ := ratio_bounds hnum hden
  generalize he : (num.log2 : Int) - den.log2 - 52 = e
  have htest : (scaled num den e).1 < Nat.pow 2 52 * (scaled num den e).2 ↔
      (num / den : ℚ) < 2 ^ (e + 52) := by
    have hpos : (0 : ℚ) < (scaled num den e).2 := by
      exact_mod_cast Nat.pos_of_ne_zero (scaled_ne_zero hden e)
    rw [show (2 : ℚ) ^ (e + 52) = (Nat.pow 2 52 : Nat) * 2 ^ e by
        rw [natPow_cast, ← two_zpow_add, add_comm, Nat.cast_ofNat],
      ← div_lt_iff₀ (two_zpow_pos e), ← scaled_ratio, div_lt_iff₀ hpos]
    exact_mod_cast Iff.rfl
  -- One of two exponents fits, and the least exponent stands in where it is below the range.
  have hfits : ∀ e', (num / den : ℚ) < 2 ^ (e' + 53) → (2 : ℚ) ^ (e' + 52) ≤ num / den →
      (num / den : ℚ) < 2 ^ (max minExponent e' + 53) ∧
        (minExponent < max minExponent e' → (2 : ℚ) ^ (max minExponent e' + 52) ≤ num / den) := by
    intro e' hless hleast
    refine ⟨hless.trans_le (two_zpow_le (by omega)), fun hmin => ?_⟩
    rwa [max_eq_right (by omega)]
  have hexponent : exponentFor num den =
      max minExponent (if (num / den : ℚ) < 2 ^ (e + 52) then e - 1 else e) := by
    simp only [exponentFor, he, htest]
  rw [hexponent]
  refine ⟨le_max_left _ _, ?_⟩
  split
  · rename_i hsmall
    refine hfits (e - 1) ?_ ?_
    · rwa [show e - 1 + 53 = e + 52 by omega]
    · rw [show e - 1 + 52 = (num.log2 : Int) - den.log2 - 1 by omega]
      exact hlow.le
  · rename_i hlarge
    refine hfits e ?_ (not_lt.mp hlarge)
    rwa [show e + 53 = (num.log2 : Int) - den.log2 + 1 by omega]

theorem roundHalfEven_mul (k : Nat) {d : Nat} (hd : d ≠ 0) : roundHalfEven (k * d) d = k := by
  have hpos : 0 < d := Nat.pos_of_ne_zero hd
  simp [roundHalfEven, Nat.mul_div_cancel k hpos, hpos]

/-- A number of 53 bits times a power of two needs no greater exponent. -/
theorem exponentFor_le (hnum : num ≠ 0) (hden : den ≠ 0) (hm : m < 2 ^ 53) (he : minExponent ≤ e)
    (hratio : (num / den : ℚ) = m * 2 ^ e) : exponentFor num den ≤ e := by
  obtain ⟨-, -, hleast⟩ := exponentFor_bounds hnum hden
  by_contra hgreater
  have hcast : (m : ℚ) < 2 ^ (53 : Int) := by exact_mod_cast hm
  have hbits : (num / den : ℚ) < 2 ^ (exponentFor num den + 52) :=
    calc (num / den : ℚ) = m * 2 ^ e := hratio
      _ < 2 ^ (53 : Int) * 2 ^ e := mul_lt_mul_of_pos_right hcast (two_zpow_pos e)
      _ = 2 ^ (53 + e) := (two_zpow_add 53 e).symm
      _ ≤ 2 ^ (exponentFor num den + 52) := two_zpow_le (by omega)
  exact absurd (hleast (by omega)) (not_le.mpr hbits)

/-- What is whole in units of an exponent is kept by rounding. -/
theorem roundHalfEven_scaled {k : Nat} {c : Int} (hden : den ≠ 0)
    (hk : (k * 2 ^ c : ℚ) = num / den) :
    roundHalfEven (scaled num den c).1 (scaled num den c).2 = k := by
  have hne : (scaled num den c).2 ≠ 0 := scaled_ne_zero hden c
  have hcast : ((scaled num den c).2 : ℚ) ≠ 0 := by exact_mod_cast hne
  have hscaled : (scaled num den c).1 = k * (scaled num den c).2 := by
    have hratio := scaled_ratio num den c
    rw [← hk, mul_div_cancel_right₀ _ (two_zpow_pos c).ne', div_eq_iff hcast] at hratio
    exact_mod_cast hratio
  rw [hscaled, roundHalfEven_mul k hne]

/-- A significand that is not rounded up to another power of two. -/
theorem ofRatio_eq {k : Nat} {c : Int} (negative : Bool) (hnum : num ≠ 0) (hden : den ≠ 0)
    (hc : exponentFor num den = c)
    (hround : roundHalfEven (scaled num den c).1 (scaled num den c).2 = k) (hbits : k < 2 ^ 53) :
    ofRatio negative num den =
      if maxExponent < c then infinite negative else finite negative k c := by
  have hnocarry : k ≠ Nat.pow 2 53 := hbits.ne
  simp only [ofRatio, hnum, hden, decide_false, Bool.or_false, Bool.false_eq_true, if_false, hc,
    hround, hnocarry]

/-- A quotient that a double can be becomes that double, unless it is beyond the range. -/
theorem ofRatio_exact (negative : Bool) (hnum : num ≠ 0) (hden : den ≠ 0) (hm : m < 2 ^ 53)
    (he : minExponent ≤ e) (hratio : (num / den : ℚ) = m * 2 ^ e) :
    (2 ^ 1024 ≤ (num / den : ℚ) ∧ ofRatio negative num den = infinite negative) ∨
      (num / den : ℚ) < 2 ^ 1024 ∧ (ofRatio negative num den).IsDouble ∧
        (ofRatio negative num den).toRat? =
          some (if negative then -(num / den : ℚ) else num / den) := by
  obtain ⟨hmin, hless, hleast⟩ := exponentFor_bounds hnum hden
  have hle := exponentFor_le hnum hden hm he hratio
  generalize hc : exponentFor num den = c at hmin hless hleast hle
  -- In units of the chosen exponent the quotient is whole.
  obtain ⟨k, hk⟩ : ∃ k : Nat, (k * 2 ^ c : ℚ) = num / den := by
    refine ⟨m * Nat.pow 2 (e - c).toNat, ?_⟩
    rw [hratio, Nat.cast_mul, natPow_cast, mul_assoc, ← two_zpow_add]
    congr 2
    omega
  have hbits : k < 2 ^ 53 := by
    rw [← hk, two_zpow_add, mul_comm, mul_lt_mul_iff_right₀ (two_zpow_pos c)] at hless
    exact_mod_cast hless
  rw [ofRatio_eq negative hnum hden hc (roundHalfEven_scaled hden hk) hbits]
  by_cases hmax : maxExponent < c
  · have hbound : (2 : ℚ) ^ (1024 : Int) ≤ 2 ^ (c + 52) := by
      refine two_zpow_le ?_
      simp only [maxExponent] at hmax
      omega
    have hmin : minExponent < c := lt_trans (by decide) hmax
    rw [if_pos hmax]
    exact .inl ⟨by exact_mod_cast hbound.trans (hleast hmin), rfl⟩
  · have hbound : (2 : ℚ) ^ (c + 53) ≤ 2 ^ (1024 : Int) := by
      refine two_zpow_le ?_
      simp only [maxExponent] at hmax
      omega
    rw [if_neg hmax, toRat?, hk]
    exact .inr ⟨by exact_mod_cast hless.trans_le hbound, ⟨hbits, hmin, not_lt.mp hmax⟩, rfl⟩

end Quotients

section Magnitudes

variable {x y : Binary64} {v w : ℚ}

theorem magnitude_ne_zero (negative : Bool) (m : Nat) (e : Int) :
    (finite negative m e).magnitude.2 ≠ 0 := by
  rw [magnitude]
  split
  · exact (Nat.pow_pos (by decide)).ne'
  · exact one_ne_zero

theorem magnitude_ratio (negative : Bool) (m : Nat) (e : Int) :
    ((finite negative m e).magnitude.1 : ℚ) / (finite negative m e).magnitude.2 = m * 2 ^ e := by
  rw [magnitude]
  split
  · rename_i hneg
    have habs : (e.natAbs : Int) = -e := by omega
    rw [natPow_cast, habs, zpow_neg, div_inv_eq_mul]
  · rename_i hneg
    have habs : (e.natAbs : Int) = e := by omega
    rw [Nat.cast_mul, natPow_cast, habs, Nat.cast_one, div_one]

theorem eq_finite_of_toRat?_pos (hv : x.toRat? = some v) (hpos : 0 < v) :
    ∃ (m : Nat) (e : Int), x = finite false m e ∧ 0 < m ∧ v = m * 2 ^ e := by
  cases x with
  | nan => cases hv
  | infinite negative => cases hv
  | finite negative m e =>
    have hnonneg : (0 : ℚ) ≤ m * 2 ^ e := by positivity
    cases negative with
    | false =>
      cases hv
      refine ⟨m, e, rfl, Nat.pos_of_ne_zero ?_, rfl⟩
      rintro rfl
      simp at hpos
    | true =>
      cases hv
      exact absurd hpos (not_lt.mpr (neg_nonpos.mpr hnonneg))

theorem lt_eq_true_iff (hv : x.toRat? = some v) (hw : y.toRat? = some w) :
    x.lt y = true ↔ v < w := by
  -- Both sides of the comparison are the numbers times one common denominator.
  have hcommon {a : Bool} {m : Nat} {e : Int} {r : ℚ} (d : Nat)
      (hr : (finite a m e).toRat? = some r) :
      ((if a then -((finite a m e).magnitude.1 * d : Nat)
        else ((finite a m e).magnitude.1 * d : Nat) : Int) : ℚ) =
        r * ((finite a m e).magnitude.2 * d) := by
    have hden : ((finite a m e).magnitude.2 : ℚ) ≠ 0 := by
      exact_mod_cast magnitude_ne_zero a m e
    have hratio := (div_eq_iff hden).mp (magnitude_ratio a m e)
    cases hr
    cases a <;> simp only [Bool.false_eq_true, if_true, if_false] <;> push_cast [hratio] <;> ring
  cases x with
  | nan => cases hv
  | infinite a => cases hv
  | finite a m e =>
    cases y with
    | nan => cases hw
    | infinite b => cases hw
    | finite b n f =>
      have hpos : (0 : ℚ) < (finite a m e).magnitude.2 * (finite b n f).magnitude.2 := by
        have hx := magnitude_ne_zero a m e
        have hy := magnitude_ne_zero b n f
        positivity
      rw [lt, decide_eq_true_iff, ← Int.cast_lt (R := ℚ), hcommon _ hv, hcommon _ hw,
        mul_comm ((finite b n f).magnitude.2 : ℚ), mul_lt_mul_iff_left₀ hpos]

/-- A positive double is multiplied by a power of two exactly, unless the product is beyond the
range. -/
theorem scale_exact {j : Nat} (hx : x.IsDouble) (hv : x.toRat? = some v) (hpos : 0 < v) :
    (2 ^ 1024 ≤ v * 2 ^ j ∧ x.scale (2 ^ j) 1 = infinite false) ∨
      v * 2 ^ j < 2 ^ 1024 ∧ (x.scale (2 ^ j) 1).IsDouble ∧
        (x.scale (2 ^ j) 1).toRat? = some (v * 2 ^ j) := by
  obtain ⟨m, e, rfl, hm, rfl⟩ := eq_finite_of_toRat?_pos hv hpos
  obtain ⟨hbits, hmin, -⟩ := hx
  have hden := magnitude_ne_zero false m e
  have hratio := magnitude_ratio false m e
  generalize hq : (finite false m e).magnitude = q at hden hratio
  obtain ⟨num, den⟩ := q
  have hscale : (finite false m e).scale (2 ^ j) 1 = ofRatio false (num * 2 ^ j) (den * 1) := by
    simp only [scale, hq]
  have hnum : num ≠ 0 := by
    rintro rfl
    rw [Nat.cast_zero, zero_div] at hratio
    exact hpos.ne hratio
  have hproduct : ((num * 2 ^ j : Nat) / (den * 1 : Nat) : ℚ) = m * 2 ^ e * 2 ^ j := by
    rw [mul_one, Nat.cast_mul, mul_div_right_comm, hratio, Nat.cast_pow, Nat.cast_ofNat]
  have hexact : ((num * 2 ^ j : Nat) / (den * 1 : Nat) : ℚ) = m * 2 ^ (e + j) := by
    rw [hproduct, two_zpow_add, zpow_natCast, mul_assoc]
  rw [hscale, ← hproduct]
  exact ofRatio_exact false (Nat.mul_ne_zero hnum (by positivity)) (by simpa using hden) hbits
    (by omega) hexact

theorem truncate?_eq_floor (hv : x.toRat? = some v) (hpos : 0 < v) : x.truncate? = some ⌊v⌋ := by
  obtain ⟨m, e, rfl, -, rfl⟩ := eq_finite_of_toRat?_pos hv hpos
  rw [truncate?, ← magnitude_ratio false m e, Rat.floor_natCast_div_natCast]
  rfl

end Magnitudes

end StyleTally.Binary64
