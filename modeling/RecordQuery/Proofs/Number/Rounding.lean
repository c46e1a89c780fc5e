import Mathlib.Algebra.Order.Field.Power
import Mathlib.Data.Rat.Cast.Order
import Mathlib.Tactic.FieldSimp
import Mathlib.Tactic.Linarith
import Mathlib.Tactic.NormNum
import Mathlib.Tactic.Positivity
import Mathlib.Tactic.Ring
import RecordQuery.Number.Binary64

/-!
# Rounding

`Binary64.nearest` rounds a fraction of natural numbers. What it gives depends on the value of the
fraction only, is in the normal form of floating point numbers, and is the number itself for every
fraction that is close enough to one.

* `Binary64.Canonical` — the normal form: a mantissa of 53 bits, or the least exponent.
* `Binary64.Fits.unique` — the exponent of a fraction is fixed by two inequalities.
* `Binary64.nearest_congr` — fractions of one value are rounded alike.
* `Binary64.nearest_eq_of_close` — a relative error below `2 ^ (-54)` is rounded away.

Everything is computed on the scaled fraction `q / 2 ^ e`, whose integer part is the mantissa.
-/

namespace RecordQuery.Binary64

/-- The mantissas and exponents of the finite numbers in normal form. -/
structure Canonical (m : Nat) (e : Int) : Prop where
  least : leastExponent ≤ e
  greatest : e ≤ greatestExponent
  bits : m < 2 ^ 53
  normal : 2 ^ 52 ≤ m ∨ e = leastExponent

/-! ### Division with rounding -/

theorem roundDiv_mul {a : Nat} (ha : 0 < a) (n d : Nat) :
    roundDiv (a * n) (a * d) = roundDiv n d := by
  have hmul : ∀ x y : Nat, a * x < a * y ↔ x < y := fun x y => Nat.mul_lt_mul_left ha
  unfold roundDiv
  simp only [Nat.mul_div_mul_left n d ha, Nat.mul_mod_mul_left, Nat.mul_left_comm 2 a, hmul]

/-- A quotient less than one half away from an integer is rounded to it. -/
theorem roundDiv_eq_of_close {n d m : Nat} (lower : 2 * m * d < 2 * n + d)
    (upper : 2 * n < (2 * m + 1) * d) : roundDiv n d = m := by
  have hdiv : d * (n / d) + n % d = n := Nat.div_add_mod n d
  have hmod : n % d < d ∨ d = 0 := (Nat.eq_zero_or_pos d).symm.imp_left (Nat.mod_lt n)
  unfold roundDiv
  -- quotient and remainder are all that is used of the division, so the rest is linear
  generalize n / d = q at hdiv ⊢
  generalize n % d = r at hdiv hmod ⊢
  subst hdiv
  have cancel : ∀ {x y : Nat}, x * d < y * d → x < y := fun h => Nat.lt_of_mul_lt_mul_right h
  have hr : r < d := by
    obtain hr | rfl := hmod
    · -- a zero divisor would contradict the upper bound
      exact hr
    · simp at upper
  simp only
  split
  · -- rounded down: the remainder is below one half
    next hlow =>
    have hle : 2 * m < 2 * q + 2 := cancel (by linarith)
    have hge : 2 * q < 2 * m + 1 := cancel (by linarith)
    omega
  · split
    · -- rounded up: the remainder is above one half
      next hhigh =>
      have hle : 2 * m < 2 * q + 3 := cancel (by linarith)
      have hge : 2 * q + 1 < 2 * m + 1 := cancel (by linarith)
      omega
    · -- a half would be as far from both neighbours
      have hle : 2 * m < 2 * q + 2 := cancel (by linarith)
      have hge : 2 * q + 1 < 2 * m + 1 := cancel (by linarith)
      omega

theorem roundDiv_eq_of_value {n d m : Nat} (hd : 0 < d) (lower : (m : ℚ) - 1 / 2 < n / d)
    (upper : (n / d : ℚ) < m + 1 / 2) : roundDiv n d = m := by
  have hd' : (0 : ℚ) < d := by exact_mod_cast hd
  rw [lt_div_iff₀ hd'] at lower
  rw [div_lt_iff₀ hd'] at upper
  refine roundDiv_eq_of_close ?_ ?_
  · have h : (2 * m * d : ℚ) < 2 * n + d := by linarith
    exact_mod_cast h
  · have h : (2 * n : ℚ) < (2 * m + 1) * d := by linarith
    exact_mod_cast h

/-- A rounded quotient lies between integer bounds of the quotient. -/
theorem roundDiv_le {n d k : Nat} (h : n ≤ k * d) : roundDiv n d ≤ k := by
  have hq : n / d ≤ k := Nat.div_le_of_le_mul (Nat.mul_comm k d ▸ h)
  have hdiv : d * (n / d) + n % d = n := Nat.div_add_mod n d
  unfold roundDiv
  simp only
  -- rounding adds one at most, which only matters where the quotient is `k` itself
  obtain hlt | heq : n / d < k ∨ n / d = k := Nat.lt_or_eq_of_le hq
  · split_ifs <;> omega
  · -- the quotient is exact, and so there is nothing to round
    have hexact : d * (n / d) = k * d := by rw [heq, Nat.mul_comm]
    have hr : n % d = 0 := by omega
    obtain rfl | hd := Nat.eq_zero_or_pos d
    · obtain rfl : n = 0 := by omega
      simp
    · split_ifs <;> omega

theorem le_roundDiv {n d k : Nat} (hd : 0 < d) (h : k * d ≤ n) : k ≤ roundDiv n d := by
  have hq : k ≤ n / d := (Nat.le_div_iff_mul_le hd).mpr h
  unfold roundDiv
  simp only
  split_ifs <;> omega

/-! ### Scaling -/

theorem zpow_of_nonneg (a : ℚ) {e : Int} (he : 0 ≤ e) : a ^ e = a ^ e.natAbs := by
  rw [← zpow_natCast, Int.natAbs_of_nonneg he]

theorem zpow_of_neg (a : ℚ) {e : Int} (he : e < 0) : a ^ e = (a ^ e.natAbs)⁻¹ := by
  rw [← zpow_natCast, ← zpow_neg, Int.ofNat_natAbs_of_nonpos he.le, neg_neg]

/-- The fraction that is divided, by its value. -/
theorem scaled_spec (num : Nat) {den : Nat} (hden : 0 < den) (e : Int) :
    0 < (scaled num den e).2 ∧
      ((scaled num den e).1 : ℚ) / (scaled num den e).2 = num / den / 2 ^ e := by
  have hden' : (den : ℚ) ≠ 0 := by exact_mod_cast hden.ne'
  unfold scaled
  split
  · next he =>
    refine ⟨hden, ?_⟩
    rw [zpow_of_neg 2 he]
    push_cast [Nat.pow_eq]
    field_simp
  · next he =>
    refine ⟨Nat.mul_pos hden (Nat.two_pow_pos _), ?_⟩
    rw [zpow_of_nonneg 2 (not_lt.mp he)]
    push_cast [Nat.pow_eq]
    field_simp

/-- The mantissa for an exponent is the integer that the scaled fraction is close to. -/
theorem roundDiv_scaled_eq_of_close {num den m : Nat} (hden : 0 < den) {e : Int}
    (lower : (m : ℚ) - 1 / 2 < num / den / 2 ^ e) (upper : (num / den / 2 ^ e : ℚ) < m + 1 / 2) :
    roundDiv (scaled num den e).1 (scaled num den e).2 = m := by
  obtain ⟨hd, hvalue⟩ := scaled_spec num hden e
  rw [← hvalue] at lower upper
  exact roundDiv_eq_of_value hd lower upper

theorem scaled_mul (a num den : Nat) (e : Int) :
    scaled (a * num) (a * den) e = (a * (scaled num den e).1, a * (scaled num den e).2) := by
  unfold scaled
  split
  · rw [Nat.mul_assoc]
  · rw [Nat.mul_assoc]

/-! ### Exponents -/

/-- The integer part of a scaled fraction has at most 53 bits, and less only at the least
exponent. -/
structure Fits (q : ℚ) (e : Int) : Prop where
  least : leastExponent ≤ e
  upper : q / 2 ^ e < 2 ^ 53
  lower : e = leastExponent ∨ 2 ^ 52 ≤ q / 2 ^ e

theorem div_zpow_add_one (q : ℚ) (e : Int) : q / 2 ^ (e + 1) = q / 2 ^ e / 2 := by
  rw [zpow_add_one₀ two_ne_zero]
  field_simp

theorem div_zpow_le {q : ℚ} (hq : 0 < q) {e f : Int} (h : e ≤ f) : q / 2 ^ f ≤ q / 2 ^ e := by
  have hpow : (2 : ℚ) ^ e ≤ 2 ^ f := zpow_le_zpow_right₀ one_le_two h
  exact div_le_div_of_nonneg_left hq.le (by positivity) hpow

/-- At most one exponent fits a fraction: with a greater one the mantissa would lack a bit. -/
theorem Fits.unique {q : ℚ} (hq : 0 < q) {e f : Int} (he : Fits q e) (hf : Fits q f) : e = f := by
  have hlt : ∀ {e f : Int}, Fits q e → Fits q f → ¬ e < f := by
    intro e f he hf hef
    -- the greater exponent halves the fraction at least once, to less than 52 bits
    have hstep : q / 2 ^ f ≤ q / 2 ^ e / 2 := div_zpow_add_one q e ▸ div_zpow_le hq hef
    have hupper := he.upper
    obtain hleast | hlower := hf.lower
    · have := he.least
      omega
    · linarith
  exact le_antisymm (not_lt.mp (hlt hf he)) (not_lt.mp (hlt he hf))

/-- A fraction lies within a factor of two of the quotient of the leading bits of its terms. -/
theorem log2_bounds {num den : Nat} (hnum : 0 < num) (hden : 0 < den) :
    (2 : ℚ) ^ ((num.log2 : Int) - den.log2 - 1) < num / den ∧
      (num / den : ℚ) < 2 ^ ((num.log2 : Int) - den.log2 + 1) := by
  have hn : (2 : ℚ) ^ num.log2 ≤ num := by exact_mod_cast Nat.log2_self_le hnum.ne'
  have hn' : (num : ℚ) < 2 ^ (num.log2 + 1) := by exact_mod_cast Nat.lt_log2_self
  have hd : (2 : ℚ) ^ den.log2 ≤ den := by exact_mod_cast Nat.log2_self_le hden.ne'
  have hd' : (den : ℚ) < 2 ^ (den.log2 + 1) := by exact_mod_cast Nat.lt_log2_self
  have hden' : (0 : ℚ) < den := by exact_mod_cast hden
  -- each of the two numbers lies between a power and the next one
  constructor
  · rw [lt_div_iff₀ hden']
    calc (2 : ℚ) ^ ((num.log2 : Int) - den.log2 - 1) * den
        < 2 ^ ((num.log2 : Int) - den.log2 - 1) * 2 ^ (den.log2 + 1) := by gcongr
      _ = 2 ^ num.log2 := by
          rw [← zpow_natCast, ← zpow_natCast, ← zpow_add₀ two_ne_zero]
          congr 1
          push_cast
          ring
      _ ≤ num := hn
  · rw [div_lt_iff₀ hden']
    calc (num : ℚ) < 2 ^ (num.log2 + 1) := hn'
      _ = 2 ^ ((num.log2 : Int) - den.log2 + 1) * 2 ^ den.log2 := by
          rw [← zpow_natCast, ← zpow_natCast, ← zpow_add₀ two_ne_zero]
          congr 1
          push_cast
          ring
      _ ≤ 2 ^ ((num.log2 : Int) - den.log2 + 1) * den := by gcongr

/-- The exponent that is computed from the leading bits fits. The guess is at most one too small,
and it is only taken where the mantissa has at most 53 bits. -/
theorem fits_exponentFor {num den : Nat} (hnum : 0 < num) (hden : 0 < den) :
    Fits (num / den) (exponentFor num den) := by
  obtain ⟨hlow, hhigh⟩ := log2_bounds hnum hden
  obtain ⟨hd, hscaled⟩ :=
    scaled_spec num hden (max ((num.log2 : Int) - den.log2 - 53) leastExponent)
  have hq : (0 : ℚ) < num / den := by positivity
  unfold exponentFor
  generalize hguess : max ((num.log2 : Int) - den.log2 - 53) leastExponent = guess at hd hscaled ⊢
  have hleast : leastExponent ≤ guess := hguess ▸ le_max_right _ _
  have hge : (num.log2 : Int) - den.log2 - 53 ≤ guess := hguess ▸ le_max_left _ _
  -- with the guess, the mantissa has at most one bit too many
  have hupper : (num / den : ℚ) / 2 ^ guess < 2 ^ 54 := by
    rw [div_lt_iff₀ (by positivity)]
    calc (num / den : ℚ) < 2 ^ ((num.log2 : Int) - den.log2 + 1) := hhigh
      _ ≤ 2 ^ (54 + guess) := zpow_le_zpow_right₀ one_le_two (by omega)
      _ = 2 ^ 54 * 2 ^ guess := by
          rw [zpow_add₀ two_ne_zero]
          norm_cast
  have hlower : guess = leastExponent ∨ (2 : ℚ) ^ 52 ≤ num / den / 2 ^ guess := by
    obtain h | h : guess = leastExponent ∨ guess = (num.log2 : Int) - den.log2 - 53 := by omega
    · exact .inl h
    · refine .inr ?_
      rw [le_div_iff₀ (by positivity)]
      calc (2 : ℚ) ^ 52 * 2 ^ guess = 2 ^ (52 + guess) := by
            rw [zpow_add₀ two_ne_zero]
            norm_cast
        _ = 2 ^ ((num.log2 : Int) - den.log2 - 1) := by rw [h]; congr 1; ring
        _ ≤ num / den := hlow.le
  -- the test on the integer part of the scaled fraction is one on the fraction itself
  rcases hnd : scaled num den guess with ⟨n, d⟩
  simp only [hnd, Nat.pow_eq] at hd hscaled ⊢
  have hd' : (0 : ℚ) < d := by exact_mod_cast hd
  split
  · next hsmall =>
    refine ⟨hleast, ?_, hlower⟩
    rw [← hscaled, div_lt_iff₀ hd']
    have hlt : n < 2 ^ 53 * d := (Nat.div_lt_iff_lt_mul hd).mp hsmall
    exact_mod_cast hlt
  · next hlarge =>
    have hle : (2 : ℚ) ^ 53 ≤ num / den / 2 ^ guess := by
      rw [← hscaled, le_div_iff₀ hd']
      have hle : 2 ^ 53 * d ≤ n := (Nat.le_div_iff_mul_le hd).mp (Nat.le_of_not_lt hlarge)
      exact_mod_cast hle
    refine ⟨by omega, ?_, .inr ?_⟩
    · rw [div_zpow_add_one]
      linarith
    · rw [div_zpow_add_one]
      linarith

/-! ### Rounding to floating point -/

theorem exponentFor_eq {num den : Nat} (hnum : 0 < num) (hden : 0 < den) {e : Int}
    (h : Fits (num / den) e) : exponentFor num den = e :=
  (fits_exponentFor hnum hden).unique (by positivity) h

theorem exponentFor_mul {a num den : Nat} (ha : 0 < a) (hnum : 0 < num) (hden : 0 < den) :
    exponentFor (a * num) (a * den) = exponentFor num den := by
  refine exponentFor_eq (Nat.mul_pos ha hnum) (Nat.mul_pos ha hden) ?_
  have hvalue : ((a * num : Nat) : ℚ) / (a * den : Nat) = num / den := by
    have ha' : (a : ℚ) ≠ 0 := by exact_mod_cast ha.ne'
    push_cast
    rw [mul_div_mul_left _ _ ha']
  rw [hvalue]
  exact fits_exponentFor hnum hden

theorem nearest_mul {a num den : Nat} (ha : 0 < a) (hden : 0 < den) (negative : Bool) :
    nearest negative (a * num) (a * den) = nearest negative num den := by
  obtain rfl | hnum := Nat.eq_zero_or_pos num
  · rfl
  · have hne : a * num ≠ 0 := (Nat.mul_pos ha hnum).ne'
    unfold nearest
    rw [if_neg hne, if_neg hnum.ne', exponentFor_mul ha hnum hden]
    simp only [scaled_mul, roundDiv_mul ha]

/-- **Rounding is a function of the value.** Fractions of one value are rounded alike. -/
theorem nearest_congr {num den num' den' : Nat} (hden : 0 < den) (hden' : 0 < den')
    (h : (num : ℚ) / den = num' / den') (negative : Bool) :
    nearest negative num den = nearest negative num' den' := by
  have hcross : den' * num = den * num' := by
    have hd : (den : ℚ) ≠ 0 := by exact_mod_cast hden.ne'
    have hd' : (den' : ℚ) ≠ 0 := by exact_mod_cast hden'.ne'
    rw [div_eq_div_iff hd hd'] at h
    have hnat : num * den' = num' * den := by exact_mod_cast h
    linarith
  -- both fractions are brought to the product of the denominators
  rw [← nearest_mul hden' hden, hcross, Nat.mul_comm den' den, nearest_mul hden hden']

/-- What rounding gives for a fraction, by the exponent that fits it. -/
theorem nearest_of_fits {num den : Nat} (hnum : 0 < num) (hden : 0 < den) {e : Int}
    (h : Fits (num / den) e) (negative : Bool) {m : Nat}
    (hm : roundDiv (scaled num den e).1 (scaled num den e).2 = m) :
    nearest negative num den =
      if greatestExponent < (if m = 2 ^ 53 then e + 1 else e) then .infinite negative
      else .finite negative (if m = 2 ^ 53 then 2 ^ 52 else m) (if m = 2 ^ 53 then e + 1 else e) := by
  unfold nearest
  rw [if_neg hnum.ne', exponentFor_eq hnum hden h]
  simp only [hm, Nat.pow_eq]
  split <;> rfl

/-- The sign has no part in rounding. -/
theorem nearest_sign {negative sign : Bool} {num den m : Nat} {e : Int} (hden : 0 < den)
    (h : nearest negative num den = .finite sign m e) (other : Bool) :
    nearest other num den = .finite other m e := by
  obtain rfl | hnum := Nat.eq_zero_or_pos num
  · cases h
    rfl
  · -- the magnitude is chosen before the sign is put on
    have hfits := fits_exponentFor hnum hden
    rw [nearest_of_fits hnum hden hfits _ rfl] at h ⊢
    generalize roundDiv _ _ = k at h ⊢
    generalize (if k = 2 ^ 53 then exponentFor num den + 1 else exponentFor num den) = f at h ⊢
    split at h
    · cases h
    · next hrange =>
      cases h
      rw [if_neg hrange]

/-- The mantissa before it is put into normal form has at most 53 bits, or is the least number of
one bit more. -/
theorem roundDiv_bounds {num den : Nat} (hden : 0 < den) {e : Int} (h : Fits (num / den) e) :
    roundDiv (scaled num den e).1 (scaled num den e).2 ≤ 2 ^ 53 ∧
      (e = leastExponent ∨ 2 ^ 52 ≤ roundDiv (scaled num den e).1 (scaled num den e).2) := by
  obtain ⟨hd, hvalue⟩ := scaled_spec num hden e
  have hd' : (0 : ℚ) < (scaled num den e).2 := by exact_mod_cast hd
  constructor
  · refine roundDiv_le ?_
    have hupper := h.upper
    -- the bounds of the fraction are whole numbers, which rounding keeps
    rw [← hvalue, div_lt_iff₀ hd'] at hupper
    exact_mod_cast hupper.le
  · refine h.lower.imp_right fun hlower => le_roundDiv hd ?_
    rw [← hvalue, le_div_iff₀ hd'] at hlower
    exact_mod_cast hlower

/-- Rounding ends in the normal form. -/
theorem canonical_of_nearest {negative sign : Bool} {num den m : Nat} {e : Int} (hden : 0 < den)
    (h : nearest negative num den = .finite sign m e) : Canonical m e := by
  obtain rfl | hnum := Nat.eq_zero_or_pos num
  · cases h
    exact ⟨by decide, by decide, by decide, .inr rfl⟩
  · have hfits := fits_exponentFor hnum hden
    obtain ⟨hle, hge⟩ := roundDiv_bounds hden hfits
    have hleast := hfits.least
    rw [nearest_of_fits hnum hden hfits negative rfl] at h
    generalize roundDiv _ _ = k at h hle hge
    -- a mantissa that is rounded up to a further bit is halved with the next exponent
    by_cases hk : k = 2 ^ 53
    · simp only [hk, if_true] at h
      split at h
      · cases h
      · obtain ⟨-, rfl, rfl⟩ := Binary64.finite.inj h
        exact ⟨by omega, by omega, by decide, .inl (Nat.le_refl _)⟩
    · simp only [hk, if_false] at h
      split at h
      · cases h
      · obtain ⟨-, rfl, rfl⟩ := Binary64.finite.inj h
        exact ⟨hleast, by omega, by omega, hge.symm⟩

/-- **Small errors are rounded away.** A fraction whose distance from a positive number in normal
form is less than `2 ^ (-54)` of the number is rounded to it. -/
theorem nearest_eq_of_close {num den m : Nat} {e : Int} (hnum : 0 < num) (hden : 0 < den)
    (h : Canonical m e) (hm : 0 < m) (lower : (m : ℚ) * 2 ^ e * (1 - 1 / 2 ^ 54) < num / den)
    (upper : (num / den : ℚ) < m * 2 ^ e * (1 + 1 / 2 ^ 54)) (negative : Bool) :
    nearest negative num den = .finite negative m e := by
  have hpow : (0 : ℚ) < 2 ^ e := by positivity
  have hgreatest := h.greatest
  have hbits : (m : ℚ) ≤ 2 ^ 53 - 1 := by
    have hle : m + 1 ≤ 2 ^ 53 := h.bits
    have hle' : (m : ℚ) + 1 ≤ 2 ^ 53 := by exact_mod_cast hle
    linarith
  have hm' : (1 : ℚ) ≤ m := by exact_mod_cast hm
  -- the bounds for the scaled fraction
  have hlower : (m : ℚ) * (1 - 1 / 2 ^ 54) < num / den / 2 ^ e := by
    rw [lt_div_iff₀ hpow]
    linarith
  have hupper : (num / den : ℚ) / 2 ^ e < m * (1 + 1 / 2 ^ 54) := by
    rw [div_lt_iff₀ hpow]
    linarith
  by_cases hnormal : e = leastExponent ∨ (2 : ℚ) ^ 52 ≤ num / den / 2 ^ e
  · -- the exponent of the number fits, and its mantissa is the nearest integer
    have hfits : Fits (num / den) e := ⟨h.least, by linarith, hnormal⟩
    have hround : roundDiv (scaled num den e).1 (scaled num den e).2 = m :=
      roundDiv_scaled_eq_of_close hden (by linarith) (by linarith)
    have hne : m ≠ 2 ^ 53 := h.bits.ne
    rw [nearest_of_fits hnum hden hfits negative hround]
    simp only [hne, if_false, not_lt.mpr hgreatest]
  · -- the fraction lies below a power of two, and is rounded up to it with one bit more
    obtain ⟨hleast, hsmall⟩ := not_or.mp hnormal
    have hm52 : m = 2 ^ 52 := by
      have hge : 2 ^ 52 ≤ m := h.normal.resolve_right hleast
      have hlt : (m : ℚ) < 2 ^ 52 + 1 := by linarith [not_le.mp hsmall]
      have hlt' : m < 2 ^ 52 + 1 := by exact_mod_cast hlt
      omega
    have hstep : (num / den : ℚ) / 2 ^ (e - 1) = 2 * (num / den / 2 ^ e) := by
      have hadd := div_zpow_add_one (num / den) (e - 1)
      rw [sub_add_cancel] at hadd
      linarith
    have hm52' : (m : ℚ) = 2 ^ 52 := by exact_mod_cast hm52
    rw [hm52'] at hlower
    -- so the exponent one less fits: the doubled fraction lies between the same powers
    have hfits : Fits (num / den) (e - 1) := by
      refine ⟨?_, ?_, .inr ?_⟩
      · have := h.least
        omega
      · rw [hstep]
        linarith [not_le.mp hsmall]
      · rw [hstep]
        linarith
    -- with it the mantissa is rounded up to a further bit, and halving it gives the number back
    have hround : roundDiv (scaled num den (e - 1)).1 (scaled num den (e - 1)).2 = 2 ^ 53 := by
      refine roundDiv_scaled_eq_of_close hden ?_ ?_
      · rw [hstep]
        push_cast
        linarith
      · rw [hstep]
        push_cast
        linarith [not_le.mp hsmall]
    rw [nearest_of_fits hnum hden hfits negative hround]
    simp only [if_true, sub_add_cancel, not_lt.mpr hgreatest, if_false, hm52]

end RecordQuery.Binary64
