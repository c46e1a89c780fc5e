import RecordQuery.Proofs.Number.Shortest

/-!
# Exact values

A finite floating point number stands for a fraction, and an operation on such numbers rounds the
exact result once. So what is known of rounding is known of all operations: the error of a result
below `2 ^ n` is `2 ^ (n - 54)` at most, and a result with 53 bits is exact.

* `Binary64.value` — the fraction; `Binary64.IsFinite` says that there is one, in normal form.
* `Binary64.Rounds` — the relation between an exact result and the number that it is rounded to.
* `Binary64.Rounds.error`, `Binary64.Rounds.exact` — the two facts about rounding.
* `Binary64.rounds_ofRatio`, `Binary64.rounds_mul`, `Binary64.rounds_add`,
  `Binary64.exists_split` — the operations.
* `Binary64.Counts` — the numbers that stand for natural numbers, which are added without error.
-/

namespace RecordQuery.Binary64

/-! ### Values -/

/-- A fraction with a sign in front. -/
def withSign (negative : Bool) (q : ℚ) : ℚ := if negative then -q else q

@[simp] theorem withSign_zero (negative : Bool) : withSign negative 0 = 0 := by
  cases negative
  · rfl
  · exact neg_zero

@[simp] theorem abs_withSign (negative : Bool) (q : ℚ) : |withSign negative q| = |q| := by
  cases negative
  · rfl
  · exact abs_neg q

theorem withSign_sub (negative : Bool) (p q : ℚ) :
    withSign negative p - withSign negative q = withSign negative (p - q) := by
  cases negative
  · rfl
  · show -p - -q = -(p - q)
    ring

theorem withSign_mul (s t : Bool) (p q : ℚ) :
    withSign s p * withSign t q = withSign (xor s t) (p * q) := by
  cases s <;> cases t <;> simp [withSign]

/-- An integer has its own sign. -/
theorem withSign_natAbs (n : Int) : withSign (decide (n < 0)) (n.natAbs : Nat) = n := by
  rw [Nat.cast_natAbs, Int.cast_abs]
  by_cases hn : n < 0
  · have hn' : (n : ℚ) < 0 := by exact_mod_cast hn
    rw [decide_eq_true hn, abs_of_neg hn']
    exact neg_neg _
  · have hn' : (0 : ℚ) ≤ n := by exact_mod_cast not_lt.mp hn
    rw [decide_eq_false hn, abs_of_nonneg hn']
    rfl

/-- The exact value of a finite number. -/
def value : Binary64 → ℚ
  | .finite negative m e => withSign negative (m * 2 ^ e)
  | _ => 0

/-- The finite numbers in normal form. -/
def IsFinite : Binary64 → Prop
  | .finite _ m e => Canonical m e
  | _ => False

theorem IsFinite.exists_eq {x : Binary64} (h : x.IsFinite) :
    ∃ negative m e, x = finite negative m e ∧ Canonical m e := by
  cases x with
  | finite negative m e => exact ⟨negative, m, e, rfl, h⟩
  | infinite negative => exact h.elim
  | nan => exact h.elim

theorem isFinite_zero (negative : Bool) : (zero negative).IsFinite :=
  ⟨by decide, by decide, by decide, .inr rfl⟩

@[simp] theorem value_zero (negative : Bool) : (zero negative).value = 0 := by
  show withSign negative ((0 : Nat) * 2 ^ leastExponent) = 0
  rw [Nat.cast_zero, zero_mul, withSign_zero]

/-- The exact value is what the number is as a signed fraction. -/
theorem exists_ratio? {x : Binary64} (h : x.IsFinite) :
    ∃ a b, x.ratio? = some (a, b) ∧ 0 < b ∧ (a / b : ℚ) = x.value := by
  obtain ⟨negative, m, e, rfl, -⟩ := h.exists_eq
  obtain ⟨hden, hvalue⟩ := binaryRatio_spec m e
  refine ⟨_, _, rfl, hden, ?_⟩
  show ((if negative then -((binaryRatio m e).1 : Int) else (binaryRatio m e).1 : Int) : ℚ) /
    (binaryRatio m e).2 = withSign negative (m * 2 ^ e)
  rw [← hvalue]
  -- the sign stands before the numerator
  cases negative
  · rfl
  · show ((-((binaryRatio m e).1 : Int) : Int) : ℚ) / (binaryRatio m e).2 = _
    push_cast
    exact neg_div _ _

/-- An integer value is the value. -/
theorem value_of_toInt? {x : Binary64} (hx : x.IsFinite) {n : Int} (h : x.toInt? = some n) :
    x.value = n := by
  obtain ⟨a, b, hratio, hb, hvalue⟩ := exists_ratio? hx
  have hb' : (b : ℚ) ≠ 0 := by exact_mod_cast hb.ne'
  unfold toInt? at h
  rw [hratio] at h
  simp only at h
  split at h
  · next hexact =>
    obtain rfl := Option.some.inj h
    -- the denominator divides the numerator where the number is whole
    obtain ⟨k, hk⟩ := Int.dvd_of_emod_eq_zero hexact
    have hb'' : (b : Int) ≠ 0 := by exact_mod_cast hb.ne'
    rw [← hvalue, hk, Int.mul_ediv_cancel_left k hb'']
    push_cast
    exact mul_div_cancel_left₀ _ hb'
  · cases h

/-! ### Rounding -/

/-- A rounded quotient is off by one half at most. -/
theorem abs_roundDiv_sub_le {n d : Nat} (hd : 0 < d) :
    |(roundDiv n d : ℚ) - n / d| ≤ 1 / 2 := by
  have hd' : (0 : ℚ) < d := by exact_mod_cast hd
  have hdiv : (n : ℚ) = d * (n / d : Nat) + (n % d : Nat) := by
    exact_mod_cast (Nat.div_add_mod n d).symm
  have hquotient : (n / d : ℚ) = (n / d : Nat) + (n % d : Nat) / d := by
    rw [hdiv]
    field_simp
  have hrest : (0 : ℚ) ≤ (n % d : Nat) / d := by positivity
  have hrest' : ((n % d : Nat) : ℚ) / d < 1 := by
    rw [div_lt_one hd']
    exact_mod_cast Nat.mod_lt n hd
  -- the remainder is compared with one half of the divisor
  have hhalf : ((n % d : Nat) : ℚ) / d ≤ 1 / 2 ↔ 2 * (n % d) ≤ d := by
    rw [div_le_div_iff₀ hd' two_pos, one_mul, mul_comm]
    exact_mod_cast Iff.rfl
  have hhalf' : (1 / 2 : ℚ) ≤ ((n % d : Nat) : ℚ) / d ↔ d ≤ 2 * (n % d) := by
    rw [div_le_div_iff₀ two_pos hd', one_mul, mul_comm]
    exact_mod_cast Iff.rfl
  have hdown : 2 * (n % d) ≤ d → |((n / d : Nat) : ℚ) - n / d| ≤ 1 / 2 := by
    intro h
    rw [hquotient, abs_le]
    constructor <;> linarith [hhalf.mpr h]
  have hup : d ≤ 2 * (n % d) → |((n / d + 1 : Nat) : ℚ) - n / d| ≤ 1 / 2 := by
    intro h
    rw [hquotient, abs_le]
    push_cast
    constructor <;> linarith [hhalf'.mpr h]
  unfold roundDiv
  simp only
  split
  · next hlow => exact hdown hlow.le
  · next hlow =>
    split
    · next hhigh => exact hup hhigh.le
    · next hhigh =>
      -- at one half, both neighbours are as near
      split
      · exact hdown (Nat.le_of_not_lt hhigh)
      · exact hup (Nat.le_of_not_lt hlow)

/-- The exponent that fits a fraction leaves it 53 bits, if it is large enough for that. -/
theorem Fits.le {q : ℚ} {k n : Int} (h : Fits q k) (hq : q < 2 ^ n) (hn : leastExponent + 53 ≤ n) :
    k ≤ n - 53 := by
  by_contra hlarge
  have hlarge' : n - 53 < k := not_le.mp hlarge
  obtain hleast | hlower := h.lower
  · omega
  · have hpow : (0 : ℚ) < 2 ^ k := by positivity
    rw [le_div_iff₀ hpow] at hlower
    -- with so great an exponent, the mantissa would lack a bit
    have hchain : (2 : ℚ) ^ n ≤ 2 ^ 52 * 2 ^ k :=
      calc (2 : ℚ) ^ n ≤ 2 ^ (52 + k) := zpow_le_zpow_right₀ one_le_two (by omega)
        _ = 2 ^ 52 * 2 ^ k := by
            rw [zpow_add₀ two_ne_zero]
            norm_cast
    linarith

/-- The value of a rounded fraction: a carry into another bit does not change it. -/
theorem nearest_value {num den m : Nat} (hnum : 0 < num) (hden : 0 < den) {k : Int}
    (h : Fits (num / den) k) (hm : roundDiv (scaled num den k).1 (scaled num den k).2 = m)
    (hk : k ≤ greatestExponent) (hcarry : m = 2 ^ 53 → k < greatestExponent) (negative : Bool) :
    (nearest negative num den).IsFinite ∧
      (nearest negative num den).value = withSign negative (m * 2 ^ k) := by
  have hnearest := nearest_of_fits hnum hden h negative hm
  clear hm
  -- a significand that is rounded up to the limit moves into the next binade, with the same value
  by_cases hm : m = 2 ^ 53
  · have hrange : ¬ greatestExponent < k + 1 := by
      have := hcarry hm
      omega
    simp only [if_pos hm, if_neg hrange] at hnearest
    rw [hnearest]
    refine ⟨canonical_of_nearest hden hnearest, ?_⟩
    show withSign negative ((2 ^ 52 : Nat) * 2 ^ (k + 1)) = _
    rw [hm, zpow_add_one₀ two_ne_zero]
    congr 1
    push_cast
    ring
  · have hrange : ¬ greatestExponent < k := by omega
    simp only [if_neg hm, if_neg hrange] at hnearest
    rw [hnearest]
    exact ⟨canonical_of_nearest hden hnearest, rfl⟩

theorem nearest_zero (negative : Bool) (den : Nat) :
    (nearest negative 0 den).IsFinite ∧ (nearest negative 0 den).value = 0 := by
  have hzero : nearest negative 0 den = zero negative := rfl
  rw [hzero]
  exact ⟨isFinite_zero negative, value_zero negative⟩

/-- The number that an exact value is rounded to. -/
def Rounds (q : ℚ) (x : Binary64) : Prop :=
  ∃ negative num den, 0 < den ∧ withSign negative ((num : Nat) / (den : Nat)) = q ∧
    nearest negative num den = x

namespace Rounds

variable {q : ℚ} {x : Binary64}

theorem zero (negative : Bool) : Rounds 0 (zero negative) :=
  ⟨negative, 0, 1, Nat.one_pos, by simp, rfl⟩

/-- **The error of rounding.** A value below `2 ^ n` is rounded to one that is off by half a unit of
the last of 53 bits, at most. -/
theorem error (h : Rounds q x) {n : Int} (hq : |q| < 2 ^ n) (hn : leastExponent + 53 ≤ n)
    (hn' : n ≤ greatestExponent + 52) : x.IsFinite ∧ |x.value - q| ≤ 2 ^ (n - 54) := by
  obtain ⟨negative, num, den, hden, rfl, rfl⟩ := h
  rw [abs_withSign, abs_of_nonneg (by positivity)] at hq
  obtain rfl | hnum := Nat.eq_zero_or_pos num
  · obtain ⟨hfinite, hvalue⟩ := nearest_zero negative den
    refine ⟨hfinite, ?_⟩
    rw [hvalue, Nat.cast_zero, zero_div, withSign_zero, sub_zero, abs_zero]
    positivity
  · -- half a unit in the last place, and below the bound no unit is greater than this
    have hfits := fits_exponentFor hnum hden
    have hle := hfits.le hq hn
    obtain ⟨hfinite, hvalue⟩ :=
      nearest_value hnum hden hfits rfl (by omega) (fun _ => by omega) negative
    refine ⟨hfinite, ?_⟩
    generalize exponentFor num den = k at hle hvalue
    obtain ⟨hd, hscaled⟩ := scaled_spec num hden k
    have hpow : (0 : ℚ) < 2 ^ k := by positivity
    rw [hvalue, withSign_sub, abs_withSign]
    calc |(roundDiv (scaled num den k).1 (scaled num den k).2 : ℚ) * 2 ^ k - num / den|
        = |(roundDiv (scaled num den k).1 (scaled num den k).2 : ℚ) -
            (scaled num den k).1 / (scaled num den k).2| * 2 ^ k := by
          rw [hscaled, ← abs_of_pos hpow, ← abs_mul, abs_of_pos hpow, sub_mul,
            div_mul_cancel₀ _ hpow.ne']
      _ ≤ 1 / 2 * 2 ^ k := mul_le_mul_of_nonneg_right (abs_roundDiv_sub_le hd) hpow.le
      _ = 2 ^ (k - 1) := by
          rw [zpow_sub_one₀ two_ne_zero]
          ring
      _ ≤ 2 ^ (n - 54) := zpow_le_zpow_right₀ one_le_two (by omega)

/-- **Exact results.** A value of 53 bits is not changed. -/
theorem exact (h : Rounds q x) {m : Nat} {e : Int} (hq : |q| = m * 2 ^ e) (hm : m < 2 ^ 53)
    (he : leastExponent ≤ e) (he' : e ≤ greatestExponent) : x.IsFinite ∧ x.value = q := by
  obtain ⟨negative, num, den, hden, rfl, rfl⟩ := h
  rw [abs_withSign, abs_of_nonneg (by positivity)] at hq
  obtain rfl | hnum := Nat.eq_zero_or_pos num
  · obtain ⟨hfinite, hvalue⟩ := nearest_zero negative den
    refine ⟨hfinite, ?_⟩
    rw [hvalue, Nat.cast_zero, zero_div, withSign_zero]
  · have hfits := fits_exponentFor hnum hden
    have hbound : (num / den : ℚ) < 2 ^ (53 + e) := by
      have hm' : (m : ℚ) < 2 ^ 53 := by exact_mod_cast hm
      rw [hq, zpow_add₀ two_ne_zero]
      exact mul_lt_mul_of_pos_right (by exact_mod_cast hm') (by positivity)
    -- the exponent that fits is not greater, so the scaled fraction is an integer
    have hle := hfits.le hbound (by omega)
    generalize exponentFor num den = k at hfits hle
    obtain ⟨j, hj⟩ := Int.eq_ofNat_of_zero_le (show 0 ≤ e - k by omega)
    have hpow : (2 : ℚ) ^ k ≠ 0 := by positivity
    have hsplit : (m * 2 ^ e : ℚ) = (m * 2 ^ j : Nat) * 2 ^ k := by
      have hsum : e = j + k := by omega
      rw [hsum, zpow_add₀ two_ne_zero, zpow_natCast]
      push_cast
      ring
    have hround : roundDiv (scaled num den k).1 (scaled num den k).2 = m * 2 ^ j := by
      have hinteger : (num / den / 2 ^ k : ℚ) = (m * 2 ^ j : Nat) := by
        rw [hq, hsplit, mul_div_cancel_right₀ _ hpow]
      exact roundDiv_scaled_eq_of_close hden (by linarith) (by linarith)
    -- a further bit comes from the scale only
    have hcarry : m * 2 ^ j = 2 ^ 53 → k < greatestExponent := by
      intro hcarry
      have hj' : j ≠ 0 := by
        rintro rfl
        omega
      omega
    obtain ⟨hfinite, hvalue⟩ := nearest_value hnum hden hfits hround (by omega) hcarry negative
    exact ⟨hfinite, by rw [hvalue, hq, hsplit]⟩

/-- The value of a number is rounded to a number of this value. -/
theorem of_isFinite {y : Binary64} (h : Rounds y.value x) (hy : y.IsFinite) :
    x.IsFinite ∧ x.value = y.value := by
  obtain ⟨negative, m, e, rfl, hcanonical⟩ := hy.exists_eq
  have habs : |(finite negative m e).value| = m * 2 ^ e := by
    rw [value, abs_withSign, abs_of_nonneg (by positivity)]
  exact h.exact habs hcanonical.bits hcanonical.least hcanonical.greatest

end Rounds

/-! ### Operations -/

variable {x y : Binary64}

theorem rounds_ofRatio (num : Int) {den : Nat} (hden : 0 < den) :
    Rounds (num / den) (ofRatio num den) := by
  refine ⟨num < 0, num.natAbs, den, hden, ?_, rfl⟩
  rw [← withSign_natAbs num]
  cases decide (num < 0)
  · rfl
  · exact (neg_div _ _).symm

theorem rounds_mul (hx : x.IsFinite) (hy : y.IsFinite) : Rounds (x.value * y.value) (x.mul y) := by
  obtain ⟨s, m, e, rfl, -⟩ := hx.exists_eq
  obtain ⟨t, n, f, rfl, -⟩ := hy.exists_eq
  obtain ⟨hden, hscaled⟩ := scaled_spec (m * n) Nat.one_pos (-(e + f))
  refine ⟨xor s t, (scaled (m * n) 1 (-(e + f))).1, (scaled (m * n) 1 (-(e + f))).2, hden, ?_, rfl⟩
  rw [hscaled]
  show _ = withSign s (m * 2 ^ e) * withSign t (n * 2 ^ f)
  rw [withSign_mul, zpow_neg, zpow_add₀ two_ne_zero]
  congr 1
  push_cast
  field_simp

theorem rounds_add (hx : x.IsFinite) (hy : y.IsFinite) : Rounds (x.value + y.value) (x.add y) := by
  obtain ⟨a, b, hratio, hb, hvalue⟩ := exists_ratio? hx
  obtain ⟨c, d, hratio', hd, hvalue'⟩ := exists_ratio? hy
  have hb' : (b : ℚ) ≠ 0 := by exact_mod_cast hb.ne'
  have hd' : (d : ℚ) ≠ 0 := by exact_mod_cast hd.ne'
  -- both numbers are fractions, and so is their sum
  have hsum : x.value + y.value = ((a * d + c * b : Int) : ℚ) / (b * d : Nat) := by
    rw [← hvalue, ← hvalue']
    push_cast
    field_simp
  unfold add
  rw [hratio, hratio', hsum]
  simp only
  split
  · next hzero =>
    rw [hzero, Int.cast_zero, zero_div]
    exact .zero _
  · exact rounds_ofRatio _ (Nat.mul_pos hb hd)

/-- What splitting gives, for the number as a signed fraction. -/
theorem split_eq (negative : Bool) (m : Nat) (e : Int) {n b : Nat} (h : binaryRatio m e = (n, b)) :
    (finite negative m e).split =
      some (if negative then -((n / b : Nat) : Int) else (n / b : Nat),
        nearest negative (n % b) b) := by
  have hratio : (finite negative m e).ratio? = some (if negative then -(n : Int) else n, b) := by
    show some (if negative then -((binaryRatio m e).1 : Int) else (binaryRatio m e).1,
      (binaryRatio m e).2) = _
    rw [h]
  have hwhole : ((n : Int)).tdiv b = (n / b : Nat) := rfl
  have hrest : (n : Int) - (n / b : Nat) * b = (n % b : Nat) := by
    have hdiv : (n : Int) = b * (n / b : Nat) + (n % b : Nat) := by
      exact_mod_cast (Nat.div_add_mod n b).symm
    linarith
  unfold split
  rw [hratio]
  -- the whole part is cut towards zero, on either side of it
  cases negative with
  | false =>
    simp only [Bool.false_eq_true, if_false, hwhole, hrest]
    rfl
  | true =>
    have hrest' : -(n : Int) - -((n / b : Nat) : Int) * b = -((n % b : Nat) : Int) := by linarith
    simp only [if_true, Int.neg_tdiv, hwhole, hrest', Int.natAbs_neg]
    rfl

/-- **Splitting is exact.** A number is the sum of its integer part and of a fraction less than one,
which has no more bits than the number. -/
theorem exists_split (negative : Bool) {m : Nat} {e : Int} (h : Canonical m e) :
    ∃ whole y, ∃ r : Nat, (finite negative m e).split = some (whole, y) ∧ y.IsFinite ∧
      whole + y.value = (finite negative m e).value ∧ |y.value| = r * 2 ^ e ∧ |y.value| < 1 := by
  by_cases he : 0 ≤ e
  · -- an integer leaves no fraction
    have hratio : binaryRatio m e = (m * 2 ^ e.natAbs, 1) := by
      rw [binaryRatio, if_pos he, if_pos he]
    refine ⟨_, _, 0, split_eq negative m e hratio, ?_⟩
    have hzero : nearest negative (m * 2 ^ e.natAbs % 1) 1 = zero negative := by
      rw [Nat.mod_one]
      rfl
    rw [hzero, Nat.div_one, value_zero, abs_zero, Nat.cast_zero, zero_mul, add_zero]
    refine ⟨isFinite_zero negative, ?_, rfl, zero_lt_one⟩
    show _ = withSign negative (m * 2 ^ e)
    rw [zpow_of_nonneg 2 he]
    cases negative <;> simp [withSign]
  · have hneg : e < 0 := not_le.mp he
    have hratio : binaryRatio m e = (m, 2 ^ e.natAbs) := by
      rw [binaryRatio, if_neg he, if_neg he]
    generalize hb : 2 ^ e.natAbs = b at hratio
    have hpow : ((b : Nat) : ℚ)⁻¹ = 2 ^ e := by
      rw [← hb, zpow_of_neg 2 hneg]
      push_cast
      rfl
    have hpos : 0 < b := hb ▸ Nat.two_pow_pos _
    have hpos' : (0 : ℚ) < b := by exact_mod_cast hpos
    have habs : |withSign negative ((m % b : Nat) / b)| = (m % b : Nat) * 2 ^ e := by
      rw [abs_withSign, abs_of_nonneg (by positivity), div_eq_mul_inv, hpow]
    -- the fraction that is left has the bits of the number below the point
    obtain ⟨hfinite, hvalue⟩ :=
      Rounds.exact ⟨negative, m % b, b, hpos, rfl, rfl⟩ habs
        ((Nat.mod_le m b).trans_lt h.bits) h.least h.greatest
    refine ⟨_, _, m % b, split_eq negative m e hratio, hfinite, ?_, ?_, ?_⟩
    · rw [hvalue]
      show _ = withSign negative (m * 2 ^ e)
      have hdiv : (m : ℚ) = b * (m / b : Nat) + (m % b : Nat) := by
        exact_mod_cast (Nat.div_add_mod m b).symm
      have hsum : ((m / b : Nat) : ℚ) + (m % b : Nat) / b = m * 2 ^ e := by
        rw [← hpow, ← div_eq_mul_inv]
        conv_rhs => rw [hdiv]
        field_simp
      rw [← hsum]
      cases negative with
      | false => rfl
      | true =>
        show ((-((m / b : Nat) : Int) : Int) : ℚ) + -((m % b : Nat) / b : ℚ) = _
        rw [Int.cast_neg, Int.cast_natCast, ← neg_add]
        rfl
    · rw [hvalue, habs]
    · rw [hvalue, abs_withSign, abs_of_nonneg (by positivity), div_lt_one hpos']
      exact_mod_cast Nat.mod_lt m hpos

/-! ### Integers in digits -/

/-- The digits of an integer that is the value of a number are read as a number of this value. -/
theorem ofDecimal_of_value (hx : x.IsFinite) {n : Int} (h : x.value = n) :
    (ofDecimal (decide (n < 0)) n.natAbs 0).IsFinite ∧
      (ofDecimal (decide (n < 0)) n.natAbs 0).value = x.value := by
  obtain rfl | hn := eq_or_ne n 0
  · rw [h, Int.cast_zero]
    exact ⟨isFinite_zero false, value_zero false⟩
  · obtain ⟨negative, m, e, rfl, hcanonical⟩ := hx.exists_eq
    have habs : ((n.natAbs : Nat) : ℚ) = m * 2 ^ e := by
      rw [Nat.cast_natAbs, Int.cast_abs, ← h, value, abs_withSign, abs_of_nonneg (by positivity)]
    have hm : 0 < m := by
      refine Nat.pos_of_ne_zero ?_
      rintro rfl
      rw [Nat.cast_zero, zero_mul, Nat.cast_eq_zero, Int.natAbs_eq_zero] at habs
      exact hn habs
    have hpositive : (0 : ℚ) < m * 2 ^ e := by positivity
    have hdigits : ((n.natAbs : Nat) : ℚ) * 10 ^ (0 : Int) = m * 2 ^ e := by
      rw [zpow_zero, mul_one, habs]
    have hread : ofDecimal (decide (n < 0)) n.natAbs 0 = finite (decide (n < 0)) m e := by
      -- the digits state the value itself, so that it lies within any rounding interval
      refine ofDecimal_eq_of_close hcanonical hm ?_ ?_ _
      · rw [hdigits]
        linarith
      · rw [hdigits]
        linarith
    rw [hread]
    refine ⟨hcanonical, ?_⟩
    rw [h, value, ← habs, withSign_natAbs]

/-! ### Natural numbers -/

/-- The number is finite, and its value is a natural number. -/
structure Counts (x : Binary64) (n : Nat) : Prop where
  finite : x.IsFinite
  value_eq : x.value = n

/-- What is rounded to 53 bits is exact for natural numbers of 53 bits. -/
theorem Rounds.counts {n : Nat} (h : Rounds n x) (hn : n < 2 ^ 53) : x.Counts n := by
  obtain ⟨hfinite, hvalue⟩ :=
    h.exact (m := n) (e := 0) (by rw [zpow_zero, mul_one, Nat.abs_cast]) hn (by decide) (by decide)
  exact ⟨hfinite, hvalue⟩

theorem counts_zero : (zero false).Counts 0 :=
  ⟨isFinite_zero false, by rw [value_zero, Nat.cast_zero]⟩

theorem counts_ofInt {n : Nat} (hn : n < 2 ^ 53) : (ofInt n).Counts n := by
  have hround := rounds_ofRatio n Nat.one_pos
  rw [Int.cast_natCast, Nat.cast_one, div_one] at hround
  exact hround.counts hn

theorem counts_ofDecimal {n : Nat} (hn : n < 2 ^ 53) : (ofDecimal false n 0).Counts n := by
  obtain ⟨hfinite, hvalue⟩ := counts_ofInt hn
  obtain ⟨hfinite', hvalue'⟩ := ofDecimal_of_value hfinite (n := n) hvalue
  have hsign : decide ((n : Int) < 0) = false := decide_eq_false (by omega)
  rw [hsign, Int.natAbs_natCast] at hfinite' hvalue'
  exact ⟨hfinite', hvalue'.trans hvalue⟩

namespace Counts

variable {m n : Nat}

theorem add (hx : x.Counts m) (hy : y.Counts n) (h : m + n < 2 ^ 53) : (x.add y).Counts (m + n) := by
  have hround := rounds_add hx.finite hy.finite
  rw [hx.value_eq, hy.value_eq, ← Nat.cast_add] at hround
  exact hround.counts h

theorem mul_zero (hx : x.Counts m) (hy : y.Counts 0) : (x.mul y).Counts 0 := by
  have hround := rounds_mul hx.finite hy.finite
  rw [hx.value_eq, hy.value_eq, ← Nat.cast_mul, Nat.mul_zero] at hround
  exact hround.counts (by decide)

/-- Nothing is split off a natural number. -/
theorem exists_split (hx : x.Counts n) : ∃ y, x.split = some ((n : Int), y) ∧ y.Counts 0 := by
  obtain ⟨negative, m, e, rfl, hcanonical⟩ := hx.finite.exists_eq
  obtain ⟨whole, y, r, hsplit, hy, hsum, -, hless⟩ := Binary64.exists_split negative hcanonical
  rw [hx.value_eq] at hsum
  -- the fraction is an integer less than one
  have hfraction : y.value = ((n - whole : Int) : ℚ) := by
    push_cast
    linarith
  have hwhole : (n - whole : Int) = 0 := by
    rw [hfraction] at hless
    exact Int.abs_lt_one_iff.mp (by exact_mod_cast hless)
  rw [hwhole, Int.cast_zero] at hfraction
  obtain rfl : whole = n := by omega
  exact ⟨y, hsplit, hy, by rw [hfraction, Nat.cast_zero]⟩

end Counts
end RecordQuery.Binary64
