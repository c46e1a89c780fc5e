import Mathlib.Data.Nat.Cast.Order.Field
import RecordQuery.Number.Binary64.Text
import RecordQuery.Proofs.Number.Digits
import RecordQuery.Proofs.Number.Rounding

/-!
# Shortest decimals

`Binary64.shortest` searches grids of more and more digits for a decimal that is read as the number
at hand. The search always succeeds: with seventeen digits the points of the grid lie so close that
the one next to the number is rounded to it.

* `Binary64.ofDecimal_eq_of_close` — a decimal close to a number is read as the number.
* `Binary64.ofDecimal_mul_pow` — zeros at the end of a coefficient have no influence.
* `Binary64.shortest_spec` — the decimal that the search finds is read as the number.
-/

namespace RecordQuery.Binary64

/-! ### Counting digits -/

theorem digitCount_pos (n : Nat) : 0 < digitCount n := Nat.length_toDigits_pos

theorem digitCount_le_iff {n k : Nat} (hk : 0 < k) : digitCount n ≤ k ↔ n < 10 ^ k :=
  Nat.length_toDigits_le_iff (by decide) hk

theorem lt_pow_digitCount (n : Nat) : n < 10 ^ digitCount n :=
  (digitCount_le_iff (digitCount_pos n)).mp (Nat.le_refl _)

theorem pow_digitCount_le {n : Nat} (hn : 0 < n) : 10 ^ (digitCount n - 1) ≤ n := by
  by_contra hlt
  have hpos := digitCount_pos n
  -- the library's bound needs a positive number of digits, so one digit is apart
  obtain hone | hmore : digitCount n = 1 ∨ 0 < digitCount n - 1 := by omega
  · rw [hone] at hlt
    simp at hlt
    omega
  · have hle := (digitCount_le_iff hmore).mpr (Nat.lt_of_not_le hlt)
    omega

/-- The number of digits is fixed by the powers of ten on both sides. -/
theorem digitCount_eq {n k : Nat} (lower : 10 ^ k ≤ n) (upper : n < 10 ^ (k + 1)) :
    digitCount n = k + 1 := by
  have hle : digitCount n ≤ k + 1 := (digitCount_le_iff (Nat.succ_pos k)).mpr upper
  have hlt : k < digitCount n :=
    (Nat.pow_lt_pow_iff_right (by decide : 1 < 10)).mp (lower.trans_lt (lt_pow_digitCount n))
  omega

theorem digitCount_mul_pow {c : Nat} (hc : 0 < c) (j : Nat) :
    digitCount (c * 10 ^ j) = digitCount c + j := by
  have hpos := digitCount_pos c
  have hsplit : digitCount c + j = digitCount c - 1 + j + 1 := by omega
  rw [hsplit]
  refine digitCount_eq ?_ ?_
  · rw [pow_add]
    exact Nat.mul_le_mul_right _ (pow_digitCount_le hc)
  · rw [← hsplit, pow_add]
    exact Nat.mul_lt_mul_of_pos_right (lt_pow_digitCount c) (Nat.pow_pos (by decide))

/-! ### Decimals -/

/-- A decimal as a fraction of natural numbers. -/
def decimalRatio (c : Nat) (p : Int) : Nat × Nat :=
  if p < 0 then (c, 10 ^ p.natAbs) else (c * 10 ^ p.natAbs, 1)

theorem decimalRatio_spec (c : Nat) (p : Int) :
    0 < (decimalRatio c p).2 ∧
      ((decimalRatio c p).1 : ℚ) / (decimalRatio c p).2 = c * 10 ^ p := by
  unfold decimalRatio
  split
  · next hp =>
    refine ⟨Nat.pow_pos (by decide), ?_⟩
    rw [zpow_of_neg 10 hp]
    push_cast
    rw [div_eq_mul_inv]
  · next hp =>
    refine ⟨Nat.one_pos, ?_⟩
    rw [zpow_of_nonneg 10 (not_lt.mp hp)]
    push_cast
    rw [div_one]

theorem ofDecimal_eq {c : Nat} (hc : c ≠ 0) (p : Int) (negative : Bool) :
    ofDecimal negative c p =
      if 310 < digitCount c + p then .infinite negative
      else if digitCount c + p < -330 then zero negative
      else nearest negative (decimalRatio c p).1 (decimalRatio c p).2 := by
  unfold ofDecimal decimalRatio
  rw [if_neg hc]
  simp only [Nat.pow_eq]
  split_ifs <;> rfl

theorem ofDecimal_sign {negative sign : Bool} {c m : Nat} {p e : Int}
    (h : ofDecimal negative c p = .finite sign m e) (other : Bool) :
    ofDecimal other c p = .finite other m e := by
  by_cases hc : c = 0
  · rw [hc] at h ⊢
    cases h
    rfl
  · rw [ofDecimal_eq hc] at h ⊢
    -- too large, too small, and rounded
    split at h
    · cases h
    · next hlarge =>
      rw [if_neg hlarge]
      split at h
      · next hsmall =>
        cases h
        rw [if_pos hsmall]
        rfl
      · next hsmall =>
        rw [if_neg hsmall]
        exact nearest_sign (decimalRatio_spec c p).1 h other
/-- **Zeros at the end.** A decimal is read alike with its digits moved to the left. -/
theorem ofDecimal_mul_pow (negative : Bool) (c : Nat) (p : Int) (j : Nat) :
    ofDecimal negative (c * 10 ^ j) (p - j) = ofDecimal negative c p := by
  obtain rfl | hc := Nat.eq_zero_or_pos c
  · rw [Nat.zero_mul]
    rfl
  · have hcj : c * 10 ^ j ≠ 0 := (Nat.mul_pos hc (Nat.pow_pos (by decide))).ne'
    -- neither the place of the first digit nor the value changes, so nothing that is tested does
    have hmagnitude : ((digitCount c + j : Nat) : Int) + (p - j) = digitCount c + p := by
      push_cast
      ring
    obtain ⟨hpos, hvalue⟩ := decimalRatio_spec (c * 10 ^ j) (p - j)
    obtain ⟨hpos', hvalue'⟩ := decimalRatio_spec c p
    have hsame : ((c * 10 ^ j : Nat) : ℚ) * 10 ^ (p - j) = c * 10 ^ p := by
      rw [zpow_sub₀ (by norm_num : (10 : ℚ) ≠ 0), zpow_natCast]
      push_cast
      field_simp
    rw [ofDecimal_eq hcj, ofDecimal_eq hc.ne', digitCount_mul_pow hc, hmagnitude,
      nearest_congr hpos hpos' (hvalue.trans (hsame.trans hvalue'.symm))]

theorem mul_zpow_bounds {c : Nat} (hc : 0 < c) (p : Int) :
    (10 : ℚ) ^ ((digitCount c : Int) + p - 1) ≤ c * 10 ^ p ∧
      (c * 10 ^ p : ℚ) < 10 ^ ((digitCount c : Int) + p) := by
  have hpos := digitCount_pos c
  -- a number lies between the powers of ten that its digits count
  have hlow : (10 : ℚ) ^ (digitCount c - 1) ≤ c := by exact_mod_cast pow_digitCount_le hc
  have hhigh : (c : ℚ) < 10 ^ digitCount c := by exact_mod_cast lt_pow_digitCount c
  constructor
  · calc (10 : ℚ) ^ ((digitCount c : Int) + p - 1) = 10 ^ (digitCount c - 1) * 10 ^ p := by
          rw [← zpow_natCast, ← zpow_add₀ (by norm_num)]
          congr 1
          omega
      _ ≤ c * 10 ^ p := by gcongr
  · calc (c * 10 ^ p : ℚ) < 10 ^ digitCount c * 10 ^ p := by gcongr
      _ = 10 ^ ((digitCount c : Int) + p) := by
          rw [zpow_add₀ (by norm_num), zpow_natCast]

/-- The powers of two and of ten at both ends of the range. -/
theorem range_bounds :
    (10 : ℚ) ^ (-330 : Int) < 2 ^ (-1074 : Int) ∧ (2 : ℚ) ^ (1024 : Int) < 10 ^ (309 : Int) := by
  -- the powers are compared as natural numbers, which the kernel computes
  have hcast : ∀ {a b i j : Nat}, a ^ i < b ^ j → (a : ℚ) ^ (i : Int) < (b : ℚ) ^ (j : Int) := by
    intro a b i j h
    rw [zpow_natCast, zpow_natCast]
    exact_mod_cast h
  have hsmall : (2 : ℚ) ^ (1074 : Int) < 10 ^ (330 : Int) :=
    hcast (a := 2) (b := 10) (i := 1074) (j := 330) (by decide +kernel)
  have hlarge : (2 : ℚ) ^ (1024 : Int) < 10 ^ (309 : Int) :=
    hcast (a := 2) (b := 10) (i := 1024) (j := 309) (by decide +kernel)
  refine ⟨?_, hlarge⟩
  rw [zpow_neg, zpow_neg]
  exact (inv_lt_inv₀ (by positivity) (by positivity)).mpr hsmall

/-- The numbers in normal form lie between two powers of ten. -/
theorem Canonical.bounds {m : Nat} {e : Int} (h : Canonical m e) (hm : 0 < m) :
    (10 : ℚ) ^ (-330 : Int) < m * 2 ^ e ∧ (m * 2 ^ e : ℚ) < 10 ^ (309 : Int) := by
  have hm' : (1 : ℚ) ≤ m := by exact_mod_cast hm
  have hbits : (m : ℚ) ≤ 2 ^ 53 := by exact_mod_cast h.bits.le
  constructor
  · -- the least and the greatest exponent give the bounds
    have hpow : (2 : ℚ) ^ (-1074 : Int) ≤ 2 ^ e := zpow_le_zpow_right₀ one_le_two h.least
    have hscale : (2 : ℚ) ^ e ≤ m * 2 ^ e := le_mul_of_one_le_left (by positivity) hm'
    exact range_bounds.1.trans_le (hpow.trans hscale)
  · have hpow : (2 : ℚ) ^ e ≤ 2 ^ (971 : Int) := zpow_le_zpow_right₀ one_le_two h.greatest
    calc (m * 2 ^ e : ℚ) ≤ 2 ^ (53 : Int) * 2 ^ (971 : Int) := by gcongr; exact_mod_cast hbits
      _ = 2 ^ (1024 : Int) := (zpow_add₀ two_ne_zero 53 971).symm
      _ < 10 ^ (309 : Int) := range_bounds.2

/-- **Close decimals.** A decimal whose distance from a positive number in normal form is less than
`2 ^ (-54)` of the number is read as the number; it lies too close for the bounds on the exponents
to matter. -/
theorem ofDecimal_eq_of_close {c m : Nat} {p e : Int} (h : Canonical m e) (hm : 0 < m)
    (lower : (m : ℚ) * 2 ^ e * (1 - 1 / 2 ^ 54) < c * 10 ^ p)
    (upper : (c * 10 ^ p : ℚ) < m * 2 ^ e * (1 + 1 / 2 ^ 54)) (negative : Bool) :
    ofDecimal negative c p = .finite negative m e := by
  obtain ⟨hlow, hhigh⟩ := h.bounds hm
  have hpositive : (0 : ℚ) < c * 10 ^ p := by
    refine lt_trans ?_ lower
    have hm' : (0 : ℚ) < m := by exact_mod_cast hm
    have hfactor : (0 : ℚ) < 1 - 1 / 2 ^ 54 := by norm_num
    positivity
  have hc : 0 < c := by
    rcases Nat.eq_zero_or_pos c with rfl | hc
    · simp at hpositive
    · exact hc
  obtain ⟨hbelow, habove⟩ := mul_zpow_bounds hc p
  -- the decimal lies near the number, and the number is in range: no bound is reached
  have hlarge : ¬ 310 < (digitCount c : Int) + p := by
    intro hlt
    have hpow : (10 : ℚ) ^ (310 : Int) ≤ 10 ^ ((digitCount c : Int) + p - 1) :=
      zpow_le_zpow_right₀ (by norm_num) (by omega)
    have hten : (10 : ℚ) ^ (310 : Int) = 10 ^ (309 : Int) * 10 := zpow_add_one₀ (by norm_num) 309
    have hten' : (0 : ℚ) < 10 ^ (309 : Int) := by positivity
    have hle := hten ▸ hpow.trans hbelow
    generalize (10 : ℚ) ^ (309 : Int) = bound at hhigh hten' hle
    linarith only [upper, hhigh, hten', hle]
  have hsmall : ¬ (digitCount c : Int) + p < -330 := by
    intro hlt
    have hpow : (10 : ℚ) ^ ((digitCount c : Int) + p) ≤ 10 ^ (-331 : Int) :=
      zpow_le_zpow_right₀ (by norm_num) (by omega)
    have hten : (10 : ℚ) ^ (-330 : Int) = 10 ^ (-331 : Int) * 10 :=
      zpow_add_one₀ (by norm_num) (-331)
    have hten' : (0 : ℚ) < 10 ^ (-331 : Int) := by positivity
    linarith
  obtain ⟨hden, hvalue⟩ := decimalRatio_spec c p
  -- rounding is only defined by its exponent for a fraction that is not zero
  have hnum : 0 < (decimalRatio c p).1 := by
    have hden' : (0 : ℚ) < (decimalRatio c p).2 := by exact_mod_cast hden
    rw [← hvalue, div_pos_iff_of_pos_right hden'] at hpositive
    exact_mod_cast hpositive
  rw [ofDecimal_eq hc.ne', if_neg hlarge, if_neg hsmall]
  rw [← hvalue] at lower upper
  exact nearest_eq_of_close hnum hden h hm lower upper negative

/-! ### The search -/

/-- A number as a fraction of natural numbers, without its sign. -/
def binaryRatio (m : Nat) (e : Int) : Nat × Nat :=
  (if 0 ≤ e then m * 2 ^ e.natAbs else m, if 0 ≤ e then 1 else 2 ^ e.natAbs)

theorem binaryRatio_spec (m : Nat) (e : Int) :
    0 < (binaryRatio m e).2 ∧ ((binaryRatio m e).1 : ℚ) / (binaryRatio m e).2 = m * 2 ^ e := by
  unfold binaryRatio
  by_cases he : 0 ≤ e
  · rw [if_pos he, if_pos he]
    refine ⟨Nat.one_pos, ?_⟩
    rw [zpow_of_nonneg 2 he]
    push_cast
    rw [div_one]
  · rw [if_neg he, if_neg he]
    refine ⟨Nat.two_pow_pos _, ?_⟩
    rw [zpow_of_neg 2 (not_le.mp he)]
    push_cast
    rw [div_eq_mul_inv]

theorem binaryRatio_pos {m : Nat} (hm : 0 < m) (e : Int) : 0 < (binaryRatio m e).1 := by
  unfold binaryRatio
  split
  · exact Nat.mul_pos hm (Nat.two_pow_pos _)
  · exact hm

/-- The place of the first digit is not too far to the left. -/
theorem pow_decimalExponent_le {num den : Nat} (hnum : 0 < num) (hden : 0 < den) :
    (10 : ℚ) ^ (decimalExponent num den - 1) ≤ num / den := by
  have hnum' : (0 : ℚ) < num := by exact_mod_cast hnum
  have hden' : (0 : ℚ) < den := by exact_mod_cast hden
  unfold decimalExponent
  split
  · -- the whole part has digits, and they tell the exponent
    next hle =>
    have hquotient : 0 < num / den := Nat.div_pos hle hden
    have hpos := digitCount_pos (num / den)
    calc (10 : ℚ) ^ ((digitCount (num / den) : Int) - 1)
        = ((10 ^ (digitCount (num / den) - 1) : Nat) : ℚ) := by
          push_cast
          rw [← zpow_natCast]
          congr 1
          omega
      _ ≤ ((num / den : Nat) : ℚ) := by exact_mod_cast pow_digitCount_le hquotient
      _ ≤ num / den := Nat.cast_div_le
  · -- below one the exponent is told by the inverse, rounded down
    next hlt =>
    have hpos := digitCount_pos (den / num)
    have hupper : den < num * 10 ^ digitCount (den / num) := by
      have h := (Nat.div_lt_iff_lt_mul hnum).mp (lt_pow_digitCount (den / num))
      linarith
    simp only [Nat.pow_eq]
    generalize digitCount (den / num) = t at hpos hupper ⊢
    rw [le_div_iff₀ hden']
    split
    · -- an exact power of ten, for which the inverse has one digit more
      next hexact =>
      have hexact' : (den : ℚ) = num * 10 ^ (t - 1) := by exact_mod_cast hexact.symm
      have hpow : (10 : ℚ) ^ (2 - (t : Int) - 1) * 10 ^ (t - 1) = 1 := by
        rw [← zpow_natCast, ← zpow_add₀ (by norm_num)]
        have hzero : 2 - (t : Int) - 1 + (t - 1 : Nat) = 0 := by omega
        rw [hzero, zpow_zero]
      calc (10 : ℚ) ^ (2 - (t : Int) - 1) * den
          = num * (10 ^ (2 - (t : Int) - 1) * 10 ^ (t - 1)) := by rw [hexact']; ring
        _ ≤ num := by rw [hpow, mul_one]
    · have hupper' : (den : ℚ) ≤ num * 10 ^ t := by exact_mod_cast hupper.le
      have hpow : (10 : ℚ) ^ (1 - (t : Int) - 1) * 10 ^ t = 1 := by
        rw [← zpow_natCast, ← zpow_add₀ (by norm_num)]
        have hzero : 1 - (t : Int) - 1 + (t : Nat) = 0 := by omega
        rw [hzero, zpow_zero]
      calc (10 : ℚ) ^ (1 - (t : Int) - 1) * den
          ≤ 10 ^ (1 - (t : Int) - 1) * (num * 10 ^ t) := by gcongr
        _ = num * (10 ^ (1 - (t : Int) - 1) * 10 ^ t) := by ring
        _ = num := by rw [hpow, mul_one]

/-- A grid as a fraction: the point below it, and what is cut off. -/
theorem onGrid_spec (num : Nat) {den : Nat} (hden : 0 < den) (p : Int) :
    0 < (onGrid num den p).2.2 ∧ (onGrid num den p).2.1 < (onGrid num den p).2.2 ∧
      ((onGrid num den p).1 : ℚ) + (onGrid num den p).2.1 / (onGrid num den p).2.2 =
        num / den / 10 ^ p := by
  have hden' : (den : ℚ) ≠ 0 := by exact_mod_cast hden.ne'
  -- integer part and fractional part of a quotient
  have hfloor : ∀ n d : Nat, 0 < d → ((n / d : Nat) : ℚ) + (n % d : Nat) / d = n / d := by
    intro n d hd
    have hd' : (d : ℚ) ≠ 0 := by exact_mod_cast hd.ne'
    have hdiv : ((d * (n / d) + n % d : Nat) : ℚ) = n := by rw [Nat.div_add_mod]
    push_cast at hdiv
    field_simp
    linarith
  unfold onGrid
  by_cases hp : p < 0
  · simp only [hp, if_true, Nat.pow_eq]
    refine ⟨hden, Nat.mod_lt _ hden, ?_⟩
    rw [hfloor _ _ hden, zpow_of_neg 10 hp]
    push_cast
    field_simp
  · have hpos : 0 < den * 10 ^ p.natAbs := Nat.mul_pos hden (Nat.pow_pos (by decide))
    simp only [hp, if_false, Nat.pow_eq]
    refine ⟨hpos, Nat.mod_lt _ hpos, ?_⟩
    rw [hfloor _ _ hpos, zpow_of_nonneg 10 (not_lt.mp hp)]
    push_cast
    field_simp

/-- A point that is taken from a grid reads back. -/
theorem ofDecimal_of_gridPoint? {m num den c : Nat} {e p : Int}
    (h : gridPoint? m e num den p = some c) : ofDecimal false c p = .finite false m e := by
  unfold gridPoint? at h
  simp only at h
  split at h
  · -- of two neighbours that both read back either may have been taken
    next hlow hhigh =>
    obtain rfl := Option.some.inj h
    split
    · exact eq_of_beq hlow
    · exact eq_of_beq hhigh
  · next hlow _ =>
    obtain rfl := Option.some.inj h
    exact eq_of_beq hlow
  · next _ hhigh =>
    obtain rfl := Option.some.inj h
    exact eq_of_beq hhigh
  · cases h

/-- **Seventeen digits suffice.** On a grid of steps that are at most `10 ^ (-16)` of a number, one
of the two points next to the number reads back: the nearer one is off by half a step at most. -/
theorem gridPoint?_isSome {m num den : Nat} {e p : Int} (h : Canonical m e) (hm : 0 < m)
    (hden : 0 < den) (hvalue : (num : ℚ) / den = m * 2 ^ e)
    (hgrid : (10 : ℚ) ^ (p + 16) ≤ m * 2 ^ e) : (gridPoint? m e num den p).isSome := by
  obtain ⟨hunit, hrest, hpoint⟩ := onGrid_spec num hden p
  have hstep : (0 : ℚ) < 10 ^ p := by positivity
  rw [hvalue] at hpoint
  -- a point of the grid within half a step of the number is close enough
  have hreads : ∀ c : Nat, (m * 2 ^ e / 10 ^ p : ℚ) - 1 / 2 ≤ c →
      (c : ℚ) ≤ m * 2 ^ e / 10 ^ p + 1 / 2 → ofDecimal false c p = .finite false m e := by
    intro c hlower hupper
    -- the number is at least `10 ^ 16` steps, and `10 ^ 16 > 2 ^ 53`: half a step is little of it
    have hmany : (10 : ℚ) ^ 16 ≤ m * 2 ^ e / 10 ^ p := by
      rw [le_div_iff₀ hstep]
      calc (10 : ℚ) ^ 16 * 10 ^ p = 10 ^ (p + 16) := by
            rw [zpow_add₀ (by norm_num), mul_comm]
            norm_cast
        _ ≤ m * 2 ^ e := hgrid
    have hscale : (m * 2 ^ e / 10 ^ p * 10 ^ p : ℚ) = m * 2 ^ e := div_mul_cancel₀ _ hstep.ne'
    refine ofDecimal_eq_of_close h hm ?_ ?_ false
    · rw [← hscale, mul_right_comm]
      refine mul_lt_mul_of_pos_right ?_ hstep
      linarith
    · rw [← hscale, mul_right_comm]
      refine mul_lt_mul_of_pos_right ?_ hstep
      linarith
  have hunit' : (0 : ℚ) < (onGrid num den p).2.2 := by exact_mod_cast hunit
  have hnear : ofDecimal false (onGrid num den p).1 p = .finite false m e ∨
      ofDecimal false ((onGrid num den p).1 + 1) p = .finite false m e := by
    have hrest' : ((onGrid num den p).2.1 : ℚ) / (onGrid num den p).2.2 < 1 := by
      rw [div_lt_one hunit']
      exact_mod_cast hrest
    have hzero : (0 : ℚ) ≤ (onGrid num den p).2.1 / (onGrid num den p).2.2 := by positivity
    -- the point below is near where at most half a step is cut off, and else the point above
    by_cases hhalf : ((onGrid num den p).2.1 : ℚ) / (onGrid num den p).2.2 ≤ 1 / 2
    · exact .inl (hreads _ (by linarith) (by linarith))
    · refine .inr (hreads _ ?_ ?_)
      · push_cast
        linarith
      · push_cast
        linarith [not_le.mp hhalf]
  unfold gridPoint?
  simp only
  split
  · rfl
  · rfl
  · rfl
  · next hlow hhigh =>
    obtain h | h := hnear
    · rw [h, beq_self_eq_true] at hlow
      cases hlow
    · rw [h, beq_self_eq_true] at hhigh
      cases hhigh

/-- The search ends with a decimal that reads back, if one of the grids ahead has one. -/
theorem ofDecimal_of_shortestFrom {m num den : Nat} {e k : Int}
    (hgrid : (gridPoint? m e num den (k - 17)).isSome) : ∀ tries n : Nat, tries + n = 18 → n ≤ 17 →
      ofDecimal false (shortestFrom m e num den k tries n).1
        (shortestFrom m e num den k tries n).2 = .finite false m e
  | 0, n, hsum, hn => by omega
  | tries + 1, n, hsum, hn => by
    unfold shortestFrom
    cases hpoint : gridPoint? m e num den (k - n) with
    | some c => exact ofDecimal_of_gridPoint? hpoint
    | none =>
      -- the grid of seventeen digits has a point, so it is not the one that failed
      have hne : n ≠ 17 := by
        rintro rfl
        have hgrid' : (gridPoint? m e num den (k - (17 : Nat))).isSome := hgrid
        rw [hpoint] at hgrid'
        cases hgrid'
      exact ofDecimal_of_shortestFrom hgrid tries (n + 1) (by omega) (by omega)

/-- **Shortest decimals read back.** -/
theorem shortest_spec {m : Nat} {e : Int} (h : Canonical m e) (hm : 0 < m) :
    ofDecimal false (shortest m e).1 (shortest m e).2 = .finite false m e := by
  have hnum := binaryRatio_pos hm e
  obtain ⟨hden, hvalue⟩ := binaryRatio_spec m e
  have hplace := pow_decimalExponent_le hnum hden
  rw [hvalue] at hplace
  have hgrid : (10 : ℚ) ^ (decimalExponent (binaryRatio m e).1 (binaryRatio m e).2 - 17 + 16) ≤
      m * 2 ^ e := by
    have hsum : decimalExponent (binaryRatio m e).1 (binaryRatio m e).2 - 17 + 16 =
        decimalExponent (binaryRatio m e).1 (binaryRatio m e).2 - 1 := by ring
    rw [hsum]
    exact hplace
  -- the grid of seventeen digits is fine enough for every number
  have hpoint := gridPoint?_isSome h hm hden hvalue hgrid
  exact ofDecimal_of_shortestFrom hpoint 17 1 rfl (by decide)

end RecordQuery.Binary64
