import Mathlib.Data.Sign.Basic
import RecordQuery.Number.Decimal
import RecordQuery.Proofs.Number.Exact

/-!
# Equal decimals

Decimals are compared without being brought to one exponent first: the signs are looked at, then the
places of the first digits, and the digits only if these agree. The outcome is that of the exact
numbers.

* `Decimal.SameNumber` — the reference. A decimal keeps its zeros, so one number has many decimals.
* `Decimal.comparePositive_eq_iff` — positive numbers.
* `Decimal.compare?_eq_iff` — all decimals.
-/

namespace RecordQuery.Decimal

open Binary64 (withSign)

/-- Whether two values are the same number, or the same infinity. The sign of a zero and the zeros
at the end of a coefficient do not count. -/
def SameNumber : Decimal → Decimal → Prop
  | finite s c e, finite t d f => withSign s (c * 10 ^ e) = withSign t (d * 10 ^ f)
  | infinite s, infinite t => s = t
  | _, _ => False

section

variable {c d : Nat} {e f : Int}

/-- Two coefficients are compared at the lesser of their exponents. -/
theorem scaled_eq_iff (h : f ≤ e) :
    (c : ℚ) * 10 ^ e = d * 10 ^ f ↔ c * 10 ^ (e - f).natAbs = d := by
  have hsplit : (10 : ℚ) ^ e = 10 ^ (e - f).natAbs * 10 ^ f := by
    rw [← zpow_natCast, ← zpow_add₀ (by norm_num), Int.natCast_natAbs, abs_of_nonneg (by omega)]
    congr 1
    omega
  have hne : (10 : ℚ) ^ f ≠ 0 := zpow_ne_zero _ (by norm_num)
  rw [hsplit, ← mul_assoc, mul_left_inj' hne]
  exact_mod_cast Iff.rfl

/-- The first digits of equal numbers have one place. -/
theorem place_eq_of_scaled (hc : 0 < c) (h : f ≤ e) (hsame : c * 10 ^ (e - f).natAbs = d) :
    (digitCount c + e : Int) = digitCount d + f := by
  have hcount : digitCount d = digitCount c + (e - f).natAbs := by
    rw [← hsame]
    exact Binary64.digitCount_mul_pow hc _
  omega

/-- **Positive numbers** are compared exactly, although their digits are looked at only if the
places of the first ones agree. -/
theorem comparePositive_eq_iff (hc : 0 < c) (hd : 0 < d) :
    comparePositive c e d f = .eq ↔ (c : ℚ) * 10 ^ e = d * 10 ^ f := by
  have hplace : (c : ℚ) * 10 ^ e = d * 10 ^ f →
      (digitCount c + e : Int) = digitCount d + f := by
    intro hsame
    obtain h | h := le_total f e
    · exact place_eq_of_scaled hc h ((scaled_eq_iff h).mp hsame)
    · exact (place_eq_of_scaled hd h ((scaled_eq_iff h).mp hsame.symm)).symm
  unfold comparePositive
  -- numbers with their first digits in one place are compared digit by digit
  by_cases heq : (digitCount c + e : Int) = digitCount d + f
  · rw [heq, Std.ReflOrd.compare_self]
    simp only
    split
    · next h =>
      rw [Std.LawfulEqOrd.compare_eq_iff_eq, scaled_eq_iff h]
      rfl
    · next h =>
      rw [Std.LawfulEqOrd.compare_eq_iff_eq, eq_comm, eq_comm (a := (c : ℚ) * 10 ^ e),
        scaled_eq_iff (not_le.mp h).le]
      rfl
  · refine iff_of_false (fun hcompare => heq ?_) fun hsame => heq (hplace hsame)
    split at hcompare
    · next hplaces => exact Std.LawfulEqOrd.compare_eq_iff_eq.mp hplaces
    · next hne => exact absurd hcompare hne

end

theorem sign_finite (s : Bool) (c : Nat) (e : Int) :
    (finite s c e).sign = SignType.sign (withSign s (c * 10 ^ e)) := by
  obtain rfl | hc := Nat.eq_zero_or_pos c
  · simp [sign]
  · have hpos : (0 : ℚ) < c * 10 ^ e := mul_pos (Nat.cast_pos.mpr hc) (zpow_pos (by norm_num) e)
    cases s with
    | false => simp [sign, hc.ne', withSign, sign_pos hpos]
    | true => simp [sign, hc.ne', withSign, Left.sign_neg, sign_pos hpos]

/-- Numbers are compared by their signs first, and then by their absolute values. -/
theorem compare?_eq_iff_of_isNumber {x y : Decimal} (hx : x.isNumber = true)
    (hy : y.isNumber = true) : x.compare? y = some .eq ↔
      x.sign = y.sign ∧ (x.sign = 0 ∨ x.sign = 1 ∧ x.compareAbs y = .eq ∨
        x.sign ≠ 0 ∧ x.sign ≠ 1 ∧ y.compareAbs x = .eq) := by
  unfold compare?
  simp only [hx, hy, Bool.and_self, if_true]
  -- signs are compared first, and magnitudes only between equal ones
  by_cases hsign : x.sign = y.sign
  · rw [if_neg (not_not.mpr hsign), and_iff_right hsign]
    split
    · next hzero => simp [hzero]
    · next hzero => split <;> simp_all
  · rw [if_pos hsign, Option.some.injEq, Std.LawfulEqOrd.compare_eq_iff_eq]
    exact iff_of_false hsign fun h => hsign h.1

/-- Finite values are equal where their numbers are. -/
theorem compare?_finite_eq_iff (s t : Bool) (c d : Nat) (e f : Int) :
    (finite s c e).compare? (finite t d f) = some .eq ↔
      withSign s (c * 10 ^ e) = withSign t (d * 10 ^ f) := by
  rw [compare?_eq_iff_of_isNumber rfl rfl]
  by_cases hsign : (finite s c e).sign = (finite t d f).sign
  · rw [and_iff_right hsign]
    obtain rfl | hc := Nat.eq_zero_or_pos c
    · have hd : d = 0 := by
        by_contra hd
        cases t <;> simp [sign, hd] at hsign
      simp [sign, hd]
    · -- neither number is zero, so their signs are the signs in front of them
      have hd : 0 < d := by
        by_contra hd
        cases s <;> simp [sign, hc.ne', Nat.eq_zero_of_not_pos hd] at hsign
      have hst : s = t := by
        cases s <;> cases t <;> simp [sign, hc.ne', hd.ne'] at hsign <;> rfl
      subst hst
      cases s with
      | false => simp [sign, hc.ne', compareAbs, withSign, comparePositive_eq_iff hc hd]
      | true =>
        simp [sign, hc.ne', compareAbs, withSign, comparePositive_eq_iff hd hc,
          eq_comm (a := (d : ℚ) * 10 ^ f)]
  · refine iff_of_false (fun h => hsign h.1) fun hsame => hsign ?_
    rw [sign_finite, sign_finite, hsame]

/-- Finite values and infinities differ. -/
theorem compareAbs_ne_eq (s t : Bool) (c : Nat) (e : Int) :
    (finite s c e).compareAbs (infinite t) ≠ .eq ∧
      (infinite t).compareAbs (finite s c e) ≠ .eq := ⟨nofun, nofun⟩

theorem sign_infinite_ne_zero (t : Bool) : (infinite t).sign ≠ 0 := by
  cases t <;> decide

/-- **Decimals** are equal where they are the same number. -/
theorem compare?_eq_iff (x y : Decimal) : x.compare? y = some .eq ↔ x.SameNumber y := by
  cases x with
  | finite s c e =>
    cases y with
    | finite t d f => exact compare?_finite_eq_iff s t c d e f
    | infinite t =>
      rw [compare?_eq_iff_of_isNumber rfl rfl]
      refine iff_of_false ?_ id
      -- the infinities are greater than all finite numbers by amount
      rintro ⟨hsign, hzero | ⟨-, habs⟩ | ⟨-, -, habs⟩⟩
      · exact sign_infinite_ne_zero t (hsign.symm.trans hzero)
      · exact (compareAbs_ne_eq s t c e).1 habs
      · exact (compareAbs_ne_eq s t c e).2 habs
    | nan t signaling payload => exact iff_of_false nofun id
  | infinite s =>
    cases y with
    | finite t d f =>
      rw [compare?_eq_iff_of_isNumber rfl rfl]
      refine iff_of_false ?_ id
      rintro ⟨-, hzero | ⟨-, habs⟩ | ⟨-, -, habs⟩⟩
      · exact sign_infinite_ne_zero s hzero
      · exact (compareAbs_ne_eq t s d f).2 habs
      · exact (compareAbs_ne_eq t s d f).1 habs
    | infinite t =>
      unfold SameNumber
      cases s <;> cases t <;> decide
    | nan t signaling payload => exact iff_of_false nofun id
  | nan s signaling payload => exact iff_of_false nofun id

example : (finite false 150 (-2)).compare? (finite false 15 (-1)) = some .eq := by decide

end RecordQuery.Decimal
