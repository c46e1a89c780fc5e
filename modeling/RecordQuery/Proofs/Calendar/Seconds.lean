import Mathlib.Data.Rat.Floor
import RecordQuery.Calendar.Duration
import RecordQuery.Proofs.Number.Exact

/-!
# Durations as numbers of seconds

A duration is made a floating point number of seconds, and a number of seconds is made a duration.
The first step rounds to 53 bits, the second to whole microseconds; in between the microseconds are
computed from the fraction of the seconds, which is exact for large numbers and close enough for
small ones. So only the first step may lose something, where a microsecond is less than half a unit
of the last bit.

* `Duration.ofParts?_totalSeconds` — the number of seconds of a duration is made the duration of
  `Duration.roundedMicros`.
* `Duration.roundedMicros_of_lt` — nothing is lost below `2 ^ 33` seconds,
* `Duration.roundedMicros_of_dvd` — and nothing of whole seconds.
-/

namespace RecordQuery

open Binary64

/-! ### Rounding to integers -/

/-- The integer nearest to a fraction; a half goes to the even one. -/
def roundEven (q : ℚ) : Int :=
  if Int.fract q < 1 / 2 then ⌊q⌋
  else if 1 / 2 < Int.fract q then ⌊q⌋ + 1
  else if ⌊q⌋ % 2 = 0 then ⌊q⌋ else ⌊q⌋ + 1

theorem roundEven_eq_of_close {q : ℚ} {n : Int} (h : |q - n| < 1 / 2) : roundEven q = n := by
  obtain ⟨hlower, hupper⟩ := abs_lt.mp h
  unfold roundEven
  -- the whole number is the floor or the ceiling
  by_cases hle : (n : ℚ) ≤ q
  · have hfloor : ⌊q⌋ = n := by
      rw [Int.floor_eq_iff]
      constructor <;> linarith
    have hfract : Int.fract q < 1 / 2 := by
      rw [Int.fract, hfloor]
      linarith
    rw [if_pos hfract, hfloor]
  · have hfloor : ⌊q⌋ = n - 1 := by
      rw [Int.floor_eq_iff]
      push_cast
      constructor <;> linarith [not_le.mp hle]
    have hfract : 1 / 2 < Int.fract q := by
      rw [Int.fract, hfloor]
      push_cast
      linarith
    rw [if_neg hfract.le.not_gt, if_pos hfract, hfloor, sub_add_cancel]

theorem roundEven_intCast (n : Int) : roundEven n = n :=
  roundEven_eq_of_close (by rw [sub_self, abs_zero]; exact one_half_pos)

namespace Duration

/-- The sum of an integer and a floating point number is rounded by its exact value. -/
theorem roundSum_eq {x : Binary64} (h : x.IsFinite) (whole : Int) :
    roundSum whole x = roundEven (whole + x.value) := by
  obtain ⟨num, den, hratio, hden, hvalue⟩ := exists_ratio? h
  have hden' : (0 : ℚ) < den := by exact_mod_cast hden
  have hsum : whole + x.value = ((whole * den + num : Int) : ℚ) / den := by
    rw [← hvalue]
    push_cast
    field_simp
  have hfract : Int.fract (whole + x.value) = ((whole * den + num) % den : Int) / den := by
    rw [hsum, Int.fract_div_intCast_eq_div_intCast_mod]
  have hfloor : ⌊whole + x.value⌋ = (whole * den + num) / den := by
    rw [hsum, Rat.floor_intCast_div_natCast]
  -- the remainder is compared with one half of the denominator
  have hlow : Int.fract (whole + x.value) < 1 / 2 ↔ 2 * ((whole * den + num) % den) < den := by
    rw [hfract, div_lt_div_iff₀ hden' two_pos, one_mul, mul_comm]
    exact_mod_cast Iff.rfl
  have hhigh : 1 / 2 < Int.fract (whole + x.value) ↔
      (den : Int) < 2 * ((whole * den + num) % den) := by
    rw [hfract, div_lt_div_iff₀ two_pos hden', one_mul, mul_comm]
    exact_mod_cast Iff.rfl
  unfold roundSum roundEven
  rw [hratio]
  simp only [hlow, hhigh, hfloor]

/-! ### Seconds made a duration -/

/-- The sum of one amount. -/
theorem ofParts?_singleton {unit : Nat} {amount : Amount} {whole : Int} {fraction : Binary64}
    (h : addAmount unit (0, zero false) amount = .ok (whole, fraction)) :
    ofParts? [(unit, amount)] =
      (ofMicroseconds? (roundSum whole fraction)).elim (.error .outOfRange) .ok := by
  have hfold : [(unit, amount)].foldlM (fun sum p => addAmount p.1 sum p.2) (0, zero false) =
      .ok (whole, fraction) := by
    show addAmount unit (0, zero false) amount >>= _ = _
    rw [h]
    rfl
  unfold ofParts?
  rw [hfold]
  -- the sum may be longer than any duration
  cases hduration : ofMicroseconds? (roundSum whole fraction) with
  | some d =>
    simp only [bind, Except.bind, hduration]
    rfl
  | none =>
    simp only [bind, Except.bind, hduration]
    rfl

theorem ofInt_microsPerSecond : (ofInt microsPerSecond).IsFinite ∧
    (ofInt microsPerSecond).value = microsPerSecond := by
  have hcounts : (ofInt microsPerSecond).Counts microsPerSecond := counts_ofInt (by decide)
  exact ⟨hcounts.finite, hcounts.value_eq⟩

/-- What a fractional number of seconds is made: the microseconds of its fraction are a rounded
product. -/
theorem exists_ofParts? (negative : Bool) {m : Nat} {e : Int} (h : Canonical m e) :
    ∃ whole : Int, ∃ y p : Binary64, ∃ r : Nat,
      whole + y.value = (finite negative m e).value ∧ |y.value| = r * 2 ^ e ∧ |y.value| < 1 ∧
      Rounds (microsPerSecond * y.value) p ∧
      |p.value - microsPerSecond * y.value| ≤ 2 ^ (-34 : Int) ∧
      ofParts? [(microsPerSecond, .fractional (finite negative m e))] =
        (ofMicroseconds? (roundEven (whole * microsPerSecond + p.value))).elim
          (.error .outOfRange) .ok := by
  obtain ⟨whole, y, r, hsplit, hy, hsum, hbits, hless⟩ := exists_split negative h
  obtain ⟨hmillion, hvalue⟩ := ofInt_microsPerSecond
  have hround := rounds_mul hmillion hy
  rw [hvalue] at hround
  have hbound : |(microsPerSecond : ℚ) * y.value| < 2 ^ (20 : Int) := by
    rw [abs_mul, Nat.abs_cast]
    have hmicros : (microsPerSecond : ℚ) = 1000000 := by norm_num [microsPerSecond]
    rw [hmicros]
    have hpow : (2 : ℚ) ^ (20 : Int) = 1048576 := by norm_num
    linarith [abs_nonneg y.value]
  obtain ⟨hfinite, herror⟩ := hround.error hbound (by decide) (by decide)
  refine ⟨whole, y, _, r, hsum, hbits, hless, hround, herror, ?_⟩
  -- what the product leaves of a microsecond is exact, and so is its sum with zero
  obtain ⟨t, n, f, hp, hcanonical⟩ := hfinite.exists_eq
  obtain ⟨micros, z, -, hsplit', hz, hsum', -, -⟩ := exists_split t hcanonical
  have hadd := rounds_add (isFinite_zero false) hz
  rw [value_zero, zero_add] at hadd
  obtain ⟨hadded, hrest⟩ := hadd.of_isFinite hz
  have hamount : addAmount microsPerSecond (0, zero false) (.fractional (finite negative m e)) =
      .ok (0 + whole * microsPerSecond + micros, (zero false).add z) := by
    unfold addAmount
    simp only [hsplit]
    rw [hp, hsplit']
  have hround' : roundSum (0 + whole * microsPerSecond + micros) ((zero false).add z) =
      roundEven (whole * microsPerSecond + (finite t n f).value) := by
    rw [roundSum_eq hadded, hrest, ← hsum']
    congr 1
    push_cast
    ring
  rw [ofParts?_singleton hamount, hround', hp]

/-- With at most 39 bits below the point, the microseconds in a fraction of a second are a number of
53 bits: a million is `15625 * 2 ^ 6`. -/
theorem micros_exact {y p : Binary64} {r : Nat} {e : Int}
    (hround : Rounds (microsPerSecond * y.value) p) (hbits : |y.value| = r * 2 ^ e)
    (hless : |y.value| < 1) (he : -39 ≤ e) : p.value = microsPerSecond * y.value := by
  obtain ⟨j, hj⟩ := Int.eq_ofNat_of_zero_le (show 0 ≤ e + 39 by omega)
  have hscaled : |y.value| = (r * 2 ^ j : Nat) * 2 ^ (-39 : Int) := by
    have hsum : e = j + -39 := by omega
    rw [hbits, hsum, zpow_add₀ two_ne_zero, zpow_natCast]
    push_cast
    ring
  generalize r * 2 ^ j = k at hscaled
  have hk : k < 2 ^ 39 := by
    rw [hscaled, zpow_neg, ← div_eq_mul_inv, div_lt_one (by positivity)] at hless
    exact_mod_cast hless
  -- a million is an odd number times 2⁶, so that the product is a multiple of 2⁻³³
  have hproduct : |(microsPerSecond : ℚ) * y.value| = (15625 * k : Nat) * 2 ^ (-33 : Int) := by
    have hmicros : (microsPerSecond : ℚ) = 15625 * 2 ^ (6 : Int) := by norm_num [microsPerSecond]
    have hpow : (2 : ℚ) ^ (6 : Int) * 2 ^ (-39 : Int) = 2 ^ (-33 : Int) :=
      (zpow_add₀ two_ne_zero 6 (-39)).symm
    rw [abs_mul, Nat.abs_cast, hscaled, hmicros, ← hpow]
    push_cast
    ring
  exact (hround.exact hproduct (by omega) (by decide) (by decide)).2

/-- A number of seconds is made the nearest number of microseconds, if the number is large, or close
to a whole number of microseconds. -/
theorem ofParts?_seconds {x : Binary64} (hx : x.IsFinite)
    (h : (2 : ℚ) ^ (13 : Int) ≤ |x.value| ∨ ∃ n : Int, |x.value * microsPerSecond - n| ≤ 1 / 4) :
    ofParts? [(microsPerSecond, .fractional x)] =
      (ofMicroseconds? (roundEven (x.value * microsPerSecond))).elim (.error .outOfRange) .ok := by
  obtain ⟨negative, m, e, rfl, hcanonical⟩ := hx.exists_eq
  obtain ⟨whole, y, p, r, hsum, hbits, hless, hround, herror, hparts⟩ :=
    exists_ofParts? negative hcanonical
  rw [hparts]
  congr 2
  obtain hlarge | ⟨n, hn⟩ := h
  · -- a large number has few bits below the point
    have he : -39 ≤ e := by
      by_contra hsmall
      have hm : (m : ℚ) < 2 ^ (53 : Int) := by exact_mod_cast hcanonical.bits
      have hpow : (2 : ℚ) ^ e ≤ 2 ^ (-40 : Int) := zpow_le_zpow_right₀ one_le_two (by omega)
      have hbelow : |(finite negative m e).value| < 2 ^ (13 : Int) :=
        calc |(finite negative m e).value| = m * 2 ^ e := by
              rw [value, abs_withSign, abs_of_nonneg (by positivity)]
          _ ≤ m * 2 ^ (-40 : Int) := by gcongr
          _ < 2 ^ (53 : Int) * 2 ^ (-40 : Int) := by gcongr
          _ = 2 ^ (13 : Int) := (zpow_add₀ two_ne_zero 53 (-40)).symm
      exact absurd hlarge hbelow.not_ge
    rw [micros_exact hround hbits hless he, ← hsum]
    congr 1
    ring
  · -- both values are close to the same integer
    have hpow : (2 : ℚ) ^ (-34 : Int) ≤ 1 / 8 := by norm_num
    have hclose : |(whole * microsPerSecond + p.value : ℚ) - n| < 1 / 2 :=
      calc |(whole * microsPerSecond + p.value : ℚ) - n|
          = |((finite negative m e).value * microsPerSecond - n) +
              (p.value - microsPerSecond * y.value)| := by
            rw [← hsum]
            congr 1
            ring
        _ ≤ 1 / 4 + 1 / 8 := (abs_add_le _ _).trans (add_le_add hn (herror.trans hpow))
        _ < 1 / 2 := by norm_num
    have hclose' : |(finite negative m e).value * microsPerSecond - n| < 1 / 2 :=
      hn.trans_lt (by norm_num)
    rw [roundEven_eq_of_close hclose, roundEven_eq_of_close hclose']

/-! ### Durations made seconds -/

variable (d : Duration)

/-- The range of durations in seconds. -/
theorem abs_micros_lt : |(d.micros / microsPerSecond : ℚ)| < 2 ^ (47 : Int) := by
  have hvalid := d.valid
  unfold isDuration at hvalid
  have hbound : |d.micros| < 2 ^ 47 * (microsPerSecond : Int) := by
    rw [Bool.and_eq_true, decide_eq_true_eq, decide_eq_true_eq] at hvalid
    rw [abs_lt]
    unfold dayLimit microsPerDay microsPerSecond at *
    omega
  rw [abs_div, Nat.abs_cast, div_lt_iff₀ (by norm_num [microsPerSecond])]
  exact_mod_cast hbound

/-- The number of seconds of a duration below `2 ^ n` seconds is off by half a unit of the last of
53 bits, at most. -/
theorem totalSeconds_error {n : Int} (hn : 0 ≤ n) (hn' : n ≤ 47)
    (h : |(d.micros / microsPerSecond : ℚ)| < 2 ^ n) : d.totalSeconds.IsFinite ∧
      |d.totalSeconds.value * microsPerSecond - d.micros| ≤ 2 ^ (n - 54) * microsPerSecond := by
  have hpos : (0 : ℚ) < microsPerSecond := by norm_num [microsPerSecond]
  -- the seconds are the rounded quotient, whose error is multiplied back
  have hround : Rounds (d.micros / microsPerSecond) d.totalSeconds :=
    rounds_ofRatio d.micros (by decide)
  have hleast : leastExponent + 53 ≤ n := (show leastExponent + 53 ≤ 0 by decide).trans hn
  have hgreatest : n ≤ greatestExponent + 52 :=
    hn'.trans (show (47 : Int) ≤ greatestExponent + 52 by decide)
  obtain ⟨hfinite, herror⟩ := hround.error h hleast hgreatest
  refine ⟨hfinite, ?_⟩
  calc |d.totalSeconds.value * microsPerSecond - d.micros|
      = |d.totalSeconds.value - d.micros / microsPerSecond| * microsPerSecond := by
        rw [← abs_of_pos hpos, ← abs_mul, abs_of_pos hpos, sub_mul, div_mul_cancel₀ _ hpos.ne']
    _ ≤ 2 ^ (n - 54) * microsPerSecond := mul_le_mul_of_nonneg_right herror hpos.le

theorem isFinite_totalSeconds : d.totalSeconds.IsFinite :=
  (d.totalSeconds_error (by decide) (by decide) d.abs_micros_lt).1

/-- The number of seconds of a duration in microseconds, rounded to an integer. -/
def roundedMicros : Int := roundEven (d.totalSeconds.value * microsPerSecond)

/-- **The loss is in the seconds.** A number of seconds with the value of those of a duration is
made the duration of its rounded microseconds, if that is in range. -/
theorem ofParts?_totalSeconds {x : Binary64} (hx : x.IsFinite)
    (hvalue : x.value = d.totalSeconds.value) :
    ofParts? [(microsPerSecond, .fractional x)] =
      (ofMicroseconds? d.roundedMicros).elim (.error .outOfRange) .ok := by
  unfold roundedMicros
  rw [← hvalue]
  refine ofParts?_seconds hx ?_
  rw [hvalue]
  by_cases hsmall : |(d.micros / microsPerSecond : ℚ)| < 2 ^ (14 : Int)
  · -- a small number of seconds is close to a whole number of microseconds
    refine .inr ⟨d.micros, ((d.totalSeconds_error (by decide) (by decide) hsmall).2).trans ?_⟩
    norm_num [microsPerSecond]
  · -- and a large one stays large
    refine .inl ?_
    have hpos : (0 : ℚ) < microsPerSecond := by norm_num [microsPerSecond]
    rw [abs_div, Nat.abs_cast, not_lt, le_div_iff₀ hpos] at hsmall
    have herror := (d.totalSeconds_error (by decide) (by decide) d.abs_micros_lt).2
    have hsub := abs_sub_abs_le_abs_sub (d.micros : ℚ) (d.totalSeconds.value * microsPerSecond)
    rw [abs_sub_comm, abs_mul, Nat.abs_cast] at hsub
    have hpow : (2 : ℚ) ^ (14 : Int) - 2 ^ (47 - 54 : Int) ≥ 2 ^ (13 : Int) := by norm_num
    have hscaled := mul_le_mul_of_nonneg_right hpow hpos.le
    rw [sub_mul] at hscaled
    exact le_of_mul_le_mul_right (by linarith) hpos

/-- **Nothing is lost below `2 ^ 33` seconds**, where half a unit of the last bit is less than half
a microsecond. -/
theorem roundedMicros_of_lt (h : d.micros.natAbs < 2 ^ 33 * microsPerSecond) :
    d.roundedMicros = d.micros := by
  have hsmall : |(d.micros / microsPerSecond : ℚ)| < 2 ^ (33 : Int) := by
    rw [abs_div, Nat.abs_cast, div_lt_iff₀ (by norm_num [microsPerSecond])]
    have hcast : |(d.micros : ℚ)| = (d.micros.natAbs : Nat) := by
      rw [Nat.cast_natAbs, Int.cast_abs]
    rw [hcast]
    exact_mod_cast h
  refine roundEven_eq_of_close
    (((d.totalSeconds_error (by decide) (by decide) hsmall).2).trans_lt ?_)
  norm_num [microsPerSecond]

/-- **Nothing is lost of whole seconds.** -/
theorem roundedMicros_of_dvd (h : (microsPerSecond : Int) ∣ d.micros) :
    d.roundedMicros = d.micros := by
  obtain ⟨n, hn⟩ := h
  have hpos : (0 : ℚ) < microsPerSecond := by norm_num [microsPerSecond]
  have hquotient : (d.micros / microsPerSecond : ℚ) = n := by
    rw [hn]
    push_cast
    rw [mul_div_cancel_left₀ _ hpos.ne']
  have hrange := d.abs_micros_lt
  rw [hquotient] at hrange
  have hround : Rounds n d.totalSeconds :=
    hquotient ▸ rounds_ofRatio d.micros (by decide)
  have habs : |(n : ℚ)| = (n.natAbs : Nat) * 2 ^ (0 : Int) := by
    rw [zpow_zero, mul_one, Nat.cast_natAbs, Int.cast_abs]
  have hbits : n.natAbs < 2 ^ 53 := by
    have hlt : |n| < 2 ^ 47 := by exact_mod_cast hrange
    rw [Int.abs_eq_natAbs] at hlt
    omega
  -- an integer of so few bits is a floating point number
  obtain ⟨-, hvalue⟩ := hround.exact habs hbits (by decide) (by decide)
  have hmicros : d.totalSeconds.value * microsPerSecond = d.micros := by
    rw [hvalue, hn]
    push_cast
    exact mul_comm _ _
  rw [roundedMicros, hmicros, roundEven_intCast]

end Duration
end RecordQuery
