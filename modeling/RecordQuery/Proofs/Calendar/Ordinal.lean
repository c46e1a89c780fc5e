import Mathlib.Data.Nat.ModEq
import RecordQuery.Value.Attribute

/-!
# Day numbers

Days are numbered from the first of January of year 1 on, and `Date.ofOrdinal?` finds the day of a
number: first the year, by a guess from the mean length of a year, and then the month, by going
through the months. Both searches stop where the number of days before is the last one that is not
too large, and this fixes the day.

* `Date.exists_ofOrdinal?` — within the calendar every number is the number of the day that is
  found for it.
* `DateTime.exists_toUniversal?` — a moment whose instant lies within the calendar at offset zero is
  moved there without changing the instant.
-/

namespace RecordQuery

namespace Date

/-! ### Lengths of months and years -/

section

variable (year : Nat)

theorem daysBeforeMonth_succ {month : Nat} (hmonth : 0 < month) :
    daysBeforeMonth year (month + 1) = daysBeforeMonth year month + daysInMonth year month := by
  obtain ⟨m, rfl⟩ := Nat.exists_eq_succ_of_ne_zero (Nat.ne_of_gt hmonth)
  show (List.range (m + 1)).foldl (fun days k => days + daysInMonth year (k + 1)) 0 = _
  rw [List.range_succ, List.foldl_append]
  rfl

theorem daysBeforeMonth_thirteen :
    daysBeforeMonth year 13 = if isLeapYear year then 366 else 365 := by
  have hmonths : List.range (13 - 1) = [0, 1, 2, 3, 4, 5, 6, 7, 8, 9, 10, 11] := rfl
  simp only [daysBeforeMonth, hmonths, List.foldl_cons, List.foldl_nil, daysInMonth]
  cases isLeapYear year <;> rfl

/-- The days of a year, as the quotients that count the leap days before it say. -/
theorem daysBeforeYear_succ (y : Nat) :
    daysBeforeYear (y + 1 + 1) = daysBeforeYear (y + 1) + daysBeforeMonth (y + 1) 13 := by
  -- each quotient grows by one where the year is a multiple
  have hstep : ∀ k, (y + 1) / k = y / k + if (y + 1) % k = 0 then 1 else 0 := by
    intro k
    rw [Nat.succ_div]
    simp only [Nat.dvd_iff_mod_eq_zero]
  have hless : y / 100 ≤ y / 4 := Nat.div_le_div_left (by decide) (by decide)
  have hcentury : (y + 1) % 100 = 0 → (y + 1) % 4 = 0 := by omega
  have hcycle : (y + 1) % 400 = 0 → (y + 1) % 100 = 0 := by omega
  rw [daysBeforeMonth_thirteen]
  simp only [daysBeforeYear, Nat.add_sub_cancel, hstep, isLeapYear]
  generalize y / 4 = q4, y / 100 = q100, y / 400 = q400 at *
  by_cases h4 : (y + 1) % 4 = 0
  · by_cases h100 : (y + 1) % 100 = 0
    · by_cases h400 : (y + 1) % 400 = 0 <;> simp [h4, h100, h400] <;> omega
    · have h400 : ¬ (y + 1) % 400 = 0 := fun h => h100 (hcycle h)
      simp [h4, h100, h400]
      omega
  · have h100 : ¬ (y + 1) % 100 = 0 := fun h => h4 (hcentury h)
    have h400 : ¬ (y + 1) % 400 = 0 := fun h => h100 (hcycle h)
    simp [h4, h100, h400]
    omega

end

/-! ### The two searches -/

/-- The year that is found is the last one with no more days before it. -/
theorem yearAfter_spec (days : Nat) :
    0 < yearAfter days ∧ daysBeforeYear (yearAfter days) ≤ days ∧
      days < daysBeforeYear (yearAfter days + 1) := by
  unfold yearAfter
  simp only
  split
  · next hlow =>
    -- the guess is one year too late
    simp only [daysBeforeYear] at hlow ⊢
    omega
  · next hlow =>
    split
    · next hhigh =>
      -- the guess is one year too early
      simp only [daysBeforeYear] at hhigh ⊢
      omega
    · next hhigh => exact ⟨Nat.succ_pos _, Nat.le_of_not_lt hlow, Nat.lt_of_not_le hhigh⟩

/-- The month that is found holds the day, as long as some month of those that are left does. -/
theorem monthAfter_spec (year : Nat) : ∀ (left : Nat) {month days : Nat}, 0 < month →
    daysBeforeMonth year month + days < daysBeforeMonth year (month + left + 1) →
    ∃ m d, monthAfter year left month days = (m, d) ∧ 0 < m ∧ m ≤ month + left ∧ 0 < d ∧
      d ≤ daysInMonth year m ∧
      daysBeforeMonth year m + d = daysBeforeMonth year month + days + 1 := by
  -- from month to month the number of the day within the year stays what it is
  intro left
  induction left with
  | zero =>
    intro month days hmonth hdays
    rw [Nat.add_zero, daysBeforeMonth_succ year hmonth] at hdays
    exact ⟨month, days + 1, rfl, hmonth, Nat.le_refl _, Nat.succ_pos _, by omega, by omega⟩
  | succ left ih =>
    intro month days hmonth hdays
    unfold monthAfter
    simp only
    split
    · next hshort =>
      exact ⟨month, days + 1, rfl, hmonth, Nat.le_add_right _ _, Nat.succ_pos _, hshort, by omega⟩
    · next hlong =>
      -- the days of this month are taken off, and the search goes on in the next one
      have hnext := daysBeforeMonth_succ year hmonth
      have hrest : daysBeforeMonth year (month + 1) + (days - daysInMonth year month) =
          daysBeforeMonth year month + days := by omega
      have hleft : month + 1 + left + 1 = month + (left + 1) + 1 := by omega
      obtain ⟨m, d, hfound, hm, hle, hd, hlength, hsum⟩ :=
        ih (Nat.succ_pos month) (by rw [hrest, hleft]; exact hdays)
      exact ⟨m, d, hfound, hm, by omega, hd, hlength, by rw [hsum, hrest]⟩

/-- **Days of numbers.** From the first to the last day of the calendar every number is that of the
day which is found for it. -/
theorem exists_ofOrdinal? {n : Int} (hfirst : (bounds.1.ordinal : Int) ≤ n)
    (hlast : n ≤ bounds.2.ordinal) : ∃ d, ofOrdinal? n = some d ∧ (d.ordinal : Int) = n := by
  have hfirst' : 1 ≤ n := hfirst
  have hlast' : n ≤ 3652059 := hlast
  obtain ⟨hpos, hle, hlt⟩ := yearAfter_spec (n.toNat - 1)
  obtain ⟨y, hy⟩ : ∃ y, yearAfter (n.toNat - 1) = y + 1 :=
    Nat.exists_eq_succ_of_ne_zero (Nat.ne_of_gt hpos)
  rw [hy] at hle hlt
  -- ten thousand years have more days than the number
  have hyear : y + 1 ≤ 9999 := by
    by_contra hlarge
    simp only [daysBeforeYear] at hle
    omega
  have hbefore : daysBeforeMonth (y + 1) 1 = 0 := rfl
  rw [daysBeforeYear_succ] at hlt
  have hinside : daysBeforeMonth (y + 1) 1 + (n.toNat - 1 - daysBeforeYear (y + 1)) <
      daysBeforeMonth (y + 1) (1 + 11 + 1) := by
    show _ < daysBeforeMonth (y + 1) 13
    omega
  obtain ⟨month, day, hfound, hmonth, hmonth', hday, hday', hsum⟩ :=
    monthAfter_spec (y + 1) 11 Nat.one_pos hinside
  have hvalid : isDate (y + 1) month day = true := by
    unfold isDate
    simp only [Bool.and_eq_true, decide_eq_true_eq]
    omega
  refine ⟨⟨y + 1, month, day, hvalid⟩, ?_, ?_⟩
  · -- the day is the one that the two searches lead to
    rw [ofOrdinal?, if_neg (by omega)]
    simp only [hy, hfound, make?, dif_pos hvalid]
  · show ((daysBeforeYear (y + 1) + daysBeforeMonth (y + 1) month + day : Nat) : Int) = n
    omega

end Date

/-! ### Moments -/

theorem Clock.exists_ofMicros? {n : Nat} (h : n < microsPerDay) :
    ∃ c, ofMicros? n = some c ∧ c.micros = n := by
  have hday : n < 86400000000 := h
  have hvalid : isClock (n / 1000000 / 3600) (n / 1000000 / 60 % 60) (n / 1000000 % 60)
      (n % 1000000) = true := by
    unfold isClock
    simp only [Bool.and_eq_true, decide_eq_true_eq]
    omega
  refine ⟨⟨_, _, _, _, hvalid⟩, dif_pos hvalid, ?_⟩
  unfold micros
  simp only
  omega

namespace DateTime

/-- Whether a number of microseconds, counted as `localMicros` does, lies on a day of the
calendar. -/
def InCalendar (n : Int) : Prop :=
  (Date.bounds.1.ordinal : Int) ≤ n / microsPerDay ∧ n / microsPerDay ≤ Date.bounds.2.ordinal

theorem exists_ofLocalMicros? {n : Int} (h : InCalendar n) (offset : Option Offset) :
    ∃ m, ofLocalMicros? n offset = some m ∧ m.localMicros = n ∧ m.offset = offset := by
  have hpos : (0 : Int) < microsPerDay := by decide
  have hrest := Int.emod_nonneg n (Int.ne_of_gt hpos)
  have hsum := Int.mul_ediv_add_emod n microsPerDay
  -- day and time of the day are quotient and remainder
  obtain ⟨date, hdate, hordinal⟩ := Date.exists_ofOrdinal? h.1 h.2
  obtain ⟨clock, hclock, hmicros⟩ := Clock.exists_ofMicros? (n := (n % microsPerDay).toNat) (by
    have hlt := Int.emod_lt_of_pos n hpos
    omega)
  refine ⟨⟨date, clock, offset⟩, ?_, ?_, rfl⟩
  · rw [ofLocalMicros?, hdate, Option.bind_eq_bind, Option.bind_some, hclock]
    rfl
  · show (date.ordinal : Int) * microsPerDay + clock.micros = n
    rw [hordinal, hmicros, Int.toNat_of_nonneg hrest, Int.mul_comm]
    exact hsum

/-- **Moments at offset zero.** A moment with an offset whose instant lies within the calendar at
offset zero is moved to this instant. -/
theorem exists_toUniversal? {m : DateTime} {o : Offset} (ho : m.offset = some o)
    (h : InCalendar (m.localMicros - o.micros)) :
    ∃ n, m.toUniversal? = some n ∧ n.localMicros = m.localMicros - o.micros ∧
      n.offset = some Offset.universal := by
  rw [toUniversal?, ho]
  exact exists_ofLocalMicros? h (some Offset.universal)

end DateTime
end RecordQuery
