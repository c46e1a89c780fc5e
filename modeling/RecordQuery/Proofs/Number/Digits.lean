import Mathlib.Data.List.Induction
import Mathlib.Tactic.IntervalCases
import Mathlib.Tactic.Ring
import RecordQuery.Number.Numeral

/-!
# Digits that read back

Numbers are written in digits and read digit by digit. Between the two stands the list of digit
values, the most significant first: `exists_digits` and `natOfDigits_append` are all that later
modules know about it.

* `Numeral.exists_digits` — what is written for a number is the list of its digits.
* `Numeral.toDigits_inj`, `Numeral.signed_inj` — different numbers are written differently.
* `Numeral.readDecimal?_whole`, `Numeral.readDecimal?_point` — what a decimal numeral denotes, by
  the digits before and after its point and by its exponent.
-/

namespace RecordQuery

open Text

/-! ### Digit values -/

section

variable {b d d' : Nat}

theorem digitValue?_digitChar (hd : d < 10) : digitValue? d.digitChar = some d := by
  interval_cases d <;> rfl

theorem digitIn?_digitChar (hb : b ≤ 16) (hd : d < b) :
    Numeral.digitIn? b d.digitChar = some d := by
  have hlt : d < 16 := by omega
  have hvalue : Numeral.digitIn? b d.digitChar = (some d).filter (· < b) := by
    interval_cases d <;> rfl
  rw [hvalue]
  exact Option.filter_some_pos (decide_eq_true hd)

theorem digitChar_inj (hd : d < 16) (hd' : d' < 16) (h : d.digitChar = d'.digitChar) : d = d' := by
  have hread := digitIn?_digitChar (Nat.le_refl 16) hd
  rw [h, digitIn?_digitChar (Nat.le_refl 16) hd'] at hread
  exact (Option.some.inj hread).symm

end

namespace Text

theorem natOfDigits_append (b : Nat) (ds es : List Nat) :
    natOfDigits b (ds ++ es) = natOfDigits b ds * b ^ es.length + natOfDigits b es := by
  induction es using List.reverseRecOn with
  | nil => simp [natOfDigits]
  | append_singleton es e ih =>
    -- induction from the right, since a number is read by appending digits
    have hsnoc : ∀ xs : List Nat, natOfDigits b (xs ++ [e]) = natOfDigits b xs * b + e := by
      intro xs
      simp [natOfDigits]
    rw [← List.append_assoc, hsnoc, hsnoc, ih, List.length_append, List.length_singleton]
    ring

@[simp] theorem natOfDigits_nil (b : Nat) : natOfDigits b [] = 0 := rfl

@[simp] theorem natOfDigits_singleton (b d : Nat) : natOfDigits b [d] = d := by
  simp [natOfDigits]

@[simp] theorem natOfDigits_zeros (b k : Nat) : natOfDigits b (List.replicate k 0) = 0 := by
  induction k with
  | zero => rfl
  | succ k ih => simpa [natOfDigits, List.replicate_succ] using ih

/-- Digits denote a number that they suffice for. -/
theorem natOfDigits_lt {b : Nat} : ∀ {ds : List Nat}, (∀ d ∈ ds, d < b) →
    natOfDigits b ds < b ^ ds.length := by
  intro ds
  induction ds using List.reverseRecOn with
  | nil => exact fun _ => Nat.one_pos
  | append_singleton ds d ih =>
    -- the last digit is added to a multiple of the base
    intro h
    have hrest := ih fun e he => h e (List.mem_append_left [d] he)
    have hlast : d < b := h d (List.mem_append_right ds (List.mem_singleton_self d))
    rw [natOfDigits_append, natOfDigits_singleton, List.length_append, List.length_singleton,
      pow_one, pow_succ]
    calc
      natOfDigits b ds * b + d < natOfDigits b ds * b + b := Nat.add_lt_add_left hlast _
      _ = (natOfDigits b ds + 1) * b := (Nat.succ_mul _ b).symm
      _ ≤ b ^ ds.length * b := Nat.mul_le_mul_right b hrest

end Text

namespace Numeral

/-- The digit characters of some digit values. -/
def chars (ds : List Nat) : List Char := ds.map Nat.digitChar

@[simp] theorem chars_cons (d : Nat) (ds : List Nat) : chars (d :: ds) = d.digitChar :: chars ds :=
  rfl

@[simp] theorem chars_append (ds es : List Nat) : chars (ds ++ es) = chars ds ++ chars es :=
  List.map_append

@[simp] theorem length_chars (ds : List Nat) : (chars ds).length = ds.length := List.length_map _

theorem chars_zeros (k : Nat) : chars (List.replicate k 0) = List.replicate k '0' :=
  List.map_replicate

/-- **Written numbers.** What is written for a number in a base is a list of digits of the base
with this number as their value. -/
theorem exists_digits {b : Nat} (hb : 1 < b) (n : Nat) :
    ∃ ds, Nat.toDigits b n = chars ds ∧ (∀ d ∈ ds, d < b) ∧ natOfDigits b ds = n := by
  induction n using Nat.strong_induction_on with
  | _ n ih =>
    by_cases hn : n < b
    · -- a single digit
      refine ⟨[n], Nat.toDigits_of_lt_base hn, ?_, natOfDigits_singleton b n⟩
      intro d hd
      rw [List.mem_singleton.mp hd]
      exact hn
    · -- the last digit is the remainder, the others are those of the quotient
      have hle : b ≤ n := Nat.le_of_not_lt hn
      obtain ⟨ds, hds, hlt, hvalue⟩ := ih (n / b) (Nat.div_lt_self (by omega) hb)
      refine ⟨ds ++ [n % b], ?_, ?_, ?_⟩
      · rw [Nat.toDigits_of_base_le hb hle, hds, chars_append]
        rfl
      · intro d hd
        obtain hd | hd := List.mem_append.mp hd
        · exact hlt d hd
        · rw [List.mem_singleton.mp hd]
          exact Nat.mod_lt n (by omega)
      · rw [natOfDigits_append, hvalue, natOfDigits_singleton, List.length_singleton, pow_one,
          Nat.mul_comm]
        exact Nat.div_add_mod n b

/-- Digit characters determine their values. -/
theorem chars_inj : ∀ {ds es : List Nat}, (∀ d ∈ ds, d < 16) → (∀ d ∈ es, d < 16) →
    chars ds = chars es → ds = es
  | [], [], _, _, _ => rfl
  | [], _ :: _, _, _, h => by cases h
  | _ :: _, [], _, _, h => by cases h
  | d :: ds, e :: es, hds, hes, h => by
    obtain ⟨hfirst, hrest⟩ := List.cons_eq_cons.mp h
    have hd : d = e := digitChar_inj (hds d List.mem_cons_self) (hes e List.mem_cons_self) hfirst
    have htail : ds = es := chars_inj (fun d hd => hds d (List.mem_cons_of_mem _ hd))
      (fun d hd => hes d (List.mem_cons_of_mem _ hd)) hrest
    rw [hd, htail]

/-- Different numbers are written differently, also with zeros in front. -/
theorem padded_inj {b : Nat} (hb : 1 < b) (hb' : b ≤ 16) {j k m n : Nat}
    (h : List.replicate j '0' ++ Nat.toDigits b m = List.replicate k '0' ++ Nat.toDigits b n) :
    m = n := by
  obtain ⟨ds, hds, hlt, rfl⟩ := exists_digits hb m
  obtain ⟨es, hes, hlt', rfl⟩ := exists_digits hb n
  rw [hds, hes, ← chars_zeros, ← chars_zeros, ← chars_append, ← chars_append] at h
  -- zeros in front are digits as well, and do not change the value
  have hsmall : ∀ (i : Nat) (xs : List Nat), (∀ d ∈ xs, d < b) →
      ∀ d ∈ List.replicate i 0 ++ xs, d < 16 := by
    intro i xs hxs d hd
    obtain hd | hd := List.mem_append.mp hd
    · rw [List.eq_of_mem_replicate hd]
      decide
    · exact Nat.lt_of_lt_of_le (hxs d hd) hb'
  have hsame := congrArg (natOfDigits b) (chars_inj (hsmall j ds hlt) (hsmall k es hlt') h)
  simpa only [natOfDigits_append, natOfDigits_zeros, Nat.zero_mul, Nat.zero_add] using hsame

/-- What a number is written with are digits. -/
theorem isSome_digitIn? {b : Nat} (hb : 1 < b) (hb' : b ≤ 16) {k n : Nat} {c : Char}
    (hc : c ∈ List.replicate k '0' ++ Nat.toDigits b n) : (digitIn? 16 c).isSome = true := by
  obtain hc | hc := List.mem_append.mp hc
  · rw [List.eq_of_mem_replicate hc]
    rfl
  · obtain ⟨ds, hds, hlt, -⟩ := exists_digits hb n
    rw [hds] at hc
    obtain ⟨d, hd, rfl⟩ := List.mem_map.mp hc
    rw [digitIn?_digitChar (Nat.le_refl 16) (Nat.lt_of_lt_of_le (hlt d hd) hb')]
    rfl

theorem toDigits_inj {b : Nat} (hb : 1 < b) (hb' : b ≤ 16) {m n : Nat}
    (h : Nat.toDigits b m = Nat.toDigits b n) : m = n :=
  padded_inj hb hb' (j := 0) (k := 0) h

theorem signed_inj {m n : Int} (h : signed m = signed n) : m = n := by
  have hdigits : ∀ k : Nat, '-' ∉ Nat.toDigits 10 k := by
    intro k hmem
    have hdigit := Nat.isDigit_of_mem_toDigits (by decide) (Nat.le_refl 10) hmem
    exact absurd hdigit (by decide)
  unfold signed at h
  split at h <;> split at h
  · have habs := toDigits_inj (by decide) (by decide) (List.append_cancel_left h)
    omega
  · -- only one of the numbers has a minus sign, which is no digit
    rw [List.nil_append] at h
    exact absurd (List.mem_append_left _ List.mem_cons_self) (h ▸ hdigits n.natAbs)
  · rw [List.nil_append] at h
    exact absurd (List.mem_append_left _ List.mem_cons_self) (h.symm ▸ hdigits m.natAbs)
  · have habs := toDigits_inj (by decide) (by decide) (List.append_cancel_left h)
    omega

/-! ### Reading -/

/-- No decimal digit stands at the beginning. -/
def NoDigit (cs : List Char) : Prop := ∀ c ∈ cs.head?, digitValue? c = none

theorem noDigit_nil : NoDigit [] := nofun

theorem noDigit_cons {c : Char} {cs : List Char} (h : digitValue? c = none) : NoDigit (c :: cs) := by
  intro d hd
  cases hd
  exact h

/-- The leading digits of a text end where a character is none. -/
theorem spanDigits_chars {rest : List Char} (hrest : NoDigit rest) :
    ∀ {ds : List Nat}, (∀ d ∈ ds, d < 10) → spanDigits (chars ds ++ rest) = (ds, rest)
  | [], _ => by
    cases rest with
    | nil => rfl
    | cons c cs =>
      show spanDigits (c :: cs) = ([], c :: cs)
      rw [spanDigits, hrest c rfl]
  | d :: ds, hds => by
    have htail := spanDigits_chars hrest fun e he => hds e (List.mem_cons_of_mem d he)
    rw [chars_cons, List.cons_append, spanDigits,
      digitValue?_digitChar (hds d List.mem_cons_self), htail]

theorem spanFraction_of_ne {cs : List Char} (h : cs.head? ≠ some '.') :
    spanFraction cs = ([], cs) := by
  unfold spanFraction
  split
  · exact absurd rfl h
  · rfl

/-- A decimal numeral by its three parts. -/
theorem readDecimal?_of_parts {cs rest tail : List Char} {ws fs : List Nat}
    (whole : spanDigits cs = (ws, rest)) (fraction : spanFraction rest = (fs, tail))
    (hne : ws ≠ []) :
    readDecimal? cs =
      (exponentTail? tail).map fun e => (natOfDigits 10 (ws ++ fs), -(fs.length : Int) + e) := by
  obtain ⟨w, us, rfl⟩ := List.exists_cons_of_ne_nil hne
  unfold readDecimal?
  rw [whole]
  simp only [fraction]
  rfl

theorem readDecimal?_whole {ws : List Nat} (tail : List Char) (hws : ∀ d ∈ ws, d < 10)
    (hne : ws ≠ []) (htail : NoDigit tail) (hpoint : tail.head? ≠ some '.') :
    readDecimal? (chars ws ++ tail) =
      (exponentTail? tail).map fun e => (natOfDigits 10 ws, e) := by
  have hparts := readDecimal?_of_parts (spanDigits_chars htail hws) (spanFraction_of_ne hpoint) hne
  simpa only [List.append_nil, List.length_nil, Int.natCast_zero, Int.neg_zero, Int.zero_add]
    using hparts

theorem readDecimal?_point (ws fs : List Nat) (tail : List Char) (hws : ∀ d ∈ ws, d < 10)
    (hfs : ∀ d ∈ fs, d < 10) (hne : ws ≠ []) (htail : NoDigit tail) :
    readDecimal? (chars ws ++ '.' :: (chars fs ++ tail)) =
      (exponentTail? tail).map fun e => (natOfDigits 10 (ws ++ fs), -(fs.length : Int) + e) :=
  readDecimal?_of_parts (spanDigits_chars (noDigit_cons rfl) hws) (spanDigits_chars htail hfs) hne

/-- An exponent of ten with its mark and its sign. -/
theorem exponentTail?_signed {mark : Char} (hmark : mark = 'e' ∨ mark = 'E') {ds : List Nat}
    (hds : ∀ d ∈ ds, d < 10) (hne : ds ≠ []) (negative : Bool) :
    exponentTail? (mark :: (if negative then '-' else '+') :: chars ds) =
      some (if negative then -(natOfDigits 10 ds : Int) else natOfDigits 10 ds) := by
  have hspan := spanDigits_chars noDigit_nil hds
  rw [List.append_nil] at hspan
  obtain ⟨d, es, rfl⟩ := List.exists_cons_of_ne_nil hne
  have hmark' : (mark = 'e' || mark = 'E') = true := by
    obtain rfl | rfl := hmark <;> rfl
  rw [exponentTail?, if_pos hmark', readExponent?]
  -- both signs are written, and either is taken off before the digits
  cases negative with
  | true =>
    rw [if_pos rfl, if_pos rfl, spanSign, if_pos rfl]
    simp only [hspan, if_true]
  | false =>
    rw [if_neg Bool.false_ne_true, if_neg Bool.false_ne_true, spanSign, if_neg (by decide),
      if_pos rfl]
    simp only [hspan, Bool.false_eq_true, if_false]

end Numeral
end RecordQuery
