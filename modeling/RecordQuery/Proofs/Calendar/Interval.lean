import RecordQuery.Proofs.Calendar.Phrase
import RecordQuery.Proofs.Calendar.Seconds
import RecordQuery.Proofs.Written

/-!
# Intervals that read back

An interval is written in one of three shapes: whole seconds with their unit, negative whole seconds
without it, and any other number of seconds as a floating point number. The reader tries four forms
in turn. It takes the first shape for a shorthand, and the others for plain numbers, since nothing
that stands in a number is a colon or begins the name of a unit. Either way it reads the number of
seconds that was written, so whether the interval reads back is a matter of rounding alone.

* `Duration.readInterval_writeInterval` — what is read is the duration of
  `Duration.roundedMicros`.
* `duration_reads_back` — so an interval reads back exactly if these are its microseconds, as they
  are below `2 ^ 33` seconds and for whole seconds.
* `duration_not_read_back` — a microsecond that is lost.
-/

namespace RecordQuery

open Text Numeral

namespace Interval

variable {cs : List Char}

/-! ### Plain numbers -/

/-- A text in which there is neither a colon nor the letter of a unit, in any case variant. -/
def Unitless (cs : List Char) : Prop :=
  ∀ c ∈ cs, c ≠ ':' ∧ ∀ u ∈ TimeUnit.all, variantOf u.letter c = false

/-- Numbers are written without these. -/
theorem unitless_of_subset (h : cs ⊆ figures) : Unitless cs := by
  have hall : figures.all (fun c => c != ':' && TimeUnit.all.all fun u => !variantOf u.letter c) =
      true := rfl
  intro c hc
  have hfigure := List.all_eq_true.mp hall c (h hc)
  rw [Bool.and_eq_true, bne_iff_ne, List.all_eq_true] at hfigure
  exact ⟨hfigure.1, fun u hu => (Bool.not_eq_true' _).mp (hfigure.2 u hu)⟩

theorem subset_of_spanNumber? {number rest : List Char} (h : spanNumber? cs = some (number, rest)) :
    rest.dropWhile isBlank ⊆ cs := by
  obtain ⟨rfl, -⟩ := append_of_spanNumber? h
  exact List.Subset.trans (List.dropWhile_suffix _).subset (List.subset_append_right _ _)

/-- A shorthand is a number and the letter of a unit. -/
theorem shorthand?_eq_none (h : ∀ number rest c, spanNumber? cs = some (number, rest) →
    rest.dropWhile isBlank = [c] → ∀ u ∈ TimeUnit.all, variantOf u.letter c = false) :
    shorthand? cs = none := by
  unfold shorthand?
  cases hspan : spanNumber? cs with
  | none => rfl
  | some p =>
    simp only [Option.bind_eq_bind, Option.bind_some]
    split
    · next c hc =>
      -- the one character behind the number is no letter of a unit
      have hletter : (TimeUnit.all.map TimeUnit.letter).any (variantOf · c) = false := by
        rw [List.any_map, List.any_eq_false]
        exact fun u hu => Bool.eq_false_iff.mp (h p.1 p.2 c hspan hc u hu)
      simp only [hletter, Bool.false_eq_true, if_false]
    · rfl

/-- A clock begins with digits and a colon, after an optional minus. -/
theorem clock?_eq_none (h : ∀ ds rest, cs.span isDigit ≠ (ds, ':' :: rest))
    (hminus : ∀ more, cs = '-' :: more → ∀ ds rest, more.span isDigit ≠ (ds, ':' :: rest)) :
    clock? cs = none := by
  unfold clock?
  simp only [Option.bind_eq_bind]
  split
  · rfl
  · next hours =>
    -- hours and a colon were found, with or without a minus
    exfalso
    split at hours
    · exact hminus _ rfl _ _ hours
    · exact h _ _ hours
  · rfl

theorem shorthand?_of_unitless (h : Unitless cs) : shorthand? cs = none := by
  refine shorthand?_eq_none fun number rest c hspan hc => ?_
  have hmem : c ∈ cs := subset_of_spanNumber? hspan (by rw [hc]; exact List.mem_cons_self)
  exact (h c hmem).2

theorem clock?_of_unitless (h : Unitless cs) : clock? cs = none := by
  have hcolon : ':' ∉ cs := fun hmem => (h ':' hmem).1 rfl
  refine clock?_eq_none (fun ds rest hspan => ?_) fun more hcs ds rest hspan => ?_
  · rw [(append_of_span hspan).1] at hcolon
    exact hcolon (List.mem_append_right _ List.mem_cons_self)
  · rw [hcs, (append_of_span hspan).1] at hcolon
    exact hcolon (List.mem_cons_of_mem _ (List.mem_append_right _ List.mem_cons_self))

theorem phrase?_of_unitless (h : Unitless cs) : phrase? cs = none := by
  unfold phrase?
  cases hterms : terms? cs.length cs with
  | none => rfl
  | some ts =>
    cases terms?_eq_some_iff.mp hterms with
    | done _ => rfl
    | @more before gap rest t ts _ _ _ hword _ =>
      -- the name of a unit would begin with a variant of its letter
      obtain ⟨u, hword⟩ := hword
      obtain ⟨c, ds, hcons, hfirst⟩ := hword.exists_first
      have hmem : c ∈ before ++ (t.number ++ (gap ++ (t.word ++ rest))) := by simp [hcons]
      exact absurd hfirst (Bool.eq_false_iff.mp ((h c hmem).2 u u.mem_all))

/-- **Plain numbers.** A text without colon and unit is read as a number of seconds. -/
theorem readInterval_of_unitless (htrim : trim cs = cs) (h : Unitless cs) :
    Duration.readInterval cs = number cs := by
  unfold Duration.readInterval
  simp only [htrim, shorthand?_of_unitless h, clock?_of_unitless h, phrase?_of_unitless h]

/-! ### Whole seconds -/

/-- A natural number and the letter of seconds. -/
theorem shorthand?_second (n : Nat) : shorthand? (Nat.toDigits 10 n ++ ['s']) =
    some (sum [(microsPerSecond, .fractional (Binary64.ofDecimal false n 0))]) := by
  have hne : Nat.toDigits 10 n ≠ [] := Nat.toDigits_ne_nil
  have hdigits : ∀ c ∈ Nat.toDigits 10 n, isDigit c = true := by
    have hall : ∀ c ∈ digits 10, isDigit c = true := List.all_eq_true.mp rfl
    exact fun c hc => hall c (toDigits_subset (by decide) n hc)
  -- the number ends where the letter stands
  have hnumber : spanNumber? (Nat.toDigits 10 n ++ ['s']) = some (Nat.toDigits 10 n, ['s']) := by
    refine spanNumber?_append (.whole ⟨hne, hdigits⟩) ?_
    rintro c ⟨⟩
    decide
  have hvalue : numberValue (Nat.toDigits 10 n) = Binary64.ofDecimal false n 0 := by
    unfold numberValue
    rw [readDecimal?_toDigits]
  unfold shorthand?
  simp only [hnumber, Option.bind_eq_bind, Option.bind_some, hvalue]
  rfl

end Interval

namespace Duration

theorem ofMicroseconds?_eq_some_iff {n : Int} {d : Duration} :
    ofMicroseconds? n = some d ↔ n = d.micros := by
  unfold ofMicroseconds?
  constructor
  · intro h
    split at h
    · cases h
      rfl
    · cases h
  · rintro rfl
    rw [dif_pos d.valid]

/-- The sum of seconds with the value of those of a duration. -/
theorem sum_totalSeconds (d : Duration) {x : Binary64} (hx : x.IsFinite)
    (hvalue : x.value = d.totalSeconds.value) :
    Interval.sum [(microsPerSecond, .fractional x)] =
      (ofMicroseconds? d.roundedMicros).elim (.error .outOfRange) .ok := by
  unfold Interval.sum
  rw [d.ofParts?_totalSeconds hx hvalue]
  cases ofMicroseconds? d.roundedMicros <;> rfl

/-- What intervals are written with. -/
theorem writeInterval_subset (d : Duration) : d.writeInterval ⊆ figures ++ ['s'] := by
  unfold writeInterval
  simp only
  cases d.totalSeconds.toInt? with
  | some n =>
    simp only
    split
    · exact List.append_subset.mpr
        ⟨List.subset_append_of_subset_left _ (signed_subset_figures n),
          List.subset_append_right _ _⟩
    · exact List.subset_append_of_subset_left _ (signed_subset_figures n)
  | none =>
    -- the seconds are no whole number here, but still finite
    obtain ⟨negative, m, e, hx, -⟩ := d.isFinite_totalSeconds.exists_eq
    rw [hx]
    exact List.subset_append_of_subset_left _ (Binary64.render_finite_subset negative m e)

theorem solid_writeInterval (d : Duration) : Solid d.writeInterval :=
  .of_subset d.writeInterval_subset (List.all_eq_true.mp rfl)

theorem readInterval_of_read? {cs : List Char} {x : Binary64} (h : cs ⊆ figures)
    (hread : Binary64.read? cs = some x) :
    readInterval cs = Interval.sum [(microsPerSecond, .fractional x)] := by
  have hsolid : Solid cs := .of_subset h (List.all_eq_true.mp rfl)
  rw [Interval.readInterval_of_unitless hsolid.trim_eq_self (Interval.unitless_of_subset h)]
  unfold Interval.number
  rw [hread]
  rfl

/-- A whole number of seconds in an interval. -/
theorem readInterval_second (n : Nat) : readInterval (Nat.toDigits 10 n ++ ['s']) =
    Interval.sum [(microsPerSecond, .fractional (Binary64.ofDecimal false n 0))] := by
  have hsubset : Nat.toDigits 10 n ++ ['s'] ⊆ figures ++ ['s'] :=
    List.append_subset.mpr ⟨List.subset_append_of_subset_left _ (toDigits_subset_figures n),
      List.subset_append_right _ _⟩
  have hsolid : Solid (Nat.toDigits 10 n ++ ['s']) :=
    .of_subset hsubset (List.all_eq_true.mp rfl)
  unfold readInterval
  simp only [hsolid.trim_eq_self, Interval.shorthand?_second]

/-- The text of an interval is read as a number of seconds with the value of those of the
interval. -/
theorem exists_readInterval (d : Duration) : ∃ x : Binary64, x.IsFinite ∧
    x.value = d.totalSeconds.value ∧
    readInterval d.writeInterval = Interval.sum [(microsPerSecond, .fractional x)] := by
  have hfinite := d.isFinite_totalSeconds
  unfold writeInterval
  simp only
  cases hinteger : d.totalSeconds.toInt? with
  | some n =>
    -- whole seconds are written as an integer, which is read as the number that it is
    have hvalue := Binary64.value_of_toInt? hfinite hinteger
    obtain ⟨hread, hsame⟩ := Binary64.ofDecimal_of_value hfinite hvalue
    refine ⟨_, hread, hsame, ?_⟩
    simp only
    by_cases hn : 0 ≤ n
    · have hdigits : signed n = Nat.toDigits 10 n.natAbs := by
        rw [signed, if_neg (not_lt.mpr hn), List.nil_append]
      rw [if_pos hn, hdigits, decide_eq_false (not_lt.mpr hn)]
      exact readInterval_second n.natAbs
    · rw [if_neg hn]
      exact readInterval_of_read? (signed_subset_figures n) (Binary64.read?_signed n)
  | none =>
    -- other seconds are written with all digits that the number needs to be read back
    refine ⟨d.totalSeconds, hfinite, rfl, ?_⟩
    simp only
    obtain ⟨negative, m, e, hx, hcanonical⟩ := hfinite.exists_eq
    rw [hx]
    exact readInterval_of_read? (Binary64.render_finite_subset negative m e)
      (Binary64.read?_render hcanonical negative)

/-- **Intervals are read as what they were rounded to.** -/
theorem readInterval_writeInterval (d : Duration) : readInterval d.writeInterval =
    (ofMicroseconds? d.roundedMicros).elim (.error .outOfRange) .ok := by
  obtain ⟨x, hx, hvalue, hread⟩ := d.exists_readInterval
  rw [hread, d.sum_totalSeconds hx hvalue]

end Duration

/-! ### Columns of intervals -/

/-- What the raw text of an interval is read as, in a column of intervals. -/
theorem Schema.coerce_duration (s : Schema) (d : Duration) :
    let raw := RawText.plain (String.ofList d.writeInterval)
    s.coerce raw (.scalar .duration) .eq =
      (Duration.ofMicroseconds? d.roundedMicros).elim
        (.error (.coercion raw "timedelta" .malformed)) (fun e => .ok (.duration e)) := by
  intro raw
  -- the empty text would be refused for another reason
  have hne : d.writeInterval ≠ [] := by
    intro hnil
    have hread := d.readInterval_writeInterval
    have hempty : Duration.readInterval [] = .error .unrecognised := rfl
    rw [hnil, hempty] at hread
    cases hrange : Duration.ofMicroseconds? d.roundedMicros with
    | some e =>
      rw [hrange] at hread
      cases hread
    | none =>
      rw [hrange] at hread
      cases hread
  have hscalar : ∀ r, s.coerce r (.scalar .duration) .eq = s.coerceScalar r (.scalar .duration) :=
    fun _ => rfl
  rw [hscalar, coerceScalar_eq_coerceText rfl d.solid_writeInterval.trim_eq_self hne]
  unfold Schema.coerceText
  simp only [d.readInterval_writeInterval]
  cases Duration.ofMicroseconds? d.roundedMicros with
  | some e => rfl
  | none => rfl

/-- **Reading back.** The text of an interval is read as the interval of its rounded microseconds,
and refused if that is out of range. So it reads back exactly if the rounding of the seconds can be
undone, as it can be below `2 ^ 33` seconds and for whole seconds. -/
theorem duration_reads_back (s : Schema) (d : Duration) :
    ∃ raw, (Value.duration d).written = .ok raw ∧
      s.coerce raw (.scalar .duration) .eq =
        (Duration.ofMicroseconds? d.roundedMicros).elim
          (.error (.coercion raw "timedelta" .malformed)) (fun e => .ok (.duration e)) ∧
      (s.coerce raw (.scalar .duration) .eq = .ok (.duration d) ↔ d.roundedMicros = d.micros) ∧
      (d.micros.natAbs < 2 ^ 33 * microsPerSecond ∨ (microsPerSecond : Int) ∣ d.micros →
        s.coerce raw (.scalar .duration) .eq = .ok (.duration d)) := by
  have hread := s.coerce_duration d
  have hback : s.coerce (.plain (String.ofList d.writeInterval)) (.scalar .duration) .eq =
      .ok (.duration d) ↔ d.roundedMicros = d.micros := by
    rw [hread]
    cases hrange : Duration.ofMicroseconds? d.roundedMicros with
    | some e =>
      have he := Duration.ofMicroseconds?_eq_some_iff.mp hrange
      constructor
      · intro h
        obtain rfl : e = d := Value.duration.inj (Except.ok.inj h)
        exact he
      · intro h
        have hd := Duration.ofMicroseconds?_eq_some_iff.mpr h
        obtain rfl := Option.some.inj (hrange.symm.trans hd)
        rfl
    | none =>
      -- the interval itself is in range
      have hne : d.roundedMicros ≠ d.micros := by
        intro h
        rw [Duration.ofMicroseconds?_eq_some_iff.mpr h] at hrange
        cases hrange
      exact iff_of_false (fun h => by cases h) hne
  refine ⟨_, rfl, hread, hback, ?_⟩
  rintro (hsmall | hwhole)
  · exact hback.mpr (d.roundedMicros_of_lt hsmall)
  · exact hback.mpr (d.roundedMicros_of_dvd hwhole)

/-- Intervals before zero, in both shapes that are read as plain numbers. -/
theorem duration_reads_back_of_countdown :
    let short : Duration := ⟨-1500000, by decide⟩
    let long : Duration := ⟨-2 ^ 40 * microsPerSecond, by decide⟩
    ∃ raw raw', (Value.duration short).written = .ok raw ∧
      Schema.empty.coerce raw (.scalar .duration) .eq = .ok (.duration short) ∧
      (Value.duration long).written = .ok raw' ∧
      Schema.empty.coerce raw' (.scalar .duration) .eq = .ok (.duration long) := by
  intro short long
  obtain ⟨raw, hraw, -, -, hshort⟩ := duration_reads_back .empty short
  obtain ⟨raw', hraw', -, -, hlong⟩ := duration_reads_back .empty long
  exact ⟨raw, raw', hraw, hshort (.inl (by decide)), hraw', hlong (.inr (by decide))⟩

/-- **The first interval that is lost.** From `2 ^ 33` seconds on, the floating point numbers are
almost two microseconds apart. -/
theorem duration_not_read_back :
    let before : Duration := ⟨8589934592 * microsPerSecond + 1, by decide⟩
    let after : Duration := ⟨8589934592 * microsPerSecond + 2, by decide⟩
    (Value.duration before).written = .ok (.plain "8589934592.000002") ∧
      Schema.empty.coerce (.plain "8589934592.000002") (.scalar .duration) .eq =
        .ok (.duration after) ∧ after ≠ before := by
  intro before after
  have hseconds : before.totalSeconds = .finite false 4503599627370497 (-19) := by
    decide +kernel
  have htext : String.ofList before.writeInterval = "8589934592.000002" := by
    have hdigits : before.writeInterval = ['8', '5', '8', '9', '9', '3', '4', '5', '9', '2', '.',
        '0', '0', '0', '0', '0', '2'] := by decide +kernel
    rw [hdigits]
  -- the number nearest to the seconds lies nearer to the next microsecond
  have hmicros : before.roundedMicros = after.micros := by
    rw [Duration.roundedMicros, hseconds]
    apply roundEven_eq_of_close
    norm_num [Binary64.value, Binary64.withSign, after, microsPerSecond, abs_lt]
  refine ⟨?_, ?_, by decide⟩
  · rw [← htext]
    rfl
  · rw [← htext, Schema.coerce_duration, Duration.ofMicroseconds?_eq_some_iff.mpr hmicros]
    rfl

end RecordQuery
