import RecordQuery.Coercion
import RecordQuery.Proofs.Calendar.Interval
import RecordQuery.Proofs.Calendar.Phrase

/-!
# Units that are looked up

The reader of intervals matches the letter or the name of a unit in any letter case, and looks it up
in lower case. The two do not agree on three letters: the long s and the two odd letters i match the
letters s and i, but are no such letters in lower case. So a text may have the shape of a shorthand
or of a phrase and still name no unit. This is a fault of the look-up, and the text is not refused
as one that is no interval.

* `Interval.unit?_eq_none_iff` — a name that matches and is not found has a stray letter.
* `Interval.LongSecond`, `Interval.StrayPhrase` — the texts with such a unit.
* `Duration.readInterval_eq_unknownLetter_iff`, `Duration.readInterval_eq_unknownUnit_iff` — these
  are the texts with a fault.
* `interval_outcome` — every other text is read as null or as an interval, or it is refused;
  `interval_faults` shows the two faults.
-/

namespace RecordQuery

open Text

/-! ### Lower case -/

section

variable {cs : List Char}

/-- Lower case of a text, letter by letter. -/
theorem lower_eq_of_forall₂ {word : List Char}
    (h : List.Forall₂ (fun l c => c.toNat ≠ 0x3A3 ∧ lowerChar c = [l]) word cs) :
    lower cs = word := by
  unfold lower
  generalize ([] : List Char) = before
  induction h generalizing before with
  | nil => rfl
  | cons hfirst _ ih =>
    rw [lowerAfter, if_neg hfirst.1, hfirst.2, ih]
    rfl

/-- The lower case of a text has that of every letter in it. The lower case of a capital sigma
depends on its place. -/
theorem lowerChar_subset_lower {c : Char} (hc : c ∈ cs) (hsigma : c.toNat ≠ 0x3A3) :
    lowerChar c ⊆ lower cs := by
  unfold lower
  generalize ([] : List Char) = before
  induction cs generalizing before with
  | nil => cases hc
  | cons d ds ih =>
    rw [lowerAfter]
    rcases List.mem_cons.mp hc with rfl | hc
    · -- only a sigma looks at what stands before it
      rw [if_neg hsigma]
      exact List.subset_append_left _ _
    · exact List.Subset.trans (ih hc _) (List.subset_append_right _ _)

end

namespace Interval

variable {cs : List Char}

/-! ### The unit of a term -/

/-- The letters that are case variants of a small letter without having it as their lower case: the
long s, and the letter i as a capital with a dot and as a small letter without one. -/
def strayLetters : List Char := ['ſ', 'İ', 'ı']

/-- Every other case variant of a small letter has it as its lower case. -/
theorem lowerChar_of_variantOf {l c : Char} (hl : IsSmall l) (h : variantOf l c = true)
    (hc : c ∉ strayLetters) : c.toNat ≠ 0x3A3 ∧ lowerChar c = [l] := by
  rcases variantOf_iff.mp h with hlower | ⟨-, rfl⟩ | ⟨rfl, rfl⟩ | ⟨-, rfl | rfl⟩
  · have halpha := (isAlpha_iff c).mp (isAlpha_of_toLower hl hlower)
    refine ⟨by omega, ?_⟩
    rw [lowerChar, if_pos (by omega), hlower]
  · exact absurd (by decide) hc
  · -- the Kelvin sign is mapped to the letter k
    exact ⟨by decide, by decide +kernel⟩
  · exact absurd (by decide) hc
  · exact absurd (by decide) hc

theorem Varies.lowerChars {word : List Char} (h : Varies word cs)
    (hword : ∀ l ∈ word, IsSmall l) (hcs : ∀ c ∈ cs, c ∉ strayLetters) :
    List.Forall₂ (fun l c => c.toNat ≠ 0x3A3 ∧ lowerChar c = [l]) word cs := by
  induction h with
  | nil => exact .nil
  | cons hfirst _ ih =>
    rw [List.forall_mem_cons] at hword hcs
    exact .cons (lowerChar_of_variantOf hword.1 hfirst hcs.1) (ih hword.2 hcs.2)

/-- A name without stray letters is the name of the unit in lower case. -/
theorem Names.lower_eq {u : TimeUnit} (h : Names u cs) (hcs : ∀ c ∈ cs, c ∉ strayLetters) :
    lower cs = u.name.toList ∨ lower cs = u.name.toList ++ ['s'] := by
  cases h with
  | one hword => exact .inl (lower_eq_of_forall₂ (hword.lowerChars u.isSmall_name hcs))
  | many hword hc =>
    rw [List.forall_mem_append, List.forall_mem_singleton] at hcs
    have hname := hword.lowerChars u.isSmall_name hcs.1
    have hplural := lowerChar_of_variantOf (l := 's') (by decide) hc hcs.2
    exact .inr (lower_eq_of_forall₂ (List.rel_append hname (.cons hplural .nil)))

/-- The lower case of a stray letter is outside ASCII. -/
theorem exists_mem_lower {c : Char} (hc : c ∈ cs) (hstray : c ∈ strayLetters) :
    ∃ d ∈ lower cs, 0x80 ≤ d.toNat := by
  have hlong : lowerChar 'ſ' = ['ſ'] := by decide +kernel
  have hcapital : lowerChar 'İ' = ['i', '\u0307'] := by decide +kernel
  have hdotless : lowerChar 'ı' = ['ı'] := by decide +kernel
  have hall : ∀ c ∈ strayLetters, c.toNat ≠ 0x3A3 ∧ ∃ d ∈ lowerChar c, 0x80 ≤ d.toNat := by
    simp [strayLetters, hlong, hcapital, hdotless]
  obtain ⟨hsigma, d, hd, houtside⟩ := hall c hstray
  exact ⟨d, lowerChar_subset_lower hc hsigma hd, houtside⟩

/-- **The unit of a term** is found, unless there is a stray letter in its name. -/
theorem unit?_eq_none_iff {t : Term} (hword : ∃ u, Names u t.word) :
    t.unit? = none ↔ ∃ c ∈ t.word, c ∈ strayLetters := by
  unfold Term.unit?
  simp only
  rw [List.find?_eq_none]
  constructor
  · intro hnone
    by_contra hplain
    push Not at hplain
    obtain ⟨u, hword⟩ := hword
    refine hnone u u.mem_all ?_
    rw [Bool.or_eq_true, beq_iff_eq, beq_iff_eq]
    exact hword.lower_eq hplain
  · -- a stray letter stays outside the small letters of all names when it is lowered
    rintro ⟨c, hc, hstray⟩ u - hname
    rw [Bool.or_eq_true, beq_iff_eq, beq_iff_eq] at hname
    obtain ⟨d, hd, houtside⟩ := exists_mem_lower hc hstray
    have hmem : d ∈ u.name.toList ++ ['s'] := by
      obtain h | h := hname
      · rw [h] at hd
        exact List.mem_append_left _ hd
      · rwa [h] at hd
    have hsmall : ∀ l ∈ u.name.toList ++ ['s'], IsSmall l := by
      rw [List.forall_mem_append, List.forall_mem_singleton]
      exact ⟨u.isSmall_name, by decide⟩
    have := hsmall d hmem
    omega

end Interval

/-! ### The four forms -/

/-- The errors of a text that is no interval. The other two are faults of looking a unit up. -/
def IntervalError.IsRefusal (e : IntervalError) : Prop := e ≠ .unknownLetter ∧ e ≠ .unknownUnit

namespace Interval

variable {cs : List Char} {e : IntervalError}

/-- A number and a long s, with or without blanks between them. -/
def LongSecond (cs : List Char) : Prop :=
  ∃ number gap, IsNumber number ∧ AllBlank gap ∧ cs = number ++ (gap ++ ['ſ'])

/-- A phrase with a stray letter in the name of a unit. -/
def StrayPhrase (cs : List Char) : Prop :=
  ∃ ts, Phrase ts cs ∧ ∃ t ∈ ts, ∃ c ∈ t.word, c ∈ strayLetters

theorem isRefusal_sum {parts : List (Nat × Duration.Amount)} (h : sum parts = .error e) :
    e.IsRefusal := by
  unfold sum at h
  split at h <;> cases h <;> exact ⟨nofun, nofun⟩

/-- A sum that may be taken off fails in the same way, or is out of range. -/
theorem isRefusal_signed {parts : List (Nat × Duration.Amount)} {negative : Bool} (h : (do
      let d ← sum parts
      if negative then
        match d.neg? with
        | some e => .ok e
        | none => .error .outOfRange
      else .ok d) = .error e) : e.IsRefusal := by
  cases hsum : sum parts with
  | error e' =>
    rw [hsum] at h
    cases h
    exact isRefusal_sum hsum
  | ok d =>
    rw [hsum, ok_bind] at h
    split at h
    · -- only the opposite of the longest duration does not exist
      split at h <;> cases h
      exact ⟨nofun, nofun⟩
    · cases h

/-- **Shorthands.** Of the letters that match, only the long s is not found. -/
theorem shorthand?_eq_error (h : shorthand? cs = some (.error e)) :
    e.IsRefusal ∨ e = .unknownLetter ∧ LongSecond cs := by
  unfold shorthand? at h
  obtain ⟨⟨number, rest⟩, hspan, hletter⟩ := Option.bind_eq_some_iff.mp h
  obtain ⟨rfl, hnumber⟩ := append_of_spanNumber? hspan
  simp only at hletter
  split at hletter
  · next c hc =>
    split at hletter
    · next hany =>
      split at hletter
      · exact .inl (isRefusal_sum (Option.some.inj hletter))
      · next hnone =>
        cases hletter
        -- the letter varies that of a unit, but is not found as one: only the long s does this
        rw [List.any_map, List.any_eq_true] at hany
        obtain ⟨u, hu, hvariant⟩ := hany
        have hlower : c.toLower ≠ u.letter := fun hsame =>
          List.find?_eq_none.mp hnone u hu (beq_iff_eq.mpr hsame.symm)
        obtain hsame | ⟨-, rfl⟩ := variantOf_letter_iff.mp hvariant
        · exact absurd hsame hlower
        · refine .inr ⟨rfl, number, rest.takeWhile isBlank, hnumber, ?_, ?_⟩
          · exact fun b hb => List.mem_takeWhile_imp hb
          · rw [← hc, List.takeWhile_append_dropWhile]
    · cases hletter
  · cases hletter

theorem LongSecond.shorthand?_eq (h : LongSecond cs) :
    shorthand? cs = some (.error .unknownLetter) := by
  obtain ⟨number, gap, hnumber, hgap, rfl⟩ := h
  have hdrop : (gap ++ ['ſ']).dropWhile isBlank = ['ſ'] := by
    refine dropWhile_gap hgap ?_
    rintro c ⟨⟩
    decide
  have hspan : spanNumber? (number ++ (gap ++ ['ſ'])) = some (number, gap ++ ['ſ']) := by
    refine spanNumber?_append hnumber (EndsNumber.gap hgap ?_)
    rintro c ⟨⟩
    decide +kernel
  -- the letter matches that of seconds, but is not the letter itself
  unfold shorthand?
  simp only [hspan, Option.bind_eq_bind, Option.bind_some, hdrop]
  rfl

/-- **Clocks.** No unit is looked up. -/
theorem clock?_eq_error (h : clock? cs = some (.error e)) : e.IsRefusal := by
  unfold clock? at h
  simp only [Option.bind_eq_bind, Option.bind_some, Option.bind_none] at h
  split at h
  · cases h
  · obtain ⟨⟨minutes, rest⟩, -, hseconds⟩ := Option.bind_eq_some_iff.mp h
    split at hseconds
    · obtain ⟨whole, -, hsum⟩ := Option.bind_eq_some_iff.mp hseconds
      obtain ⟨seconds, -, hsum⟩ := Option.bind_eq_some_iff.mp hsum
      -- out of the range of a number, or of a duration
      split at hsum
      · cases hsum
      · split at hsum
        · cases hsum
          exact ⟨nofun, nofun⟩
        · exact isRefusal_signed (Option.some.inj hsum)
    · cases hseconds
  · cases h

theorem number_eq_error (h : number cs = .error e) : e.IsRefusal := by
  unfold number at h
  split at h
  · exact isRefusal_sum h
  · cases h
    exact ⟨nofun, nofun⟩

theorem mapM_eq_none_iff {α β : Type} {f : α → Option β} {as : List α} :
    as.mapM f = none ↔ ∃ a ∈ as, f a = none := by
  induction as with
  | nil => simp
  | cons a as ih =>
    rw [List.mapM_cons, List.exists_mem_cons_iff, ← ih]
    cases f a <;> cases as.mapM f <;> simp

/-- **Phrases.** Of the names that match, only those with a stray letter are not found. -/
theorem phrase?_eq_error (h : phrase? cs = some (.error e)) :
    e.IsRefusal ∨ e = .unknownUnit ∧ StrayPhrase cs := by
  unfold phrase? at h
  obtain ⟨ts, hts, hsum⟩ := Option.bind_eq_some_iff.mp h
  split at hsum
  · cases hsum
  · split at hsum
    · -- one of the words names no unit
      next hnone =>
      cases hsum
      obtain ⟨t, ht, hunit⟩ := mapM_eq_none_iff.mp hnone
      have hphrase := terms?_eq_some_iff.mp hts
      exact .inr ⟨rfl, ts, hphrase, t, ht,
        (unit?_eq_none_iff (hphrase.names t ht)).mp (Option.map_eq_none_iff.mp hunit)⟩
    · exact .inl (isRefusal_sum (Option.some.inj hsum))

theorem StrayPhrase.phrase?_eq (h : StrayPhrase cs) : phrase? cs = some (.error .unknownUnit) := by
  obtain ⟨ts, hphrase, t, ht, hstray⟩ := h
  have hunit := (unit?_eq_none_iff (hphrase.names t ht)).mpr hstray
  have hnone : (ts.mapM fun t => t.unit?.map fun u => (u, numberValue t.number)) = none :=
    mapM_eq_none_iff.mpr ⟨t, ht, Option.map_eq_none_iff.mpr hunit⟩
  have hne : ts.isEmpty = false := List.isEmpty_eq_false_iff.mpr (List.ne_nil_of_mem ht)
  unfold phrase?
  rw [terms?_eq_some_iff.mpr hphrase, Option.bind_eq_bind, Option.bind_some, hne,
    if_neg Bool.false_ne_true, hnone]

/-! ### Phrases are no other form -/

section

variable {t : Term} {ts : List Term}

/-- A phrase begins with a blank or with its first number. -/
theorem Phrase.first_cases (h : Phrase (t :: ts) cs) :
    (∃ b ds, cs = b :: ds ∧ isBlank b = true) ∨
      ∃ u gap rest, cs = t.number ++ (gap ++ (t.word ++ rest)) ∧ IsNumber t.number ∧
        AllBlank gap ∧ Names u t.word := by
  cases h with
  | @more before gap rest t ts hbefore hnumber hgap hword _ =>
    cases before with
    | nil =>
      obtain ⟨u, hword⟩ := hword
      exact .inr ⟨u, gap, rest, rfl, hnumber, hgap, hword⟩
    | cons b before => exact .inl ⟨b, _, rfl, hbefore b List.mem_cons_self⟩

/-- A phrase is no shorthand, since more than one letter follows its first number. -/
theorem Phrase.shorthand?_eq_none (h : Phrase (t :: ts) cs) : shorthand? cs = none := by
  refine Interval.shorthand?_eq_none fun number after c hspan hc => ?_
  obtain ⟨b, ds, rfl, hblank⟩ | ⟨u, gap, rest, rfl, hnumber, hgap, hword⟩ := h.first_cases
  · cases (spanNumber?_eq_none (endsNumber_of_isBlank hblank)).symm.trans hspan
  · have hends : EndsNumber (gap ++ (t.word ++ rest)) := hword.endsNumber.gap hgap
    have hfound := spanNumber?_append hnumber hends
    cases hfound.symm.trans hspan
    rw [dropWhile_gap hgap hword.head_not_blank] at hc
    have hlength := congrArg List.length hc
    rw [List.length_append, List.length_singleton] at hlength
    -- the word of a term is longer than the one letter of a shorthand
    have := hword.length_le
    omega

/-- A phrase is no clock, since no colon follows its first number. -/
theorem Phrase.clock?_eq_none (h : Phrase (t :: ts) cs) : clock? cs = none := by
  -- a clock begins with digits and a colon; a phrase with a blank, or a number without a colon
  obtain ⟨b, ds, rfl, hblank⟩ | ⟨u, gap, rest, rfl, hnumber, hgap, hword⟩ := h.first_cases
  · refine Interval.clock?_eq_none (fun ds' rest hspan => ?_) fun more hcs => ?_
    · cases (endsNumber_of_isBlank hblank).span_eq.symm.trans hspan
      cases hblank
    · cases hcs
      cases hblank
  · have hends : EndsNumber (gap ++ (t.word ++ rest)) := hword.endsNumber.gap hgap
    obtain ⟨ds, after, hfound, hcolon⟩ := hnumber.exists_span hends
    refine Interval.clock?_eq_none (fun ds' rest hspan => ?_) fun more hcs => ?_
    · cases hfound.symm.trans hspan
      exact hcolon rfl
    · obtain ⟨c, ds, hcons, hdigit⟩ := hnumber.exists_first
      rw [hcons] at hcs
      cases hcs
      cases hdigit

end

end Interval

/-! ### Texts of intervals -/

namespace Duration

variable {cs : List Char} {e : IntervalError}

/-- The errors of the four forms, in the order in which they are tried. -/
theorem readInterval_eq_error (h : readInterval cs = .error e) :
    e.IsRefusal ∨ e = .unknownLetter ∧ Interval.LongSecond (trim cs) ∨
      e = .unknownUnit ∧ Interval.StrayPhrase (trim cs) := by
  unfold readInterval at h
  simp only at h
  -- the readers are tried in turn, and the first one that finds its form answers
  split at h
  · next r hshorthand =>
    subst h
    obtain hrefusal | hletter := Interval.shorthand?_eq_error hshorthand
    · exact .inl hrefusal
    · exact .inr (.inl hletter)
  · split at h
    · next r hclock =>
      subst h
      exact .inl (Interval.clock?_eq_error hclock)
    · split at h
      · next r hphrase =>
        subst h
        obtain hrefusal | hunit := Interval.phrase?_eq_error hphrase
        · exact .inl hrefusal
        · exact .inr (.inr hunit)
      · exact .inl (Interval.number_eq_error h)

/-- **An unknown letter** is a long s after a number. -/
theorem readInterval_eq_unknownLetter_iff :
    readInterval cs = .error .unknownLetter ↔ Interval.LongSecond (trim cs) := by
  constructor
  · intro h
    obtain ⟨hletter, -⟩ | ⟨-, hlong⟩ | ⟨hunit, -⟩ := readInterval_eq_error h
    · exact absurd rfl hletter
    · exact hlong
    · cases hunit
  · intro h
    unfold readInterval
    simp only [h.shorthand?_eq]

/-- **An unknown unit** is a name with a stray letter, in a text that is otherwise a phrase. -/
theorem readInterval_eq_unknownUnit_iff :
    readInterval cs = .error .unknownUnit ↔ Interval.StrayPhrase (trim cs) := by
  constructor
  · intro h
    obtain ⟨-, hunit⟩ | ⟨hletter, -⟩ | ⟨-, hstray⟩ := readInterval_eq_error h
    · exact absurd rfl hunit
    · cases hletter
    · exact hstray
  · intro h
    have hphrase := h.phrase?_eq
    obtain ⟨ts, hts, t, ht, -⟩ := h
    obtain ⟨first, rest, rfl⟩ := List.exists_cons_of_ne_nil (List.ne_nil_of_mem ht)
    -- the forms that are tried before phrases do not match
    unfold readInterval
    simp only [hts.shorthand?_eq_none, hts.clock?_eq_none, hphrase]

end Duration

section

variable {raw : RawText} {typeName : String} {cs : List Char} {e : IntervalError}

theorem intervalError_eq_missingKey_iff :
    intervalError raw typeName cs e = .fault .missingKey ↔ e = .unknownLetter := by
  cases e <;> simp [intervalError]

theorem intervalError_eq_unsupported_iff :
    intervalError raw typeName cs e = .fault .unsupported ↔ e = .unknownUnit := by
  cases e <;> simp [intervalError]

/-- Every other error refuses the text as no interval. -/
theorem intervalError_cases : e = .unknownLetter ∨ e = .unknownUnit ∨
    ∃ reason, intervalError raw typeName cs e = .coercion raw typeName reason := by
  cases e with
  | unknownLetter => exact .inl rfl
  | unknownUnit => exact .inr (.inl rfl)
  | _ => exact .inr (.inr ⟨_, rfl⟩)

end

/-- **Every text.** A blank text is read as null. Any other text is read as an interval, or it is
refused as one that is none, with two exceptions: the look-up of a unit fails on a number with a
long s, and on a phrase in which the name of a unit has a stray letter. -/
theorem interval_outcome (s : Schema) (raw : RawText) :
    let text := trim raw.text.toList
    let outcome := s.coerce raw (.scalar .duration) .eq
    (outcome = .ok .null ↔ text = []) ∧
      (outcome = .error (.fault .missingKey) ↔ Interval.LongSecond text) ∧
      (outcome = .error (.fault .unsupported) ↔ Interval.StrayPhrase text) ∧
      (text = [] ∨ Interval.LongSecond text ∨ Interval.StrayPhrase text ∨
        (∃ d, outcome = .ok (.duration d)) ∨
        ∃ reason, outcome = .error (.coercion raw "timedelta" reason)) := by
  intro text outcome
  have houtcome : outcome = if text.isEmpty then .ok .null
      else s.coerceText raw text (.scalar .duration) := rfl
  have hletter : Duration.readInterval text = .error .unknownLetter ↔ _ :=
    Duration.readInterval_eq_unknownLetter_iff
  have hunit : Duration.readInterval text = .error .unknownUnit ↔ _ :=
    Duration.readInterval_eq_unknownUnit_iff
  rw [trim_trim] at hletter hunit
  rw [houtcome, ← hletter, ← hunit]
  -- an empty text would be refused too, but is not read at all
  by_cases hempty : text = []
  · have hread : Duration.readInterval text = .error .unrecognised := by
      rw [hempty]
      rfl
    rw [hread, hempty]
    simp
  · rw [if_neg (by simpa using hempty), Schema.coerceText]
    cases hread : Duration.readInterval text with
    | ok d => simp [hempty]
    | error e =>
      have hcases : e = .unknownLetter ∨ e = .unknownUnit ∨
          ∃ reason, intervalError raw "timedelta" text e = .coercion raw "timedelta" reason :=
        intervalError_cases
      have hname : (TypeExpr.scalar .duration).name = "timedelta" := rfl
      simpa [hempty, hname, intervalError_eq_missingKey_iff, intervalError_eq_unsupported_iff]
        using hcases

/-- Five seconds with a long s, and five days in the plural with one. -/
theorem interval_faults :
    Schema.empty.coerce (.plain "5ſ") (.scalar .duration) .eq = .error (.fault .missingKey) ∧
      Schema.empty.coerce (.plain "5 dayſ") (.scalar .duration) .eq =
        .error (.fault .unsupported) := by
  have hletter : Duration.readInterval (trim "5ſ".toList) = .error .unknownLetter := by
    decide +kernel
  have hunit : Duration.readInterval (trim "5 dayſ".toList) = .error .unknownUnit := by
    decide +kernel
  constructor
  · show Schema.empty.coerceText (.plain "5ſ") (trim "5ſ".toList) (.scalar .duration) = _
    rw [Schema.coerceText, hletter]
    rfl
  · show Schema.empty.coerceText (.plain "5 dayſ") (trim "5 dayſ".toList) (.scalar .duration) = _
    rw [Schema.coerceText, hunit]
    rfl

end RecordQuery
