import RecordQuery.Proofs.Calendar.Units

/-!
# Phrases add up

The amounts in a phrase are floating point numbers, which are added unit by unit, multiplied by the
length of the unit and added once more. With whole numbers all of this is exact: an amount with more
than 53 bits would be longer than any duration. So a phrase of whole numbers is read as their sum,
and neither the order of its terms nor the way in which they are written matters.

* `Interval.total` — the length of a list of quantities; `Interval.sum_amounts` says that their
  amounts add up to it.
* `Interval.search` — the terms that a search over a text finds, and the text outside of them. The
  reader takes one term after the other and stops where there is none; `Interval.search_iff` says
  that it finds what the search does, in the texts of which only blanks are left.
* `Interval.Lists` — the texts that list quantities, each a natural number and the name of a unit.
* `Interval.Lists.interval_eq` — what these texts are read as.
-/

namespace RecordQuery

open Text Numeral Binary64

theorem Value.interval_text {s : String} {d : Duration}
    (h : Duration.readInterval s.toList = .ok d) : (Value.text s).interval = .ok d := by
  have hplain : (Value.text s).plainShown = .ok s := rfl
  unfold Value.interval
  simp only [hplain, liftFault, bind, Except.bind, h]

/-! ### Amounts of whole units -/

namespace Duration

/-- A whole number of units is added exactly, and leaves nothing of a microsecond. -/
theorem exists_addAmount {x fraction : Binary64} {n unit : Nat} (hx : x.Counts n)
    (hfraction : fraction.Counts 0) (hunit : unit < 2 ^ 53) (whole : Int) :
    ∃ rest, addAmount unit (whole, fraction) (.fractional x) = .ok (whole + n * unit, rest) ∧
      rest.Counts 0 := by
  obtain ⟨y, hsplit, hy⟩ := hx.exists_split
  obtain ⟨z, hsplit', hz⟩ := ((counts_ofInt hunit).mul_zero hy).exists_split
  refine ⟨fraction.add z, ?_, hfraction.add hz (by decide)⟩
  obtain ⟨negative, m, e, rfl, -⟩ := hx.finite.exists_eq
  unfold addAmount
  simp only [hsplit, hsplit', Nat.cast_zero, add_zero]

end Duration

namespace Interval

/-! ### Sums over the terms of a phrase -/

/-- A number of units. -/
abbrev Quantity := Nat × TimeUnit

/-- The length of some quantities in microseconds. -/
def total (qs : List Quantity) : Nat := (qs.map fun q => q.1 * q.2.micros).sum

/-- How much of a unit there is in some quantities. -/
def numberOf (u : TimeUnit) (qs : List Quantity) : Nat :=
  ((qs.filter fun q => q.2 == u).map Prod.fst).sum

variable {qs : List Quantity} {u : TimeUnit}

/-- A sum over quantities is found unit by unit. -/
theorem sum_numberOf (weight : TimeUnit → Nat) (qs : List Quantity) :
    (TimeUnit.all.map fun u => numberOf u qs * weight u).sum =
      (qs.map fun q => q.1 * weight q.2).sum := by
  induction qs with
  | nil => simp [TimeUnit.all, numberOf]
  | cons q qs ih =>
    obtain ⟨n, u⟩ := q
    -- a quantity counts for its own unit only
    have hcons : ∀ v, numberOf v ((n, u) :: qs) = (if u = v then n else 0) + numberOf v qs := by
      intro v
      rw [numberOf, numberOf, List.filter_cons]
      split
      · next h => rw [if_pos (beq_iff_eq.mp h), List.map_cons, List.sum_cons]
      · next h => rw [if_neg (by simpa using h), zero_add]
    rw [List.map_cons, List.sum_cons, ← ih]
    cases u <;> simp [TimeUnit.all, hcons] <;> ring

theorem numberOf_mul_le (u : TimeUnit) (qs : List Quantity) :
    numberOf u qs * u.micros ≤ total qs := by
  rw [total, ← sum_numberOf]
  exact List.single_le_sum (fun _ _ => Nat.zero_le _) _ (List.mem_map_of_mem u.mem_all)

/-- The terms of one unit are added exactly. -/
theorem counts_foldl (ns : List Nat) {x : Binary64} {m : Nat} (hx : x.Counts m)
    (h : m + ns.sum < 2 ^ 53) :
    (ns.foldl (fun x n => amountOf.addNumbers x (ofDecimal false n 0)) x).Counts (m + ns.sum) := by
  induction ns generalizing x m with
  | nil => exact hx
  | cons n ns ih =>
    rw [List.sum_cons, ← add_assoc] at h ⊢
    have hn : (ofDecimal false n 0).Counts n := counts_ofDecimal (by omega)
    -- no term is infinite, so the sum is that of numbers
    have hsum : amountOf.addNumbers x (ofDecimal false n 0) = x.add (ofDecimal false n 0) := by
      obtain ⟨s, a, e, rfl, -⟩ := hx.finite.exists_eq
      obtain ⟨t, b, f, hb, -⟩ := hn.finite.exists_eq
      rw [hb]
      rfl
    rw [List.foldl_cons, hsum]
    exact ih (hx.add hn (by omega)) h

/-- The amounts of the terms of a phrase. -/
def amounts (qs : List Quantity) : List (TimeUnit × Binary64) :=
  qs.map fun q => (q.2, ofDecimal false q.1 0)

/-- **The amount of a unit** is exact, where there is any. -/
theorem amountOf_amounts (h : numberOf u qs < 2 ^ 53) :
    amountOf (amounts qs) u = none ∧ numberOf u qs = 0 ∨
      ∃ x : Binary64, amountOf (amounts qs) u = some (u.micros, .fractional x) ∧
        x.Counts (numberOf u qs) := by
  -- the numbers of one unit are added up in the order in which they stand
  have hown : (amounts qs).filter (fun t => t.1 == u) =
      (qs.filter fun q => q.2 == u).map fun q => (q.2, ofDecimal false q.1 0) := by
    rw [amounts, List.filter_map]
    rfl
  unfold amountOf
  rw [hown]
  cases hqs : qs.filter fun q => q.2 == u with
  | nil => exact .inl ⟨rfl, by rw [numberOf, hqs]; rfl⟩
  | cons q qs' =>
    refine .inr ⟨_, rfl, ?_⟩
    have hcounts := counts_foldl ((q :: qs').map Prod.fst) counts_zero (by
      rwa [← hqs, zero_add])
    rw [zero_add, ← hqs, List.foldl_map] at hcounts
    rwa [List.foldl_map, ← hqs]

/-- The amounts of some units are added exactly. -/
theorem exists_foldlM {us : List TimeUnit} (hus : ∀ u ∈ us, numberOf u qs < 2 ^ 53)
    {fraction : Binary64} (hfraction : fraction.Counts 0) (whole : Int) :
    ∃ rest, (us.filterMap (amountOf (amounts qs))).foldlM
        (fun sum p => Duration.addAmount p.1 sum p.2) (whole, fraction) =
      .ok (whole + (us.map fun u => numberOf u qs * u.micros).sum, rest) ∧ rest.Counts 0 := by
  induction us generalizing whole fraction with
  | nil =>
    rw [List.map_nil, List.sum_nil, Nat.cast_zero, add_zero]
    exact ⟨fraction, rfl, hfraction⟩
  | cons u us ih =>
    rw [List.forall_mem_cons] at hus
    -- a unit without an amount is left out of the sum, where it would add nothing
    obtain ⟨hnone, hzero⟩ | ⟨x, hsome, hx⟩ := amountOf_amounts hus.1
    · obtain ⟨rest, hfold, hrest⟩ := ih hus.2 hfraction whole
      refine ⟨rest, ?_, hrest⟩
      rw [List.filterMap_cons_none hnone, hfold, List.map_cons, List.sum_cons, hzero, zero_mul,
        zero_add]
    · have hmicros : u.micros < 2 ^ 53 := by
        cases u <;> decide
      obtain ⟨fraction', hadd, hfraction'⟩ :=
        Duration.exists_addAmount hx hfraction hmicros whole
      obtain ⟨rest, hfold, hrest⟩ := ih hus.2 hfraction' (whole + numberOf u qs * u.micros)
      refine ⟨rest, ?_, hrest⟩
      rw [List.filterMap_cons_some hsome, List.foldlM_cons, hadd]
      refine hfold.trans ?_
      rw [List.map_cons, List.sum_cons]
      push_cast
      rw [add_assoc]

/-- **The sum of a phrase** is the length of its quantities, if this is the length of a duration. No
unit has more than 53 bits then. -/
theorem sum_amounts {d : Duration} (hd : d.micros = total qs) :
    sum (TimeUnit.all.filterMap (amountOf (amounts qs))) = .ok d := by
  -- in a duration no number of units is too large to be counted exactly
  have hbits : ∀ u ∈ TimeUnit.all, numberOf u qs < 2 ^ 53 := by
    intro u _
    have hle := numberOf_mul_le u qs
    have hsecond : 1000000 ≤ u.micros := by
      cases u <;> decide
    have hless : d.micros < (dayLimit + 1) * microsPerDay :=
      of_decide_eq_true (Bool.and_eq_true_iff.mp d.valid).2
    have hlimit : ((dayLimit + 1) * microsPerDay : Int) = 1000000 * 86400000000000 := by decide
    have hmul : numberOf u qs * 1000000 ≤ numberOf u qs * u.micros := Nat.mul_le_mul_left _ hsecond
    rw [hd, hlimit] at hless
    omega
  obtain ⟨rest, hfold, hrest⟩ := exists_foldlM hbits counts_zero 0
  -- nothing is left over that would be rounded
  have hround : Duration.roundSum (0 + ((TimeUnit.all.map fun u => numberOf u qs * u.micros).sum :
      Nat)) rest = d.micros := by
    rw [Duration.roundSum_eq hrest.finite, hrest.value_eq, Nat.cast_zero, add_zero,
      roundEven_intCast, sum_numberOf, zero_add, hd]
    rfl
  have hduration : Duration.ofMicroseconds? d.micros = some d :=
    Duration.ofMicroseconds?_eq_some_iff.mpr rfl
  unfold sum Duration.ofParts?
  rw [hfold]
  simp only [bind, Except.bind, hround, hduration]

/-! ### Searching a text for terms -/

theorem Phrase.blanks_append {ts : List Term} {cs before : List Char} (hbefore : AllBlank before)
    (h : Phrase ts cs) : Phrase ts (before ++ cs) := by
  cases h with
  | done hafter => exact .done (List.forall_mem_append.mpr ⟨hbefore, hafter⟩)
  | more hbefore' hnumber hgap hword hrest =>
    rw [← List.append_assoc]
    exact .more (List.forall_mem_append.mpr ⟨hbefore, hbefore'⟩) hnumber hgap hword hrest

/-- The terms that a search from left to right finds without overlap, and the text outside of them.
The first argument counts the characters of a term that are still to be passed over. -/
def search : Nat → List Char → List Term × List Char
  | _, [] => ([], [])
  | passed + 1, _ :: cs => search passed cs
  | 0, c :: cs =>
    match term? (c :: cs) with
    | some (t, rest) =>
      let (ts, outside) := search (cs.length - rest.length) cs
      (t :: ts, outside)
    | none =>
      let (ts, outside) := search 0 cs
      (ts, c :: outside)

section

variable {t : Term} {ts : List Term} {cs rest : List Char}

theorem search_append (ds rest : List Char) : search ds.length (ds ++ rest) = search 0 rest := by
  induction ds with
  | nil => rfl
  | cons d ds ih => rwa [List.length_cons, List.cons_append, search]

/-- A term that is found is passed over. -/
theorem search_of_term? (h : term? cs = some (t, rest)) :
    search 0 cs = (t :: (search 0 rest).1, (search 0 rest).2) := by
  obtain ⟨gap, rfl, hnumber, -⟩ := append_of_term? h
  obtain ⟨c, ds, hcons, -⟩ := hnumber.exists_first
  have hcs : t.number ++ (gap ++ (t.word ++ rest)) = c :: (ds ++ (gap ++ t.word) ++ rest) := by
    rw [hcons, List.cons_append, List.append_assoc, List.append_assoc]
  have hlength : (ds ++ (gap ++ t.word) ++ rest).length - rest.length =
      (ds ++ (gap ++ t.word)).length := by
    rw [List.length_append, Nat.add_sub_cancel]
  -- the search goes on behind the term, as many characters as it has
  rw [hcs] at h ⊢
  rw [search, h]
  simp only [hlength, search_append]

theorem search_of_none {c : Char} (h : term? (c :: cs) = none) :
    search 0 (c :: cs) = ((search 0 cs).1, c :: (search 0 cs).2) := by
  rw [search, h]

theorem search_blanks {before : List Char} (hbefore : AllBlank before) (cs : List Char) :
    search 0 (before ++ cs) = ((search 0 cs).1, before ++ (search 0 cs).2) := by
  induction before with
  | nil => rfl
  | cons b before ih =>
    obtain ⟨hb, hbefore⟩ := List.forall_mem_cons.mp hbefore
    -- no term begins with a blank
    have hnone : term? (b :: (before ++ cs)) = none := by
      unfold term?
      rw [spanNumber?_eq_none (endsNumber_of_isBlank hb)]
      rfl
    rw [List.cons_append, search_of_none hnone, ih hbefore]
    rfl

/-- **The search and the terms.** A text is read as terms if a search finds them and leaves nothing
but blanks. -/
theorem search_iff : (search 0 cs).1 = ts ∧ AllBlank (search 0 cs).2 ↔ Phrase ts cs := by
  constructor
  · rintro ⟨rfl, hblank⟩
    -- the search goes on behind what it has found, where the text is shorter
    induction hn : cs.length using Nat.strong_induction_on generalizing cs with
    | _ n ih =>
      cases cs with
      | nil => exact .done (List.forall_mem_nil _)
      | cons c cs =>
        cases hterm : term? (c :: cs) with
        | none =>
          -- what is no term is skipped, and so has to be blank
          rw [search_of_none hterm] at hblank ⊢
          obtain ⟨hc, hblank⟩ := List.forall_mem_cons.mp hblank
          have hless : cs.length < n := hn ▸ Nat.lt_succ_self cs.length
          exact (ih cs.length hless hblank rfl).blanks_append (List.forall_mem_singleton.mpr hc)
        | some found =>
          obtain ⟨t, rest⟩ := found
          rw [search_of_term? hterm] at hblank ⊢
          obtain ⟨gap, happend, hnumber, hgap, hword⟩ := append_of_term? hterm
          obtain ⟨d, ds, hcons, -⟩ := hnumber.exists_first
          have hless : rest.length < n := by
            rw [← hn, happend, hcons]
            simp only [List.length_append, List.length_cons]
            omega
          have hphrase : Phrase (t :: (search 0 rest).1)
              ([] ++ (t.number ++ (gap ++ (t.word ++ rest)))) :=
            .more (List.forall_mem_nil _) hnumber hgap hword (ih rest.length hless hblank rfl)
          rwa [happend]
  · intro h
    induction h with
    | @done after hafter =>
      have hsearch := search_blanks hafter []
      rw [List.append_nil] at hsearch
      rw [hsearch]
      exact ⟨rfl, by simpa [search] using hafter⟩
    | more hbefore hnumber hgap hword hrest ih =>
      rw [search_blanks hbefore, search_of_term? (term?_append hnumber hgap hword hrest.endsTerm)]
      exact ⟨congrArg _ ih.1, List.forall_mem_append.mpr ⟨hbefore, ih.2⟩⟩

end

/-! ### Phrases of whole units -/

/-- A natural number in digits of any script. -/
theorem numberValue_of_isDigits {digits : List Char} (h : IsDigits digits) :
    numberValue digits = ofDecimal false (digitsValue digits) 0 := by
  -- the scan for digits takes all of them, and then there is neither a point nor an exponent
  have hspan : ∀ {ds : List Char}, (∀ d ∈ ds, isDigit d = true) →
      spanDigits ds = (ds.filterMap digitValue?, []) := by
    intro ds hds
    induction ds with
    | nil => rfl
    | cons d ds ih =>
      obtain ⟨hd, hds⟩ := List.forall_mem_cons.mp hds
      obtain ⟨n, hn⟩ := Option.isSome_iff_exists.mp hd
      rw [spanDigits, hn, ih hds, List.filterMap_cons_some hn]
  have hne : digits.filterMap digitValue? ≠ [] := by
    obtain ⟨d, ds, rfl⟩ := List.exists_cons_of_ne_nil h.1
    obtain ⟨n, hn⟩ := Option.isSome_iff_exists.mp (h.2 d List.mem_cons_self)
    rw [List.filterMap_cons_some hn]
    exact List.cons_ne_nil n _
  have hread : readDecimal? digits = some (digitsValue digits, 0) := by
    have hpoint : ([] : List Char).head? ≠ some '.' := (Option.some_ne_none '.').symm
    rw [readDecimal?_of_parts (hspan h.2) (spanFraction_of_ne hpoint) hne, List.append_nil]
    rfl
  unfold numberValue
  rw [hread]

/-- The name of a unit in the singular or the plural, with letters of ASCII in any case. -/
def Spelt (u : TimeUnit) (word : List Char) : Prop :=
  word.map Char.toLower = u.name.toList ∨ word.map Char.toLower = u.name.toList ++ ['s']

namespace Spelt

variable {word : List Char}

theorem names (h : Spelt u word) : Names u word := by
  have hvaries : ∀ {name cs : List Char}, cs.map Char.toLower = name → Varies name cs := by
    rintro name cs rfl
    exact List.forall₂_map_left_iff.mpr
      (List.forall₂_same.mpr fun c _ => variantOf_iff.mpr (.inl rfl))
  obtain hone | hmany := h
  · exact .one (hvaries hone)
  · obtain ⟨name, last, rfl, hname, hlast⟩ := List.map_eq_append_iff.mp hmany
    obtain ⟨c, rfl, hc⟩ := List.map_eq_singleton_iff.mp hlast
    exact .many (hvaries hname) (variantOf_iff.mpr (.inl hc))

theorem isSmall_toLower (h : Spelt u word) : ∀ c ∈ word, IsSmall c.toLower := by
  intro c hc
  have hmem : c.toLower ∈ word.map Char.toLower := List.mem_map_of_mem hc
  obtain hone | hmany := h
  · rw [hone] at hmem
    exact u.isSmall_name _ hmem
  · rw [hmany] at hmem
    obtain hname | hs := List.mem_append.mp hmem
    · exact u.isSmall_name _ hname
    · rw [List.mem_singleton.mp hs]
      decide

/-- A unit is found by its name. Stray letters are none of ASCII. -/
theorem unit?_eq (h : Spelt u word) (number : List Char) :
    Term.unit? ⟨number, word⟩ = some u := by
  have hascii : ∀ c ∈ strayLetters, c.isAlpha = false := by
    simp only [strayLetters, List.forall_mem_cons]
    exact ⟨rfl, rfl, rfl, List.forall_mem_nil _⟩
  -- what is spelt with ASCII letters has none of the letters that only match
  have hstray : ∀ c ∈ word, c ∉ strayLetters := by
    intro c hc hstray
    cases (hascii c hstray).symm.trans (isAlpha_of_toLower (h.isSmall_toLower c hc) rfl)
  unfold Term.unit?
  obtain hone | hmany := h.names.lower_eq hstray
  · rw [hone]
    cases u <;> decide
  · rw [hmany]
    cases u <;> decide

/-- A name ends in a letter. -/
theorem exists_last (h : Spelt u word) : ∃ ds d, word = ds ++ [d] ∧ isBlank d = false := by
  obtain ⟨c, cs, hcons, -⟩ := h.names.exists_first
  have hne : word ≠ [] := by
    rw [hcons]
    exact List.cons_ne_nil c cs
  have hletter := h.isSmall_toLower _ (List.getLast_mem hne)
  exact ⟨word.dropLast, word.getLast hne, (List.dropLast_append_getLast hne).symm,
    (not_mark_of_variantOf hletter (variantOf_iff.mpr (.inl rfl))).1⟩

end Spelt

/-- A term is a whole number of a unit. -/
structure Term.Gives (t : Term) (q : Quantity) : Prop where
  digits : IsDigits t.number
  number : digitsValue t.number = q.1
  unit : t.unit? = some q.2

theorem mapM_of_gives {ts : List Term} (h : List.Forall₂ Term.Gives ts qs) :
    (ts.mapM fun t => t.unit?.map fun u => (u, numberValue t.number)) = some (amounts qs) := by
  induction h with
  | nil => rfl
  | cons hfirst _ ih =>
    rw [List.mapM_cons, ih, hfirst.unit, numberValue_of_isDigits hfirst.digits, hfirst.number]
    rfl

/-- A text that lists quantities: whole numbers, each with the name of a unit after it, with or
without blanks between them. -/
inductive Lists : List Quantity → List Char → Prop where
  | one {digits gap word : List Char} {u : TimeUnit} : IsDigits digits → AllBlank gap →
      Spelt u word → Lists [(digitsValue digits, u)] (digits ++ (gap ++ word))
  | more {digits gap word separator rest : List Char} {u : TimeUnit} {qs : List Quantity} :
      IsDigits digits → AllBlank gap → Spelt u word → AllBlank separator → Lists qs rest →
      Lists ((digitsValue digits, u) :: qs) (digits ++ (gap ++ (word ++ (separator ++ rest))))

namespace Lists

variable {cs : List Char}

/-- The terms of a text that lists quantities. -/
theorem exists_phrase (h : Lists qs cs) :
    ∃ t ts, Phrase (t :: ts) cs ∧ List.Forall₂ Term.Gives (t :: ts) qs := by
  induction h with
  | @one digits gap word u hdigits hgap hword =>
    -- a listing has no blanks before its first number
    have hphrase : Phrase [⟨digits, word⟩] ([] ++ (digits ++ (gap ++ (word ++ [])))) :=
      .more (List.forall_mem_nil _) (.whole hdigits) hgap ⟨u, hword.names⟩
        (.done (List.forall_mem_nil _))
    rw [List.nil_append, List.append_nil] at hphrase
    exact ⟨_, [], hphrase, .cons ⟨hdigits, rfl, hword.unit?_eq digits⟩ .nil⟩
  | @more digits gap word separator rest u qs hdigits hgap hword hseparator _ ih =>
    obtain ⟨t, ts, hrest, hgives⟩ := ih
    have hphrase : Phrase (⟨digits, word⟩ :: t :: ts)
        ([] ++ (digits ++ (gap ++ (word ++ (separator ++ rest))))) :=
      .more (List.forall_mem_nil _) (.whole hdigits) hgap ⟨u, hword.names⟩
        (hrest.blanks_append hseparator)
    exact ⟨_, _, hphrase, .cons ⟨hdigits, rfl, hword.unit?_eq digits⟩ hgives⟩

/-- Such a text begins with a digit. -/
theorem exists_first (h : Lists qs cs) : ∃ c ds, cs = c :: ds ∧ isBlank c = false := by
  have hdigits : ∀ {digits rest : List Char}, IsDigits digits →
      ∃ c ds, digits ++ rest = c :: ds ∧ isBlank c = false := by
    intro digits rest hdigits
    obtain ⟨c, ds, rfl, hdigit⟩ := (IsNumber.whole hdigits).exists_first
    exact ⟨c, ds ++ rest, rfl, isBlank_eq_false_of_isDigit hdigit⟩
  cases h with
  | one h _ _ => exact hdigits h
  | more h _ _ _ _ => exact hdigits h

/-- It ends with the last letter of a name. -/
theorem exists_last (h : Lists qs cs) : ∃ ds d, cs = ds ++ [d] ∧ isBlank d = false := by
  induction h with
  | @one digits gap word u _ _ hword =>
    obtain ⟨ds, d, rfl, hd⟩ := hword.exists_last
    exact ⟨digits ++ (gap ++ ds), d, by simp only [List.append_assoc], hd⟩
  | @more digits gap word separator rest u qs _ _ _ _ _ ih =>
    obtain ⟨ds, d, rfl, hd⟩ := ih
    exact ⟨digits ++ (gap ++ (word ++ (separator ++ ds))), d, by simp only [List.append_assoc], hd⟩

theorem trimmed (h : Lists qs cs) : Trimmed cs := by
  obtain ⟨ds, d, hlast, hd⟩ := h.exists_last
  obtain ⟨c, cs, rfl, hc⟩ := h.exists_first
  exact .of_ends hc hd hlast

/-- **The sum.** A text that lists the quantities of a duration is read as this duration. -/
theorem readInterval_eq (h : Lists qs cs) {d : Duration} (hd : d.micros = total qs) :
    Duration.readInterval cs = .ok d := by
  obtain ⟨t, ts, hphrase, hgives⟩ := h.exists_phrase
  have hread : phrase? cs = some (.ok d) := by
    unfold phrase?
    rw [terms?_eq_some_iff.mpr hphrase, Option.bind_eq_bind, Option.bind_some, List.isEmpty_cons,
      if_neg Bool.false_ne_true, mapM_of_gives hgives]
    exact congrArg some (sum_amounts hd)
  unfold Duration.readInterval
  simp only [h.trimmed.trim_eq_self, hphrase.shorthand?_eq_none, hphrase.clock?_eq_none, hread]

/-- **Phrases add up.** A text that lists quantities is read as the duration of their exact sum, if
this is in the range of durations. No amount of a unit is out of range then, nor has it more than 53
bits, so the floating point numbers in between lose nothing. A search for terms over the whole text
finds the quantities in their order, and leaves nothing but blanks. The duration depends on the sum
only: other digits, blanks and letter cases, another order, and quantities that are taken together
or apart, do not change it. -/
theorem interval_eq {s : String} (h : Lists qs s.toList) (range : isDuration (total qs) = true) :
    (Value.text s).interval = .ok ⟨total qs, range⟩ ∧
    (List.Forall₂ Term.Gives (search 0 s.toList).1 qs ∧ AllBlank (search 0 s.toList).2) ∧
    ∀ qs' s', Lists qs' s'.toList → (qs'.Perm qs ∨ total qs' = total qs) →
      (Value.text s').interval = (Value.text s).interval := by
  -- of a listing only the total is left
  have hread : ∀ {qs' : List Quantity} {s' : String}, Lists qs' s'.toList →
      total qs' = total qs → (Value.text s').interval = .ok ⟨total qs, range⟩ :=
    fun h' htotal => Value.interval_text (h'.readInterval_eq (congrArg Nat.cast htotal.symm))
  refine ⟨hread h rfl, ?_, fun qs' s' h' hsame => ?_⟩
  · obtain ⟨t, ts, hphrase, hgives⟩ := h.exists_phrase
    obtain ⟨hfound, hblank⟩ := search_iff.mpr hphrase
    exact ⟨hfound ▸ hgives, hblank⟩
  · rw [hread h rfl]
    refine hread h' (hsame.elim (fun hperm => ?_) id)
    exact (hperm.map _).sum_eq

/-- Two days and two hours, in two phrases. -/
theorem interval_eq_of_days : ∃ d : Duration, d.micros = 180000000000 ∧
    (Value.text "1 day 2 HOURS  1 DAYS").interval = .ok d ∧
    (Value.text "02hour 2\tdays").interval = .ok d := by
  have hdigit : ∀ {c : Char}, isDigit c = true → IsDigits [c] := fun hc =>
    ⟨List.cons_ne_nil _ _, List.forall_mem_singleton.mpr hc⟩
  have hblank : ∀ {c : Char}, isBlank c = true → AllBlank [c] := fun hc =>
    List.forall_mem_singleton.mpr hc
  have hdigits : IsDigits ['0', '2'] :=
    ⟨List.cons_ne_nil _ _, List.forall_mem_cons.mpr ⟨rfl, List.forall_mem_singleton.mpr rfl⟩⟩
  have hblanks : AllBlank [' ', ' '] :=
    List.forall_mem_cons.mpr ⟨rfl, List.forall_mem_singleton.mpr rfl⟩
  -- the gaps between number, unit and next number are given one by one
  have hfirst : Lists [(digitsValue ['1'], .day), (digitsValue ['2'], .hour),
      (digitsValue ['1'], .day)] (['1'] ++ ([' '] ++ ("day".toList ++ ([' '] ++ (['2'] ++ ([' '] ++
        ("HOURS".toList ++ ([' ', ' '] ++ (['1'] ++ ([' '] ++ "DAYS".toList)))))))))) :=
    .more (hdigit rfl) (hblank rfl) (.inl (by decide)) (hblank rfl)
      (.more (hdigit rfl) (hblank rfl) (.inr (by decide)) hblanks
        (.one (hdigit rfl) (hblank rfl) (.inr (by decide))))
  have hsecond : Lists [(digitsValue ['0', '2'], .hour), (digitsValue ['2'], .day)]
      (['0', '2'] ++ ([] ++ ("hour".toList ++ ([' '] ++ (['2'] ++ (['\t'] ++ "days".toList)))))) :=
    .more hdigits (List.forall_mem_nil _) (.inl (by decide)) (hblank rfl)
      (.one (hdigit rfl) (hblank rfl) (.inr (by decide)))
  have htext : Lists [(1, .day), (2, .hour), (1, .day)] "1 day 2 HOURS  1 DAYS".toList := hfirst
  have htext' : Lists [(2, .hour), (2, .day)] "02hour 2\tdays".toList := hsecond
  obtain ⟨hread, -, hsame⟩ := interval_eq htext (by decide)
  exact ⟨_, by decide, hread, (hsame _ _ htext' (.inr (by decide))).trans hread⟩

end Lists
end Interval
end RecordQuery
