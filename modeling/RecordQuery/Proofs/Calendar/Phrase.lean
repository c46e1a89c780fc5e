import Mathlib.Data.List.Forall2
import RecordQuery.Calendar.Interval
import RecordQuery.Proofs.Words

/-!
# Phrases

An interval can be written as a phrase, a row of numbers with the names of units. The reader takes
as much as it can at each place, and this is the only way to read a phrase: a number ends before
anything that is not a digit or a point, and a name before anything that is not the letter s.

* `Interval.variantOf_iff` — the case variants of a letter, some of which are outside ASCII.
* `Interval.Phrase` — the texts that are phrases, with their terms.
* `Interval.term?_append` — a term is split off whole.
* `Interval.terms?_eq_some_iff` — the terms that are read are those of the phrase.
-/

namespace RecordQuery

open Text

/-! ### Characters -/

/-- A small letter of ASCII. -/
abbrev IsSmall (l : Char) : Prop := 97 ≤ l.toNat ∧ l.toNat ≤ 122

/-- No digit of any script is a blank. -/
theorem isBlank_eq_false_of_isDigit {c : Char} (h : isDigit c = true) : isBlank c = false := by
  -- each row of ten digits lies between blanks, which is checked at its zero
  have hzeros : ∀ z ∈ digitZeros, z = 0x30 ∨ 0xA1 ≤ z ∧ z + 10 ≤ 0x1680 ∨
      0x1681 ≤ z ∧ z + 10 ≤ 0x2000 ∨ 0x3001 ≤ z := by decide
  have hrange : ∃ z ∈ digitZeros, z ≤ c.toNat ∧ c.toNat < z + 10 := by
    unfold isDigit digitValue? at h
    simp only at h
    split at h
    · split at h
      · exact ⟨0x30, by decide, by omega, by omega⟩
      · cases h
    · rw [Option.isSome_map] at h
      obtain ⟨z, hz⟩ := Option.isSome_iff_exists.mp h
      have hfound := List.find?_some hz
      rw [Bool.and_eq_true, decide_eq_true_eq, decide_eq_true_eq] at hfound
      exact ⟨z, List.mem_of_find?_eq_some hz, hfound⟩
  obtain ⟨z, hz, hle, hlt⟩ := hrange
  have hz := hzeros z hz
  unfold isBlank
  simp only [Bool.or_eq_false_iff, Bool.and_eq_false_iff, decide_eq_false_iff_not,
    beq_eq_false_iff_ne]
  omega

namespace TimeUnit

theorem mem_all (u : TimeUnit) : u ∈ all := by
  cases u <;> decide

theorem name_eq_cons (u : TimeUnit) : ∃ word, u.name.toList = u.letter :: word := by
  cases u <;> exact ⟨_, rfl⟩

theorem isSmall_letter (u : TimeUnit) : IsSmall u.letter := by
  cases u <;> decide

theorem isSmall_name (u : TimeUnit) : ∀ l ∈ u.name.toList, IsSmall l := by
  cases u <;> simp [name, IsSmall]

end TimeUnit

namespace Interval

section

variable {l c : Char}

/-- The case variants of a small letter, of which four are outside ASCII. -/
theorem variantOf_iff : variantOf l c = true ↔ c.toLower = l ∨ l = 's' ∧ c = 'ſ' ∨
    l = 'k' ∧ c = '\u212A' ∨ l = 'i' ∧ (c = 'İ' ∨ c = 'ı') := by
  have hchar : ∀ d : Char, c.toNat = d.toNat ↔ c = d := fun d => Char.toNat_inj
  have hlong : c.toNat = 0x17F ↔ c = 'ſ' := hchar 'ſ'
  have hkelvin : c.toNat = 0x212A ↔ c = '\u212A' := hchar '\u212A'
  have hdotted : c.toNat = 0x130 ↔ c = 'İ' := hchar 'İ'
  have hdotless : c.toNat = 0x131 ↔ c = 'ı' := hchar 'ı'
  unfold variantOf
  simp only [Bool.or_eq_true, Bool.and_eq_true, beq_iff_eq, hlong, hkelvin, hdotted, hdotless,
    or_assoc]

theorem variantOf_letter_iff {u : TimeUnit} : variantOf u.letter c = true ↔
    c.toLower = u.letter ∨ u = .second ∧ c = 'ſ' := by
  rw [variantOf_iff]
  cases u <;> simp [TimeUnit.letter]

/-- A character is a case variant of the letter of one unit only. -/
theorem variantOf_inj {u u' : TimeUnit} (h : variantOf u.letter c = true)
    (h' : variantOf u'.letter c = true) : u = u' := by
  -- the long s stands for one letter only, and is none itself
  have hletter : ∀ v : TimeUnit, v.letter ≠ 'ſ' := by
    intro v
    cases v <;> decide
  obtain hu | ⟨rfl, rfl⟩ := variantOf_letter_iff.mp h
  · obtain hu' | ⟨rfl, rfl⟩ := variantOf_letter_iff.mp h'
    · rw [hu] at hu'
      cases u <;> cases u' <;> first | rfl | cases hu'
    · exact absurd hu.symm (hletter u)
  · obtain hu' | ⟨rfl, -⟩ := variantOf_letter_iff.mp h'
    · exact absurd hu'.symm (hletter u')
    · rfl

theorem isAlpha_of_toLower (hl : IsSmall l) (h : c.toLower = l) : c.isAlpha = true := by
  rw [isAlpha_iff]
  by_cases hupper : 65 ≤ c.toNat ∧ c.toNat ≤ 90
  · exact .inl hupper
  · rw [toLower_eq_self hupper] at h
    rw [h]
    exact .inr hl

/-- A case variant of a small letter is neither a blank nor a part of a number or a clock. -/
theorem not_mark_of_variantOf (hl : IsSmall l) (h : variantOf l c = true) :
    isBlank c = false ∧ isDigit c = false ∧ c ≠ '.' ∧ c ≠ ':' := by
  rcases variantOf_iff.mp h with hlower | ⟨-, rfl⟩ | ⟨-, rfl⟩ | ⟨-, rfl | rfl⟩
  · have halpha := (isAlpha_iff c).mp (isAlpha_of_toLower hl hlower)
    refine ⟨?_, ?_, ?_, ?_⟩
    · unfold isBlank
      simp only [Bool.or_eq_false_iff, Bool.and_eq_false_iff, decide_eq_false_iff_not,
        beq_eq_false_iff_ne]
      omega
    · unfold isDigit digitValue?
      simp only
      rw [if_pos (by omega), if_neg (by omega)]
      rfl
    · rintro rfl
      revert halpha
      decide
    · rintro rfl
      revert halpha
      decide
  -- four letters stand for another one without being it in lower case
  all_goals decide +kernel

end

/-! ### Numbers and names -/

/-- One or more digits of any script. -/
def IsDigits (cs : List Char) : Prop := cs ≠ [] ∧ ∀ c ∈ cs, isDigit c = true

/-- A number with digits on both sides of an optional point. -/
inductive IsNumber : List Char → Prop where
  | whole {ds : List Char} : IsDigits ds → IsNumber ds
  | fraction {ds es : List Char} : IsDigits ds → IsDigits es → IsNumber (ds ++ '.' :: es)

/-- A text that is a case variant of a word, letter by letter. -/
def Varies (word cs : List Char) : Prop := List.Forall₂ (fun l c => variantOf l c = true) word cs

/-- A text that is a case variant of the name of a unit, in the singular or the plural. -/
inductive Names (u : TimeUnit) : List Char → Prop where
  | one {word : List Char} : Varies u.name.toList word → Names u word
  | many {word : List Char} {c : Char} : Varies u.name.toList word → variantOf 's' c = true →
      Names u (word ++ [c])

/-- A text of nothing but blanks. -/
abbrev AllBlank (cs : List Char) : Prop := ∀ c ∈ cs, isBlank c = true

/-- What continues neither a number nor the hours of a clock. -/
def EndsNumber (cs : List Char) : Prop := ∀ c ∈ cs.head?, isDigit c = false ∧ c ≠ '.' ∧ c ≠ ':'

variable {cs rest : List Char}

theorem append_of_span {ds : List Char} (h : cs.span isDigit = (ds, rest)) :
    cs = ds ++ rest ∧ ∀ d ∈ ds, isDigit d = true := by
  rw [List.span_eq_takeWhile_dropWhile] at h
  obtain ⟨rfl, rfl⟩ := Prod.mk.inj h
  exact ⟨List.takeWhile_append_dropWhile.symm, fun d hd => List.mem_takeWhile_imp hd⟩

/-- What is split off is a number. -/
theorem append_of_spanNumber? {number : List Char} (h : spanNumber? cs = some (number, rest)) :
    cs = number ++ rest ∧ IsNumber number := by
  unfold spanNumber? at h
  split at h
  · cases h
  · -- digits with a point, which digits may follow, or without one
    next whole more hne hpoint =>
    obtain ⟨rfl, hwhole⟩ := append_of_span hpoint
    have hdigits : IsDigits whole := ⟨fun hnil => hne (by rw [hnil]), hwhole⟩
    split at h
    · cases h
      exact ⟨rfl, .whole hdigits⟩
    · next fraction after hne hfraction =>
      obtain ⟨rfl, hes⟩ := append_of_span hfraction
      cases h
      exact ⟨by simp, .fraction hdigits ⟨fun hnil => hne (by rw [hnil]), hes⟩⟩
  · next whole after hne _ hwhole =>
    obtain ⟨rfl, hds⟩ := append_of_span hwhole
    cases h
    exact ⟨rfl, .whole ⟨fun hnil => hne (by rw [hnil]), hds⟩⟩

/-- **A number** is split off whole, up to a character that cannot continue it. -/
theorem spanNumber?_append {number : List Char} (h : IsNumber number) (hrest : EndsNumber rest) :
    spanNumber? (number ++ rest) = some (number, rest) := by
  have hstop : ∀ d es, rest = d :: es → isDigit d = false := by
    rintro d es rfl
    exact (hrest d rfl).1
  unfold spanNumber?
  cases h with
  | whole hds =>
    rw [span_append hds.2 hstop]
    split
    · next heq => exact absurd (Prod.mk.inj heq).1 hds.1
    · next heq =>
      -- no point follows
      obtain ⟨rfl, rfl⟩ := Prod.mk.inj heq
      exact absurd rfl (hrest '.' rfl).2.1
    · next heq => rw [(Prod.mk.inj heq).1, (Prod.mk.inj heq).2]
  | @fraction ds es hds hes =>
    have hpoint : ∀ d fs, '.' :: (es ++ rest) = d :: fs → isDigit d = false := by
      rintro d fs ⟨⟩
      rfl
    rw [List.append_assoc, List.cons_append, span_append hds.2 hpoint]
    split
    · next heq => exact absurd (Prod.mk.inj heq).1 hds.1
    · next heq =>
      obtain ⟨rfl, hmore⟩ := Prod.mk.inj heq
      obtain rfl := (List.cons.inj hmore).2
      rw [span_append hes.2 hstop]
      split
      · next heq => exact absurd (Prod.mk.inj heq).1 hes.1
      · next heq => rw [(Prod.mk.inj heq).1, (Prod.mk.inj heq).2]
    · next hne heq =>
      obtain ⟨rfl, rfl⟩ := Prod.mk.inj heq
      exact absurd rfl (hne _)

theorem EndsNumber.span_eq (h : EndsNumber cs) : cs.span isDigit = ([], cs) := by
  have hstop : ∀ d es, cs = d :: es → isDigit d = false := by
    rintro d es rfl
    exact (h d rfl).1
  simpa using span_append (List.forall_mem_nil _) hstop

theorem spanNumber?_eq_none (h : EndsNumber cs) : spanNumber? cs = none := by
  unfold spanNumber?
  rw [h.span_eq]

/-- No colon follows the first digits of a number. -/
theorem IsNumber.exists_span {number : List Char} (h : IsNumber number) (hrest : EndsNumber rest) :
    ∃ ds tail, (number ++ rest).span isDigit = (ds, tail) ∧ ':' ∉ tail.head? := by
  cases h with
  | whole hds =>
    refine ⟨_, _, span_append hds.2 fun d es hd => (hrest d (by rw [hd]; rfl)).1, fun hcolon => ?_⟩
    exact (hrest ':' hcolon).2.2 rfl
  | @fraction ds es hds _ =>
    rw [List.append_assoc, List.cons_append]
    refine ⟨_, _, span_append hds.2 ?_, nofun⟩
    rintro d fs ⟨⟩
    rfl

/-- A word is split off letter by letter. -/
theorem spanWord?_eq_some_iff {word found : List Char} :
    spanWord? word cs = some (found, rest) ↔ cs = found ++ rest ∧ Varies word found := by
  -- letter by letter: each one of the word varies the one found
  induction word generalizing cs found with
  | nil =>
    simp only [spanWord?, Option.some.injEq, Prod.mk.injEq, Varies, List.forall₂_nil_left_iff]
    constructor
    · rintro ⟨rfl, rfl⟩
      exact ⟨rfl, rfl⟩
    · rintro ⟨rfl, rfl⟩
      exact ⟨rfl, rfl⟩
  | cons l word ih =>
    cases cs with
    | nil =>
      refine iff_of_false nofun ?_
      rintro ⟨hnil, hvaries⟩
      obtain ⟨rfl, -⟩ := List.append_eq_nil_iff.mp hnil.symm
      cases hvaries
    | cons c cs =>
      rw [spanWord?]
      split
      · next hvariant =>
        rw [Option.map_eq_some_iff]
        constructor
        · rintro ⟨⟨found, rest⟩, hfound, ⟨⟩⟩
          obtain ⟨rfl, hvaries⟩ := ih.mp hfound
          exact ⟨rfl, .cons hvariant hvaries⟩
        · rintro ⟨happend, hvaries⟩
          cases hvaries with
          | cons _ hvaries =>
            obtain ⟨rfl, hcs⟩ := List.cons.inj happend
            exact ⟨_, ih.mpr ⟨hcs, hvaries⟩, rfl⟩
      · next hvariant =>
        refine iff_of_false nofun ?_
        rintro ⟨happend, hvaries⟩
        cases hvaries with
        | cons hfirst _ =>
          obtain ⟨rfl, -⟩ := List.cons.inj happend
          exact hvariant hfirst

theorem Varies.exists_first {u : TimeUnit} (h : Varies u.name.toList cs) :
    ∃ c ds, cs = c :: ds ∧ variantOf u.letter c = true := by
  obtain ⟨word, hword⟩ := u.name_eq_cons
  rw [hword] at h
  cases h with
  | cons hfirst _ => exact ⟨_, _, rfl, hfirst⟩

/-- Only one unit can be named at the beginning of a text. -/
theorem findUnit?_eq_some_iff {found : List Char} :
    (TimeUnit.all.findSome? fun u => spanWord? u.name.toList cs) = some (found, rest) ↔
      cs = found ++ rest ∧ ∃ u : TimeUnit, Varies u.name.toList found := by
  constructor
  · intro h
    obtain ⟨u, -, hu⟩ := List.exists_of_findSome?_eq_some h
    obtain ⟨rfl, hvaries⟩ := spanWord?_eq_some_iff.mp hu
    exact ⟨rfl, u, hvaries⟩
  · rintro ⟨hcs, u, hvaries⟩
    have hfound := spanWord?_eq_some_iff.mpr ⟨hcs, hvaries⟩
    cases hfind : TimeUnit.all.findSome? fun u => spanWord? u.name.toList cs with
    | none =>
      have hnone := List.findSome?_eq_none_iff.mp hfind u u.mem_all
      cases hnone.symm.trans hfound
    | some p =>
      obtain ⟨u', -, hu'⟩ := List.exists_of_findSome?_eq_some hfind
      obtain ⟨hcs', hvaries'⟩ := spanWord?_eq_some_iff.mp hu'
      -- both names begin with the first character of the text
      obtain ⟨c, ds, rfl, hc⟩ := hvaries.exists_first
      obtain ⟨c', ds', hp, hc'⟩ := hvaries'.exists_first
      rw [hcs, hp] at hcs'
      obtain rfl := (List.cons.inj hcs').1
      obtain rfl := variantOf_inj hc hc'
      rw [← hu', hfound]

namespace Names

variable {u : TimeUnit} {word : List Char}

theorem exists_first (h : Names u word) :
    ∃ c ds, word = c :: ds ∧ variantOf u.letter c = true := by
  cases h with
  | one hword => exact hword.exists_first
  | many hword _ =>
    obtain ⟨c, ds, rfl, hfirst⟩ := hword.exists_first
    exact ⟨c, ds ++ [_], rfl, hfirst⟩

theorem head_not_blank (h : Names u word) : ∀ c ∈ (word ++ rest).head?, isBlank c = false := by
  obtain ⟨c, ds, rfl, hfirst⟩ := h.exists_first
  rintro d ⟨⟩
  exact (not_mark_of_variantOf u.isSmall_letter hfirst).1

theorem endsNumber (h : Names u word) : EndsNumber (word ++ rest) := by
  obtain ⟨c, ds, rfl, hfirst⟩ := h.exists_first
  rintro d ⟨⟩
  exact (not_mark_of_variantOf u.isSmall_letter hfirst).2

theorem length_le (h : Names u word) : 3 ≤ word.length := by
  have hname : 3 ≤ u.name.toList.length := by
    cases u <;> decide
  cases h with
  | one hword => rwa [← hword.length_eq]
  | many hword _ =>
    rw [List.length_append, ← hword.length_eq]
    exact Nat.le_add_right_of_le hname

end Names

/-! ### Blanks between them -/

theorem IsNumber.exists_first (h : IsNumber cs) : ∃ c ds, cs = c :: ds ∧ isDigit c = true := by
  cases h with
  | whole hds =>
    obtain ⟨c, ds, rfl⟩ := List.exists_cons_of_ne_nil hds.1
    exact ⟨c, ds, rfl, hds.2 c List.mem_cons_self⟩
  | fraction hds _ =>
    obtain ⟨c, ds, rfl⟩ := List.exists_cons_of_ne_nil hds.1
    exact ⟨c, _, rfl, hds.2 c List.mem_cons_self⟩

theorem endsNumber_of_isBlank {c : Char} (h : isBlank c = true) : EndsNumber (c :: cs) := by
  rintro d ⟨⟩
  refine ⟨?_, ?_, ?_⟩
  · by_contra hdigit
    rw [Bool.not_eq_false] at hdigit
    exact Bool.false_ne_true ((isBlank_eq_false_of_isDigit hdigit).symm.trans h)
  · rintro rfl
    cases h
  · rintro rfl
    cases h

theorem EndsNumber.gap {gap : List Char} (hgap : AllBlank gap) (h : EndsNumber cs) :
    EndsNumber (gap ++ cs) := by
  cases gap with
  | nil => exact h
  | cons b gap => exact endsNumber_of_isBlank (hgap b List.mem_cons_self)

theorem dropWhile_gap {gap : List Char} (hgap : AllBlank gap)
    (h : ∀ c ∈ cs.head?, isBlank c = false) : (gap ++ cs).dropWhile isBlank = cs := by
  rw [List.dropWhile_append_of_pos hgap]
  cases cs with
  | nil => rfl
  | cons c cs => rw [List.dropWhile_cons_of_neg (by simp [h c rfl])]

/-! ### Terms -/

/-- What cannot continue a term: a blank, a digit, or nothing. -/
def EndsTerm (cs : List Char) : Prop := ∀ c ∈ cs.head?, isBlank c = true ∨ isDigit c = true

/-- What is split off is a term. -/
theorem append_of_term? {t : Term} (h : term? cs = some (t, rest)) :
    ∃ gap, cs = t.number ++ (gap ++ (t.word ++ rest)) ∧ IsNumber t.number ∧ AllBlank gap ∧
      ∃ u, Names u t.word := by
  unfold term? at h
  obtain ⟨⟨number, after⟩, hspan, hterm⟩ := Option.bind_eq_some_iff.mp h
  obtain ⟨rfl, hnumber⟩ := append_of_spanNumber? hspan
  obtain ⟨⟨word, tail⟩, hunit, hplural⟩ := Option.bind_eq_some_iff.mp hterm
  obtain ⟨hafter, u, hvaries⟩ := findUnit?_eq_some_iff.mp hunit
  have hgap : AllBlank (after.takeWhile isBlank) := fun c hc => List.mem_takeWhile_imp hc
  have hsplit : after = after.takeWhile isBlank ++ (word ++ tail) := by
    rw [← hafter, List.takeWhile_append_dropWhile]
  refine ⟨after.takeWhile isBlank, ?_⟩
  simp only at hplural
  -- an s behind the word belongs to it, whatever follows
  split at hplural
  · next c more =>
    split at hplural
    · next hs =>
      cases hplural
      refine ⟨?_, hnumber, hgap, u, .many hvaries hs⟩
      rw [List.append_assoc, List.singleton_append, ← hsplit]
    · cases hplural
      exact ⟨by rw [← hsplit], hnumber, hgap, u, .one hvaries⟩
  · cases hplural
    exact ⟨by rw [← hsplit], hnumber, hgap, u, .one hvaries⟩

/-- **A term** at the beginning of a text is split off, where the rest cannot continue it. -/
theorem term?_append {t : Term} {gap : List Char} (hnumber : IsNumber t.number)
    (hgap : AllBlank gap) (hword : ∃ u, Names u t.word) (hrest : EndsTerm rest) :
    term? (t.number ++ (gap ++ (t.word ++ rest))) = some (t, rest) := by
  obtain ⟨number, word⟩ := t
  obtain ⟨u, hword⟩ := hword
  simp only at hnumber hword ⊢
  have hspan : spanNumber? (number ++ (gap ++ (word ++ rest))) =
      some (number, gap ++ (word ++ rest)) :=
    spanNumber?_append hnumber (hword.endsNumber.gap hgap)
  have hdrop : (gap ++ (word ++ rest)).dropWhile isBlank = word ++ rest :=
    dropWhile_gap hgap hword.head_not_blank
  have hs : ∀ c ∈ rest.head?, variantOf 's' c = false := by
    intro c hc
    by_contra hvariant
    rw [Bool.not_eq_false] at hvariant
    obtain ⟨hblank, hdigit, -⟩ := not_mark_of_variantOf (by decide) hvariant
    obtain h | h := hrest c hc
    · exact Bool.false_ne_true (hblank.symm.trans h)
    · exact Bool.false_ne_true (hdigit.symm.trans h)
  unfold term?
  simp only [hspan, Option.bind_eq_bind, Option.bind_some, hdrop]
  cases hword with
  | one hone =>
    rw [findUnit?_eq_some_iff.mpr ⟨rfl, u, hone⟩]
    simp only [Option.bind_some]
    cases rest with
    | nil => rfl
    | cons d rest => simp only [hs d rfl, Bool.false_eq_true, if_false]
  | many hone hd =>
    -- the name in the singular comes first, and then its plural
    rw [List.append_assoc, findUnit?_eq_some_iff.mpr ⟨rfl, u, hone⟩]
    simp only [Option.bind_some, List.singleton_append, hd, if_true]

/-! ### Phrases -/

/-- A text made of terms, each a number and the name of a unit, with or without blanks before,
within and after them. -/
inductive Phrase : List Term → List Char → Prop where
  | done {after : List Char} : AllBlank after → Phrase [] after
  | more {before gap rest : List Char} {t : Term} {ts : List Term} : AllBlank before →
      IsNumber t.number → AllBlank gap → (∃ u, Names u t.word) → Phrase ts rest →
      Phrase (t :: ts) (before ++ (t.number ++ (gap ++ (t.word ++ rest))))

namespace Phrase

variable {ts : List Term}

/-- Phrases begin with a blank or with a number. -/
theorem endsTerm (h : Phrase ts cs) : EndsTerm cs := by
  cases h with
  | done hafter => exact fun c hc => .inl (hafter c (List.mem_of_mem_head? hc))
  | @more before gap rest t ts hbefore hnumber _ _ _ =>
    -- what follows a word is a blank or the next number
    cases before with
    | nil =>
      obtain ⟨d, ds, hnumber, hdigit⟩ := hnumber.exists_first
      rw [hnumber]
      rintro c ⟨⟩
      exact .inr hdigit
    | cons b before =>
      rintro c ⟨⟩
      exact .inl (hbefore b List.mem_cons_self)

theorem length_le (h : Phrase ts cs) : ts.length ≤ cs.length := by
  induction h with
  | done _ => exact Nat.zero_le _
  | more _ hnumber _ _ _ ih =>
    obtain ⟨c, ds, hcons, -⟩ := hnumber.exists_first
    simp only [hcons, List.length_append, List.length_cons]
    omega

theorem names (h : Phrase ts cs) : ∀ t ∈ ts, ∃ u, Names u t.word := by
  induction h with
  | done _ => exact List.forall_mem_nil _
  | more _ _ _ hword _ ih => exact List.forall_mem_cons.mpr ⟨hword, ih⟩

/-- What is read as terms is a phrase. -/
theorem of_terms? {bound : Nat} (h : terms? bound cs = some ts) : Phrase ts cs := by
  -- the induction is on the bound, which the reader uses up term by term
  induction bound generalizing cs ts with
  | zero =>
    unfold terms? at h
    split at h
    · next hblank =>
      cases h
      exact .done (List.all_eq_true.mp hblank)
    · cases h
  | succ bound ih =>
    have hbefore : AllBlank (cs.takeWhile isBlank) := fun c hc => List.mem_takeWhile_imp hc
    have hsplit : cs.takeWhile isBlank ++ cs.dropWhile isBlank = cs :=
      List.takeWhile_append_dropWhile
    unfold terms? at h
    split at h
    · next hnil =>
      cases h
      rw [hnil, List.append_nil] at hsplit
      rw [hsplit] at hbefore
      exact .done hbefore
    · obtain ⟨⟨t, rest⟩, hterm, hmore⟩ := Option.bind_eq_some_iff.mp h
      obtain ⟨ts, hts, rfl⟩ := Option.map_eq_some_iff.mp hmore
      obtain ⟨gap, happend, hnumber, hgap, hword⟩ := append_of_term? hterm
      rw [← hsplit, happend]
      exact .more hbefore hnumber hgap hword (ih hts)

/-- A phrase is read as its terms, if the bound allows for them. -/
theorem terms?_eq {bound : Nat} (h : Phrase ts cs) (hbound : ts.length ≤ bound) :
    terms? bound cs = some ts := by
  induction h generalizing bound with
  | done hafter =>
    cases bound with
    | zero =>
      unfold terms?
      rw [if_pos (List.all_eq_true.mpr hafter)]
    | succ bound =>
      unfold terms?
      rw [List.dropWhile_eq_nil_iff.mpr hafter]
  | @more before gap rest t ts hbefore hnumber hgap hword hrest ih =>
    cases bound with
    | zero => cases hbound
    | succ bound =>
      obtain ⟨c, ds, hcons, hdigit⟩ := hnumber.exists_first
      have hterm := term?_append hnumber hgap hword hrest.endsTerm
      -- the blanks in front are dropped up to the number, which begins with a digit
      have hdrop : (before ++ (t.number ++ (gap ++ (t.word ++ rest)))).dropWhile isBlank =
          t.number ++ (gap ++ (t.word ++ rest)) := by
        refine dropWhile_gap hbefore ?_
        rw [hcons]
        rintro d ⟨⟩
        exact isBlank_eq_false_of_isDigit hdigit
      unfold terms?
      rw [hdrop]
      split
      · next hnil =>
        rw [hcons] at hnil
        cases hnil
      · simp only [hterm, Option.bind_eq_bind, Option.bind_some,
          ih (Nat.le_of_succ_le_succ hbound), Option.map_some]

end Phrase

/-- **Phrases** are read as their terms, and nothing else is read as terms. -/
theorem terms?_eq_some_iff {ts : List Term} : terms? cs.length cs = some ts ↔ Phrase ts cs :=
  ⟨Phrase.of_terms?, fun h => h.terms?_eq h.length_le⟩

end Interval
end RecordQuery
