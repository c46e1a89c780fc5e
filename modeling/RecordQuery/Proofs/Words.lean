import Mathlib.Data.List.DropRight
import Mathlib.Data.List.TakeDrop
import RecordQuery.Filter.Grammar

/-!
# Words and columns in the text of a filter

The lexical side of the query grammar: what is left of a text without the blanks at its ends, which
texts name an operator, a connective or a quantifier, and which denote a column.

* `Trimmed` — a text with no blank at either end; `Trimmed.trim_eq_self` and `exists_trim` say
  that `trim` finds the trimmed text inside a text.
* `Spells word cs` — up to blanks and ASCII letter case, `cs` is the word. The reader compares full
  Unicode lower case, which maps some letters beyond ASCII to ASCII letters; `lower_eq_iff` says
  that no keyword is met in that way.
* `IsColumn cs p` — `cs` is made of the identifiers of `p`, with dots between them and blanks around
  each of them.
-/

namespace RecordQuery

open Text

/-! ### Blanks at the ends -/

/-- No blank stands at the beginning or at the end. -/
structure Trimmed (cs : List Char) : Prop where
  first : ∀ c ds, cs = c :: ds → isBlank c = false
  last : ∀ ds c, cs = ds ++ [c] → isBlank c = false

theorem Trimmed.of_ends {c d : Char} {cs ds : List Char} (hc : isBlank c = false)
    (hd : isBlank d = false) (h : c :: cs = ds ++ [d]) : Trimmed (c :: cs) := by
  refine ⟨fun e es he => ?_, fun es e he => ?_⟩
  · rw [List.cons.injEq] at he
    rwa [← he.1]
  · rw [h] at he
    rwa [← (List.append_singleton_inj.mp he).2]

theorem Trimmed.of_forall {cs : List Char} (h : ∀ c ∈ cs, isBlank c = false) : Trimmed cs :=
  ⟨fun c ds hcs => h c (by simp [hcs]), fun ds c hcs => h c (by simp [hcs])⟩

theorem trimStart_append {before : List Char} (h : ∀ c ∈ before, isBlank c = true)
    (cs : List Char) : trimStart (before ++ cs) = trimStart cs :=
  List.dropWhile_append_of_pos h

theorem trimEnd_append {after : List Char} (h : ∀ c ∈ after, isBlank c = true) (cs : List Char) :
    trimEnd (cs ++ after) = trimEnd cs := by
  rw [trimEnd, List.reverse_append, List.dropWhile_append_of_pos (by simpa using h), trimEnd]

theorem Trimmed.trimEnd_eq {cs : List Char} (h : Trimmed cs) : trimEnd cs = cs := by
  refine List.rdropWhile_eq_self_iff.mpr fun hne => ?_
  have hlast := h.last _ _ (List.dropLast_append_getLast hne).symm
  simp [hlast]

theorem trim_eq_nil {cs : List Char} (h : ∀ c ∈ cs, isBlank c = true) : trim cs = [] := by
  have := trimStart_append h []
  rw [List.append_nil] at this
  rw [trim, this]
  rfl

/-- A trimmed text is found between blanks. -/
theorem trim_eq {before cs after : List Char} (hbefore : ∀ c ∈ before, isBlank c = true)
    (hafter : ∀ c ∈ after, isBlank c = true) (h : Trimmed cs) :
    trim (before ++ cs ++ after) = cs := by
  rw [trim, List.append_assoc, trimStart_append hbefore]
  cases cs with
  | nil =>
    rw [List.nil_append]
    exact trim_eq_nil hafter
  | cons c ds =>
    have hstart : trimStart (c :: ds ++ after) = c :: ds ++ after :=
      List.dropWhile_cons_of_neg (by simp [h.first c ds rfl])
    rw [hstart, trimEnd_append hafter, h.trimEnd_eq]

/-- A text is a trimmed text, the one that `trim` gives, between two runs of blanks. -/
theorem exists_trim (cs : List Char) :
    ∃ before after, cs = before ++ trim cs ++ after ∧ (∀ c ∈ before, isBlank c = true) ∧
      (∀ c ∈ after, isBlank c = true) ∧ Trimmed (trim cs) := by
  have hstart : cs.takeWhile isBlank ++ trimStart cs = cs := List.takeWhile_append_dropWhile
  have hend : trim cs ++ (trimStart cs).rtakeWhile isBlank = trimStart cs :=
    List.rdropWhile_append_rtakeWhile (p := isBlank) (l := trimStart cs)
  refine ⟨cs.takeWhile isBlank, (trimStart cs).rtakeWhile isBlank, ?_, ?_, ?_, ?_, ?_⟩
  · rw [List.append_assoc, hend, hstart]
  · exact fun c hc => List.mem_takeWhile_imp hc
  · exact fun c hc => List.mem_rtakeWhile_imp hc
  · intro c ds hcs
    have hne : trimStart cs ≠ [] := by
      rw [← hend, hcs]
      simp
    -- blanks are dropped up to the first character that is none
    have hfirst := List.head_dropWhile_not isBlank hne
    have hhead : (trimStart cs).head? = some c := by
      rw [← hend, hcs]
      rfl
    rwa [← List.head_eq_iff_head?_eq_some hne |>.mpr hhead]
  · intro ds c hcs
    have hne : (trimStart cs).rdropWhile isBlank ≠ [] := by
      show trim cs ≠ []
      rw [hcs]
      exact List.append_ne_nil_of_right_ne_nil ds (List.cons_ne_nil c [])
    have hlast := List.rdropWhile_last_not isBlank (trimStart cs) hne
    have hds : (trimStart cs).rdropWhile isBlank = ds ++ [c] := hcs
    simp only [hds, List.getLast_append_singleton] at hlast
    simpa using hlast

theorem trimmed_trim (cs : List Char) : Trimmed (trim cs) := by
  obtain ⟨-, -, -, -, -, h⟩ := exists_trim cs
  exact h

theorem Trimmed.trim_eq_self {cs : List Char} (h : Trimmed cs) : trim cs = cs := by
  have hends : trim ([] ++ cs ++ []) = cs := trim_eq (by simp) (by simp) h
  rwa [List.nil_append, List.append_nil] at hends

@[simp] theorem trim_trim (cs : List Char) : trim (trim cs) = trim cs :=
  (trimmed_trim cs).trim_eq_self

/-- Blanks around a text do not matter to `trim`. -/
theorem trim_append {before after : List Char} (hbefore : ∀ c ∈ before, isBlank c = true)
    (hafter : ∀ c ∈ after, isBlank c = true) (cs : List Char) :
    trim (before ++ cs ++ after) = trim cs := by
  obtain ⟨b, a, hcs, hb, ha, htrim⟩ := exists_trim cs
  have hbefore' : ∀ c ∈ before ++ b, isBlank c = true := by
    simpa [or_imp, forall_and] using ⟨hbefore, hb⟩
  have hafter' : ∀ c ∈ a ++ after, isBlank c = true := by
    simpa [or_imp, forall_and] using ⟨ha, hafter⟩
  -- the blanks outside join those that the text begins and ends with
  calc trim (before ++ cs ++ after)
      = trim ((before ++ b) ++ trim cs ++ (a ++ after)) := by
        congr 1
        conv_lhs => rw [hcs]
        simp only [List.append_assoc]
    _ = trim cs := trim_eq hbefore' hafter' htrim

theorem trim_blank_cons (cs : List Char) : trim (' ' :: cs) = trim cs := by
  have hblanks : trim ([' '] ++ cs ++ []) = trim cs :=
    trim_append (by simp; decide) (by simp) cs
  rwa [List.append_nil] at hblanks

theorem trim_length_le (cs : List Char) : (trim cs).length ≤ cs.length := by
  obtain ⟨before, after, hcs, -, -, -⟩ := exists_trim cs
  have hlength := congrArg List.length hcs
  simp only [List.length_append] at hlength
  omega

theorem trim_eq_nil_iff (cs : List Char) : trim cs = [] ↔ ∀ c ∈ cs, isBlank c = true := by
  refine ⟨fun h => ?_, trim_eq_nil⟩
  obtain ⟨before, after, hcs, hbefore, hafter, -⟩ := exists_trim cs
  rw [h, List.append_nil] at hcs
  rw [hcs]
  simpa [or_imp, forall_and] using ⟨hbefore, hafter⟩

/-! ### Letter case -/

/-- A lower case ASCII letter that is the image of ASCII letters alone. The Kelvin sign U+212A has
`k` as its lower case, and no keyword holds a `k`. -/
def isPlainLower (c : Char) : Bool := 97 ≤ c.toNat && c.toNat ≤ 122 && c.toNat != 107

private theorem lowerExpansions_notPlain :
    ∀ e ∈ lowerExpansions, ∃ c ∈ e.2.map Char.ofNat, isPlainLower c = false := by
  have hany : (lowerExpansions.all fun e =>
      (e.2.map Char.ofNat).any fun c => !isPlainLower c) = true := rfl
  intro e he
  obtain ⟨c, hc, hplain⟩ := List.any_eq_true.mp (List.all_eq_true.mp hany e he)
  exact ⟨c, hc, Bool.not_eq_true _ |>.mp (by simpa using hplain)⟩

/-- No run of the table of lower case moves a code point to a plain letter: its images all lie
below them, or all above, or are the image of the Kelvin sign alone. -/
private theorem lowerRuns_notPlain :
    ∀ r ∈ lowerRuns, (r.last : Int) + r.shift < 97 ∨ 122 < (r.first : Int) + r.shift ∨
      ((r.first : Int) + r.shift = 107 ∧ r.last = r.first) := by
  decide +kernel

/-- Beyond ASCII, the lower case of a character has one that is no plain letter. -/
private theorem imageUnder_notPlain {c : Char} (hc : ¬ c.toNat < 0x80) :
    ∃ d ∈ imageUnder lowerRuns lowerExpansions c, isPlainLower d = false := by
  simp only [imageUnder]
  split
  · next e he => exact lowerExpansions_notPlain e (List.mem_of_find?_eq_some he)
  · split
    · next m hm =>
      refine ⟨Char.ofNat m, by simp, ?_⟩
      obtain ⟨r, hr, him⟩ := List.exists_of_findSome?_eq_some hm
      rw [CaseRun.image?] at him
      split at him
      · next hin =>
        obtain ⟨hfirst, hlast, -⟩ := hin
        rw [Option.some.injEq] at him
        have hruns := lowerRuns_notPlain r hr
        simp only [isPlainLower, Bool.and_eq_false_iff, decide_eq_false_iff_not, bne_eq_false_iff_eq]
        -- a number that is no code point stands for the character zero
        have hn : (Char.ofNat m).toNat = m ∨ (Char.ofNat m).toNat = 0 := by
          by_cases hvalid : m.isValidChar
          · exact .inl (congrArg Char.toNat (dif_pos hvalid))
          · exact .inr (congrArg Char.toNat (dif_neg hvalid))
        rcases hn with hn | hn <;> omega
      · cases him
    · refine ⟨c, by simp, ?_⟩
      simp only [isPlainLower, Bool.and_eq_false_iff, decide_eq_false_iff_not, bne_eq_false_iff_eq]
      omega

theorem isAlpha_iff (c : Char) :
    c.isAlpha = true ↔ (65 ≤ c.toNat ∧ c.toNat ≤ 90) ∨ (97 ≤ c.toNat ∧ c.toNat ≤ 122) := by
  have hupper : c.isUpper = true ↔ 65 ≤ c.toNat ∧ c.toNat ≤ 90 := decide_eq_true_iff
  have hlower : c.isLower = true ↔ 97 ≤ c.toNat ∧ c.toNat ≤ 122 :=
    Bool.and_eq_true_iff.trans (and_congr decide_eq_true_iff decide_eq_true_iff)
  rw [← hupper, ← hlower]
  exact Bool.or_eq_true_iff

theorem toLower_eq_self {c : Char} (h : ¬ (65 ≤ c.toNat ∧ c.toNat ≤ 90)) : c.toLower = c :=
  dif_neg h

theorem map_toLower_eq_self {cs : List Char} (h : ∀ c ∈ cs, isPlainLower c = true) :
    cs.map Char.toLower = cs := by
  refine (List.map_congr_left fun c hc => ?_).trans (List.map_id cs)
  have hc := h c hc
  simp only [isPlainLower, Bool.and_eq_true, decide_eq_true_eq] at hc
  exact toLower_eq_self (by omega)

private theorem toNat_lt_of_toLower {c : Char} (h : isPlainLower c.toLower = true) :
    c.toNat < 0x80 := by
  by_contra hc
  rw [toLower_eq_self (by omega)] at h
  simp only [isPlainLower, Bool.and_eq_true, decide_eq_true_eq] at h
  omega

/-- **Lower case of a keyword.** For a word of plain letters, Unicode lower case meets it exactly
where ASCII lower case does, letter by letter. -/
theorem lower_eq_iff {word : List Char} (hword : ∀ c ∈ word, isPlainLower c = true)
    (cs : List Char) : lower cs = word ↔ cs.map Char.toLower = word := by
  unfold lower
  generalize ([] : List Char) = before
  induction cs generalizing before word with
  | nil => simp [lowerAfter]
  | cons c cs ih =>
    rw [lowerAfter, List.map_cons]
    by_cases hc : c.toNat < 0x80
    · -- an ASCII character has one image, its ASCII lower case
      have himage : lowerChar c = [c.toLower] := by rw [lowerChar, if_pos hc]
      rw [if_neg (by omega), himage, List.singleton_append]
      cases word with
      | nil => simp
      | cons w ws =>
        rw [List.cons.injEq, List.cons.injEq, ih fun d hd => hword d (List.mem_cons_of_mem w hd)]
    · -- neither side can be the word: the image has a letter that is not plain, and so has `c`
      refine iff_of_false (fun h => ?_) (fun h => ?_)
      · rw [← h] at hword
        split at hword
        · simp only [List.cons_append, List.mem_cons, forall_eq_or_imp] at hword
          have hfirst := hword.1
          split at hfirst <;> exact absurd hfirst (by decide)
        · obtain ⟨d, hd, hplain⟩ := imageUnder_notPlain hc
          rw [lowerChar, if_neg hc] at hword
          have := hword d (List.mem_append_left _ hd)
          rw [hplain] at this
          cases this
      · have hfirst := hword c.toLower (by simp [← h])
        exact hc (toNat_lt_of_toLower hfirst)

/-! ### Keywords -/

/-- Up to blanks around it and the case of its ASCII letters, the text is the word. -/
def Spells (word : String) (cs : List Char) : Prop := (trim cs).map Char.toLower = word.toList

@[simp] theorem spells_trim_iff {word : String} {cs : List Char} :
    Spells word (trim cs) ↔ Spells word cs := by
  rw [Spells, Spells, trim_trim]

theorem normalToken_eq_iff {word : String} (hword : ∀ c ∈ word.toList, isPlainLower c = true)
    (cs : List Char) : normalToken (String.ofList cs) = word ↔ Spells word cs := by
  rw [normalToken, String.toList_ofList, Spells, ← lower_eq_iff hword, ← String.toList_inj,
    String.toList_ofList]

/-- Looking a name up finds what bears it, when all things are listed and no two have one name. -/
theorem named?_eq_some_iff {α : Type} {name : α → String} {all : List α}
    (hall : ∀ a, named? name all (name a) = some a) (s : String) (a : α) :
    named? name all s = some a ↔ s = name a := by
  constructor
  · intro h
    have hname := List.find?_some h
    rw [beq_iff_eq] at hname
    exact hname.symm
  · rintro rfl
    exact hall a

theorem Operator.word_plain (o : Operator) : ∀ c ∈ o.word.toList, isPlainLower c = true :=
  List.all_eq_true.mp (by cases o <;> rfl)

theorem Connective.word_plain (k : Connective) : ∀ c ∈ k.word.toList, isPlainLower c = true :=
  List.all_eq_true.mp (by cases k <;> rfl)

theorem Quantifier.word_plain (q : Quantifier) : ∀ c ∈ q.word.toList, isPlainLower c = true :=
  List.all_eq_true.mp (by cases q <;> rfl)

theorem Operator.ofToken?_eq_some_iff (cs : List Char) (o : Operator) :
    Operator.ofToken? (String.ofList cs) = some o ↔ Spells o.word cs := by
  rw [Operator.ofToken?, Operator.ofWord?,
    named?_eq_some_iff (by intro a; cases a <;> decide), normalToken_eq_iff o.word_plain]

theorem Combinator.ofToken?_eq_some_iff (cs : List Char) (k : Combinator) :
    Combinator.ofToken? (String.ofList cs) = some k ↔ Spells k.word cs := by
  rw [Combinator.ofToken?, Combinator.ofWord?,
    named?_eq_some_iff (by rintro (a | a) <;> cases a <;> decide), normalToken_eq_iff]
  cases k with
  | connective k => exact k.word_plain
  | quantifier q => exact q.word_plain

theorem Connective.ofToken?_eq_some_iff (cs : List Char) (k : Connective) :
    Connective.ofToken? (String.ofList cs) = some k ↔ Spells k.word cs := by
  have hcombinator := Combinator.ofToken?_eq_some_iff cs (.connective k)
  rw [Combinator.word] at hcombinator
  rw [Connective.ofToken?, ← hcombinator]
  split
  · next c hc => simp [hc]
  · next hne => exact ⟨nofun, fun h => absurd h (hne k)⟩

theorem Quantifier.ofToken?_eq_some_iff (cs : List Char) (q : Quantifier) :
    Quantifier.ofToken? (String.ofList cs) = some q ↔ Spells q.word cs := by
  have hcombinator := Combinator.ofToken?_eq_some_iff cs (.quantifier q)
  rw [Combinator.word] at hcombinator
  rw [Quantifier.ofToken?, ← hcombinator]
  split
  · next c hc => simp [hc]
  · next hne => exact ⟨nofun, fun h => absurd h (hne q)⟩

/-! ### Columns -/

/-- An ASCII letter or underscore, and after it letters, digits and underscores. -/
def IsIdentifier : List Char → Prop
  | [] => False
  | c :: cs => opensIdentifier c = true ∧ ∀ d ∈ cs, continuesIdentifier d = true

/-- The text of a path: its identifiers with dots between them, and blanks around each. -/
def IsColumn (cs : List Char) (p : ColumnPath) : Prop :=
  ∃ parts, parts ≠ [] ∧ ['.'].intercalate parts = cs ∧ (∀ q ∈ parts, IsIdentifier (trim q)) ∧
    p.segments = parts.map fun q => String.ofList (trim q)

/-- A character of an identifier is an ASCII letter, a digit or an underscore. -/
theorem continuesIdentifier_of_mem {cs : List Char} (h : IsIdentifier cs) :
    ∀ c ∈ cs, continuesIdentifier c = true := by
  cases cs with
  | nil => simp
  | cons c cs =>
    rintro d (_ | ⟨_, hd⟩)
    · have hc := h.1
      simp only [opensIdentifier, continuesIdentifier, Char.isAlphanum, Bool.or_eq_true] at hc ⊢
      exact hc.imp_left .inl
    · exact h.2 d hd

theorem continuesIdentifier_iff (c : Char) :
    continuesIdentifier c = true ↔ (65 ≤ c.toNat ∧ c.toNat ≤ 90) ∨ (97 ≤ c.toNat ∧ c.toNat ≤ 122) ∨
      (48 ≤ c.toNat ∧ c.toNat ≤ 57) ∨ c.toNat = 95 := by
  have hunderscore : c = '_' ↔ c.toNat = 95 := ⟨by rintro rfl; rfl, Char.toNat_inj (d := '_') |>.mp⟩
  simp only [continuesIdentifier, Char.isAlphanum, isAlpha_iff, Char.isDigit, Bool.or_eq_true,
    Bool.and_eq_true, decide_eq_true_eq, beq_iff_eq, hunderscore, ge_iff_le, UInt32.le_iff_toNat_le,
    or_assoc]
  rfl

/-- A character of an identifier is no blank and no mark of the grammar. -/
theorem continuesIdentifier_ne {c : Char} (h : continuesIdentifier c = true) :
    isBlank c = false ∧ c ≠ '.' ∧ c ≠ ',' ∧ c ≠ ':' ∧ c ≠ '(' ∧ c ≠ ')' := by
  refine ⟨?_, ?_, ?_, ?_, ?_, ?_⟩
  · rw [continuesIdentifier_iff] at h
    simp only [isBlank, Bool.or_eq_false_iff, Bool.and_eq_false_iff, decide_eq_false_iff_not,
      beq_eq_false_iff_ne]
    omega
  all_goals
    rintro rfl
    revert h
    decide

theorem span_append {P : Char → Bool} {cs : List Char} (h : ∀ c ∈ cs, P c = true)
    {ds : List Char} (hds : ∀ d es, ds = d :: es → P d = false) :
    (cs ++ ds).span P = (cs, ds) := by
  rw [List.span_eq_takeWhile_dropWhile, List.takeWhile_append_of_pos h,
    List.dropWhile_append_of_pos h]
  cases ds with
  | nil => simp
  | cons d es => simp [hds d es rfl]

/-- Blanks before a text stand before its first piece. -/
private theorem splitOn_append_left {sep : Char} {before : List Char} (h : sep ∉ before)
    (cs : List Char) : (before ++ cs).splitOn sep = (cs.splitOn sep).modifyHead (before ++ ·) := by
  induction before with
  | nil => exact (congrFun List.modifyHead_id (cs.splitOn sep)).symm
  | cons b bs ih =>
    rw [List.mem_cons, not_or] at h
    rw [List.cons_append, List.splitOn_cons_eq_if_modifyHead, if_neg (by simpa using Ne.symm h.1),
      ih h.2, List.modifyHead_modifyHead]
    rfl

/-- Blanks after a text stand after its last piece. -/
private theorem splitOn_append_right {sep : Char} {after : List Char} (h : sep ∉ after)
    (cs : List Char) : ∃ ps p, cs.splitOn sep = ps ++ [p] ∧
      (cs ++ after).splitOn sep = ps ++ [p ++ after] := by
  induction cs with
  | nil => exact ⟨[], [], rfl, by simpa using List.splitOn_eq_singleton h⟩
  | cons c cs ih =>
    obtain ⟨ps, p, hcs, hafter⟩ := ih
    rw [List.cons_append, List.splitOn_cons_eq_if_modifyHead, List.splitOn_cons_eq_if_modifyHead,
      hcs, hafter]
    -- at the separator a new part begins, and else the first part is longer
    split
    · exact ⟨[] :: ps, p, rfl, rfl⟩
    · cases ps with
      | nil => exact ⟨[], c :: p, rfl, rfl⟩
      | cons q qs => exact ⟨(c :: q) :: qs, p, rfl, rfl⟩

/-- Cutting at a separator, as the library does it. -/
theorem pieces_eq_splitOn (sep : Char) (cs : List Char) : pieces sep cs = cs.splitOn sep := by
  induction cs with
  | nil => rfl
  | cons c cs ih =>
    rw [pieces, ih, List.splitOn_cons_eq_if_modifyHead]
    by_cases hc : c = sep
    · simp [hc]
    · rw [if_neg hc, if_neg (by simpa using hc)]
      cases h : cs.splitOn sep with
      | nil => exact absurd h (List.splitOn_ne_nil sep cs)
      | cons p ps => rfl

/-- Blanks at the ends of a text make no difference to its trimmed pieces. -/
private theorem map_trim_splitOn {sep : Char} (hsep : isBlank sep = false) (cs : List Char) :
    ((trim cs).splitOn sep).map trim = (cs.splitOn sep).map trim := by
  obtain ⟨before, after, hcs, hbefore, hafter, -⟩ := exists_trim cs
  have hnot : ∀ bs : List Char, (∀ c ∈ bs, isBlank c = true) → sep ∉ bs := by
    intro bs hbs hmem
    rw [hbs sep hmem] at hsep
    cases hsep
  obtain ⟨ps, p, hps, hpsAfter⟩ := splitOn_append_right (hnot after hafter) (trim cs)
  conv_rhs => rw [hcs, List.append_assoc, splitOn_append_left (hnot before hbefore), hpsAfter]
  rw [hps]
  -- the blanks are around the only part, or before the first and after the last one
  cases ps with
  | nil =>
    have := trim_append hbefore hafter p
    simpa [List.append_assoc] using this.symm
  | cons q qs =>
    have hq : trim (before ++ q ++ []) = trim q := trim_append hbefore (by simp) q
    have hp : trim ([] ++ p ++ after) = trim p := trim_append (by simp) hafter p
    rw [List.append_nil] at hq
    rw [List.nil_append] at hp
    simp [hq, hp]

/-- The tail of an identifier, where no line break can stand at the end. -/
private theorem isIdentifierTail_iff {cs : List Char} (hlast : ∀ ds c, cs = ds ++ [c] →
    isBlank c = false) : isIdentifierTail cs = true ↔ ∀ d ∈ cs, continuesIdentifier d = true := by
  induction cs with
  | nil => simp [isIdentifierTail]
  | cons c cs ih =>
    have hcs := ih fun ds d hds => hlast (c :: ds) d (by rw [hds, List.cons_append])
    -- a line break at the very end would be allowed, but it is a blank
    have hbreak : (c == '\n' && cs.isEmpty) = false := by
      by_contra h
      simp only [Bool.not_eq_false, Bool.and_eq_true, beq_iff_eq, List.isEmpty_iff] at h
      obtain ⟨rfl, rfl⟩ := h
      exact absurd (hlast [] '\n' rfl) (by decide)
    rw [isIdentifierTail, hbreak, Bool.or_false, Bool.and_eq_true, hcs, List.forall_mem_cons]

/-- A trimmed text is a segment exactly when it is an identifier. -/
theorem isSegment_iff {cs : List Char} (h : Trimmed cs) :
    isSegment (String.ofList cs) = true ↔ IsIdentifier cs := by
  rw [isSegment, String.toList_ofList]
  cases cs with
  | nil => simp [IsIdentifier]
  | cons c cs =>
    have htail : isIdentifierTail cs = true ↔ ∀ d ∈ cs, continuesIdentifier d = true :=
      isIdentifierTail_iff fun ds d hds => h.last (c :: ds) d (by rw [hds, List.cons_append])
    simp only [Bool.and_eq_true, htail, IsIdentifier]

/-- The tail of an identifier, and perhaps a line break. -/
private theorem exists_tail {cs : List Char} (h : isIdentifierTail cs = true) :
    ∃ ds after, cs = ds ++ after ∧ (∀ d ∈ ds, continuesIdentifier d = true) ∧
      (after = [] ∨ after = ['\n']) := by
  induction cs with
  | nil => exact ⟨[], [], rfl, List.forall_mem_nil _, .inl rfl⟩
  | cons c cs ih =>
    rw [isIdentifierTail, Bool.or_eq_true, Bool.and_eq_true, Bool.and_eq_true, beq_iff_eq,
      List.isEmpty_iff] at h
    -- one more character of an identifier, or the line break at the end
    obtain ⟨hc, hcs⟩ | ⟨rfl, rfl⟩ := h
    · obtain ⟨ds, after, rfl, hds, hafter⟩ := ih hcs
      exact ⟨c :: ds, after, rfl, List.forall_mem_cons.mpr ⟨hc, hds⟩, hafter⟩
    · exact ⟨[], ['\n'], rfl, List.forall_mem_nil _, .inr rfl⟩

/-- A segment is an identifier, and perhaps a line break. -/
theorem exists_identifier {s : String} (h : isSegment s = true) :
    ∃ ds after, s.toList = ds ++ after ∧ IsIdentifier ds ∧ (after = [] ∨ after = ['\n']) := by
  rw [isSegment] at h
  split at h
  · cases h
  · next c cs hcs =>
    rw [Bool.and_eq_true] at h
    obtain ⟨ds, after, rfl, hds, hafter⟩ := exists_tail h.2
    exact ⟨c :: ds, after, hcs, ⟨h.1, hds⟩, hafter⟩

theorem ColumnPath.ofSegments_eq_ok_iff (segments : List String) (p : ColumnPath) :
    ColumnPath.ofSegments segments = .ok p ↔ p.segments = segments := by
  rw [ColumnPath.ofSegments]
  constructor
  · intro h
    split at h
    · cases h
    · split at h
      · cases h
        rfl
      · split at h <;> cases h
  · -- the segments of a path are valid already
    rintro rfl
    rw [dif_neg p.nonempty, dif_pos p.valid]

/-- **Columns.** A text is read as a path exactly when it is made of the path's identifiers, with
dots between them and blanks around them. -/
theorem ColumnPath.parse_eq_ok_iff (cs : List Char) (p : ColumnPath) :
    ColumnPath.parse (String.ofList cs) = .ok p ↔ IsColumn cs p := by
  have hdot : isBlank '.' = false := by decide
  rw [ColumnPath.parse, String.toList_ofList]
  constructor
  · intro h
    split at h
    · cases h
    · rw [pieces_eq_splitOn, ColumnPath.ofSegments_eq_ok_iff] at h
      have hsegments : p.segments = (cs.splitOn '.').map fun q => String.ofList (trim q) := by
        rw [h]
        have := congrArg (List.map String.ofList) (map_trim_splitOn hdot cs)
        simpa [Function.comp_def] using this
      refine ⟨cs.splitOn '.', List.splitOn_ne_nil _ _, List.intercalate_splitOn _, ?_, hsegments⟩
      intro q hq
      -- the segments of a path are valid, and trimmed texts that are valid are identifiers
      have hvalid := List.all_eq_true.mp p.valid (String.ofList (trim q)) (by
        rw [hsegments]
        exact List.mem_map_of_mem hq)
      exact (isSegment_iff (trimmed_trim q)).mp hvalid
  · rintro ⟨parts, hne, rfl, hid, hsegments⟩
    -- blanks and identifiers have no dot, so the text is cut into these parts again
    have hnodot : ∀ q ∈ parts, '.' ∉ q := by
      intro q hq hmem
      obtain ⟨before, after, hparts, hbefore, hafter, -⟩ := exists_trim q
      rw [hparts, List.mem_append, List.mem_append] at hmem
      rcases hmem with (hmem | hmem) | hmem
      · exact absurd (hbefore '.' hmem) (by decide)
      · have := continuesIdentifier_of_mem (hid q hq) '.' hmem
        exact (continuesIdentifier_ne this).2.1 rfl
      · exact absurd (hafter '.' hmem) (by decide)
    have hpieces := List.splitOn_intercalate '.' hnodot hne
    have htrim := map_trim_splitOn hdot (['.'].intercalate parts)
    rw [hpieces] at htrim
    have hnonempty : (trim (['.'].intercalate parts)).isEmpty = false := by
      rw [List.isEmpty_eq_false_iff]
      intro hnil
      cases parts with
      | nil => exact hne rfl
      | cons q qs =>
        rw [hnil, List.splitOn_nil, List.map_singleton, List.map_cons, List.cons.injEq] at htrim
        have := hid q List.mem_cons_self
        rw [← htrim.1] at this
        exact this
    simp only [hnonempty, Bool.false_eq_true, if_false]
    rw [pieces_eq_splitOn, ColumnPath.ofSegments_eq_ok_iff, hsegments]
    have := congrArg (List.map String.ofList) htrim
    simpa [Function.comp_def] using this.symm

/-- A character of joined parts is the separator or stands in a part. -/
private theorem mem_of_mem_intercalate {sep c : Char} {parts : List (List Char)}
    (h : c ∈ [sep].intercalate parts) : c = sep ∨ ∃ q ∈ parts, c ∈ q := by
  induction parts with
  | nil => simp at h
  | cons q qs ih =>
    cases qs with
    | nil =>
      rw [List.intercalate_singleton] at h
      exact .inr ⟨q, List.mem_cons_self, h⟩
    | cons r rs =>
      rw [List.intercalate_cons_cons, List.mem_append, List.mem_append, List.mem_singleton] at h
      rcases h with (h | h) | h
      · exact .inr ⟨q, List.mem_cons_self, h⟩
      · exact .inl h
      · exact (ih h).imp_right fun ⟨t, ht, hc⟩ => ⟨t, List.mem_cons_of_mem q ht, hc⟩

/-- The text of a column holds no mark of the grammar. -/
theorem IsColumn.notMem {cs : List Char} {p : ColumnPath} (h : IsColumn cs p) :
    ':' ∉ cs ∧ '(' ∉ cs ∧ ')' ∉ cs ∧ ',' ∉ cs := by
  obtain ⟨parts, -, rfl, hid, -⟩ := h
  -- a column consists of dots, blanks and the characters of identifiers
  have hmem : ∀ c ∈ ['.'].intercalate parts, c = '.' ∨ isBlank c = true ∨
      continuesIdentifier c = true := by
    intro c hc
    obtain hdot | ⟨q, hq, hcq⟩ := mem_of_mem_intercalate hc
    · exact .inl hdot
    · obtain ⟨before, after, hqs, hbefore, hafter, -⟩ := exists_trim q
      rw [hqs, List.mem_append, List.mem_append] at hcq
      rcases hcq with (hcq | hcq) | hcq
      · exact .inr (.inl (hbefore c hcq))
      · exact .inr (.inr (continuesIdentifier_of_mem (hid q hq) c hcq))
      · exact .inr (.inl (hafter c hcq))
  refine ⟨?_, ?_, ?_, ?_⟩ <;> exact fun hc => absurd (hmem _ hc) (by decide)

end RecordQuery
