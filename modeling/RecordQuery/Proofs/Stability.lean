import RecordQuery.Criteria
import RecordQuery.Proofs.Printing

/-!
# Texts that are written again

A filter that was read is written in the canonical form: a bare value becomes a call of `eq`. The
canonical text is read as the same tree exactly when the parentheses of the first text balance, and
this is the only thing that counts. The reason is `Derives.printable_iff`: a text derives a
printable form when it balances, and only then.

The invariant that goes down the tree is the balance of the text. Every argument of a combinator is
a part, and the parts of a body balance one by one, so a bare value can be unbalanced only where no
combinator stands around it. The reader of one filter accepts such a value; the reader of a list
does not, since it takes the whole text for a body.

* `Filter.exists_format_of_parse` — one filter: the canonical text is read as the same tree when the
  text balances, and is not read at all when it does not.
* `Criteria.parse_texts_of_parse` — criteria that are read from text are read from their own texts
  again, and each value in them can stand between the parentheses of any operator.
-/

namespace RecordQuery

open Text

/-! ### Balance and blanks -/

private theorem ne_of_isBlank {c : Char} (h : isBlank c = true) : c ≠ '(' ∧ c ≠ ')' := by
  constructor <;> rintro rfl <;> exact absurd h (by decide)

theorem balanced_trim_iff (cs : List Char) : Balanced (trim cs) ↔ Balanced cs := by
  obtain ⟨before, after, hcs, hbefore, hafter, -⟩ := exists_trim cs
  have hbefore' : Balanced before := balanced_of_forall fun c hc => ne_of_isBlank (hbefore c hc)
  conv_rhs => rw [hcs, List.append_assoc]
  exact ((closes_append_of_forall (fun c hc => ne_of_isBlank (hafter c hc)) 0 (trim cs)).symm).trans
    (hbefore'.append_iff 0 _).symm

/-- Nor do they count for its commas. -/
theorem guarded_trim {cs : List Char} (h : Guarded 0 cs) : Guarded 0 (trim cs) := by
  obtain ⟨before, after, hcs, hbefore, -, -⟩ := exists_trim cs
  have hopen : before.count '(' = 0 :=
    List.count_eq_zero.mpr fun hmem => (ne_of_isBlank (hbefore _ hmem)).1 rfl
  have hclose : before.count ')' = 0 :=
    List.count_eq_zero.mpr fun hmem => (ne_of_isBlank (hbefore _ hmem)).2 rfl
  intro p q hpq
  have hlt := h (before ++ p) (q ++ after) (by rw [hcs, hpq]; simp)
  rwa [List.count_append, List.count_append, hopen, hclose, Nat.zero_add, Nat.zero_add] at hlt

/-! ### Printable forms of balanced texts -/

theorem IsColumn.plain {cs : List Char} {p : ColumnPath} (h : IsColumn cs p) : p.Plain :=
  ColumnPath.plain_of_parse ((ColumnPath.parse_eq_ok_iff cs p).mpr h)

/-- A text of a column, a colon and something more balances when the rest does. -/
private theorem balanced_column_iff {before rest : List Char} {p : ColumnPath}
    (column : IsColumn before p) : Balanced (before ++ ':' :: rest) ↔ Balanced rest := by
  obtain ⟨-, hopen, hclose, -⟩ := column.notMem
  have hbefore : Balanced before := balanced_of_forall fun c hc =>
    ⟨fun heq => hopen (heq ▸ hc), fun heq => hclose (heq ▸ hc)⟩
  exact (hbefore.append_iff 0 _).trans (closes_other_iff (by decide) (by decide) 0 rest)

private theorem balanced_spelt_call {keyword : String}
    (hplain : ∀ c ∈ keyword.toList, isPlainLower c = true) {word body : List Char}
    (spelt : Spells keyword word) (hbody : Balanced body) :
    Balanced (word ++ '(' :: (body ++ [')'])) := by
  have hopen : '(' ∉ word := notMem_of_spells hplain spelt (by decide) (by decide)
  have hclose : ')' ∉ word := notMem_of_spells hplain spelt (by decide) (by decide)
  have hcomma : ',' ∉ word := notMem_of_spells hplain spelt (by decide) (by decide)
  exact (hbody.call hopen hclose hcomma).1

/-- A leaf has a plain column and a plain text for its value, which balances when the leaf's text
does. -/
theorem Derives.leaf_cases {cs : List Char} {p : ColumnPath} {o : Operator} {v : RawText}
    (h : Derives cs (.leaf p o v)) :
    p.Plain ∧ ∃ s, v = .plain s ∧ (Balanced s.toList ↔ Balanced cs) := by
  cases h with
  | @call _ before word body _ _ text column keyword value =>
    refine ⟨column.plain, String.ofList body, rfl, ?_⟩
    rw [String.toList_ofList, ← balanced_trim_iff cs, text, balanced_column_iff column]
    -- a value in parentheses is balanced, a bare one may not be
    exact iff_of_true value (balanced_spelt_call o.word_plain keyword value)
  | @bare _ before rest _ text column nonblank noCall =>
    refine ⟨column.plain, String.ofList (trim rest), rfl, ?_⟩
    rw [String.toList_ofList, balanced_trim_iff, ← balanced_trim_iff cs, text,
      balanced_column_iff column]

theorem Derives.balanced_group {cs : List Char} {k : Connective} {us : List Surface}
    (h : Derives cs (.group k us)) : Balanced cs := by
  cases h with
  | group text keyword arguments children =>
    rw [← balanced_trim_iff, text]
    exact balanced_spelt_call k.word_plain keyword arguments.balanced_body

theorem Derives.balanced_quantified {cs : List Char} {q : Quantifier} {p : ColumnPath}
    {us : List Surface} (h : Derives cs (.quantified q p us)) : Balanced cs := by
  cases h with
  | quantified text column keyword arguments children =>
    rw [← balanced_trim_iff, text, balanced_column_iff column]
    exact balanced_spelt_call q.word_plain keyword arguments.balanced_body

namespace Surface

mutual

/-- What a balanced text derives is printable. -/
theorem printable_of_derives : ∀ (u : Surface) {cs : List Char}, Derives cs u → Balanced cs →
    u.Printable
  | leaf p o v, cs, h, hcs => by
    obtain ⟨hplain, s, hv, hs⟩ := h.leaf_cases
    exact ⟨hplain, s, hv, hs.mpr hcs⟩
  | group k us, cs, h, _ => by
    -- a call has a balanced body, whatever text it is read from
    cases h with
    | group _ _ arguments children =>
      exact ⟨ne_nil_of_derives arguments children,
        printableAll_of_derives us children arguments.balanced⟩
  | quantified q p us, cs, h, _ => by
    cases h with
    | quantified _ column _ arguments children =>
      exact ⟨column.plain, ne_nil_of_derives arguments children,
        printableAll_of_derives us children arguments.balanced⟩

theorem printableAll_of_derives : ∀ (us : List Surface) {parts : List (List Char)},
    List.Forall₂ Derives parts us → (∀ p ∈ parts, Balanced p) → PrintableAll us
  | [], _, _, _ => trivial
  | u :: us, _, .cons hu hus, hparts => by
    rw [List.forall_mem_cons] at hparts
    exact ⟨printable_of_derives u hu hparts.1, printableAll_of_derives us hus hparts.2⟩

end

end Surface

/-- **Printable forms.** What a text derives is printable exactly when the text balances. -/
theorem Derives.printable_iff {cs : List Char} {u : Surface} (h : Derives cs u) :
    u.Printable ↔ Balanced cs := by
  refine ⟨fun hu => ?_, Surface.printable_of_derives u h⟩
  cases u with
  | leaf p o v =>
    obtain ⟨-, s, hv, hs⟩ := h.leaf_cases
    obtain ⟨-, s', hv', hs'⟩ := hu
    cases hv.symm.trans hv'
    exact hs.mp hs'
  | group k us => exact h.balanced_group
  | quantified q p us => exact h.balanced_quantified

/-! ### One filter -/

/-- **A written call behind a column** is read as a call: what it derives is a leaf with a balanced
value, or a quantified form with the parts of its body. -/
theorem Derives.call_cases {p : ColumnPath} (hp : p.Plain) {word : String}
    (hplain : ∀ c ∈ word.toList, isPlainLower c = true)
    (named : (∃ o : Operator, Spells o.word word.toList) ∨
      ∃ q : Quantifier, Spells q.word word.toList)
    {body : List Char} {u : Surface}
    (h : Derives (p.text.toList ++ ':' :: (word.toList ++ '(' :: (body ++ [')']))) u) :
    (∃ o : Operator, Spells o.word word.toList ∧ Balanced body) ∨
      ∃ (q : Quantifier) (parts : List (List Char)) (us : List Surface),
        Spells q.word word.toList ∧ Parts body parts ∧ List.Forall₂ Derives parts us := by
  have hcolumn := hp.isColumn_text
  have htrimmed : Trimmed (p.text.toList ++ ':' :: (word.toList ++ '(' :: (body ++ [')']))) := by
    obtain ⟨c, cs, htext, hc⟩ := hp.first_text
    have hcall : Trimmed (c :: (cs ++ ':' :: word.toList) ++ '(' :: (body ++ [')'])) :=
      trimmed_call hc body
    rw [htext]
    simpa using hcall
  -- whatever rule applies behind a column, the text is cut at the same colon
  have hrest : ∀ {before rest : List Char} {p' : ColumnPath},
      trim (p.text.toList ++ ':' :: (word.toList ++ '(' :: (body ++ [')']))) =
        before ++ ':' :: rest → IsColumn before p' →
          word.toList ++ '(' :: (body ++ [')']) = rest := by
    intro before rest p' text column
    rw [htrimmed.trim_eq_self] at text
    exact (cut_unique text hcolumn.notMem.1 column.notMem.1).2
  -- and a call at the same parenthesis
  have hcall : ∀ {word' body' : List Char} {keyword : String},
      word.toList ++ '(' :: (body ++ [')']) = word' ++ '(' :: (body' ++ [')']) →
        (∀ c ∈ keyword.toList, isPlainLower c = true) → Spells keyword word' →
          word' = word.toList ∧ body' = body := by
    intro word' body' keyword text hkeyword hspells
    have hopen : '(' ∉ word' := notMem_of_spells hkeyword hspells (by decide) (by decide)
    obtain ⟨hword, hbody⟩ := cut_unique text (notMem_word hplain).1 hopen
    exact ⟨hword.symm, (List.append_cancel_right hbody).symm⟩
  cases h with
  | @group _ word' body' _ k _ text keyword arguments children =>
    -- a text that begins with a column is no group
    have hsome := (connectiveCall?_eq_some_iff _ k word'.length).mpr ⟨word', _, text, keyword, rfl⟩
    rw [htrimmed.trim_eq_self, connectiveCall?_eq_none hcolumn] at hsome
    cases hsome
  | @quantified _ _ _ _ parts q _ us text column keyword arguments children =>
    obtain ⟨rfl, rfl⟩ := hcall (hrest text column) q.word_plain keyword
    exact .inr ⟨q, parts, us, keyword, arguments, children⟩
  | @call _ _ _ _ o _ text column keyword value =>
    obtain ⟨rfl, rfl⟩ := hcall (hrest text column) o.word_plain keyword
    exact .inl ⟨o, keyword, value⟩
  | bare text column nonblank noCall =>
    exact absurd ⟨word.toList, _, (hrest text column).symm, named⟩ noCall

/-- A written leaf derives something only if its value balances. -/
private theorem balanced_of_derives_written {p : ColumnPath} (hp : p.Plain) {o : Operator}
    {s : String} {u : Surface} (h : Derives (Surface.leaf p o (.plain s)).chars u) :
    Balanced s.toList := by
  rw [Surface.chars, RawText.formText_plain] at h
  have named := spells_word o.word_plain
  obtain ⟨-, -, value⟩ | ⟨-, parts, -, -, arguments, -⟩ :=
    Derives.call_cases hp o.word_plain (.inl ⟨o, named⟩) h
  · exact value
  · exact arguments.balanced_body

/-- **A written group** is read as a group. -/
theorem Derives.group_cases {k : Connective} {body : List Char} {u : Surface}
    (h : Derives (k.word.toList ++ '(' :: (body ++ [')'])) u) :
    ∃ (parts : List (List Char)) (us : List Surface),
      Parts body parts ∧ List.Forall₂ Derives parts us := by
  have htrimmed := trimmed_group k body
  -- a text that begins with the word of a group has no column before its first colon
  have hcall := (connectiveCall?_eq_some_iff (k.word.toList ++ '(' :: (body ++ [')'])) k _).mpr
    ⟨_, _, rfl, spells_word k.word_plain, rfl⟩
  have hcolumn : ∀ {before rest : List Char} {p : ColumnPath},
      trim (k.word.toList ++ '(' :: (body ++ [')'])) = before ++ ':' :: rest →
        ¬ IsColumn before p := by
    intro before rest p text column
    rw [htrimmed.trim_eq_self] at text
    rw [text, connectiveCall?_eq_none column] at hcall
    cases hcall
  cases h with
  | @group _ word' body' parts k' us text keyword arguments children =>
    rw [htrimmed.trim_eq_self] at text
    have hopen : '(' ∉ word' := notMem_of_spells k'.word_plain keyword (by decide) (by decide)
    obtain ⟨-, hbody⟩ := cut_unique text (notMem_word k.word_plain).1 hopen
    rw [List.append_cancel_right hbody]
    exact ⟨parts, us, arguments, children⟩
  | quantified text column => exact absurd column (hcolumn text)
  | call text column => exact absurd column (hcolumn text)
  | bare text column => exact absurd column (hcolumn text)

/-- **One filter.** What is read from a text has a canonical text. This is read as the same filter
when the parentheses of the first text balance, and is not read at all when they do not. -/
theorem Filter.exists_format_of_parse {text : String} {f : Filter} (h : parse text = .ok f) :
    ∃ written, f.format = .ok written ∧
      ∀ g, parse written = .ok g ↔ imbalanceFrom 0 0 text.toList = none ∧ g = f := by
  obtain ⟨u, hu, rfl⟩ := (parse_eq_ok_iff_derives text f).mp h
  refine ⟨String.ofList u.chars, Surface.formatIn_under none u, fun g => ?_⟩
  rw [imbalanceFrom_eq_none_iff]
  by_cases hbalanced : Balanced text.toList
  · obtain ⟨written, hformat, hparse⟩ := (hu.printable_iff.mpr hbalanced).parse_format
    cases hformat.symm.trans (Surface.formatIn_under none u)
    rw [hparse, Except.ok.injEq]
    exact ⟨fun hg => ⟨hbalanced, hg.symm⟩, fun hg => hg.2.symm⟩
  · refine iff_of_false (fun hg => ?_) fun hg => hbalanced hg.1
    obtain ⟨u', hu', -⟩ := (parse_eq_ok_iff_derives _ g).mp hg
    rw [String.toList_ofList] at hu'
    -- only a leaf can be unbalanced, and then its value is
    cases u with
    | leaf p o v =>
      obtain ⟨hplain, s, rfl, hs⟩ := hu.leaf_cases
      exact hbalanced (hs.mp (balanced_of_derives_written hplain hu'))
    | group k us => exact hbalanced hu.balanced_group
    | quantified q p us => exact hbalanced hu.balanced_quantified

/-- A value with a parenthesis that closes nothing: the reader takes it as a bare value, and its
canonical text is not read. -/
theorem Filter.exists_format_of_parse_of_stray :
    parse "a:b)" = .ok (.leaf ⟨["a"], by decide, by decide⟩ .eq (.plain "b)")) ∧
      ∃ written, format (.leaf ⟨["a"], by decide, by decide⟩ .eq (.plain "b)")) = .ok written ∧
        ∀ g, parse written = .ok g ↔ imbalanceFrom 0 0 "a:b)".toList = none ∧
          g = .leaf ⟨["a"], by decide, by decide⟩ .eq (.plain "b)") :=
  ⟨by decide +kernel, exists_format_of_parse (by decide +kernel)⟩

/-- **The canonical text may be no text of a filter**: a filter is read from `a:b)`, and written as
`a:eq(b))`, which is refused. -/
theorem Filter.format_not_read_of_stray :
    ∃ f written, parse "a:b)" = .ok f ∧ f.format = .ok written ∧ ∀ g, parse written ≠ .ok g := by
  refine ⟨.leaf ⟨["a"], by decide, by decide⟩ .eq (.plain "b)"), "a:eq(b))", by decide +kernel,
    by decide +kernel, fun g hg => ?_⟩
  -- the call ends at its first closing parenthesis, and the second one is left over
  have hrefused : parse "a:eq(b))" =
      .error (.grammar .trailingText (some (.plain "eq(b))")) (some 5)) := by decide +kernel
  rw [hrefused] at hg
  cases hg

/-! ### Values of the leaves -/

namespace Surface

mutual

/-- The values in the tree of a printable form are plain and balance. -/
theorem Printable.leaves (scope : Option ColumnPath) : ∀ {u : Surface}, u.Printable →
    ∀ l ∈ (u.under scope).leaves, ∃ s, l.2.2 = .plain s ∧ Balanced s.toList
  | leaf p o v, ⟨_, s, hv, hs⟩, l, hl => by
    rw [under, Filter.leaves, List.mem_singleton] at hl
    exact ⟨s, by rw [hl, hv], hs⟩
  | group k us, ⟨_, hus⟩, l, hl => PrintableAll.leaves scope hus l hl
  | quantified q p us, ⟨_, _, hus⟩, l, hl => PrintableAll.leaves _ hus l hl

theorem PrintableAll.leaves (scope : Option ColumnPath) : ∀ {us : List Surface},
    PrintableAll us → ∀ l ∈ Filter.leavesAll (underAll scope us),
      ∃ s, l.2.2 = .plain s ∧ Balanced s.toList
  | u :: us, ⟨hu, hus⟩, l, hl => by
    rw [underAll, Filter.leavesAll, List.mem_append] at hl
    exact hl.elim (hu.leaves scope l) (hus.leaves scope l)

end

end Surface

/-- A balanced value is read back from between the parentheses of any operator. -/
theorem Filter.parse_call {p : ColumnPath} (hp : p.Plain) (o : Operator) {s : String}
    (hs : Balanced s.toList) :
    parse (p.text ++ ":" ++ o.word ++ "(" ++ s ++ ")") = .ok (.leaf p o (.plain s)) := by
  have hprintable : (Surface.leaf p o (.plain s)).Printable := ⟨hp, s, rfl, hs⟩
  obtain ⟨written, hformat, hparse⟩ := hprintable.parse_format
  have htext : (Surface.leaf p o (.plain s)).tree.format =
      .ok (p.text ++ ":" ++ o.word ++ "(" ++ s ++ ")") := by
    rw [Surface.tree, Surface.under, Filter.format, Filter.formatIn, RawText.formText_plain]
    rfl
  cases hformat.symm.trans htext
  exact hparse

/-- **A call** of an operator behind a column is read exactly if its value balances, and then it is
read as the leaf with this value. -/
theorem Filter.parse_call_eq_ok_iff {p : ColumnPath} (hp : p.Plain) (o : Operator) (s : String)
    (f : Filter) : parse (p.text ++ ":" ++ o.word ++ "(" ++ s ++ ")") = .ok f ↔
      Balanced s.toList ∧ f = .leaf p o (.plain s) := by
  constructor
  · intro h
    obtain ⟨u, hu, -⟩ := (parse_eq_ok_iff_derives _ f).mp h
    -- the text is that of a condition, whose value derivations balance
    have hchars : (p.text ++ ":" ++ o.word ++ "(" ++ s ++ ")").toList =
        (Surface.leaf p o (.plain s)).chars := by
      rw [Surface.chars, RawText.formText_plain]
      simp
    rw [hchars] at hu
    have hs := balanced_of_derives_written hp hu
    exact ⟨hs, Except.ok.inj (h.symm.trans (parse_call hp o hs))⟩
  · rintro ⟨hs, rfl⟩
    exact parse_call hp o hs

/-- What a list of filters is read from balances part by part, so its forms are printable. -/
theorem DerivesAll.printable {cs : List Char} {us : List Surface} (h : DerivesAll cs us) :
    Surface.PrintableAll us := by
  cases h with
  | blank _ => trivial
  | parts arguments children => exact Surface.printableAll_of_derives us children arguments.balanced

/-! ### Sort lists -/

theorem Direction.word_plain (d : Direction) : ∀ c ∈ d.word.toList, isPlainLower c = true :=
  List.all_eq_true.mp (by cases d <;> rfl)

namespace SortItem

theorem plain_of_read {list item : List Char} {i : SortItem} (h : read list item = .ok i) :
    i.column.Plain := by
  rw [read] at h
  split at h
  · cases h
  -- with a direction or without one the column is parsed alone
  split at h
  · obtain ⟨path, hpath, h⟩ := bind_eq_ok_iff.mp h
    cases h
    exact ColumnPath.plain_of_parse hpath
  · split at h
    · cases h
    · obtain ⟨path, hpath, h⟩ := bind_eq_ok_iff.mp h
      cases h
      exact ColumnPath.plain_of_parse hpath

theorem plain_of_parseAll {s : String} {items : List SortItem} (h : parseAll s = .ok items) :
    ∀ i ∈ items, i.column.Plain := by
  rw [parseAll] at h
  split at h
  · cases h
    exact List.forall_mem_nil _
  · obtain ⟨parts, -, h⟩ := bind_eq_ok_iff.mp h
    intro i hi
    obtain ⟨part, -, hread⟩ := exists_of_mem_mapM h hi
    exact plain_of_read hread

variable {i : SortItem}

theorem toList_text (i : SortItem) :
    i.text.toList = i.column.text.toList ++ ':' :: i.direction.word.toList := by
  simp [text]

/-- The text of an item has no parentheses and no comma. -/
private theorem balanced_text (h : i.column.Plain) :
    Balanced i.text.toList ∧ Guarded 0 i.text.toList := by
  obtain ⟨-, hopen, hclose, hcomma⟩ := h.isColumn_text.notMem
  obtain ⟨hopen', hclose', hcomma'⟩ := notMem_word i.direction.word_plain
  rw [toList_text]
  constructor
  · refine balanced_of_forall fun c hc => ⟨?_, ?_⟩
    · rintro rfl
      simp [hopen, hopen'] at hc
    · rintro rfl
      simp [hclose, hclose'] at hc
  · exact guarded_of_notMem (by simp [hcomma, hcomma']) 0

private theorem trimmed_text (h : i.column.Plain) : Trimmed i.text.toList := by
  obtain ⟨c, cs, htext, hc⟩ := h.first_text
  obtain ⟨ds, hds⟩ : ∃ ds, i.direction.word.toList = ds ++ ['c'] := by
    cases i.direction
    · exact ⟨['a', 's'], rfl⟩
    · exact ⟨['d', 'e', 's'], rfl⟩
  have hend : c :: (cs ++ ':' :: (ds ++ ['c'])) = (c :: cs ++ ':' :: ds) ++ ['c'] := by simp
  rw [toList_text, htext, hds]
  exact Trimmed.of_ends hc (by decide) hend

/-- The text of an item is read as the item. -/
private theorem read_text (h : i.column.Plain) (list : List Char) :
    read list i.text.toList = .ok i := by
  have hcolumn := h.isColumn_text
  have hcut := (cut_eq_some_iff ':' _ _ _).mpr ⟨i.toList_text, hcolumn.notMem.1⟩
  have hempty : i.text.toList.isEmpty = false := by simp [toList_text]
  have hdirection : Direction.ofToken? (String.ofList i.direction.word.toList) =
      some i.direction := by
    cases i.direction <;> rfl
  have hparse := (ColumnPath.parse_eq_ok_iff _ _).mpr hcolumn
  rw [read, hempty]
  simp only [Bool.false_eq_true, if_false, hcut, hdirection, hparse, ok_bind]

/-- **Sort lists survive their text**, if the columns are plain. -/
theorem parseAll_formatAll {items : List SortItem} (h : ∀ i ∈ items, i.column.Plain) :
    parseAll (formatAll items) = .ok items := by
  have htext : (formatAll items).toList =
      argumentSeparator.toList.intercalate (items.map fun i => i.text.toList) := by
    simp [formatAll, join, Function.comp_def]
  cases items with
  | nil => rfl
  | cons first rest =>
    generalize hitems : first :: rest = items at h htext
    -- a text with a first item is not blank, since the item's column is not
    have hblank : isBlankText (formatAll items) = false := by
      obtain ⟨c, cs, hfirst, hc⟩ := (h first (by simp [← hitems])).first_text
      rw [isBlankText, htext, ← hitems, ← Bool.not_eq_true, List.all_eq_true]
      intro hall
      have := hall c (by cases rest <;> simp [toList_text, hfirst])
      rw [hc] at this
      cases this
    have hparts : Parts (formatAll items).toList (spaced (items.map fun i => i.text.toList)) := by
      rw [htext]
      refine parts_spaced (by simp [← hitems]) ?_ ?_
      · exact List.forall_mem_map.mpr fun i hi => (balanced_text (h i hi)).1
      · exact List.forall_mem_map.mpr fun i hi => (balanced_text (h i hi)).2
    have harguments : splitArguments (formatAll items).toList =
        .ok (items.map fun i => i.text.toList) := by
      rw [splitArguments, (splitFrom_eq_ok_iff 0 _ _).mpr hparts]
      simp only [map_trim_spaced, List.map_map, Except.ok.injEq]
      exact List.map_congr_left fun i hi => (trimmed_text (h i hi)).trim_eq_self
    rw [parseAll, hblank, harguments]
    simp only [Bool.false_eq_true, if_false, ok_bind]
    exact mapM_map_eq_ok_self_iff.mpr fun i hi => read_text (h i hi) _

end SortItem

/-! ### Criteria -/

namespace Criteria

/-- **Criteria that were read from text** are read from their own texts again. Each value in them is
a plain text that the check of values accepts, and it can stand between the parentheses of any
operator behind any column. -/
theorem parse_texts_of_parse {filters sorting : Option String} {c : Criteria}
    (h : parse filters sorting = .ok c) :
    (∃ written, c.filterText = .ok written ∧ parse (some written) (some c.sortText) = .ok c) ∧
      ∀ p o v, (p, o, v) ∈ Filter.leavesAll c.filters → ∃ s, v = .plain s ∧ checkValue v = .ok v ∧
        ∀ name column, ColumnPath.parse name = .ok column → ∀ o' : Operator,
          Filter.parse (column.text ++ ":" ++ o'.word ++ "(" ++ s ++ ")") =
            .ok (.leaf column o' v) := by
  obtain ⟨fs, hfs, h⟩ := bind_eq_ok_iff.mp h
  obtain ⟨items, hitems, h⟩ := bind_eq_ok_iff.mp h
  cases h
  -- both texts are absent or have been read, and what is read can be printed
  obtain ⟨us, hus, rfl⟩ : ∃ us, Surface.PrintableAll us ∧ Surface.trees us = fs := by
    cases filters with
    | none =>
      cases hfs
      exact ⟨[], trivial, rfl⟩
    | some text =>
      obtain ⟨us, hus, rfl⟩ := (Filter.parseAll_eq_ok_iff text fs).mp hfs
      exact ⟨us, hus.printable, rfl⟩
  have hplain : ∀ i ∈ items, i.column.Plain := by
    cases sorting with
    | none =>
      cases hitems
      exact List.forall_mem_nil _
    | some text => exact SortItem.plain_of_parseAll hitems
  constructor
  · obtain ⟨written, hformat, hparse⟩ := hus.parse_format
    refine ⟨written, hformat, ?_⟩
    rw [parse, parseFilters, hparse, ok_bind, parseSorting, sortText,
      SortItem.parseAll_formatAll hplain]
    rfl
  · intro p o v hmem
    obtain ⟨s, rfl, hs⟩ := hus.leaves none _ hmem
    refine ⟨s, rfl, ?_, fun name column hname o' => ?_⟩
    · rw [checkValue, RawText.text, (imbalanceFrom_eq_none_iff 0 0 _).mpr hs]
    · exact Filter.parse_call (ColumnPath.plain_of_parse hname) o' hs

/-- Bare values, one of them with a call inside, below a quantifier and beside it. -/
theorem parse_texts_of_parse_of_roles :
    ∃ c, parse (some "a:x(y), roles:any(or(b:1,c:eq( d )))") (some "n:desc, m") = .ok c ∧
      ∃ written, c.filterText = .ok written ∧ parse (some written) (some c.sortText) = .ok c := by
  let p (s : String) (h : isSegment s = true) : ColumnPath := ⟨[s], by simp, by simpa using h⟩
  let below (s : String) (h : isSegment s = true) : ColumnPath := p "roles" (by decide) ++ p s h
  have hparse : parse (some "a:x(y), roles:any(or(b:1,c:eq( d )))") (some "n:desc, m") =
      .ok ⟨[.leaf (p "a" (by decide)) .eq (.plain "x(y)"), .quantified .any (p "roles" (by decide))
        [.group .or [.leaf (below "b" (by decide)) .eq (.plain "1"),
          .leaf (below "c" (by decide)) .eq (.plain " d ")]]],
        [⟨p "n" (by decide), .desc⟩, ⟨p "m" (by decide), .asc⟩]⟩ := by decide +kernel
  exact ⟨_, hparse, (parse_texts_of_parse hparse).1⟩

end Criteria

end RecordQuery
