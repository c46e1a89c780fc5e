import RecordQuery.Criteria
import RecordQuery.Proofs.Printing
import RecordQuery.Proofs.Reachable

/-!
# Filters that survive their data

A filter that is stored as data can be read again. The data has full paths, so nothing is put below a
column a second time; the reader only checks that the conditions of a quantifier continue its
column, and in qualified trees they do, at every level.

The data keeps the text of a column and of a value and nothing else. So two things are asked of a
tree: its columns are paths that can be given as text, and its values are plain texts
(`Filter.IsTextual`). Everything else may be as it likes: combinators without conditions, values
with loose parentheses, conditions that spell the column of their quantifier in another case.

* `Filter.ofData_toData` — qualified textual trees are read from their data.
* `Filter.isTextual_ofData` — trees from data are textual, so data is read the same after it is
  written again.
* `Reachable.ofData_toData_self` — both for reachable trees, and what becomes of criteria with them:
  these are read from their data exactly when the columns of the sort items can be given as text.
-/

namespace RecordQuery

open Text

/-! ### Columns as text -/

namespace ColumnPath

theorem Plain.parse_text {p : ColumnPath} (h : p.Plain) : parse p.text = .ok p := by
  have hparse := (parse_eq_ok_iff _ _).mpr h.isColumn_text
  rwa [String.ofList_toList] at hparse

/-- The paths that can be given as text are those of plain identifiers. -/
theorem exists_parse_iff {p : ColumnPath} : (∃ s, parse s = .ok p) ↔ p.Plain :=
  ⟨fun ⟨_, h⟩ => plain_of_parse h, fun h => ⟨p.text, h.parse_text⟩⟩

end ColumnPath

namespace Filter

/-! ### Textual trees -/

theorem mem_leavesAll {l : ColumnPath × Operator × RawText} {fs : List Filter} :
    l ∈ leavesAll fs ↔ ∃ f ∈ fs, l ∈ f.leaves := by
  induction fs with
  | nil => simp [leavesAll]
  | cons f fs ih => simp [leavesAll, ih]

/-- The columns of the tree can be given as text, and its values are plain texts. -/
structure IsTextual (f : Filter) : Prop where
  columns : ∀ p ∈ f.columns, ∃ s, ColumnPath.parse s = .ok p
  values : ∀ l ∈ f.leaves, ∃ s, l.2.2 = .plain s

theorem isTextual_leaf {p : ColumnPath} {o : Operator} {v : RawText} :
    (leaf p o v).IsTextual ↔ (∃ s, ColumnPath.parse s = .ok p) ∧ ∃ s, v = .plain s :=
  ⟨fun h => ⟨h.columns p List.mem_cons_self, h.values (p, o, v) List.mem_cons_self⟩,
    fun h => ⟨List.forall_mem_singleton.mpr h.1, List.forall_mem_singleton.mpr h.2⟩⟩

theorem isTextual_group {k : Connective} {fs : List Filter} :
    (group k fs).IsTextual ↔ ∀ f ∈ fs, f.IsTextual := by
  constructor
  · intro h f hf
    exact ⟨fun p hp => h.columns p (mem_columnsAll.mpr ⟨f, hf, hp⟩),
      fun l hl => h.values l (mem_leavesAll.mpr ⟨f, hf, hl⟩)⟩
  · intro h
    constructor
    · intro p hp
      obtain ⟨f, hf, hp⟩ := mem_columnsAll.mp hp
      exact (h f hf).columns p hp
    · intro l hl
      obtain ⟨f, hf, hl⟩ := mem_leavesAll.mp hl
      exact (h f hf).values l hl

theorem isTextual_quantified {q : Quantifier} {c : ColumnPath} {fs : List Filter} :
    (quantified q c fs).IsTextual ↔
      (∃ s, ColumnPath.parse s = .ok c) ∧ ∀ f ∈ fs, f.IsTextual := by
  rw [← isTextual_group (k := .and)]
  constructor
  · exact fun h => ⟨h.columns c List.mem_cons_self,
      ⟨fun p hp => h.columns p (List.mem_cons_of_mem c hp), h.values⟩⟩
  · exact fun h => ⟨List.forall_mem_cons.mpr ⟨h.1, h.2.columns⟩, h.2.values⟩

/-! ### Reading data that was written -/

private theorem operatorText_word (rest : List (String × Value)) {word : String}
    (hplain : ∀ c ∈ word.toList, isPlainLower c = true) :
    operatorText (("op", .text word) :: rest) = .ok word := by
  have hlower := (lower_eq_iff hplain word.toList).mpr (map_toLower_eq_self hplain)
  show Except.ok (String.ofList (lower word.toList)) = .ok word
  rw [hlower, String.ofList_toList]

private theorem ofToken?_connective (k : Connective) :
    Combinator.ofToken? k.word = some (.connective k) := by
  rw [← String.ofList_toList (s := k.word)]
  exact (Combinator.ofToken?_eq_some_iff _ (.connective k)).mpr (spells_word k.word_plain)

private theorem ofToken?_quantifier (q : Quantifier) :
    Combinator.ofToken? q.word = some (.quantifier q) := by
  rw [← String.ofList_toList (s := q.word)]
  exact (Combinator.ofToken?_eq_some_iff _ (.quantifier q)).mpr (spells_word q.word_plain)

/-- The word of an operator is read as the operator, and as no combinator. -/
private theorem ofToken?_operator (o : Operator) :
    Combinator.ofToken? o.word = none ∧ Operator.ofToken? o.word = some o := by
  have hspells := spells_word o.word_plain
  rw [← String.ofList_toList (s := o.word)]
  refine ⟨?_, (Operator.ofToken?_eq_some_iff _ o).mpr hspells⟩
  by_contra hne
  obtain ⟨k, hk⟩ := Option.ne_none_iff_exists'.mp hne
  rw [Combinator.ofToken?_eq_some_iff, Spells, hspells] at hk
  revert hk
  cases o <;> obtain (k | k) := k <;> cases k <;> decide

/-- The conditions that are written after an operator word are found. -/
private theorem conditionsIn_written (word : Value) (vs : List Value)
    (rest : List (String × Value)) :
    conditionsIn (("op", word) :: ("conditions", .list vs) :: rest) = ofDataAll vs := by
  rw [conditionsIn, if_neg (by decide), conditionsIn, if_pos rfl, conditionsOf]

private theorem leafOfData_written (o : Operator) (word : Value) (column s : String) :
    leafOfData o [("op", word), ("column", .text column), ("value", .text s)] =
      (ColumnPath.parse column).bind fun path => .ok (leaf path o (.plain s)) := by
  have hcolumn : [("op", word), ("column", .text column), ("value", .text s)].lookup "column" =
    some (.text column) := rfl
  have hvalue : [("op", word), ("column", .text column), ("value", .text s)].lookup "value" =
    some (.text s) := rfl
  simp only [leafOfData, hcolumn, textUnder, hvalue]
  rfl

/-- The column that is written after an operator word and conditions is found. -/
private theorem combine_written (q : Quantifier) (word conditions : Value) (column : String)
    (fs : List Filter) :
    combine (.quantifier q) [("op", word), ("conditions", conditions), ("column", .text column)] fs =
      ((ColumnPath.parse column).map some).bind fun c => ofQualified (.quantifier q) c fs := by
  have hcolumn : [("op", word), ("conditions", conditions), ("column", .text column)].lookup
    "column" = some (.text column) := rfl
  simp only [combine, hcolumn]
  rfl

mutual

/-- **Data is read as the tree that it was written from**, if the tree is qualified and textual. -/
theorem ofData_toData : ∀ {f : Filter}, f.Qualified → f.IsTextual → ofData f.toData = .ok f
  | leaf p o v, _, h => by
    obtain ⟨hp, s, rfl⟩ := isTextual_leaf.mp h
    have hparse := (ColumnPath.exists_parse_iff.mp hp).parse_text
    obtain ⟨hnone, ho⟩ := ofToken?_operator o
    rw [toData, ofData_of_operator (operatorText_word _ o.word_plain) hnone ho]
    rw [RawText.value, leafOfData_written, hparse]
    rfl
  | group k fs, hq, h => by
    rw [toData, ofData_of_combinator (operatorText_word _ k.word_plain) (ofToken?_connective k)]
    rw [conditionsIn_written, ofDataAll_toDataAll (qualified_group.mp hq) (isTextual_group.mp h)]
    rfl
  | quantified q c fs, hq, h => by
    obtain ⟨hc, hfs⟩ := isTextual_quantified.mp h
    obtain ⟨hcolumns, hqualified⟩ := qualified_quantified.mp hq
    have hparse := (ColumnPath.exists_parse_iff.mp hc).parse_text
    -- the check of the conditions' columns passes, as the tree is qualified
    have hfind : ((columnsAll fs).find? fun p => !p.isBelow c) = none :=
      List.find?_eq_none.mpr fun p hp => by simp [hcolumns p hp]
    rw [toData, ofData_of_combinator (operatorText_word _ q.word_plain) (ofToken?_quantifier q)]
    rw [conditionsIn_written, ofDataAll_toDataAll hqualified hfs]
    simp only [Except.bind]
    rw [combine_written, hparse]
    show ofQualified (.quantifier q) (some c) fs = _
    rw [ofQualified, hfind]

theorem ofDataAll_toDataAll : ∀ {fs : List Filter}, (∀ f ∈ fs, f.Qualified) →
    (∀ f ∈ fs, f.IsTextual) → ofDataAll (toDataAll fs) = .ok fs
  | [], _, _ => rfl
  | f :: fs, hq, h => by
    rw [List.forall_mem_cons] at hq h
    rw [toDataAll, ofDataAll, ofData_toData hq.1 h.1, ok_bind, ofDataAll_toDataAll hq.2 h.2]
    rfl

end

/-! ### Trees from data -/

private theorem exists_parse_of_resolve {v : Value} {p : ColumnPath}
    (h : (columnOfData v).resolve = .ok p) : ∃ s, ColumnPath.parse s = .ok p := by
  rw [columnOfData.eq_def] at h
  split at h
  · exact ⟨_, h⟩
  · cases h

private theorem exists_parse_of_checkedColumn {k : Combinator} {entries : List (String × Value)}
    {c : ColumnPath}
    (h : NodeArgs.checkedColumn k (match entries.lookup "column" with
      | none | some .null => none
      | some v => some (columnOfData v)) = .ok (some c)) :
    ∃ s, ColumnPath.parse s = .ok c := by
  cases k with
  | connective k =>
    -- only a quantifier keeps a column
    split at h <;> cases h
  | quantifier q =>
    split at h
    · cases h
    · cases h
    · obtain ⟨p, hp, hpc⟩ := map_eq_ok_iff.mp h
      cases hpc
      exact exists_parse_of_resolve hp

/-- The filter that some data describes is textual. -/
theorem isTextual_ofData (v : Value) {f : Filter} (h : ofData v = .ok f) : f.IsTextual := by
  refine HeldByData.ofData (P := IsTextual) ⟨fun made => ?_, fun {k} _ _ _ hfs made => ?_⟩ v h
  · obtain ⟨column, path, text, hpath, rfl⟩ := leafOfData_cases made
    exact isTextual_leaf.mpr ⟨exists_parse_of_resolve hpath, text, rfl⟩
  · obtain ⟨column, hcolumn, made⟩ := bind_eq_ok_iff.mp made
    -- a group has no column and a quantified filter has one, which has to be a text
    cases k with
    | connective k =>
      cases column with
      | none =>
        cases made
        exact isTextual_group.mpr hfs
      | some c => cases made
    | quantifier q =>
      cases column with
      | none => cases made
      | some c =>
        have hc := exists_parse_of_checkedColumn hcolumn
        rw [ofQualified] at made
        split at made
        · cases made
        · cases made
          exact isTextual_quantified.mpr ⟨hc, hfs⟩

end Filter

/-! ### Sort items and criteria -/

namespace SortItem

/-- **Sort items.** An item is read from its data when its column can be given as text, and only
then: the reader gives no other columns. -/
theorem ofData_toData_iff (i : SortItem) :
    ofData i.toData = .ok i ↔ ∃ s, ColumnPath.parse s = .ok i.column := by
  have hdirection : wordOf Direction.ofWord? i.direction.word = .ok i.direction := by
    cases i.direction <;> rfl
  -- the direction is always read, so that the column decides
  have hread : ofData i.toData = (ColumnPath.parse i.column.text).bind fun path =>
      .ok ⟨path, i.direction⟩ := by
    show (ColumnPath.parse i.column.text).bind (fun path =>
      (wordOf Direction.ofWord? i.direction.word).bind fun d => .ok (SortItem.mk path d)) = _
    rw [hdirection]
    rfl
  rw [hread]
  constructor
  · intro h
    obtain ⟨path, hpath, hi⟩ := bind_eq_ok_iff.mp h
    refine ⟨i.column.text, hpath.trans ?_⟩
    rw [← Except.ok.inj hi]
  · intro h
    rw [(ColumnPath.exists_parse_iff.mp h).parse_text]
    rfl

end SortItem

/-- Criteria are read from their data when each of their parts is. -/
theorem Criteria.ofData_toData_iff (c : Criteria) :
    ofData c.toData = .ok c ↔ (∀ f ∈ c.filters, Filter.ofData f.toData = .ok f) ∧
      ∀ i ∈ c.sorting, SortItem.ofData i.toData = .ok i := by
  have hread : ofData c.toData = ((c.filters.map Filter.toData).mapM Filter.ofData).bind
      fun fs => ((c.sorting.map SortItem.toData).mapM SortItem.ofData).bind fun items =>
        .ok ⟨fs, items⟩ := rfl
  rw [← mapM_map_eq_ok_self_iff, ← mapM_map_eq_ok_self_iff, hread]
  constructor
  · intro h
    obtain ⟨fs, hfs, h⟩ := bind_eq_ok_iff.mp h
    obtain ⟨items, hitems, h⟩ := bind_eq_ok_iff.mp h
    cases Except.ok.inj h
    exact ⟨hfs, hitems⟩
  · rintro ⟨hfs, hitems⟩
    rw [hfs, hitems]
    rfl

/-- **Data round trips.** A reachable tree whose columns can be given as text and whose values are
plain texts is read from its data as the same tree. Criteria of such trees are read from their data
as the same criteria exactly when the columns of their sort items can be given as text too. And
whatever data a filter was read from, the filter is read from its own data again. -/
theorem Reachable.ofData_toData_self (f : Filter) (c : Criteria) (d : Value) :
    (Reachable f → f.IsTextual → Filter.ofData f.toData = .ok f) ∧
      ((∀ g ∈ c.filters, Reachable g ∧ g.IsTextual) →
        (Criteria.ofData c.toData = .ok c ↔
          ∀ i ∈ c.sorting, ∃ s, ColumnPath.parse s = .ok i.column)) ∧
      (Filter.ofData d = .ok f → Filter.ofData f.toData = .ok f) := by
  refine ⟨fun hf ht => Filter.ofData_toData hf.qualified ht, fun hc => ?_, fun h => ?_⟩
  · rw [Criteria.ofData_toData_iff]
    constructor
    · exact fun h i hi => i.ofData_toData_iff.mp (h.2 i hi)
    · refine fun h => ⟨fun g hg => ?_, fun i hi => i.ofData_toData_iff.mpr (h i hi)⟩
      exact Filter.ofData_toData (hc g hg).1.qualified (hc g hg).2
  · -- what was loaded is qualified and has texts for columns, which is all that is used
    exact Filter.ofData_toData (Filter.qualified_ofData d h) (Filter.isTextual_ofData d h)

/-- A group of nothing below a quantifier, beside a value with a loose parenthesis whose column
spells that of the quantifier in another case. -/
theorem Reachable.ofData_toData_self_of_roles :
    ∃ f, Reachable f ∧ f.IsTextual ∧ Filter.ofData f.toData = .ok f ∧
      Criteria.ofData (Criteria.toData ⟨[f], []⟩) = .ok ⟨[f], []⟩ := by
  let roles : ColumnPath := ⟨["roles"], by decide, by decide⟩
  let name : ColumnPath := ⟨["ROLES", "name"], by decide, by decide⟩
  let test : Filter := .leaf name .eq (.plain "x)")
  have htest : Reachable test := .leaf (a := ⟨.text "ROLES.name", "eq", .text "x)"⟩) rfl
  have hempty : Reachable (.group .or []) :=
    .node (a := ⟨"or", [], none⟩) (fun g hg => nomatch hg) rfl
  -- a condition may repeat the column of its quantifier in other letters
  have htree : Reachable (.quantified .any roles [test, .group .or []]) := by
    refine .nodeQualified (a := ⟨"any", [.node test, .node (.group .or [])], some (.text "roles")⟩)
      (fun g hg => ?_) rfl
    rw [List.mem_cons, List.mem_singleton, NodePart.node.injEq, NodePart.node.injEq] at hg
    rcases hg with rfl | rfl
    · exact htest
    · exact hempty
  have hroles : ∃ s, ColumnPath.parse s = .ok roles := ⟨"roles", rfl⟩
  have hname : ∃ s, ColumnPath.parse s = .ok name := ⟨"ROLES.name", rfl⟩
  have htextual : Filter.IsTextual (.quantified .any roles [test, .group .or []]) := by
    refine Filter.isTextual_quantified.mpr ⟨hroles, ?_⟩
    rw [List.forall_mem_cons, List.forall_mem_singleton]
    exact ⟨Filter.isTextual_leaf.mpr ⟨hname, "x)", rfl⟩,
      Filter.isTextual_group.mpr (List.forall_mem_nil _)⟩
  obtain ⟨hfilter, hcriteria, -⟩ := Reachable.ofData_toData_self
    (.quantified .any roles [test, .group .or []])
    ⟨[.quantified .any roles [test, .group .or []]], []⟩ .null
  refine ⟨_, htree, htextual, hfilter htree htextual, ?_⟩
  exact (hcriteria (List.forall_mem_singleton.mpr ⟨htree, htextual⟩)).mpr (List.forall_mem_nil _)

/-- **A sort item that its data does not keep.** A path may be made of a segment with a line break
at its end; the data is read as a path without the line break. -/
theorem Criteria.ofData_toData_ne_of_lineBreak :
    ∃ path, ColumnPath.ofSegments ["name\n"] = .ok path ∧
      Criteria.ofData (Criteria.toData ⟨[], [⟨path, .asc⟩]⟩) ≠ .ok ⟨[], [⟨path, .asc⟩]⟩ := by
  refine ⟨⟨["name\n"], by decide, by decide⟩, by decide +kernel, ?_⟩
  decide +kernel

end RecordQuery
