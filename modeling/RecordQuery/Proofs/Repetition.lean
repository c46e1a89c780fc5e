import RecordQuery.Proofs.Stability

/-!
# Repeated parameters

A request may give the filter parameter and the sort parameter several times. Every text is read by
itself, and what is read is put together in order. The same comes out when the texts are joined by
commas and read at once.

The reason is the balance of texts. A list is only read from a text that has parts, so that all its
parentheses are closed where it ends, and a comma behind it stands outside of all of them. The parts
of texts that are joined by commas are therefore the parts of the texts, one after the other. What
is read from a part does not depend on the text around it.

* `Listed` — a text lists some items: its parts are read as these, one by one.
* `Listed.append`, `Listed.flatten` — two texts, and any number of texts, joined by commas.
* `ReadsLists` — a reader of lists reads what a text lists, and nothing from a blank text; the
  readers of filters and of sort lists are such readers.
* `ReadsLists.read_join` — such a reader reads joined texts as it reads them one by one.
* `Criteria.ofParams_flatten` — the result for the parameters of a request.
-/

namespace RecordQuery

open Text

variable {α : Type}

/-! ### Joined texts -/

/-- Lists that are put together with a separator, in two groups. -/
theorem intercalate_append (sep : List α) {as bs : List (List α)} (has : as ≠ []) (hbs : bs ≠ []) :
    sep.intercalate (as ++ bs) = sep.intercalate as ++ sep ++ sep.intercalate bs := by
  induction as with
  | nil => exact absurd rfl has
  | cons a as ih =>
    -- behind the last of the first lists stands the separator
    cases as with
    | nil => rw [List.singleton_append, List.intercalate_cons_of_ne_nil hbs,
        List.intercalate_singleton]
    | cons a' as =>
      have hrest := ih (List.cons_ne_nil a' as)
      rw [List.cons_append, List.cons_append, List.intercalate_cons_cons, List.intercalate_cons_cons,
        ← List.cons_append, hrest]
      simp only [List.append_assoc]

/-- **Two texts joined by a comma.** Behind a text that has parts, a comma is outside of all
parentheses. -/
theorem Parts.append {body body' : List Char} {parts parts' : List (List Char)}
    (h : Parts body parts) (h' : Parts body' parts') :
    Parts (body ++ ',' :: body') (parts ++ parts') where
  nonempty := List.append_ne_nil_of_left_ne_nil h.nonempty parts'
  joined := by
    rw [intercalate_append [','] h.nonempty h'.nonempty, h.joined, h'.joined, List.append_assoc]
    rfl
  balanced := List.forall_mem_append.mpr ⟨h.balanced, h'.balanced⟩
  guarded := List.forall_mem_append.mpr ⟨h.guarded, h'.guarded⟩

/-- A text lists some items: each part between its commas outside of parentheses is read as one
item. -/
def Listed (reads : List Char → α → Prop) (body : List Char) (items : List α) : Prop :=
  ∃ parts, Parts body parts ∧ List.Forall₂ reads parts items

section

variable {reads : List Char → α → Prop}

theorem Listed.append {body body' : List Char} {items items' : List α}
    (h : Listed reads body items) (h' : Listed reads body' items') :
    Listed reads (body ++ ',' :: body') (items ++ items') := by
  obtain ⟨parts, hparts, hitems⟩ := h
  obtain ⟨parts', hparts', hitems'⟩ := h'
  exact ⟨parts ++ parts', hparts.append hparts', List.rel_append hitems hitems'⟩

/-- **Texts joined by commas** list what the texts list, one after the other. -/
theorem Listed.flatten {bodies : List (List Char)} {lists : List (List α)}
    (h : List.Forall₂ (Listed reads) bodies lists) (hne : bodies ≠ []) :
    Listed reads ([','].intercalate bodies) lists.flatten := by
  induction h with
  | nil => exact absurd rfl hne
  | @cons body items bodies lists hfirst hrest ih =>
    cases hrest with
    | nil => rwa [List.intercalate_singleton, List.flatten_singleton]
    | cons _ _ =>
      rw [List.intercalate_cons_cons, List.append_assoc, List.flatten_cons]
      exact hfirst.append (ih (List.cons_ne_nil _ _))

end

/-! ### Readers of lists -/

/-- A reader of lists reads nothing from a blank text, and from another one what its parts are read
as. -/
structure ReadsLists (read : String → Except Error (List α)) (reads : List Char → α → Prop) :
    Prop where
  blank {text : String} : isBlankText text = true → read text = .ok []
  parts {text : String} {items : List α} : isBlankText text = false →
    (read text = .ok items ↔ Listed reads text.toList items)

/-- Arguments are the trimmed parts of a text. -/
theorem bind_splitArguments_eq_ok_iff {cs : List Char}
    {next : List (List Char) → Except Error (List α)} {items : List α} :
    splitArguments cs >>= next = .ok items ↔
      ∃ parts, Parts cs parts ∧ next (parts.map trim) = .ok items := by
  -- what is split are exactly the parts of the text, which are trimmed
  rw [bind_eq_ok_iff]
  constructor
  · rintro ⟨args, hargs, hnext⟩
    rw [splitArguments] at hargs
    split at hargs
    · next parts hparts =>
      cases hargs
      exact ⟨parts, (splitFrom_eq_ok_iff 0 cs parts).mp hparts, hnext⟩
    · cases hargs
  · rintro ⟨parts, hparts, hnext⟩
    refine ⟨parts.map trim, ?_, hnext⟩
    rw [splitArguments, (splitFrom_eq_ok_iff 0 cs parts).mpr hparts]

/-- Texts joined by commas are blank only if there are none. -/
theorem isBlankText_join_eq_false {texts : List String}
    (h : ∀ text ∈ texts, isBlankText text = false) (hne : texts ≠ []) :
    isBlankText (join "," texts) = false := by
  obtain ⟨text, rest, rfl⟩ := List.exists_cons_of_ne_nil hne
  have hfirst := h text List.mem_cons_self
  rw [isBlankText, List.all_eq_false] at hfirst ⊢
  obtain ⟨c, hc, hblank⟩ := hfirst
  refine ⟨c, ?_, hblank⟩
  rw [join, String.toList_ofList, List.map_cons]
  -- the first text stands in the joined one as it is
  cases rest with
  | nil => rwa [List.map_nil, List.intercalate_singleton]
  | cons next rest =>
    rw [List.map_cons, List.intercalate_cons_cons, List.append_assoc]
    exact List.mem_append_left _ hc

/-- **A reader of lists reads joined texts** as it reads them one by one. -/
theorem ReadsLists.read_join {read : String → Except Error (List α)}
    {reads : List Char → α → Prop} (h : ReadsLists read reads) {texts : List String}
    {lists : List (List α)} (nonblank : ∀ text ∈ texts, isBlankText text = false)
    (accepted : List.Forall₂ (fun text items => read text = .ok items) texts lists) :
    read (join "," texts) = .ok lists.flatten := by
  by_cases hne : texts = []
  · subst hne
    cases accepted
    exact h.blank rfl
  · rw [h.parts (isBlankText_join_eq_false nonblank hne), join, String.toList_ofList]
    refine Listed.flatten ?_ (List.map_eq_nil_iff.not.mpr hne)
    rw [List.forall₂_map_left_iff]
    -- a blank text has no parts, so every text has to be read by its own
    have hboth := (List.forall₂_and_left texts lists).mpr ⟨nonblank, accepted⟩
    exact hboth.imp fun text items ⟨hblank, hread⟩ => (h.parts hblank).mp hread

/-- A filter is read from each part. -/
theorem Filter.readsLists : ReadsLists parseAll fun part f => read (trim part) = .ok f where
  blank hblank := by rw [parseAll, if_pos hblank]
  parts {text items} hblank := by
    rw [parseAll, if_neg (Bool.eq_false_iff.mp hblank), bind_splitArguments_eq_ok_iff, Listed]
    refine exists_congr fun parts => and_congr_right fun _ => ?_
    rw [← List.forall₂_map_left_iff (R := fun arg f => read arg = .ok f)]
    split
    · next hempty =>
      -- no filter is read from an empty argument either
      obtain ⟨arg, harg, hnil⟩ := List.any_eq_true.mp hempty
      refine iff_of_false (fun h => by cases h) fun hitems => ?_
      obtain ⟨f, -, hf⟩ := exists_of_mem_forall₂ hitems.flip harg
      rw [List.isEmpty_iff.mp hnil] at hf
      cases hf
    · exact mapM_eq_ok_iff

/-- The list that an item stands in counts for errors only. -/
theorem SortItem.read_of_read {list item : List Char} {i : SortItem} (h : read list item = .ok i)
    (list' : List Char) : read list' item = .ok i := by
  unfold read at h ⊢
  split at h
  · cases h
  · next hempty =>
    rw [if_neg hempty]
    exact h

/-- A sort item is read from each part. -/
theorem SortItem.readsLists : ReadsLists parseAll fun part i => read [] (trim part) = .ok i where
  blank hblank := by rw [parseAll, if_pos hblank]
  parts {text items} hblank := by
    rw [parseAll, if_neg (Bool.eq_false_iff.mp hblank), bind_splitArguments_eq_ok_iff, Listed]
    refine exists_congr fun parts => and_congr_right fun _ => ?_
    rw [mapM_eq_ok_iff, List.forall₂_map_left_iff]
    exact ⟨fun h => h.imp fun _ _ hread => read_of_read hread [],
      fun h => h.imp fun _ _ hread => read_of_read hread text.toList⟩

/-! ### Parameters -/

namespace Criteria

theorem paramTexts_list (texts : List String) :
    paramTexts (some (.list (texts.map .text))) = .ok texts := by
  have hpresent : (texts.map Value.text).filter (fun i => !i.isNull) = texts.map Value.text :=
    List.filter_eq_self.mpr (List.forall_mem_map.mpr fun _ _ => rfl)
  show Except.ok (((texts.map Value.text).filter fun i => !i.isNull).map Value.plain) = _
  rw [hpresent, List.map_map]
  exact congrArg Except.ok (List.map_id texts)

/-- **Repeated parameters.** Let a request give a list of filter texts and a list of sort texts,
none of them blank, each of which is accepted. The criteria of the request have the filters and the
sort items of the texts, one text after the other, and the same is read from the texts joined by
commas. A sort list is read from its own text again. -/
theorem ofParams_flatten {params : List (String × Value)} {filterKey sortKey : String}
    {filterTexts sortTexts : List String}
    (filterParam : params.lookup filterKey = some (.list (filterTexts.map .text)))
    (sortParam : params.lookup sortKey = some (.list (sortTexts.map .text)))
    (filtersNonblank : ∀ text ∈ filterTexts, isBlankText text = false)
    (sortsNonblank : ∀ text ∈ sortTexts, isBlankText text = false)
    {filters : List (List Filter)} {sorting : List (List SortItem)}
    (filtersAccepted : List.Forall₂ (fun text fs => Filter.parseAll text = .ok fs)
      filterTexts filters)
    (sortsAccepted : List.Forall₂ (fun text items => SortItem.parseAll text = .ok items)
      sortTexts sorting) :
    ofParams params filterKey sortKey = .ok ⟨filters.flatten, sorting.flatten⟩ ∧
      Filter.parseAll (join "," filterTexts) = .ok filters.flatten ∧
      SortItem.parseAll (join "," sortTexts) = .ok sorting.flatten ∧
      ∀ text items, SortItem.parseAll text = .ok items →
        SortItem.parseAll (SortItem.formatAll items) = .ok items := by
  refine ⟨?_, Filter.readsLists.read_join filtersNonblank filtersAccepted,
    SortItem.readsLists.read_join sortsNonblank sortsAccepted, fun text items h => ?_⟩
  · -- the texts are read one by one, and what they give is appended
    rw [ofParams, filterParam, paramTexts_list, ok_bind, mapM_eq_ok_iff.mpr filtersAccepted,
      ok_bind, sortParam, paramTexts_list, ok_bind, mapM_eq_ok_iff.mpr sortsAccepted]
    rfl
  · exact SortItem.parseAll_formatAll (SortItem.plain_of_parseAll h)

/-- Two filter texts, one of them with commas inside a call and a group, and two sort texts with
blanks around their items. -/
theorem ofParams_flatten_of_roles :
    let params := [("filter", Value.list [.text "a:in(1,2), or(b:x(y),c:z)", .text " r:any(n: d ) "]),
      ("sort", .list [.text "n:desc , m", .text " k "])]
    ∃ fs gs items more, Filter.parseAll "a:in(1,2), or(b:x(y),c:z)" = .ok fs ∧
      Filter.parseAll " r:any(n: d ) " = .ok gs ∧ SortItem.parseAll "n:desc , m" = .ok items ∧
      SortItem.parseAll " k " = .ok more ∧
      ofParams params "filter" "sort" = .ok ⟨fs ++ gs, items ++ more⟩ ∧
      Filter.parseAll "a:in(1,2), or(b:x(y),c:z), r:any(n: d ) " = .ok (fs ++ gs) ∧
      SortItem.parseAll "n:desc , m, k " = .ok (items ++ more) := by
  intro params
  let p (s : String) (h : isSegment s = true) : ColumnPath := ⟨[s], by simp, by simpa using h⟩
  have hfs : Filter.parseAll "a:in(1,2), or(b:x(y),c:z)" =
      .ok [.leaf (p "a" (by decide)) .isIn (.plain "1,2"), .group .or
        [.leaf (p "b" (by decide)) .eq (.plain "x(y)"),
          .leaf (p "c" (by decide)) .eq (.plain "z")]] := by decide +kernel
  have hgs : Filter.parseAll " r:any(n: d ) " =
      .ok [.quantified .any (p "r" (by decide))
        [.leaf (p "r" (by decide) ++ p "n" (by decide)) .eq (.plain "d")]] := by decide +kernel
  have hitems : SortItem.parseAll "n:desc , m" =
      .ok [⟨p "n" (by decide), .desc⟩, ⟨p "m" (by decide), .asc⟩] := by decide +kernel
  have hmore : SortItem.parseAll " k " = .ok [⟨p "k" (by decide), .asc⟩] := by decide +kernel
  -- the joined texts have one comma more than their parts
  have hfilterText : join "," ["a:in(1,2), or(b:x(y),c:z)", " r:any(n: d ) "] =
      "a:in(1,2), or(b:x(y),c:z), r:any(n: d ) " := by decide +kernel
  have hsortText : join "," ["n:desc , m", " k "] = "n:desc , m, k " := by decide +kernel
  obtain ⟨hparams, hfilters, hsorts, -⟩ := @ofParams_flatten params "filter" "sort"
    ["a:in(1,2), or(b:x(y),c:z)", " r:any(n: d ) "] ["n:desc , m", " k "] rfl rfl (by decide)
    (by decide) _ _ (.cons hfs (.cons hgs .nil)) (.cons hitems (.cons hmore .nil))
  rw [hfilterText] at hfilters
  rw [hsortText] at hsorts
  exact ⟨_, _, _, _, hfs, hgs, hitems, hmore, hparams, hfilters, hsorts⟩

end Criteria

end RecordQuery
