import RecordQuery.Proofs.StoredText

/-!
# Columns and their texts

A column is written as its segments with dots between them. No segment has a dot, so the text can be
cut apart again, and it tells the column. Reading it back is another matter: the reader trims each
segment, and a segment may have a line break at its end, which is a blank. So a column is read from
its text without the line breaks, and is changed if it has any.

* `ColumnPath.bare`, `ColumnPath.parse_text` — what the text of a column is read as.
* `ColumnPath.text_inj`, `ColumnPath.key_eq_iff` — what a text and a key tell of a column.
* `ColumnPath.text_faithful` — the results together, for the forms in which columns are written.
* `ColumnPath.parse_text_ne_of_lineBreak` — a column that is changed.
-/

namespace RecordQuery

open Text

/-! ### Segments -/

/-- Trimming takes the line break off. -/
theorem isIdentifier_trim {s : String} (h : isSegment s = true) : IsIdentifier (trim s.toList) := by
  obtain ⟨ds, after, hs, hds, hafter⟩ := exists_identifier h
  have hblank : ∀ c ∈ after, isBlank c = true := by
    obtain rfl | rfl := hafter
    · exact List.forall_mem_nil _
    · exact List.forall_mem_singleton.mpr rfl
  have htrim : trim ([] ++ ds ++ after) = ds :=
    trim_eq (List.forall_mem_nil _) hblank (isIdentifier_trimmed hds)
  rw [hs, ← List.nil_append ds, htrim]
  exact hds

/-- A segment without line break is an identifier. -/
theorem isIdentifier_iff {s : String} (h : isSegment s = true) :
    IsIdentifier s.toList ↔ '\n' ∉ s.toList := by
  constructor
  · intro hs hbreak
    exact absurd (continuesIdentifier_of_mem hs _ hbreak) (by decide)
  · intro hbreak
    obtain ⟨ds, after, hs, hds, rfl | rfl⟩ := exists_identifier h
    · rwa [hs, List.append_nil]
    · exact absurd (by rw [hs]; simp) hbreak

theorem dot_notMem_of_isSegment {s : String} (h : isSegment s = true) : '.' ∉ s.toList := by
  obtain ⟨ds, after, hs, hds, hafter⟩ := exists_identifier h
  rw [hs, List.mem_append]
  rintro (hdot | hdot)
  · exact (continuesIdentifier_ne (continuesIdentifier_of_mem hds _ hdot)).2.1 rfl
  · obtain rfl | rfl := hafter
    · cases hdot
    · exact absurd hdot (by decide)

namespace ColumnPath

variable {p q : ColumnPath}

theorem isSegment_of_mem {s : String} (h : s ∈ p.segments) : isSegment s = true :=
  List.all_eq_true.mp p.valid s h

/-! ### Reading the text of a column -/

theorem toList_text (p : ColumnPath) :
    p.text.toList = ['.'].intercalate (p.segments.map String.toList) := by
  simp [text, join]

/-- The path without the line breaks at the ends of its segments. -/
def bare (p : ColumnPath) : ColumnPath where
  segments := p.segments.map strip
  nonempty := by simpa using p.nonempty
  valid := by
    rw [List.all_eq_true, List.forall_mem_map]
    exact fun s hs => (isSegment_iff (trimmed_trim s.toList)).mpr
      (isIdentifier_trim (isSegment_of_mem hs))

theorem isColumn_text (p : ColumnPath) : IsColumn p.text.toList p.bare := by
  refine ⟨p.segments.map String.toList, by simpa using p.nonempty, (toList_text p).symm, ?_, ?_⟩
  · exact List.forall_mem_map.mpr fun s hs => isIdentifier_trim (isSegment_of_mem hs)
  · rw [List.map_map]
    rfl

/-- **Reading the text.** The text of a column is read as the column without its line breaks. -/
theorem parse_text (p : ColumnPath) : parse p.text = .ok p.bare := by
  have hparse := (parse_eq_ok_iff _ _).mpr p.isColumn_text
  rwa [String.ofList_toList] at hparse

theorem parse_text_iff : parse p.text = .ok p ↔ ∀ s ∈ p.segments, '\n' ∉ s.toList := by
  have hplain : p.Plain ↔ ∀ s ∈ p.segments, '\n' ∉ s.toList :=
    forall₂_congr fun s hs => isIdentifier_iff (isSegment_of_mem hs)
  rw [← hplain]
  exact ⟨plain_of_parse, Plain.parse_text⟩

/-! ### Texts and keys -/

/-- Texts without dots are told by what is written of them with dots in between. -/
private theorem intercalate_dot_inj {as bs : List (List Char)} (ha : as ≠ []) (hb : bs ≠ [])
    (has : ∀ a ∈ as, '.' ∉ a) (hbs : ∀ b ∈ bs, '.' ∉ b) :
    ['.'].intercalate as = ['.'].intercalate bs ↔ as = bs := by
  constructor
  · intro h
    rw [← List.splitOn_intercalate '.' has ha, h, List.splitOn_intercalate '.' hbs hb]
  · exact congrArg _

/-- **The text tells the column.** -/
theorem text_inj : p.text = q.text ↔ p = q := by
  have hne : ∀ r : ColumnPath, r.segments.map String.toList ≠ [] := by
    intro r
    simpa using r.nonempty
  have hdot : ∀ r : ColumnPath, ∀ a ∈ r.segments.map String.toList, '.' ∉ a := fun r =>
    List.forall_mem_map.mpr fun s hs => dot_notMem_of_isSegment (isSegment_of_mem hs)
  have hinj : Function.Injective String.toList := fun _ _ => String.toList_inj.mp
  rw [← String.toList_inj, toList_text, toList_text,
    intercalate_dot_inj (hne p) (hne q) (hdot p) (hdot q),
    (List.map_injective_iff.mpr hinj).eq_iff]
  constructor
  · intro h
    cases p
    cases q
    cases h
    rfl
  · rintro rfl
    rfl

/-- Only the dot has the dot as its small letter. -/
private theorem eq_dot_of_toLower {c : Char} (h : c.toLower = '.') : c = '.' := by
  by_cases hupper : 65 ≤ c.toNat ∧ c.toNat ≤ 90
  · -- a capital letter becomes a letter
    have hletter : c.toLower.toNat = (c.toNat + 32) % 2 ^ 32 :=
      (congrArg Char.toNat (dif_pos hupper)).trans (UInt32.toNat_add c.val 32)
    rw [h] at hletter
    change 46 = _ at hletter
    omega
  · rwa [toLower_eq_self hupper] at h

/-- The text of some parts, without letter case, is put together of the parts without it. -/
private theorem fold_intercalate_dot (parts : List (List Char)) :
    fold (['.'].intercalate parts) = ['.'].intercalate (parts.map fold) := by
  have hdot : fold ['.'] = ['.'] := by decide
  induction parts with
  | nil => rfl
  | cons part parts ih =>
    cases parts with
    | nil => rw [List.intercalate_singleton, List.map_singleton, List.intercalate_singleton]
    | cons part' parts =>
      rw [List.intercalate_cons_cons, fold_append, fold_append, ih, hdot]
      exact List.intercalate_cons_cons.symm

theorem toList_key (p : ColumnPath) : p.key.toList =
    ['.'].intercalate (p.segments.map fun s => s.toList.map Char.toLower) := by
  rw [key, foldKey, String.toList_ofList, toList_text, fold_intercalate_dot, List.map_map]
  exact congrArg _ (List.map_congr_left fun s hs =>
    fold_eq_map (toNat_lt_of_isSegment (isSegment_of_mem hs)))

/-- **The key tells the column up to letter case.** -/
theorem key_eq_iff : p.key = q.key ↔ p.Respelt SameLetters q := by
  have hne : ∀ r : ColumnPath, (r.segments.map fun s => s.toList.map Char.toLower) ≠ [] := by
    intro r
    simpa using r.nonempty
  -- no letter becomes a dot when it is lowered
  have hdot : ∀ r : ColumnPath, ∀ a ∈ r.segments.map fun s => s.toList.map Char.toLower,
      '.' ∉ a := by
    intro r
    refine List.forall_mem_map.mpr fun s hs hmem => ?_
    obtain ⟨c, hc, hlower⟩ := List.mem_map.mp hmem
    rw [eq_dot_of_toLower hlower] at hc
    exact dot_notMem_of_isSegment (isSegment_of_mem hs) hc
  rw [← String.toList_inj, toList_key, toList_key,
    intercalate_dot_inj (hne p) (hne q) (hdot p) (hdot q), Respelt, forall₂_sameLetters_iff]

/-- **Tables of columns.** An entry under the key of a column is found for the columns that differ
from it in letter case only. It changes nothing for the others. -/
theorem lookup_key {α : Type} (entries : List (String × α)) (a : α) :
    (p.Respelt SameLetters q → ((p.key, a) :: entries).lookup q.key = some a) ∧
    (¬ p.Respelt SameLetters q →
      ((p.key, a) :: entries).lookup q.key = entries.lookup q.key) := by
  rw [← key_eq_iff]
  constructor
  · intro h
    rw [h]
    exact List.lookup_cons_self
  · intro h
    rw [List.lookup_cons, beq_false_of_ne (Ne.symm h)]

/-! ### Columns in what is written -/

/-- The first colon of a text stands behind the column that the text begins with. -/
private theorem eq_of_append_colon {rest rest' : String}
    (h : p.text ++ ":" ++ rest = q.text ++ ":" ++ rest') : p = q := by
  have hcolon : ∀ r : ColumnPath, ':' ∉ r.text.toList := fun r => r.isColumn_text.notMem.1
  have hchars : p.text.toList ++ ':' :: rest.toList = q.text.toList ++ ':' :: rest'.toList := by
    simpa using congrArg String.toList h
  exact text_inj.mp (String.toList_inj.mp (cut_unique hchars (hcolon p) (hcolon q)).1)

theorem eq_of_format_leaf {o o' : Operator} {v v' : RawText}
    (h : (Filter.leaf p o v).format = (Filter.leaf q o' v').format) : p = q := by
  have htext : p.text ++ ":" ++ (o.word ++ "(" ++ v.formText ++ ")") =
      q.text ++ ":" ++ (o'.word ++ "(" ++ v'.formText ++ ")") := by
    simpa only [String.append_assoc] using Except.ok.inj h
  exact eq_of_append_colon htext

theorem eq_of_text_sort {d d' : Direction}
    (h : (SortItem.mk p d).text = (SortItem.mk q d').text) : p = q :=
  eq_of_append_colon h

theorem eq_of_toData_leaf {o o' : Operator} {v v' : RawText}
    (h : (Filter.leaf p o v).toData = (Filter.leaf q o' v').toData) : p = q := by
  simp only [Filter.toData, Value.map.injEq, List.cons.injEq, Prod.mk.injEq, Value.text.injEq,
    true_and, and_true] at h
  exact text_inj.mp h.2.1

theorem eq_of_toData_sort {d d' : Direction}
    (h : (SortItem.mk p d).toData = (SortItem.mk q d').toData) : p = q := by
  simp only [SortItem.toData, Value.map.injEq, List.cons.injEq, Prod.mk.injEq, Value.text.injEq,
    true_and, and_true] at h
  exact text_inj.mp h.1

/-- **Columns and their texts.** A column that was made of segments is read from its text exactly if
no segment has a line break, and else is changed by it; a column that was read from some text is
read from its own. The text tells the column, and so does whatever is written with it: conditions
and sort items with different columns have different texts and different data. The key tells the
column up to letter case, and an entry for a column in a table of casts is found for the columns
with its letters only. -/
theorem text_faithful (p q : ColumnPath) :
    (∀ segments, ofSegments segments = .ok p → parse p.text = .ok p.bare ∧
      (parse p.text = .ok p ↔ ∀ s ∈ segments, '\n' ∉ s.toList)) ∧
    (∀ s, parse s = .ok p → parse p.text = .ok p) ∧
    (p.text = q.text → p = q) ∧
    (∀ o v o' v', (Filter.leaf p o v).format = (Filter.leaf q o' v').format ∨
      (Filter.leaf p o v).toData = (Filter.leaf q o' v').toData → p = q) ∧
    (∀ d d', (SortItem.mk p d).text = (SortItem.mk q d').text ∨
      (SortItem.mk p d).toData = (SortItem.mk q d').toData → p = q) ∧
    (p.key = q.key ↔ p.Respelt SameLetters q) ∧
    ∀ (options : CastOptions) (m : FilterMapping) (n : SortMapping),
      (p.Respelt SameLetters q →
        (options.withFilter p m).filterMapping? q = some m ∧
        (options.withSort p n).sortMapping? q = some n) ∧
      (¬ p.Respelt SameLetters q →
        (options.withFilter p m).filterMapping? q = options.filterMapping? q ∧
        (options.withSort p n).sortMapping? q = options.sortMapping? q) := by
  refine ⟨fun segments h => ⟨p.parse_text, ?_⟩, fun s h => (plain_of_parse h).parse_text,
    text_inj.mp, fun o v o' v' h => h.elim eq_of_format_leaf eq_of_toData_leaf,
    fun d d' h => h.elim eq_of_text_sort eq_of_toData_sort, key_eq_iff,
    fun options m n => ⟨fun h => ?_, fun h => ?_⟩⟩
  · rw [← (ofSegments_eq_ok_iff segments p).mp h]
    -- only a line break at the end of a segment is lost on the way
    exact parse_text_iff
  · exact ⟨(lookup_key options.filters m).1 h, (lookup_key options.sorting n).1 h⟩
  · exact ⟨(lookup_key options.filters m).2 h, (lookup_key options.sorting n).2 h⟩

/-- A column that is read from a text with blanks and capital letters. It is another column than the
one in small letters, with another text, and has an entry in a table with it. -/
theorem text_faithful_of_capitals :
    ∃ p q, parse " Profile. City" = .ok p ∧ ofSegments ["profile", "city"] = .ok q ∧
      parse p.text = .ok p ∧ parse q.text = .ok q ∧ p.text ≠ q.text ∧ p.key = q.key ∧
      (CastOptions.empty.withSort p (.moved q none)).sortMapping? q = some (.moved q none) := by
  have hp : parse " Profile. City" = .ok ⟨["Profile", "City"], by decide, by decide⟩ := by decide
  have hq : ofSegments ["profile", "city"] = .ok ⟨["profile", "city"], by decide, by decide⟩ := by
    decide
  obtain ⟨-, hread, htext, -, -, hkey, htable⟩ :=
    text_faithful ⟨["Profile", "City"], by decide, by decide⟩
      ⟨["profile", "city"], by decide, by decide⟩
  obtain ⟨hmade, -⟩ := text_faithful ⟨["profile", "city"], by decide, by decide⟩
    ⟨["profile", "city"], by decide, by decide⟩
  -- the two paths differ in capitals only
  have hletters := List.Forall₂.cons (show SameLetters "Profile" "profile" by decide)
    (.cons (show SameLetters "City" "city" by decide) .nil)
  exact ⟨_, _, hp, hq, hread _ hp, (hmade _ hq).2.mpr (by decide),
    fun h => absurd (htext h) (by decide), hkey.mpr hletters,
    ((htable .empty (.moved ⟨["name"], by decide, by decide⟩ none none) _).1 hletters).2⟩

/-- A segment with a line break at its end is accepted. The column is read from its text without the
line break. -/
theorem parse_text_ne_of_lineBreak :
    ∃ p, ofSegments ["name\n"] = .ok p ∧ parse p.text = .ok ⟨["name"], by decide, by decide⟩ ∧
      parse p.text ≠ .ok p := by
  refine ⟨⟨["name\n"], by decide, by decide⟩, by decide, by decide, by decide⟩

end ColumnPath
end RecordQuery
