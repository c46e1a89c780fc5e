import RecordQuery.Proofs.Membership
import RecordQuery.Proofs.Printing

/-!
# Membership of a text in a list

A list of texts is given to a test of membership as one text, with commas between them. This text is
cut at its commas again, and the blanks at the ends of the parts are lost (`listItems`). A text is
therefore found if it is one of the parts, whether or not it is one of the texts that were given.

* `mem_listItems_join_iff` — the texts that are given are the parts that are found exactly where
  each of them is an item, and they are not the empty text alone.
* `among_texts` — the test that is built from texts finds the parts, on every column of texts.
* `among_texts_cut` — a text with a comma in it is missed, and its two halves are found.
-/

namespace RecordQuery

open Text

/-! ### The items of a text -/

theorem sep_notMem_of_mem_pieces {sep : Char} {cs part : List Char} (h : part ∈ pieces sep cs) :
    sep ∉ part := by
  induction cs generalizing part with
  | nil =>
    obtain rfl : part = [] := List.mem_singleton.mp h
    exact List.not_mem_nil
  | cons c cs ih =>
    rw [pieces] at h
    by_cases hc : c = sep
    · rw [if_pos hc, List.mem_cons] at h
      rcases h with rfl | h
      · exact List.not_mem_nil
      · exact ih h
    · rw [if_neg hc] at h
      -- the character goes to the first of the parts that follow
      obtain ⟨first, rest, hparts⟩ := List.exists_cons_of_ne_nil (pieces_ne_nil sep cs)
      rw [hparts] at h ih
      rcases List.mem_cons.mp h with rfl | h
      · rw [List.mem_cons, not_or]
        exact ⟨Ne.symm hc, ih List.mem_cons_self⟩
      · exact ih (List.mem_cons_of_mem first h)

theorem trim_subset (cs : List Char) : trim cs ⊆ cs := by
  intro c hc
  have hstart : c ∈ trimStart cs :=
    List.mem_reverse.mp ((List.dropWhile_sublist _).subset (List.mem_reverse.mp hc))
  exact (List.dropWhile_sublist _).subset hstart

/-- Whatever a text lists can be an item of a list. -/
theorem isItem_of_mem_listItems {text item : String} (h : item ∈ listItems text) :
    IsItem item := by
  unfold listItems at h
  split at h
  · cases h
  · obtain ⟨part, hpart, rfl⟩ := List.mem_map.mp h
    constructor
    · rw [String.toList_ofList, trim_trim]
    · rw [String.toList_ofList]
      exact fun hcomma => sep_notMem_of_mem_pieces hpart (trim_subset part hcomma)

/-- **What joining loses.** The texts that are joined are those that are listed exactly where all of
them are items, and they are not the empty text alone, which looks like no text at all. -/
theorem mem_listItems_join_iff {texts : List String} :
    (∀ text, text ∈ listItems (join "," texts) ↔ text ∈ texts) ↔
      (∀ text ∈ texts, IsItem text) ∧ texts ≠ [""] := by
  constructor
  · intro hsame
    refine ⟨fun text htext => isItem_of_mem_listItems ((hsame text).mpr htext), ?_⟩
    rintro rfl
    have hlisted : "" ∈ listItems (join "," [""]) := (hsame "").mpr List.mem_cons_self
    cases hlisted
  · rintro ⟨hitems, hone⟩ text
    rw [listItems_join hitems hone]

/-! ### Columns of texts -/

section

variable {s : Schema} {t : TypeExpr}

/-- Where texts are the type, a list is read as the texts that it lists. -/
theorem Schema.coerceList_of_isText (htext : t.present.1.isText = true) (raw : RawText) :
    s.coerceList raw t = .ok (.list ((listItems raw.text).map .text)) := by
  have hall : ((listItems raw.text).mapM fun text => s.coerceScalar (.plain text) t) =
      .ok ((listItems raw.text).map .text) := by
    rw [mapM_eq_ok_iff, List.forall₂_map_right_iff, List.forall₂_same]
    intro text _
    unfold coerceScalar
    rw [if_pos htext]
    rfl
  rw [coerceList_eq, hall]
  rfl

/-- No collection is read as one text. -/
theorem TypeExpr.element?_of_isText (htext : t.present.1.isText = true) : t.element? = none := by
  unfold element?
  generalize t.present.1 = u at htext
  unfold isText at htext
  split at htext
  · rfl
  · rfl
  · rfl
  · cases htext

end

namespace RawText

/-- A text that is read from a record, also one that is a member of an enumeration, is compared by
what it says. -/
theorem equals_text (r : RawText) (text : String) :
    r.value.equals (.text text) = .ok (r.text == text) := by
  cases r with
  | plain own => rfl
  | member owner name own => rfl

theorem anyOk_equals_texts (r : RawText) (texts : List String) :
    Value.anyOk r.value.equals (texts.map .text) = .ok (decide (r.text ∈ texts)) := by
  induction texts with
  | nil => rfl
  | cons text texts ih =>
    rw [List.map_cons, Value.anyOk, equals_text, ih]
    by_cases hsame : r.text = text
    · simp [hsame]
    · simp [hsame]

theorem written_value (r : RawText) : r.value.written = .ok r := by
  cases r with
  | plain own => rfl
  | member owner name own => rfl

theorem writtenAll_values (raws : List RawText) :
    Value.writtenAll (raws.map value) = .ok (raws.map text) := by
  induction raws with
  | nil => rfl
  | cons r raws ih =>
    rw [List.map_cons, Value.writtenAll, written_value, ih]
    rfl

end RawText

/-! ### Tests of membership -/

section

variable {h : Handle} {vs : List Value} {raws : List RawText} {f : Filter}

/-- The leaf that is built from texts holds all of them in one text. -/
theorem Handle.among_eq_leaf (hvs : spread vs = raws.map RawText.value) (hf : h.among vs = .ok f) :
    f = .leaf h.path .isIn (.plain (join "," (raws.map RawText.text))) := by
  have hwritten : (Value.list (spread vs)).written =
      .ok (.plain (join "," (raws.map RawText.text))) := by
    rw [hvs, Value.written, RawText.writtenAll_values]
    rfl
  exact (eq_leaf_of_test hwritten hf).1

/-- **Membership of a text.** Let a leaf be built from a list of texts, on a column of texts. It is
accepted, and it holds of a record exactly if the text that the column reads is among the parts
between the commas, when the texts of the list are joined by commas. These parts are the texts of
the list exactly where none of them has a comma or outer blanks, and where the list is not the empty
text alone. -/
theorem among_texts {s : Schema} {options : Options} {type : TypeExpr} {column : ResolvedColumn}
    (hcolumn : s.resolve options.fallback type h.path = .ok column)
    (htext : column.type.present.1.isText = true)
    (hvs : Handle.spread vs = raws.map RawText.value) (hf : h.among vs = .ok f) :
    let texts := raws.map RawText.text
    ∃ p, compileFilter s options Predicate.usualRegistry type [f] = .ok p ∧
      (∀ record (r : RawText), s.read options.nullGuard column record = .ok r.value →
        p.holds s record = .ok (decide (r.text ∈ listItems (join "," texts)))) ∧
      ((∀ text, text ∈ listItems (join "," texts) ↔ text ∈ texts) ↔
        (∀ text ∈ texts, IsItem text) ∧ texts ≠ [""]) := by
  intro texts
  rw [Handle.among_eq_leaf hvs hf]
  have hsingle : column.isCollection = false := by
    show column.type.element?.isSome = false
    rw [TypeExpr.element?_of_isText htext]
    rfl
  -- the column keeps every item as the text that it is
  have hcoerce : s.coerce (.plain (join "," texts)) column.type .isIn =
      .ok (.list ((listItems (join "," texts)).map .text)) := by
    refine Schema.coerceList_of_isText ?_ (.plain (join "," texts))
    rwa [TypeExpr.present_present]
  refine ⟨_, compileFilter_leaf hcolumn (checkOperator_of_single hsingle rfl rfl) hcoerce, ?_,
    mem_listItems_join_iff⟩
  intro record r hread
  rw [Predicate.holds_test_of_read hread]
  exact RawText.anyOk_equals_texts r _

end

/-- A customer is asked for one of two names. The second of the texts is a member of an enumeration,
and stands for what it says. -/
theorem among_texts_of_names :
    let handle : Handle := ⟨⟨["name"], by decide, by decide⟩, some (.named "Customer")⟩
    let raws : List RawText := [.plain "Ann", .member "Person" "BOB" "Bob"]
    let vs := raws.map RawText.value
    let customer (r : RawText) : Value :=
      .record ⟨.model, "Customer", ["name"], none⟩ [("name", some r.value)]
    ∃ column f, Orders.schema.resolve false (.named "Customer") handle.path = .ok column ∧
      column.type.present.1.isText = true ∧ Handle.spread vs = raws.map RawText.value ∧
      handle.among vs = .ok f ∧
      ∃ p, compileFilter Orders.schema .usual Predicate.usualRegistry (.named "Customer") [f] =
          .ok p ∧
        ∀ r : RawText, p.holds Orders.schema (customer r) =
          .ok (decide (r.text ∈ listItems "Ann,Bob")) := by
  intro handle raws vs customer
  obtain ⟨column, f, hcolumn, htext, hf, hread⟩ : ∃ column f,
      Orders.schema.resolve Options.usual.fallback (.named "Customer") handle.path = .ok column ∧
        column.type.present.1.isText = true ∧ handle.among vs = .ok f ∧
        ∀ r : RawText, Orders.schema.read false column (customer r) = .ok r.value :=
    ⟨_, _, rfl, rfl, rfl, fun _ => rfl⟩
  have hspread : Handle.spread vs = raws.map RawText.value := rfl
  obtain ⟨p, hp, hholds, -⟩ := among_texts hcolumn htext hspread hf
  exact ⟨column, f, hcolumn, htext, hspread, hf, p, hp,
    fun r => hholds (customer r) r (hread r)⟩

/-- A customer with a comma in the name is missed, and one whose name is a half of that is found. -/
theorem among_texts_cut :
    let handle : Handle := ⟨⟨["name"], by decide, by decide⟩, some (.named "Customer")⟩
    let customer (name : String) : Value :=
      .record ⟨.model, "Customer", ["name"], none⟩ [("name", some (.text name))]
    ∃ f p, handle.among [.text "a,b"] = .ok f ∧
      compileFilter Orders.schema .usual Predicate.usualRegistry (.named "Customer") [f] = .ok p ∧
      p.holds Orders.schema (customer "a,b") = .ok false ∧
      p.holds Orders.schema (customer "a") = .ok true := by
  intro handle customer
  exact ⟨_, _, rfl, rfl, rfl, rfl⟩

end RecordQuery
