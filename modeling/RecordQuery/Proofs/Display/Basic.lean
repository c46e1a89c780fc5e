import RecordQuery.Proofs.Display.Calendar
import RecordQuery.Proofs.Display.Nesting
import RecordQuery.Proofs.Number.Layout

/-!
# Displays of basic values

The display form of a basic value is nested text without colons of its own, since all colons are
those of mappings, inside of braces. So the name of a member of an enumeration can be told from the
value that is displayed after it.

* `Value.nested_display` — displays of basic values are nested, by recursion on the value.
* `Value.display_member_inj` — a displayed member fixes its name and the display of its value.
-/

namespace RecordQuery

open Text Numeral

variable {colons : Bool}

/-! ### Plain texts -/

theorem isPlain_of_mem_alphabet : ∀ c ∈ alphabet, isPlain c = true := List.all_eq_true.mp rfl

theorem isPlain_of_mem_toDigits {n : Nat} : ∀ c ∈ Nat.toDigits 10 n, isPlain c = true := fun c hc =>
  isPlain_of_mem_alphabet c (toDigits_subset_alphabet n hc)

theorem isPlain_of_mem_signed {n : Int} : ∀ c ∈ signed n, isPlain c = true := fun c hc =>
  isPlain_of_mem_alphabet c (signed_subset n hc)

theorem Decimal.isPlain_of_mem_render (d : Decimal) : ∀ c ∈ d.render, isPlain c = true :=
  fun c hc => isPlain_of_mem_alphabet c (d.render_subset hc)

theorem Binary64.isPlain_of_mem_render (x : Binary64) : ∀ c ∈ x.render, isPlain c = true :=
  fun c hc => isPlain_of_mem_alphabet c (x.render_subset hc)

theorem Uuid.isPlain_of_mem_render (u : Uuid) : ∀ c ∈ u.render, isPlain c = true := by
  have hletters : ∀ c ∈ '-' :: digits 16, isPlain c = true := List.all_eq_true.mp rfl
  exact fun c hc => hletters c (u.render_subset hc)

/-! ### Quotations and calls -/

theorem nested_quote (cs : List Char) : Nested colons (quote cs) := by
  have hquote := isMark_quoteFor cs
  rw [quote, List.cons_append]
  exact .quotes hquote (Enclosed.flatMap (Enclosed.of_escapeChar hquote) cs) .nil

theorem nested_quoteBytes (bs : List UInt8) : Nested colons (quoteBytes bs) := by
  have hquote := isMark_quoteFor (bs.map fun b => Char.ofNat b.toNat)
  rw [quoteBytes, List.cons_append, List.cons_append]
  exact .plain rfl
    (.quotes hquote (Enclosed.flatMap (Enclosed.of_escapeByte hquote) bs) .nil)

/-- Parts between commas. -/
theorem nested_join {parts : List String} (h : ∀ p ∈ parts, Nested colons p.toList) :
    Nested colons (join ", " parts).toList := by
  cases parts with
  | nil => exact .nil
  | cons p ps =>
    rw [toList_join_cons]
    refine (h p List.mem_cons_self).append ?_
    have hrest : ∀ q ∈ ps, Nested colons q.toList := fun q hq => h q (List.mem_cons_of_mem p hq)
    clear h
    induction ps with
    | nil => exact .nil
    | cons q qs ih =>
      -- each further part has a comma and a blank before it, which are plain
      rw [List.flatMap_cons]
      refine Nested.append (.plain rfl (.plain rfl ?_)) ?_
      · exact hrest q List.mem_cons_self
      · exact ih fun r hr => hrest r (List.mem_cons_of_mem q hr)

theorem join_singleton (p : String) : join ", " [p] = p := by
  rw [← String.toList_inj, toList_join_cons, List.flatMap_nil, List.append_nil]

/-- Whether one text is a bracket, possibly with a name of plain characters before it, and the other
one closes it. -/
def isBracketing (opening closing : String) : Bool :=
  match opening.toList.reverse, closing.toList with
  | o :: name, [c] => name.all isPlain && opens o && closes c
  | _, _ => false

/-- Parts between brackets. -/
theorem nested_bracketed {opening closing : String} (hb : isBracketing opening closing = true)
    {parts : List String} (h : ∀ p ∈ parts, Nested true p.toList) :
    Nested colons (bracketed opening parts closing).toList := by
  unfold isBracketing at hb
  split at hb
  · next o name c hreverse hclosing =>
    simp only [Bool.and_eq_true] at hb
    obtain ⟨⟨hname, hopen⟩, hclose⟩ := hb
    -- only the last character of what opens it is a bracket
    have hopening : opening.toList = name.reverse ++ [o] := by
      rw [← List.reverse_reverse opening.toList, hreverse, List.reverse_cons]
    have hplain : ∀ d ∈ name.reverse, isPlain d = true := fun d hd =>
      List.all_eq_true.mp hname d (List.mem_reverse.mp hd)
    rw [bracketed, String.toList_append, String.toList_append, hopening, hclosing,
      List.append_assoc, List.append_assoc]
    exact (Nested.of_plain hplain).append (.brackets hopen hclose (nested_join h) .nil)
  · cases hb

theorem nested_toString (n : Nat) : Nested colons (toString n).toList := by
  rw [toList_toString]
  exact .of_plain isPlain_of_mem_toDigits

theorem Duration.nested_display (d : Duration) : Nested colons d.display.toList := by
  rw [display_eq]
  refine nested_bracketed rfl fun p hp => ?_
  unfold displayParts at hp
  split at hp
  · rw [List.mem_singleton.mp hp]
    exact .of_all rfl
  · obtain ⟨a, ha, rfl⟩ := List.mem_map.mp hp
    -- the names of the parts are plain letters, and a number has a sign at most
    have hname : (["days", "seconds", "microseconds"].all fun name => name.toList.all isPlain) =
        true := rfl
    rw [amountText, String.toList_append, String.toList_append]
    have hplain := List.all_eq_true.mp hname a.1 (name_of_mem_amounts ha)
    refine ((Nested.of_all hplain).append ?_).append ?_
    · exact .of_all rfl
    · rw [String.toList_ofList]
      exact .of_plain isPlain_of_mem_signed

theorem Offset.nested_display (o : Offset) : Nested colons o.display.toList := by
  unfold display
  split
  · exact .of_all rfl
  · split
    · next d _ =>
      have hcall : Nested colons (bracketed "datetime.timezone(" [d.display] ")").toList :=
        nested_bracketed rfl (List.forall_mem_singleton.mpr d.nested_display)
      rwa [bracketed, join_singleton] at hcall
    · exact .nil

/-- A call with a quoted text. -/
theorem nested_quotedCall {opening : String} (name : String)
    (hopening : opening.toList = name.toList ++ ['(', apostrophe])
    (hname : name.toList.all isPlain = true) {cs : List Char} (hcs : ∀ c ∈ cs, isPlain c = true) :
    Nested colons (opening ++ String.ofList cs ++ "')").toList := by
  have hclosing : "')".toList = [apostrophe, ')'] := String.toList_ofList
  have hinner : Enclosed apostrophe cs := Enclosed.of_forall fun c hc =>
    ⟨fun h => (isPlain_spec (hcs c hc)).2.2.1 (.inl h), (isPlain_spec (hcs c hc)).1⟩
  rw [String.toList_append, String.toList_append, String.toList_ofList, hopening, hclosing,
    List.append_assoc, List.append_assoc]
  -- the quotes stand in brackets behind the name
  have hquotes : Nested true (apostrophe :: (cs ++ [apostrophe])) := .quotes (.inl rfl) hinner .nil
  have hcall : Nested colons ('(' :: (apostrophe :: (cs ++ [apostrophe]) ++ [')'])) :=
    .brackets rfl rfl hquotes .nil
  rw [List.cons_append, List.append_assoc] at hcall
  exact (Nested.of_all hname).append hcall

/-- A call with numbers and possibly an offset. -/
theorem nested_call {opening : String} (hb : isBracketing opening ")" = true) (ns : List Nat)
    (o : Option Offset) :
    Nested colons (bracketed opening (ns.map toString ++ displayOffset o) ")").toList := by
  refine nested_bracketed hb fun p hp => ?_
  obtain hp | hp := List.mem_append.mp hp
  · obtain ⟨n, -, rfl⟩ := List.mem_map.mp hp
    exact nested_toString n
  · cases o with
    | none => cases hp
    | some o =>
      rw [List.mem_singleton.mp hp, String.toList_append]
      exact (Nested.of_all rfl).append o.nested_display

/-! ### Basic values -/

namespace Value

theorem nested_displayScalar (v : Value) (h : v.isBasic = true) :
    Nested colons v.displayScalar.toList := by
  cases v with
  | null => exact .of_all rfl
  | bool b => cases b <;> exact .of_all rfl
  | int n =>
    rw [displayScalar, String.toList_ofList]
    exact .of_plain isPlain_of_mem_signed
  | float x =>
    rw [displayScalar, String.toList_ofList]
    exact .of_plain x.isPlain_of_mem_render
  | decimal d => exact nested_quotedCall "Decimal" rfl rfl d.isPlain_of_mem_render
  | text s =>
    rw [displayScalar, quoted, String.toList_ofList]
    exact nested_quote s.toList
  | bytes bs =>
    rw [displayScalar, String.toList_ofList]
    exact nested_quoteBytes bs
  | dateTime m => exact nested_call rfl _ m.offset
  | date d =>
    rw [displayScalar, Date.display_eq]
    exact nested_call rfl _ none
  | time t => exact nested_call rfl _ t.offset
  | duration d => exact d.nested_display
  | uuid u => exact nested_quotedCall "UUID" rfl rfl u.isPlain_of_mem_render
  | foreign | record | member => cases h
  -- collections are not shown by this function
  | list _ => exact .nil
  | tuple _ => exact .nil
  | set _ => exact .nil
  | frozenSet _ => exact .nil
  | map _ => exact .nil

mutual

/-- **Displays of basic values are nested**, and their colons stand inside of braces. -/
theorem nested_display : ∀ v : Value, v.isBasic = true → ∀ colons, Nested colons v.display.toList
  | .list xs, h, colons =>
    nested_bracketed rfl (nested_displayAll xs h)
  | .tuple xs, h, colons => by
    have hall := nested_displayAll xs h
    -- a tuple of one element has a comma behind the element
    by_cases hone : ∃ x, xs = [x]
    · obtain ⟨x, rfl⟩ := hone
      have hcall : Nested colons ('(' :: ((display x).toList ++ [','] ++ [')'])) :=
        .brackets rfl rfl ((hall _ List.mem_cons_self).append (.plain rfl .nil)) .nil
      have hclosing : ",)".toList = [','] ++ [')'] := String.toList_ofList
      rw [display, String.toList_append, String.toList_append, hclosing, List.append_assoc]
      rwa [List.append_assoc] at hcall
    · rw [display]
      · exact nested_bracketed rfl hall
      · exact fun x hx => hone ⟨x, hx⟩
  | .set xs, h, colons => by
    rw [display]
    split
    · -- an empty set is displayed as a call, since empty braces are a table
      have hword : "set()" = bracketed "set(" [] ")" := by decide
      rw [hword]
      exact nested_bracketed rfl (List.forall_mem_nil _)
    · exact nested_bracketed rfl (nested_displayAll xs h)
  | .frozenSet xs, h, colons => by
    rw [display]
    split
    · have hword : "frozenset()" = bracketed "frozenset(" [] ")" := by decide
      rw [hword]
      exact nested_bracketed rfl (List.forall_mem_nil _)
    · have hset : Nested true (bracketed openBrace (displayAll xs) closeBrace).toList :=
        nested_bracketed rfl (nested_displayAll xs h)
      have hcall : Nested colons
          (bracketed "frozenset(" [bracketed openBrace (displayAll xs) closeBrace] ")").toList :=
        nested_bracketed rfl (List.forall_mem_singleton.mpr hset)
      rw [bracketed, join_singleton] at hcall
      simpa only [bracketed, String.append_assoc] using hcall
  | .map entries, h, colons =>
    nested_bracketed rfl (nested_displayEntries entries h)
  | .member _ _ _ _, h, _ => by cases h
  | .record _ _, h, _ => by cases h
  | .foreign _ _ _ _, h, _ => by cases h
  | .null, h, _ => nested_displayScalar _ h
  | .bool _, h, _ => nested_displayScalar _ h
  | .int _, h, _ => nested_displayScalar _ h
  | .float _, h, _ => nested_displayScalar _ h
  | .decimal _, h, _ => nested_displayScalar _ h
  | .text _, h, _ => nested_displayScalar _ h
  | .bytes _, h, _ => nested_displayScalar _ h
  | .dateTime _, h, _ => nested_displayScalar _ h
  | .date _, h, _ => nested_displayScalar _ h
  | .time _, h, _ => nested_displayScalar _ h
  | .duration _, h, _ => nested_displayScalar _ h
  | .uuid _, h, _ => nested_displayScalar _ h
termination_by structural x => x

theorem nested_displayAll : ∀ xs : List Value, areBasic xs = true →
    ∀ p ∈ displayAll xs, Nested true p.toList
  | [], _, _, hp => by cases hp
  | x :: xs, h, p, hp => by
    obtain ⟨hx, hxs⟩ := Bool.and_eq_true_iff.mp h
    obtain rfl | hp := List.mem_cons.mp hp
    · exact nested_display x hx true
    · exact nested_displayAll xs hxs p hp
termination_by structural x => x

theorem nested_displayEntries : ∀ entries : List (String × Value), areBasicUnder entries = true →
    ∀ p ∈ displayEntries entries, Nested true p.toList
  | [], _, _, hp => by cases hp
  | (k, x) :: rest, h, p, hp => by
    obtain ⟨hx, hrest⟩ := Bool.and_eq_true_iff.mp h
    obtain rfl | hp := List.mem_cons.mp hp
    · -- the colon behind a key stands inside the braces of the table
      rw [String.toList_append, String.toList_append, quoted, String.toList_ofList]
      refine ((nested_quote k.toList).append ?_).append (nested_display x hx true)
      exact .colon (.plain rfl .nil)
    · exact nested_displayEntries rest hrest p hp
termination_by structural x => x

end

mutual

/-- Basic values have displays. -/
theorem displayFault?_of_isBasic : ∀ v : Value, v.isBasic = true → v.displayFault? = none
  | .int n, h => by
    have hshort : isTooLong n = false := by simpa [isBasic] using h
    rw [displayFault?, hshort]
    rfl
  | .list xs, h => displayFaultAmong?_of_areBasic xs h
  | .tuple xs, h => displayFaultAmong?_of_areBasic xs h
  | .set xs, h => displayFaultAmong?_of_areBasic xs h
  | .frozenSet xs, h => displayFaultAmong?_of_areBasic xs h
  | .map entries, h => displayFaultUnder?_of_areBasicUnder entries h
  | .member _ _ _ _, h => by cases h
  | .record _ _, h => by cases h
  | .foreign _ _ _ _, h => by cases h
  | .null, _ => rfl
  | .bool _, _ => rfl
  | .float _, _ => rfl
  | .decimal _, _ => rfl
  | .text _, _ => rfl
  | .bytes _, _ => rfl
  | .dateTime _, _ => rfl
  | .date _, _ => rfl
  | .time _, _ => rfl
  | .duration _, _ => rfl
  | .uuid _, _ => rfl
termination_by structural x => x

theorem displayFaultAmong?_of_areBasic : ∀ xs : List Value, areBasic xs = true →
    displayFaultAmong? xs = none
  | [], _ => rfl
  | x :: xs, h => by
    obtain ⟨hx, hxs⟩ := Bool.and_eq_true_iff.mp h
    rw [displayFaultAmong?, displayFault?_of_isBasic x hx, displayFaultAmong?_of_areBasic xs hxs]
    rfl
termination_by structural x => x

theorem displayFaultUnder?_of_areBasicUnder : ∀ entries : List (String × Value),
    areBasicUnder entries = true → displayFaultUnder? entries = none
  | [], _ => rfl
  | (_, x) :: rest, h => by
    obtain ⟨hx, hrest⟩ := Bool.and_eq_true_iff.mp h
    rw [displayFaultUnder?, displayFault?_of_isBasic x hx,
      displayFaultUnder?_of_areBasicUnder rest hrest]
    rfl
termination_by structural x => x

end

/-- **A displayed member** of an enumeration fixes its name and the display of its value. -/
theorem display_member_inj {base base' : EnumBase} {owner name name' : String} {v w : Value}
    (hv : v.isBasic = true) (hw : w.isBasic = true)
    (h : (member base owner name v).display = (member base' owner name' w).display) :
    name = name' ∧ v.display = w.display := by
  have hseparator : ": ".toList = [':', ' '] := String.toList_ofList
  rw [display, display] at h
  have hchars := congrArg String.toList h
  simp only [String.toList_append, hseparator, List.append_assoc] at hchars
  have hnames := List.append_cancel_left (List.append_cancel_left (List.append_cancel_left hchars))
  rw [← List.append_assoc, ← List.append_assoc, ← List.append_assoc name'.toList,
    ← List.append_assoc] at hnames
  have hparts := List.append_cancel_right hnames
  rw [List.append_assoc, List.append_assoc] at hparts
  -- a name may have any characters, but the display of the value has no colon outside of brackets
  obtain ⟨hname, hvalue⟩ := (nested_display v hv false).append_colon_inj
    (nested_display w hw false) hparts
  exact ⟨String.toList_inj.mp hname, String.toList_inj.mp hvalue⟩

end Value

end RecordQuery
