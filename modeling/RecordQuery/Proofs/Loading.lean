import RecordQuery.Proofs.Display.Basic
import RecordQuery.Proofs.Refusal

/-!
# Loading filters

Data that is read as a filter may have been sent by anyone, so what is wrong with it should be told
as an error of the grammar. It is told so at every depth, with one exception. A column is asked for
its path before anybody has looked whether it is a text, and a number, a truth value, a list or a
mapping in its place has none. Besides, integers of too many digits have no text at all.

* `Filter.Escapes` — the data that escapes the errors of the grammar, with the fault that it ends
  in. One case names the place of the fault below a combinator: reading goes from left to right, so
  all conditions before that place are in order.
* `Filter.ofData_outcome` — reading ends in a filter, in an error of the grammar, or in a fault, and
  the last exactly where the data escapes. Where all integers can be written, the columns are the
  only cause.
* `Filter.ofData_escapes_of_number` — a column that is a number.
-/

namespace RecordQuery.Filter

open Text

/-! ### The data that escapes -/

/-- The value under a key has no plain text. -/
def Unwritten (key : String) (entries : List (String × Value)) (fault : Fault) : Prop :=
  ∃ v, entries.lookup key = some v ∧ v.plainShown = .error fault

/-- A leaf escapes when it cannot be shown, when its value has no text, or when its column is no
text. -/
inductive LeafEscapes (entries : List (String × Value)) : Fault → Prop
  | unshown {fault : Fault} (absent : entries.lookup "column" = none)
    (h : (Value.map entries).shown = .error fault) : LeafEscapes entries fault
  | value {column : Value} {fault : Fault} (given : entries.lookup "column" = some column)
    (h : Unwritten "value" entries fault) : LeafEscapes entries fault
  | column {column : Value} {text : String} (given : entries.lookup "column" = some column)
    (stray : ∀ s, column ≠ .text s) (written : textUnder "value" entries = .ok text) :
    LeafEscapes entries .missingMember

/-- The data that ends in a fault when it is read. -/
inductive Escapes : Value → Fault → Prop
  | operator {entries : List (String × Value)} {fault : Fault} (h : Unwritten "op" entries fault) :
    Escapes (.map entries) fault
  | leaf {entries : List (String × Value)} {word : String} {o : Operator} {fault : Fault}
    (hword : operatorText entries = .ok word) (hnone : Combinator.ofToken? word = none)
    (ho : Operator.ofToken? word = some o) (h : LeafEscapes entries fault) :
    Escapes (.map entries) fault
  | column {entries : List (String × Value)} {word : String} {q : Quantifier} {fs : List Filter}
    {column : Value} (hword : operatorText entries = .ok word)
    (hq : Combinator.ofToken? word = some (.quantifier q)) (hfs : conditionsIn entries = .ok fs)
    (given : entries.lookup "column" = some column) (hnull : column ≠ .null)
    (stray : ∀ s, column ≠ .text s) : Escapes (.map entries) .missingMember
  | condition {entries : List (String × Value)} {word : String} {k : Combinator}
    {before after : List Value} {v : Value} {fs : List Filter} {fault : Fault}
    (hword : operatorText entries = .ok word) (hk : Combinator.ofToken? word = some k)
    (given : entries.lookup "conditions" = some (.list (before ++ v :: after)))
    (hbefore : ofDataAll before = .ok fs) (h : Escapes v fault) : Escapes (.map entries) fault

/-- Some piece of data escapes, and all before it are in order. -/
def EscapesAmong (vs : List Value) (fault : Fault) : Prop :=
  ∃ before v after fs, vs = before ++ v :: after ∧ ofDataAll before = .ok fs ∧ Escapes v fault

/-! ### Faults are no accident -/

/-- An error of the grammar, or a fault of which it is known where it comes from. -/
def GrammarOr (P : Fault → Prop) (e : Error) : Prop := e.IsGrammar ∨ ∃ k, e = .fault k ∧ P k

theorem GrammarOr.mono {P Q : Fault → Prop} (h : ∀ k, P k → Q k) {e : Error}
    (he : GrammarOr P e) : GrammarOr Q e := by
  obtain he | ⟨k, rfl, hk⟩ := he
  · exact .inl he
  · exact .inr ⟨k, rfl, h k hk⟩

private theorem failsWith_liftFault {α : Type} (x : Except Fault α) :
    FailsWith (GrammarOr fun k => x = .error k) (liftFault x) := by
  cases x with
  | ok a => exact failsWith_ok a
  | error k => exact failsWith_error (.inr ⟨k, rfl, rfl⟩)

theorem failsWith_textUnder (key : String) (entries : List (String × Value)) :
    FailsWith (GrammarOr (Unwritten key entries)) (textUnder key entries) := by
  rw [textUnder]
  split
  · next v hv =>
    exact (failsWith_liftFault v.plainShown).mono fun _ => .mono fun k hk => ⟨v, hv, hk⟩
  · exact failsWith_ok _

theorem failsWith_operatorText (entries : List (String × Value)) :
    FailsWith (GrammarOr (Unwritten "op" entries)) (operatorText entries) :=
  (failsWith_textUnder "op" entries).map _

private theorem columnOfData_stray {column : Value} (h : ∀ s, column ≠ .text s) :
    columnOfData column = .other := by
  rw [columnOfData.eq_def]
  split
  · next s => exact absurd rfl (h s)
  · rfl

/-- A column is a path, a text that is none, or no text. -/
private theorem failsWith_resolve_columnOfData (column : Value) :
    FailsWith (GrammarOr fun k => k = .missingMember ∧ ∀ s, column ≠ .text s)
      (columnOfData column).resolve := by
  rw [columnOfData.eq_def]
  split
  · next s => exact (ColumnPath.failsWith_parse s).mono fun _ => .inl
  · next hother => exact failsWith_error (.inr ⟨_, rfl, rfl, fun s hs => hother s hs⟩)

theorem failsWith_leafOfData (o : Operator) (entries : List (String × Value)) :
    FailsWith (GrammarOr (LeafEscapes entries)) (leafOfData o entries) := by
  rw [leafOfData]
  split
  · -- a missing column is told with the text of the whole mapping, which may have none
    next habsent =>
    have hshown := failsWith_liftFault (Value.map entries).shown
    refine (hshown.mono fun _ => .mono fun k => .unshown habsent).bind fun shown _ => ?_
    exact failsWith_error (.inl (.intro _ _ _))
  · next column hcolumn =>
    have htext := failsWith_textUnder "value" entries
    refine (htext.mono fun _ => .mono fun k => .value hcolumn).bind fun text hwritten => ?_
    refine FailsWith.bind ?_ fun path _ => failsWith_ok _
    refine (failsWith_resolve_columnOfData column).mono fun _ => .mono ?_
    rintro k ⟨rfl, hstray⟩
    exact .column hcolumn hstray hwritten

/-- Conditions are put together, unless the column of a quantifier is neither a text nor nothing. -/
private theorem failsWith_combine (k : Combinator) (entries : List (String × Value))
    (fs : List Filter) :
    FailsWith (GrammarOr fun fault => fault = .missingMember ∧ ∃ q column, k = .quantifier q ∧
      entries.lookup "column" = some column ∧ column ≠ .null ∧ ∀ s, column ≠ .text s)
      (combine k entries fs) := by
  refine FailsWith.bind ?_ fun column _ =>
    (failsWith_ofQualified k column fs).mono fun _ => .inl
  rw [NodeArgs.checkedColumn.eq_def]
  -- a column is looked at for a quantifier only
  split
  · next q given hgiven =>
    split at hgiven
    · cases hgiven
    · cases hgiven
    · next column hnull hcolumn =>
      cases hgiven
      refine FailsWith.map ?_ _
      refine (failsWith_resolve_columnOfData column).mono fun _ => .mono ?_
      rintro fault ⟨rfl, hstray⟩
      exact ⟨rfl, q, column, rfl, hcolumn, hnull, hstray⟩
  · exact failsWith_error (.inl (.intro _ _ _))
  · exact failsWith_ok _

/-! ### All depths -/

/-- The conditions of a mapping are what stands under their key. -/
theorem conditionsIn_eq (entries : List (String × Value)) :
    conditionsIn entries = (entries.lookup "conditions").elim (.ok []) conditionsOf := by
  induction entries with
  | nil => rfl
  | cons entry rest ih =>
    obtain ⟨key, v⟩ := entry
    rw [conditionsIn, List.lookup_cons]
    by_cases hkey : key = "conditions"
    · rw [if_pos hkey, hkey, beq_self_eq_true]
      rfl
    · rw [if_neg hkey, ih, beq_eq_false_iff_ne.mpr (Ne.symm hkey)]

/-- Reading stops at the first piece of data that fails. -/
theorem ofDataAll_error {before after : List Value} {v : Value} {fs : List Filter} {e : Error}
    (hbefore : ofDataAll before = .ok fs) (hv : ofData v = .error e) :
    ofDataAll (before ++ v :: after) = .error e := by
  induction before generalizing fs with
  | nil =>
    rw [List.nil_append, ofDataAll, hv]
    rfl
  | cons w before ih =>
    obtain ⟨g, hg, hrest⟩ := bind_eq_ok_iff.mp hbefore
    obtain ⟨gs, hgs, -⟩ := bind_eq_ok_iff.mp hrest
    rw [List.cons_append, ofDataAll, hg, ok_bind, ih hgs]
    rfl

mutual

theorem failsWith_ofData (v : Value) : FailsWith (GrammarOr (Escapes v)) (ofData v) := by
  cases v with
  | map entries =>
    have hoperator := failsWith_operatorText entries
    refine (hoperator.mono fun _ => .mono fun k => .operator).bind fun word hword => ?_
    split
    · next k hk =>
      -- the conditions are read before the column is
      have hparts := failsWith_conditionsIn entries
      refine FailsWith.bind (hparts.mono fun _ => .mono ?_) fun fs hfs => ?_
      · rintro fault ⟨vs, hvs, before, v, after, fs, rfl, hbefore, hv⟩
        exact .condition hword hk hvs hbefore hv
      · refine (failsWith_combine k entries fs).mono fun _ => .mono ?_
        rintro fault ⟨rfl, q, column, rfl, hgiven, hnull, hstray⟩
        exact .column hword hk hfs hgiven hnull hstray
    · next hnone =>
      split
      · next o ho =>
        exact (failsWith_leafOfData o entries).mono fun _ => .mono fun k => .leaf hword hnone ho
      · exact failsWith_error (.inl (.intro _ _ _))
  | _ => exact failsWith_error (.inl (.intro _ _ _))

theorem failsWith_conditionsIn (entries : List (String × Value)) :
    FailsWith (GrammarOr fun fault => ∃ vs, entries.lookup "conditions" = some (.list vs) ∧
      EscapesAmong vs fault) (conditionsIn entries) := by
  cases entries with
  | nil => exact failsWith_ok []
  | cons entry rest =>
    obtain ⟨key, v⟩ := entry
    rw [conditionsIn]
    split
    · -- the first entry under this name is the one that a look-up finds
      next hkey =>
      refine (failsWith_conditionsOf v).mono fun _ => .mono ?_
      rintro fault ⟨vs, rfl, hvs⟩
      exact ⟨vs, by rw [hkey, List.lookup_cons_self], hvs⟩
    · next hkey =>
      refine (failsWith_conditionsIn rest).mono fun _ => .mono ?_
      rintro fault ⟨vs, hlookup, hvs⟩
      exact ⟨vs, by rw [List.lookup_cons, beq_eq_false_iff_ne.mpr (Ne.symm hkey), hlookup], hvs⟩

theorem failsWith_conditionsOf (v : Value) :
    FailsWith (GrammarOr fun fault => ∃ vs, v = .list vs ∧ EscapesAmong vs fault)
      (conditionsOf v) := by
  rw [conditionsOf.eq_def]
  split
  · next vs =>
    exact (failsWith_ofDataAll vs).mono fun _ => .mono fun fault h => ⟨vs, rfl, h⟩
  · split
    · exact failsWith_ok []
    · exact failsWith_error (.inl (.intro _ _ _))

theorem failsWith_ofDataAll (vs : List Value) :
    FailsWith (GrammarOr (EscapesAmong vs)) (ofDataAll vs) := by
  cases vs with
  | nil => exact failsWith_ok []
  | cons v vs =>
    have hfirst := (failsWith_ofData v).mono fun _ => GrammarOr.mono fun k hk =>
      show EscapesAmong (v :: vs) k from ⟨[], v, vs, [], rfl, rfl, hk⟩
    refine hfirst.bind fun f hf => FailsWith.bind ?_ fun fs _ => failsWith_ok _
    refine (failsWith_ofDataAll vs).mono fun _ => .mono ?_
    -- the first element was loaded, and stands before the one that fails
    rintro fault ⟨before, w, after, fs, rfl, hbefore, hw⟩
    refine ⟨v :: before, w, after, f :: fs, rfl, ?_, hw⟩
    rw [ofDataAll, hf, ok_bind, hbefore]
    rfl

end

/-! ### The outcome -/

theorem Unwritten.textUnder_eq {key : String} {entries : List (String × Value)} {fault : Fault}
    (h : Unwritten key entries fault) : textUnder key entries = .error (.fault fault) := by
  obtain ⟨v, hv, hfault⟩ := h
  rw [textUnder, hv]
  show liftFault v.plainShown = _
  rw [hfault]
  rfl

theorem LeafEscapes.leafOfData_eq {o : Operator} {entries : List (String × Value)} {fault : Fault}
    (h : LeafEscapes entries fault) : leafOfData o entries = .error (.fault fault) := by
  cases h with
  | unshown absent hfault =>
    rw [leafOfData, absent]
    simp only [hfault]
    rfl
  | value given unwritten =>
    rw [leafOfData, given]
    simp only [unwritten.textUnder_eq]
    rfl
  | column given stray written =>
    -- the column is looked at after the value was written
    rw [leafOfData, given]
    simp only [written, columnOfData_stray stray]
    rfl

/-- Data that escapes ends in its fault, at whatever depth the place of the fault is. -/
theorem Escapes.ofData_eq {v : Value} {fault : Fault} (h : Escapes v fault) :
    ofData v = .error (.fault fault) := by
  induction h with
  | operator unwritten =>
    rw [ofData, operatorText, unwritten.textUnder_eq]
    rfl
  | leaf hword hnone ho hleaf => rw [ofData_of_operator hword hnone ho, hleaf.leafOfData_eq]
  | @column entries word q fs column hword hq hfs given hnull stray =>
    rw [ofData_of_combinator hword hq, hfs]
    show combine (.quantifier q) entries fs = _
    rw [combine, given]
    cases column with
    -- a missing column is told as such, and a text can be read
    | null => exact absurd rfl hnull
    | text s => exact absurd rfl (stray s)
    | _ => rfl
  | condition hword hk given hbefore _ ih =>
    rw [ofData_of_combinator hword hk, conditionsIn_eq, given]
    show (ofDataAll _).bind _ = _
    rw [ofDataAll_error hbefore ih]
    rfl

/-! ### Values that can be written -/

/-- A value under a key of basic ones is basic. -/
private theorem isBasic_of_lookup {key : String} : ∀ {entries : List (String × Value)} {v : Value},
    Value.areBasicUnder entries = true → entries.lookup key = some v → v.isBasic = true
  | (k, w) :: rest, v, h, hv => by
    rw [Value.areBasicUnder, Bool.and_eq_true] at h
    rw [List.lookup_cons] at hv
    split at hv
    · cases hv
      exact h.1
    · exact isBasic_of_lookup h.2 hv

private theorem isBasic_of_mem : ∀ {vs : List Value} {v : Value}, Value.areBasic vs = true →
    v ∈ vs → v.isBasic = true
  | w :: vs, v, h, hv => by
    rw [Value.areBasic, Bool.and_eq_true] at h
    obtain rfl | hv := List.mem_cons.mp hv
    · exact h.1
    · exact isBasic_of_mem h.2 hv

private theorem plainShown_ne_error {v : Value} (h : v.isBasic = true) (fault : Fault) :
    v.plainShown ≠ .error fault := by
  rw [Value.plainShown.eq_def]
  split
  · cases h
  · cases h
  · rw [Value.displayFault?_of_isBasic v h]
    nofun

private theorem not_unwritten {key : String} {entries : List (String × Value)} {fault : Fault}
    (h : Value.areBasicUnder entries = true) : ¬ Unwritten key entries fault := fun ⟨_, hv, hfault⟩ =>
  plainShown_ne_error (isBasic_of_lookup h hv) fault hfault

/-- Where all parts can be written, only columns escape. -/
theorem Escapes.eq_missingMember {v : Value} {fault : Fault} (h : Escapes v fault)
    (hbasic : v.isBasic = true) : fault = .missingMember := by
  -- basic values can always be written, so that only a column is left to fail
  induction h with
  | operator unwritten => exact absurd unwritten (not_unwritten hbasic)
  | @leaf entries _ _ _ _ _ _ hleaf =>
    cases hleaf with
    | unshown _ hfault =>
      rw [Value.shown, Value.displayFault?_of_isBasic _ hbasic] at hfault
      cases hfault
    | value _ unwritten => exact absurd unwritten (not_unwritten hbasic)
    | column _ _ _ => rfl
  | column _ _ _ _ _ _ => rfl
  | condition _ _ given _ _ ih =>
    exact ih (isBasic_of_mem (isBasic_of_lookup hbasic given) (by simp))

/-- **Reading data** ends in a filter, in an error of the grammar, or in a fault. It ends in a fault
exactly where the data escapes, and in data that can be written it is the missing path of a column
that is no text. -/
theorem ofData_outcome (v : Value) :
    ((∃ f, ofData v = .ok f) ∨ (∃ e, e.IsGrammar ∧ ofData v = .error e) ∨
      ∃ fault, ofData v = .error (.fault fault)) ∧
    (∀ fault, ofData v = .error (.fault fault) ↔ Escapes v fault) ∧
    (v.isBasic = true → ∀ fault, Escapes v fault → fault = .missingMember) := by
  have hfails := failsWith_ofData v
  refine ⟨?_, fun fault => ⟨fun h => ?_, Escapes.ofData_eq⟩,
    fun hbasic fault h => h.eq_missingMember hbasic⟩
  · cases h : ofData v with
    | ok f => exact .inl ⟨f, rfl⟩
    | error e =>
      obtain he | ⟨fault, rfl, -⟩ := hfails e h
      · exact .inr (.inl ⟨e, he, rfl⟩)
      · exact .inr (.inr ⟨fault, rfl⟩)
  · obtain he | ⟨k, hk, hescapes⟩ := hfails _ h
    · cases he
    · cases hk
      exact hescapes

/-- The second condition of a group is quantified over a list instead of a column. -/
theorem ofData_outcome_of_nested :
    let condition : Value := .map [("op", .text "eq"), ("column", .text "name"), ("value", .null)]
    let quantified : Value := .map [("op", .text "Any"), ("column", .list [])]
    let v : Value := .map [("op", .text "or"), ("conditions", .list [condition, quantified])]
    Escapes v .missingMember ∧ v.isBasic = true :=
  ⟨((ofData_outcome _).2.1 _).mp (by rfl), by rfl⟩

/-- A column that is a number escapes the errors of the grammar. -/
theorem ofData_escapes_of_number :
    let v : Value := .map [("op", .text "eq"), ("column", .int 5), ("value", .text "x")]
    v.isBasic = true ∧ ¬ ((∃ f, ofData v = .ok f) ∨ ∃ e, e.IsGrammar ∧ ofData v = .error e) := by
  intro v
  have hfault : ofData v = .error (.fault .missingMember) := by rfl
  refine ⟨by rfl, ?_⟩
  -- the fault is no filter, and no error of the grammar
  rintro (⟨f, hf⟩ | ⟨e, he, h⟩)
  · rw [hfault] at hf
    cases hf
  · rw [hfault] at h
    cases h
    cases he

end RecordQuery.Filter
