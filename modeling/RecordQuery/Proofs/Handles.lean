import RecordQuery.Proofs.AlternateNames
import RecordQuery.Proofs.Printing
import RecordQuery.Proofs.Refusal

/-!
# Filters that are built from handles of a type

A handle on a column of a type is resolved when it is made, so that a misspelt member is found at
once. A tree that is built from such handles is qualified, taken apart and resolved again when it is
compiled; nothing of this goes wrong, and what remains to be refused are operators and values. Only
what a schema brings into conversions, its adapter and the values of its enumerations, can fail in
other ways.

* `Error.IsUnfit` — the errors of a condition on a column that exists.
* `Surface.FoundOn` — a surface form whose columns are all found, each on the type that it is about.
  `FoundOn.failsWith_compileNode` walks over its tree.
* `Cursor.Handles` — the handles of the columns of a type. By `Handles.resolves` they have columns.
* `BuiltFrom` — the trees that handles, leaf methods and combinators make, the conditions of a
  quantifier from the columns of the elements. By `exists_foundOn` they have such surface forms.
* `BuiltFrom.compile_unfit` — the result.
* `BuiltFrom.compile_raises` — two schemas that bring in failures of their own.

A handle and the compiler go to the elements of a column by the same look-up. The paths of the
conditions stay those of the handles they were built from: they stand in the surface form, and the
compiler takes the quantifier's column off before it resolves them.
-/

namespace RecordQuery

/-! ### What can be wrong with a condition on a column that exists -/

namespace Error

/-- The errors of a condition whose column exists: the operator does not fit the column, or the text
is no value of its type. A letter or a word in a duration that names no unit of time is a fault of
its own, and so is what a schema brings in. -/
inductive IsUnfit (s : Schema) : Error → Prop
  | operator {e : Error} (h : e.IsMismatch) : IsUnfit s e
  | conversion {e : Error} (h : s.ConversionFailure e) : IsUnfit s e
  | letter : IsUnfit s (.fault .missingKey)
  | unit : IsUnfit s (.fault .unsupported)

/-- Such an error is about neither a text's form, nor a column, nor the use of the interface, and is
a value out of range only if the schema raises it. -/
theorem IsUnfit.not_others {s : Schema} {e : Error} (h : e.IsUnfit s) :
    ¬ e.IsGrammar ∧ ¬ e.IsResolution ∧ (∀ cause, e ≠ .misuse cause) ∧
      (¬ s.Raises .invalidValue → e ≠ .fault .invalidValue) := by
  cases h with
  | operator h =>
    cases h
    exact ⟨nofun, nofun, nofun, fun _ => nofun⟩
  | conversion h =>
    cases h with
    | value h =>
      cases h
      exact ⟨nofun, nofun, nofun, fun _ => nofun⟩
    | fault raises =>
      refine ⟨nofun, nofun, nofun, fun hnone hinvalid => ?_⟩
      -- such a fault was brought in by the schema
      cases hinvalid
      exact hnone raises
  | letter => exact ⟨nofun, nofun, nofun, fun _ => nofun⟩
  | unit => exact ⟨nofun, nofun, nofun, fun _ => nofun⟩

end Error

theorem isUnfit_intervalError (s : Schema) (raw : RawText) (typeName : String) (cs : List Char)
    (e : IntervalError) : (intervalError raw typeName cs e).IsUnfit s := by
  cases e with
  | unrecognised => exact .conversion (.value (.intro _ _ _))
  | outOfRange => exact .conversion (.value (.intro _ _ _))
  | tooManyDigits => exact .conversion (.value (.intro _ _ _))
  | unknownLetter => exact .letter
  | unknownUnit => exact .unit

namespace Schema

variable {s : Schema}

theorem unfit_coerceText (s : Schema) (raw : RawText) (cs : List Char) (t : TypeExpr) :
    FailsWith (Error.IsUnfit s) (s.coerceText raw cs t) := by
  -- of the conversions of the program only the reader of durations has faults of its own
  by_cases ht : t = .scalar .duration
  · subst ht
    rw [coerceText]
    split
    · exact failsWith_ok _
    · exact failsWith_error (isUnfit_intervalError s raw _ cs _)
  · exact (failsWith_coerceText ht raw cs).mono fun _ => .conversion

/-- A text of any type is refused as no value of the type. -/
theorem unfit_coerce (s : Schema) (raw : RawText) (t : TypeExpr) (o : Operator) :
    FailsWith (Error.IsUnfit s) (s.coerce raw t o) :=
  failsWith_coerce_of_text (fun u _ raw cs => s.unfit_coerceText raw cs u) raw o

/-- A column that is found for a path on a type is found below any scope, with alternate names tried
or not. -/
theorem resolveIn_under {t : TypeExpr} {c : ColumnPath} {column : ResolvedColumn}
    (found : s.resolve false t c = .ok column) (options : Options) (scope : Option ColumnPath) :
    s.resolveIn options t scope (c.under scope) = .ok column := by
  have hnames : false = true → options.fallback = true := nofun
  obtain ⟨_, hfound, rfl⟩ := follows_resolve_of_names hnames t c column found
  rw [resolveIn, ColumnPath.within_under, ok_bind]
  exact hfound

theorem unfit_condition {t : TypeExpr} {c : ColumnPath} (found : Succeeds (s.resolve false t c))
    (options : Options) (scope : Option ColumnPath) (o : Operator) (raw : RawText) :
    FailsWith (Error.IsUnfit s) (s.condition options t scope (c.under scope) o raw) := by
  obtain ⟨column, hcolumn⟩ := found
  rw [condition, resolveIn_under hcolumn options scope, ok_bind]
  refine ((s.failsWith_checkOperator column o).mono fun _ => .operator).bind fun _ _ => ?_
  exact (s.unfit_coerce raw column.type o).bind fun v _ => failsWith_ok _

end Schema

/-! ### Surface forms whose columns are found -/

/-- Every column of a surface form is found on the type that it is about, without alternate names:
the type of the records at the top, and that of the elements below a quantifier, whose column is a
collection. -/
inductive Surface.FoundOn (s : Schema) : TypeExpr → Surface → Prop
  | leaf {t : TypeExpr} {c : ColumnPath} {o : Operator} {raw : RawText}
      (found : Succeeds (s.resolve false t c)) : FoundOn s t (.leaf c o raw)
  | group {t : TypeExpr} {k : Connective} {us : List Surface}
      (children : ∀ u ∈ us, FoundOn s t u) : FoundOn s t (.group k us)
  | quantified {t e : TypeExpr} {q : Quantifier} {c : ColumnPath} {us : List Surface}
      {column : ResolvedColumn} (found : s.resolve false t c = .ok column)
      (element : column.element? = some e) (children : ∀ u ∈ us, FoundOn s e u) :
      FoundOn s t (.quantified q c us)

section Walk

variable {α : Type} {s : Schema} {P : Error → Prop}

/-- Filters fail one after another. -/
theorem failsWith_compileAll_under {b : Backend α} {options : Options} {owner : TypeExpr}
    {scope scope' : Option ColumnPath} {us : List Surface}
    (h : ∀ u ∈ us, FailsWith P (b.compileNode s options owner scope' (u.under scope))) :
    FailsWith P (b.compileAll s options owner scope' (Surface.underAll scope us)) := by
  induction us with
  | nil => exact failsWith_ok []
  | cons u us ih =>
    obtain ⟨hu, hus⟩ := List.forall_mem_cons.mp h
    rw [Surface.underAll, Backend.compileAll]
    exact hu.bind fun part _ => (ih hus).bind fun parts _ => failsWith_ok _

/-- **The walk.** Where all columns are found, a filter fails only for an operator or a value, in
every backend that adds no failure of its own. The induction is on the form, at every scope: below a
quantifier, the columns are found on the type of the elements. -/
theorem Surface.FoundOn.failsWith_compileNode {t : TypeExpr} {u : Surface} (h : u.FoundOn s t)
    {b : Backend α} (condition : ∀ c, FailsWith (Error.IsUnfit s) (b.condition c))
    (quantified : ∀ q column x, FailsWith (Error.IsUnfit s) (b.quantified q column x))
    (options : Options) (scope : Option ColumnPath) :
    FailsWith (Error.IsUnfit s) (b.compileNode s options t scope (u.under scope)) := by
  induction h generalizing scope with
  | @leaf t c o raw found =>
    rw [Surface.under, Backend.compileNode]
    exact (Schema.unfit_condition found options scope o raw).bind fun read _ => condition read
  | group _ ih =>
    rw [Surface.under, Backend.compileNode]
    exact (failsWith_compileAll_under fun u hu => ih u hu scope).map _
  | @quantified t e q c us column found element _ ih =>
    -- the scope below is the whole column, which each condition has been put under
    have hcollection : Backend.collection s options t scope q (c.under scope) = .ok (column, e) :=
      collection_eq_ok_iff.mpr ⟨Schema.resolveIn_under found options scope, element⟩
    rw [Surface.under, Backend.compileNode, hcollection, ok_bind]
    refine (failsWith_compileAll_under fun u hu => ih u hu _).bind fun parts _ => ?_
    exact quantified q column _

end Walk

/-! ### Handles -/

/-- The columns of the elements of a column are those of the type of its elements. -/
theorem Handle.each_eq_ok {s : Schema} {h : Handle} {t : TypeExpr} (htype : h.type = some t)
    {elements : Cursor} (made : h.each s = .ok elements) :
    ∃ column e, s.resolve false t h.path = .ok column ∧ column.element? = some e ∧
      elements = .columns (some e) := by
  simp only [each, htype] at made
  obtain ⟨column, hcolumn, made⟩ := bind_eq_ok_iff.mp made
  split at made
  · next e he =>
    cases made
    exact ⟨column, e, hcolumn, he, rfl⟩
  · cases made

theorem Handle.each_ne_column (s : Schema) (h h' : Handle) : h.each s ≠ .ok (.column h') := by
  intro made
  cases htype : h.type with
  | none =>
    simp only [each, htype] at made
    cases made
  | some t =>
    obtain ⟨_, _, -, -, hcolumns⟩ := each_eq_ok htype made
    cases hcolumns

/-- A handle of a known type has a path that was resolved when the handle was made. -/
theorem Handle.ofPath_eq_ok {s : Schema} {t : TypeExpr} {path : ColumnPath} {h : Handle}
    (made : Handle.ofPath s (some t) path = .ok h) :
    h.type = some t ∧ Succeeds (s.resolve false t h.path) := by
  obtain ⟨column, hcolumn, made⟩ := bind_eq_ok_iff.mp made
  cases made
  exact ⟨rfl, column, hcolumn⟩

namespace Cursor

variable {s : Schema}

/-- A cursor gives a handle under a name, as an item or as an attribute. -/
inductive Gives (s : Schema) (c : Cursor) (h : Handle) : Prop
  | item (name : String) (made : c.item s name = .ok (.column h))
  | member (name : String) (made : c.member s name = .ok (.column h))

/-- The handles of a set of columns: those that it gives, and those that its handles give. -/
inductive Handles (s : Schema) (c : Cursor) : Handle → Prop
  | column {h : Handle} (given : c.Gives s h) : Handles s c h
  | nested {parent h : Handle} (handle : Handles s c parent)
      (given : (Cursor.column parent).Gives s h) : Handles s c h

/-- What a handle has for itself is no handle. -/
theorem ownMember?_ne_column {h h' : Handle} {name : String} :
    ownMember? s h name ≠ some (.ok (.column h')) := by
  unfold ownMember?
  split
  · exact fun heach => h.each_ne_column s h' (Option.some.inj heach)
  split
  · exact nofun
  split <;> exact nofun

/-- An attribute that is a handle is an item. -/
theorem item_of_member {c : Cursor} {name : String} {h : Handle}
    (made : c.member s name = .ok (.column h)) : c.item s name = .ok (.column h) := by
  cases c with
  | columns type =>
    simp only [member] at made
    split at made
    · next hown =>
      split at hown <;> cases hown
      cases made
    · split at made
      · cases made
      · exact made
  | column parent =>
    -- a handle's own members come first, and are no handles
    simp only [member] at made
    split at made
    · next hown => exact absurd (made ▸ hown) ownMember?_ne_column
    · split at made
      · cases made
      · exact made
  | path p =>
    simp only [member] at made
    split at made <;> cases made
  | other => cases made

theorem Gives.exists_item {c : Cursor} {h : Handle} (given : c.Gives s h) :
    ∃ name, c.item s name = .ok (.column h) := by
  cases given with
  | item name made => exact ⟨name, made⟩
  | member name made => exact ⟨name, item_of_member made⟩

/-- **Handles are resolved.** Every handle of the columns of a type has a column of this type, which
was found when the handle was made. -/
theorem Handles.resolves {t : TypeExpr} {h : Handle}
    (handle : (Cursor.columns (some t)).Handles s h) :
    h.type = some t ∧ Succeeds (s.resolve false t h.path) := by
  induction handle with
  | column given =>
    obtain ⟨name, made⟩ := given.exists_item
    obtain ⟨path, -, made⟩ := bind_eq_ok_iff.mp made
    obtain ⟨h, hmade, hcolumn⟩ := map_eq_ok_iff.mp made
    cases hcolumn
    exact Handle.ofPath_eq_ok hmade
  | @nested parent h _ given ih =>
    -- a handle of a handle keeps the type, on which its whole path is resolved
    obtain ⟨name, made⟩ := given.exists_item
    obtain ⟨h, hmade, hcolumn⟩ := map_eq_ok_iff.mp made
    cases hcolumn
    obtain ⟨path, -, hmade⟩ := bind_eq_ok_iff.mp hmade
    rw [ih.1] at hmade
    exact Handle.ofPath_eq_ok hmade

end Cursor

/-! ### Trees -/

/-- Trees that are built from the handles of a set of columns: leaves, groups, and quantified
filters, whose conditions are built from the columns of the elements. -/
inductive BuiltFrom (s : Schema) : Cursor → Filter → Prop
  | test {c : Cursor} {h : Handle} {o : Operator} {v : Value} {t : Filter}
      (handle : c.Handles s h) (made : h.test o v = .ok t) : BuiltFrom s c t
  | among {c : Cursor} {h : Handle} {vs : List Value} {t : Filter} (handle : c.Handles s h)
      (made : h.among vs = .ok t) : BuiltFrom s c t
  /-- `and_` and `or_` -/
  | group {c : Cursor} {k : Connective} {ts : List Filter} {t : Filter}
      (children : ∀ f ∈ ts, BuiltFrom s c f)
      (made : composeAll (.connective k) (ts.map .node) none = .ok t) : BuiltFrom s c t
  /-- `&` and `|` -/
  | combine {c : Cursor} {k : Connective} {f g t : Filter} (left : BuiltFrom s c f)
      (right : BuiltFrom s c g)
      (made : NodePart.combine k (.node f) (.node g) = .ok (.node t)) : BuiltFrom s c t
  /-- `any` and `all` -/
  | quantify {c elements : Cursor} {h : Handle} {q : Quantifier} {ts : List Filter} {t : Filter}
      (handle : c.Handles s h) (each : h.each s = .ok elements)
      (children : ∀ f ∈ ts, BuiltFrom s elements f) (made : h.quantify q (ts.map .node) = .ok t) :
      BuiltFrom s c t

/-- **Built trees have their columns.** A tree that is built from the columns of a type is the tree
of a surface form whose columns are all found. The interface qualifies the conditions of a
quantifier; in the surface form they stay as they were built, on the type of the elements. -/
theorem BuiltFrom.exists_foundOn {s : Schema} {c : Cursor} {tree : Filter}
    (h : BuiltFrom s c tree) :
    ∀ t, c = .columns (some t) → ∃ u : Surface, u.FoundOn s t ∧ u.tree = tree := by
  induction h with
  | @test c h o v tree handle made =>
    rintro t rfl
    obtain ⟨raw, -, rfl⟩ := map_eq_ok_iff.mp made
    exact ⟨.leaf h.path o raw, .leaf handle.resolves.2, rfl⟩
  | @among c h vs tree handle made =>
    rintro t rfl
    obtain ⟨raw, -, rfl⟩ := map_eq_ok_iff.mp made
    exact ⟨.leaf h.path .isIn raw, .leaf handle.resolves.2, rfl⟩
  | @group c k ts tree _ made ih =>
    rintro t rfl
    obtain ⟨us, hus, rfl⟩ := Surface.exists_trees fun f hf => ih f hf t rfl
    obtain ⟨-, ⟨k, -, -, rfl⟩ | ⟨_, _, _, hcolumn, -⟩⟩ := Surface.exists_of_composeAll made
    · exact ⟨.group k us, .group hus, rfl⟩
    · cases hcolumn
  | @combine c k f g tree _ _ made ihf ihg =>
    rintro t rfl
    obtain ⟨u, hu, rfl⟩ := ihf t rfl
    obtain ⟨w, hw, rfl⟩ := ihg t rfl
    cases made
    have hboth : ∀ v ∈ [u, w], v.FoundOn s t :=
      List.forall_mem_cons.mpr ⟨hu, List.forall_mem_singleton.mpr hw⟩
    exact ⟨.group k [u, w], .group hboth, rfl⟩
  | @quantify c elements h q ts tree handle each _ made ih =>
    rintro t rfl
    -- the elements of the handle's column are those that the compiler goes on with
    obtain ⟨column, e, hfound, helement, rfl⟩ := Handle.each_eq_ok handle.resolves.1 each
    obtain ⟨us, hus, rfl⟩ := Surface.exists_trees fun f hf => ih f hf e rfl
    obtain ⟨-, ⟨_, _, hcolumn, -⟩ | ⟨q, _, -, hcolumn, rfl⟩⟩ := Surface.exists_of_composeAll made
    · cases hcolumn
    · cases hcolumn
      exact ⟨.quantified q h.path us, .quantified hfound helement hus, rfl⟩

/-- **Built trees never fail to resolve.** A tree that is built from the columns of a type, step by
step without an error, is compiled on this type or refused for an operator that does not fit or a
text that is no value, unless the schema raises a fault of its own. It is never refused as
malformed, or for a column that does not exist, or as a misuse, and as a value out of range only if
the schema raises this, with alternate names tried or not. -/
theorem BuiltFrom.compile_unfit {s : Schema} {type : TypeExpr} {tree : Filter}
    (built : BuiltFrom s (.columns (some type)) tree) {r : Registry Strategy}
    (known : ∀ o, Succeeds (r.require o)) (options : Options) {e : Error}
    (refused : (FilterInput.one (.node tree)).withFilters (compileFilter s options r type) =
      .error e) :
    (e.IsMismatch ∨ e.IsCoercion ∨ e = .fault .missingKey ∨ e = .fault .unsupported ∨
        ∃ f, e = .fault f ∧ s.Raises f) ∧
      ¬ e.IsGrammar ∧ ¬ e.IsResolution ∧ (∀ cause, e ≠ .misuse cause) ∧
      (¬ s.Raises .invalidValue → e ≠ .fault .invalidValue) := by
  obtain ⟨u, hu, rfl⟩ := built.exists_foundOn type rfl
  -- a registry that lacks an operator would refuse it in a way of its own
  have hcondition : ∀ c, FailsWith (Error.IsUnfit s)
      ((Predicate.backend r options.nullGuard).condition c) := by
    intro c
    obtain ⟨strategy, hstrategy⟩ := known c.operator
    show FailsWith (Error.IsUnfit s) ((r.require c.operator).map _)
    rw [hstrategy]
    exact failsWith_ok _
  have hunfit : e.IsUnfit s :=
    hu.failsWith_compileNode hcondition (fun _ _ _ => failsWith_ok _) options none e refused
  refine ⟨?_, hunfit.not_others⟩
  cases hunfit with
  | operator h => exact .inl h
  | conversion h =>
    cases h with
    | value h => exact .inr (.inl h)
    | fault raises => exact .inr (.inr (.inr (.inr ⟨_, rfl, raises⟩)))
  | letter => exact .inr (.inr (.inl rfl))
  | unit => exact .inr (.inr (.inr (.inl rfl)))

open People in
/-- A condition on the ages of friends of friends is built, and refused for a text that is no
number. -/
theorem BuiltFrom.compile_unfit_of_people :
    ∃ tree e, BuiltFrom schema (.columns (some (.named "Person"))) tree ∧
      (∀ o, Succeeds (Predicate.usualRegistry.require o)) ∧
      (FilterInput.one (.node tree)).withFilters
        (compileFilter schema ⟨false, true⟩ Predicate.usualRegistry (.named "Person")) =
          .error e ∧
      e.IsCoercion ∧ ¬ e.IsGrammar ∧ ¬ e.IsResolution ∧ e ≠ .fault .invalidValue := by
  let people : Cursor := .columns (some (.named "Person"))
  let friends : ColumnPath := ⟨["friends"], by decide, by decide⟩
  let age : ColumnPath := ⟨["age"], by decide, by decide⟩
  have hfriends : people.Handles schema ⟨friends, some (.named "Person")⟩ :=
    .column (.member "friends" rfl)
  have hage : people.Handles schema ⟨age, some (.named "Person")⟩ := .column (.item "age" rfl)
  have heach : Handle.each schema ⟨friends, some (.named "Person")⟩ = .ok people := rfl
  have hleaf : BuiltFrom schema people (.leaf age .eq (.plain "x")) :=
    .test (v := .text "x") hage rfl
  -- each quantifier puts its own column before the columns of its conditions
  have hall : BuiltFrom schema people (.quantified .all friends
      [.leaf (friends ++ age) .eq (.plain "x")]) :=
    .quantify hfriends heach (List.forall_mem_singleton.mpr hleaf) rfl
  have hany : BuiltFrom schema people (.quantified .any friends [.quantified .all
      (friends ++ friends) [.leaf (friends ++ (friends ++ age)) .eq (.plain "x")]]) :=
    .quantify hfriends heach (List.forall_mem_singleton.mpr hall) rfl
  obtain ⟨e, hrefused, hcoercion⟩ : ∃ e, (FilterInput.one (.node (.quantified .any friends
      [.quantified .all (friends ++ friends)
        [.leaf (friends ++ (friends ++ age)) .eq (.plain "x")]]))).withFilters
      (compileFilter schema ⟨false, true⟩ Predicate.usualRegistry (.named "Person")) = .error e ∧
        e.IsCoercion := ⟨_, rfl, .intro _ _ _⟩
  obtain ⟨-, hgrammar, hresolution, -, hvalue⟩ :=
    hany.compile_unfit Predicate.succeeds_require_usual ⟨false, true⟩ hrefused
  exact ⟨_, e, hany, Predicate.succeeds_require_usual, hrefused, hcoercion, hgrammar, hresolution,
    hvalue (definite _)⟩

namespace Shelves

/-- Shelves with rows of numbers and texts, any number of them, under names. No value can be checked
against the type of such a row. -/
def schema : Schema :=
  (⟨[], [⟨"Shelf", [], .plain [⟨"rows", .applied .dict [.scalar .text,
    .applied .tuple [.scalar .integer, .scalar .text, .ellipsis]], [], false, none⟩] false, []⟩],
    .absent⟩ : Schema).checked

end Shelves

namespace Sizes

theorem distinct_eq (n : Int) : (size n).distinct = [("HUGE", .int n)] := by
  have hsame : EnumType.sameValue (.int n) (.int n) = true := by
    show (n == n) = true
    exact beq_self_eq_true n
  simp [EnumType.distinct, EnumType.canonical?, size, hsame]

/-- A text that is no name is compared with the text of the value, which there is none of. -/
theorem read_other {n : Int} (hlong : Value.isTooLong n = true) :
    (size n).read "x".toList = .error .invalidValue := by
  have hname : ¬ (Text.fold "HUGE".toList == Text.fold "x".toList) = true := by decide
  have hnone : (size n).members.find? (fun m => Text.fold m.1.toList == Text.fold "x".toList) =
      none := List.find?_cons_of_neg hname
  -- the text of the value would have too many digits
  have hshown : (Value.int n).plainShown = .error .invalidValue := by
    show Value.unlessFault (Value.displayFault? (.int n)) _ = _
    rw [Value.displayFault?, hlong]
    rfl
  rw [EnumType.read, hnone]
  simp only [distinct_eq, EnumType.findValue, hshown]
  rfl

theorem builtFrom (n : Int) :
    BuiltFrom (schema n) (.columns (some (.named "Box"))) (.leaf column .eq (.plain "x")) :=
  have hcolumn : (Cursor.columns (some (.named "Box"))).Handles (schema n)
      ⟨column, some (.named "Box")⟩ := .column (.item "size" rfl)
  .test (v := .text "x") hcolumn rfl

theorem compile_other {n : Int} (hlong : Value.isTooLong n = true) :
    (FilterInput.one (.node (.leaf column .eq (.plain "x")))).withFilters (compileFilter (schema n)
      .usual Predicate.usualRegistry (.named "Box")) = .error (.fault .invalidValue) := by
  obtain ⟨found, hcolumn, hcheck, htype⟩ : ∃ found, (schema n).resolveIn .usual (.named "Box") none
      column = .ok found ∧ (schema n).checkOperator found .eq = .ok () ∧
      found.type = .named "Size" := ⟨_, rfl, rfl, rfl⟩
  -- the fault of the value is the error of the conversion
  have hcoerce : (schema n).coerce (.plain "x") (.named "Size") .eq =
      .error (.fault .invalidValue) := by
    show (liftFault ((size n).read "x".toList) >>= _) = _
    rw [read_other hlong]
    rfl
  show (usualBackend .usual).compileNode (schema n) .usual (.named "Box") none _ = _
  rw [compileNode_leaf hcolumn hcheck, htype, hcoerce]
  rfl

end Sizes

/-- **A schema can bring in other failures.** The type of a column may be one that the adapter
cannot look at. And where a text is no name of a member, it is compared with the text of each value,
which a number of too many digits does not have. -/
theorem BuiltFrom.compile_raises :
    (∃ tree, BuiltFrom Shelves.schema (.columns (some (.named "Shelf"))) tree ∧
      (FilterInput.one (.node tree)).withFilters (compileFilter Shelves.schema .usual
        Predicate.usualRegistry (.named "Shelf")) = .error (.fault .invalidValue)) ∧
    ∃ tree, BuiltFrom (Sizes.schema Sizes.huge) (.columns (some (.named "Box"))) tree ∧
      (FilterInput.one (.node tree)).withFilters (compileFilter (Sizes.schema Sizes.huge) .usual
        Predicate.usualRegistry (.named "Box")) = .error (.fault .invalidValue) := by
  let rows : ColumnPath := ⟨["rows"], by decide, by decide⟩
  have hrows : (Cursor.columns (some (.named "Shelf"))).Handles Shelves.schema
      ⟨rows, some (.named "Shelf")⟩ := .column (.item "rows" rfl)
  -- handles are made without a look at the types of the values
  have hleaf : BuiltFrom Shelves.schema (.columns (some (.named "Shelf")))
      (.leaf rows .eq (.plain "x")) := .test (v := .text "x") hrows rfl
  exact ⟨⟨_, hleaf, rfl⟩, ⟨_, Sizes.builtFrom _, Sizes.compile_other Sizes.isTooLong_huge⟩⟩

end RecordQuery
