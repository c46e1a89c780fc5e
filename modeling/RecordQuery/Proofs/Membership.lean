import RecordQuery.Proofs.Refusal
import RecordQuery.Proofs.Totality
import RecordQuery.Proofs.Written

/-!
# Tests of membership

A single value is tested for membership in a list in two ways. `in` compares it with the items one
by one, as `eq` does; `ct` searches the list for it.

* `matched_compileNode_isIn` — `in` is the disjunction of `eq`, below any scope;
  `isIn_matches_disjunction` is the result for whole filters.
* `Value.MissedByOffset` — a search does not align moments, and so misses one that stands in the
  list with an offset where it has none itself, or the other way round. Offsets are fixed ones, and
  two moments that both have one are equal exactly at the same instant.
* `oneOf_agrees` — this is the only difference between `ct` and `in`; `oneOf_differs` shows it.
-/

namespace RecordQuery

open Text

/-! ### Tests in order -/

namespace Predicate

variable {α β : Type} {as : List α}

theorem anyOk_map (f : α → β) (test : β → Except Fault Bool) (as : List α) :
    anyOk test (as.map f) = anyOk (fun a => test (f a)) as := by
  induction as with
  | nil => rfl
  | cons a as ih => rw [List.map_cons, anyOk, anyOk, ih]

/-- What each of some tests begins with can be done once, before all of them. -/
theorem anyOk_bind (hne : as ≠ []) (x : Except Fault β) (test : β → α → Except Fault Bool) :
    anyOk (fun a => x >>= fun b => test b a) as = x >>= fun b => anyOk (test b) as := by
  cases x with
  | ok b => rfl
  | error e =>
    cases as with
    | nil => exact absurd rfl hne
    | cons a as => rfl

/-- Where all tests have an answer, the order in which they are tried does not matter. -/
theorem anyOk_eq_true_iff {test : α → Except Fault Bool} (h : ∀ a, Succeeds (test a))
    (as : List α) : anyOk test as = .ok true ↔ ∃ a ∈ as, test a = .ok true := by
  induction as with
  | nil => simp [anyOk]
  | cons a as ih =>
    rw [List.exists_mem_cons_iff, ← ih, anyOk]
    obtain ⟨b, hb⟩ := h a
    rw [hb, ok_bind]
    cases b <;> simp

/-- The test of membership reads the column once, where the tests of equality read it each. -/
theorem holds_isIn_eq_disjunction (s : Schema) (options : Options) (column : ResolvedColumn)
    {ws : List Value} (hne : ws ≠ []) (record : Value) :
    (test (.usual .isIn) column options.nullGuard (.list ws)).holds s record =
      ((usualBackend options).disjunction
        (ws.map fun w => test (.usual .eq) column options.nullGuard w)).holds s record := by
  rw [holds_disjunction, holdsAny_eq_anyOk, anyOk_map]
  show (s.read options.nullGuard column record >>= fun v => Value.anyOk v.equals ws) =
    anyOk (fun w => s.read options.nullGuard column record >>= fun v => v.equals w) ws
  simp only [anyOk_bind hne, anyOk_eq]

end Predicate

/-- A column equals one of some texts. -/
def Filter.equalsSome (path : ColumnPath) (texts : List String) : Filter :=
  .group .or (texts.map fun text => .leaf path .eq (.plain text))

/-! ### Leaves -/

section
variable {s : Schema} {options : Options} {owner : TypeExpr} {scope : Option ColumnPath}
  {path : ColumnPath}

/-- A column of single values takes every operator but those of texts and of order. -/
theorem checkOperator_of_single {column : ResolvedColumn} (hsingle : column.isCollection = false)
    {o : Operator} (htextual : o.isTextual = false) (hordering : o.isOrdering = false) :
    s.checkOperator column o = .ok () := by
  refine Schema.checkOperator_eq_ok_iff.mpr ⟨fun h => ?_, fun h => ?_, fun _ => hsingle⟩
  · cases htextual.symm.trans h
  · cases hordering.symm.trans h

/-- Some tests of one column for equality. -/
theorem compileAll_eqs {column : ResolvedColumn}
    (hcolumn : s.resolveIn options owner scope path = .ok column)
    (hsingle : column.isCollection = false) (texts : List String) :
    (usualBackend options).compileAll s options owner scope
        (texts.map fun text => .leaf path .eq (.plain text)) =
      (texts.mapM fun text => s.coerceScalar (.plain text) column.type.present.1).map
        (List.map fun w => .test (.usual .eq) column options.nullGuard w) := by
  induction texts with
  | nil => rfl
  | cons text texts ih =>
    rw [List.map_cons, Backend.compileAll, ih,
      compileNode_leaf hcolumn (checkOperator_of_single hsingle rfl rfl), List.mapM_cons]
    show (s.coerceScalar (.plain text) column.type.present.1).map _ >>= _ = _
    -- both go from left to right, so that the first text without a value decides
    cases s.coerceScalar (.plain text) column.type.present.1 with
    | error e => rfl
    | ok w =>
      cases texts.mapM fun text => s.coerceScalar (.plain text) column.type.present.1 with
      | error e => rfl
      | ok ws => rfl

/-- **One leaf.** Below any column, a test for membership and the tests of the items for equality
are refused with the same error, or hold of the same records. -/
theorem matched_compileNode_isIn {texts : List String} (hitems : ∀ text ∈ texts, IsItem text)
    (hne : texts ≠ []) (hone : texts ≠ [""])
    (hsingle : ∀ column, s.resolveIn options owner scope path = .ok column →
      column.isCollection = false) :
    Matched (fun p q : Predicate => ∀ record, p.holds s record = q.holds s record)
      ((usualBackend options).compileNode s options owner scope
        (.leaf path .isIn (.plain (join "," texts))))
      ((usualBackend options).compileNode s options owner scope (.equalsSome path texts)) := by
  cases hcolumn : s.resolveIn options owner scope path with
  | error e =>
    -- the first of the tests for equality is refused, and there is one
    obtain ⟨text, rest, rfl⟩ := List.exists_cons_of_ne_nil hne
    rw [compileNode_leaf_of_error hcolumn, Filter.equalsSome, Backend.compileNode, List.map_cons,
      Backend.compileAll, compileNode_leaf_of_error hcolumn]
    exact ⟨rfl, nofun⟩
  | ok column =>
    have hcolumnSingle := hsingle column hcolumn
    rw [compileNode_leaf hcolumn (checkOperator_of_single hcolumnSingle rfl rfl),
      Filter.equalsSome, Backend.compileNode, compileAll_eqs hcolumn hcolumnSingle]
    show Matched _ ((s.coerceList _ column.type.present.1).map _) _
    rw [Schema.coerceList_join s _ hitems hone]
    cases hread : texts.mapM fun text => s.coerceScalar (.plain text) column.type.present.1 with
    | error e => exact ⟨rfl, nofun⟩
    | ok ws =>
      have hws : ws ≠ [] := by
        rintro rfl
        exact hne (List.forall₂_nil_right_iff.mp (mapM_eq_ok_iff.mp hread))
      exact .ok (Predicate.holds_isIn_eq_disjunction s options column hws)

end

/-- **`in` is the disjunction of `eq`.** Let a column that is no collection be compared with a list
of texts, which are trimmed and free of commas. The test for membership in the list is accepted
exactly where the tests for equality with the texts are; otherwise both are refused with the same
error, and where they are accepted they have the same answer or the same fault on every record. -/
theorem isIn_matches_disjunction (s : Schema) (options : Options) (type : TypeExpr)
    (path : ColumnPath) {texts : List String} (hitems : ∀ text ∈ texts, IsItem text)
    (hne : texts ≠ []) (hone : texts ≠ [""])
    (hsingle : ∀ column, s.resolve options.fallback type path = .ok column →
      column.isCollection = false) :
    Matched (fun p q : Predicate => ∀ record, p.holds s record = q.holds s record)
      (compileFilter s options Predicate.usualRegistry type
        [.leaf path .isIn (.plain (join "," texts))])
      (compileFilter s options Predicate.usualRegistry type [.equalsSome path texts]) :=
  matched_compileNode_isIn hitems hne hone hsingle

/-- Lines of an order are asked for one of two quantities, or for none. -/
theorem isIn_matches_disjunction_of_quantities :
    let quantity : ColumnPath := ⟨["quantity"], by decide, by decide⟩
    let texts := ["2", "", "3"]
    let compile (f : Filter) := compileFilter Orders.schema .usual Predicate.usualRegistry
      (.named "Line") [f]
    ((∀ text ∈ texts, IsItem text) ∧ texts ≠ [] ∧ texts ≠ [""] ∧
      ∀ column, Orders.schema.resolve false (.named "Line") quantity = .ok column →
        column.isCollection = false) ∧
      ∃ p q, compile (.leaf quantity .isIn (.plain (join "," texts))) = .ok p ∧
        compile (.equalsSome quantity texts) = .ok q ∧
        ∀ record, p.holds Orders.schema record = q.holds Orders.schema record := by
  intro quantity texts compile
  have hitems : ∀ text ∈ texts, IsItem text := by decide
  have hsingle : ∀ column, Orders.schema.resolve false (.named "Line") quantity = .ok column →
      column.isCollection = false := by
    rintro column ⟨⟩
    rfl
  have hmatched := isIn_matches_disjunction Orders.schema .usual (.named "Line") quantity hitems
    (by decide) (by decide) hsingle
  obtain ⟨q, hq⟩ : ∃ q, compile (.equalsSome quantity texts) = .ok q := ⟨_, rfl⟩
  -- the list is compiled because the disjunction is
  obtain ⟨p, hp⟩ := FailAlike.exists_ok hmatched.1.symm hq
  exact ⟨⟨hitems, by decide, by decide, hsingle⟩, p, q, hp, hq, hmatched.2 p q hp hq⟩

/-! ### Moments in a list -/

namespace DateTime

/-- The microseconds of a moment at offset zero, where one without offset is read at offset zero. -/
def instant (m : DateTime) : Int := m.localMicros - m.offset.elim 0 Offset.micros

variable {m n : DateTime}

/-- Two moments are equal as they stand if they have one instant and both have an offset, or neither
has one. -/
theorem compare?_eq_iff :
    m.compare? n = some .eq ↔ m.offset.isSome = n.offset.isSome ∧ m.instant = n.instant := by
  obtain ⟨date, clock, offset⟩ := m
  obtain ⟨date', clock', offset'⟩ := n
  unfold compare? instant
  cases offset <;> cases offset' <;> simp

theorem instant_assumeUniversal (m : DateTime) : m.assumeUniversal.instant = m.instant := by
  obtain ⟨date, clock, offset⟩ := m
  cases offset <;> rfl

end DateTime

namespace Value

variable {m n : DateTime} {v w : Value} {ws : List Value}

theorem eq_dateTime_iff :
    (dateTime m).eq (dateTime n) = .ok true ↔
      m.offset.isSome = n.offset.isSome ∧ m.instant = n.instant := by
  show Except.ok (m.compare? n == some .eq) = .ok true ↔ _
  rw [Except.ok.injEq, beq_iff_eq, DateTime.compare?_eq_iff]

/-- After alignment the instants alone count. -/
theorem equals_dateTime_iff :
    (dateTime m).equals (dateTime n) = .ok true ↔ m.instant = n.instant := by
  have hequals : ∃ m' n', (dateTime m).equals (dateTime n) = (dateTime m').eq (dateTime n') ∧
      m'.offset.isSome = n'.offset.isSome ∧ m'.instant = m.instant ∧ n'.instant = n.instant := by
    obtain ⟨date, clock, offset⟩ := m
    obtain ⟨date', clock', offset'⟩ := n
    cases offset <;> cases offset' <;> exact ⟨_, _, rfl, rfl, rfl, rfl⟩
  obtain ⟨m', n', hequals, hoffsets, hm, hn⟩ := hequals
  rw [hequals, eq_dateTime_iff, hm, hn, and_iff_right hoffsets]

/-- Only two moments are aligned. -/
theorem equals_eq_eq (h : ∀ m n, v = dateTime m → w ≠ dateTime n) : v.equals w = v.eq w := by
  show (v.align w).1.eq (v.align w).2 = v.eq w
  unfold align
  split
  · next m n => exact absurd rfl (h m n rfl)
  · rfl

theorem succeeds_eq_dateTime (m : DateTime) (w : Value) : Succeeds ((dateTime m).eq w) := by
  have hscalar : (dateTime m).eq w = eqScalar (dateTime m) w.unwrapped := by cases w <;> rfl
  rw [hscalar]
  cases w.unwrapped <;> exact .ok _

theorem succeeds_equals_dateTime (m : DateTime) (w : Value) :
    Succeeds ((dateTime m).equals w) := by
  by_cases h : ∃ n, w = dateTime n
  · obtain ⟨n, rfl⟩ := h
    show Succeeds (((dateTime m).align (dateTime n)).1.eq ((dateTime m).align (dateTime n)).2)
    unfold align
    simp only
    split <;> exact succeeds_eq_dateTime _ _
  · rw [equals_eq_eq fun _ n _ hw => h ⟨n, hw⟩]
    exact succeeds_eq_dateTime m w

theorem contains_list (hv : v ≠ null) (ws : List Value) : v.contains (list ws) = v.isIn ws := by
  cases v <;> first | rfl | exact absurd rfl hv

/-- The value is a moment that no item of a list equals as it stands, although one of them is the
same instant: only one of the two moments has an offset. -/
def MissedByOffset (v : Value) (ws : List Value) : Prop :=
  ∃ m, v = dateTime m ∧ (∀ w ∈ ws, v.eq w ≠ .ok true) ∧
    ∃ n, dateTime n ∈ ws ∧ n.offset.isSome ≠ m.offset.isSome ∧ n.instant = m.instant

/-- Alignment takes no equality away. -/
theorem equals_of_eq (h : (dateTime m).eq w = .ok true) : (dateTime m).equals w = .ok true := by
  by_cases hitem : ∃ n, w = dateTime n
  · obtain ⟨n, rfl⟩ := hitem
    exact equals_dateTime_iff.mpr (eq_dateTime_iff.mp h).2
  · rwa [equals_eq_eq fun _ n _ hn => hitem ⟨n, hn⟩]

/-- What alignment adds are moments of one instant, of which one only has an offset. -/
theorem exists_of_equals (h : (dateTime m).equals w = .ok true)
    (hne : (dateTime m).eq w ≠ .ok true) :
    ∃ n, w = dateTime n ∧ n.offset.isSome ≠ m.offset.isSome ∧ n.instant = m.instant := by
  by_cases hitem : ∃ n, w = dateTime n
  · obtain ⟨n, rfl⟩ := hitem
    have hinstant := equals_dateTime_iff.mp h
    refine ⟨n, rfl, fun hoffsets => ?_, hinstant.symm⟩
    exact hne (eq_dateTime_iff.mpr ⟨hoffsets.symm, hinstant⟩)
  · rw [equals_eq_eq fun _ n _ hn => hitem ⟨n, hn⟩] at h
    exact absurd h hne

/-- **A search and a comparison one by one** have the same outcome, but for moments that are
missed. -/
theorem isIn_eq_anyOk_equals_iff (v : Value) (ws : List Value) :
    v.isIn ws = anyOk v.equals ws ↔ ¬ v.MissedByOffset ws := by
  rw [isIn, Predicate.anyOk_eq, Predicate.anyOk_eq]
  by_cases hmoment : ∃ m, v = dateTime m
  · obtain ⟨m, rfl⟩ := hmoment
    have hsearch := Predicate.anyOk_eq_true_iff (succeeds_eq_dateTime m) ws
    have hcompare := Predicate.anyOk_eq_true_iff (succeeds_equals_dateTime m) ws
    have hanswers := Predicate.succeeds_anyOk fun w (_ : w ∈ ws) => succeeds_eq_dateTime m w
    have hanswers' := Predicate.succeeds_anyOk fun w (_ : w ∈ ws) => succeeds_equals_dateTime m w
    rw [hanswers.eq_iff hanswers', hsearch, hcompare]
    constructor
    · rintro hiff ⟨_, ⟨⟩, hnone, n, hn, -, hinstant⟩
      obtain ⟨w, hw, heq⟩ := hiff.mpr ⟨_, hn, equals_dateTime_iff.mpr hinstant.symm⟩
      exact hnone w hw heq
    · intro hmissed
      constructor
      · rintro ⟨w, hw, heq⟩
        exact ⟨w, hw, equals_of_eq heq⟩
      · rintro ⟨w, hw, hequals⟩
        by_contra hsearched
        have hnone : ∀ w ∈ ws, (dateTime m).eq w ≠ .ok true :=
          fun w hw heq => hsearched ⟨w, hw, heq⟩
        obtain ⟨n, rfl, hoffsets, hinstant⟩ := exists_of_equals hequals (hnone w hw)
        exact hmissed ⟨m, rfl, hnone, n, hw, hoffsets, hinstant⟩
  · -- what is no moment is compared as it stands
    have hsame : v.equals = v.eq := by
      funext w
      exact equals_eq_eq fun m _ hm => absurd ⟨m, hm⟩ hmoment
    rw [hsame]
    refine iff_of_true rfl ?_
    rintro ⟨m, hm, -⟩
    exact hmoment ⟨m, hm⟩

end Value

/-! ### One of several values -/

/-- Outside of texts and collections, containment reads a list just like membership. -/
theorem Schema.coerce_of_isContainment (s : Schema) {type : TypeExpr} {o : Operator}
    (ho : o.isContainment = true) (hsingle : type.element? = none)
    (htext : type.present.1.isText = false) (raw : RawText) :
    s.coerce raw type o = s.coerce raw type .isIn := by
  have helement : type.present.1.element? = none := by
    rwa [TypeExpr.element?, TypeExpr.present_present, ← TypeExpr.element?]
  have hlist : o.takesList = false := by cases o <;> first | rfl | cases ho
  unfold coerce
  simp only [hlist, ho, helement, htext, Bool.false_eq_true, if_false, if_true]
  rfl

/-- **One of several values.** Let a column of single values other than texts be compared with a
list that can be read. `ct`, `nct` and `in` are all accepted then. For every record in which the
column has a value, `nct` is the negation of `ct`, and `ct` has the outcome of `in`, unless the
value is a moment that the search for it misses. -/
theorem oneOf_agrees {s : Schema} {options : Options} {type : TypeExpr} {path : ColumnPath}
    {column : ResolvedColumn} (hcolumn : s.resolve options.fallback type path = .ok column)
    (hsingle : column.isCollection = false) (htext : column.type.present.1.isText = false)
    {raw : RawText} {w : Value} (hw : s.coerce raw column.type .isIn = .ok w) :
    let compile (o : Operator) := compileFilter s options Predicate.usualRegistry type
      [.leaf path o raw]
    ∃ ws ct nct isIn, w = .list ws ∧
      compile .ct = .ok ct ∧ compile .nct = .ok nct ∧ compile .isIn = .ok isIn ∧
      ∀ record v, s.read options.nullGuard column record = .ok v → v ≠ .null →
        nct.holds s record = (ct.holds s record).map not ∧
        (ct.holds s record = isIn.holds s record ↔ ¬ v.MissedByOffset ws) := by
  intro compile
  obtain ⟨ws, rfl, -⟩ := Schema.exists_of_coerceList hw
  have helement : column.type.element? = none := 
    Option.not_isSome_iff_eq_none.mp (Bool.eq_false_iff.mp hsingle)
  -- each of the three becomes a test of the column against the list
  have hcontains : ∀ o : Operator, o.isContainment = true →
      s.coerce raw column.type o = .ok (.list ws) := fun o ho => by
    rw [s.coerce_of_isContainment ho helement htext, hw]
  have hct := compileFilter_leaf hcolumn (checkOperator_of_single hsingle rfl rfl)
    (hcontains .ct rfl)
  have hnct := compileFilter_leaf hcolumn (checkOperator_of_single hsingle rfl rfl)
    (hcontains .nct rfl)
  have hisIn := compileFilter_leaf hcolumn (checkOperator_of_single hsingle rfl rfl) hw
  refine ⟨ws, _, _, _, rfl, hct, hnct, hisIn, fun record v hread hv => ?_⟩
  rw [Predicate.holds_test_of_read hread, Predicate.holds_test_of_read hread,
    Predicate.holds_test_of_read hread, ← Value.isIn_eq_anyOk_equals_iff,
    ← Value.contains_list hv ws]
  exact ⟨rfl, Iff.rfl⟩

/-- A line with two pieces, in a list of quantities that ends with a blank. -/
theorem oneOf_agrees_of_quantities :
    let quantity : ColumnPath := ⟨["quantity"], by decide, by decide⟩
    let compile (o : Operator) := compileFilter Orders.schema .usual Predicate.usualRegistry
      (.named "Line") [.leaf quantity o (.plain "3, 2, ")]
    let line := Orders.line (.int 2)
    ∃ column, Orders.schema.resolve Options.usual.fallback (.named "Line") quantity = .ok column ∧
      column.isCollection = false ∧ column.type.present.1.isText = false ∧
      Orders.schema.coerce (.plain "3, 2, ") column.type .isIn =
        .ok (.list [.int 3, .int 2, .null]) ∧
      Orders.schema.read Options.usual.nullGuard column line = .ok (.int 2) ∧
      ∃ ct nct isIn, compile .ct = .ok ct ∧ compile .nct = .ok nct ∧ compile .isIn = .ok isIn ∧
        nct.holds Orders.schema line = (ct.holds Orders.schema line).map not ∧
        ct.holds Orders.schema line = isIn.holds Orders.schema line := by
  intro quantity compile line
  obtain ⟨column, hcolumn, hsingle, htext, hw, hread⟩ : ∃ column,
      Orders.schema.resolve Options.usual.fallback (.named "Line") quantity = .ok column ∧
        column.isCollection = false ∧ column.type.present.1.isText = false ∧
        Orders.schema.coerce (.plain "3, 2, ") column.type .isIn =
          .ok (.list [.int 3, .int 2, .null]) ∧
        Orders.schema.read Options.usual.nullGuard column line = .ok (.int 2) :=
    ⟨_, rfl, rfl, rfl, rfl, rfl⟩
  obtain ⟨ws, ct, nct, isIn, -, hct, hnct, hisIn, hholds⟩ := oneOf_agrees hcolumn hsingle htext hw
  obtain ⟨hnegation, hsame⟩ := hholds line (.int 2) hread nofun
  -- a number is no moment
  have hfound : ¬ (Value.int 2).MissedByOffset ws := by
    rintro ⟨m, hmoment, -⟩
    cases hmoment
  exact ⟨column, hcolumn, hsingle, htext, hw, hread, ct, nct, isIn, hct, hnct, hisIn, hnegation,
    hsame.mpr hfound⟩

/-- An order of noon without an offset is one of those that were placed at two o'clock two hours
ahead. It is found by `in`, and missed by `ct`. -/
theorem oneOf_differs :
    let placed : ColumnPath := ⟨["placed"], by decide, by decide⟩
    let compile (o : Operator) := compileFilter Orders.schema .usual Predicate.usualRegistry
      (.named "Order") [.leaf placed o (.plain "2024-06-01T14:00:00+02:00")]
    let noon : DateTime := ⟨⟨2024, 6, 1, by decide⟩, ⟨12, 0, 0, 0, by decide⟩, none⟩
    let order := Orders.order noon [] []
    ∃ ct nct isIn, compile .ct = .ok ct ∧ compile .nct = .ok nct ∧ compile .isIn = .ok isIn ∧
      ct.holds Orders.schema order = .ok false ∧ nct.holds Orders.schema order = .ok true ∧
      isIn.holds Orders.schema order = .ok true := by
  intro placed compile noon order
  have hitem : IsItem "2024-06-01T14:00:00+02:00" := by decide +kernel
  have hmoment : readMoment? "2024-06-01T14:00:00+02:00".toList = some noon.assumeUniversal := by
    decide +kernel
  have hscalar : ScalarType.dateTime.read? "2024-06-01T14:00:00+02:00".toList =
      some (.dateTime noon.assumeUniversal) := by
    rw [ScalarType.read?, hmoment, Option.map_some]
  -- each of the three compares with a list of this one moment
  have hlist : Orders.schema.coerceList (.plain "2024-06-01T14:00:00+02:00") (.scalar .dateTime) =
      .ok (.list [.dateTime noon.assumeUniversal]) := by
    rw [Schema.coerceList_of_isItem _ _ hitem (by decide),
      coerceScalar_of_read? hitem.trim_eq hscalar]
    rfl
  have hequals := Value.equals_dateTime_iff.mpr noon.instant_assumeUniversal.symm
  have hamong : Value.anyOk (Value.dateTime noon).equals [.dateTime noon.assumeUniversal] =
      .ok true := by
    rw [Value.anyOk, hequals]
    rfl
  obtain ⟨column, hcolumn, htype, hsingle, hread⟩ : ∃ column,
      Orders.schema.resolve Options.usual.fallback (.named "Order") placed = .ok column ∧
        column.type = .scalar .dateTime ∧ column.isCollection = false ∧
        Orders.schema.read false column order = .ok (.dateTime noon) := ⟨_, rfl, rfl, rfl, rfl⟩
  have hcompile : ∀ o : Operator, o.isTextual = false → o.isOrdering = false →
      (∀ raw, Orders.schema.coerce raw (.scalar .dateTime) o =
        Orders.schema.coerceList raw (.scalar .dateTime)) →
      compile o = .ok (.test (.usual o) column false (.list [.dateTime noon.assumeUniversal])) := by
    intro o htextual hordering hcoerce
    refine compileFilter_leaf hcolumn (checkOperator_of_single hsingle htextual hordering) ?_
    rw [htype, hcoerce, hlist]
  refine ⟨_, _, _, hcompile .ct rfl rfl fun _ => rfl, hcompile .nct rfl rfl fun _ => rfl,
    hcompile .isIn rfl rfl fun _ => rfl, ?_, ?_, ?_⟩
  · rw [Predicate.holds_test_of_read hread]
    rfl
  · rw [Predicate.holds_test_of_read hread]
    rfl
  · rw [Predicate.holds_test_of_read hread]
    exact hamong

end RecordQuery
