import RecordQuery.Proofs.Meaning
import RecordQuery.Proofs.Typing

/-!
# Guarded predicates have an answer

A predicate fails on a record when a member cannot be read or when values meet that cannot be
compared. On records of the right type neither happens, if reading is guarded against null: the
predicate is true or false.

* `succeeds_equals`, `succeeds_ordersAligned`, `succeeds_contains`, `succeeds_compareForms` — the
  tests of typed values.
* `succeeds_usualHolds` — the test of a condition. What its operator needs of the column's type is
  what was checked when the condition was made, and its value was read for that type.
* `answers_compileNode`, by the recursion of the walk over a filter.
* `compileFilter_answers` — the predicate of an accepted filter answers on every conforming record.

Equality fails for a signalling decimal only, and no type of the conditions here has one. Order needs
more: both sides have to be of one type that has an order. Moments are in order once they are aligned,
because their offsets are fixed and none of them is missing.
-/

namespace RecordQuery

/-! ### Tests in order -/

namespace Predicate

variable {s : Schema} {α : Type} {test : α → Except Fault Bool} {as : List α}

theorem succeeds_anyOk (h : ∀ a ∈ as, Succeeds (test a)) : Succeeds (anyOk test as) := by
  induction as with
  | nil => exact .ok false
  | cons a as ih =>
    rw [List.forall_mem_cons] at h
    refine h.1.bind fun b _ => ?_
    cases b with
    | true => exact .ok true
    | false => exact ih h.2

theorem succeeds_allOk (h : ∀ a ∈ as, Succeeds (test a)) : Succeeds (allOk test as) := by
  induction as with
  | nil => exact .ok true
  | cons a as ih =>
    rw [List.forall_mem_cons] at h
    refine h.1.bind fun b _ => ?_
    cases b with
    | true => exact ih h.2
    | false => exact .ok false

theorem succeeds_quantify (q : Quantifier) (h : ∀ a ∈ as, Succeeds (test a)) :
    Succeeds (quantify q test as) := by
  cases q with
  | any => exact succeeds_anyOk h
  | all => exact succeeds_allOk h

/-- The search through the elements of a value is the same as that through any list. -/
theorem anyOk_eq (test : Value → Except Fault Bool) (vs : List Value) :
    Value.anyOk test vs = anyOk test vs := by
  induction vs with
  | nil => rfl
  | cons v vs ih => rw [Value.anyOk, anyOk, ih]

end Predicate

/-! ### Tests of typed values -/

namespace Value

/-- Equality of values without parts fails for signalling decimals only. -/
theorem succeeds_eqScalar {v w : Value} (hv : ∀ x, v.asNumber? = some x → x.isSignaling = false)
    (hw : ∀ x, w.asNumber? = some x → x.isSignaling = false) : Succeeds (eqScalar v w) := by
  unfold eqScalar
  split
  -- only where no kind is common to both values are they compared as numbers
  case h_13 =>
    split
    · next x y hx hy =>
      rw [hv x hx, hw y hy]
      exact .ok _
    · exact .ok false
  all_goals exact .ok _

end Value

namespace Schema

variable {s : Schema} {t : TypeExpr} {v w : Value}

theorem Typed.eq_eqScalar (h : s.Typed t v) (w : Value) :
    v.eq w = Value.eqScalar v.unwrapped w.unwrapped := by
  cases h with
  | scalar exact => cases exact <;> cases w <;> rfl
  | _ => cases w <;> rfl

/-- Alignment makes moments of moments and leaves all other values as they are. -/
theorem Typed.align (hv : s.Typed t v) (hw : s.Typed t w) :
    s.Typed t (v.align w).1 ∧ s.Typed t (v.align w).2 := by
  unfold Value.align
  split
  · next m n =>
    cases hv with
    | scalar exact =>
      cases exact
      split <;> exact ⟨.scalar (.dateTime _), .scalar (.dateTime _)⟩
  · exact ⟨hv, hw⟩

/-- Two moments are ordered however they are given, since aligned ones both have an offset or neither
has one. -/
theorem succeeds_ordersAligned_dateTime (test : OrderTest) (m n : DateTime) :
    Succeeds ((Value.dateTime m).ordersAligned test (.dateTime n)) := by
  obtain ⟨date, clock, offset⟩ := m
  obtain ⟨date', clock', offset'⟩ := n
  cases offset <;> cases offset' <;> cases test <;> exact .ok _

theorem succeeds_contains_text (hv : s.Typed (.scalar .text) v) (raw : RawText) :
    Succeeds (v.contains raw.value) := by
  cases hv with
  | null => exact .ok false
  | scalar exact => cases exact; cases raw <;> exact .ok _
  | textMember => cases raw <;> exact .ok _

theorem succeeds_compareForms (hv : s.Typed (.scalar .text) v) (raw : RawText)
    (test : List Char → List Char → Bool) : Succeeds (v.compareForms raw.value test) := by
  cases hv with
  | null => exact .ok false
  | scalar exact => cases exact; cases raw <;> exact .ok _
  | textMember => cases raw <;> exact .ok _

/-- Two members of an enumeration that is also a type of integers or texts are ordered as these. -/
theorem succeeds_ordersAligned_member (hs : s.EnumsDeclared) {name : String} {e : EnumType}
    (found : s.enum? name = some e) (hbase : e.base ≠ .plain) {m n : String × Value}
    (hm : m ∈ e.members) (hn : n ∈ e.members) (test : OrderTest) :
    Succeeds ((Value.member e.base e.name m.1 m.2).ordersAligned test
      (.member e.base e.name n.1 n.2)) := by
  have he := hs.isDeclared found
  -- members of a plain enumeration have no order; the others have that of their values
  cases hkind : e.base with
  | plain => exact absurd hkind hbase
  | integer =>
    obtain ⟨a, ha⟩ := he.exists_int hkind hm
    obtain ⟨b, hb⟩ := he.exists_int hkind hn
    rw [ha, hb]
    cases test <;> exact .ok _
  | text =>
    obtain ⟨a, ha⟩ := he.exists_text hkind hm
    obtain ⟨b, hb⟩ := he.exists_text hkind hn
    rw [ha, hb]
    cases test <;> exact .ok _

section
variable (hs : s.EnumsDeclared) (ht : s.isSingle t = true)

include hs ht

/-- Where there is no decimal type, there is no signalling number. -/
theorem isSignaling_eq_false (h : s.Typed t v) {x : Decimal}
    (hx : v.unwrapped.asNumber? = some x) : x.isSignaling = false := by
  cases h with
  | null => cases hx
  | scalar exact =>
    cases exact with
    | integer | boolean =>
      cases hx
      rfl
    | decimal | float => cases ht
    | _ => cases hx
  | textMember => cases hx
  | @member name e m found mem =>
    have he := hs.isDeclared found
    cases hbase : e.base with
    | plain =>
      rw [hbase] at hx
      cases hx
    -- a member that is a number is an integer
    | integer =>
      obtain ⟨n, hn⟩ := he.exists_int hbase mem
      rw [hbase, hn] at hx
      cases hx
      rfl
    | text =>
      obtain ⟨text, htext⟩ := he.exists_text hbase mem
      rw [hbase, htext] at hx
      cases hx

theorem succeeds_eq (hv : s.Typed t v) (hw : s.Typed t w) : Succeeds (v.eq w) := by
  rw [hv.eq_eqScalar]
  exact Value.succeeds_eqScalar (fun _ => isSignaling_eq_false hs ht hv)
    fun _ => isSignaling_eq_false hs ht hw

theorem succeeds_equals (hv : s.Typed t v) (hw : s.Typed t w) : Succeeds (v.equals w) :=
  succeeds_eq hs ht (hv.align hw).1 (hv.align hw).2

theorem succeeds_isIn (hv : s.Typed t v) {ws : List Value} (hws : ∀ w ∈ ws, s.Typed t w) :
    Succeeds (v.isIn ws) := by
  rw [Value.isIn, Predicate.anyOk_eq]
  exact Predicate.succeeds_anyOk fun w hw => succeeds_eq hs ht hv (hws w hw)

/-- The order of two values of a type that has one. -/
theorem succeeds_ordersAligned (horder : s.isOrderable t = true) (test : OrderTest)
    (hv : s.Typed t v) (hw : s.Typed t w) : Succeeds (v.ordersAligned test w) := by
  cases hv with
  | null => exact .ok false
  | scalar exact =>
    cases hw with
    | null => cases exact <;> exact .ok false
    | scalar exact' =>
      cases exact with
      | text a => cases exact'; cases test <;> exact .ok _
      | integer a => cases exact'; cases test <;> exact .ok _
      | date a => cases exact'; cases test <;> exact .ok _
      | duration a => cases exact'; cases test <;> exact .ok _
      | dateTime m =>
        cases exact' with
        | dateTime n => exact succeeds_ordersAligned_dateTime test m n
      -- these types have no order, and the others are no types of conditions
      | boolean | uuid => cases horder
      | float | bytes | decimal | time => cases ht
    | textMember => cases exact; cases test <;> exact .ok _
  | textMember =>
    cases hw with
    | null => exact .ok false
    | scalar exact => cases exact; cases test <;> exact .ok _
    | textMember => cases test <;> exact .ok _
  | @member name e m found mem =>
    cases hw with
    | null => exact .ok false
    | @member _ e' n found' mem' =>
      cases found.symm.trans found'
      rw [isOrderable, found] at horder
      exact succeeds_ordersAligned_member hs found (bne_iff_ne.mp horder) mem mem' test

theorem succeeds_contains_list (hv : s.Typed t v) {ws : List Value}
    (hws : ∀ w ∈ ws, s.Typed t w) : Succeeds (v.contains (.list ws)) := by
  have hamong := succeeds_isIn hs ht hv hws
  cases hv with
  | null => exact .ok false
  | scalar exact => cases exact <;> exact hamong
  | _ => exact hamong

theorem succeeds_contains_element {vs : List Value} (hvs : ∀ v ∈ vs, s.Typed t v)
    (hw : s.Typed t w) : Succeeds ((Value.list vs).contains w) := by
  have hamong := succeeds_isIn hs ht hw hvs
  cases hw with
  | scalar exact => cases exact <;> exact hamong
  | _ => exact hamong

end

/-! ### Conditions -/

/-- A condition on a single value has a list of values by some operators, and one value by the
others. -/
theorem coerce_of_hasConversion (ht : s.hasConversion t = true) (raw : RawText) (o : Operator) :
    s.coerce raw t o = if o.takesList || (o.isContainment && !t.isText) then s.coerceList raw t
      else s.coerceScalar raw t := by
  unfold coerce
  simp only [present_of_hasConversion ht, element?_of_hasConversion ht]
  cases o <;> cases t.isText <;> rfl

/-- A text is searched for a part, and any other single value in a list. -/
theorem succeeds_contains (hs : s.EnumsDeclared) (ht : s.isSingle t = true) {o : Operator}
    (ho : o.isContainment = true) {raw : RawText} (hw : s.coerce raw t o = .ok w)
    (hv : s.Typed t v) : Succeeds (v.contains w) := by
  have hconversion := hasConversion_of_isSingle ht
  rw [coerce_of_hasConversion hconversion] at hw
  split at hw
  · obtain ⟨ws, rfl, hws⟩ := typed_of_coerceList hconversion hw
    exact succeeds_contains_list hs ht hv hws
  · next hone =>
    -- an operator of containment compares with one value only where the column is a text
    have htext : t.isText = true := by
      rw [ho, Bool.true_and, Bool.or_eq_true, not_or, Bool.not_eq_true', Bool.not_eq_false] at hone
      exact hone.2
    obtain rfl := eq_text_of_hasConversion hconversion htext
    cases hw
    exact succeeds_contains_text hv raw

/-- The test of a single value. -/
theorem succeeds_usualHolds_single (hs : s.EnumsDeclared) {column : ResolvedColumn}
    (ht : s.isSingle column.type = true) {o : Operator}
    (hoperator : s.checkOperator column o = .ok ()) {raw : RawText}
    (hw : s.coerce raw column.type o = .ok w) (hv : s.Typed column.type v) :
    Succeeds (Strategy.usualHolds o v w) := by
  obtain ⟨htextual, hordering, -⟩ := checkOperator_eq_ok_iff.mp hoperator
  have hconversion := hasConversion_of_isSingle ht
  have hcoerce := (coerce_of_hasConversion hconversion raw o).symm.trans hw
  cases o with
  | eq => exact succeeds_equals hs ht hv (typed_of_coerceScalar hconversion hcoerce)
  | neq => exact (succeeds_equals hs ht hv (typed_of_coerceScalar hconversion hcoerce)).map not
  | gt | gte | lt | lte =>
    have horder := (hordering rfl).2
    exact succeeds_ordersAligned hs ht horder _ hv (typed_of_coerceScalar hconversion hcoerce)
  | isIn =>
    obtain ⟨ws, rfl, hws⟩ := typed_of_coerceList hconversion hcoerce
    change Succeeds (Value.anyOk v.equals ws)
    rw [Predicate.anyOk_eq]
    exact Predicate.succeeds_anyOk fun w hw => succeeds_equals hs ht hv (hws w hw)
  | ct => exact succeeds_contains hs ht rfl hw hv
  | nct => exact (succeeds_contains hs ht rfl hw hv).map not
  | sw | ew =>
    -- only texts are tested for a beginning or an end
    have htext := eq_text_of_hasConversion hconversion (htextual rfl)
    rw [htext] at hv hcoerce
    cases hcoerce
    exact succeeds_compareForms hv raw _

/-- The test of a list of single values. No operator but those of containment fits it, and these
compare its elements with one value. -/
theorem succeeds_usualHolds_list (hs : s.EnumsDeclared) {column : ResolvedColumn} {e : TypeExpr}
    (htype : column.type = .applied .list [e]) (he : s.isSingle e.present.1 = true) {o : Operator}
    (hoperator : s.checkOperator column o = .ok ()) {raw : RawText}
    (hw : s.coerce raw column.type o = .ok w) (hv : s.Conforms column.type v) :
    Succeeds (Strategy.usualHolds o v w) := by
  obtain ⟨htextual, hordering, hequality⟩ := checkOperator_eq_ok_iff.mp hoperator
  have hcollection : column.isCollection = true := by
    rw [ResolvedColumn.isCollection, ResolvedColumn.element?, htype]
    rfl
  rw [htype] at htextual hw hv
  have hcontains : s.coerceScalar raw e.present.1 = .ok w → Succeeds (v.contains w) := by
    intro hscalar
    obtain ⟨items, ⟨rfl, -⟩ | rfl, hitems⟩ := hv.exists_elements
    · exact .ok false
    · exact succeeds_contains_element hs he (fun x hx => typed_of_conforms he (hitems x hx))
        (typed_of_coerceScalar (hasConversion_of_isSingle he) hscalar)
  -- only the containment operators fit a collection
  cases o with
  | ct => exact hcontains hw
  | nct => exact (hcontains hw).map not
  | eq | neq | isIn => cases hcollection.symm.trans (hequality (by decide))
  | gt | gte | lt | lte => cases hcollection.symm.trans (hordering rfl).1
  | sw | ew => cases htextual rfl

/-- **The test of a condition** has an answer for every value that conforms to the type of its
column. -/
theorem succeeds_usualHolds (hs : s.EnumsDeclared) {column : ResolvedColumn}
    (ht : s.isTestable column.type = true) {o : Operator}
    (hoperator : s.checkOperator column o = .ok ()) {raw : RawText}
    (hw : s.coerce raw column.type o = .ok w) (hv : s.Conforms column.type v) :
    Succeeds (Strategy.usualHolds o v w) := by
  obtain hsingle | ⟨e, htype, he⟩ := isTestable_cases ht
  · exact succeeds_usualHolds_single hs hsingle hoperator hw (typed_of_conforms hsingle hv)
  · exact succeeds_usualHolds_list hs htype he hoperator hw hv

end Schema

/-! ### The walk over a filter -/

namespace Filter

mutual

/-- Every column that a filter about records of a type tests is of a testable type, and every column
that it goes through is a list. -/
def TestsTyped (s : Schema) (options : Options) (owner : TypeExpr) (scope : Option ColumnPath) :
    Filter → Prop
  | leaf path _ _ => ∀ column, s.resolveIn options owner scope path = .ok column →
      s.isTestable column.type = true
  | group _ fs => AllTestTyped s options owner scope fs
  | quantified q path fs =>
    ∀ column element, Backend.collection s options owner scope q path = .ok (column, element) →
      (∃ e, column.type = .applied .list [e]) ∧ AllTestTyped s options element (some path) fs
termination_by structural f => f

/-- Several filters test columns of testable types and go through lists. -/
def AllTestTyped (s : Schema) (options : Options) (owner : TypeExpr) (scope : Option ColumnPath) :
    List Filter → Prop
  | [] => True
  | f :: fs => TestsTyped s options owner scope f ∧ AllTestTyped s options owner scope fs
termination_by structural fs => fs

end

end Filter

namespace Predicate

/-- A predicate has an answer for every record that conforms to a type. -/
def Answers (s : Schema) (owner : TypeExpr) (p : Predicate) : Prop :=
  ∀ v, s.Conforms owner v → Succeeds (p.holds s v)

section
variable {s : Schema} {options : Options} {owner : TypeExpr} {scope : Option ColumnPath}

theorem answers_conjunction {ps : List Predicate} (h : ∀ p ∈ ps, p.Answers s owner) :
    ((usualBackend options).conjunction ps).Answers s owner := by
  intro v hv
  rw [holds_conjunction, holdsAll_eq_allOk]
  exact succeeds_allOk fun p hp => h p hp v hv

theorem answers_group (k : Connective) {ps : List Predicate} (h : ∀ p ∈ ps, p.Answers s owner) :
    ((usualBackend options).group k ps).Answers s owner := by
  cases k with
  | and => exact answers_conjunction h
  | or =>
    intro v hv
    rw [Backend.group, holds_disjunction, holdsAny_eq_anyOk]
    exact succeeds_anyOk fun p hp => h p hp v hv

/-- A test of a resolved column. -/
theorem answers_test (hs : s.EnumsDeclared) {path : ColumnPath} {o : Operator} {raw : RawText}
    {c : Condition} (hc : s.condition options owner scope path o raw = .ok c)
    (ht : s.isTestable c.column.type = true) :
    (test (.usual c.operator) c.column true c.value).Answers s owner := by
  obtain ⟨hcolumn, hoperator, hw, rfl⟩ := Schema.condition_eq_ok_iff.mp hc
  intro v hv
  obtain ⟨x, hread, hx⟩ := Schema.exists_read (Schema.chained_of_resolveIn hcolumn) hv
  rw [holds, hread, ok_bind]
  exact Schema.succeeds_usualHolds hs ht hoperator hw hx

/-- A predicate of the elements of a list. -/
theorem answers_elements {column : ResolvedColumn} {e : TypeExpr}
    (hchain : s.Chained owner column.hops) (htype : column.type = .applied .list [e])
    (q : Quantifier) {p : Predicate} (hp : p.Answers s e.present.1) :
    (elements q column true p).Answers s owner := by
  intro v hv
  obtain ⟨x, hread, hx⟩ := Schema.exists_read hchain hv
  rw [htype] at hx
  obtain ⟨items, hvalue, hitems⟩ := hx.exists_elements
  -- a missing list has no elements
  have helements : elementsOf x = .ok items := by
    obtain ⟨rfl, rfl⟩ | rfl := hvalue <;> rfl
  rw [holds, hread, ok_bind, helements, ok_bind]
  exact succeeds_quantify q fun a ha => hp a (hitems a ha)

mutual

/-- **One filter.** What is compiled from a tree has an answer for every conforming record. -/
theorem answers_compileNode (hs : s.EnumsDeclared) (hguard : options.nullGuard = true)
    (owner : TypeExpr) (scope : Option ColumnPath) :
    ∀ (f : Filter) (p : Predicate),
      (usualBackend options).compileNode s options owner scope f = .ok p →
      f.TestsTyped s options owner scope → p.Answers s owner
  | .leaf path o raw, p, hp, htyped => by
    obtain ⟨c, hc, hp⟩ := bind_eq_ok_iff.mp hp
    rw [condition_usualBackend, hguard] at hp
    cases hp
    exact answers_test hs hc (htyped c.column (Schema.condition_eq_ok_iff.mp hc).1)
  | .group k fs, p, hp, htyped => by
    obtain ⟨ps, hps, rfl⟩ := map_eq_ok_iff.mp hp
    exact answers_group k (answers_compileAll hs hguard owner scope fs ps hps htyped)
  | .quantified q path fs, p, hp, htyped => by
    obtain ⟨⟨column, element⟩, hcollection, hp⟩ := bind_eq_ok_iff.mp hp
    obtain ⟨ps, hps, hmade⟩ := bind_eq_ok_iff.mp hp
    obtain ⟨⟨e, htype⟩, hinner⟩ := htyped column element hcollection
    obtain ⟨hcolumn, helement⟩ := collection_eq_ok_iff.mp hcollection
    -- the elements of the list are of the type for which the conditions are read
    rw [ResolvedColumn.element?, htype] at helement
    cases helement
    have hparts := answers_compileAll hs hguard e.present.1 (.some path) fs ps hps hinner
    cases hmade
    rw [hguard]
    exact answers_elements (Schema.chained_of_resolveIn hcolumn) htype q
      (answers_conjunction hparts)

/-- Several filters, one by one. -/
theorem answers_compileAll (hs : s.EnumsDeclared) (hguard : options.nullGuard = true)
    (owner : TypeExpr) (scope : Option ColumnPath) :
    ∀ (fs : List Filter) (ps : List Predicate),
      (usualBackend options).compileAll s options owner scope fs = .ok ps →
      Filter.AllTestTyped s options owner scope fs → ∀ p ∈ ps, p.Answers s owner
  | [], ps, hps, _ => by
    cases hps
    exact List.forall_mem_nil _
  | f :: fs, ps, hps, htyped => by
    obtain ⟨p, hp, hps⟩ := bind_eq_ok_iff.mp hps
    obtain ⟨rest, hrest, hps⟩ := bind_eq_ok_iff.mp hps
    cases hps
    -- each filter of the list is typed by itself
    exact List.forall_mem_cons.mpr ⟨answers_compileNode hs hguard owner scope f p hp htyped.1,
      answers_compileAll hs hguard owner scope fs rest hrest htyped.2⟩

end

end

end Predicate

/-- **Guarded predicates answer** on all records of the right type. When a list of filters is
accepted, its predicate reads every column, goes through every list and makes every test without a
fault, and is true or false. -/
theorem compileFilter_answers {s : Schema} (hs : s.EnumsDeclared) {options : Options}
    (hguard : options.nullGuard = true) {type : TypeExpr} {fs : List Filter} {p : Predicate}
    (accepted : compileFilter s options Predicate.usualRegistry type fs = .ok p)
    (typed : Filter.AllTestTyped s options type none fs) {v : Value} (hv : s.Conforms type v) :
    ∃ b, p.holds s v = .ok b := by
  have hcompile := (usualBackend_compile s options type fs).symm.trans accepted
  obtain ⟨ps, hps, rfl⟩ := map_eq_ok_iff.mp hcompile
  have hparts := Predicate.answers_compileAll hs hguard type none fs ps hps typed
  exact Predicate.answers_conjunction hparts v hv

/-! An example: orders with a status, tags, a customer and lines. -/

namespace Orders

/-- The status of an order. -/
def status : EnumType :=
  ⟨"Status", .text, [("OPEN", .text "open"), ("PAID", .text "paid")], by decide⟩

/-- A schema of orders. -/
def schema : Schema :=
  ⟨[status],
    [⟨"Order", [], .model
        [⟨"status", .named "Status", [], false, none⟩,
          ⟨"placed", .scalar .dateTime, [], false, none⟩,
          ⟨"tags", .applied .list [.scalar .text], [], false, none⟩,
          ⟨"customer", .named "Customer", [], false, none⟩,
          ⟨"lines", .applied .list [.named "Line"], [], false, none⟩], []⟩,
      ⟨"Line", [], .model [⟨"quantity", .scalar .integer, [], false, none⟩], []⟩,
      ⟨"Customer", [], .model [⟨"name", .scalar .text, [], false, none⟩], []⟩], .absent⟩

/-- A line of an order. -/
def line (quantity : Value) : Value :=
  .record ⟨.model, "Line", ["quantity"], none⟩ [("quantity", some quantity)]

/-- An order without a customer. -/
def order (placed : DateTime) (tags lines : List Value) : Value :=
  .record ⟨.model, "Order", ["status", "placed", "tags", "customer", "lines"], none⟩
    [("status", some (.member .text "Status" "OPEN" (.text "open"))),
      ("placed", some (.dateTime placed)), ("tags", some (.list tags)), ("customer", some .null),
      ("lines", some (.list lines))]

theorem enumsDeclared : schema.EnumsDeclared := by
  intro e he
  obtain rfl := List.mem_singleton.mp he
  exact ⟨.text, "Status", [("OPEN", .text "open"), ("PAID", .text "paid")], rfl⟩

theorem conforms_line {quantity : Value} (h : schema.Conforms (.scalar .integer) quantity) :
    schema.Conforms (.named "Line") (line quantity) := by
  refine Schema.conforms_record rfl rfl ?_
  intro m hm
  obtain rfl := List.mem_singleton.mp hm
  exact ⟨quantity, rfl, h⟩

theorem conforms_order (placed : DateTime) {tags lines : List Value}
    (htags : ∀ x ∈ tags, schema.Conforms (.scalar .text) x)
    (hlines : ∀ x ∈ lines, schema.Conforms (.named "Line") x) :
    schema.Conforms (.named "Order") (order placed tags lines) := by
  have hopen : ("OPEN", .text "open") ∈ status.members := List.mem_cons_self
  have hstatus : schema.Conforms (.named "Status")
      (.member .text "Status" "OPEN" (.text "open")) := Schema.conforms_member rfl rfl hopen
  refine Schema.conforms_record rfl rfl ?_
  intro m hm
  -- state, moment, tags, a missing payment and lines
  rcases hm with _ | ⟨_, _ | ⟨_, _ | ⟨_, _ | ⟨_, _ | ⟨_, ⟨⟩⟩⟩⟩⟩⟩
  · exact ⟨_, rfl, hstatus⟩
  · exact ⟨_, rfl, .scalar (.dateTime placed)⟩
  · exact ⟨_, rfl, .list htags⟩
  · exact ⟨_, rfl, .null _⟩
  · exact ⟨_, rfl, .list hlines⟩

end Orders

/-- An open order, with a tag that is null and a line that is null, answers a filter that asks for
its status, a tag, the name of its customer, its time and its lines. -/
theorem compileFilter_answers_of_order :
    let path (segments : List String) (h : segments ≠ [] ∧ segments.all isSegment = true) :
      ColumnPath := ⟨segments, h.1, h.2⟩
    let f : Filter := .group .or
      [.group .and
        [.leaf (path ["status"] (by decide)) .gte (.plain "paid"),
          .leaf (path ["tags"] (by decide)) .nct (.plain "gift")],
        .leaf (path ["customer", "name"] (by decide)) .sw (.plain "A"),
        .leaf (path ["placed"] (by decide)) .lt (.plain "2024-05-01"),
        .quantified .all (path ["lines"] (by decide))
          [.leaf (path ["lines", "quantity"] (by decide)) .isIn (.plain "2,3")]]
    let order := Orders.order default [.null, .text "urgent"]
      [.null, Orders.line (.int 2), Orders.line .null]
    ∃ p, compileFilter Orders.schema ⟨true, false⟩ Predicate.usualRegistry (.named "Order") [f] =
        .ok p ∧ ∃ b, p.holds Orders.schema order = .ok b := by
  intro path f order
  -- each condition is on a column of a type that its operator fits, the one in the collection on
  -- that of a line
  have htyped : Filter.AllTestTyped Orders.schema ⟨true, false⟩ (.named "Order") none [f] := by
    refine ⟨⟨⟨?_, ?_, trivial⟩, ?_, ?_, ?_, trivial⟩, trivial⟩
    · rintro column ⟨⟩
      rfl
    · rintro column ⟨⟩
      rfl
    · rintro column ⟨⟩
      rfl
    · rintro column ⟨⟩
      rfl
    · rintro column element ⟨⟩
      refine ⟨⟨_, rfl⟩, ?_, trivial⟩
      rintro column ⟨⟩
      rfl
  have horder : Orders.schema.Conforms (.named "Order") order := by
    refine Orders.conforms_order default ?_ ?_
    · intro x hx
      rcases hx with _ | ⟨_, _ | ⟨_, ⟨⟩⟩⟩
      · exact .null _
      · exact .scalar (.text "urgent")
    · intro x hx
      rcases hx with _ | ⟨_, _ | ⟨_, _ | ⟨_, ⟨⟩⟩⟩⟩
      · exact .null _
      · exact Orders.conforms_line (.scalar (.integer 2))
      · exact Orders.conforms_line (.null _)
  obtain ⟨p, accepted⟩ : ∃ p, compileFilter Orders.schema ⟨true, false⟩ Predicate.usualRegistry
      (.named "Order") [f] = .ok p := ⟨_, rfl⟩
  exact ⟨p, accepted, compileFilter_answers Orders.enumsDeclared rfl accepted htyped horder⟩

end RecordQuery
