import RecordQuery.Proofs.Totality
import RecordQuery.Proofs.Written

/-!
# Tests of order

Whether a column can be ordered is told from its type, when a filter is compiled. For most types
this is enough: any two of their values are ordered, or the test is false. Decimal numbers and times
of day are the exception. A decimal that is no number is ordered with no other, and a time with an
offset is not ordered with one that has none. They make the test fail, although a floating point
number that is no number makes it false, and a moment without an offset is read at offset zero. All
offsets are fixed ones.

* `Schema.isOrdered` — the types of single values that have an order.
* `Value.orderFault?` — what a test of two values fails with. `Value.ordersAligned_eq_error` says
  that it does, and `Schema.succeeds_ordersAligned_of_isOrdered` that it does not fail otherwise.
* `ordering_answers` — the result for conditions; `ordering_fails` shows both failures.
-/

namespace RecordQuery

/-! ### Types with an order -/

namespace Schema

/-- The types of single values that have an order: texts, numbers, moments, days, times, durations,
and enumerations whose members are also integers or texts. -/
def isOrdered (s : Schema) : TypeExpr → Bool
  | .scalar u =>
    [ScalarType.text, .integer, .float, .decimal, .dateTime, .date, .time, .duration].contains u
  | .named name => (s.enum? name).any fun e => e.base != .plain
  | _ => false

variable {s : Schema} {t : TypeExpr}

/-- Most of them are among the types whose values can always be compared. -/
theorem isOrdered_cases (h : s.isOrdered t = true) :
    s.isSingle t = true ∧ s.isOrderable t = true ∨
      t = .scalar .float ∨ t = .scalar .decimal ∨ t = .scalar .time := by
  cases t with
  | scalar u =>
    cases u with
    | text | integer | dateTime | date | duration => exact .inl ⟨rfl, rfl⟩
    | float => exact .inr (.inl rfl)
    | decimal => exact .inr (.inr (.inl rfl))
    | time => exact .inr (.inr (.inr rfl))
    | boolean | bytes | byteArray | uuid => cases h
  | named name =>
    -- an enumeration is ordered if its values are
    obtain ⟨e, found, hbase⟩ := (Option.any_eq_true _ _).mp h
    refine .inl ⟨Option.isSome_iff_exists.mpr ⟨e, found⟩, ?_⟩
    rw [isOrderable, found]
    exact hbase
  | _ => cases h

theorem hasConversion_of_isOrdered (h : s.isOrdered t = true) : s.hasConversion t = true := by
  obtain ⟨hsingle, -⟩ | rfl | rfl | rfl := isOrdered_cases h
  · exact hasConversion_of_isSingle hsingle
  · rfl
  · rfl
  · rfl

theorem isOrderable_of_isOrdered (h : s.isOrdered t = true) : s.isOrderable t = true := by
  obtain ⟨-, horder⟩ | rfl | rfl | rfl := isOrdered_cases h
  · exact horder
  · rfl
  · rfl
  · rfl

end Schema

/-! ### Orders that there are not -/

theorem Decimal.compare?_eq_none_iff (x y : Decimal) :
    x.compare? y = none ↔ (x.isNumber && y.isNumber) = false := by
  unfold compare?
  split
  · next h =>
    rw [h]
    -- two numbers are always placed, at the latest by their signs
    refine iff_of_false ?_ nofun
    simp only
    split
    · nofun
    · split
      · nofun
      · split <;> nofun
  · next h => exact iff_of_true rfl (Bool.eq_false_iff.mpr h)

theorem Time.compare?_eq_none_iff (a b : Time) :
    a.compare? b = none ↔ a.offset.isSome ≠ b.offset.isSome := by
  obtain ⟨clock, offset⟩ := a
  obtain ⟨clock', offset'⟩ := b
  unfold compare?
  cases offset <;> cases offset' <;> simp
  split <;> nofun

theorem DateTime.compare?_eq_none_iff (m n : DateTime) :
    m.compare? n = none ↔ m.offset.isSome ≠ n.offset.isSome := by
  obtain ⟨date, clock, offset⟩ := m
  obtain ⟨date', clock', offset'⟩ := n
  unfold compare?
  cases offset <;> cases offset' <;> simp

namespace Value

/-- What a test of the order of two values fails with, if they are of one type and have no order. -/
def orderFault? : Value → Value → Option Fault
  | decimal x, decimal y => if x.isNumber && y.isNumber then none else some .invalidOperation
  | time a, time b => if a.offset.isSome = b.offset.isSome then none else some .unsupported
  | _, _ => none

variable {v w : Value}

theorem ordersAligned_null (test : OrderTest) (h : v = null ∨ w = null) :
    v.ordersAligned test w = .ok false := by
  unfold ordersAligned
  obtain rfl | rfl := h
  · rfl
  · rw [isNull, Bool.or_true, if_pos rfl]

theorem ordersAligned_decimal (test : OrderTest) (x y : Decimal) :
    (decimal x).ordersAligned test (decimal y) =
      match x.compare? y with
      | some o => .ok (test.holds o)
      | none => .error .invalidOperation := by
  cases test <;> rfl

theorem ordersAligned_time (test : OrderTest) (a b : Time) :
    (time a).ordersAligned test (time b) = ordered test (a.compare? b) := by
  cases test <;> rfl

/-- Floating point numbers are compared like decimals, but a test of one that is no number is
false. -/
theorem succeeds_ordersAligned_float (test : OrderTest) (x y : Binary64) :
    Succeeds ((float x).ordersAligned test (float y)) := by
  have hfloat : (float x).ordersAligned test (float y) =
      match (Decimal.ofBinary64 x).compare? (.ofBinary64 y) with
      | some o => .ok (test.holds o)
      | none => .ok false := by
    cases test <;> rfl
  rw [hfloat]
  split <;> exact .ok _

theorem succeeds_ordersAligned_decimal {x y : Decimal}
    (h : (decimal x).orderFault? (decimal y) = none) (test : OrderTest) :
    Succeeds ((decimal x).ordersAligned test (decimal y)) := by
  rw [ordersAligned_decimal]
  split
  · exact .ok _
  · next hnone =>
    rw [orderFault?, (Decimal.compare?_eq_none_iff x y).mp hnone] at h
    cases h

theorem succeeds_ordersAligned_time {a b : Time} (h : (time a).orderFault? (time b) = none)
    (test : OrderTest) : Succeeds ((time a).ordersAligned test (time b)) := by
  rw [ordersAligned_time]
  cases horder : a.compare? b with
  | some o => exact .ok _
  | none =>
    rw [orderFault?, if_neg ((Time.compare?_eq_none_iff a b).mp horder)] at h
    cases h

/-- **The failures.** Whatever the test, it fails where there is no order. -/
theorem ordersAligned_eq_error {fault : Fault} (h : v.orderFault? w = some fault)
    (test : OrderTest) : v.ordersAligned test w = .error fault := by
  unfold orderFault? at h
  split at h
  · next x y =>
    split at h
    · cases h
    · next hnumbers =>
      cases h
      -- what is no number has no place in the order, and its comparison fails
      have hnone := (Decimal.compare?_eq_none_iff x y).mpr (Bool.eq_false_iff.mpr hnumbers)
      rw [ordersAligned_decimal, hnone]
  · next a b =>
    split at h
    · cases h
    · next hoffsets =>
      cases h
      rw [ordersAligned_time, (Time.compare?_eq_none_iff a b).mpr hoffsets]
      rfl
  · cases h

end Value

namespace Schema

variable {s : Schema} {t : TypeExpr} {v w : Value}

/-- A value of a scalar type other than that of texts is null or exactly of the type. -/
theorem Typed.holds_of_ne_null {u : ScalarType} (h : s.Typed (.scalar u) v) (hu : u ≠ .text)
    (hne : v ≠ .null) : u.Holds v := by
  cases h with
  | null => exact absurd rfl hne
  | scalar exact => exact exact
  | textMember => exact absurd rfl hu

/-- **The answers.** Two values of a type with an order are compared in any other case. -/
theorem succeeds_ordersAligned_of_isOrdered (hs : s.EnumsDeclared) (ht : s.isOrdered t = true)
    (test : OrderTest) (hv : s.Typed t v) (hw : s.Typed t w) (h : v.orderFault? w = none) :
    Succeeds (v.ordersAligned test w) := by
  by_cases hnull : v = .null ∨ w = .null
  · rw [Value.ordersAligned_null test hnull]
    exact .ok false
  obtain ⟨hv', hw'⟩ := not_or.mp hnull
  obtain ⟨hsingle, horder⟩ | rfl | rfl | rfl := isOrdered_cases ht
  · exact succeeds_ordersAligned hs hsingle horder test hv hw
  -- both values are exactly of the scalar type
  · cases hv.holds_of_ne_null (by decide) hv'
    cases hw.holds_of_ne_null (by decide) hw'
    exact Value.succeeds_ordersAligned_float test _ _
  · cases hv.holds_of_ne_null (by decide) hv'
    cases hw.holds_of_ne_null (by decide) hw'
    exact Value.succeeds_ordersAligned_decimal h test
  · cases hv.holds_of_ne_null (by decide) hv'
    cases hw.holds_of_ne_null (by decide) hw'
    exact Value.succeeds_ordersAligned_time h test

end Schema

/-! ### Conditions -/

/-- The operators of order are the tests of order after alignment. -/
theorem Strategy.exists_ordersAligned {o : Operator} (ho : o.isOrdering = true) :
    ∃ test, ∀ v w, usualHolds o v w = v.ordersAligned test w := by
  cases o with
  | gt => exact ⟨.gt, fun _ _ => rfl⟩
  | gte => exact ⟨.ge, fun _ _ => rfl⟩
  | lt => exact ⟨.lt, fun _ _ => rfl⟩
  | lte => exact ⟨.le, fun _ _ => rfl⟩
  | _ => cases ho

/-- **Tests of order.** Let a column of a type that has an order be compared with a text that can be
read as a value of the type. The condition is accepted. On every record in which the column is null
or of its type, it has an answer, unless both values are decimal numbers of which one is no number,
or both are times of day of which one only has an offset; in these cases it fails. -/
theorem ordering_answers {s : Schema} (hs : s.EnumsDeclared) {options : Options}
    {type : TypeExpr} {path : ColumnPath} {column : ResolvedColumn}
    (hcolumn : s.resolve options.fallback type path = .ok column)
    (ht : s.isOrdered column.type = true) {o : Operator} (ho : o.isOrdering = true)
    {raw : RawText} {w : Value} (hw : s.coerce raw column.type o = .ok w) :
    ∃ p, compileFilter s options Predicate.usualRegistry type [.leaf path o raw] = .ok p ∧
      ∀ record v, s.read options.nullGuard column record = .ok v → s.Typed column.type v →
        (v.orderFault? w = none → ∃ b, p.holds s record = .ok b) ∧
        ∀ fault, v.orderFault? w = some fault → p.holds s record = .error fault := by
  have hconversion := Schema.hasConversion_of_isOrdered ht
  have hsingle : column.isCollection = false :=
    congrArg Option.isSome (Schema.element?_of_hasConversion hconversion)
  have hnot : o.isTextual = false := by
    cases o <;> first | rfl | cases ho
  have hoperator : s.checkOperator column o = .ok () :=
    Schema.checkOperator_eq_ok_iff.mpr ⟨fun htextual => absurd htextual (Bool.eq_false_iff.mp hnot),
      fun _ => ⟨hsingle, Schema.isOrderable_of_isOrdered ht⟩, fun _ => hsingle⟩
  have hcoerce : s.coerceScalar raw column.type = .ok w := by
    rw [← hw, Schema.coerce_of_hasConversion hconversion]
    cases o <;> first | rfl | cases ho
  have htyped := Schema.typed_of_coerceScalar hconversion hcoerce
  obtain ⟨test, htest⟩ := Strategy.exists_ordersAligned ho
  -- both sides are values of the column's type, and the test aligns them
  refine ⟨_, compileFilter_leaf hcolumn hoperator hw, fun record v hread hv => ?_⟩
  rw [Predicate.holds_test_of_read hread, Strategy.holds, htest]
  exact ⟨Schema.succeeds_ordersAligned_of_isOrdered hs ht test hv htyped,
    fun fault h => Value.ordersAligned_eq_error h test⟩

/-! An example: alarms that ring at a time of day, with a volume. -/

namespace Alarms

/-- A schema of alarms. -/
def schema : Schema :=
  ⟨[], [⟨"Alarm", [], .model
    [⟨"rings", .scalar .time, [], false, none⟩, ⟨"volume", .scalar .decimal, [], false, none⟩],
    []⟩], .absent⟩

/-- Ten o'clock. -/
def ten : Clock := ⟨10, 0, 0, 0, by decide⟩

/-- An alarm of volume 1. -/
def alarm (rings : Time) : Value :=
  .record ⟨.model, "Alarm", ["rings", "volume"], none⟩
    [("rings", some (.time rings)), ("volume", some (.decimal (.finite false 1 0)))]

theorem enumsDeclared : schema.EnumsDeclared := List.forall_mem_nil _

theorem coerce_time {o : Operator} (ho : o.isOrdering = true) {text : String} {t : Time}
    (htrim : Text.trim text.toList = text.toList) (hread : Time.read? text.toList = some t) :
    schema.coerce (.plain text) (.scalar .time) o = .ok (.time t) := by
  have hscalar : ScalarType.time.read? text.toList = some (.time t) := by
    rw [ScalarType.read?, hread, Option.map_some]
  rw [← coerceScalar_of_read? htrim hscalar]
  cases o <;> first | rfl | cases ho

end Alarms

/-- An alarm that rings at ten o'clock can be compared with half past nine. -/
theorem ordering_answers_of_alarm :
    let rings : ColumnPath := ⟨["rings"], by decide, by decide⟩
    let alarm := Alarms.alarm ⟨Alarms.ten, none⟩
    ∃ column w, Alarms.schema.resolve Options.usual.fallback (.named "Alarm") rings = .ok column ∧
      Alarms.schema.isOrdered column.type = true ∧
      Alarms.schema.coerce (.plain "09:30") column.type .lt = .ok w ∧
      ∃ p, compileFilter Alarms.schema .usual Predicate.usualRegistry (.named "Alarm")
          [.leaf rings .lt (.plain "09:30")] = .ok p ∧
        Alarms.schema.read Options.usual.nullGuard column alarm = .ok (.time ⟨Alarms.ten, none⟩) ∧
        ∃ b, p.holds Alarms.schema alarm = .ok b := by
  intro rings alarm
  have hread : Time.read? "09:30".toList = some ⟨⟨9, 30, 0, 0, by decide⟩, none⟩ := by
    decide +kernel
  have hw := Alarms.coerce_time (o := .lt) rfl (by decide) hread
  obtain ⟨column, hcolumn, htype, hvalue⟩ : ∃ column,
      Alarms.schema.resolve Options.usual.fallback (.named "Alarm") rings = .ok column ∧
        column.type = .scalar .time ∧
        Alarms.schema.read Options.usual.nullGuard column alarm = .ok (.time ⟨Alarms.ten, none⟩) :=
    ⟨_, rfl, rfl, rfl⟩
  have ht : Alarms.schema.isOrdered column.type = true := by
    rw [htype]
    rfl
  rw [← htype] at hw
  obtain ⟨p, hp, hholds⟩ := ordering_answers Alarms.enumsDeclared hcolumn ht rfl hw
  have htyped : Alarms.schema.Typed column.type (.time ⟨Alarms.ten, none⟩) := by
    rw [htype]
    exact .scalar (.time _)
  exact ⟨column, _, hcolumn, ht, hw, p, hp, hvalue, (hholds alarm _ hvalue htyped).1 rfl⟩

/-- The same alarm cannot be compared with a time that has an offset, nor its volume with a decimal
that is no number: what is accepted fails on the record. -/
theorem ordering_fails :
    let rings : ColumnPath := ⟨["rings"], by decide, by decide⟩
    let volume : ColumnPath := ⟨["volume"], by decide, by decide⟩
    let compile (path : ColumnPath) (o : Operator) (text : String) :=
      compileFilter Alarms.schema .usual Predicate.usualRegistry (.named "Alarm")
        [.leaf path o (.plain text)]
    let alarm := Alarms.alarm ⟨Alarms.ten, none⟩
    ∃ p q, compile rings .lt "09:00+00:00" = .ok p ∧ compile volume .gt "NaN" = .ok q ∧
      p.holds Alarms.schema alarm = .error .unsupported ∧
      q.holds Alarms.schema alarm = .error .invalidOperation := by
  intro rings volume compile alarm
  have hread : Time.read? "09:00+00:00".toList =
      some ⟨⟨9, 0, 0, 0, by decide⟩, some .universal⟩ := by
    decide +kernel
  have htime := Alarms.coerce_time (o := .lt) rfl (by decide +kernel) hread
  -- a text that stands for no number is read as a decimal all the same
  have hnan : ScalarType.decimal.read? "NaN".toList = some (.decimal (.nan false false 0)) := by
    have hread : Decimal.read? "NaN".toList = some (.nan false false 0) := by decide +kernel
    rw [ScalarType.read?, hread, Option.map_some]
  have hnumber := coerceScalar_of_read? (s := Alarms.schema) (by decide) hnan
  exact ⟨_, _, compileFilter_leaf rfl rfl htime, compileFilter_leaf rfl rfl hnumber, rfl, rfl⟩

end RecordQuery
