import Mathlib.Data.List.Basic
import Mathlib.Order.Defs.LinearOrder
import RecordQuery.Predicate
import RecordQuery.Proofs.Coercion
import RecordQuery.Proofs.Sql.Rows

/-!
# One test in a clause and in memory

A test of a column of numbers, texts or truth values, by a clause about a row and by a predicate in
memory. What a clause does not know is false in memory: a test of null there fails as any other test
does. So the two agree on what is true, and a value that is not null is known to both.

* `Tells` is this agreement of a truth with the outcome of a test.
* `Schema.coerce_basic` — what a condition on such a column is compared with.
* `tells_usualClause` — all operators agree. Those that negate need a column that is not null, since
  the opposite of an unknown test is not known either, while the opposite of a failed test is true.
-/

namespace RecordQuery

open Sql Text

/-! ### Agreement -/

/-- A test in memory succeeds with the truth of a clause, where what is not known counts as false.
Under some condition the truth is known. -/
structure Sql.Tells (known : Prop) (t : Truth) (outcome : Except Fault Bool) : Prop where
  outcome_eq : outcome = .ok (t == some true)
  ne_none : known → t ≠ none

namespace Sql.Tells

variable {known known' : Prop} {t : Truth} {outcome : Except Fault Bool}

theorem of_some {b : Bool} (h : outcome = .ok b) : Tells known (some b) outcome :=
  ⟨by rw [h]; cases b <;> rfl, fun _ => Option.some_ne_none b⟩

theorem of_none (hknown : ¬known) (h : outcome = .ok false) : Tells known none outcome :=
  ⟨h, fun hk => absurd hk hknown⟩

theorem mono (h : Tells known t outcome) (himp : known' → known) : Tells known' t outcome :=
  ⟨h.outcome_eq, fun hk => h.ne_none (himp hk)⟩

theorem negate (h : Tells known t outcome) (hknown : known) :
    Tells known t.negate (outcome.map not) := by
  cases t with
  | none => exact absurd rfl (h.ne_none hknown)
  | some b =>
    rw [h.outcome_eq]
    exact of_some (by cases b <;> rfl)

end Sql.Tells

/-- The first of two alternatives decides if it is true. -/
theorem Sql.Tells.or {known : Prop} {t u : Truth} {x y : Except Fault Bool} (hx : Tells known t x)
    (hy : Tells known u y) :
    Tells known (Truth.combine .or t u) (do if ← x then .ok true else y) := by
  rw [hx.outcome_eq, ok_bind]
  -- the second outcome is asked for only where the first one is not true
  match t, u with
  | some true, some b => exact of_some rfl
  | some true, none => exact of_some rfl
  | some false, some b => exact ⟨hy.outcome_eq, fun _ => Option.some_ne_none b⟩
  | some false, none => exact hy
  | none, some true => exact ⟨hy.outcome_eq, fun _ => Option.some_ne_none true⟩
  | none, some false => exact ⟨hy.outcome_eq, fun hk => absurd rfl (hx.ne_none hk)⟩
  | none, none => exact hy

/-- The first of two conditions decides if it is false. -/
theorem Sql.Tells.and {known : Prop} {t u : Truth} {x y : Except Fault Bool} (hx : Tells known t x)
    (hy : Tells known u y) :
    Tells known (Truth.combine .and t u) (do if ← x then y else .ok false) := by
  rw [hx.outcome_eq, ok_bind]
  match t, u with
  | some false, some b => exact of_some rfl
  | some false, none => exact of_some rfl
  | some true, some b => exact ⟨hy.outcome_eq, fun _ => Option.some_ne_none b⟩
  | some true, none => exact hy
  | none, some true => exact ⟨rfl, fun hk => absurd rfl (hx.ne_none hk)⟩
  | none, some false => exact ⟨rfl, fun _ => Option.some_ne_none false⟩
  | none, none => exact ⟨rfl, fun hk => absurd rfl (hx.ne_none hk)⟩

/-! ### Order of texts -/

/-- The order of lists by numbers is that of their characters. -/
private theorem compareNats_map_toNat : ∀ cs ds : List Char,
    compareNats (cs.map Char.toNat) (ds.map Char.toNat) =
      if cs < ds then .lt else if cs = ds then .eq else .gt
  | [], [] => by simp [compareNats]
  | [], d :: ds => by simp [compareNats]
  | c :: cs, [] => by simp [compareNats]
  | c :: cs, d :: ds => by
    have ih := compareNats_map_toNat cs ds
    rw [List.map_cons, List.map_cons, compareNats, Nat.compare_eq_ite_lt]
    simp only [List.cons_lt_cons_iff, List.cons_eq_cons]
    -- characters are ordered by their numbers
    rcases Nat.lt_trichotomy c.toNat d.toNat with h | h | h
    · have hlt : c < d := h
      simp [h, hlt]
    · have heq : c = d := Char.toNat_inj.mp h
      subst heq
      simp [ih]
    · have hlt : ¬c < d := Nat.not_lt_of_gt h
      have hne : c ≠ d := by
        rintro rfl
        exact Nat.lt_irrefl _ h
      simp [h, hlt, hne, Nat.not_lt_of_gt h]

/-- **Texts are ordered by their characters.** -/
theorem Text.compare_eq (s t : String) :
    Text.compare s t = if s < t then .lt else if s = t then .eq else .gt := by
  rw [Text.compare, compareNats_map_toNat]
  simp only [String.lt_iff, String.ext_iff]

/-! ### Values of conditions -/

/-- What a raw text is as a value of a basic type, apart from null. -/
inductive SqlType.Reads (raw : RawText) : SqlType → Value → Prop
  | integer (n : Int) : Reads raw .integer (.int n)
  | text : Reads raw .text raw.value
  | boolean (b : Bool) : Reads raw .boolean (.bool b)

/-- Whether an operator compares a column of a type with a list of values. -/
def Operator.lists (o : Operator) (type : SqlType) : Bool :=
  o.takesList || o.isContainment && type != .text

namespace Schema

variable {s : Schema} {type : SqlType} {v : Value}

/-- A text is read as a value of a basic type, or as null. -/
theorem coerceScalar_basic (hbasic : type.isBasic = true) {raw : RawText}
    (h : s.coerceScalar raw type.valueType = .ok v) : v = .null ∨ type.Reads raw v := by
  -- a blank text is null for all types but texts, and is not looked at any further
  have hread : ∀ u : ScalarType, TypeExpr.isText (.scalar u) = false →
      s.coerceScalar raw (.scalar u) = .ok v →
        v = .null ∨ s.coerceText raw (trim raw.text.toList) (.scalar u) = .ok v := by
    intro u hu h
    simp only [coerceScalar, TypeExpr.present, hu] at h
    split at h
    · next hfalse => cases hfalse
    · split at h
      · cases h
        exact .inl rfl
      · exact .inr h
  cases type with
  | integer =>
    obtain rfl | h := hread .integer rfl h
    · exact .inl rfl
    · simp only [coerceText] at h
      split at h
      · next w hw =>
        cases h
        obtain ⟨n, -, rfl⟩ := Option.map_eq_some_iff.mp hw
        exact .inr (.integer n)
      · cases h
  | boolean =>
    obtain rfl | h := hread .boolean rfl h
    · exact .inl rfl
    · rw [coerceText] at h
      split at h
      · next b _ =>
        cases h
        exact .inr (.boolean b)
      · cases h
  | text =>
    cases h
    exact .inr .text
  | _ => cases hbasic

theorem coerceList_basic (hbasic : type.isBasic = true) {raw : RawText}
    (h : s.coerceList raw type.valueType = .ok v) :
    ∃ ws, v = .list ws ∧ ∀ w ∈ ws, w = .null ∨ ∃ p, type.Reads (.plain p) w := by
  obtain ⟨ws, rfl, hws⟩ := exists_of_coerceList h
  refine ⟨ws, rfl, fun w hw => ?_⟩
  obtain ⟨p, hp⟩ := hws w hw
  exact (coerceScalar_basic hbasic hp).imp_right fun h => ⟨_, h⟩

/-- **What a column of a basic type is compared with**: a list of values by some operators, and one
value by the others. -/
theorem coerce_basic (hbasic : type.isBasic = true) {raw : RawText} {o : Operator}
    (h : s.coerce raw type.valueType o = .ok v) :
    if o.lists type then ∃ ws, v = .list ws ∧ ∀ w ∈ ws, w = .null ∨ ∃ p, type.Reads (.plain p) w
    else v = .null ∨ type.Reads raw v := by
  have hpresent : type.valueType.present.1 = type.valueType := by
    cases type <;> rfl
  have helement : type.valueType.element? = none := by
    cases type <;> first | rfl | cases hbasic
  have htext : type.valueType.isText = (type == .text) := by
    cases type <;> first | rfl | cases hbasic
  simp only [coerce, hpresent, helement, htext] at h
  rw [Operator.lists]
  cases htakes : o.takesList with
  | true =>
    rw [htakes, if_pos rfl] at h
    exact coerceList_basic hbasic h
  | false =>
    rw [htakes, if_neg Bool.false_ne_true] at h
    cases hcontains : o.isContainment with
    | false =>
      rw [hcontains, if_neg Bool.false_ne_true] at h
      exact coerceScalar_basic hbasic h
    | true =>
      rw [hcontains, if_pos rfl] at h
      -- a part of a text is one value, and what is in a number is one of several
      by_cases hsame : type = .text
      · subst hsame
        exact coerceScalar_basic (s := s) hbasic h
      · rw [if_neg (by simpa using hsame)] at h
        rw [if_pos (by simpa using hsame)]
        exact coerceList_basic hbasic h

end Schema

/-! ### Comparisons -/

/-- The test in memory whether a value has another one in a place of its text. -/
def Sql.Place.test (place : Sql.Place) (actual expected : Value) : Except Fault Bool :=
  match place with
  | .anywhere => actual.contains expected
  | .start => actual.compareForms expected fun text part => part.isPrefixOf text
  | .finish => actual.compareForms expected fun text part => part.isSuffixOf text

section Comparisons

variable {type : SqlType} {raw : RawText} {x v : Value}

theorem SqlType.Reads.valueFor_text : Attribute.valueFor .text raw.value = .text raw.text := by
  cases raw <;> rfl

theorem SqlType.Reads.unwrapped (h : type.Reads raw v) :
    v.unwrapped = Attribute.valueFor type v := by
  cases h with
  | text => cases raw <;> rfl
  | _ => rfl

theorem eq_eq_eqScalar (hx : type.Holds x) (hv : type.Reads raw v) :
    x.eq v = Value.eqScalar x (Attribute.valueFor type v) := by
  rw [← hv.unwrapped]
  cases hx <;> cases hv <;> rfl

/-- Equality of numbers, texts and truth values. -/
theorem tells_eq (hx : type.Holds x) (hv : type.Reads raw v) :
    Tells (x.isNull = false) (compareTruth .eq x (Attribute.valueFor type v)) (x.eq v) := by
  rw [eq_eq_eqScalar hx hv]
  cases hx with
  | null =>
    refine Tells.of_none nofun ?_
    cases hv with
    | text =>
      rw [SqlType.Reads.valueFor_text]
      rfl
    | _ => rfl
  | integer a =>
    cases hv with
    | integer b =>
      refine Tells.of_some (congrArg Except.ok ?_)
      rw [Bool.eq_iff_iff, beq_iff_eq, Comparison.holds, beq_iff_eq]
      exact compare_eq_iff_eq.symm
  | text a =>
    cases hv
    rw [SqlType.Reads.valueFor_text]
    refine Tells.of_some (congrArg Except.ok ?_)
    rw [Bool.eq_iff_iff, beq_iff_eq, Comparison.holds, beq_iff_eq]
    -- texts are compared by their order, which decides equality
    by_cases hlt : a < raw.text
    · have hne : a ≠ raw.text := fun h => String.lt_irrefl _ (h ▸ hlt)
      simp [hlt, hne]
    · simp [hlt]
  | boolean a =>
    cases hv with
    | boolean b => cases a <;> cases b <;> exact Tells.of_some rfl

/-- Values of these types are equal as they are; only moments are aligned. -/
theorem equals_eq_eq (hx : type.Holds x) (v : Value) : x.equals v = x.eq v := by
  cases hx <;> cases v <;> rfl

/-- The order of numbers and of texts. -/
theorem tells_ordersAligned (hx : type.Holds x) (hv : type.Reads raw v) (htype : type ≠ .boolean)
    {c : Comparison} {t : OrderTest} (h : ∀ o, c.holds o = t.holds o) :
    Tells (x.isNull = false) (compareTruth c x (Attribute.valueFor type v))
      (x.ordersAligned t v) := by
  cases hx with
  | null => exact Tells.of_none nofun rfl
  | integer a =>
    cases hv with
    | integer b =>
      refine Tells.of_some ?_
      rw [h]
      cases t <;> rfl
  | text a =>
    cases hv
    rw [SqlType.Reads.valueFor_text]
    refine Tells.of_some ?_
    -- texts are ordered by code points on both sides
    rw [h, ← Text.compare_eq]
    cases raw <;> cases t <;> rfl
  | boolean a => exact absurd rfl htype

/-- Membership in a list of values. -/
theorem tells_anyOk (hx : type.Holds x) {ws : List Value}
    (hws : ∀ w ∈ ws, ∃ p, type.Reads (.plain p) w) :
    Tells (x.isNull = false) (amongTruth x ws) (Value.anyOk (Value.eq x) ws) := by
  induction ws with
  | nil => exact Tells.of_some rfl
  | cons w ws ih =>
    rw [List.forall_mem_cons] at hws
    obtain ⟨⟨p, hw⟩, hws⟩ := hws
    -- what is split off a list is a plain text, so nothing has to be taken out of it
    have hplain : Attribute.valueFor type w = w := by cases hw <;> rfl
    have hfirst := tells_eq hx hw
    rw [hplain] at hfirst
    exact hfirst.or (ih hws)

/-- Null is no element of such a list. -/
theorem anyOk_null {ws : List Value} (hws : ∀ w ∈ ws, ∃ p, type.Reads (.plain p) w) :
    Value.anyOk (Value.eq .null) ws = .ok false := by
  induction ws with
  | nil => rfl
  | cons w ws ih =>
    rw [List.forall_mem_cons] at hws
    obtain ⟨⟨p, hw⟩, hws⟩ := hws
    have hfirst : Value.eq .null w = .ok false := by cases hw <;> rfl
    rw [Value.anyOk, hfirst, ok_bind]
    exact ih hws

/-- A part of a text. -/
theorem tells_like (hx : SqlType.text.Holds x) (place : Sql.Place) (part : String) :
    Tells (x.isNull = false) (likeTruth place part x) (place.test x (.text part)) := by
  cases hx with
  | null =>
    refine Tells.of_none nofun ?_
    cases place <;> rfl
  | text a =>
    rw [likeTruth, fits_pattern]
    refine Tells.of_some ?_
    cases place <;> rfl

/-- What an operator that compares with one value is given. -/
private theorem reads_of_single (hbasic : type.isBasic = true) {s : Schema} {o : Operator}
    (h : s.coerce raw type.valueType o = .ok v) (hlists : o.lists type = false)
    (hnull : v.isNull = false) : type.Reads raw v := by
  have hshape := Schema.coerce_basic hbasic h
  rw [hlists, if_neg Bool.false_ne_true] at hshape
  obtain rfl | hread := hshape
  · cases hnull
  · exact hread

/-- What an operator that compares with several values is given. -/
private theorem reads_of_several (hbasic : type.isBasic = true) {s : Schema} {o : Operator}
    (h : s.coerce raw type.valueType o = .ok v) (hlists : o.lists type = true)
    (hnull : ∀ ws, v = .list ws → ∀ w ∈ ws, w.isNull = false) :
    ∃ ws, v = .list ws ∧ ∀ w ∈ ws, ∃ p, type.Reads (.plain p) w := by
  have hshape := Schema.coerce_basic hbasic h
  rw [hlists, if_pos rfl] at hshape
  obtain ⟨ws, rfl, hws⟩ := hshape
  refine ⟨ws, rfl, fun w hw => ?_⟩
  obtain rfl | hread := hws w hw
  · cases hnull ws rfl _ hw
  · exact hread

end Comparisons

/-! ### Operators -/

theorem label_refFor (ref : ColumnRef) (type : SqlType) (v : Value) :
    (Attribute.refFor ref type v).label = ref.label := by
  rw [Attribute.refFor.eq_def]
  split <;> rfl

section Operators

variable {type : SqlType} {raw : RawText} {v : Value} {db : Database} {row : Row} {ref : ColumnRef}
  {clause : Clause}

theorem tells_equals (hx : type.Holds (row ref.label)) (hv : type.Reads raw v)
    (hnull : v.isNull = false) (h : (Attribute.column ref type).equals v = .ok clause) :
    Tells ((row ref.label).isNull = false) (clause.truth db row) ((row ref.label).equals v) := by
  rw [Attribute.equals, hnull, if_neg Bool.false_ne_true] at h
  cases h
  rw [Clause.truth, label_refFor, equals_eq_eq hx]
  exact tells_eq hx hv

theorem tells_compares (hx : type.Holds (row ref.label)) (hv : type.Reads raw v) {c : Comparison}
    {t : OrderTest} (hc : ∀ o, c.holds o = t.holds o)
    (h : (Attribute.column ref type).compares c t v = .ok clause) :
    Tells ((row ref.label).isNull = false) (clause.truth db row)
      ((row ref.label).ordersAligned t v) := by
  rw [Attribute.compares] at h
  split at h
  · cases h
  · next hordered =>
    cases h
    -- an order of truth values is refused when the clause is made
    have htype : type ≠ .boolean := by
      rintro rfl
      cases hv with
      | boolean b => exact hordered rfl
    rw [Clause.truth, label_refFor]
    exact tells_ordersAligned hx hv htype hc

theorem tells_isAmong (hx : type.Holds (row ref.label)) {ws : List Value}
    (hws : ∀ w ∈ ws, ∃ p, type.Reads (.plain p) w)
    (h : (Attribute.column ref type).isAmong ws = .ok clause) :
    Tells ((row ref.label).isNull = false) (clause.truth db row)
      (Value.anyOk (row ref.label).eq ws) := by
  cases h
  exact tells_anyOk hx hws

/-- A pattern test needs a text to look for, and the column is one of texts. -/
theorem tells_hasPart (hx : type.Holds (row ref.label)) (hv : type.Reads raw v)
    (hplain : ∀ b e n w, v ≠ .member b e n w) {place : Sql.Place}
    (h : (Attribute.column ref type).hasPart place v = .ok clause) :
    Tells ((row ref.label).isNull = false) (clause.truth db row)
      (place.test (row ref.label) v) := by
  cases hv with
  | integer n => cases h
  | boolean b => cases h
  | text =>
    cases raw with
    -- a member of an enumeration is compared by its name here, by its value there
    | member e n s => exact absurd rfl (hplain .text e n (.text s))
    | plain s =>
      cases h
      exact tells_like hx place s

/-- Whether a value is among several ones, or is a text with a part in it. -/
theorem tells_contains (hbasic : type.isBasic = true) (hx : type.Holds (row ref.label))
    {s : Schema} {o : Operator} (hv : s.coerce raw type.valueType o = .ok v)
    (hvalue : v.isNull = false ∧ ∀ ws, v = .list ws → ∀ w ∈ ws, w.isNull = false)
    (hplain : ∀ b e n w, v ≠ .member b e n w)
    (h : (Attribute.column ref type).contains v = .ok clause) :
    Tells ((row ref.label).isNull = false) (clause.truth db row) ((row ref.label).contains v) := by
  cases hlists : o.lists type with
  | true =>
    obtain ⟨ws, rfl, hws⟩ := reads_of_several hbasic hv hlists hvalue.2
    -- null contains nothing, and no value of the list is null
    have hin : (row ref.label).contains (.list ws) = Value.anyOk (row ref.label).eq ws := by
      generalize row ref.label = x at hx
      cases hx with
      | null => exact (anyOk_null hws).symm
      | _ => rfl
    rw [hin]
    exact tells_isAmong hx hws h
  | false =>
    have hread := reads_of_single hbasic hv hlists hvalue.1
    -- a single value is no list, so the clause is a pattern test
    have hpart : (Attribute.column ref type).hasPart .anywhere v = .ok clause := by
      cases hread <;> first | exact h | (cases raw <;> exact h)
    exact tells_hasPart hx hread hplain hpart

/-- **One test.** A clause that tests a column of a basic type agrees with the test of the column's
value in memory. The operators that negate need a value that is not null, and patterns a text that
is not the name of a member of an enumeration. -/
theorem tells_usualClause (hbasic : type.isBasic = true) (hx : type.Holds (row ref.label))
    {s : Schema} {o : Operator} (hv : s.coerce raw type.valueType o = .ok v)
    (hvalue : v.isNull = false ∧ ∀ ws, v = .list ws → ∀ w ∈ ws, w.isNull = false)
    (hpattern : o.isTextual = true ∨ o.isContainment = true → ∀ b e n w, v ≠ .member b e n w)
    (hnegated : o = .neq ∨ o = .nct → (row ref.label).isNull = false)
    (h : (Attribute.column ref type).usualClause v o = .ok clause) :
    Tells ((row ref.label).isNull = false) (clause.truth db row)
      (Strategy.usualHolds o (row ref.label) v) := by
  have hread : o.lists type = false → type.Reads raw v :=
    fun hlists => reads_of_single hbasic hv hlists hvalue.1
  -- the negated operators negate their counterpart, for which no null may come in
  cases o with
  | eq => exact tells_equals hx (hread rfl) hvalue.1 h
  | neq =>
    rw [Attribute.usualClause] at h
    obtain ⟨c, hc, rfl⟩ := map_eq_ok_iff.mp h
    have hequals : Tells ((row ref.label).isNull = false) (c.truth db row)
        ((row ref.label).equals v) := tells_equals hx (hread rfl) hvalue.1 hc
    have htells := hequals.negate (hnegated (.inl rfl))
    rw [← Clause.truth_negate] at htells
    cases c <;> exact htells
  | gt => exact tells_compares hx (hread rfl) (fun _ => rfl) h
  | gte => exact tells_compares hx (hread rfl) (fun _ => rfl) h
  | lt => exact tells_compares hx (hread rfl) (fun _ => rfl) h
  | lte => exact tells_compares hx (hread rfl) (fun _ => rfl) h
  | ct => exact tells_contains hbasic hx hv hvalue (hpattern (.inr rfl)) h
  | nct =>
    rw [Attribute.usualClause] at h
    obtain ⟨c, hc, rfl⟩ := map_eq_ok_iff.mp h
    have hcontains : Tells ((row ref.label).isNull = false) (c.truth db row)
        ((row ref.label).contains v) := tells_contains hbasic hx hv hvalue (hpattern (.inr rfl)) hc
    have htells := hcontains.negate (hnegated (.inr rfl))
    rwa [← Clause.truth_negate] at htells
  | sw => exact tells_hasPart hx (hread rfl) (hpattern (.inl rfl)) h
  | ew => exact tells_hasPart hx (hread rfl) (hpattern (.inl rfl)) h
  | isIn =>
    obtain ⟨ws, rfl, hws⟩ := reads_of_several hbasic hv rfl hvalue.2
    have heq : (row ref.label).equals = (row ref.label).eq := funext (equals_eq_eq hx)
    simp only [Strategy.usualHolds, Value.isNull, Value.items?, Value.unwrapped, heq]
    exact tells_isAmong hx hws h

end Operators
end RecordQuery
