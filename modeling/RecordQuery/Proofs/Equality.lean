import RecordQuery.Proofs.Number.Comparison
import RecordQuery.Proofs.TextLists

/-!
# Tests of equality

The builder writes a value down as text, and the type of the column decides what the text is read
as. For texts, integers, truth values, decimals, identifiers and days this is the value itself, so
that the test is for equality with the value that was given. One value has no text of its own. Null
is written as the empty text, which is read as null again, but is itself a text. So a column of
texts cannot be tested for null: the test finds the empty text, and misses null.

* `Value.Same` — the reference for equality: one value, or two decimals of one number.
* `Schema.coerceScalar_written` — what the text of a value is read as (`ScalarType.comparand`).
* `equality_tests` — the result for conditions; `equality_misses_null` shows the exception.
-/

namespace RecordQuery

/-! ### Equal values -/

/-- The types at hand, whose values are written without loss. -/
def ScalarType.isVerbatim (t : ScalarType) : Bool :=
  [text, integer, boolean, decimal, uuid, date].contains t

namespace Value

/-- Whether two values are equal, decimals by the number that they are. -/
def Same : Value → Value → Prop
  | decimal x, decimal y => x.SameNumber y
  | v, w => v = w

variable {t : ScalarType} {v w : Value}

/-- Decimals are compared as numbers, but a signalling one makes the comparison fail. -/
theorem eq_decimal (x y : Decimal) : (decimal x).eq (decimal y) =
    if x.isSignaling || y.isSignaling then .error .invalidOperation
    else .ok (x.compare? y == some .eq) := rfl

theorem eq_decimal_iff (x y : Decimal) :
    (decimal x).eq (decimal y) = .ok true ↔ x.SameNumber y := by
  rw [eq_decimal, ← Decimal.compare?_eq_iff]
  split
  · next hsignaling =>
    -- a signalling decimal is no number, and so equal to nothing
    refine iff_of_false nofun ?_
    rw [Decimal.compare?_eq_iff]
    cases x <;> cases y <;> first | exact id | cases hsignaling
  · rw [Except.ok.injEq, beq_iff_eq]

theorem eq_null (h : t.Holds v) : v.eq null = .ok false ∧ null.eq v = .ok false := by
  cases h <;> exact ⟨rfl, rfl⟩

/-- **Equality** of null and the values of a type. -/
theorem eq_eq_true_iff (ht : t.isVerbatim = true) (hv : v = null ∨ t.Holds v)
    (hw : w = null ∨ t.Holds w) : v.eq w = .ok true ↔ v.Same w := by
  obtain rfl | hv := hv
  · obtain rfl | hw := hw
    · exact iff_of_true rfl rfl
    · rw [(eq_null hw).2]
      cases hw <;> exact iff_of_false nofun nofun
  · obtain rfl | hw := hw
    · rw [(eq_null hv).1]
      cases hv <;> exact iff_of_false nofun nofun
    · cases hv with
      | decimal x =>
        cases hw with
        | decimal y => exact eq_decimal_iff x y
      | text a | integer a | boolean a | uuid a | date a =>
        cases hw
        simp [Value.eq, eqScalar, unwrapped, Same]
      | _ => cases ht

/-- Whether a value signals on every use as a number. -/
def signals : Value → Bool
  | decimal x => x.isSignaling
  | _ => false

/-- Nothing else makes a comparison fail. -/
theorem succeeds_eq_of_signals (ht : t.isVerbatim = true) (hv : v = null ∨ t.Holds v)
    (hw : w = null ∨ t.Holds w) (hv' : v.signals = false) (hw' : w.signals = false) :
    Succeeds (v.eq w) := by
  obtain rfl | hv := hv
  · obtain rfl | hw := hw
    · exact .ok true
    · rw [(eq_null hw).2]
      exact .ok false
  · obtain rfl | hw := hw
    · rw [(eq_null hv).1]
      exact .ok false
    · cases hv with
      | decimal x =>
        -- decimals alone can signal
        cases hw with
        | decimal y =>
          rw [signals] at hv' hw'
          rw [eq_decimal, hv', hw']
          exact .ok _
      | text a | integer a | boolean a | uuid a | date a =>
        cases hw
        exact .ok _
      | _ => cases ht

end Value

/-! ### What is read from the text of a value -/

/-- What the text of a value is read as: the value itself, but the empty text for null where texts
are the type. -/
def ScalarType.comparand : ScalarType → Value → Value
  | text, .null => .text ""
  | _, v => v

section

variable {s : Schema} {t : ScalarType} {v : Value}

namespace ScalarType

theorem comparand_of_holds (h : t.Holds v) : t.comparand v = v := by
  cases h <;> rfl

theorem comparand_null (ht : t ≠ text) : t.comparand .null = .null := by
  cases t <;> first | rfl | exact absurd rfl ht

/-- The comparand is null or of the type, like the value. -/
theorem comparand_holds (hv : v = .null ∨ t.Holds v) :
    t.comparand v = .null ∨ t.Holds (t.comparand v) := by
  obtain rfl | hv := hv
  · by_cases ht : t = text
    · subst ht
      exact .inr (.text "")
    · exact .inl (comparand_null ht)
  · rw [comparand_of_holds hv]
    exact .inr hv

theorem signals_comparand (hv : v = .null ∨ t.Holds v)
    (hnumber : ∀ d, v = .decimal d → d.IsRepresentable) : (t.comparand v).signals = false := by
  obtain rfl | hv := hv
  · cases t <;> rfl
  · rw [comparand_of_holds hv]
    cases hv with
    | decimal d =>
      have hd := hnumber d rfl
      -- only a decimal that is no number could signal
      cases d with
      | nan negative signaling payload => exact hd.elim
      | _ => rfl
    | _ => rfl

/-- **The exception.** To compare with the comparand is to compare with the value, except for null
in a column of texts. -/
theorem comparand_same_iff (hv : v = .null ∨ t.Holds v) :
    (∀ w : Value, w.Same (t.comparand v) ↔ w.Same v) ↔ ¬ (t = text ∧ v = .null) := by
  constructor
  · rintro hsame ⟨rfl, rfl⟩
    exact nomatch (hsame .null).mpr rfl
  · intro hexception w
    obtain rfl | hv := hv
    · rw [comparand_null fun ht => hexception ⟨ht, rfl⟩]
    · rw [comparand_of_holds hv]

end ScalarType

/-- A value of a type at hand has a text that says all of it, if it can be written at all. Decimals
that are no number are left out. -/
theorem Value.hasText_of_holds (ht : t.isVerbatim = true) (htext : t ≠ .text) (hv : t.Holds v)
    (hnumber : ∀ d, v = .decimal d → d.IsRepresentable) {raw : RawText}
    (hwritten : v.written = .ok raw) : v.HasText t := by
  cases hv with
  | text a => exact absurd rfl htext
  | integer n =>
    refine .integer ?_
    -- a number of too many digits cannot be written
    by_contra hlong
    rw [Bool.not_eq_false] at hlong
    have hfault : (Value.int n).written = .error .invalidValue := by
      show ((unlessFault (if isTooLong n then _ else _) _).map RawText.plain) = _
      rw [hlong]
      rfl
    cases hwritten.symm.trans hfault
  | boolean b => exact .boolean b
  | decimal d => exact .decimal (hnumber d rfl)
  | uuid u => exact .uuid u
  | date d => exact .date d
  | _ => cases ht

/-- **The text of a value** is read as the comparand. -/
theorem Schema.coerceScalar_written (ht : t.isVerbatim = true) (hv : v = .null ∨ t.Holds v)
    (hnumber : ∀ d, v = .decimal d → d.IsRepresentable) {raw : RawText}
    (hwritten : v.written = .ok raw) :
    s.coerceScalar raw (.scalar t) = .ok (t.comparand v) := by
  obtain rfl | hv := hv
  · cases hwritten
    cases t <;> rfl
  · rw [ScalarType.comparand_of_holds hv]
    by_cases htext : t = .text
    · subst htext
      cases hv
      cases hwritten
      rfl
    · have hhas := Value.hasText_of_holds ht htext hv hnumber hwritten
      obtain ⟨cs, hcs⟩ := hhas.exists_isWrittenAs (s := s)
      obtain rfl := Except.ok.inj (hwritten.symm.trans hcs.written)
      obtain ⟨w, hw, hrestores⟩ := hcs.exists_coerceScalar
      cases hrestores with
      | same => exact hw
      | moved =>
        -- moments are not among the types at hand
        cases hv
        cases ht

end

/-! ### Conditions -/

/-- The leaf that is built from a value holds its text. -/
theorem Handle.exists_written_of_test {h : Handle} {o : Operator} {v : Value} {f : Filter}
    (hf : h.test o v = .ok f) : ∃ raw, v.written = .ok raw ∧ f = .leaf h.path o raw := by
  cases hwritten : v.written with
  | error fault =>
    rw [test, rawOf, hwritten] at hf
    cases hf
  | ok raw => exact ⟨raw, rfl, (eq_leaf_of_test hwritten hf).1⟩

section

variable {s : Schema} {options : Options} {type : TypeExpr} {column : ResolvedColumn} {h : Handle}
  {t : ScalarType} {v : Value}

theorem ResolvedColumn.isCollection_of_scalar (htype : column.type.present.1 = .scalar t) :
    column.isCollection = false := by
  show column.type.element?.isSome = false
  unfold TypeExpr.element?
  rw [htype]
  rfl

/-- The test for equality, or for the opposite, that is built from a value. -/
theorem compileFilter_of_test (hcolumn : s.resolve options.fallback type h.path = .ok column)
    (htype : column.type.present.1 = .scalar t) (ht : t.isVerbatim = true)
    (hv : v = .null ∨ t.Holds v) (hnumber : ∀ d, v = .decimal d → d.IsRepresentable)
    {o : Operator} (ho : o = .eq ∨ o = .neq) {f : Filter} (hf : h.test o v = .ok f) :
    compileFilter s options Predicate.usualRegistry type [f] =
      .ok (.test (.usual o) column options.nullGuard (t.comparand v)) := by
  obtain ⟨raw, hwritten, rfl⟩ := Handle.exists_written_of_test hf
  -- the value reads back as what it is compared as
  have hread : s.coerce raw column.type o = .ok (t.comparand v) := by
    rw [← Schema.coerceScalar_written ht hv hnumber hwritten, ← htype]
    obtain rfl | rfl := ho <;> rfl
  refine compileFilter_leaf hcolumn (checkOperator_of_single ?_ ?_ ?_) hread
  · exact ResolvedColumn.isCollection_of_scalar htype
  · obtain rfl | rfl := ho <;> rfl
  · obtain rfl | rfl := ho <;> rfl

/-- **Tests of equality.** Let a column of texts, integers, truth values, decimals, identifiers or
days be tested for equality with null or a value of its type, and for the opposite. Both conditions
are accepted. On every record in which the column is null or of its type, the first one holds
exactly if the value of the column equals the comparand, and the second one is its negation; they
answer unless the value is a signalling decimal. The comparand stands for the value itself in every
case but null in a column of texts. -/
theorem equality_tests (hcolumn : s.resolve options.fallback type h.path = .ok column)
    (htype : column.type.present.1 = .scalar t) (ht : t.isVerbatim = true)
    (hv : v = .null ∨ t.Holds v) (hnumber : ∀ d, v = .decimal d → d.IsRepresentable)
    {f g : Filter} (hf : h.test .eq v = .ok f) (hg : h.test .neq v = .ok g) :
    ∃ p q, compileFilter s options Predicate.usualRegistry type [f] = .ok p ∧
      compileFilter s options Predicate.usualRegistry type [g] = .ok q ∧
      (∀ record w, s.read options.nullGuard column record = .ok w → w = .null ∨ t.Holds w →
        (p.holds s record = .ok true ↔ w.Same (t.comparand v)) ∧
        q.holds s record = (p.holds s record).map not ∧
        (w.signals = false → Succeeds (p.holds s record))) ∧
      ((∀ w : Value, w.Same (t.comparand v) ↔ w.Same v) ↔ ¬ (t = .text ∧ v = .null)) := by
  have hp := compileFilter_of_test hcolumn htype ht hv hnumber (.inl rfl) hf
  have hq := compileFilter_of_test hcolumn htype ht hv hnumber (.inr rfl) hg
  refine ⟨_, _, hp, hq, fun record w hread hw => ?_, ScalarType.comparand_same_iff hv⟩
  have hcomparand := ScalarType.comparand_holds hv
  -- no moments are compared, so nothing is aligned
  have hmoment : ∀ m n, w = .dateTime m → t.comparand v ≠ .dateTime n := by
    rintro m n rfl -
    obtain hw | hw := hw
    · cases hw
    · cases hw
      cases ht
  have heq : (Strategy.usual .eq).holds w (t.comparand v) = w.eq (t.comparand v) :=
    Value.equals_eq_eq hmoment
  have hneq : (Strategy.usual .neq).holds w (t.comparand v) = (w.eq (t.comparand v)).map not :=
    congrArg (Except.map not) heq
  rw [Predicate.holds_test_of_read hread, Predicate.holds_test_of_read hread, heq, hneq]
  exact ⟨Value.eq_eq_true_iff ht hw hcomparand, rfl, fun hsignals =>
    Value.succeeds_eq_of_signals ht hw hcomparand hsignals (ScalarType.signals_comparand hv hnumber)⟩

end

/-! An example: articles with a price, and with a title that may be missing. -/

namespace Articles

/-- A schema of articles. -/
def schema : Schema :=
  ⟨[], [⟨"Article", [], .model
    [⟨"title", .optionalOf (.scalar .text), [], false, none⟩,
      ⟨"price", .scalar .decimal, [], false, none⟩],
    []⟩], .absent⟩

/-- An article. -/
def article (title price : Value) : Value :=
  .record ⟨.model, "Article", ["title", "price"], none⟩
    [("title", some title), ("price", some price)]

/-- The handle on the title. -/
def title : Handle := ⟨⟨["title"], by decide, by decide⟩, some (.named "Article")⟩

/-- The handle on the price. -/
def price : Handle := ⟨⟨["price"], by decide, by decide⟩, some (.named "Article")⟩

/-- The predicate of a condition on articles. -/
def compile (f : Filter) : Except Error Predicate :=
  compileFilter schema .usual Predicate.usualRegistry (.named "Article") [f]

theorem test_price (o : Operator) : price.test o (.decimal (.finite false 15 (-1))) =
    .ok (.leaf price.path o (.plain "1.5")) := rfl

end Articles

open Articles in
/-- Articles are asked for the price 1.5, which one of the price 1.50 has. -/
theorem equality_tests_of_article :
    let v : Value := .decimal (.finite false 15 (-1))
    ∃ column f g, schema.resolve Options.usual.fallback (.named "Article") price.path = .ok column ∧
      column.type.present.1 = .scalar .decimal ∧ price.test .eq v = .ok f ∧
      price.test .neq v = .ok g ∧ (∀ d, v = .decimal d → d.IsRepresentable) ∧
      ∃ p q, compile f = .ok p ∧ compile g = .ok q ∧
        ∀ name w : Value, w = .null ∨ ScalarType.decimal.Holds w →
          (p.holds schema (article name w) = .ok true ↔ w.Same v) ∧
          q.holds schema (article name w) = (p.holds schema (article name w)).map not := by
  intro v
  obtain ⟨column, hcolumn, htype, hread⟩ : ∃ column,
      schema.resolve Options.usual.fallback (.named "Article") price.path = .ok column ∧
        column.type.present.1 = .scalar .decimal ∧
        ∀ name w, schema.read false column (article name w) = .ok w :=
    ⟨_, rfl, rfl, fun _ _ => rfl⟩
  -- one and a half is a number that a decimal can be
  have hnumber : ∀ d, v = .decimal d → d.IsRepresentable := by
    intro d hd
    obtain rfl := Value.decimal.inj hd
    decide
  obtain ⟨p, q, hp, hq, hholds, -⟩ :=
    equality_tests hcolumn htype rfl (.inr (.decimal _)) hnumber (test_price .eq) (test_price .neq)
  refine ⟨column, _, _, hcolumn, htype, test_price .eq, test_price .neq, hnumber, p, q, hp, hq,
    fun name w hw => ?_⟩
  obtain ⟨hequal, hnegation, -⟩ := hholds _ w (hread name w) hw
  exact ⟨hequal, hnegation⟩

open Articles in
/-- Articles are asked for those without a title. The test misses an article whose title is null,
and finds one whose title is the empty text. -/
theorem equality_misses_null :
    let untitled := article .null (.decimal (.finite false 1 0))
    let empty := article (.text "") (.decimal (.finite false 1 0))
    ∃ f g p q, title.test .eq .null = .ok f ∧ title.test .neq .null = .ok g ∧
      compile f = .ok p ∧ compile g = .ok q ∧
      p.holds schema untitled = .ok false ∧ q.holds schema untitled = .ok true ∧
      p.holds schema empty = .ok true ∧ q.holds schema empty = .ok false := by
  intro untitled empty
  exact ⟨_, _, _, _, rfl, rfl, rfl, rfl, rfl, rfl, rfl, rfl⟩

end RecordQuery
