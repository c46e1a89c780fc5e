import RecordQuery.Proofs.Fingerprint
import RecordQuery.Proofs.Qualified
import RecordQuery.Proofs.Sql.Test
import RecordQuery.Sql.Filter

/-!
# Clauses and predicates agree

A filter over a mapped type becomes a clause about the rows of its table and a predicate over their
objects. A row is selected exactly when the predicate accepts its object.

* `Database.Mirrors` is this agreement for the rows of one type, `mirrors_throughRelations` carries
  it from the row at the end of a path to the row at its beginning, and `mirrors_quantified` from
  the elements of a collection to the row that has them.
* `mirrors_compileNode`, by the recursion of the walk over a filter.
* `compileClause_agrees`, `compileClause_agrees_with_null` — without null the clause is true or
  false as the predicate is; with null the clause selects the rows that the predicate accepts.

That every element satisfies a condition is a negation in a clause, and so nothing may be unknown
below it. This is why the columns that are tested right below `all` must not be null.
-/

namespace RecordQuery

open Sql Sql.Database

/-! ### Lengths of columns -/

namespace ColumnPath

/-- The length of the column of an enclosing quantifier. -/
def scopeLength (scope : Option ColumnPath) : Nat := scope.elim 0 length

theorem length_within {scope : Option ColumnPath} {p q : ColumnPath} (h : p.within scope = .ok q) :
    scopeLength scope + q.length = p.length := by
  cases scope with
  | none =>
    cases h
    exact Nat.zero_add _
  | some c =>
    obtain ⟨hbelow, hq⟩ := relativeTo_eq_ok_iff.mp h
    have hlength : c.length < p.length := (isBelow_iff.mp hbelow).1
    simp only [scopeLength, Option.elim, length, hq, List.length_drop]
    exact Nat.add_sub_cancel' (Nat.le_of_lt hlength)

end ColumnPath

/-! ### Tests at the end of a path -/

namespace Schema

/-- A test of what is read along some hops, without a guard against null. -/
def testAlong (s : Schema) (hops : List Hop) (test : Value → Except Fault Bool) (v : Value) :
    Except Fault Bool := do
  test (← s.readFrom none hops v)

theorem testAlong_nil (s : Schema) (test : Value → Except Fault Bool) :
    s.testAlong [] test = test := rfl

theorem testAlong_cons (s : Schema) (hop : Hop) (hops : List Hop)
    (test : Value → Except Fault Bool) :
    s.testAlong (hop :: hops) test =
      (fun v => do s.testAlong hops test (← s.readMember v hop.name)) := by
  funext v
  rw [testAlong, readFrom.eq_def]
  split
  · next h => cases h
  · next h =>
    cases h
    split
    · next h => cases h
    · exact bind_assoc _ _ _

end Schema

/-! ### Agreement about rows -/

/-- Whether some or every element of a list satisfies a test. -/
def Quantifier.holds {α : Type} (q : Quantifier) (as : List α) (f : α → Bool) : Bool :=
  match q with
  | .any => as.any f
  | .all => as.all f

namespace Sql.Database

/-- A test of the objects of the rows of a type tells what is said about the rows, where the objects
are unfolded so many steps deep. -/
def Mirrors (db : Database) (s : Schema) (name : String) (depth : Nat) (known : Prop)
    (truth : Row → Truth) (test : Value → Except Fault Bool) : Prop :=
  ∀ t, s.table? name = some t → ∀ row ∈ db.rows t.name,
    Tells known (truth row) (test (db.object s depth name row))

variable {s : Schema} {db : Database}

theorem exists_table_of_related {t : Table} {r : Relation} {link : RowLink}
    (h : s.link? t r = some link) {row other : Row} (hmem : other ∈ db.related link row) :
    ∃ target, s.table? r.target = some target ∧ other ∈ db.rows target.name := by
  obtain ⟨target, htarget, hname⟩ := Schema.table_of_link? h
  refine ⟨target, htarget, ?_⟩
  rw [← hname]
  exact List.mem_of_mem_filter hmem

/-- A reference leads to one row, so what is said about some related row is said about this one. -/
theorem mirrors_reference (hs : s.PropertiesApart) (hdb : db.Fits s) {name : String} {t : Table}
    (ht : s.table? name = some t) {r : Relation} {m column : String}
    (hr : t.relation? m = some r) (hone : r.link = .toOne column) {link : RowLink}
    (hlink : s.link? t r = some link) {depth : Nat} {known : Prop} {inner : Clause}
    {test : Value → Except Fault Bool}
    (h : db.Mirrors s r.target depth known (fun row => inner.truth db row) test) :
    db.Mirrors s name (depth + 1) known (fun row => (Clause.related link inner.asPart).truth db row)
      (fun v => do test (← s.readMember v m)) := by
  intro t' ht' row hrow
  cases ht.symm.trans ht'
  -- a reference that is not null leads to one row, whose object the member has
  obtain ⟨other, hother⟩ := hdb.present ht hrow (List.mem_of_find?_eq_some hr) hone hlink
  obtain ⟨target, htarget, hmem⟩ :=
    exists_table_of_related hlink (hother ▸ List.mem_singleton_self other)
  have htells := h target htarget other hmem
  change Tells known ((Clause.related link inner.asPart).truth db row)
    (s.readMember (db.object s (depth + 1) name row) m >>= test)
  rw [readMember_object_relation hs ht hr hlink, hother, ok_bind, relationValue, hone,
    Clause.truth, hother]
  simp only [List.any_cons, List.any_nil, Bool.or_false, Clause.truth_asPart]
  exact Tells.of_some htells.outcome_eq

/-- **Hops.** What is said about the row at the end of a path of references is told by a test of
what is read along the path. -/
theorem mirrors_throughRelations (hs : s.PropertiesApart) (hdb : db.Fits s) {c : ResolvedColumn}
    {terminal : Hop} {inner : Clause} :
    ∀ {hops : List Hop} {name : String} {clause : Clause},
      s.Chained (.named name) (hops ++ [terminal]) →
      (∀ hop ∈ hops, hop.type.element? = none) →
      hops.foldrM (fun hop inner => (s.requireLink c hop).map fun link =>
        .related link inner.asPart) inner = .ok clause →
      ∃ last, s.Chained (.named last) [terminal] ∧
        ∀ {known : Prop} {test : Value → Except Fault Bool} {depth : Nat},
          db.Mirrors s last depth known (fun row => inner.truth db row)
              (s.testAlong [terminal] test) →
            db.Mirrors s name (hops.length + depth) known (fun row => clause.truth db row)
              (s.testAlong (hops ++ [terminal]) test)
  | [], name, clause, hchained, _, h => by
    cases h
    -- without hops the last row is the first one
    refine ⟨name, hchained, fun {known test depth} hlast => ?_⟩
    rwa [List.length_nil, Nat.zero_add, List.nil_append]
  | hop :: hops, name, clause, hchained, hsingle, h => by
    obtain ⟨hfirst, hothers⟩ := List.forall_mem_cons.mp hsingle
    -- the clause is made from the end of the path, so the first hop is around all others
    rw [List.foldrM_cons] at h
    obtain ⟨rest, hrest, h⟩ := bind_eq_ok_iff.mp h
    obtain ⟨link, hlink, rfl⟩ := map_eq_ok_iff.mp h
    cases hchained with
    | @cons _ ms m _ members mem htail =>
      obtain ⟨t, r, ht, hr, hlinked, rfl⟩ := Schema.relation_of_requireLink members mem hlink
      -- a hop before the last one is no collection, so it is a reference
      obtain ⟨column, hone⟩ : ∃ column, r.link = .toOne column := by
        cases hr : r.link with
        | toOne column => exact ⟨column, rfl⟩
        | toMany =>
          simp only [Hop.ofMember, Member.ofRelation, hr] at hfirst
          cases hfirst
      have htarget : (Member.ofRelation r).type = .named r.target := by
        rw [Member.ofRelation, hone]
      rw [htarget] at htail
      obtain ⟨last, hlast, hmirrors⟩ := mirrors_throughRelations hs hdb htail hothers hrest
      refine ⟨last, hlast, fun {known test depth} h => ?_⟩
      rw [List.cons_append, Schema.testAlong_cons, List.length_cons, Nat.add_right_comm]
      exact mirrors_reference hs hdb ht hr hone hlinked (hmirrors h)

/-- Tests of all elements, in the order of the rows. -/
private theorem quantify_map {α : Type} {rows : List α} {objectOf : α → Value}
    {test : Value → Except Fault Bool} {f : α → Bool}
    (h : ∀ a ∈ rows, test (objectOf a) = .ok (f a)) (q : Quantifier) :
    Predicate.quantify q test (rows.map objectOf) = .ok (q.holds rows f) := by
  induction rows with
  | nil => cases q <;> rfl
  | cons a rows ih =>
    obtain ⟨hfirst, hrest⟩ := List.forall_mem_cons.mp h
    have ih := ih hrest
    -- the first row decides, or else the others do
    cases q with
    | any =>
      rw [Predicate.quantify, Quantifier.holds] at ih ⊢
      rw [List.map_cons, Predicate.anyOk, hfirst, ok_bind, List.any_cons]
      cases f a with
      | true => rfl
      | false => exact ih
    | all =>
      rw [Predicate.quantify, Quantifier.holds] at ih ⊢
      rw [List.map_cons, Predicate.allOk, hfirst, ok_bind, List.all_cons]
      cases f a with
      | true => exact ih
      | false => rfl

/-- That some row satisfies a condition, or that there is none that does not. The latter says that
all of them do only where it is known of each. -/
private theorem truth_quantifiedClause {q : Quantifier} {link : RowLink} {inner clause : Clause}
    (h : quantifiedClause link inner q = .ok clause) {row : Row}
    (hknown : q = .all → ∀ other ∈ db.related link row, inner.truth db other ≠ none) :
    clause.truth db row =
      some (q.holds (db.related link row) fun other => inner.truth db other == some true) := by
  cases q with
  | any =>
    cases h
    simp only [Clause.truth, Clause.truth_asPart, Quantifier.holds]
  | all =>
    obtain rfl : Clause.negate (.related link inner.negate) = clause := by
      cases inner with
      | verdict b => cases h
      | _ => exact Except.ok.inj h
    -- an unknown truth is not true either way, so it has to be known for the negation to swap it
    have hopposite : ∀ other ∈ db.related link row,
        (inner.negate.truth db other == some true) = !(inner.truth db other == some true) := by
      intro other hother
      rw [Clause.truth_negate]
      have hne := hknown rfl other hother
      cases ht : inner.truth db other with
      | none => exact absurd ht hne
      | some b => cases b <;> rfl
    rw [Clause.truth_negate, Clause.truth, Truth.negate, Option.map_some, Quantifier.holds,
      Option.some_inj, Bool.eq_iff_iff, Bool.not_eq_true', List.any_eq_false, List.all_eq_true]
    refine forall₂_congr fun other hother => ?_
    rw [hopposite other hother, Bool.not_eq_true, Bool.not_eq_false']

/-- **Elements.** What is said about some or all rows of a collection is told by the tests of its
elements. -/
theorem mirrors_quantified (hs : s.PropertiesApart) {name : String} {t : Table}
    (ht : s.table? name = some t) {r : Relation} {m : String} (hr : t.relation? m = some r)
    (hmany : r.link = .toMany) {link : RowLink} (hlink : s.link? t r = some link) {depth : Nat}
    {known known' : Prop} {q : Quantifier} (hknown : q = .all → known) {inner clause : Clause}
    (hclause : quantifiedClause link inner q = .ok clause) {test : Value → Except Fault Bool}
    (h : db.Mirrors s r.target depth known (fun row => inner.truth db row) test) :
    db.Mirrors s name (depth + 1) known' (fun row => clause.truth db row)
      (fun v => do
        Predicate.quantify q test (← Predicate.elementsOf (← s.readMember v m))) := by
  intro t' ht' row hrow
  cases ht.symm.trans ht'
  -- the object of a row has the objects of the related rows as its elements
  have htells : ∀ other ∈ db.related link row,
      Tells known (inner.truth db other) (test (db.object s depth r.target other)) := by
    intro other hother
    obtain ⟨target, htarget, hmem⟩ := exists_table_of_related hlink hother
    exact h target htarget other hmem
  change Tells known' (clause.truth db row) (s.readMember (db.object s (depth + 1) name row) m >>=
    fun w => Predicate.elementsOf w >>= fun ws => Predicate.quantify q test ws)
  rw [readMember_object_relation hs ht hr hlink, ok_bind, relationValue, hmany]
  change Tells known' _
    (Predicate.quantify q test ((db.related link row).map (db.object s depth r.target)))
  rw [quantify_map fun other hother => (htells other hother).outcome_eq,
    truth_quantifiedClause hclause fun hq other hother => (htells other hother).ne_none (hknown hq)]
  exact Tells.of_some rfl

/-- The column that a hop reads is null in no row of its table. -/
def NeverNull (db : Database) (s : Schema) (hop : Hop) : Prop :=
  ∀ name t c, hop.owner = .named name → s.table? name = some t → t.column? hop.name = some c →
    ∀ row ∈ db.rows t.name, (row c.label).isNull = false

/-- No column is null in any row. -/
def NullFree (db : Database) (s : Schema) : Prop := ∀ hop, db.NeverNull s hop

/-- **One column.** What is said about a column of a row is told by the test of this member. -/
theorem mirrors_column (hs : s.PropertiesApart) (hdb : db.Fits s) {name : String} {terminal : Hop}
    (hchained : s.Chained (.named name) [terminal]) {ref : ColumnRef} {type : SqlType}
    (hcolumn : s.attributeAt terminal = .ok (.column ref type)) (hbasic : type.isBasic = true)
    {raw : RawText} {o : Operator} {v : Value} (hv : s.coerce raw terminal.type o = .ok v)
    (hvalue : v.isNull = false ∧ ∀ ws, v = .list ws → ∀ w ∈ ws, w.isNull = false)
    (hpattern : o.isTextual = true ∨ o.isContainment = true → ∀ b e n w, v ≠ .member b e n w)
    {known : Prop} (hfull : known ∨ o = .neq ∨ o = .nct → db.NeverNull s terminal)
    {inner : Clause} (h : (Attribute.column ref type).usualClause v o = .ok inner) (depth : Nat) :
    db.Mirrors s name depth known (fun row => inner.truth db row)
      (s.testAlong [terminal] fun w => Strategy.usualHolds o w v) := by
  cases hchained with
  | @cons _ ms m _ members mem _ =>
    obtain ⟨t, c, ht, hc, -, hlabel, rfl, rfl⟩ := Schema.column_of_attributeAt members mem hcolumn
    intro t' ht' row hrow
    cases ht.symm.trans ht'
    have hx : c.type.Holds (row ref.label) := by
      rw [hlabel]
      exact hdb.typed ht hrow (List.mem_of_find?_eq_some hc) hbasic
    have hnotNull : known ∨ o = .neq ∨ o = .nct → (row ref.label).isNull = false := by
      intro hk
      rw [hlabel]
      exact hfull hk name t c rfl ht hc row hrow
    -- the test itself is known as soon as the value is not null
    have htest : Tells ((row ref.label).isNull = false) (inner.truth db row)
        (Strategy.usualHolds o (row ref.label) v) :=
      tells_usualClause hbasic hx hv hvalue hpattern (fun ho => hnotNull (.inr ho)) h
    have htells := htest.mono fun hk => hnotNull (.inl hk)
    rw [Schema.testAlong_cons, Schema.testAlong_nil]
    change Tells known (inner.truth db row)
      (s.readMember (db.object s depth name row) (Member.ofColumn c).name >>= fun w =>
        Strategy.usualHolds o w v)
    rw [readMember_object_column hs ht hc, ok_bind, ← hlabel]
    exact htells

end Sql.Database

/-! ### Conditions -/

/-- A condition that tests a column of numbers, texts or truth values against values of which none
is null. A part that is looked for in a text is a text that is not the name of a member of an
enumeration. -/
structure Condition.IsPlain (s : Schema) (c : Condition) : Prop where
  column : ∃ ref type, s.attributeAt c.column.terminal = .ok (.column ref type) ∧
    type.isBasic = true
  value : c.value.isNull = false ∧ ∀ ws, c.value = .list ws → ∀ w ∈ ws, w.isNull = false
  unnamed : c.operator.isTextual = true ∨ c.operator.isContainment = true →
    ∀ b e n w, c.value ≠ .member b e n w

namespace Filter

mutual

/-- All conditions of a filter about records of a type have a property, which may depend on the
nearest quantifier around them. -/
def EachCondition (s : Schema) (options : Options) (P : Option Quantifier → Condition → Prop)
    (owner : TypeExpr) (scope : Option ColumnPath) (nearest : Option Quantifier) : Filter → Prop
  | leaf path o raw => ∀ c, s.condition options owner scope path o raw = .ok c → P nearest c
  | group _ fs => EachConditions s options P owner scope nearest fs
  | quantified q path fs =>
    ∀ column element, Backend.collection s options owner scope q path = .ok (column, element) →
      EachConditions s options P element (some path) (some q) fs
termination_by structural f => f

/-- All conditions of several filters have a property. -/
def EachConditions (s : Schema) (options : Options) (P : Option Quantifier → Condition → Prop)
    (owner : TypeExpr) (scope : Option ColumnPath) (nearest : Option Quantifier) :
    List Filter → Prop
  | [] => True
  | f :: fs => EachCondition s options P owner scope nearest f ∧
      EachConditions s options P owner scope nearest fs
termination_by structural fs => fs

end

mutual

theorem EachCondition.mono {s : Schema} {options : Options}
    {P Q : Option Quantifier → Condition → Prop} (himp : ∀ nearest c, P nearest c → Q nearest c) :
    ∀ {f : Filter} {owner : TypeExpr} {scope : Option ColumnPath} {nearest : Option Quantifier},
      f.EachCondition s options P owner scope nearest →
      f.EachCondition s options Q owner scope nearest
  | leaf _ _ _, _, _, nearest, h => fun c hc => himp nearest c (h c hc)
  | group _ _, _, _, _, h => EachConditions.mono himp h
  | quantified _ _ _, _, _, _, h => fun column element hcollection =>
    EachConditions.mono himp (h column element hcollection)

theorem EachConditions.mono {s : Schema} {options : Options}
    {P Q : Option Quantifier → Condition → Prop} (himp : ∀ nearest c, P nearest c → Q nearest c) :
    ∀ {fs : List Filter} {owner : TypeExpr} {scope : Option ColumnPath}
      {nearest : Option Quantifier}, EachConditions s options P owner scope nearest fs →
      EachConditions s options Q owner scope nearest fs
  | [], _, _, _, _ => trivial
  | _ :: _, _, _, _, h => ⟨EachCondition.mono himp h.1, EachConditions.mono himp h.2⟩

end

end Filter

/-! ### The walk over a filter -/

section
variable {s : Schema} {options : Options}

/-- A column that is resolved below the column of a quantifier. -/
theorem leading_of_resolveIn {owner : TypeExpr} {scope : Option ColumnPath} {path : ColumnPath}
    {column : ResolvedColumn} (h : s.resolveIn options owner scope path = .ok column) :
    s.Chained owner column.hops ∧ (∀ hop ∈ column.leading, hop.type.element? = none) ∧
      ColumnPath.scopeLength scope + (column.leading.length + 1) = path.length := by
  have hchained := Schema.chained_of_resolveIn h
  obtain ⟨relative, hrelative, h⟩ := bind_eq_ok_iff.mp h
  obtain ⟨hlength, hleading⟩ := Schema.leading_of_resolve h
  refine ⟨hchained, hleading, ?_⟩
  rw [hlength]
  exact ColumnPath.length_within hrelative

theorem require_usualClauses (o : Operator) : usualClauses.require o = .ok (.usual o) := by
  cases o <;> rfl

variable {db : Database} {known : Option Quantifier → Prop}

/-- What is needed of a condition: the test of a column that may be null is not known, and so it may
be no test that negates, and no test in a place where the clause has to be known. -/
def Condition.Suits (s : Schema) (db : Database) (known : Option Quantifier → Prop)
    (nearest : Option Quantifier) (c : Condition) : Prop :=
  c.IsPlain s ∧
    (known nearest ∨ c.operator = .neq ∨ c.operator = .nct → db.NeverNull s c.column.terminal)

/-- **Leaves.** -/
theorem mirrors_leaf (hs : s.PropertiesApart) (hdb : db.Fits s) (hguard : options.nullGuard = false)
    {path : ColumnPath} {o : Operator} {raw : RawText} {name : String} {scope : Option ColumnPath}
    {nearest : Option Quantifier} {clause : Clause}
    (h : (clauseBackend s usualClauses).compileNode s options (.named name) scope
      (.leaf path o raw) = .ok clause)
    (hsuits : (Filter.leaf path o raw).EachCondition s options (Condition.Suits s db known)
      (.named name) scope nearest) :
    ∃ p, (usualBackend options).compileNode s options (.named name) scope
        (.leaf path o raw) = .ok p ∧
      ∀ depth, path.length ≤ ColumnPath.scopeLength scope + depth →
        db.Mirrors s name depth (known nearest) (fun row => clause.truth db row) (p.holds s) := by
  obtain ⟨c, hc, hclause⟩ := bind_eq_ok_iff.mp h
  obtain ⟨⟨⟨ref, type, hattribute, hbasic⟩, hvalue, hunnamed⟩, hfull⟩ := hsuits c hc
  refine ⟨.test (.usual c.operator) c.column options.nullGuard c.value, ?_, fun depth hdepth => ?_⟩
  · rw [Backend.compileNode, hc, ok_bind, condition_usualBackend]
  · obtain ⟨hcolumn, -, hv, rfl⟩ := Schema.condition_eq_ok_iff.mp hc
    obtain ⟨hchained, hsingle, hlength⟩ := leading_of_resolveIn hcolumn
    -- the clause tests the attribute, and asks for the rows on the way to it
    obtain ⟨member, hmember, hclause⟩ := bind_eq_ok_iff.mp hclause
    cases hattribute.symm.trans hmember
    obtain ⟨strategy, hstrategy, hclause⟩ := bind_eq_ok_iff.mp hclause
    cases (require_usualClauses c.operator).symm.trans hstrategy
    obtain ⟨inner, hinner, hthrough⟩ := bind_eq_ok_iff.mp hclause
    -- one step of the unfolded object for each hop on the way
    obtain ⟨rest, rfl⟩ : ∃ rest, depth = c.column.leading.length + rest :=
      Nat.exists_eq_add_of_le (by omega)
    obtain ⟨last, hlast, hmirrors⟩ := mirrors_throughRelations hs hdb hchained hsingle hthrough
    rw [hguard]
    exact hmirrors (mirrors_column hs hdb hlast hattribute hbasic hv hvalue hunnamed hfull
      (liftFault_eq_ok_iff.mp hinner) rest)

/-- **Quantifiers.** What is said about the elements of a collection at the end of a path. -/
theorem mirrors_collection (hs : s.PropertiesApart) (hdb : db.Fits s) {path : ColumnPath}
    {name : String} {scope : Option ColumnPath} {column : ResolvedColumn}
    (hcolumn : s.resolveIn options (.named name) scope path = .ok column) {element : TypeExpr}
    (helement : column.element? = some element) {q : Quantifier} {body clause : Clause}
    (h : (clauseBackend s usualClauses).quantified q column body = .ok clause) :
    ∃ target, element = .named target ∧
      ∀ {known known' : Prop} {test : Value → Except Fault Bool} {depth : Nat},
        (q = .all → known) →
        db.Mirrors s target depth known (fun row => body.truth db row) test →
        db.Mirrors s name (column.leading.length + (depth + 1)) known'
          (fun row => clause.truth db row)
          (s.testAlong column.hops fun v => do
            Predicate.quantify q test (← Predicate.elementsOf v)) := by
  obtain ⟨hchained, hsingle, -⟩ := leading_of_resolveIn hcolumn
  -- the collection is a relation, and the clause asks for the rows on the way to it
  simp only [clauseBackend] at h
  split at h
  · obtain ⟨link, hlink, h⟩ := bind_eq_ok_iff.mp h
    obtain ⟨inner, hinner, hthrough⟩ := bind_eq_ok_iff.mp h
    obtain ⟨last, hlast, hmirrors⟩ := mirrors_throughRelations hs hdb hchained hsingle hthrough
    rw [ResolvedColumn.hops]
    generalize hterminal : column.terminal = terminal at *
    cases hlast with
    | @cons _ ms m _ members mem _ =>
      obtain ⟨t, r, ht, hr, hlinked, rfl⟩ := Schema.relation_of_requireLink members mem hlink
      have helements : (Member.ofRelation r).type.element? = some element := by
        rw [← helement, ResolvedColumn.element?, ResolvedColumn.type, hterminal]
        rfl
      cases hmany : r.link with
      | toOne column =>
        simp only [Member.ofRelation, hmany] at helements
        cases helements
      | toMany =>
        simp only [Member.ofRelation, hmany] at helements
        cases helements
        refine ⟨r.target, rfl, fun {known known' test depth} hknown htest => hmirrors ?_⟩
        rw [Schema.testAlong_cons, Schema.testAlong_nil]
        exact mirrors_quantified hs ht hr hmany hlinked hknown hinner htest
  · cases h

/-- What is said by joining no clauses. -/
private theorem mirrors_group_nil (k : Connective) (name : String) (depth : Nat) (known : Prop) :
    db.Mirrors s name depth known (fun row => Truth.joinAll k (Clause.truths db [] row))
      (((usualBackend options).group k []).holds s) := by
  intro t _ row _
  rw [Token.holds_group]
  cases k <;> exact Tells.of_some rfl

/-- What is said by joining one clause with others. -/
private theorem mirrors_group_cons (k : Connective) {name : String} {depth : Nat} {known : Prop}
    {c : Clause} {cs : List Clause} {p : Predicate} {ps : List Predicate}
    (h : db.Mirrors s name depth known (fun row => c.truth db row) (p.holds s))
    (hrest : db.Mirrors s name depth known (fun row => Truth.joinAll k (Clause.truths db cs row))
      (((usualBackend options).group k ps).holds s)) :
    db.Mirrors s name depth known (fun row => Truth.joinAll k (Clause.truths db (c :: cs) row))
      (((usualBackend options).group k (p :: ps)).holds s) := by
  intro t ht row hrow
  have hfirst := h t ht row hrow
  have hothers := hrest t ht row hrow
  rw [Token.holds_group] at hothers ⊢
  cases k with
  | and => exact hfirst.and hothers
  | or => exact hfirst.or hothers

/-- A group of clauses says what its parts say when they are joined. -/
private theorem mirrors_group (k : Connective) {name : String} {depth : Nat} {known : Prop}
    {cs : List Clause} {ps : List Predicate}
    (h : db.Mirrors s name depth known (fun row => Truth.joinAll k (Clause.truths db cs row))
      (((usualBackend options).group k ps).holds s)) :
    db.Mirrors s name depth known
      (fun row => ((clauseBackend s usualClauses).group k cs).truth db row)
      (((usualBackend options).group k ps).holds s) := by
  intro t ht row hrow
  have htells : Tells known (Truth.joinAll k (Clause.truths db cs row)) _ := h t ht row hrow
  rw [← Clause.truth_joinAll] at htells
  cases k <;> exact htells

mutual

/-- **One filter.** -/
theorem mirrors_compileNode (hs : s.PropertiesApart) (hdb : db.Fits s)
    (hguard : options.nullGuard = false) (hall : known (some .all)) :
    ∀ (f : Filter) {name : String} {scope : Option ColumnPath} {nearest : Option Quantifier}
      {clause : Clause},
      (clauseBackend s usualClauses).compileNode s options (.named name) scope f = .ok clause →
      f.EachCondition s options (Condition.Suits s db known) (.named name) scope nearest →
      ∃ p, (usualBackend options).compileNode s options (.named name) scope f = .ok p ∧
        ∀ depth, (∀ c ∈ f.columns, c.length ≤ ColumnPath.scopeLength scope + depth) →
          db.Mirrors s name depth (known nearest) (fun row => clause.truth db row) (p.holds s)
  | .leaf path o raw, name, scope, nearest, clause, h, hsuits => by
    obtain ⟨p, hp, hmirrors⟩ := mirrors_leaf hs hdb hguard h hsuits
    exact ⟨p, hp, fun depth hdepth => hmirrors depth (hdepth path List.mem_cons_self)⟩
  | .group k fs, name, scope, nearest, clause, h, hsuits => by
    obtain ⟨cs, hcs, rfl⟩ := map_eq_ok_iff.mp h
    obtain ⟨ps, hps, hmirrors⟩ := mirrors_compileAll hs hdb hguard hall fs hcs hsuits
    refine ⟨_, map_eq_ok_iff.mpr ⟨ps, hps, rfl⟩, fun depth hdepth => ?_⟩
    exact mirrors_group k (hmirrors k depth hdepth)
  | .quantified q path fs, name, scope, nearest, clause, h, hsuits => by
    obtain ⟨⟨column, element⟩, hcollection, h⟩ := bind_eq_ok_iff.mp h
    obtain ⟨cs, hcs, h⟩ := bind_eq_ok_iff.mp h
    obtain ⟨hcolumn, he⟩ := collection_eq_ok_iff.mp hcollection
    obtain ⟨-, -, hlength⟩ := leading_of_resolveIn hcolumn
    obtain ⟨target, rfl, hmirrors⟩ := mirrors_collection hs hdb hcolumn he h
    obtain ⟨ps, hps, helements⟩ :=
      mirrors_compileAll hs hdb hguard hall fs hcs (hsuits column _ hcollection)
    refine ⟨.elements q column options.nullGuard ((usualBackend options).group .and ps), ?_,
      fun depth hdepth => ?_⟩
    · refine bind_eq_ok_iff.mpr ⟨_, hcollection, bind_eq_ok_iff.mpr ⟨ps, hps, rfl⟩⟩
    · rw [Filter.columns, List.forall_mem_cons] at hdepth
      -- the path to the collection takes its hops, and one step more leads to the elements
      obtain ⟨rest, rfl⟩ : ∃ rest, depth = column.leading.length + (rest + 1) :=
        ⟨depth - column.leading.length - 1, by omega⟩
      rw [hguard]
      -- below `all` everything is known, and below `any` nothing needs to be
      refine hmirrors (fun hq => hq ▸ hall) (mirrors_group .and (helements .and rest ?_))
      intro c hc
      have hc := hdepth.2 c hc
      change c.length ≤ path.length + rest
      omega

/-- **Several filters.** -/
theorem mirrors_compileAll (hs : s.PropertiesApart) (hdb : db.Fits s)
    (hguard : options.nullGuard = false) (hall : known (some .all)) :
    ∀ (fs : List Filter) {name : String} {scope : Option ColumnPath} {nearest : Option Quantifier}
      {cs : List Clause},
      (clauseBackend s usualClauses).compileAll s options (.named name) scope fs = .ok cs →
      Filter.EachConditions s options (Condition.Suits s db known) (.named name) scope nearest fs →
      ∃ ps, (usualBackend options).compileAll s options (.named name) scope fs = .ok ps ∧
        ∀ k depth,
          (∀ c ∈ Filter.columnsAll fs, c.length ≤ ColumnPath.scopeLength scope + depth) →
          db.Mirrors s name depth (known nearest)
            (fun row => Truth.joinAll k (Clause.truths db cs row))
            (((usualBackend options).group k ps).holds s)
  | [], name, scope, nearest, cs, h, _ => by
    cases h
    exact ⟨[], rfl, fun k depth _ => mirrors_group_nil k name depth _⟩
  | f :: fs, name, scope, nearest, cs, h, hsuits => by
    obtain ⟨c, hc, h⟩ := bind_eq_ok_iff.mp h
    obtain ⟨rest, hrest, h⟩ := bind_eq_ok_iff.mp h
    cases h
    -- the first filter and the others agree each for themselves, and so does their group
    obtain ⟨p, hp, hmirrors⟩ := mirrors_compileNode hs hdb hguard hall f hc hsuits.1
    obtain ⟨ps, hps, hothers⟩ := mirrors_compileAll hs hdb hguard hall fs hrest hsuits.2
    refine ⟨p :: ps, ?_, fun k depth hdepth => ?_⟩
    · rw [Backend.compileAll, hp, ok_bind, hps]
      rfl
    · rw [Filter.columnsAll, List.forall_mem_append] at hdepth
      exact mirrors_group_cons k (hmirrors depth hdepth.1) (hothers k depth hdepth.2)

end

/-- **A list of filters**, all of which have to hold. -/
theorem mirrors_compile (hs : s.PropertiesApart) (hdb : db.Fits s)
    (hguard : options.nullGuard = false) (hall : known (some .all)) {fs : List Filter}
    {name : String} {clause : Clause}
    (h : compileClause s options usualClauses (.named name) fs = .ok clause)
    (hsuits : Filter.EachConditions s options (Condition.Suits s db known) (.named name) none none
      fs) :
    ∃ p, compileFilter s options Predicate.usualRegistry (.named name) fs = .ok p ∧
      ∀ depth, (∀ c ∈ Filter.columnsAll fs, c.length ≤ depth) →
        db.Mirrors s name depth (known none) (fun row => clause.truth db row) (p.holds s) := by
  have hconjoined : (Backend.conjoined fs).EachCondition s options (Condition.Suits s db known)
      (.named name) none none := by
    -- the filters are wrapped into a group only if there are several
    match fs, hsuits with
    | [], h => exact h
    | [_], h => exact h.1
    | _ :: _ :: _, h => exact h
  have hcolumns : (Backend.conjoined fs).columns = Filter.columnsAll fs := by
    match fs with
    | [] => rfl
    | [f] => exact (List.append_nil _).symm
    | _ :: _ :: _ => rfl
  rw [compileClause, Backend.compile_eq] at h
  obtain ⟨p, hp, hmirrors⟩ := mirrors_compileNode hs hdb hguard hall _ h hconjoined
  refine ⟨p, ?_, fun depth hdepth => hmirrors depth fun c hc => ?_⟩
  · rw [compileFilter, Backend.compile_eq]
    exact hp
  · rw [hcolumns] at hc
    exact (hdepth c hc).trans (Nat.le_add_left _ _)

end

/-! ### Accounts and their badges -/

namespace Accounts

/-- Accounts have a name and badges. -/
def accounts : Table where
  name := "accounts"
  columns := [⟨"id", "id", .integer, false, none⟩, ⟨"name", "name", .text, true, none⟩]
  relations := [⟨"badges", "Badge", .toMany⟩]
  distinct := by decide

/-- A badge has a level and belongs to an account. -/
def badges : Table where
  name := "badges"
  columns := [⟨"id", "id", .integer, false, none⟩, ⟨"level", "level", .integer, true, none⟩,
    ⟨"account_id", "account_id", .integer, false, some "accounts"⟩]
  relations := [⟨"account", "Account", .toOne "account_id"⟩]
  distinct := by decide

/-- Accounts and badges. -/
def schema : Schema :=
  ⟨[], [⟨"Account", [], .mapped accounts, []⟩, ⟨"Badge", [], .mapped badges, []⟩], .absent⟩

/-- An account. -/
def account (id : Int) (name : Value) : Row
  | "id" => .int id
  | "name" => name
  | _ => .null

/-- A badge of an account. -/
def badge (id : Int) (level : Value) (account : Int) : Row
  | "id" => .int id
  | "level" => level
  | "account_id" => .int account
  | _ => .null

/-- One account with a badge. -/
def database (name level : Value) : Database where
  rows
    | "accounts" => [account 1 name]
    | "badges" => [badge 2 level 1]
    | _ => []

theorem table_cases {name : String} {t : Table} (h : schema.table? name = some t) :
    name = "Account" ∧ t = accounts ∨ name = "Badge" ∧ t = badges := by
  by_cases ha : name = "Account"
  · subst ha
    exact .inl ⟨rfl, (Option.some.inj h).symm⟩
  · by_cases hb : name = "Badge"
    · subst hb
      exact .inr ⟨rfl, (Option.some.inj h).symm⟩
    · have hnone : schema.record? name = none := by
        simp [Schema.record?, schema, Ne.symm ha, Ne.symm hb]
      rw [Schema.table?, hnone] at h
      cases h

theorem propertiesApart : schema.PropertiesApart := by
  intro name t ht p hp
  obtain ⟨rfl, rfl⟩ | ⟨rfl, rfl⟩ := table_cases ht
  · cases hp
  · cases hp

theorem fits {name level : Value} (hname : SqlType.text.Holds name)
    (hlevel : SqlType.integer.Holds level) : (database name level).Fits schema := by
  refine ⟨?_, ?_⟩
  · intro type t ht row hrow c hc _
    obtain ⟨rfl, rfl⟩ | ⟨rfl, rfl⟩ := table_cases ht
    · obtain rfl := List.mem_singleton.mp hrow
      simp only [accounts, List.mem_cons, List.not_mem_nil, or_false] at hc
      obtain rfl | rfl := hc
      · exact .integer 1
      · exact hname
    · obtain rfl := List.mem_singleton.mp hrow
      simp only [badges, List.mem_cons, List.not_mem_nil, or_false] at hc
      obtain rfl | rfl | rfl := hc
      · exact .integer 2
      · exact hlevel
      · exact .integer 1
  · -- the only relation to one row leads from the badge to the account
    intro type t ht row hrow r column link hr hone hlink
    obtain ⟨rfl, rfl⟩ | ⟨rfl, rfl⟩ := table_cases ht
    · obtain rfl := List.mem_singleton.mp hr
      cases hone
    · obtain rfl := List.mem_singleton.mp hr
      obtain rfl := List.mem_singleton.mp hrow
      cases hlink
      exact ⟨account 1 name, rfl⟩

theorem nullFree {name level : Value} (hname : name.isNull = false)
    (hlevel : level.isNull = false) : (database name level).NullFree schema := by
  intro hop type t c _ ht hc row hrow
  have hmem := List.mem_of_find?_eq_some hc
  obtain ⟨rfl, rfl⟩ | ⟨rfl, rfl⟩ := table_cases ht
  · obtain rfl := List.mem_singleton.mp hrow
    simp only [accounts, List.mem_cons, List.not_mem_nil, or_false] at hmem
    obtain rfl | rfl := hmem
    · rfl
    · exact hname
  · obtain rfl := List.mem_singleton.mp hrow
    simp only [badges, List.mem_cons, List.not_mem_nil, or_false] at hmem
    obtain rfl | rfl | rfl := hmem
    · rfl
    · exact hlevel
    · rfl

end Accounts

/-! ### Main statements -/

section
variable {s : Schema} {db : Database} {options : Options} {name : String} {fs : List Filter}
  {clause : Clause}

/-- **Without null, clauses and predicates agree.** For every row the clause is true or false, as
the predicate is for the row's object. -/
theorem compileClause_agrees (hs : s.PropertiesApart) (hdb : db.Fits s) (hfull : db.NullFree s)
    (hguard : options.nullGuard = false)
    (hclause : compileClause s options usualClauses (.named name) fs = .ok clause)
    (hplain : Filter.EachConditions s options (fun _ c => c.IsPlain s) (.named name) none none fs) :
    ∃ p, compileFilter s options Predicate.usualRegistry (.named name) fs = .ok p ∧
      ∀ depth, (∀ c ∈ Filter.columnsAll fs, c.length ≤ depth) →
        ∀ t, s.table? name = some t → ∀ row ∈ db.rows t.name,
          ∃ b, clause.truth db row = some b ∧ p.holds s (db.object s depth name row) = .ok b := by
  have hsuits := hplain.mono (Q := Condition.Suits s db fun _ => True)
    fun _ c hc => ⟨hc, fun _ => hfull c.column.terminal⟩
  obtain ⟨p, hp, hmirrors⟩ := mirrors_compile hs hdb hguard trivial hclause hsuits
  refine ⟨p, hp, fun depth hdepth t ht row hrow => ?_⟩
  obtain ⟨houtcome, hknown⟩ := hmirrors depth hdepth t ht row hrow
  -- without nulls no truth value is unknown
  obtain ⟨b, hb⟩ := Option.ne_none_iff_exists'.mp (hknown trivial)
  refine ⟨b, hb, ?_⟩
  rw [houtcome, hb]
  cases b <;> rfl

end

/-- The agreement for an account that has a badge of a high level, which belongs to an account with
a percent sign in its name. -/
theorem compileClause_agrees_of_badge :
    let path (segments : List String) (h : segments ≠ [] ∧ segments.all isSegment = true) :
      ColumnPath := ⟨segments, h.1, h.2⟩
    let f : Filter := .quantified .any (path ["badges"] (by decide))
      [.leaf (path ["badges", "level"] (by decide)) .gte (.plain " 3 "),
        .leaf (path ["badges", "account", "name"] (by decide)) .sw (.plain "50%")]
    let db := Accounts.database (.text "50% off") (.int 3)
    let row := Accounts.account 1 (.text "50% off")
    ∃ clause p,
      compileClause Accounts.schema .usual usualClauses (.named "Account") [f] = .ok clause ∧
      compileFilter Accounts.schema .usual Predicate.usualRegistry (.named "Account") [f] = .ok p ∧
      clause.truth db row = some true ∧
      p.holds Accounts.schema (db.object Accounts.schema 3 "Account" row) = .ok true := by
  intro path f db row
  have hdb := Accounts.fits (.text "50% off") (.integer 3)
  have hplain : Filter.EachConditions Accounts.schema .usual (fun _ c => c.IsPlain Accounts.schema)
      (.named "Account") none none [f] := by
    refine ⟨?_, trivial⟩
    intro column element h
    cases h
    refine ⟨?_, ?_, trivial⟩
    · intro c hc
      cases hc
      exact ⟨⟨_, _, rfl, rfl⟩, ⟨rfl, nofun⟩, nofun⟩
    · intro c hc
      cases hc
      exact ⟨⟨_, _, rfl, rfl⟩, ⟨rfl, nofun⟩, nofun⟩
  -- the statement looks for the percent sign itself, and so does the predicate
  obtain ⟨p, hp, h⟩ := compileClause_agrees Accounts.propertiesApart hdb
    (Accounts.nullFree rfl rfl) rfl rfl hplain
  obtain ⟨b, htruth, hholds⟩ :=
    h 3 (by decide) Accounts.accounts rfl row (List.mem_singleton_self _)
  cases htruth
  exact ⟨_, p, rfl, hp, rfl, hholds⟩

/-- A text that is the name of a member of an enumeration is looked for as it is in a clause, and
with the names of the enumeration and the member in memory. -/
theorem compileClause_disagrees_on_member :
    let path : ColumnPath := ⟨["name"], by decide, by decide⟩
    let f : Filter := .leaf path .ct (.member "Color" "RED" "red")
    let db := Accounts.database (.text "red") (.int 3)
    let row := Accounts.account 1 (.text "red")
    db.Fits Accounts.schema ∧ db.NullFree Accounts.schema ∧ row ∈ db.rows "accounts" ∧
      ∃ clause p,
        compileClause Accounts.schema .usual usualClauses (.named "Account") [f] = .ok clause ∧
        compileFilter Accounts.schema .usual Predicate.usualRegistry (.named "Account") [f] =
          .ok p ∧
        clause.truth db row = some true ∧
        ∀ depth, p.holds Accounts.schema (db.object Accounts.schema depth "Account" row) =
          .ok false := by
  intro path f db row
  let column : ResolvedColumn := ⟨path, [], ⟨"name", .named "Account", .scalar .text, true, false⟩⟩
  let p : Predicate := .test (.usual .ct) column false (.member .text "Color" "RED" (.text "red"))
  refine ⟨Accounts.fits (.text "red") (.integer 3), Accounts.nullFree rfl rfl,
    List.mem_singleton_self _, _, p, rfl, rfl, rfl, fun depth => ?_⟩
  cases depth <;> rfl

section
variable {s : Schema} {db : Database} {options : Options} {name : String} {fs : List Filter}
  {clause : Clause}

/-- **With null, clauses select what predicates accept**, by operators that do not negate. Right
below `all` no column may be null. -/
theorem compileClause_agrees_with_null (hs : s.PropertiesApart) (hdb : db.Fits s)
    (hguard : options.nullGuard = false)
    (hclause : compileClause s options usualClauses (.named name) fs = .ok clause)
    (hplain : Filter.EachConditions s options (fun nearest c => c.IsPlain s ∧
      c.operator ≠ .neq ∧ c.operator ≠ .nct ∧
        (nearest = some .all → db.NeverNull s c.column.terminal)) (.named name) none none fs) :
    ∃ p, compileFilter s options Predicate.usualRegistry (.named name) fs = .ok p ∧
      ∀ depth, (∀ c ∈ Filter.columnsAll fs, c.length ≤ depth) →
        ∀ t, s.table? name = some t → ∀ row ∈ db.rows t.name,
          p.holds s (db.object s depth name row) = .ok (clause.truth db row == some true) := by
  have hsuits := hplain.mono (Q := Condition.Suits s db (· = some .all)) (by
    rintro nearest c ⟨hc, hneq, hnct, hfull⟩
    refine ⟨hc, ?_⟩
    -- only the place below `all` is left, since no operator negates
    rintro (hall | ho | ho)
    · exact hfull hall
    · exact absurd ho hneq
    · exact absurd ho hnct)
  obtain ⟨p, hp, hmirrors⟩ := mirrors_compile hs hdb hguard (by rfl) hclause hsuits
  exact ⟨p, hp, fun depth hdepth t ht row hrow => (hmirrors depth hdepth t ht row hrow).outcome_eq⟩

end

/-- The agreement for an account without a name, all badges of which have a high number or belong to
an account that has a badge of a high level. Nothing is known of the name and of the level. -/
theorem compileClause_agrees_with_null_of_badge :
    let path (segments : List String) (h : segments ≠ [] ∧ segments.all isSegment = true) :
      ColumnPath := ⟨segments, h.1, h.2⟩
    let f : Filter := .group .or
      [.leaf (path ["name"] (by decide)) .sw (.plain "A"),
        .quantified .all (path ["badges"] (by decide))
          [.group .or
            [.quantified .any (path ["badges", "account", "badges"] (by decide))
              [.leaf (path ["badges", "account", "badges", "level"] (by decide)) .gte (.plain "3")],
            .leaf (path ["badges", "id"] (by decide)) .gt (.plain "1")]]]
    let db := Accounts.database .null .null
    let row := Accounts.account 1 .null
    ∃ clause p,
      compileClause Accounts.schema .usual usualClauses (.named "Account") [f] = .ok clause ∧
      compileFilter Accounts.schema .usual Predicate.usualRegistry (.named "Account") [f] = .ok p ∧
      clause.truth db row = some true ∧
      p.holds Accounts.schema (db.object Accounts.schema 4 "Account" row) = .ok true := by
  intro path f db row
  have hplain : Filter.EachConditions Accounts.schema .usual (fun nearest c =>
      c.IsPlain Accounts.schema ∧ c.operator ≠ .neq ∧ c.operator ≠ .nct ∧
        (nearest = some .all → db.NeverNull Accounts.schema c.column.terminal))
      (.named "Account") none none [f] := by
    refine ⟨⟨?_, ?_, trivial⟩, trivial⟩
    · intro c hc
      cases hc
      exact ⟨⟨⟨_, _, rfl, rfl⟩, ⟨rfl, nofun⟩, nofun⟩, nofun, nofun, nofun⟩
    · intro column element h
      cases h
      refine ⟨⟨?_, ?_, trivial⟩, trivial⟩
      · intro column element h
        cases h
        refine ⟨?_, trivial⟩
        intro c hc
        cases hc
        exact ⟨⟨⟨_, _, rfl, rfl⟩, ⟨rfl, nofun⟩, nofun⟩, nofun, nofun, nofun⟩
      · intro c hc
        cases hc
        refine ⟨⟨⟨_, _, rfl, rfl⟩, ⟨rfl, nofun⟩, nofun⟩, nofun, nofun, fun _ => ?_⟩
        -- badges always have a number
        intro name t c hname ht hc other hother
        cases hname
        cases ht
        cases hc
        obtain rfl := List.mem_singleton.mp hother
        rfl
  obtain ⟨p, hp, h⟩ := compileClause_agrees_with_null Accounts.propertiesApart
    (Accounts.fits (.null .text) (.null .integer)) rfl rfl hplain
  have hholds := h 4 (by decide) Accounts.accounts rfl row (List.mem_singleton_self _)
  exact ⟨_, p, rfl, hp, rfl, hholds⟩

/-- That all badges have a high level is a clause that no badge has a low one. A badge of which the
level is not known is then no obstacle, and it is one in memory. -/
theorem compileClause_disagrees_on_null_below_all :
    let badges : ColumnPath := ⟨["badges"], by decide, by decide⟩
    let level : ColumnPath := ⟨["badges", "level"], by decide, by decide⟩
    let f : Filter := .quantified .all badges [.leaf level .gt (.plain "3")]
    let db := Accounts.database (.text "Ann") .null
    let row := Accounts.account 1 (.text "Ann")
    db.Fits Accounts.schema ∧ row ∈ db.rows "accounts" ∧
      ∃ clause p,
        compileClause Accounts.schema .usual usualClauses (.named "Account") [f] = .ok clause ∧
        compileFilter Accounts.schema .usual Predicate.usualRegistry (.named "Account") [f] =
          .ok p ∧
        clause.truth db row = some true ∧
        p.holds Accounts.schema (db.object Accounts.schema 2 "Account" row) = .ok false := by
  intro badges level f db row
  exact ⟨Accounts.fits (.text "Ann") (.null .integer), List.mem_singleton_self _, _, _, rfl, rfl,
    rfl, rfl⟩

end RecordQuery
