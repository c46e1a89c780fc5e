import RecordQuery.Proofs.Fingerprint
import RecordQuery.Proofs.Meaning
import RecordQuery.Proofs.Qualified
import RecordQuery.Proofs.Sql.Rows
import RecordQuery.Sql.Filter

/-!
# Leaves of clauses

A leaf of a filter ends at a member, and its clause tests a column of a table. The clause of a whole
filter tests the columns of its leaves, unless constants among them decide it.

* `Clause.columns` — the columns that a clause tests.
* `leafBackend` — the conditions that the leaves of a filter state.
* `Condition.Tests`, `Condition.IsDecided` — what may become of a leaf.
* `compileClause_tests` — the leaves of a filter on a mapped type.
-/

namespace RecordQuery

open Sql

namespace Sql

/-! ### Columns of clauses -/

/-- The table and the name of a column. -/
def ColumnRef.name (ref : ColumnRef) : String × String := (ref.table, ref.label)

namespace Clause

mutual

/-- The columns that a clause tests, from left to right. The keys by which rows are related are not
among them. -/
def columns : Clause → List (String × String)
  | verdict _ | constant _ => []
  | compare _ ref _ | isNull _ ref | among _ ref _ | like _ ref _ _ | caselessLike _ ref _ =>
    [ref.name]
  | joined _ parts => columnsAll parts
  | settled c | negation c | related _ c => columns c
termination_by structural c => c

/-- The columns that several clauses test. -/
def columnsAll : List Clause → List (String × String)
  | [] => []
  | c :: cs => columns c ++ columnsAll cs
termination_by structural cs => cs

end

theorem columnsAll_eq : ∀ cs : List Clause, columnsAll cs = cs.flatMap columns
  | [] => rfl
  | c :: cs => by rw [columnsAll, List.flatMap_cons, columnsAll_eq cs]

@[simp] theorem columns_asPart (c : Clause) : c.asPart.columns = c.columns := by
  cases c <;> rfl

@[simp] theorem columns_settle (c : Clause) : c.settle.columns = c.columns := by
  cases c <;> rfl

@[simp] theorem columns_negate (c : Clause) : c.negate.columns = c.columns := by
  unfold negate
  split <;> rfl

theorem columns_partsOf (k : Connective) (c : Clause) :
    (c.partsOf k).flatMap columns = c.columns := by
  cases c with
  | joined l parts =>
    rw [partsOf]
    split
    · exact (columnsAll_eq parts).symm
    · rw [List.flatMap_singleton]
  | _ => exact List.flatMap_singleton _ _

/-- Constants test no columns, so it does not matter whether they are left out. -/
theorem flatMap_columns_filter (b : Bool) : ∀ cs : List Clause,
    (cs.filter fun c => !isConstant b c).flatMap columns = cs.flatMap columns
  | [] => rfl
  | c :: cs => by
    rw [List.filter_cons, List.flatMap_cons, ← flatMap_columns_filter b cs]
    split
    · rfl
    · next hconstant =>
      cases c with
      | constant b' => rfl
      | _ => exact absurd rfl hconstant

/-- **Joined clauses** test the columns of all of them, unless a constant decides the whole. -/
theorem columns_combine (k : Connective) (cs : List Clause) :
    (combine k cs).columns =
      if (cs.map asPart).any (isConstant !(neutral k)) then [] else cs.flatMap columns := by
  -- constants have no columns, so leaving them out changes none
  have hparts : ((cs.map asPart).filter fun c => !isConstant (neutral k) c).flatMap columns =
      cs.flatMap columns := by
    rw [flatMap_columns_filter, List.flatMap_map]
    simp only [columns_asPart]
  rw [combine]
  split
  · rfl
  · rw [← hparts]
    split
    · next hnone => rw [hnone]; rfl
    · next c hone => rw [hone, columns_settle, List.flatMap_singleton]
    · rw [columns, columnsAll_eq, List.flatMap_assoc]
      simp only [columns_partsOf]

theorem columns_joinAll_sublist (k : Connective) (cs : List Clause) :
    (joinAll k cs).columns.Sublist (cs.flatMap columns) := by
  match cs with
  | [] => exact List.nil_sublist _
  | [c] =>
    rw [joinAll, List.flatMap_singleton]
  | c :: d :: cs =>
    change (combine k (c :: d :: cs)).columns.Sublist _
    rw [columns_combine]
    split
    · exact List.nil_sublist _
    · exact List.Sublist.refl _

theorem isConstant_eq_false {c : Clause} (h : c.columns ≠ []) (b : Bool) :
    c.asPart.isConstant b = false := by
  cases c with
  | verdict b' => exact absurd rfl h
  | constant b' => exact absurd rfl h
  | _ => rfl

/-- Where every clause tests a column, nothing decides the whole. -/
theorem columns_joinAll (k : Connective) {cs : List Clause} (h : ∀ c ∈ cs, c.columns ≠ []) :
    (joinAll k cs).columns = cs.flatMap columns := by
  match cs with
  | [] => rfl
  | [c] => rw [joinAll, List.flatMap_singleton]
  | c :: d :: cs =>
    change (combine k (c :: d :: cs)).columns = _
    rw [columns_combine, if_neg]
    -- a constant has no columns, and none of these is one
    rintro hany
    obtain ⟨part, hpart, hconstant⟩ := List.any_eq_true.mp hany
    obtain ⟨e, he, rfl⟩ := List.mem_map.mp hpart
    exact Bool.false_ne_true ((isConstant_eq_false (h e he) _).symm.trans hconstant)

end Clause

/-! ### Columns of tests -/

namespace Attribute

variable {a : Attribute} {v : Value} {c : Clause}

/-- The column that tests of an attribute are about. -/
def tested? : Attribute → Option (String × String)
  | column ref _ => some ref.name
  | one key => some key.name
  | many | fixed _ | computed => none

theorem name_refFor (ref : ColumnRef) (type : SqlType) (v : Value) :
    (refFor ref type v).name = ref.name := by
  unfold refFor
  split <;> rfl

theorem columns_equals (h : a.equals v = .ok c) : c.columns = a.tested?.toList := by
  cases a with
  | column ref type =>
    cases h
    split
    · rfl
    · exact congrArg (fun name => [name]) (name_refFor ref type v)
  | one key =>
    -- a relation to one row is compared with null only, by the key that it is stored under
    rw [equals] at h
    split at h
    · cases h
      rfl
    · cases h
  | many => cases h
  | fixed w =>
    obtain ⟨b, -, rfl⟩ := map_eq_ok_iff.mp h
    rfl
  | computed =>
    cases h
    rfl

theorem columns_compares {comparison : Comparison} {t : OrderTest}
    (h : a.compares comparison t v = .ok c) : c.columns = a.tested?.toList := by
  cases a with
  | column ref type =>
    rw [compares] at h
    split at h
    · cases h
    · cases h
      exact congrArg (fun name => [name]) (name_refFor ref type v)
  | fixed w =>
    obtain ⟨b, -, rfl⟩ := map_eq_ok_iff.mp h
    rfl
  | _ => cases h

theorem columns_isAmong {vs : List Value} (h : a.isAmong vs = .ok c) :
    c.columns = a.tested?.toList := by
  cases a with
  | column ref type =>
    cases h
    rfl
  | _ => cases h

theorem columns_hasPart {place : Place} (h : a.hasPart place v = .ok c) :
    c.columns = a.tested?.toList := by
  cases a with
  | column ref type =>
    simp only [hasPart] at h
    split at h
    · cases h
    · cases h
      rfl
    · cases h
  | fixed w => cases w <;> cases h
  | _ => cases h

theorem columns_contains (h : a.contains v = .ok c) : c.columns = a.tested?.toList := by
  unfold contains at h
  split at h
  · exact columns_isAmong h
  · exact columns_hasPart h

theorem columns_caselessEquals (h : a.caselessEquals v = .ok c) :
    c.columns = a.tested?.toList := by
  cases a with
  | column ref type =>
    rw [caselessEquals] at h
    split at h
    · cases h
    · cases h
      exact congrArg (fun name => [name]) (name_refFor ref type v)
  | _ => cases h

theorem columns_usualClause {o : Operator} (h : a.usualClause v o = .ok c) :
    c.columns = a.tested?.toList := by
  cases o with
  | eq => exact columns_equals h
  | neq =>
    -- the negation of a clause tests the same column
    obtain ⟨d, hd, rfl⟩ := map_eq_ok_iff.mp h
    rw [← columns_equals hd]
    split
    · rfl
    · exact Clause.columns_negate d
  | gt | gte | lt | lte => exact columns_compares h
  | ct => exact columns_contains h
  | nct =>
    obtain ⟨d, hd, rfl⟩ := map_eq_ok_iff.mp h
    rw [← columns_contains hd, Clause.columns_negate]
  | sw | ew => exact columns_hasPart h
  | isIn =>
    cases v with
    | list vs => exact columns_isAmong h
    | _ => cases h

/-- **A test of a member is about its column**, whatever the test is. -/
theorem columns_clause {strategy : ClauseStrategy} (h : a.clause strategy v = .ok c) :
    c.columns = a.tested?.toList := by
  cases strategy with
  | usual o => exact columns_usualClause h
  | caselessEqual => exact columns_caselessEquals h

/-- **Without a column** only a value of the class is compared, and a property for equality: it is
equal to no value. -/
theorem untested_cases {strategy : ClauseStrategy} (h : a.clause strategy v = .ok c)
    (htested : a.tested? = none) :
    (∃ w, a = .fixed w) ∨
      a = .computed ∧ ∃ b, strategy = .usual (if b then .neq else .eq) ∧ c = .verdict b := by
  cases a with
  | column ref type => cases htested
  | one key => cases htested
  | fixed w => exact .inl ⟨w, rfl⟩
  | many =>
    -- a list of objects is no operand of any operator
    cases strategy with
    | usual o =>
      cases o with
      | ct | nct | isIn => cases v <;> cases h
      | _ => cases h
    | caselessEqual => cases h
  | computed =>
    -- what is computed equals no value, and differs from all of them
    refine .inr ⟨rfl, ?_⟩
    cases strategy with
    | usual o =>
      cases o with
      | eq =>
        cases h
        exact ⟨false, rfl, rfl⟩
      | neq =>
        cases h
        exact ⟨true, rfl, rfl⟩
      | ct | nct | isIn => cases v <;> cases h
      | _ => cases h
    | caselessEqual => cases h

end Attribute
end Sql

/-! ### Members of tables -/

/-- The column that stands for a member in a table: that of the member, or the one with the key of
the row that the member leads to. -/
def Table.columnOf? (t : Table) (member : String) : Option (String × String) :=
  match t.column? member, t.relation? member with
  | some c, _ => some (t.name, c.label)
  | none, some ⟨_, _, .toOne key⟩ => some (t.name, Schema.labelOf t key)
  | none, _ => none

namespace Schema

variable {s : Schema} {name : String} {t : Table} {ms : List Member} {m : Member}

/-- The column that stands for a member of a mapped type. -/
def columnAt? (s : Schema) (hop : Hop) : Option (String × String) :=
  match hop.owner with
  | .named owner => (s.table? owner).bind fun t => t.columnOf? hop.name
  | _ => none

/-- A member is a property of the type that it belongs to. -/
def IsProperty (s : Schema) (hop : Hop) : Prop :=
  ∃ owner, hop.owner = .named owner ∧ ∃ p ∈ s.propertiesOf owner, p.name = hop.name

/-- What is neither a column nor a relation is a property. -/
theorem property_of_mem_members (ht : s.table? name = some t)
    (hms : s.members? (.named name) = .ok (some ms)) (hm : m ∈ ms)
    (hcolumn : t.column? m.name = none) (hrelation : t.relation? m.name = none) :
    ∃ p ∈ s.propertiesOf name, p.name = m.name := by
  obtain ⟨computed, visible, hcomputed, hvisible, rfl⟩ := members_of_table ht hms
  rcases List.mem_append.mp hm with hm | hm
  · -- columns and relations are found by their names
    rcases List.mem_append.mp hm with hm | hm
    · obtain ⟨c, hc, rfl⟩ := List.mem_map.mp hm
      exact absurd (beq_self_eq_true c.member) (List.find?_eq_none.mp hcolumn c hc)
    · obtain ⟨relation, hmem, rfl⟩ := List.mem_map.mp hm
      rw [name_ofRelation] at hrelation
      exact absurd (beq_self_eq_true _) (List.find?_eq_none.mp hrelation relation hmem)
  · obtain ⟨p, hp, hmember⟩ := exists_of_mem_mapM hcomputed (hvisible hm)
    obtain ⟨type, -, rfl⟩ := map_eq_ok_iff.mp hmember
    exact ⟨p, List.mem_of_mem_filter hp, rfl⟩

/-- **The attribute of a member of a mapped type** is tested by the column that stands for the
member, or is a property. -/
theorem attribute_of_member (ht : s.table? name = some t)
    (hms : s.members? (.named name) = .ok (some ms)) (hm : m ∈ ms) {a : Attribute}
    (h : s.attributeAt (Hop.ofMember (.named name) m) = .ok a) :
    a.tested? = s.columnAt? (Hop.ofMember (.named name) m) ∧ (∀ v, a ≠ .fixed v) ∧
      (a = .computed → s.IsProperty (Hop.ofMember (.named name) m)) := by
  have hcolumn : s.columnAt? (Hop.ofMember (.named name) m) = t.columnOf? m.name := by
    simp only [columnAt?, Hop.ofMember, ht, Option.bind_some]
  rw [hcolumn, Table.columnOf?]
  change s.attributeOf name m.name = _ at h
  rw [attributeOf, ht] at h
  -- a member is a column, a relation or else a property, in the order of the look-up
  cases hc : t.column? m.name with
  | some c =>
    simp only [hc] at h
    cases h
    refine ⟨rfl, fun v h => ?_, fun h => ?_⟩ <;> cases h
  | none =>
    cases hr : t.relation? m.name with
    | some r =>
      obtain ⟨member, target, link⟩ := r
      cases link with
      | toOne key =>
        simp only [hc, hr] at h
        cases h
        refine ⟨rfl, fun v h => ?_, fun h => ?_⟩ <;> cases h
      | toMany =>
        simp only [hc, hr] at h
        cases h
        refine ⟨rfl, fun v h => ?_, fun h => ?_⟩ <;> cases h
    | none =>
      simp only [hc, hr] at h
      obtain ⟨p, hp, hname⟩ := property_of_mem_members ht hms hm hc hr
      have hany : (s.propertiesOf name).any (fun p => p.name == m.name) = true :=
        List.any_eq_true.mpr ⟨p, hp, beq_iff_eq.mpr hname⟩
      rw [unmappedAttribute, if_pos hany] at h
      cases h
      exact ⟨rfl, fun v h => (by cases h), fun _ => ⟨name, rfl, p, hp, hname⟩⟩

/-- A clause about the last row of a path tests the same columns when it is one about the first row,
and all hops on the way have links. -/
theorem columns_throughRelations {c : ResolvedColumn} {inner : Clause} :
    ∀ {hops : List Hop} {clause : Clause},
      hops.foldrM (fun hop inner => (s.requireLink c hop).map fun link =>
        .related link inner.asPart) inner = .ok clause →
      clause.columns = inner.columns ∧ ∀ hop ∈ hops, ∃ link, s.linkOf? hop = some link
  | [], clause, h => by
    cases h
    exact ⟨rfl, List.forall_mem_nil _⟩
  | hop :: hops, clause, h => by
    rw [List.foldrM_cons] at h
    obtain ⟨rest, hrest, h⟩ := bind_eq_ok_iff.mp h
    obtain ⟨link, hlink, rfl⟩ := map_eq_ok_iff.mp h
    obtain ⟨hcolumns, hlinked⟩ := columns_throughRelations hrest
    refine ⟨?_, List.forall_mem_cons.mpr ⟨⟨link, (requireLink_eq_ok_iff.mp hlink).2⟩, hlinked⟩⟩
    -- each relation is put around the clause, and has no column of its own
    rw [Clause.columns, Clause.columns_asPart, hcolumns]

/-- Where all hops before the last one have links, that one is a member of a mapped type. -/
theorem exists_table_of_linked (ht : s.table? name = some t) {hops : List Hop} {terminal : Hop}
    (hchained : s.Chained (.named name) (hops ++ [terminal]))
    (hlinked : ∀ hop ∈ hops, ∃ link, s.linkOf? hop = some link) :
    ∃ owner t ms m, s.table? owner = some t ∧ s.members? (.named owner) = .ok (some ms) ∧ m ∈ ms ∧
      terminal = Hop.ofMember (.named owner) m := by
  have htable : ∃ table, s.tableAt? terminal = some table := by
    -- without hops the table is the one at the start, else the last hop leads to it
    obtain rfl | ⟨init, last, rfl⟩ := List.eq_nil_or_concat' hops
    · cases hchained with
      | cons _ _ _ => exact ⟨t.name, congrArg (Option.map Table.name) ht⟩
    · obtain ⟨link, hlink⟩ := hlinked last (List.mem_append_right _ (List.mem_singleton_self _))
      rw [List.append_assoc] at hchained
      exact ⟨_, tableAt?_next hlink hchained⟩
  obtain ⟨table, htable⟩ := htable
  obtain ⟨-, middle, hlast⟩ := hchained.split
  cases hlast with
  | @cons _ ms m _ members mem _ =>
    cases middle with
    | named owner =>
      obtain ⟨t', ht', -⟩ := Option.map_eq_some_iff.mp htable
      exact ⟨owner, t', ms, m, ht', members, mem, rfl⟩
    | _ => cases htable

theorem columns_quantifiedClause {link : RowLink} {q : Quantifier} {inner body : Clause}
    (h : quantifiedClause link inner q = .ok body) : body.columns = inner.columns := by
  cases q with
  | any =>
    cases h
    rw [Clause.columns, Clause.columns_asPart]
  | all =>
    rw [← Clause.columns_negate inner]
    cases inner with
    -- a bare truth value is refused below all
    | verdict b => cases h
    | _ =>
      cases h
      rfl

/-- The elements that a clause is about are rows of a mapped type, and the clause tests what is
tested of them. -/
theorem exists_table_of_quantified (ht : s.table? name = some t) {column : ResolvedColumn}
    (hchained : s.Chained (.named name) column.hops) {element : TypeExpr}
    (helement : column.element? = some element) {registry : Registry ClauseStrategy}
    {q : Quantifier} {inner clause : Clause}
    (h : (clauseBackend s registry).quantified q column inner = .ok clause) :
    ∃ target t', element = .named target ∧ s.table? target = some t' ∧
      clause.columns = inner.columns := by
  simp only [clauseBackend] at h
  split at h
  · obtain ⟨link, hlink, h⟩ := bind_eq_ok_iff.mp h
    obtain ⟨body, hbody, hthrough⟩ := bind_eq_ok_iff.mp h
    obtain ⟨hcolumns, hlinked⟩ := columns_throughRelations hthrough
    obtain ⟨owner, t', ms, m, ht', hms, hm, hterminal⟩ :=
      exists_table_of_linked ht hchained hlinked
    have hlinkOf := (requireLink_eq_ok_iff.mp hlink).2
    rw [hterminal] at hlinkOf
    obtain ⟨_, r, -, -, hlink, rfl⟩ := relation_of_linkOf? hms hm hlinkOf
    obtain ⟨target, htarget, -⟩ := table_of_link? hlink
    refine ⟨r.target, target, ?_, htarget, hcolumns.trans (columns_quantifiedClause hbody)⟩
    -- a collection of rows is a relation to many, and its elements are of the relation's type
    rw [ResolvedColumn.element?, ResolvedColumn.type, hterminal] at helement
    simp only [Hop.ofMember, Member.ofRelation] at helement
    split at helement
    · cases helement
    · cases helement
      rfl
  · cases h

end Schema

/-! ### Leaves -/

/-- What the nodes of a filter become when only the conditions of its leaves are kept. -/
def leafBackend : Backend (List Condition) where
  condition c := .ok [c]
  conjunction := List.flatten
  disjunction := List.flatten
  quantified _ _ inner := .ok inner

namespace Condition

variable {s : Schema} {registry : Registry ClauseStrategy} {c : Condition}

/-- **A leaf that is tested.** Its condition ends at a column or a relation of a mapped type, and
its clause tests the column that stands for this member, and no other. -/
def Tests (s : Schema) (registry : Registry ClauseStrategy) (c : Condition)
    (column : String × String) : Prop :=
  s.columnAt? c.column.terminal = some column ∧
    ∃ clause, (clauseBackend s registry).condition c = .ok clause ∧ clause.columns = [column]

/-- **A leaf that is decided** without a test. Its condition ends at a property of a mapped type,
for which no column stands, and its operator tests equality: that the property is equal to a value
is false for all rows, and that it is not is true for all rows. -/
structure IsDecided (s : Schema) (registry : Registry ClauseStrategy) (c : Condition) : Prop where
  property : s.IsProperty c.column.terminal
  unmapped : s.columnAt? c.column.terminal = none
  decided : ∃ b clause, registry.require c.operator = .ok (.usual (if b then .neq else .eq)) ∧
    s.throughRelations c.column (.verdict b) = .ok clause ∧
    (clauseBackend s registry).condition c = .ok clause

/-- A condition is that of a leaf, about records of some type and below some quantifier. -/
def IsStatedBy (s : Schema) (options : Options) (leaf : ColumnPath × Operator × RawText)
    (c : Condition) : Prop :=
  ∃ owner scope, s.condition options owner scope leaf.1 leaf.2.1 leaf.2.2 = .ok c

/-- What becomes of a leaf on a mapped type. -/
theorem tests_or_isDecided {name : String} {t : Table} (ht : s.table? name = some t)
    (hchained : s.Chained (.named name) c.column.hops) {clause : Clause}
    (h : (clauseBackend s registry).condition c = .ok clause) :
    clause.columns = (s.columnAt? c.column.terminal).toList ∧
      ((∃ column, c.Tests s registry column) ∨ c.IsDecided s registry) := by
  obtain ⟨a, ha, hclause⟩ := bind_eq_ok_iff.mp h
  obtain ⟨strategy, hstrategy, hclause⟩ := bind_eq_ok_iff.mp hclause
  obtain ⟨inner, hinner, hthrough⟩ := bind_eq_ok_iff.mp hclause
  have hinner := liftFault_eq_ok_iff.mp hinner
  obtain ⟨hcolumns, hlinked⟩ := Schema.columns_throughRelations hthrough
  obtain ⟨owner, t', ms, m, ht', hms, hm, hterminal⟩ :=
    Schema.exists_table_of_linked ht hchained hlinked
  rw [hterminal] at ha
  obtain ⟨htested, hfixed, hproperty⟩ := Schema.attribute_of_member ht' hms hm ha
  rw [← hterminal] at htested hproperty
  rw [Attribute.columns_clause hinner, htested] at hcolumns
  refine ⟨hcolumns, ?_⟩
  -- without a column to test, the attribute is fixed, which no member is, or computed
  cases hcolumn : s.columnAt? c.column.terminal with
  | some column =>
    rw [hcolumn] at hcolumns
    exact .inl ⟨column, hcolumn, clause, h, hcolumns⟩
  | none =>
    rw [hcolumn] at hcolumns htested
    obtain ⟨v, rfl⟩ | ⟨rfl, b, rfl, rfl⟩ := Attribute.untested_cases hinner htested
    · exact absurd rfl (hfixed v)
    · exact .inr ⟨hproperty rfl, hcolumn, b, clause, hstrategy, hthrough, h⟩

end Condition

/-- The columns that stand for the ends of some conditions. -/
def Schema.columnsAt (s : Schema) (cs : List Condition) : List (String × String) :=
  cs.filterMap fun c => s.columnAt? c.column.terminal

/-- A clause covers the conditions of some leaves: it tests columns of these, in order, and all of
them if no leaf is decided and no group is empty. -/
structure Covers (s : Schema) (registry : Registry ClauseStrategy) (full : Prop)
    (cs : List Condition) (clause : Clause) : Prop where
  each : ∀ c ∈ cs, (∃ column, c.Tests s registry column) ∨ c.IsDecided s registry
  sublist : clause.columns.Sublist (s.columnsAt cs)
  complete : full → (∀ c ∈ cs, ¬ c.IsDecided s registry) →
    clause.columns = s.columnsAt cs ∧ clause.columns ≠ []

namespace Covers

variable {s : Schema} {registry : Registry ClauseStrategy} {full : Prop}

theorem mono {full' : Prop} (himp : full' → full) {cs : List Condition} {clause : Clause}
    (h : Covers s registry full cs clause) : Covers s registry full' cs clause :=
  ⟨h.each, h.sublist, fun hfull => h.complete (himp hfull)⟩

/-- Clauses one beside the other cover the conditions of all of them. -/
private theorem flatten {parts : List Clause} {css : List (List Condition)}
    (h : List.Forall₂ (Covers s registry full) css parts) :
    (∀ c ∈ css.flatten, (∃ column, c.Tests s registry column) ∨ c.IsDecided s registry) ∧
      (parts.flatMap Clause.columns).Sublist (s.columnsAt css.flatten) ∧
      (full → (∀ c ∈ css.flatten, ¬ c.IsDecided s registry) →
        parts.flatMap Clause.columns = s.columnsAt css.flatten ∧
          ∀ part ∈ parts, part.columns ≠ []) := by
  induction h with
  | nil =>
    exact ⟨List.forall_mem_nil _, List.Sublist.refl _, fun _ _ => ⟨rfl, List.forall_mem_nil _⟩⟩
  | @cons cs part css parts hfirst _ ih =>
    obtain ⟨heach, hsome, hall⟩ := ih
    have hcolumns : s.columnsAt (cs ++ css.flatten) = s.columnsAt cs ++ s.columnsAt css.flatten :=
      List.filterMap_append
    rw [List.flatten_cons, List.flatMap_cons, List.forall_mem_append, List.forall_mem_append,
      hcolumns]
    refine ⟨⟨hfirst.each, heach⟩, hfirst.sublist.append hsome, fun hfull hnone => ?_⟩
    -- where nothing is decided, every part keeps all of its columns
    obtain ⟨hsame, hne⟩ := hfirst.complete hfull hnone.1
    obtain ⟨hrest, hrestne⟩ := hall hfull hnone.2
    exact ⟨by rw [hsame, hrest], List.forall_mem_cons.mpr ⟨hne, hrestne⟩⟩

/-- **Groups.** Clauses that are joined cover what each of them covers. -/
theorem joinAll (k : Connective) {full' : Prop} {parts : List Clause} {css : List (List Condition)}
    (h : List.Forall₂ (Covers s registry full) css parts) (himp : full' → full ∧ parts ≠ []) :
    Covers s registry full' css.flatten (Clause.joinAll k parts) := by
  obtain ⟨heach, hsome, hall⟩ := flatten h
  refine ⟨heach, (Clause.columns_joinAll_sublist k parts).trans hsome, fun hfull hnone => ?_⟩
  obtain ⟨hsame, htested⟩ := hall (himp hfull).1 hnone
  obtain ⟨part, rest, rfl⟩ := List.exists_cons_of_ne_nil (himp hfull).2
  rw [Clause.columns_joinAll k htested]
  refine ⟨hsame, ?_⟩
  rw [List.flatMap_cons]
  exact List.append_ne_nil_of_left_ne_nil (htested part List.mem_cons_self) _

/-- **Leaves.** The clause of a condition covers it. -/
theorem leaf {name : String} {t : Table} (ht : s.table? name = some t) {c : Condition}
    (hchained : s.Chained (.named name) c.column.hops) {clause : Clause}
    (h : (clauseBackend s registry).condition c = .ok clause) :
    Covers s registry full [c] clause := by
  obtain ⟨hcolumns, hcases⟩ := Condition.tests_or_isDecided ht hchained h
  -- a condition tests the one column that it is about, if it has one
  have hsame : s.columnsAt [c] = clause.columns := by
    rw [hcolumns, Schema.columnsAt]
    cases hcolumn : s.columnAt? c.column.terminal <;> simp [hcolumn]
  refine ⟨List.forall_mem_singleton.mpr hcases, hsame ▸ List.Sublist.refl _, fun _ hnone => ?_⟩
  obtain ⟨column, hcolumn, -⟩ := hcases.resolve_right (hnone c (List.mem_singleton_self c))
  refine ⟨hsame.symm, ?_⟩
  rw [hcolumns, hcolumn]
  exact List.cons_ne_nil _ _

end Covers

/-! ### Filters -/

section
variable {s : Schema} {registry : Registry ClauseStrategy} {options : Options}

theorem ne_nil_of_compileAll {α : Type} {b : Backend α} {owner : TypeExpr}
    {scope : Option ColumnPath} {fs : List Filter} {parts : List α}
    (h : b.compileAll s options owner scope fs = .ok parts) (hne : fs ≠ []) : parts ≠ [] := by
  obtain ⟨f, rest, rfl⟩ := List.exists_cons_of_ne_nil hne
  obtain ⟨part, -, h⟩ := bind_eq_ok_iff.mp h
  obtain ⟨others, -, h⟩ := bind_eq_ok_iff.mp h
  cases h
  exact List.cons_ne_nil _ _

mutual

/-- **One filter.** Its clause covers the conditions of its leaves. -/
theorem covers_compileNode : ∀ (f : Filter) {name : String} {t : Table} {scope : Option ColumnPath}
    {clause : Clause}, s.table? name = some t →
    (clauseBackend s registry).compileNode s options (.named name) scope f = .ok clause →
    ∃ cs, leafBackend.compileNode s options (.named name) scope f = .ok cs ∧
      Covers s registry f.NoneEmpty cs clause
  | .leaf path o raw, name, t, scope, clause, ht, h => by
    obtain ⟨c, hc, hclause⟩ := bind_eq_ok_iff.mp h
    refine ⟨[c], bind_eq_ok_iff.mpr ⟨c, hc, rfl⟩, Covers.leaf ht ?_ hclause⟩
    exact Schema.chained_of_resolveIn (Schema.condition_eq_ok_iff.mp hc).1
  | .group k fs, name, t, scope, clause, ht, h => by
    obtain ⟨parts, hparts, rfl⟩ := map_eq_ok_iff.mp h
    obtain ⟨css, hcss, hall⟩ := covers_compileAll fs ht hparts
    have hjoined := Covers.joinAll k hall fun hfull : (Filter.group k fs).NoneEmpty =>
      have ⟨hne, hfs⟩ := Filter.noneEmpty_group.mp hfull
      ⟨hfs, ne_nil_of_compileAll hparts hne⟩
    cases k <;> exact ⟨css.flatten, map_eq_ok_iff.mpr ⟨css, hcss, rfl⟩, hjoined⟩
  | .quantified q path fs, name, t, scope, clause, ht, h => by
    obtain ⟨⟨column, element⟩, hcollection, h⟩ := bind_eq_ok_iff.mp h
    obtain ⟨parts, hparts, h⟩ := bind_eq_ok_iff.mp h
    obtain ⟨hcolumn, helement⟩ := collection_eq_ok_iff.mp hcollection
    -- the clause about the elements is known to be one about rows by the link to them
    obtain ⟨target, t', rfl, ht', hcolumns⟩ :=
      Schema.exists_table_of_quantified ht (Schema.chained_of_resolveIn hcolumn) helement h
    obtain ⟨css, hcss, hall⟩ := covers_compileAll fs ht' hparts
    have hjoined := Covers.joinAll .and hall fun hfull : (Filter.quantified q path fs).NoneEmpty =>
      have ⟨hne, hfs⟩ := Filter.noneEmpty_quantified.mp hfull
      ⟨hfs, ne_nil_of_compileAll hparts hne⟩
    refine ⟨css.flatten, bind_eq_ok_iff.mpr ⟨_, hcollection, bind_eq_ok_iff.mpr ⟨css, hcss, rfl⟩⟩,
      hjoined.each, ?_, ?_⟩
    · rw [hcolumns]
      exact hjoined.sublist
    · rw [hcolumns]
      exact hjoined.complete

/-- **Several filters.** -/
theorem covers_compileAll : ∀ (fs : List Filter) {name : String} {t : Table}
    {scope : Option ColumnPath} {parts : List Clause}, s.table? name = some t →
    (clauseBackend s registry).compileAll s options (.named name) scope fs = .ok parts →
    ∃ css, leafBackend.compileAll s options (.named name) scope fs = .ok css ∧
      List.Forall₂ (Covers s registry (∀ f ∈ fs, f.NoneEmpty)) css parts
  | [], name, t, scope, parts, _, h => by
    cases h
    exact ⟨[], rfl, .nil⟩
  | f :: fs, name, t, scope, parts, ht, h => by
    obtain ⟨part, hpart, h⟩ := bind_eq_ok_iff.mp h
    obtain ⟨rest, hrest, h⟩ := bind_eq_ok_iff.mp h
    cases h
    obtain ⟨cs, hcs, hfirst⟩ := covers_compileNode f ht hpart
    obtain ⟨css, hcss, hothers⟩ := covers_compileAll fs ht hrest
    -- a list without empty groups has none in its first filter and none in the others
    refine ⟨cs :: css, ?_, .cons (hfirst.mono fun hfull => ?_) (hothers.imp fun _ _ hcovers =>
      hcovers.mono fun hfull => ?_)⟩
    · rw [Backend.compileAll, hcs, ok_bind, hcss]
      rfl
    · exact hfull f List.mem_cons_self
    · exact fun g hg => hfull g (List.mem_cons_of_mem f hg)

end

mutual

/-- One filter states a condition for each leaf. -/
theorem states_compileNode : ∀ {f : Filter} {owner : TypeExpr} {scope : Option ColumnPath}
    {cs : List Condition}, leafBackend.compileNode s options owner scope f = .ok cs →
    List.Forall₂ (Condition.IsStatedBy s options) f.leaves cs
  | .leaf path o raw, owner, scope, cs, h => by
    obtain ⟨c, hc, h⟩ := bind_eq_ok_iff.mp h
    cases h
    exact .cons ⟨owner, scope, hc⟩ .nil
  | .group k fs, owner, scope, cs, h => by
    obtain ⟨css, hcss, rfl⟩ := map_eq_ok_iff.mp h
    cases k <;> exact states_compileAll hcss
  | .quantified q path fs, owner, scope, cs, h => by
    obtain ⟨⟨column, element⟩, -, h⟩ := bind_eq_ok_iff.mp h
    obtain ⟨css, hcss, h⟩ := bind_eq_ok_iff.mp h
    cases h
    exact states_compileAll hcss

theorem states_compileAll : ∀ {fs : List Filter} {owner : TypeExpr} {scope : Option ColumnPath}
    {css : List (List Condition)}, leafBackend.compileAll s options owner scope fs = .ok css →
    List.Forall₂ (Condition.IsStatedBy s options) (Filter.leavesAll fs) css.flatten
  | [], owner, scope, css, h => by
    cases h
    exact .nil
  | f :: fs, owner, scope, css, h => by
    obtain ⟨cs, hcs, h⟩ := bind_eq_ok_iff.mp h
    obtain ⟨rest, hrest, h⟩ := bind_eq_ok_iff.mp h
    cases h
    exact List.rel_append (states_compileNode hcs) (states_compileAll hrest)

end

end

/-! ### Readers and their mentors -/

namespace Readers

/-- Readers have a name, an age and a mentor. -/
def readers : Table where
  name := "readers"
  columns := [⟨"id", "id", .integer, false, none⟩, ⟨"name", "full_name", .text, false, none⟩,
    ⟨"age", "age", .integer, true, none⟩,
    ⟨"mentor_id", "mentor_id", .integer, true, some "readers"⟩]
  relations := [⟨"mentor", "Reader", .toOne "mentor_id"⟩]
  distinct := by decide

/-- Readers, whose name in capitals is a property. -/
def schema : Schema :=
  ⟨[], [⟨"Reader", [], .mapped readers, [⟨"label", some (.scalar .text), "name", .upper⟩]⟩],
    .absent⟩

end Readers

/-! ### Lists of filters -/

section
variable {s : Schema} {registry : Registry ClauseStrategy} {options : Options} {name : String}
  {t : Table} {fs : List Filter} {clause : Clause}

/-- **Leaves are tested, but for properties.** Where filters on a mapped type have a clause, there
is a condition for each leaf. It ends at a column or a relation, and its clause tests the column
that stands for this member; or it tests a property for equality, and its clause is decided. The
clause of the filters tests columns of the leaves, in order. It tests all of them if no leaf is
decided and no group is empty. -/
theorem compileClause_tests (mapped : s.table? name = some t)
    (accepted : compileClause s options registry (.named name) fs = .ok clause) :
    ∃ cs, leafBackend.compile s options (.named name) fs = .ok cs ∧
      List.Forall₂ (Condition.IsStatedBy s options) (Filter.leavesAll fs) cs ∧
      (∀ c ∈ cs, (∃ column, c.Tests s registry column) ∨ c.IsDecided s registry) ∧
      clause.columns.Sublist (s.columnsAt cs) ∧
      ((∀ f ∈ fs, f.NoneEmpty) → (∀ c ∈ cs, ¬ c.IsDecided s registry) →
        clause.columns = s.columnsAt cs) := by
  rw [compileClause, Backend.compile_eq] at accepted
  obtain ⟨cs, hcs, hcovers⟩ := covers_compileNode (Backend.conjoined fs) mapped accepted
  have hstates := states_compileNode hcs
  rw [Backend.leaves_conjoined] at hstates
  refine ⟨cs, ?_, hstates, hcovers.each, hcovers.sublist, fun hfull hnone => ?_⟩
  · rw [Backend.compile_eq, hcs]
  · -- the filters are wrapped into a group only if there are several
    match fs with
    | [] =>
      cases hcs
      cases accepted
      rfl
    | [f] => exact (hcovers.complete (hfull f List.mem_cons_self) hnone).1
    | f :: g :: fs =>
      exact (hcovers.complete (Filter.noneEmpty_group.mpr ⟨List.cons_ne_nil _ _, hfull⟩) hnone).1

end

/-- Readers with a certain name, or whose mentor has some age: both columns are tested. -/
theorem compileClause_tests_of_readers :
    let path (segments : List String) (h : segments ≠ [] ∧ segments.all isSegment = true) :
      ColumnPath := ⟨segments, h.1, h.2⟩
    let f : Filter := .group .or [.leaf (path ["name"] (by decide)) .sw (.plain "A"),
      .leaf (path ["mentor", "age"] (by decide)) .gt (.plain "40")]
    ∃ clause,
      compileClause Readers.schema .usual usualClauses (.named "Reader") [f] = .ok clause ∧
      clause.columns = [("readers", "full_name"), ("readers", "age")] := by
  intro path f
  have hmapped : Readers.schema.table? "Reader" = some Readers.readers := rfl
  have hfull : ∀ g ∈ [f], g.NoneEmpty := by
    refine List.forall_mem_singleton.mpr (Filter.noneEmpty_group.mpr ⟨List.cons_ne_nil _ _, ?_⟩)
    exact List.forall_mem_cons.mpr ⟨Filter.noneEmpty_leaf _ _ _,
      List.forall_mem_singleton.mpr (Filter.noneEmpty_leaf _ _ _)⟩
  obtain ⟨cs, hcs, -, -, -, hall⟩ :=
    @compileClause_tests _ usualClauses .usual _ _ [f] _ hmapped rfl
  cases hcs
  refine ⟨_, rfl, hall hfull ?_⟩
  -- a column stands for the end of both leaves
  refine List.forall_mem_cons.mpr ⟨fun h => ?_, List.forall_mem_singleton.mpr fun h => ?_⟩
  · cases h.unmapped
  · cases h.unmapped

/-- **A property decides.** That a property is equal to a value is taken to be false, and no reader
is selected, whatever the names are. -/
theorem compileClause_decides_property :
    let label : ColumnPath := ⟨["label"], by decide, by decide⟩
    let age : ColumnPath := ⟨["age"], by decide, by decide⟩
    let f : Filter := .group .and [.leaf label .eq (.plain "X"), .leaf age .gt (.plain "1")]
    Readers.schema.table? "Reader" = some Readers.readers ∧
      compileClause Readers.schema .usual usualClauses (.named "Reader") [f] =
        .ok (.settled (.constant false)) ∧
      ∃ c, Readers.schema.condition .usual (.named "Reader") none label .eq (.plain "X") = .ok c ∧
        c.IsDecided Readers.schema usualClauses ∧
        (clauseBackend Readers.schema usualClauses).condition c = .ok (.verdict false) := by
  intro label age f
  refine ⟨rfl, rfl, _, rfl, ⟨?_, rfl, false, _, rfl, rfl, rfl⟩, rfl⟩
  exact ⟨"Reader", rfl, _, List.mem_singleton_self _, rfl⟩

end RecordQuery
