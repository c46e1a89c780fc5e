import RecordQuery.Fingerprint
import RecordQuery.Proofs.Fingerprint
import RecordQuery.Proofs.Qualified
import RecordQuery.Sql.Filter

/-!
# Reachable trees

The interface makes trees in many ways, each of which may start from trees that were made before: by
hand, from text, from data, with handles and builders, and by casting criteria from one record shape
to another. `Reachable` is the set of all trees that come about.

* `Reachable.qualified` — reachable trees are qualified, by one case for each way of making a tree.
* `Backend.keepsScope_compile` — a walk over a qualified tree never meets a column outside the scope
  of its quantifier, so it never fails for this reason, whatever it makes of the tree.
* `Reachable.well_scoped` — both together, for every use that is made of a tree.

A rule of a cast is code of the caller. What it returns has to be reachable again, and it may return
the filter that it is given, or parts of it.
-/

namespace RecordQuery

/-! ### The error of a column outside its scope -/

section KeepsScope

variable {α β : Type}

/-- A computation does not fail for a column that does not continue the column of its scope. -/
def KeepsScope (x : Except Error α) : Prop :=
  ∀ path scope, x ≠ .error (.misuse (.notBelow path scope))

theorem keepsScope_ok (a : α) : KeepsScope (.ok a : Except Error α) := fun _ _ h => nomatch h

theorem keepsScope_coercion (raw : RawText) (name : String) (cause : CoercionCause) :
    KeepsScope (.error (.coercion raw name cause) : Except Error α) := by
  intro path scope h
  cases h

theorem KeepsScope.bind {x : Except Error α} {f : α → Except Error β} (hx : KeepsScope x)
    (hf : ∀ a, x = .ok a → KeepsScope (f a)) : KeepsScope (x >>= f) := by
  intro path scope h
  cases x with
  | ok a => exact hf a rfl path scope h
  | error e =>
    cases h
    exact hx path scope rfl

theorem KeepsScope.map {x : Except Error α} (hx : KeepsScope x) (f : α → β) :
    KeepsScope (x.map f) :=
  hx.bind fun a _ => keepsScope_ok (f a)

theorem keepsScope_liftFault (x : Except Fault α) : KeepsScope (liftFault x) := by
  intro path scope h
  cases x with
  | ok a => cases h
  | error fault => cases h

theorem keepsScope_mapM {f : α → Except Error β} (hf : ∀ a, KeepsScope (f a)) (as : List α) :
    KeepsScope (as.mapM f) := by
  induction as with
  | nil => exact keepsScope_ok []
  | cons a as ih =>
    rw [List.mapM_cons]
    exact (hf a).bind fun b _ => ih.bind fun bs _ => keepsScope_ok (b :: bs)

theorem keepsScope_foldrM {f : α → β → Except Error β} (hf : ∀ a b, KeepsScope (f a b))
    (as : List α) (b : β) : KeepsScope (as.foldrM f b) := by
  induction as with
  | nil => exact keepsScope_ok b
  | cons a as ih =>
    rw [List.foldrM_cons]
    exact ih.bind fun c _ => hf a c

end KeepsScope

/-! ### Reading a condition -/

/-- A column that is below its scope does not fail there. -/
theorem ColumnPath.keepsScope_within {scope : Option ColumnPath} {p : ColumnPath}
    (h : ∀ c ∈ scope, p.isBelow c = true) : KeepsScope (p.within scope) := by
  obtain ⟨q, hq⟩ := exists_within h
  rw [hq]
  exact keepsScope_ok q

namespace Schema

variable (s : Schema)

theorem keepsScope_resolveSegment (fallback : Bool) (path : ColumnPath) (owner : TypeExpr)
    (segment : String) : KeepsScope (s.resolveSegment fallback path owner segment) := by
  intro p c h
  rw [resolveSegment] at h
  split at h
  · cases h
  · cases h
  · split at h <;> cases h

theorem keepsScope_resolveFrom (fallback : Bool) (path : ColumnPath) (rest : List String) :
    ∀ (owner : TypeExpr) (segment : String),
      KeepsScope (s.resolveFrom fallback path owner segment rest) := by
  induction rest with
  | nil =>
    exact fun owner segment => (s.keepsScope_resolveSegment fallback path owner segment).map _
  | cons next rest ih =>
    intro owner segment
    refine (s.keepsScope_resolveSegment fallback path owner segment).bind fun hop _ => ?_
    -- a collection in the middle of a path is an error of its own
    split
    · exact fun _ _ h => nomatch h
    · exact (ih hop.type next).bind fun _ _ => keepsScope_ok _

theorem keepsScope_resolve (fallback : Bool) (type : TypeExpr) (path : ColumnPath) :
    KeepsScope (s.resolve fallback type path) := by
  rw [resolve]
  split
  · next h => exact absurd h path.nonempty
  · exact (s.keepsScope_resolveFrom fallback path _ _ _).map _

theorem keepsScope_resolveIn (options : Options) (owner : TypeExpr) {scope : Option ColumnPath}
    {path : ColumnPath} (h : ∀ c ∈ scope, path.isBelow c = true) :
    KeepsScope (s.resolveIn options owner scope path) :=
  (ColumnPath.keepsScope_within h).bind fun p _ => s.keepsScope_resolve options.fallback owner p

theorem keepsScope_checkOperator (column : ResolvedColumn) (o : Operator) :
    KeepsScope (s.checkOperator column o) := by
  have hmismatch : ∀ cause,
      KeepsScope (.error (mismatch column o.word cause) : Except Error Unit) := fun _ => nofun
  rw [checkOperator]
  split
  · exact hmismatch _
  · split
    · exact hmismatch _
    · split
      · exact hmismatch _
      · exact keepsScope_ok ()

theorem keepsScope_adapt (raw : RawText) (t : TypeExpr) : KeepsScope (s.adapt raw t) := by
  rw [adapt.eq_def]
  repeat' split
  all_goals exact nofun

theorem keepsScope_coerceText (raw : RawText) (cs : List Char) (t : TypeExpr) :
    KeepsScope (s.coerceText raw cs t) := by
  -- what is wrong with a duration is told by the text alone
  have hinterval : ∀ e,
      KeepsScope (.error (intervalError raw t.name cs e) : Except Error Value) := by
    intro e path scope h
    cases e <;> cases h
  rw [coerceText.eq_def]
  repeat' split
  all_goals first
    | exact s.keepsScope_adapt raw _
    | exact hinterval _
    | exact keepsScope_ok _
    | exact keepsScope_coercion _ _ _
    | skip
  -- a value of an enumeration may have no text, which is a fault
  refine (keepsScope_liftFault _).bind fun found _ => ?_
  split
  · exact keepsScope_ok _
  · exact keepsScope_coercion _ _ _

theorem keepsScope_coerceScalar (raw : RawText) (type : TypeExpr) :
    KeepsScope (s.coerceScalar raw type) := by
  simp only [coerceScalar]
  split
  · exact keepsScope_ok _
  · split
    · exact keepsScope_ok _
    · exact s.keepsScope_coerceText raw _ _

theorem keepsScope_coerceList (raw : RawText) (type : TypeExpr) :
    KeepsScope (s.coerceList raw type) := by
  rw [coerceList]
  split
  · exact keepsScope_ok _
  · exact (keepsScope_mapM (fun p => s.keepsScope_coerceScalar _ type) _).bind fun vs _ =>
      keepsScope_ok _

theorem keepsScope_coerce (raw : RawText) (type : TypeExpr) (o : Operator) :
    KeepsScope (s.coerce raw type o) := by
  obtain ⟨t, -, h | h⟩ := s.coerce_cases type o
  · rw [h]
    exact s.keepsScope_coerceScalar raw t
  · rw [h]
    exact s.keepsScope_coerceList raw t

theorem keepsScope_condition (options : Options) (owner : TypeExpr) {scope : Option ColumnPath}
    {path : ColumnPath} (o : Operator) (raw : RawText) (h : ∀ c ∈ scope, path.isBelow c = true) :
    KeepsScope (s.condition options owner scope path o raw) := by
  refine (s.keepsScope_resolveIn options owner h).bind fun column _ => ?_
  refine (s.keepsScope_checkOperator column o).bind fun _ _ => ?_
  exact (s.keepsScope_coerce raw column.type o).bind fun v _ => keepsScope_ok _

end Schema

/-! ### The walk over a tree -/

namespace Backend

variable {α : Type}

/-- What a backend does itself never fails for a column outside its scope. -/
structure KeepsScope (b : Backend α) : Prop where
  condition (c : Condition) : RecordQuery.KeepsScope (b.condition c)
  quantified (q : Quantifier) (column : ResolvedColumn) (inner : α) :
    RecordQuery.KeepsScope (b.quantified q column inner)

theorem keepsScope_collection (s : Schema) (options : Options) (owner : TypeExpr)
    {scope : Option ColumnPath} (q : Quantifier) {path : ColumnPath}
    (h : ∀ c ∈ scope, path.isBelow c = true) :
    RecordQuery.KeepsScope (collection s options owner scope q path) := by
  refine (s.keepsScope_resolveIn options owner h).bind fun column _ => ?_
  split
  · exact keepsScope_ok _
  · intro _ _ h
    cases h

mutual

/-- A qualified tree below its scope is walked without leaving a scope. -/
theorem keepsScope_compileNode {b : Backend α} (hb : b.KeepsScope) (s : Schema)
    (options : Options) : ∀ (f : Filter) (owner : TypeExpr) (scope : Option ColumnPath),
      f.Qualified → (∀ c ∈ scope, ∀ p ∈ f.columns, p.isBelow c = true) →
        RecordQuery.KeepsScope (b.compileNode s options owner scope f)
  | .leaf path o raw, owner, scope, _, hscope => by
    have hpath : ∀ c ∈ scope, path.isBelow c = true :=
      fun c hc => hscope c hc path List.mem_cons_self
    exact (s.keepsScope_condition options owner o raw hpath).bind fun c _ => hb.condition c
  | .group k fs, owner, scope, h, hscope =>
    (keepsScope_compileAll hb s options fs owner scope (Filter.qualified_group.mp h) hscope).map _
  | .quantified q path fs, owner, scope, h, hscope => by
    obtain ⟨hcolumns, hfs⟩ := Filter.qualified_quantified.mp h
    have hpath : ∀ c ∈ scope, path.isBelow c = true :=
      fun c hc => hscope c hc path List.mem_cons_self
    refine (keepsScope_collection s options owner q hpath).bind ?_
    rintro ⟨column, element⟩ -
    -- the conditions are below the column of the quantifier, which is their scope
    have hchildren : ∀ c ∈ some path, ∀ p ∈ Filter.columnsAll fs, p.isBelow c = true := by
      intro c hc p hp
      cases hc
      exact hcolumns p hp
    refine (keepsScope_compileAll hb s options fs element (some path) hfs hchildren).bind ?_
    exact fun parts _ => hb.quantified q column (b.conjunction parts)

theorem keepsScope_compileAll {b : Backend α} (hb : b.KeepsScope) (s : Schema)
    (options : Options) : ∀ (fs : List Filter) (owner : TypeExpr) (scope : Option ColumnPath),
      (∀ f ∈ fs, f.Qualified) → (∀ c ∈ scope, ∀ p ∈ Filter.columnsAll fs, p.isBelow c = true) →
        RecordQuery.KeepsScope (b.compileAll s options owner scope fs)
  | [], _, _, _, _ => keepsScope_ok []
  | f :: fs, owner, scope, h, hscope => by
    rw [List.forall_mem_cons] at h
    have hfirst := keepsScope_compileNode hb s options f owner scope h.1 fun c hc p hp =>
      hscope c hc p (List.mem_append_left _ hp)
    have hrest := keepsScope_compileAll hb s options fs owner scope h.2 fun c hc p hp =>
      hscope c hc p (List.mem_append_right _ hp)
    exact hfirst.bind fun part _ => hrest.bind fun parts _ => keepsScope_ok (part :: parts)

end

/-- **A walk keeps to the scopes.** Over qualified trees it does not fail for a column outside its
scope, if the backend does not. -/
theorem keepsScope_compile {b : Backend α} (hb : b.KeepsScope) (s : Schema) (options : Options)
    (type : TypeExpr) {fs : List Filter} (h : ∀ f ∈ fs, f.Qualified) :
    RecordQuery.KeepsScope (b.compile s options type fs) := by
  rw [compile_eq]
  -- outside all quantifiers there is no scope to leave
  refine keepsScope_compileNode hb s options (conjoined fs) type none ?_ nofun
  match fs with
  | [] => exact Filter.qualified_group.mpr h
  | [f] => exact h f List.mem_cons_self
  | f :: g :: fs => exact Filter.qualified_group.mpr h

end Backend

theorem Registry.keepsScope_require {σ : Type} (r : Registry σ) (o : Operator) :
    KeepsScope (r.require o) := by
  rw [require]
  split
  · exact keepsScope_ok _
  · exact nofun

theorem Predicate.backend_keepsScope (registry : Registry Strategy) (nullGuard : Bool) :
    (backend registry nullGuard).KeepsScope where
  condition c := (registry.keepsScope_require c.operator).map _
  quantified _ _ _ := keepsScope_ok _

theorem Token.backend_keepsScope : backend.KeepsScope where
  condition c := (keepsScope_liftFault (CanonicalValue.of c.value)).map _
  quantified _ _ _ := keepsScope_ok _

/-! ### Clauses -/

namespace Schema

variable (s : Schema)

theorem keepsScope_unmappedAttribute (owner name : String) :
    KeepsScope (s.unmappedAttribute owner name) := by
  rw [unmappedAttribute]
  repeat' split
  all_goals exact nofun

theorem keepsScope_attributeAt (hop : Hop) : KeepsScope (s.attributeAt hop) := by
  rw [attributeAt]
  split
  · rw [attributeOf]
    repeat' split
    all_goals first
      | exact s.keepsScope_unmappedAttribute _ _
      | exact nofun
  · exact nofun

theorem keepsScope_requireLink (c : ResolvedColumn) (hop : Hop) :
    KeepsScope (s.requireLink c hop) := by
  rw [requireLink]
  repeat' split
  all_goals exact nofun

theorem keepsScope_throughRelations (c : ResolvedColumn) (clause : Sql.Clause) :
    KeepsScope (s.throughRelations c clause) :=
  keepsScope_foldrM (fun hop _ => (s.keepsScope_requireLink c hop).map _) c.leading clause

end Schema

theorem keepsScope_quantifiedClause (link : Sql.RowLink) (inner : Sql.Clause) (q : Quantifier) :
    KeepsScope (quantifiedClause link inner q) := by
  rw [quantifiedClause.eq_def]
  repeat' split
  all_goals
    intro _ _ h
    cases h

theorem clauseBackend_keepsScope (s : Schema) (registry : Registry Sql.ClauseStrategy) :
    (clauseBackend s registry).KeepsScope where
  -- attribute, strategy, clause and relations: no step looks at a scope
  condition c := by
    refine (s.keepsScope_attributeAt c.column.terminal).bind fun member _ => ?_
    refine (registry.keepsScope_require c.operator).bind fun strategy _ => ?_
    refine (keepsScope_liftFault _).bind fun clause _ => ?_
    exact s.keepsScope_throughRelations c.column clause
  quantified q column inner := by
    simp only [clauseBackend]
    split
    · refine (s.keepsScope_requireLink column column.terminal).bind fun link _ => ?_
      refine (keepsScope_quantifiedClause link inner q).bind fun clause _ => ?_
      exact s.keepsScope_throughRelations column clause
    · exact nofun

/-! ### Reachable trees -/

/-- The trees that the interface makes, starting from nothing. A constructor whose parts are trees
asks for reachable ones. -/
inductive Reachable : Filter → Prop
  | leaf {a : LeafArgs} {f : Filter} (made : a.build = .ok f) : Reachable f
  | node {a : NodeArgs} {f : Filter} (parts : ∀ g, .node g ∈ a.parts → Reachable g)
      (made : a.build = .ok f) : Reachable f
  | nodeQualified {a : NodeArgs} {f : Filter} (parts : ∀ g, .node g ∈ a.parts → Reachable g)
      (made : a.buildQualified = .ok f) : Reachable f
  /-- `&` and `|` -/
  | combine {k : Connective} {p r : NodePart} {f : Filter} (left : ∀ g, p = .node g → Reachable g)
      (right : ∀ g, r = .node g → Reachable g) (made : NodePart.combine k p r = .ok (.node f)) :
      Reachable f
  | parse {text : String} {f : Filter} (made : Filter.parse text = .ok f) : Reachable f
  | parseAll {text : String} {fs : List Filter} {f : Filter} (made : Filter.parseAll text = .ok fs)
      (mem : f ∈ fs) : Reachable f
  | ofData {v : Value} {f : Filter} (made : Filter.ofData v = .ok f) : Reachable f
  | test {h : Handle} {o : Operator} {v : Value} {f : Filter} (made : h.test o v = .ok f) :
      Reachable f
  | among {h : Handle} {vs : List Value} {f : Filter} (made : h.among vs = .ok f) : Reachable f
  /-- `and_` and `or_` -/
  | composeAll {operator : Combinator} {parts : List NodePart} {column : Option ColumnPath}
      {f : Filter} (given : ∀ g, .node g ∈ parts → Reachable g)
      (made : composeAll operator parts column = .ok f) : Reachable f
  /-- `any` and `all` -/
  | quantify {h : Handle} {q : Quantifier} {parts : List NodePart} {f : Filter}
      (given : ∀ g, .node g ∈ parts → Reachable g) (made : h.quantify q parts = .ok f) : Reachable f
  | builder {steps : List CriteriaBuilder.Step} {c : Criteria} {f : Filter}
      (given : ∀ g o v, .filter (.filter g) o v ∈ steps → Reachable g)
      (made : (CriteriaBuilder.run steps).build = .ok c) (mem : f ∈ c.filters) : Reachable f
  /-- A cast of filters on its own, or of the filters of criteria. -/
  | cast {c : Caster} {fs gs : List Filter} {f : Filter}
      (rules : ∀ key rule, (key, .replaced rule) ∈ c.options.filters →
        ∀ g ∈ Filter.nodesAll fs, ∀ out, rule g = .ok out → ∀ h ∈ out, Reachable h)
      (made : castFilters c fs = .ok gs) (mem : f ∈ gs) : Reachable f
  | castCriteria {c : Caster} {before after : Criteria} {f : Filter}
      (rules : ∀ key rule, (key, .replaced rule) ∈ c.options.filters →
        ∀ g ∈ Filter.nodesAll before.filters, ∀ out, rule g = .ok out → ∀ h ∈ out, Reachable h)
      (made : castCriteria c before = .ok after) (mem : f ∈ after.filters) : Reachable f
  /-- The filters inside a tree can be taken out of it. -/
  | part {f g : Filter} (whole : Reachable f) (mem : g ∈ f.nodes) : Reachable g

/-- **Reachable trees are qualified.** -/
theorem Reachable.qualified {f : Filter} (h : Reachable f) : f.Qualified := by
  induction h with
  | leaf made => exact LeafArgs.qualified_build made
  | node _ made ih => exact NodeArgs.qualified_build ih made
  | nodeQualified _ made ih => exact NodeArgs.qualified_buildQualified ih made
  | combine _ _ made left right => exact NodePart.qualified_combine left right made
  | parse made => exact Filter.qualified_parse made
  | parseAll made mem => exact Filter.qualified_parseAll made _ mem
  | ofData made => exact Filter.qualified_ofData _ made
  | test made => exact Handle.qualified_test made
  | among made => exact Handle.qualified_test made
  | composeAll _ made ih => exact qualified_composeAll ih made
  | quantify _ made ih => exact qualified_composeAll ih made
  | builder _ made mem ih => exact (CriteriaBuilder.qualified_run ih).build made _ mem
  | @cast c fs gs f _ made mem ih =>
    obtain ⟨-, -, made⟩ := bind_eq_ok_iff.mp made
    -- the rules return reachable filters, so the induction hypothesis is about their outcomes
    exact Caster.qualified_castAll fs ih made _ mem
  | @castCriteria c before after f _ made mem ih =>
    obtain ⟨-, -, made⟩ := bind_eq_ok_iff.mp made
    obtain ⟨gs, hgs, made⟩ := bind_eq_ok_iff.mp made
    obtain ⟨items, -, made⟩ := bind_eq_ok_iff.mp made
    cases made
    exact Caster.qualified_castAll before.filters ih hgs _ mem
  | part _ mem ih => exact ih.of_mem_nodes mem

/-- The rules that are given item by item return reachable trees for reachable ones. -/
theorem FilterEmission.reachable_of_applyAll {rule : List FilterEmission} {f : Filter}
    {out : List Filter} (hf : Reachable f) (made : applyAll rule f = .ok out) :
    ∀ g ∈ out, Reachable g := by
  obtain ⟨parts, hparts, rfl⟩ := map_eq_ok_iff.mp made
  intro g hg
  obtain ⟨part, hpart, hg⟩ := List.mem_flatten.mp hg
  obtain ⟨e, -, he⟩ := exists_of_mem_mapM hparts hpart
  cases e with
  | same =>
    cases he
    rwa [List.mem_singleton.mp hg]
  | children =>
    -- the conditions of a reachable tree are reachable themselves
    cases f with
    | leaf => cases he
    | group _ cs | quantified _ _ cs =>
      cases he
      exact hf.part (List.mem_cons_of_mem _ (Filter.mem_nodesAll.mpr ⟨g, hg, g.self_mem_nodes⟩))
  | leaf column operator template =>
    obtain ⟨h, hh, rfl⟩ := map_eq_ok_iff.mp he
    rw [List.mem_singleton.mp hg]
    exact .leaf hh

/-- **Reachable trees are well scoped.** Below every quantifier in them, at any depth, each column
is longer than the quantifier's column and begins with it, ignoring case. They have texts, on their
own and in lists, and neither predicates nor clauses nor fingerprints fail for a column outside its
scope, whatever record type they are made for. -/
theorem Reachable.well_scoped :
    (∀ f, Reachable f →
      (∀ q c cs, .quantified q c cs ∈ f.nodes → ∀ p ∈ Filter.columnsAll cs,
        c.length < p.length ∧ ColumnPath.beginsWith c.segments p.segments = true) ∧
      ∃ text, f.format = .ok text) ∧
    ∀ fs, (∀ f ∈ fs, Reachable f) →
      (∃ text, Filter.formatAll fs = .ok text) ∧
      ∀ (s : Schema) (options : Options) (type : TypeExpr) (path scope : String),
        (∀ registry, compileFilter s options registry type fs ≠
          .error (.misuse (.notBelow path scope))) ∧
        (∀ registry, compileClause s options registry type fs ≠
          .error (.misuse (.notBelow path scope))) ∧
        ∀ workspace, Fingerprint.of s workspace options type fs ≠
          .error (.misuse (.notBelow path scope)) := by
  refine ⟨fun f hf => ⟨fun q c cs hmem p hp => ?_, hf.qualified.exists_format⟩, fun fs hfs => ?_⟩
  · exact ColumnPath.isBelow_iff.mp (hf.qualified q c cs hmem p hp)
  · -- all three compilers keep to the scope of qualified filters
    have hqualified : ∀ f ∈ fs, f.Qualified := fun f hf => (hfs f hf).qualified
    refine ⟨Filter.exists_formatAll hqualified, fun s options type path scope => ?_⟩
    refine ⟨fun registry => ?_, fun registry => ?_, fun workspace => ?_⟩
    · exact Backend.keepsScope_compile (Predicate.backend_keepsScope registry options.nullGuard)
        s options type hqualified path scope
    · exact Backend.keepsScope_compile (clauseBackend_keepsScope s registry) s options type
        hqualified path scope
    · exact (Backend.keepsScope_compile Token.backend_keepsScope s options type hqualified).map _
        path scope

/-- Two quantifiers, one in the other, whose columns are written in different cases. -/
theorem Reachable.well_scoped_of_marks :
    ∃ f, Reachable f ∧
      (∀ q c cs, .quantified q c cs ∈ f.nodes → ∀ p ∈ Filter.columnsAll cs,
        c.length < p.length ∧ ColumnPath.beginsWith c.segments p.segments = true) ∧
      ∃ text, f.format = .ok text := by
  let roles : ColumnPath := ⟨["roles"], by decide, by decide⟩
  let marks : ColumnPath := ⟨["Roles", "marks"], by decide, by decide⟩
  let name : ColumnPath := ⟨["ROLES", "Marks", "name"], by decide, by decide⟩
  let test : Filter := .leaf name .eq (.plain "x")
  let inner : Filter := .quantified .all marks [test]
  have htest : Reachable test := .leaf (a := ⟨.path name, "eq", .text "x"⟩) rfl
  -- both constructions take columns that repeat the column above in other letters
  have hinner : Reachable inner := by
    refine .nodeQualified (a := ⟨"all", [.node test], some (.path marks)⟩) (fun g hg => ?_) (by rfl)
    cases List.mem_singleton.mp hg
    exact htest
  have houter : Reachable (.quantified .any roles [inner]) := by
    refine .nodeQualified (a := ⟨"any", [.node inner], some (.path roles)⟩) (fun g hg => ?_)
      (by rfl)
    cases List.mem_singleton.mp hg
    exact hinner
  exact ⟨_, houter, Reachable.well_scoped.1 _ houter⟩

end RecordQuery
