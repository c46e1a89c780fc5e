import RecordQuery.Casting.Rule
import RecordQuery.Filter.Data
import RecordQuery.Proofs.Calls
import RecordQuery.Proofs.Grammar

/-!
# Qualified trees

The conditions of a quantified filter are kept with full paths, and what reads a tree takes the
quantifier's column off them again. This works on trees in which every column below a quantifier, at
any depth, continues the quantifier's column. These are the qualified trees.

* `Filter.nodes` lists a filter and all filters inside it, `Filter.Qualified` is the condition;
  `Filter.Scoped` is the same for any relation of a column to the quantifier's.
* `Filter.qualified_qualify` — a qualified tree that is moved below a column stays qualified, at all
  quantifiers inside it at once. It is the reason why nothing has to be checked again when a tree
  becomes a condition of another one.
* `Filter.qualified_compose`, `Filter.qualified_ofQualified`, `Filter.qualified_parse`,
  `Filter.qualified_ofData`, `CriteriaBuilder.Qualified.apply` and `Caster.qualified_cast` — every
  way of making trees gives qualified ones. Conditions are put below a column or are checked against
  it, one or the other.
* `Filter.exists_surface` — qualified trees have a surface form, and so a text.
* `Filter.NoneEmpty` — another condition on all filters inside one: its groups say something.
-/

namespace RecordQuery

/-! ### Paths that continue others -/

namespace ColumnPath

theorem beginsWith_trans : ∀ {rs ss ts : List String}, beginsWith rs ss = true →
    beginsWith ss ts = true → beginsWith rs ts = true
  | [], _, _, _, _ => rfl
  | r :: rs, s :: ss, t :: ts, h, h' => by
    simp only [beginsWith, Bool.and_eq_true, beq_iff_eq] at h h' ⊢
    exact ⟨h.1.trans h'.1, beginsWith_trans h.2 h'.2⟩

theorem isBelow_iff {p c : ColumnPath} :
    p.isBelow c = true ↔ c.length < p.length ∧ beginsWith c.segments p.segments = true := by
  rw [isBelow, Bool.and_eq_true, decide_eq_true_eq]

theorem isBelow_trans {p c d : ColumnPath} (h : p.isBelow c = true) (h' : c.isBelow d = true) :
    p.isBelow d = true := by
  rw [isBelow_iff] at h h' ⊢
  exact ⟨h'.1.trans h.1, beginsWith_trans h'.2 h.2⟩

/-- Below its scope, a column has a relative path. -/
theorem exists_within {scope : Option ColumnPath} {p : ColumnPath}
    (h : ∀ c ∈ scope, p.isBelow c = true) : ∃ q, p.within scope = .ok q := by
  cases scope with
  | none => exact ⟨p, rfl⟩
  | some c =>
    exact ⟨⟨p.segments.drop c.length, drop_ne_nil (h c rfl), p.all_drop c.length⟩,
      relativeTo_eq_ok_iff.mpr ⟨h c rfl, rfl⟩⟩

end ColumnPath

/-! ### The filters inside a filter -/

namespace Filter

mutual

/-- A filter and the filters inside it. -/
def nodes : Filter → List Filter
  | leaf c o v => [leaf c o v]
  | group k cs => group k cs :: nodesAll cs
  | quantified q c cs => quantified q c cs :: nodesAll cs
termination_by structural f => f

/-- Several filters and the filters inside them. -/
def nodesAll : List Filter → List Filter
  | [] => []
  | f :: fs => nodes f ++ nodesAll fs
termination_by structural fs => fs

end

theorem mem_nodesAll {g : Filter} {fs : List Filter} : g ∈ nodesAll fs ↔ ∃ f ∈ fs, g ∈ f.nodes := by
  induction fs with
  | nil => simp [nodesAll]
  | cons f fs ih => simp [nodesAll, ih]

theorem mem_columnsAll {p : ColumnPath} {fs : List Filter} :
    p ∈ columnsAll fs ↔ ∃ f ∈ fs, p ∈ f.columns := by
  induction fs with
  | nil => simp [columnsAll]
  | cons f fs ih => simp [columnsAll, ih]

theorem self_mem_nodes (f : Filter) : f ∈ f.nodes := by
  cases f <;> simp [nodes]

mutual

/-- What is inside a filter inside another one is inside the other one. -/
theorem nodes_subset : ∀ {f g : Filter}, g ∈ f.nodes → g.nodes ⊆ f.nodes
  | leaf c o v, g, h => by
    rw [nodes, List.mem_singleton] at h
    rw [h]
    exact List.Subset.refl _
  | group k cs, g, h => by
    rw [nodes, List.mem_cons] at h
    rcases h with rfl | h
    · exact List.Subset.refl _
    · exact List.subset_cons_of_subset _ (nodesAll_subset h)
  | quantified q c cs, g, h => by
    rw [nodes, List.mem_cons] at h
    rcases h with rfl | h
    · exact List.Subset.refl _
    · exact List.subset_cons_of_subset _ (nodesAll_subset h)

theorem nodesAll_subset : ∀ {fs : List Filter} {g : Filter}, g ∈ nodesAll fs →
    g.nodes ⊆ nodesAll fs
  | f :: fs, g, h => by
    rw [nodesAll, List.mem_append] at h
    rcases h with h | h
    · exact List.subset_append_of_subset_left _ (nodes_subset h)
    · exact List.subset_append_of_subset_right _ (nodesAll_subset h)

end

/-! ### Columns below quantifiers -/

/-- Below every quantifier in the tree, at any depth, all columns stand in a relation to its
column. -/
def Scoped (R : ColumnPath → ColumnPath → Prop) (f : Filter) : Prop :=
  ∀ q c cs, quantified q c cs ∈ f.nodes → ∀ p ∈ columnsAll cs, R p c

section Scoped

variable {R : ColumnPath → ColumnPath → Prop}

theorem Scoped.of_mem_nodes {f g : Filter} (h : f.Scoped R) (hg : g ∈ f.nodes) : g.Scoped R :=
  fun q c cs hmem => h q c cs (nodes_subset hg hmem)

theorem scoped_leaf (c : ColumnPath) (o : Operator) (v : RawText) : (leaf c o v).Scoped R := by
  intro q d cs h
  cases List.mem_singleton.mp h

theorem scoped_group {k : Connective} {cs : List Filter} :
    (group k cs).Scoped R ↔ ∀ f ∈ cs, f.Scoped R := by
  simp only [Scoped, nodes, List.mem_cons, reduceCtorEq, false_or, mem_nodesAll]
  constructor
  · exact fun h f hf q c ds hmem => h q c ds ⟨f, hf, hmem⟩
  · exact fun h q c ds ⟨f, hf, hmem⟩ => h f hf q c ds hmem

theorem scoped_quantified {q : Quantifier} {c : ColumnPath} {cs : List Filter} :
    (quantified q c cs).Scoped R ↔ (∀ p ∈ columnsAll cs, R p c) ∧ ∀ f ∈ cs, f.Scoped R := by
  simp only [Scoped, nodes, List.mem_cons, mem_nodesAll]
  constructor
  · exact fun h => ⟨h q c cs (.inl rfl), fun f hf q' d ds hmem => h q' d ds (.inr ⟨f, hf, hmem⟩)⟩
  · rintro ⟨hcolumns, h⟩ q' d ds (hmem | ⟨f, hf, hmem⟩)
    · cases hmem
      exact hcolumns
    · exact h f hf q' d ds hmem

end Scoped

/-! ### Qualified trees -/

/-- Below every quantifier in the tree, at any depth, all columns continue its column. -/
def Qualified (f : Filter) : Prop := f.Scoped fun p c => p.isBelow c = true

theorem Qualified.of_mem_nodes {f g : Filter} (h : f.Qualified) (hg : g ∈ f.nodes) : g.Qualified :=
  Scoped.of_mem_nodes h hg

theorem qualified_leaf (c : ColumnPath) (o : Operator) (v : RawText) : (leaf c o v).Qualified :=
  scoped_leaf c o v

theorem qualified_group {k : Connective} {cs : List Filter} :
    (group k cs).Qualified ↔ ∀ f ∈ cs, f.Qualified :=
  scoped_group

theorem qualified_quantified {q : Quantifier} {c : ColumnPath} {cs : List Filter} :
    (quantified q c cs).Qualified ↔
      (∀ p ∈ columnsAll cs, p.isBelow c = true) ∧ ∀ f ∈ cs, f.Qualified :=
  scoped_quantified

/-! ### Groups that say something -/

/-- No group and no quantified filter in the tree is empty. -/
def NoneEmpty (f : Filter) : Prop :=
  (∀ k cs, group k cs ∈ f.nodes → cs ≠ []) ∧ ∀ q c cs, quantified q c cs ∈ f.nodes → cs ≠ []

theorem NoneEmpty.of_mem_nodes {f g : Filter} (h : f.NoneEmpty) (hg : g ∈ f.nodes) : g.NoneEmpty :=
  ⟨fun k cs hmem => h.1 k cs (nodes_subset hg hmem),
    fun q c cs hmem => h.2 q c cs (nodes_subset hg hmem)⟩

theorem noneEmpty_leaf (c : ColumnPath) (o : Operator) (v : RawText) : (leaf c o v).NoneEmpty := by
  constructor
  · exact fun k cs h => by cases List.mem_singleton.mp h
  · exact fun q d cs h => by cases List.mem_singleton.mp h

theorem noneEmpty_group {k : Connective} {cs : List Filter} :
    (group k cs).NoneEmpty ↔ cs ≠ [] ∧ ∀ f ∈ cs, f.NoneEmpty := by
  constructor
  · intro h
    refine ⟨h.1 k cs (self_mem_nodes _), fun f hf => h.of_mem_nodes ?_⟩
    rw [nodes]
    exact List.mem_cons_of_mem _ (mem_nodesAll.mpr ⟨f, hf, self_mem_nodes f⟩)
  · rintro ⟨hne, h⟩
    simp only [NoneEmpty, nodes, List.mem_cons, mem_nodesAll]
    refine ⟨?_, ?_⟩
    · rintro k' ds (hmem | ⟨f, hf, hmem⟩)
      · cases hmem
        exact hne
      · exact (h f hf).1 k' ds hmem
    · rintro q c ds (hmem | ⟨f, hf, hmem⟩)
      · cases hmem
      · exact (h f hf).2 q c ds hmem

theorem noneEmpty_quantified {q : Quantifier} {c : ColumnPath} {cs : List Filter} :
    (quantified q c cs).NoneEmpty ↔ cs ≠ [] ∧ ∀ f ∈ cs, f.NoneEmpty := by
  constructor
  · intro h
    refine ⟨h.2 q c cs (self_mem_nodes _), fun f hf => h.of_mem_nodes ?_⟩
    rw [nodes]
    exact List.mem_cons_of_mem _ (mem_nodesAll.mpr ⟨f, hf, self_mem_nodes f⟩)
  · rintro ⟨hne, h⟩
    simp only [NoneEmpty, nodes, List.mem_cons, mem_nodesAll]
    refine ⟨?_, ?_⟩
    · rintro k ds (hmem | ⟨f, hf, hmem⟩)
      · -- the filter itself, or one of the filters below it
        cases hmem
      · exact (h f hf).1 k ds hmem
    · rintro q' d ds (hmem | ⟨f, hf, hmem⟩)
      · cases hmem
        exact hne
      · exact (h f hf).2 q' d ds hmem

/-! ### Moving a tree below a column -/

mutual

theorem columns_qualify (c : ColumnPath) :
    ∀ f : Filter, (qualify c f).columns = f.columns.map (c ++ ·)
  | leaf d o v => rfl
  | group k fs => by
    rw [qualify, columns, columns, columnsAll_qualifyAll c fs]
  | quantified q d fs => by
    rw [qualify, columns, columns, columnsAll_qualifyAll c fs, List.map_cons]

theorem columnsAll_qualifyAll (c : ColumnPath) :
    ∀ fs : List Filter, columnsAll (qualifyAll c fs) = (columnsAll fs).map (c ++ ·)
  | [] => rfl
  | f :: fs => by
    rw [qualifyAll, columnsAll, columnsAll, columns_qualify c f, columnsAll_qualifyAll c fs,
      List.map_append]

end

/-- Conditions that are moved below a column continue it. -/
theorem isBelow_of_mem_qualifyAll {c p : ColumnPath} {fs : List Filter}
    (h : p ∈ columnsAll (qualifyAll c fs)) : p.isBelow c = true := by
  rw [columnsAll_qualifyAll] at h
  obtain ⟨d, -, rfl⟩ := List.mem_map.mp h
  exact ColumnPath.isBelow_append c d

mutual

/-- **Qualified trees move as a whole.** Below a column they are qualified at every level. -/
theorem qualified_qualify (c : ColumnPath) : ∀ {f : Filter}, f.Qualified → (qualify c f).Qualified
  | leaf d o v, _ => qualified_leaf (c ++ d) o v
  | group k fs, h => qualified_group.mpr (qualified_qualifyAll c (qualified_group.mp h))
  | quantified q d fs, h => by
    obtain ⟨hcolumns, hfs⟩ := qualified_quantified.mp h
    refine qualified_quantified.mpr ⟨fun p hp => ?_, qualified_qualifyAll c hfs⟩
    -- the quantifier's column moves with those of its conditions
    rw [columnsAll_qualifyAll] at hp
    obtain ⟨p', hp', rfl⟩ := List.mem_map.mp hp
    exact (ColumnPath.isBelow_append_append c p' d).trans (hcolumns p' hp')

theorem qualified_qualifyAll (c : ColumnPath) : ∀ {fs : List Filter}, (∀ f ∈ fs, f.Qualified) →
    ∀ f ∈ qualifyAll c fs, f.Qualified
  | [], _, f, hf => nomatch hf
  | g :: gs, h, f, hf => by
    rw [List.forall_mem_cons] at h
    rw [qualifyAll, List.mem_cons] at hf
    rcases hf with rfl | hf
    · exact qualified_qualify c h.1
    · exact qualified_qualifyAll c h.2 f hf

end

/-! ### Groups and quantified filters -/

theorem qualified_compose {operator : Combinator} {column : Option ColumnPath} {fs : List Filter}
    {f : Filter} (h : ∀ g ∈ fs, g.Qualified) (made : compose operator column fs = .ok f) :
    f.Qualified := by
  cases operator with
  | connective k =>
    cases column with
    | none =>
      cases made
      exact qualified_group.mpr h
    | some c => cases made
  | quantifier q =>
    cases column with
    | none => cases made
    | some c =>
      cases made
      -- the conditions are put below the column, so there is nothing to check
      exact qualified_quantified.mpr
        ⟨fun p hp => isBelow_of_mem_qualifyAll hp, qualified_qualifyAll c h⟩

/-- Conditions whose columns continue a column make a quantified filter over it. -/
theorem ofQualified_of_isBelow (q : Quantifier) {c : ColumnPath} {fs : List Filter}
    (h : ∀ p ∈ columnsAll fs, p.isBelow c = true) :
    ofQualified (.quantifier q) (some c) fs = .ok (.quantified q c fs) := by
  have hfind : (columnsAll fs).find? (fun p => !p.isBelow c) = none :=
    List.find?_eq_none.mpr fun p hp => by rw [h p hp]; exact Bool.false_ne_true
  rw [ofQualified, hfind]

theorem qualified_ofQualified {operator : Combinator} {column : Option ColumnPath}
    {fs : List Filter} {f : Filter} (h : ∀ g ∈ fs, g.Qualified)
    (made : ofQualified operator column fs = .ok f) : f.Qualified := by
  cases operator with
  | connective k =>
    cases column with
    | none =>
      cases made
      exact qualified_group.mpr h
    | some c => cases made
  | quantifier q =>
    cases column with
    | none => cases made
    | some c =>
      rw [ofQualified] at made
      split at made
      · cases made
      · next hfind =>
        cases made
        -- no column was found that does not continue the quantifier's
        refine qualified_quantified.mpr ⟨fun p hp => ?_, h⟩
        have hp' := List.find?_eq_none.mp hfind p hp
        rwa [Bool.not_eq_true', Bool.not_eq_false] at hp'

end Filter

/-- What holds of the filters among some parts holds of the filters that the parts are. -/
theorem NodePart.forall_filters {P : Filter → Prop} : ∀ {parts : List NodePart} {fs : List Filter},
    (∀ f, .node f ∈ parts → P f) → NodePart.filters parts = .ok fs → ∀ f ∈ fs, P f
  | [], fs, _, h => by
    cases h
    exact fun f hf => nomatch hf
  | .node g :: parts, fs, hP, h => by
    obtain ⟨gs, hgs, rfl⟩ := map_eq_ok_iff.mp h
    rw [List.forall_mem_cons]
    refine ⟨hP g List.mem_cons_self, ?_⟩
    exact forall_filters (fun f hf => hP f (List.mem_cons_of_mem _ hf)) hgs
  | .value v :: parts, fs, _, h => by
    -- a value in the list is an error, so that there are no filters
    rw [NodePart.filters] at h
    split at h
    · cases h
    · cases h

/-! ### Text -/

namespace Surface

mutual

theorem qualified_tree : ∀ u : Surface, u.tree.Qualified
  | leaf c o v => Filter.qualified_leaf c o v
  | group _ us => Filter.qualified_group.mpr (qualified_trees us)
  | quantified q c us =>
    Filter.qualified_compose (qualified_trees us) ((compose_trees us).2 q c)

theorem qualified_trees : ∀ us : List Surface, ∀ f ∈ trees us, f.Qualified
  | [], f, hf => nomatch hf
  | u :: us, f, hf => by
    rw [trees, underAll, List.mem_cons] at hf
    rcases hf with rfl | hf
    · exact qualified_tree u
    · exact qualified_trees us f hf

end

end Surface

namespace Filter

theorem qualified_parse {text : String} {f : Filter} (h : parse text = .ok f) : f.Qualified := by
  obtain ⟨u, -, rfl⟩ := (parse_eq_ok_iff_derives text f).mp h
  exact u.qualified_tree

theorem qualified_parseAll {text : String} {fs : List Filter} (h : parseAll text = .ok fs) :
    ∀ f ∈ fs, f.Qualified := by
  obtain ⟨us, -, rfl⟩ := (parseAll_eq_ok_iff text fs).mp h
  exact Surface.qualified_trees us

/-! ### Data -/

section Reader

variable {entries : List (String × Value)} {word : String}

theorem ofData_of_combinator {k : Combinator} (hword : operatorText entries = .ok word)
    (hk : Combinator.ofToken? word = some k) :
    ofData (.map entries) = (conditionsIn entries).bind (combine k entries) := by
  rw [ofData, hword]
  simp only [Except.bind, hk]

theorem ofData_of_operator {o : Operator} (hword : operatorText entries = .ok word)
    (hnone : Combinator.ofToken? word = none) (ho : Operator.ofToken? word = some o) :
    ofData (.map entries) = leafOfData o entries := by
  rw [ofData, hword]
  simp only [Except.bind, hnone, ho]

end Reader

/-- Conditions are given as a list, or as nothing. -/
private theorem conditionsOf_cases {v : Value} {fs : List Filter} (h : conditionsOf v = .ok fs) :
    fs = [] ∨ ∃ vs, v = .list vs ∧ ofDataAll vs = .ok fs := by
  rw [conditionsOf.eq_def] at h
  split at h
  · exact .inr ⟨_, rfl, h⟩
  · split at h
    · cases h
      exact .inl rfl
    · cases h

/-- A property that all trees from data have: leaves have it, and combinators have it when their
conditions do. -/
structure HeldByData (P : Filter → Prop) : Prop where
  leaf : ∀ {o entries f}, leafOfData o entries = .ok f → P f
  combined : ∀ {k entries fs f}, (∀ g ∈ fs, P g) → combine k entries fs = .ok f → P f

namespace HeldByData

variable {P : Filter → Prop}

mutual

/-- **Induction on data**, by the steps of the reader. -/
theorem ofData (hP : HeldByData P) (v : Value) {f : Filter} (h : ofData v = .ok f) : P f := by
  cases v with
  | map entries =>
    obtain ⟨word, -, h⟩ := bind_eq_ok_iff.mp h
    split at h
    · obtain ⟨fs, hfs, h⟩ := bind_eq_ok_iff.mp h
      exact hP.combined (hP.conditionsIn entries hfs) h
    · split at h
      · exact hP.leaf h
      · cases h
  | _ => cases h

theorem conditionsIn (hP : HeldByData P) (entries : List (String × Value)) {fs : List Filter}
    (h : conditionsIn entries = .ok fs) : ∀ f ∈ fs, P f := by
  cases entries with
  | nil =>
    cases h
    exact List.forall_mem_nil _
  | cons entry rest =>
    obtain ⟨key, v⟩ := entry
    rw [Filter.conditionsIn] at h
    split at h
    · exact hP.conditionsOf v h
    · exact hP.conditionsIn rest h

theorem conditionsOf (hP : HeldByData P) (v : Value) {fs : List Filter}
    (h : conditionsOf v = .ok fs) : ∀ f ∈ fs, P f := by
  cases v with
  | list vs => exact hP.ofDataAll vs h
  | _ =>
    obtain rfl | ⟨vs, hv, -⟩ := conditionsOf_cases h
    · exact List.forall_mem_nil _
    · cases hv

theorem ofDataAll (hP : HeldByData P) (vs : List Value) {fs : List Filter}
    (h : ofDataAll vs = .ok fs) : ∀ f ∈ fs, P f := by
  cases vs with
  | nil =>
    cases h
    exact List.forall_mem_nil _
  | cons v vs =>
    obtain ⟨g, hg, h⟩ := bind_eq_ok_iff.mp h
    obtain ⟨gs, hgs, h⟩ := bind_eq_ok_iff.mp h
    cases h
    rw [List.forall_mem_cons]
    exact ⟨hP.ofData v hg, hP.ofDataAll vs hgs⟩

end

end HeldByData

/-- A leaf of some data has the column that the data gives, and a plain value. -/
theorem leafOfData_cases {o : Operator} {entries : List (String × Value)} {f : Filter}
    (made : leafOfData o entries = .ok f) :
    ∃ column path text, (columnOfData column).resolve = .ok path ∧
      f = .leaf path o (.plain text) := by
  rw [leafOfData] at made
  split at made
  · obtain ⟨shown, -, made⟩ := bind_eq_ok_iff.mp made
    -- without a column there is an error in any case
    cases made
  · next column _ =>
    obtain ⟨text, -, made⟩ := bind_eq_ok_iff.mp made
    obtain ⟨path, hpath, made⟩ := bind_eq_ok_iff.mp made
    cases made
    exact ⟨column, path, text, hpath, rfl⟩

theorem qualified_ofData (v : Value) {f : Filter} (h : ofData v = .ok f) : f.Qualified := by
  refine HeldByData.ofData (P := Qualified) ⟨fun made => ?_, fun hfs made => ?_⟩ v h
  · obtain ⟨-, path, text, -, rfl⟩ := leafOfData_cases made
    exact qualified_leaf _ _ _
  · obtain ⟨column, -, made⟩ := bind_eq_ok_iff.mp made
    exact qualified_ofQualified hfs made

end Filter

/-! ### Code -/

theorem LeafArgs.qualified_build {a : LeafArgs} {f : Filter} (made : a.build = .ok f) :
    f.Qualified := by
  obtain ⟨column, -, made⟩ := bind_eq_ok_iff.mp made
  obtain ⟨operator, -, made⟩ := bind_eq_ok_iff.mp made
  obtain ⟨raw, -, made⟩ := bind_eq_ok_iff.mp made
  cases made
  exact Filter.qualified_leaf _ _ _

namespace NodeArgs

variable {a : NodeArgs} {f : Filter}

theorem qualified_build (h : ∀ g, .node g ∈ a.parts → g.Qualified) (made : a.build = .ok f) :
    f.Qualified := by
  obtain ⟨operator, -, made⟩ := bind_eq_ok_iff.mp made
  obtain ⟨fs, hfs, made⟩ := bind_eq_ok_iff.mp made
  obtain ⟨column, -, made⟩ := bind_eq_ok_iff.mp made
  exact Filter.qualified_compose (NodePart.forall_filters h hfs) made

theorem qualified_buildQualified (h : ∀ g, .node g ∈ a.parts → g.Qualified)
    (made : a.buildQualified = .ok f) : f.Qualified := by
  obtain ⟨operator, -, made⟩ := bind_eq_ok_iff.mp made
  obtain ⟨column, -, made⟩ := bind_eq_ok_iff.mp made
  obtain ⟨-, -, made⟩ := bind_eq_ok_iff.mp made
  obtain ⟨fs, hfs, made⟩ := bind_eq_ok_iff.mp made
  exact Filter.qualified_ofQualified (NodePart.forall_filters h hfs) made

end NodeArgs

/-- Two parts under a connective are a filter only if both are filters. -/
theorem NodePart.qualified_combine {k : Connective} {p r : NodePart} {f : Filter}
    (hp : ∀ g, p = .node g → g.Qualified) (hr : ∀ g, r = .node g → g.Qualified)
    (made : NodePart.combine k p r = .ok (.node f)) : f.Qualified := by
  cases p with
  | node g =>
    obtain ⟨fs, hfs, made⟩ := bind_eq_ok_iff.mp made
    cases made
    refine Filter.qualified_group.mpr (NodePart.forall_filters (fun f hf => ?_) hfs)
    rcases List.mem_cons.mp hf with hf | hf
    · exact hp f hf.symm
    · exact hr f (List.mem_singleton.mp hf).symm
  | value v =>
    cases r with
    | node g => cases made
    | value w =>
      -- two values make no filter, whatever they are
      obtain ⟨x, -, hx⟩ := map_eq_ok_iff.mp made
      cases hx

theorem Handle.qualified_test {h : Handle} {o : Operator} {v : Value} {f : Filter}
    (made : h.test o v = .ok f) : f.Qualified := by
  obtain ⟨raw, -, rfl⟩ := map_eq_ok_iff.mp made
  exact Filter.qualified_leaf _ _ _

theorem qualified_composeAll {operator : Combinator} {parts : List NodePart}
    {column : Option ColumnPath} {f : Filter} (h : ∀ g, .node g ∈ parts → g.Qualified)
    (made : composeAll operator parts column = .ok f) : f.Qualified := by
  rw [composeAll] at made
  split at made
  · cases made
  · obtain ⟨fs, hfs, made⟩ := bind_eq_ok_iff.mp made
    exact Filter.qualified_compose (NodePart.forall_filters h hfs) made

/-! ### Builders -/

namespace CriteriaBuilder

/-- All that a builder has collected is qualified, in its open groups too. -/
structure Qualified (b : CriteriaBuilder) : Prop where
  filters : ∀ f ∈ b.filters, f.Qualified
  groups : ∀ g ∈ b.groups, ∀ f ∈ g.filters, f.Qualified

theorem Qualified.add {b : CriteriaBuilder} (hb : b.Qualified) {f : Filter} (hf : f.Qualified) :
    (b.add f).Qualified := by
  obtain ⟨filters, sorting, groups⟩ := b
  cases groups with
  | nil => exact ⟨List.forall_mem_append.mpr ⟨hb.filters, by simpa using hf⟩, hb.groups⟩
  | cons g gs =>
    refine ⟨hb.filters, ?_⟩
    have hgroups := List.forall_mem_cons.mp hb.groups
    exact List.forall_mem_cons.mpr
      ⟨List.forall_mem_append.mpr ⟨hgroups.1, by simpa using hf⟩, hgroups.2⟩

/-- A builder is qualified after its innermost group is gone. -/
theorem Qualified.dropped {b : CriteriaBuilder} (hb : b.Qualified) {g : OpenGroup}
    {gs : List OpenGroup} (groups : b.groups = g :: gs) :
    CriteriaBuilder.Qualified { b with groups := gs } := by
  have hgroups := hb.groups
  rw [groups] at hgroups
  exact ⟨hb.filters, (List.forall_mem_cons.mp hgroups).2⟩

/-- **A call keeps a builder qualified**, if the filter that is given with it is. -/
theorem Qualified.apply {b : CriteriaBuilder} (hb : b.Qualified) (step : Step)
    (given : ∀ f o v, step = .filter (.filter f) o v → f.Qualified) :
    (step.apply b).Qualified := by
  have hleaves := leaves_apply b step
  generalize step.apply b = b' at hleaves
  cases hleaves with
  | refused => exact hb
  | dropped groups => exact hb.dropped groups
  | returned does =>
    cases does with
    | @condition target o v f made =>
      refine hb.add ?_
      cases target with
      | filter g =>
        cases made
        exact given f o v rfl
      | column c =>
        obtain ⟨raw, -, made⟩ := bind_eq_ok_iff.mp made
        exact LeafArgs.qualified_build made
    | opening => exact ⟨hb.filters, List.forall_mem_cons.mpr ⟨List.forall_mem_nil _, hb.groups⟩⟩
    | @closing g gs f groups _ made =>
      -- the conditions of the group go one level up as one condition
      have hgroup := hb.groups g (groups ▸ List.mem_cons_self)
      exact (hb.dropped groups).add (Filter.qualified_compose hgroup made)
    | sorting => exact ⟨hb.filters, hb.groups⟩

/-- All calls together give a qualified builder. -/
theorem qualified_run {steps : List Step}
    (given : ∀ f o v, .filter (.filter f) o v ∈ steps → f.Qualified) : (run steps).Qualified := by
  -- by induction on the calls, from any qualified builder
  have hrun : ∀ (steps : List Step) (b : CriteriaBuilder), b.Qualified →
      (∀ f o v, .filter (.filter f) o v ∈ steps → f.Qualified) →
      (steps.foldl Step.apply b).Qualified := by
    intro steps
    induction steps with
    | nil => exact fun b hb _ => hb
    | cons step steps ih =>
      intro b hb given
      refine ih (step.apply b) (hb.apply step fun f o v h => ?_) fun f o v h => ?_
      · exact given f o v (h ▸ List.mem_cons_self)
      · exact given f o v (List.mem_cons_of_mem _ h)
  exact hrun steps empty ⟨List.forall_mem_nil _, List.forall_mem_nil _⟩ given

theorem Qualified.build {b : CriteriaBuilder} (hb : b.Qualified) {c : Criteria}
    (made : b.build = .ok c) : ∀ f ∈ c.filters, f.Qualified := by
  rw [CriteriaBuilder.build] at made
  split at made
  · cases made
    exact hb.filters
  · cases made

end CriteriaBuilder

/-! ### Casts -/

theorem mem_of_lookup {β : Type} {entries : List (String × β)} {key : String} {b : β}
    (h : entries.lookup key = some b) : (key, b) ∈ entries := by
  obtain ⟨l₁, l₂, heq, -⟩ := List.lookup_eq_some_iff.mp h
  rw [heq]
  exact List.mem_append_right _ List.mem_cons_self

namespace Caster

/-- The rules of a cast give qualified filters for some filters. -/
def RulesQualify (c : Caster) (fs : List Filter) : Prop :=
  ∀ key rule, (key, .replaced rule) ∈ c.options.filters → ∀ g ∈ fs, ∀ out, rule g = .ok out →
    ∀ f ∈ out, f.Qualified

theorem RulesQualify.mono {c : Caster} {fs gs : List Filter} (h : c.RulesQualify fs)
    (hsub : gs ⊆ fs) : c.RulesQualify gs :=
  fun key rule hrule g hg => h key rule hrule g (hsub hg)

theorem qualified_castLeaf {c : Caster} {scope : Option CastScope} {column : ColumnPath}
    {o : Operator} {raw : RawText} {gs : List Filter}
    (rules : c.RulesQualify [.leaf column o raw])
    (made : c.castLeaf scope column o raw = .ok gs) : ∀ g ∈ gs, g.Qualified := by
  have hleaf : ∀ column o raw, ∀ g ∈ [Filter.leaf column o raw], g.Qualified := by
    intro column o raw g hg
    rw [List.mem_singleton.mp hg]
    exact Filter.qualified_leaf _ _ _
  rw [castLeaf] at made
  -- excluded, with an entry, or without one
  split at made
  · cases made
    exact List.forall_mem_nil _
  · split at made
    · next rule hrule =>
      have hentry := mem_of_lookup hrule
      exact rules column.key rule hentry _ List.mem_cons_self gs made
    · next change _ _ =>
      cases change with
      | none =>
        cases made
        exact hleaf _ _ _
      | some f =>
        obtain ⟨value, -, made⟩ := bind_eq_ok_iff.mp made
        cases made
        exact hleaf _ _ _
    · split at made
      · cases made
        exact List.forall_mem_nil _
      · obtain ⟨target, -, made⟩ := bind_eq_ok_iff.mp made
        cases made
        exact hleaf _ _ _

/-- What takes the place of a quantified filter without being cast is given by a rule. -/
theorem qualified_of_castColumn {c : Caster} {scope : Option CastScope} {q : Quantifier}
    {column : ColumnPath} {children gs : List Filter}
    (rules : c.RulesQualify [.quantified q column children])
    (made : c.castColumn scope q column children = .ok (.replaced gs)) : ∀ g ∈ gs, g.Qualified := by
  -- a column that moves is not replaced
  have hmoved : ∀ target, ((c.elementType scope target).map fun element =>
      QuantifierCast.moved ⟨column, target, element⟩) ≠ .ok (.replaced gs) := by
    intro target h
    obtain ⟨element, -, hcast⟩ := map_eq_ok_iff.mp h
    cases hcast
  rw [castColumn] at made
  split at made
  · cases made
  · split at made
    · next rule hrule =>
      obtain ⟨out, hout, h⟩ := map_eq_ok_iff.mp made
      cases h
      have hentry := mem_of_lookup hrule
      exact rules column.key rule hentry _ List.mem_cons_self gs hout
    · exact absurd made (hmoved _)
    · split at made
      · cases made
      · obtain ⟨target, -, made⟩ := bind_eq_ok_iff.mp made
        exact absurd made (hmoved target)

mutual

/-- **A cast gives qualified trees**, whatever it is given, if its rules give such trees for the
filters that they meet. -/
theorem qualified_cast {c : Caster} : ∀ (f : Filter) {scope : Option CastScope} {gs : List Filter},
    c.RulesQualify f.nodes → c.cast scope f = .ok gs → ∀ g ∈ gs, g.Qualified
  | .leaf column o raw, scope, gs, rules, made => qualified_castLeaf rules made
  | .group k children, scope, gs, rules, made => by
    obtain ⟨fs, hfs, made⟩ := bind_eq_ok_iff.mp made
    cases made
    have hchildren := qualified_castAll children (rules.mono (List.subset_cons_self _ _)) hfs
    intro g hg
    split at hg
    · cases hg
    · rw [List.mem_singleton.mp hg]
      exact Filter.qualified_group.mpr hchildren
  | .quantified q column children, scope, gs, rules, made => by
    obtain ⟨result, hresult, made⟩ := bind_eq_ok_iff.mp made
    cases result with
    | dropped =>
      cases made
      exact List.forall_mem_nil _
    | replaced filters =>
      cases made
      -- the conditions below are left to the rule, which is asked for this filter alone
      refine qualified_of_castColumn (rules.mono ?_) hresult
      exact List.cons_subset.mpr ⟨Filter.self_mem_nodes _, List.nil_subset _⟩
    | moved inner =>
      obtain ⟨fs, hfs, made⟩ := bind_eq_ok_iff.mp made
      have hchildren := qualified_castAll children (rules.mono (List.subset_cons_self _ _)) hfs
      split at made
      · cases made
        exact List.forall_mem_nil _
      · -- the cast conditions are checked against the new column
        obtain ⟨g, hg, rfl⟩ := map_eq_ok_iff.mp made
        intro f hf
        rw [List.mem_singleton.mp hf]
        exact Filter.qualified_ofQualified hchildren hg

theorem qualified_castAll {c : Caster} :
    ∀ (fs : List Filter) {scope : Option CastScope} {gs : List Filter},
      c.RulesQualify (Filter.nodesAll fs) → c.castAll scope fs = .ok gs → ∀ g ∈ gs, g.Qualified
  | [], scope, gs, _, made => by
    cases made
    exact List.forall_mem_nil _
  | f :: fs, scope, gs, rules, made => by
    obtain ⟨first, hfirst, made⟩ := bind_eq_ok_iff.mp made
    obtain ⟨rest, hrest, made⟩ := bind_eq_ok_iff.mp made
    cases made
    -- each filter gives some, by rules that qualify for it
    refine List.forall_mem_append.mpr ⟨?_, ?_⟩
    · exact qualified_cast f (rules.mono (List.subset_append_left _ _)) hfirst
    · exact qualified_castAll fs (rules.mono (List.subset_append_right _ _)) hrest

end

end Caster

/-! ### The text of a qualified tree -/

namespace Filter

mutual

/-- Below its scope, a qualified tree has a surface form. -/
theorem exists_surface : ∀ (f : Filter) (scope : Option ColumnPath), f.Qualified →
    (∀ c ∈ scope, ∀ p ∈ f.columns, p.isBelow c = true) → ∃ u, surface scope f = .ok u
  | leaf d o v, scope, _, hscope => by
    obtain ⟨column, hcolumn⟩ :=
      ColumnPath.exists_within fun c hc => hscope c hc d List.mem_cons_self
    rw [surface, hcolumn]
    exact ⟨_, rfl⟩
  | group k fs, scope, h, hscope => by
    obtain ⟨us, hus⟩ := exists_surfaceAll fs scope (qualified_group.mp h) hscope
    rw [surface, hus]
    exact ⟨_, rfl⟩
  | quantified q d fs, scope, h, hscope => by
    obtain ⟨hcolumns, hfs⟩ := qualified_quantified.mp h
    obtain ⟨column, hcolumn⟩ :=
      ColumnPath.exists_within fun c hc => hscope c hc d List.mem_cons_self
    -- the quantifier's own column is the scope of what is below it
    obtain ⟨us, hus⟩ := exists_surfaceAll fs (some d) hfs fun c hc p hp => by
      cases hc
      exact hcolumns p hp
    rw [surface, hcolumn, ok_bind, hus]
    exact ⟨_, rfl⟩

theorem exists_surfaceAll : ∀ (fs : List Filter) (scope : Option ColumnPath),
    (∀ f ∈ fs, f.Qualified) → (∀ c ∈ scope, ∀ p ∈ columnsAll fs, p.isBelow c = true) →
    ∃ us, surfaceAll scope fs = .ok us
  | [], _, _, _ => ⟨[], rfl⟩
  | f :: fs, scope, h, hscope => by
    rw [List.forall_mem_cons] at h
    obtain ⟨u, hu⟩ := exists_surface f scope h.1 fun c hc p hp =>
      hscope c hc p (List.mem_append_left _ hp)
    obtain ⟨us, hus⟩ := exists_surfaceAll fs scope h.2 fun c hc p hp =>
      hscope c hc p (List.mem_append_right _ hp)
    rw [surfaceAll, hu, ok_bind, hus]
    exact ⟨_, rfl⟩

end

theorem Qualified.exists_format {f : Filter} (h : f.Qualified) : ∃ text, f.format = .ok text := by
  obtain ⟨u, hu⟩ := exists_surface f none h (by simp)
  rw [format, formatIn_eq, hu]
  exact ⟨_, rfl⟩

theorem exists_formatAll {fs : List Filter} (h : ∀ f ∈ fs, f.Qualified) :
    ∃ text, formatAll fs = .ok text := by
  obtain ⟨us, hus⟩ := exists_surfaceAll fs none h (by simp)
  rw [formatAll, formatAllIn_eq, hus]
  exact ⟨_, rfl⟩

end Filter
end RecordQuery
