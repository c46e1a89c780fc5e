import RecordQuery.Casting
import RecordQuery.Proofs.Casting.Copies
import RecordQuery.Proofs.Meaning
import RecordQuery.Proofs.Qualified

/-!
# Casting along a renaming

Filters for one record type are cast to another one that differs in names only, by a table that
sends every column to its renamed path. The cast succeeds, what comes out is accepted for the other
type, and it holds for a renamed copy of a record exactly when the filters hold for the record.

* `Renaming.Moves` — the table sends a column to its renamed path. It is asked for the columns of
  leaves and of quantifiers, each under its full path.
* `Renaming.InScope` — what the walk over the filters and the cast know of the collection that they
  are in: the path below which columns are read, before and after, and the type of the elements.
* `Renaming.Carries` — one filter and what it is cast to.
* `castFilters_preserves` — the result for a list of filters.

Each quantifier is looked up by itself, like the columns of its conditions. That these come out
below the quantifier's new column is a fact on paths (`Renaming.Path.split`): the renamed path of
what continues a path continues the renamed path, since below it the same members are passed.
-/

namespace RecordQuery

namespace Renaming

variable {ρ : Renaming} {s d : Schema} {start : String} {o : CastOptions}

/-! ### Tables that rename -/

/-- The table sends a column of a type to its renamed path, and changes nothing else about the
conditions on it. -/
def Moves (ρ : Renaming) (s : Schema) (start : String) (o : CastOptions) (c : ColumnPath) : Prop :=
  o.isExcluded c = false ∧ ∃ q t, o.filterMapping? c = some (.moved q none none) ∧
    ρ.Path s (.named start) c.segments q.segments t

theorem Moves.mapsFilter {c : ColumnPath} (h : ρ.Moves s start o c) : o.mapsFilter c = true := by
  obtain ⟨-, q, t, hmapping, -⟩ := h
  rw [CastOptions.mapsFilter, hmapping]
  rfl

mutual

/-- Where the table sends all columns somewhere, there is nothing to refuse. -/
theorem unmapped_eq_nil (covered : Bool) : ∀ {f : Filter},
    (∀ c ∈ f.columns, o.mapsFilter c = true) → o.unmapped covered f = []
  | .leaf c _ _, h => by
    rw [CastOptions.unmapped, h c (List.mem_singleton_self c), Bool.or_true]
    rfl
  | .group _ cs, h => by
    rw [CastOptions.unmapped]
    exact unmappedAll_eq_nil covered h
  | .quantified _ c cs, h => by
    rw [Filter.columns, List.forall_mem_cons] at h
    rw [CastOptions.unmapped]
    simp only [h.1, Bool.or_true]
    exact unmappedAll_eq_nil true h.2

theorem unmappedAll_eq_nil (covered : Bool) : ∀ {fs : List Filter},
    (∀ c ∈ Filter.columnsAll fs, o.mapsFilter c = true) → o.unmappedAll covered fs = []
  | [], _ => rfl
  | f :: fs, h => by
    rw [Filter.columnsAll, List.forall_mem_append] at h
    rw [CastOptions.unmappedAll, unmapped_eq_nil covered h.1, unmappedAll_eq_nil covered h.2]
    rfl

end

/-! ### Scopes -/

/-- The scope of a walk over filters, and that of their cast: either there is none, or the one
collection is the renamed one of the other, of elements of the renamed type. -/
inductive InScope (ρ : Renaming) (s : Schema) (start : String) :
    TypeExpr → Option ColumnPath → Option CastScope → Prop
  | top : InScope ρ s start (.named start) none none
  | below {element : TypeExpr} (scope : CastScope)
      (path : ρ.Path s (.named start) scope.source.segments scope.target.segments element)
      (element_eq : scope.element = some (ρ.image element)) :
      InScope ρ s start element (some scope.source) (some scope)

variable {owner t : TypeExpr} {scope : Option ColumnPath} {inner : Option CastScope}

/-- The renamed path of a column in a scope has a part below the renamed scope, which is the renamed
path of the column's part below the scope. -/
theorem InScope.exists_within (hfits : ρ.Fits s d) (hscope : ρ.InScope s start owner scope inner)
    {c p q : ColumnPath} (hpath : ρ.Path s (.named start) c.segments q.segments t)
    (h : c.within scope = .ok p) :
    (∃ p', q.within (inner.map CastScope.target) = .ok p' ∧
        ρ.Path s owner p.segments p'.segments t) ∧
      ∀ x ∈ inner, q.isBelow x.target = true := by
  cases hscope with
  | top =>
    cases h
    exact ⟨⟨q, rfl, hpath⟩, nofun⟩
  | below scope path element_eq =>
    obtain ⟨hbelow, hp⟩ := ColumnPath.relativeTo_eq_ok_iff.mp h
    -- the renamed path starts with the renamed scope, and its rest is the relative path
    obtain ⟨rest, hrest, htail⟩ := path.split hfits hpath (ColumnPath.isBelow_iff.mp hbelow).2
    have hne : rest ≠ [] := htail.ne_nil (ColumnPath.drop_ne_nil hbelow)
    have hvalid : rest.all isSegment = true := by
      have hq := q.valid
      rw [hrest, List.all_append, Bool.and_eq_true] at hq
      exact hq.2
    have hq : q = scope.target ++ ⟨rest, hne, hvalid⟩ := by
      ext1
      exact hrest
    rw [hq, hp]
    refine ⟨⟨⟨rest, hne, hvalid⟩, ColumnPath.relativeTo_append _ _, htail⟩, ?_⟩
    intro x hx
    cases hx
    exact ColumnPath.isBelow_append _ _

/-- A column in a scope stands for a column in the renamed scope. -/
theorem InScope.exists_resolveIn (hfits : ρ.Fits s d) (hscope : ρ.InScope s start owner scope inner)
    {options : Options} (options' : Options) (hexact : options.fallback = false) {c q : ColumnPath}
    {column : ResolvedColumn} (h : s.resolveIn options owner scope c = .ok column)
    (hpath : ρ.Path s (.named start) c.segments q.segments t) :
    ∃ column', d.resolveIn options' (ρ.image owner) (inner.map CastScope.target) q = .ok column' ∧
      ρ.Renamed s d owner column column' ∧ t = column.element?.getD column.type := by
  obtain ⟨p, hp, h⟩ := bind_eq_ok_iff.mp h
  rw [hexact] at h
  obtain ⟨⟨p', hp', htail⟩, -⟩ := hscope.exists_within hfits hpath hp
  obtain ⟨column', hcolumn', hrenamed, ht⟩ := exists_resolve hfits options'.fallback h htail
  exact ⟨column', bind_eq_ok_iff.mpr ⟨p', hp', hcolumn'⟩, hrenamed, ht⟩

/-- What columns are resolved on is a renamed type. -/
theorem InScope.mentions (hfits : ρ.Fits s d) (hscope : ρ.InScope s start owner scope inner)
    {options : Options} {c q : ColumnPath} {column : ResolvedColumn}
    (h : s.resolveIn options owner scope c = .ok column)
    (hpath : ρ.Path s (.named start) c.segments q.segments t) : ρ.Mentions owner := by
  obtain ⟨p, hp, -⟩ := bind_eq_ok_iff.mp h
  obtain ⟨⟨p', -, htail⟩, -⟩ := hscope.exists_within hfits hpath hp
  obtain ⟨n, rfl, hcovers⟩ := htail.exists_named p.nonempty
  exact mentions_named.mpr hcovers

theorem InScope.isBelow_of_resolveIn (hfits : ρ.Fits s d)
    (hscope : ρ.InScope s start owner scope inner) {options : Options} {c q : ColumnPath}
    {column : ResolvedColumn} (h : s.resolveIn options owner scope c = .ok column)
    (hpath : ρ.Path s (.named start) c.segments q.segments t) :
    ∀ x ∈ inner, q.isBelow x.target = true := by
  obtain ⟨p, hp, -⟩ := bind_eq_ok_iff.mp h
  exact (hscope.exists_within hfits hpath hp).2

/-! ### Predicates on copies -/

/-- The second predicate answers for copies as the first one does for the values themselves. -/
def Preserves (ρ : Renaming) (s d : Schema) (owner : TypeExpr) (p p' : Predicate) : Prop :=
  ∀ v v', ρ.Copy s d owner v v' → p'.holds d v' = p.holds s v

theorem preserves_test (halike : ρ.ReadsAlike s d) {column column' : ResolvedColumn}
    (hcolumn : ρ.Renamed s d owner column column') {operator : Operator} {raw : RawText}
    {w : Value} (hoperator : s.checkOperator column operator = .ok ())
    (hw : s.coerce raw column.type operator = .ok w) (nullGuard : Bool) :
    ρ.Preserves s d owner (.test (.usual operator) column nullGuard w)
      (.test (.usual operator) column' nullGuard w) := by
  intro v v' hcopy
  refine ((hcopy.matched_read hcolumn nullGuard).bind_eq fun a a' ha => ?_).symm
  exact (ha.usualHolds_eq halike hcolumn.suits hoperator hw).symm

theorem preserves_conjunction {options options' : Options} {ps ps' : List Predicate}
    (h : List.Forall₂ (ρ.Preserves s d owner) ps ps') :
    ρ.Preserves s d owner ((usualBackend options).conjunction ps)
      ((usualBackend options').conjunction ps') := by
  intro v v' hcopy
  rw [Predicate.holds_conjunction, Predicate.holds_conjunction, Predicate.holdsAll_eq_allOk,
    Predicate.holdsAll_eq_allOk]
  exact (Predicate.allOk_congr (h.imp fun p p' hp => (hp v v' hcopy).symm)).symm

theorem preserves_disjunction {options options' : Options} {ps ps' : List Predicate}
    (h : List.Forall₂ (ρ.Preserves s d owner) ps ps') :
    ρ.Preserves s d owner ((usualBackend options).disjunction ps)
      ((usualBackend options').disjunction ps') := by
  intro v v' hcopy
  rw [Predicate.holds_disjunction, Predicate.holds_disjunction, Predicate.holdsAny_eq_anyOk,
    Predicate.holdsAny_eq_anyOk]
  exact (Predicate.anyOk_congr (h.imp fun p p' hp => (hp v v' hcopy).symm)).symm

theorem quantify_congr {α β : Type} {f : α → Except Fault Bool} {g : β → Except Fault Bool}
    (q : Quantifier) {as : List α} {bs : List β} (h : List.Forall₂ (fun a b => f a = g b) as bs) :
    Predicate.quantify q f as = Predicate.quantify q g bs := by
  cases q with
  | any => exact Predicate.anyOk_congr h
  | all => exact Predicate.allOk_congr h

/-- Conditions on the elements of a collection go through copies of the elements, in order. -/
theorem preserves_elements {column column' : ResolvedColumn} {element : TypeExpr}
    (hcolumn : ρ.Renamed s d owner column column') (helement : column.element? = some element)
    (hmentions : ρ.Mentions element) {p p' : Predicate} (h : ρ.Preserves s d element p p')
    (q : Quantifier) (nullGuard : Bool) :
    ρ.Preserves s d owner (.elements q column nullGuard p) (.elements q column' nullGuard p') := by
  intro v v' hcopy
  refine ((hcopy.matched_read hcolumn nullGuard).bind_eq fun a a' ha => ?_).symm
  refine (ha.matched_elementsOf helement hmentions).bind_eq fun us us' hus => ?_
  exact quantify_congr q (hus.imp fun u u' hu => (h u u' hu).symm)

/-! ### The cast -/

/-- The cast to a renamed type. -/
def caster (ρ : Renaming) (d : Schema) (start : String) (o : CastOptions) : Caster :=
  ⟨d, some (.named (ρ.type start)), o⟩

/-- The elements of a renamed collection are of the renamed type. -/
theorem InScope.elementType_eq (hfits : ρ.Fits s d) (hscope : ρ.InScope s start owner scope inner)
    {options : Options} (hexact : options.fallback = false) {c q : ColumnPath}
    {column : ResolvedColumn} {element : TypeExpr}
    (h : s.resolveIn options owner scope c = .ok column)
    (helement : column.element? = some element)
    (hpath : ρ.Path s (.named start) c.segments q.segments t) :
    (ρ.caster d start o).elementType inner q = .ok (some (ρ.image element)) := by
  obtain ⟨column', hcolumn', hrenamed, -⟩ :=
    hscope.exists_resolveIn hfits ⟨false, o.fallback⟩ hexact h hpath
  have helement' : column'.element? = some (ρ.image element) := by
    rw [hrenamed.element?, helement]
    rfl
  obtain ⟨p', hp', hresolve⟩ := bind_eq_ok_iff.mp hcolumn'
  rw [← helement']
  -- at the top the new path is resolved as it is, and in a collection what is below it
  cases hscope with
  | top =>
    cases hp'
    exact bind_eq_ok_iff.mpr ⟨q, rfl, bind_eq_ok_iff.mpr ⟨column', hresolve, rfl⟩⟩
  | below scope path element_eq =>
    rw [Caster.elementType, Caster.owner]
    simp only [element_eq]
    exact bind_eq_ok_iff.mpr ⟨p', hp', bind_eq_ok_iff.mpr ⟨column', hresolve, rfl⟩⟩

/-- What a filter is cast to: its columns continue the column of the scope, and what it is compiled
to answers for copies as a given predicate does for the values. -/
structure Carries (ρ : Renaming) (s d : Schema) (options : Options) (owner : TypeExpr)
    (inner : Option CastScope) (p : Predicate) (g : Filter) : Prop where
  below : ∀ x ∈ inner, ∀ c ∈ g.columns, c.isBelow x.target = true
  compiles : ∃ p', (usualBackend options).compileNode d options (ρ.image owner)
    (inner.map CastScope.target) g = .ok p' ∧ ρ.Preserves s d owner p p'

variable {options options' : Options}

theorem compileAll_of_carries {ps : List Predicate} {gs : List Filter}
    (h : List.Forall₂ (ρ.Carries s d options owner inner) ps gs) :
    ∃ ps', (usualBackend options).compileAll d options (ρ.image owner)
      (inner.map CastScope.target) gs = .ok ps' ∧
        List.Forall₂ (ρ.Preserves s d owner) ps ps' := by
  induction h with
  | nil => exact ⟨[], rfl, .nil⟩
  | cons hfirst _ ih =>
    obtain ⟨p', hp', hpreserves⟩ := hfirst.compiles
    obtain ⟨ps', hps', hall⟩ := ih
    refine ⟨p' :: ps', ?_, .cons hpreserves hall⟩
    exact bind_eq_ok_iff.mpr ⟨p', hp', bind_eq_ok_iff.mpr ⟨ps', hps', rfl⟩⟩

theorem below_of_carries {ps : List Predicate} {gs : List Filter}
    (h : List.Forall₂ (ρ.Carries s d options owner inner) ps gs) :
    ∀ x ∈ inner, ∀ c ∈ Filter.columnsAll gs, c.isBelow x.target = true := by
  intro x hx c hc
  induction h with
  | nil => cases hc
  | cons hfirst _ ih =>
    rw [Filter.columnsAll, List.mem_append] at hc
    rcases hc with hc | hc
    · exact hfirst.below x hx c hc
    · exact ih hc

theorem carries_leaf (hfits : ρ.Fits s d) (hexact : options.fallback = false)
    (hguard : options'.nullGuard = options.nullGuard) (hscope : ρ.InScope s start owner scope inner)
    {c q : ColumnPath} {operator : Operator} {raw : RawText} {condition : Condition}
    (h : s.condition options owner scope c operator raw = .ok condition)
    (hpath : ρ.Path s (.named start) c.segments q.segments t) :
    ρ.Mentions owner ∧ ρ.Carries s d options' owner inner
      (.test (.usual condition.operator) condition.column options.nullGuard condition.value)
      (.leaf q operator raw) := by
  obtain ⟨hcolumn, hoperator, hw, rfl⟩ := Schema.condition_eq_ok_iff.mp h
  obtain ⟨column', hcolumn', hrenamed, -⟩ :=
    hscope.exists_resolveIn hfits options' hexact hcolumn hpath
  -- the renamed column takes the same operators, and the raw text is read as the same value
  have hcondition' : d.condition options' (ρ.image owner) (inner.map CastScope.target) q
      condition.operator raw = .ok ⟨column', condition.operator, condition.value⟩ := by
    have hoperator' := Schema.checkOperator_image hrenamed.suits hrenamed.type hoperator
    have hw' := Schema.coerce_image hfits.adapters hrenamed.suits hw
    rw [← hrenamed.type] at hw'
    exact Schema.condition_eq_ok_iff.mpr ⟨hcolumn', hoperator', hw', rfl⟩
  refine ⟨hscope.mentions hfits hcolumn hpath, fun x hx r hr => ?_, ?_⟩
  · rw [List.mem_singleton.mp hr]
    exact hscope.isBelow_of_resolveIn hfits hcolumn hpath x hx
  · refine ⟨.test (.usual condition.operator) column' options'.nullGuard condition.value, ?_, ?_⟩
    · rw [Backend.compileNode, hcondition', ok_bind, condition_usualBackend]
    · rw [hguard]
      exact preserves_test hfits.adapters hrenamed hoperator hw _

theorem carries_group (k : Connective) {ps : List Predicate} {gs : List Filter}
    (h : List.Forall₂ (ρ.Carries s d options' owner inner) ps gs) :
    ρ.Carries s d options' owner inner ((usualBackend options).group k ps) (.group k gs) := by
  obtain ⟨ps', hps', hpreserves⟩ := compileAll_of_carries h
  refine ⟨below_of_carries h, _, map_eq_ok_iff.mpr ⟨ps', hps', rfl⟩, ?_⟩
  cases k with
  | and => exact preserves_conjunction hpreserves
  | or => exact preserves_disjunction hpreserves

theorem carries_quantified (hfits : ρ.Fits s d) (hexact : options.fallback = false)
    (hguard : options'.nullGuard = options.nullGuard) (hscope : ρ.InScope s start owner scope inner)
    (q : Quantifier) {c target : ColumnPath} {column : ResolvedColumn} {element : TypeExpr}
    (hcolumn : s.resolveIn options owner scope c = .ok column)
    (helement : column.element? = some element) (hmentions : ρ.Mentions element)
    (hpath : ρ.Path s (.named start) c.segments target.segments t) {source : ColumnPath}
    {ps : List Predicate} {gs : List Filter}
    (h : List.Forall₂ (ρ.Carries s d options' element
      (some ⟨source, target, some (ρ.image element)⟩)) ps gs) :
    ρ.Carries s d options' owner inner
      (.elements q column options.nullGuard ((usualBackend options).conjunction ps))
      (.quantified q target gs) := by
  obtain ⟨column', hcolumn', hrenamed, -⟩ :=
    hscope.exists_resolveIn hfits options' hexact hcolumn hpath
  obtain ⟨ps', hps', hpreserves⟩ := compileAll_of_carries h
  refine ⟨fun x hx r hr => ?_, ?_⟩
  · -- what is below the new collection is below the scope that it is in
    have htarget := hscope.isBelow_of_resolveIn hfits hcolumn hpath x hx
    rw [Filter.columns, List.mem_cons] at hr
    rcases hr with rfl | hr
    · exact htarget
    · exact ColumnPath.isBelow_trans (below_of_carries h _ rfl r hr) htarget
  · have hcollection' : Backend.collection d options' (ρ.image owner)
        (inner.map CastScope.target) q target = .ok (column', ρ.image element) := by
      refine collection_eq_ok_iff.mpr ⟨hcolumn', ?_⟩
      rw [hrenamed.element?, helement]
      rfl
    have hparts : ρ.Preserves s d element ((usualBackend options).conjunction ps)
      ((usualBackend options').conjunction ps') := preserves_conjunction hpreserves
    refine ⟨.elements q column' options'.nullGuard ((usualBackend options').conjunction ps'),
      ?_, ?_⟩
    · rw [Backend.compileNode, hcollection', ok_bind]
      exact bind_eq_ok_iff.mpr ⟨ps', hps', rfl⟩
    · rw [hguard]
      exact preserves_elements hrenamed helement hmentions hparts q _

/-- A quantifier moves to its renamed column, with the scope for its conditions. -/
theorem castColumn_eq (hfits : ρ.Fits s d) (hexact : options.fallback = false)
    (hscope : ρ.InScope s start owner scope inner) (q : Quantifier) {c target : ColumnPath}
    {column : ResolvedColumn} {element : TypeExpr} (fs : List Filter)
    (hcolumn : s.resolveIn options owner scope c = .ok column)
    (helement : column.element? = some element) (hexcluded : o.isExcluded c = false)
    (hmapping : o.filterMapping? c = some (.moved target none none))
    (hpath : ρ.Path s (.named start) c.segments target.segments t) :
    (ρ.caster d start o).castColumn inner q c fs =
      .ok (.moved ⟨c, target, some (ρ.image element)⟩) := by
  have htype := hscope.elementType_eq hfits (o := o) hexact hcolumn helement hpath
  rw [Caster.castColumn]
  simp only [caster, hexcluded, hmapping, Bool.false_eq_true, if_false] at htype ⊢
  rw [htype]
  rfl

mutual

/-- **One filter.** The cast gives one filter in its place, which means the same for copies. -/
theorem exists_cast (hfits : ρ.Fits s d) (hexact : options.fallback = false)
    (hguard : options'.nullGuard = options.nullGuard) :
    ∀ (f : Filter) {owner : TypeExpr} {scope : Option ColumnPath} {inner : Option CastScope}
      {p : Predicate}, ρ.InScope s start owner scope inner →
      (∀ c ∈ f.columns, ρ.Moves s start o c) → f.NoneEmpty →
      (usualBackend options).compileNode s options owner scope f = .ok p →
      ρ.Mentions owner ∧ ∃ g, (ρ.caster d start o).cast inner f = .ok [g] ∧
        ρ.Carries s d options' owner inner p g
  | .leaf c operator raw, owner, scope, inner, p, hscope, hmoves, _, hp => by
    obtain ⟨condition, hcondition, hp⟩ := bind_eq_ok_iff.mp hp
    rw [condition_usualBackend] at hp
    cases hp
    obtain ⟨hexcluded, q, t, hmapping, hpath⟩ := hmoves c (List.mem_singleton_self c)
    obtain ⟨hmentions, hcarries⟩ := carries_leaf hfits hexact hguard hscope hcondition hpath
    refine ⟨hmentions, .leaf q operator raw, ?_, hcarries⟩
    rw [Caster.cast, Caster.castLeaf]
    simp only [caster, hexcluded, hmapping, Bool.false_eq_true, if_false]
    rfl
  | .group k fs, owner, scope, inner, p, hscope, hmoves, hfull, hp => by
    obtain ⟨ps, hps, rfl⟩ := map_eq_ok_iff.mp hp
    obtain ⟨hne, hfs⟩ := Filter.noneEmpty_group.mp hfull
    obtain ⟨gs, hgs, hcarries, hnonempty⟩ :=
      exists_castAll hfits hexact hguard fs hscope hmoves hfs hps
    -- the cast leaves out a group of which nothing is left, and here all of it is
    obtain ⟨hmentions, hgsne⟩ := hnonempty hne
    refine ⟨hmentions, .group k gs, ?_, carries_group k hcarries⟩
    rw [Caster.cast, hgs, ok_bind, if_neg (mt List.isEmpty_iff.mp hgsne)]
  | .quantified q c fs, owner, scope, inner, p, hscope, hmoves, hfull, hp => by
    obtain ⟨⟨column, element⟩, hcollection, hp⟩ := bind_eq_ok_iff.mp hp
    obtain ⟨ps, hps, hp⟩ := bind_eq_ok_iff.mp hp
    cases hp
    obtain ⟨hcolumn, helement⟩ := collection_eq_ok_iff.mp hcollection
    rw [Filter.columns, List.forall_mem_cons] at hmoves
    obtain ⟨⟨hexcluded, target, t, hmapping, hpath⟩, hmoves⟩ := hmoves
    obtain ⟨hne, hfs⟩ := Filter.noneEmpty_quantified.mp hfull
    obtain ⟨-, -, -, ht⟩ := hscope.exists_resolveIn hfits options' hexact hcolumn hpath
    -- below the quantifier, paths go on from the type of the elements
    rw [helement] at ht
    cases ht
    have hinner : ρ.InScope s start element (some c)
        (some ⟨c, target, some (ρ.image element)⟩) :=
      .below ⟨c, target, some (ρ.image element)⟩ hpath rfl
    obtain ⟨gs, hgs, hcarries, hnonempty⟩ :=
      exists_castAll hfits hexact hguard fs hinner hmoves hfs hps
    obtain ⟨hmentions, hgsne⟩ := hnonempty hne
    have hmoved := castColumn_eq hfits hexact hscope q fs hcolumn helement hexcluded hmapping
      hpath
    -- so no condition has left the collection, which would be an error
    have hqualified := Filter.ofQualified_of_isBelow q (below_of_carries hcarries _ rfl)
    refine ⟨hscope.mentions hfits hcolumn hpath, .quantified q target gs, ?_,
      carries_quantified hfits hexact hguard hscope q hcolumn helement hmentions hpath hcarries⟩
    rw [Caster.cast, hmoved, ok_bind]
    simp only [hgs, ok_bind, if_neg (mt List.isEmpty_iff.mp hgsne), hqualified]
    rfl

/-- Several filters, one by one. -/
theorem exists_castAll (hfits : ρ.Fits s d) (hexact : options.fallback = false)
    (hguard : options'.nullGuard = options.nullGuard) :
    ∀ (fs : List Filter) {owner : TypeExpr} {scope : Option ColumnPath} {inner : Option CastScope}
      {ps : List Predicate}, ρ.InScope s start owner scope inner →
      (∀ c ∈ Filter.columnsAll fs, ρ.Moves s start o c) → (∀ f ∈ fs, f.NoneEmpty) →
      (usualBackend options).compileAll s options owner scope fs = .ok ps →
      ∃ gs, (ρ.caster d start o).castAll inner fs = .ok gs ∧
        List.Forall₂ (ρ.Carries s d options' owner inner) ps gs ∧
          (fs ≠ [] → ρ.Mentions owner ∧ gs ≠ [])
  | [], owner, scope, inner, ps, _, _, _, hps => by
    cases hps
    exact ⟨[], rfl, .nil, fun h => absurd rfl h⟩
  | f :: fs, owner, scope, inner, ps, hscope, hmoves, hfull, hps => by
    obtain ⟨p, hp, hps⟩ := bind_eq_ok_iff.mp hps
    obtain ⟨ps', hps', hok⟩ := bind_eq_ok_iff.mp hps
    cases hok
    rw [Filter.columnsAll, List.forall_mem_append] at hmoves
    rw [List.forall_mem_cons] at hfull
    obtain ⟨hmentions, g, hg, hcarries⟩ :=
      exists_cast hfits hexact hguard f hscope hmoves.1 hfull.1 hp
    obtain ⟨gs, hgs, hall, -⟩ :=
      exists_castAll hfits hexact hguard fs hscope hmoves.2 hfull.2 hps'
    -- nothing is dropped, since every filter says something
    refine ⟨g :: gs, ?_, .cons hcarries hall, fun _ => ⟨hmentions, List.cons_ne_nil g gs⟩⟩
    rw [Caster.castAll, hg, ok_bind, hgs]
    rfl

end

end Renaming

/-! ### An example -/

namespace Roles

open Renaming

/-- Accounts with roles, which grant something up to a level. -/
def source : Schema :=
  ⟨[], [
    ⟨"Account", [], .model [⟨"name", .scalar .text, [], false, none⟩,
      ⟨"roles", .applied .list [.named "Role"], [], false, none⟩], []⟩,
    ⟨"Role", [], .model [⟨"name", .scalar .text, [], false, none⟩,
      ⟨"grants", .applied .list [.named "Grant"], [], false, none⟩], []⟩,
    ⟨"Grant", [], .model [⟨"level", .scalar .integer, [], false, none⟩], []⟩], .absent⟩

/-- The same under other names. -/
def destination : Schema :=
  ⟨[], [
    ⟨"User", [], .model [⟨"label", .scalar .text, [], false, none⟩,
      ⟨"groups", .applied .list [.named "Group"], [], false, none⟩], []⟩,
    ⟨"Group", [], .model [⟨"title", .scalar .text, [], false, none⟩,
      ⟨"permissions", .applied .list [.named "Permission"], [], false, none⟩], []⟩,
    ⟨"Permission", [], .model [⟨"rank", .scalar .integer, [], false, none⟩], []⟩], .absent⟩

/-- The other names. -/
def names : Renaming where
  covers n := n ∈ ["Account", "Role", "Grant"]
  type
    | "Account" => "User"
    | "Role" => "Group"
    | "Grant" => "Permission"
    | n => n
  member
    | "Account", "name" => "label"
    | "Account", "roles" => "groups"
    | "Role", "name" => "title"
    | "Role", "grants" => "permissions"
    | "Grant", "level" => "rank"
    | _, m => m

/-- A member that cannot be null. -/
def member (name : String) (type : TypeExpr) : Member := ⟨name, type, false, [], false⟩

/-- The members of each type. -/
def membersOf : String → List Member
  | "Account" => [member "name" (.scalar .text), member "roles" (.applied .list [.named "Role"])]
  | "Role" => [member "name" (.scalar .text), member "grants" (.applied .list [.named "Grant"])]
  | "Grant" => [member "level" (.scalar .integer)]
  | _ => []

theorem covers_iff {n : String} : names.covers n ↔ n = "Account" ∨ n = "Role" ∨ n = "Grant" := by
  simp [names]

theorem covers_account : names.covers "Account" := covers_iff.mpr (.inl rfl)

theorem covers_role : names.covers "Role" := covers_iff.mpr (.inr (.inl rfl))

theorem covers_grant : names.covers "Grant" := covers_iff.mpr (.inr (.inr rfl))

theorem members_eq {n : String} (h : names.covers n) :
    source.members? (.named n) = .ok (some (membersOf n)) := by
  obtain rfl | rfl | rfl := covers_iff.mp h <;> rfl

theorem members_eq' {n : String} (h : names.covers n) :
    destination.members? (.named (names.type n)) =
      .ok (some ((membersOf n).map fun m =>
        { m with name := names.member n m.name, type := names.image m.type })) := by
  obtain rfl | rfl | rfl := covers_iff.mp h <;> rfl

theorem covers_of_mem {n : String} (h : names.covers n) :
    ∀ m ∈ membersOf n, ∀ k ∈ m.type.names, names.covers k := by
  obtain rfl | rfl | rfl := covers_iff.mp h
  all_goals simp [membersOf, member, TypeExpr.names, TypeExpr.namesAll, covers_iff]

theorem keeps {n : String} (h : names.covers n) : names.Keeps source destination n := by
  have hcovers := h
  obtain rfl | rfl | rfl := covers_iff.mp h
  all_goals
    exact ⟨rfl, fun _ => rfl, rfl, fun _ => hcovers⟩

theorem fits : names.Fits source destination where
  adapters := readsAlike_of_absent rfl
  keeps := keeps
  suits := by
    intro n ms m covered members mem k hk
    cases (members_eq covered).symm.trans members
    exact keeps (covers_of_mem covered m mem k hk)
  distinct := by
    intro n ms covered members
    cases (members_eq covered).symm.trans members
    obtain rfl | rfl | rfl := covers_iff.mp covered <;> decide
  renamed := by
    intro n ms covered members
    cases (members_eq covered).symm.trans members
    exact ⟨_, members_eq' covered, fun m hm => ⟨_, List.mem_map_of_mem hm, rfl, rfl, rfl⟩⟩

/-- The columns of the conditions, in several letter cases, with their renamed paths. -/
def roles : ColumnPath × ColumnPath :=
  (⟨["Roles"], by decide, by decide⟩, ⟨["groups"], by decide, by decide⟩)

@[inherit_doc roles]
def roleName : ColumnPath × ColumnPath :=
  (⟨["roles", "NAME"], by decide, by decide⟩, ⟨["groups", "title"], by decide, by decide⟩)

@[inherit_doc roles]
def grants : ColumnPath × ColumnPath :=
  (⟨["ROLES", "grants"], by decide, by decide⟩, ⟨["groups", "permissions"], by decide, by decide⟩)

@[inherit_doc roles]
def level : ColumnPath × ColumnPath :=
  (⟨["roles", "Grants", "level"], by decide, by decide⟩,
    ⟨["groups", "permissions", "rank"], by decide, by decide⟩)

/-- Some role with a name has only grants below a level. -/
def conditions : List Filter :=
  [.quantified .any roles.1 [.leaf roleName.1 .sw (.plain "Ad"),
    .quantified .all grants.1 [.leaf level.1 .lt (.plain "3")]]]

/-- The table of the renamed columns. Its keys need not be spelt like the columns. -/
def table : CastOptions :=
  (((CastOptions.empty.withFilter ⟨["roles"], by decide, by decide⟩
    (.moved roles.2 none none)).withFilter ⟨["Roles", "Name"], by decide, by decide⟩
      (.moved roleName.2 none none)).withFilter ⟨["roles", "grants"], by decide, by decide⟩
        (.moved grants.2 none none)).withFilter
          ⟨["roles", "Grants", "LEVEL"], by decide, by decide⟩ (.moved level.2 none none)

theorem filterMapping?_eq : ∀ c ∈ [roles, roleName, grants, level],
    table.filterMapping? c.1 = some (.moved c.2 none none) := by
  have hroles : roles.1.key = "roles" := by decide
  have hname : roleName.1.key = "roles.name" := by decide
  have hgrants : grants.1.key = "roles.grants" := by decide
  have hlevel : level.1.key = "roles.grants.level" := by decide
  have hfilters : table.filters = [("roles.grants.level", .moved level.2 none none),
      ("roles.grants", .moved grants.2 none none), ("roles.name", .moved roleName.2 none none),
      ("roles", .moved roles.2 none none)] := by
    rfl
  simp [CastOptions.filterMapping?, hroles, hname, hgrants, hlevel, hfilters, List.lookup_cons]

theorem path_cons {n : String} {m : Member} {segment : String} {segments renamed : List String}
    {t : TypeExpr} (covered : names.covers n) (mem : m ∈ membersOf n)
    (name : Text.foldKey segment = Text.foldKey m.name)
    (rest : names.Path source m.inner segments renamed t) :
    names.Path source (.named n) (segment :: segments) (names.member n m.name :: renamed) t :=
  .cons covered (members_eq covered) mem name rest

theorem path_roles {segment : String} {segments renamed : List String} {t : TypeExpr}
    (h : Text.foldKey segment = Text.foldKey "roles")
    (rest : names.Path source (.named "Role") segments renamed t) :
    names.Path source (.named "Account") (segment :: segments) ("groups" :: renamed) t :=
  path_cons (m := member "roles" (.applied .list [.named "Role"])) covers_account
    (.tail _ (.head _)) h rest

theorem path_grants {segment : String} {segments renamed : List String} {t : TypeExpr}
    (h : Text.foldKey segment = Text.foldKey "grants")
    (rest : names.Path source (.named "Grant") segments renamed t) :
    names.Path source (.named "Role") (segment :: segments) ("permissions" :: renamed) t :=
  path_cons (m := member "grants" (.applied .list [.named "Grant"])) covers_role
    (.tail _ (.head _)) h rest

theorem moves : ∀ c ∈ Filter.columnsAll conditions, names.Moves source "Account" table c := by
  have hmapping := filterMapping?_eq
  simp only [List.forall_mem_cons] at hmapping
  obtain ⟨hroles, hname, hgrants, hlevel, -⟩ := hmapping
  intro c hc
  simp only [conditions, Filter.columnsAll, Filter.columns, List.mem_append, List.mem_cons,
    List.not_mem_nil, or_false] at hc
  -- two quantified columns and a condition below each
  obtain rfl | rfl | rfl | rfl := hc
  · exact ⟨rfl, _, _, hroles, path_roles (by decide) (.nil _)⟩
  · refine ⟨rfl, _, .scalar .text, hname, path_roles (by decide) ?_⟩
    exact path_cons covers_role (.head _) (by decide) (.nil _)
  · exact ⟨rfl, _, _, hgrants, path_roles (by decide) (path_grants (by decide) (.nil _))⟩
  · refine ⟨rfl, _, .scalar .integer, hlevel, path_roles (by decide) (path_grants (by decide) ?_)⟩
    exact path_cons covers_grant (.head _) (by decide) (.nil _)

/-- A role that grants something up to a level. -/
def role (name : String) (level : Int) : List (String × Value) :=
  [("name", .text name), ("grants", .list [.map [("level", .int level)]])]

/-- The role under the other names. -/
def group (name : String) (level : Int) : List (String × Value) :=
  [("title", .text name), ("permissions", .list [.map [("rank", .int level)]])]

/-- An account with one role. -/
def account (name : String) (level : Int) : Value :=
  .record ⟨.model, "Account", ["name", "roles"], none⟩
    (storing [("name", .text "Ada"), ("roles", .list [.map (role name level)])])

/-- The account under the other names. -/
def user (name : String) (level : Int) : Value :=
  .record ⟨.model, "User", ["label", "groups"], none⟩
    (storing [("label", .text "Ada"), ("groups", .list [.map (group name level)])])

theorem copy_scalar (u : ScalarType) (v : Value) : names.Copy source destination (.scalar u) v v :=
  .same v fun ⟨_, hn, _⟩ => nomatch hn

theorem copy_list {n : String} {v v' : Value} (covered : names.covers n)
    (h : names.Copy source destination (.named n) v v') :
    names.Copy source destination (.applied .list [.named n]) (.list [v]) (.list [v']) :=
  copy_collection (fun _ => rfl) (fun _ => rfl) rfl (mentions_named.mpr covered) (.cons h .nil)

theorem copy_role (name : String) (level : Int) :
    names.Copy source destination (.named "Role") (.map (role name level))
      (.map (group name level)) := by
  have hgrants : names.Copy source destination (.named "Grant") (.map [("level", .int level)])
      (.map [("rank", .int level)]) := by
    refine copy_map covers_grant (members_eq covers_grant) ⟨.cons ⟨rfl, ?_⟩ .nil, ?_⟩
    · simp [membersOf, member, copy_scalar]
    · simp [membersOf, member]
  -- the name is kept as it is, the grants are copied
  refine copy_map covers_role (members_eq covers_role) ⟨.cons ⟨rfl, ?_⟩ (.cons ⟨rfl, ?_⟩ .nil), ?_⟩
  · simp [membersOf, member, copy_scalar]
  · simp [membersOf, member, copy_list covers_grant hgrants]
  · simp [membersOf, member, role, names]

theorem copy_account (name : String) (level : Int) :
    names.Copy source destination (.named "Account") (account name level) (user name level) := by
  have hroles := copy_list covers_role (copy_role name level)
  refine copy_instance covers_account (members_eq covers_account)
    ⟨.cons ⟨rfl, ?_⟩ (.cons ⟨rfl, ?_⟩ .nil), ?_⟩ ?_ rfl rfl
  · simp [membersOf, member, copy_scalar]
  · simp [membersOf, member, hroles]
  · simp [membersOf, member, names]
  · simp [membersOf, member]

theorem noneEmpty : ∀ f ∈ conditions, f.NoneEmpty := by
  intro f hf
  rw [List.mem_singleton.mp hf]
  refine ⟨fun k cs h => ?_, fun q c cs h => ?_⟩
  · simp [Filter.nodes, Filter.nodesAll] at h
  · simp [Filter.nodes, Filter.nodesAll] at h
    obtain ⟨-, -, rfl⟩ | ⟨-, -, rfl⟩ := h
    · exact List.cons_ne_nil _ _
    · exact List.cons_ne_nil _ _

end Roles

/-! ### Lists of filters -/

/-- **Casting along a renaming preserves meaning.** Filters that are accepted for a type are cast by
a table that sends each of their columns to its renamed path. The cast succeeds, the outcome is
accepted for the renamed type, and on a renamed copy of a record it answers or fails as the filters
do on the record. -/
theorem castFilters_preserves {ρ : Renaming} {s d : Schema} {start : String} {o : CastOptions}
    {fs : List Filter} {nullGuard : Bool} {p : Predicate} (fits : ρ.Fits s d)
    (full : ∀ f ∈ fs, f.NoneEmpty) (moves : ∀ c ∈ Filter.columnsAll fs, ρ.Moves s start o c)
    (compiled : compileFilter s ⟨nullGuard, false⟩ Predicate.usualRegistry (.named start) fs =
      .ok p)
    (fallback : Bool) :
    ∃ gs, castFilters ⟨d, some (.named (ρ.type start)), o⟩ fs = .ok gs ∧
      ∃ p', compileFilter d ⟨nullGuard, fallback⟩ Predicate.usualRegistry (.named (ρ.type start))
          gs = .ok p' ∧
        ∀ x x', ρ.Copy s d (.named start) x x' → p'.holds d x' = p.holds s x := by
  have hcompile := (usualBackend_compile s ⟨nullGuard, false⟩ (.named start) fs).symm.trans compiled
  obtain ⟨ps, hps, rfl⟩ := map_eq_ok_iff.mp hcompile
  have hguard : (⟨nullGuard, fallback⟩ : Options).nullGuard =
    (⟨nullGuard, false⟩ : Options).nullGuard := rfl
  obtain ⟨gs, hgs, hcarries, -⟩ := Renaming.exists_castAll fits rfl hguard fs .top moves full hps
  obtain ⟨ps', hps', hpreserves⟩ := Renaming.compileAll_of_carries hcarries
  refine ⟨gs, ?_, (usualBackend ⟨nullGuard, fallback⟩).conjunction ps', ?_, ?_⟩
  · -- a strict cast has nothing to refuse, and another one does not ask
    have hunmapped : o.unmappedFilters fs = [] :=
      Renaming.unmappedAll_eq_nil false fun c hc => (moves c hc).mapsFilter
    rw [castFilters, hunmapped, CastOptions.checkMapped, List.isEmpty_nil, Bool.not_true,
      Bool.and_false]
    exact hgs
  · refine (usualBackend_compile d ⟨nullGuard, fallback⟩ _ gs).trans ?_
    exact map_eq_ok_iff.mpr ⟨ps', hps', rfl⟩
  · exact Renaming.preserves_conjunction hpreserves

/-- Conditions on the roles of accounts and on the grants of these roles, cast to conditions on the
groups of users. -/
theorem castFilters_preserves_of_roles :
    ∃ p, compileFilter Roles.source .usual Predicate.usualRegistry (.named "Account")
        Roles.conditions = .ok p ∧
      ∃ gs, castFilters ⟨Roles.destination, some (.named "User"), Roles.table⟩ Roles.conditions =
          .ok gs ∧
        ∃ p', compileFilter Roles.destination .usual Predicate.usualRegistry (.named "User") gs =
            .ok p' ∧
          ∀ name level, p'.holds Roles.destination (Roles.user name level) =
            p.holds Roles.source (Roles.account name level) := by
  -- the predicate of the source exists, and by it those of the destination
  obtain ⟨p, hp⟩ : ∃ p, compileFilter Roles.source .usual Predicate.usualRegistry (.named "Account")
      Roles.conditions = .ok p := ⟨_, rfl⟩
  obtain ⟨gs, hgs, p', hp', hpreserves⟩ :=
    castFilters_preserves Roles.fits Roles.noneEmpty Roles.moves hp false
  exact ⟨p, hp, gs, hgs, p', hp', fun name level =>
    hpreserves _ _ (Roles.copy_account name level)⟩

end RecordQuery
