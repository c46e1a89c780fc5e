import RecordQuery.Proofs.Coercion
import RecordQuery.Proofs.Meaning
import RecordQuery.Proofs.Members
import RecordQuery.Schema.Checkable

/-!
# What a fingerprint fixes

A fingerprint is made by the walk that also makes predicates, with another backend: of a condition
it keeps the operator, the names of the members and the display form of the value. In a schema whose
values are told apart by their displays, the two walks fail together, and filters with one
fingerprint have predicates that agree on every record.

* `Backend.failAlike_compile` — two backends that fail alike at conditions fail alike on filters.
* `Token.exists_alike` — filters with one token tree hold for the same records. The tree does not
  contain what a test looks at. It fixes it, from the record type inwards: names fix the hops of a
  column (`Schema.resolve_ext`), these fix its type, and the display form fixes the value among
  those that can be read as this type (`Schema.coerce_injective`).
* `Fingerprint.sound` — the result for everything that is given as filters.
* `Fingerprint.not_sound` — two values with one display, and a value without one.
-/

namespace RecordQuery

/-! ### Two walks -/

namespace Backend

variable {α β : Type} {s : Schema} {options : Options} {b : Backend α} {c : Backend β}

/-- Two backends fail alike where the walk calls them: at the conditions that it has read, if these
have one of some operators, and at quantifiers. -/
structure FailAlike (s : Schema) (options : Options) (known : Operator → Prop) (b : Backend α)
    (c : Backend β) : Prop where
  condition {owner : TypeExpr} {scope : Option ColumnPath} {path : ColumnPath} {o : Operator}
    {raw : RawText} {read : Condition} : known o →
    s.condition options owner scope path o raw = .ok read →
      RecordQuery.FailAlike (b.condition read) (c.condition read)
  quantified (q : Quantifier) (column : ResolvedColumn) (x : α) (y : β) :
    RecordQuery.FailAlike (b.quantified q column x) (c.quantified q column y)

theorem failAlike_self {ε γ : Type} (x : Except ε γ) : RecordQuery.FailAlike x x := rfl

variable {known : Operator → Prop}

mutual

/-- Two backends that fail alike where they are called fail alike on a filter. -/
theorem failAlike_compileNode (h : b.FailAlike s options known c) :
    ∀ (f : Filter) (owner : TypeExpr) (scope : Option ColumnPath),
      (∀ l ∈ f.leaves, known l.2.1) →
      RecordQuery.FailAlike (b.compileNode s options owner scope f)
        (c.compileNode s options owner scope f)
  | .leaf path o raw, owner, scope, hknown => by
    refine (failAlike_self (s.condition options owner scope path o raw)).bind ?_
    intro read read' hread hread'
    cases hread.symm.trans hread'
    exact h.condition (hknown _ List.mem_cons_self) hread
  | .group k fs, owner, scope, hknown =>
    (failAlike_compileAll h fs owner scope hknown).map (b.group k) (c.group k)
  | .quantified q path fs, owner, scope, hknown => by
    refine (failAlike_self (collection s options owner scope q path)).bind ?_
    -- both walks look the collection up alike, and differ in what they make of its conditions
    rintro ⟨column, element⟩ found hcollection hfound
    cases hcollection.symm.trans hfound
    refine (failAlike_compileAll h fs element (some path) hknown).bind ?_
    intro xs ys _ _
    exact h.quantified q column (b.conjunction xs) (c.conjunction ys)

theorem failAlike_compileAll (h : b.FailAlike s options known c) :
    ∀ (fs : List Filter) (owner : TypeExpr) (scope : Option ColumnPath),
      (∀ l ∈ Filter.leavesAll fs, known l.2.1) →
      RecordQuery.FailAlike (b.compileAll s options owner scope fs)
        (c.compileAll s options owner scope fs)
  | [], _, _, _ => rfl
  | f :: fs, owner, scope, hknown => by
    -- both walks stop at the first filter that fails
    obtain ⟨hfirst, hrest⟩ := List.forall_mem_append.mp hknown
    refine (failAlike_compileNode h f owner scope hfirst).bind ?_
    intro x y _ _
    refine (failAlike_compileAll h fs owner scope hrest).bind ?_
    intro xs ys _ _
    rfl

end

/-- The filter that has to hold where all of a list have to. -/
def conjoined : List Filter → Filter
  | [f] => f
  | fs => .group .and fs

theorem leaves_conjoined (fs : List Filter) : (conjoined fs).leaves = Filter.leavesAll fs := by
  match fs with
  | [] => rfl
  | [f] => exact (List.append_nil f.leaves).symm
  | _ :: _ :: _ => rfl

theorem compile_eq (b : Backend α) (s : Schema) (options : Options) (type : TypeExpr)
    (fs : List Filter) :
    b.compile s options type fs = b.compileNode s options type none (conjoined fs) := by
  match fs with
  | [] => rfl
  | [_] => rfl
  | _ :: _ :: _ => rfl

theorem compile_leaf {owner : TypeExpr} {path : ColumnPath} {o : Operator} {raw : RawText}
    {read : Condition} (h : s.condition options owner none path o raw = .ok read) :
    b.compile s options owner [.leaf path o raw] = b.condition read := by
  rw [compile, compileNode, h]
  rfl

theorem failAlike_compile (h : b.FailAlike s options known c) (type : TypeExpr) (fs : List Filter)
    (hknown : ∀ l ∈ Filter.leavesAll fs, known l.2.1) :
    RecordQuery.FailAlike (b.compile s options type fs) (c.compile s options type fs) := by
  rw [compile_eq, compile_eq]
  exact failAlike_compileNode h (conjoined fs) type none (leaves_conjoined fs ▸ hknown)

end Backend

theorem compileFilter_of_condition {s : Schema} {options : Options} {owner : TypeExpr}
    {path : ColumnPath} {o : Operator} {raw : RawText} {read : Condition}
    (h : s.condition options owner none path o raw = .ok read) :
    compileFilter s options Predicate.usualRegistry owner [.leaf path o raw] =
      .ok (.test (.usual read.operator) read.column options.nullGuard read.value) :=
  (Backend.compile_leaf h).trans (condition_usualBackend read)

/-- Fingerprints and predicates fail alike at conditions whose operator has a strategy. In a legible
schema every value that a condition is compared with has a canonical form. -/
theorem Token.failAlike_backend {s : Schema} (legible : s.Legible) (options : Options)
    (r : Registry Strategy) :
    Token.backend.FailAlike s options (fun o => Succeeds (r.require o))
      (Predicate.backend r options.nullGuard) where
  condition := by
    rintro owner scope path o raw read ⟨strategy, hstrategy⟩ hread
    obtain ⟨column, -, hread⟩ := bind_eq_ok_iff.mp hread
    obtain ⟨-, -, hread⟩ := bind_eq_ok_iff.mp hread
    obtain ⟨v, hv, hread⟩ := bind_eq_ok_iff.mp hread
    cases hread
    -- the fingerprint fails only for a value without a display, the predicate only for an operator
    -- without a meaning, and neither occurs
    obtain ⟨form, hform⟩ := Schema.exists_canonical legible hv
    simp only [Token.backend, Predicate.backend, hstrategy, hform]
    rfl
  quantified _ _ _ _ := rfl

theorem Predicate.succeeds_require_usual (o : Operator) : Succeeds (usualRegistry.require o) :=
  ⟨_, require_usualRegistry o⟩

/-! ### One tree, one meaning -/

/-- The value of a column depends on its hops only. -/
theorem Schema.read_congr {s : Schema} {c c' : ResolvedColumn} (leading : c.leading = c'.leading)
    (terminal : c.terminal = c'.terminal) (nullGuard : Bool) :
    s.read nullGuard c = s.read nullGuard c' := by
  funext record
  unfold Schema.read ResolvedColumn.type ResolvedColumn.hops
  rw [leading, terminal]

namespace Token

variable {s : Schema} {options : Options}

/-- What a condition is compiled to, as a part of a fingerprint and as a predicate. -/
theorem leaf_cases {owner : TypeExpr} {scope : Option ColumnPath} {path : ColumnPath} {o : Operator}
    {raw : RawText} {t : Token}
    (ht : backend.compileNode s options owner scope (.leaf path o raw) = .ok t) :
    ∃ path' column v form, s.resolve options.fallback owner path' = .ok column ∧
      s.coerce raw column.type o = .ok v ∧ CanonicalValue.of v = .ok form ∧
      t = .leaf o column.memberNames column.type.qualifiedName form ∧
      ∀ r : Registry Strategy,
        (Predicate.backend r options.nullGuard).compileNode s options owner scope
          (.leaf path o raw) =
            (r.require o).map fun strategy => .test strategy column options.nullGuard v := by
  obtain ⟨read, hread, hpart⟩ := bind_eq_ok_iff.mp ht
  obtain ⟨hcolumn, -, hv, rfl⟩ := Schema.condition_eq_ok_iff.mp hread
  -- the scope is not needed any more: the column is resolved below it
  obtain ⟨path', -, hcolumn⟩ := bind_eq_ok_iff.mp hcolumn
  obtain ⟨form, hform, rfl⟩ := map_eq_ok_iff.mp hpart
  refine ⟨path', read.column, read.value, form, hcolumn, hv, liftFault_eq_ok_iff.mp hform, rfl,
    fun r => ?_⟩
  rw [Backend.compileNode, hread]
  rfl

theorem group_cases {owner : TypeExpr} {scope : Option ColumnPath} {k : Connective}
    {fs : List Filter} {t : Token}
    (ht : backend.compileNode s options owner scope (.group k fs) = .ok t) :
    ∃ ts, backend.compileAll s options owner scope fs = .ok ts ∧ t = .group k ts := by
  obtain ⟨ts, hts, rfl⟩ := map_eq_ok_iff.mp ht
  refine ⟨ts, hts, ?_⟩
  cases k <;> rfl

/-- What a quantified filter is compiled to. -/
theorem quantified_cases {owner : TypeExpr} {scope : Option ColumnPath} {q : Quantifier}
    {path : ColumnPath} {fs : List Filter} {t : Token}
    (ht : backend.compileNode s options owner scope (.quantified q path fs) = .ok t) :
    ∃ path' column element ts, s.resolve options.fallback owner path' = .ok column ∧
      column.element? = some element ∧
      backend.compileAll s options element (some path) fs = .ok ts ∧
      t = .quantified q column.memberNames (.group .and ts) ∧
      ∀ r : Registry Strategy,
        (Predicate.backend r options.nullGuard).compileNode s options owner scope
          (.quantified q path fs) =
            ((Predicate.backend r options.nullGuard).compileAll s options element (some path)
              fs).map fun ps =>
                .elements q column options.nullGuard
                  ((Predicate.backend r options.nullGuard).conjunction ps) := by
  obtain ⟨⟨column, element⟩, hcollection, ht⟩ := bind_eq_ok_iff.mp ht
  obtain ⟨ts, hts, ht⟩ := bind_eq_ok_iff.mp ht
  cases ht
  obtain ⟨hresolved, helement⟩ := collection_eq_ok_iff.mp hcollection
  obtain ⟨path', -, hresolved⟩ := bind_eq_ok_iff.mp hresolved
  -- both compilers look up the collection in the same way
  refine ⟨path', column, element, ts, hresolved, helement, hts, rfl, fun r => ?_⟩
  rw [Backend.compileNode, hcollection]
  rfl

theorem holds_group (r : Registry Strategy) (nullGuard : Bool) (k : Connective)
    (ps : List Predicate) (record : Value) :
    ((Predicate.backend r nullGuard).group k ps).holds s record =
      match k with
      | .and => Predicate.holdsAll s ps record
      | .or => Predicate.holdsAny s ps record := by
  cases k with
  | and => exact Predicate.holds_conjunction _ _ s ps record
  | or => exact Predicate.holds_disjunction _ _ s ps record

mutual

/-- **One tree, one meaning.** In a legible schema, of two filters about records of one type that are
compiled to the same tree of tokens, one is compiled to a predicate if the other is, under any
registry, and the two predicates hold for the same records, and fail on the same ones. -/
theorem exists_alike (legible : s.Legible) (r : Registry Strategy) (owner : TypeExpr)
    (scope scope' : Option ColumnPath) :
    ∀ (f g : Filter) (t : Token) (q : Predicate),
      backend.compileNode s options owner scope f = .ok t →
      backend.compileNode s options owner scope' g = .ok t →
      (Predicate.backend r options.nullGuard).compileNode s options owner scope' g = .ok q →
      ∃ p, (Predicate.backend r options.nullGuard).compileNode s options owner scope f = .ok p ∧
        ∀ record, p.holds s record = q.holds s record
  | .leaf path o raw, g, t, q, hf, hg, hq => by
    -- the other filter has the same token, so it is of the same kind
    obtain ⟨path₁, column, v, form, hcolumn, hv, hform, rfl, hcompile⟩ := leaf_cases hf
    cases g with
    | group k gs =>
      obtain ⟨ts, -, h⟩ := group_cases hg
      cases h
    | quantified x path' gs =>
      obtain ⟨_, _, _, _, -, -, -, h, -⟩ := quantified_cases hg
      cases h
    | leaf path' o' raw' =>
      obtain ⟨path₂, column', w, form', hcolumn', hw, hform', h, hcompile'⟩ := leaf_cases hg
      obtain ⟨rfl, hnames, -, rfl⟩ := Token.leaf.inj h
      obtain ⟨hleading, hterminal⟩ := Schema.resolve_ext hcolumn hcolumn' hnames
      -- the last hops agree, so both texts were read for one type
      have htype : column.type = column'.type := congrArg Hop.type hterminal
      rw [htype] at hv
      have hvalue : v = w := Schema.coerce_injective legible hv hw hform hform'
      obtain ⟨strategy, hstrategy, rfl⟩ := map_eq_ok_iff.mp ((hcompile' r).symm.trans hq)
      refine ⟨.test strategy column options.nullGuard v, ?_, fun record => ?_⟩
      · rw [hcompile, hstrategy]
        rfl
      · rw [Predicate.holds, Predicate.holds, Schema.read_congr hleading hterminal, hvalue]
  | .group k fs, g, t, q, hf, hg, hq => by
    obtain ⟨ts, hts, rfl⟩ := group_cases hf
    cases g with
    | leaf path' o' raw' =>
      obtain ⟨_, _, _, _, -, -, -, h, -⟩ := leaf_cases hg
      cases h
    | quantified x path' gs =>
      obtain ⟨_, _, _, _, -, -, -, h, -⟩ := quantified_cases hg
      cases h
    | group k' gs =>
      obtain ⟨ts', hts', h⟩ := group_cases hg
      cases h
      obtain ⟨qs, hqs, rfl⟩ := map_eq_ok_iff.mp hq
      -- the parts have one list of tokens, whatever the connective
      obtain ⟨ps, hps, hall⟩ :=
        exists_allAlike legible r owner scope scope' fs gs ts qs hts hts' hqs
      refine ⟨_, map_eq_ok_iff.mpr ⟨ps, hps, rfl⟩, fun record => ?_⟩
      rw [holds_group, holds_group]
      cases k with
      | and => exact (hall record).1
      | or => exact (hall record).2
  | .quantified x path fs, g, t, q, hf, hg, hq => by
    obtain ⟨path₁, column, element, ts, hcolumn, helement, hts, rfl, hcompile⟩ :=
      quantified_cases hf
    cases g with
    | leaf path' o' raw' =>
      obtain ⟨_, _, _, _, -, -, -, h, -⟩ := leaf_cases hg
      cases h
    | group k gs =>
      obtain ⟨_, -, h⟩ := group_cases hg
      cases h
    | quantified x' path' gs =>
      obtain ⟨path₂, column', element', ts', hcolumn', helement', hts', h, hcompile'⟩ :=
        quantified_cases hg
      obtain ⟨rfl, hnames, h⟩ := Token.quantified.inj h
      -- the token of the inner conditions is a group even when there is one condition only
      obtain ⟨-, rfl⟩ := Token.group.inj h
      obtain ⟨hleading, hterminal⟩ := Schema.resolve_ext hcolumn hcolumn' hnames
      -- the elements are of one type, so the conditions on them are compiled for one type
      have htype : column.element? = column'.element? :=
        congrArg (fun hop : Hop => hop.type.element?) hterminal
      rw [htype, helement'] at helement
      cases helement
      obtain ⟨qs, hqs, rfl⟩ := map_eq_ok_iff.mp ((hcompile' r).symm.trans hq)
      obtain ⟨ps, hps, hall⟩ :=
        exists_allAlike legible r element (some path) (some path') fs gs ts qs hts hts' hqs
      refine ⟨_, (hcompile r).trans (map_eq_ok_iff.mpr ⟨ps, hps, rfl⟩), fun record => ?_⟩
      have hinner : ((Predicate.backend r options.nullGuard).conjunction ps).holds s =
          ((Predicate.backend r options.nullGuard).conjunction qs).holds s := by
        funext record
        rw [Predicate.holds_conjunction, Predicate.holds_conjunction]
        exact (hall record).1
      rw [Predicate.holds, Predicate.holds, Schema.read_congr hleading hterminal, hinner]

/-- Filters one by one: all of them hold, or one of them, for the same records. -/
theorem exists_allAlike (legible : s.Legible) (r : Registry Strategy) (owner : TypeExpr)
    (scope scope' : Option ColumnPath) :
    ∀ (fs gs : List Filter) (ts : List Token) (qs : List Predicate),
      backend.compileAll s options owner scope fs = .ok ts →
      backend.compileAll s options owner scope' gs = .ok ts →
      (Predicate.backend r options.nullGuard).compileAll s options owner scope' gs = .ok qs →
      ∃ ps, (Predicate.backend r options.nullGuard).compileAll s options owner scope fs = .ok ps ∧
        ∀ record, Predicate.holdsAll s ps record = Predicate.holdsAll s qs record ∧
          Predicate.holdsAny s ps record = Predicate.holdsAny s qs record
  | [], gs, ts, qs, hf, hg, hq => by
    cases hf
    cases gs with
    | nil =>
      cases hq
      exact ⟨[], rfl, fun _ => ⟨rfl, rfl⟩⟩
    | cons g gs =>
      obtain ⟨_, -, hg⟩ := bind_eq_ok_iff.mp hg
      obtain ⟨_, -, h⟩ := bind_eq_ok_iff.mp hg
      cases h
  | f :: fs, gs, ts, qs, hf, hg, hq => by
    obtain ⟨t, ht, hf⟩ := bind_eq_ok_iff.mp hf
    obtain ⟨ts', hts, hf⟩ := bind_eq_ok_iff.mp hf
    cases hf
    -- one list of tokens for both, so the lists of filters have one length
    cases gs with
    | nil => cases hg
    | cons g gs =>
      obtain ⟨u, hu, hg⟩ := bind_eq_ok_iff.mp hg
      obtain ⟨us', hus, hg⟩ := bind_eq_ok_iff.mp hg
      cases hg
      obtain ⟨q, hq₁, hq⟩ := bind_eq_ok_iff.mp hq
      obtain ⟨qs', hqs, hq⟩ := bind_eq_ok_iff.mp hq
      cases hq
      obtain ⟨p, hp, hfirst⟩ := exists_alike legible r owner scope scope' f g t q ht hu hq₁
      obtain ⟨ps, hps, hall⟩ :=
        exists_allAlike legible r owner scope scope' fs gs ts' qs' hts hus hqs
      refine ⟨p :: ps, ?_, fun record => ?_⟩
      · rw [Backend.compileAll, hp, ok_bind, hps]
        rfl
      · obtain ⟨hevery, hsome⟩ := hall record
        rw [Predicate.holdsAll, Predicate.holdsAll, Predicate.holdsAny, Predicate.holdsAny,
          hfirst, hevery, hsome]
        exact ⟨rfl, rfl⟩

end

/-- Two filters with one tree of tokens have usual predicates that hold for the same records. -/
theorem holds_eq (legible : s.Legible) (owner : TypeExpr) (scope scope' : Option ColumnPath)
    (f g : Filter) (t : Token) (p q : Predicate)
    (hf : backend.compileNode s options owner scope f = .ok t)
    (hg : backend.compileNode s options owner scope' g = .ok t)
    (hp : (usualBackend options).compileNode s options owner scope f = .ok p)
    (hq : (usualBackend options).compileNode s options owner scope' g = .ok q) (record : Value) :
    p.holds s record = q.holds s record := by
  obtain ⟨p', hp', hsame⟩ :=
    exists_alike legible Predicate.usualRegistry owner scope scope' f g t q hf hg hq
  cases hp.symm.trans hp'
  exact hsame record

/-- Two lists of filters with one tree of tokens are compiled together, under any registry, and hold
for the same records. -/
theorem ofFilters_alike (legible : s.Legible) {r : Registry Strategy} {type : TypeExpr}
    {fs gs : List Filter} {t : Token} {q : Predicate} (hf : ofFilters s options type fs = .ok t)
    (hg : ofFilters s options type gs = .ok t) (hq : compileFilter s options r type gs = .ok q) :
    ∃ p, compileFilter s options r type fs = .ok p ∧
      ∀ record, p.holds s record = q.holds s record := by
  rw [ofFilters, Backend.compile_eq] at hf hg
  rw [compileFilter, Backend.compile_eq] at hq ⊢
  exact exists_alike legible r type none none _ _ t q hf hg hq

end Token

/-! ### Everything given as filters -/

section

variable {α β : Type}

/-- What is given as filters either stands for some filters, or fails wherever it is used. -/
theorem FilterInput.withFilters_eq_ok {given : FilterInput} {make : List Filter → Except Error α}
    {x : α} (h : given.withFilters make = .ok x) :
    ∃ fs, make fs = .ok x ∧
      ∀ {β : Type} (make' : List Filter → Except Error β), given.withFilters make' = make' fs := by
  have hparts : ∀ parts : List NodePart, NodePart.withFilters parts make = .ok x →
      ∃ fs, make fs = .ok x ∧ ∀ {β : Type} (make' : List Filter → Except Error β),
        NodePart.withFilters parts make' = make' fs := by
    intro parts hmade
    unfold NodePart.withFilters at hmade
    split at hmade
    · -- all parts are filters
      next fs hfs =>
      refine ⟨fs, hmade, fun make' => ?_⟩
      unfold NodePart.withFilters
      rw [hfs]
    · -- a part that is none ends in an error, whatever is made of the filters before it
      obtain ⟨_, -, hmade⟩ := bind_eq_ok_iff.mp hmade
      cases hmade
  cases given with
  | several parts => exact hparts parts h
  | one part =>
    obtain ⟨parts, hspread, h⟩ := bind_eq_ok_iff.mp h
    obtain ⟨fs, hmake, hwith⟩ := hparts parts h
    refine ⟨fs, hmake, fun make' => ?_⟩
    show (part.spread >>= fun parts => NodePart.withFilters parts make') = make' fs
    rw [hspread, ok_bind, hwith]

theorem FilterInput.failAlike_withFilters (given : FilterInput)
    {make : List Filter → Except Error α} {make' : List Filter → Except Error β}
    (h : ∀ fs, FailAlike (make fs) (make' fs)) :
    FailAlike (given.withFilters make) (given.withFilters make') := by
  have hparts : ∀ parts : List NodePart,
      FailAlike (NodePart.withFilters parts make) (NodePart.withFilters parts make') := by
    intro parts
    unfold NodePart.withFilters
    split
    · exact h _
    · -- the filters before the first other part are tried for their errors only
      exact (h _).bind fun _ _ _ _ => rfl
  cases given with
  | several parts => exact hparts parts
  | one part =>
    refine (Backend.failAlike_self part.spread).bind ?_
    intro parts parts' hspread hspread'
    cases hspread.symm.trans hspread'
    exact hparts parts

end

theorem Fingerprint.failAlike_compileFilter {s : Schema} (legible : s.Legible) (workspace : Workspace)
    (options : Options) (type : TypeExpr) (fs : List Filter) :
    FailAlike (Fingerprint.of s workspace options type fs)
      (compileFilter s options Predicate.usualRegistry type fs) := by
  have h := Backend.failAlike_compile 
    (Token.failAlike_backend legible options Predicate.usualRegistry)
    type fs fun l _ => Predicate.succeeds_require_usual l.2.1
  exact h.map_left fun tokens => (⟨type, workspace, options, tokens⟩ : Fingerprint)

/-- **Fingerprints are sound** in a legible schema. What is given as filters twice, for two record
types and with two sets of switches, has one fingerprint only if type and switches are the same, and
then the usual predicates made of it give the same answer on every record, or fail in the same way.
A fingerprint fails to be made exactly where the predicate does, with the same error. -/
theorem Fingerprint.sound {s : Schema} (legible : s.Legible) (f g : FilterInput)
    (type type' : TypeExpr) (options options' : Options) (workspace workspace' : Workspace) :
    (∀ x, f.withFilters (Fingerprint.of s workspace options type) = .ok x →
      g.withFilters (Fingerprint.of s workspace' options' type') = .ok x →
      type = type' ∧ options = options' ∧ ∃ p q,
        f.withFilters (compileFilter s options Predicate.usualRegistry type) = .ok p ∧
        g.withFilters (compileFilter s options' Predicate.usualRegistry type') = .ok q ∧
        ∀ record, p.holds s record = q.holds s record) ∧
    ∀ e, f.withFilters (Fingerprint.of s workspace options type) = .error e ↔
      f.withFilters (compileFilter s options Predicate.usualRegistry type) = .error e := by
  refine ⟨fun x hf hg => ?_, ?_⟩
  · obtain ⟨fs, hfs, hwith⟩ := FilterInput.withFilters_eq_ok hf
    obtain ⟨gs, hgs, hwith'⟩ := FilterInput.withFilters_eq_ok hg
    obtain ⟨t, ht, rfl⟩ := map_eq_ok_iff.mp hfs
    obtain ⟨t', ht', hsame⟩ := map_eq_ok_iff.mp hgs
    -- type and switches are parts of the fingerprint itself
    obtain ⟨rfl, -, rfl, rfl⟩ := Fingerprint.mk.inj hsame
    obtain ⟨p, hp⟩ := (failAlike_compileFilter legible workspace _ _ fs).exists_ok hfs
    obtain ⟨q, hq⟩ := (failAlike_compileFilter legible workspace' _ _ gs).exists_ok hgs
    refine ⟨rfl, rfl, p, q, (hwith _).trans hp, (hwith' _).trans hq, ?_⟩
    -- a list of filters has the token of one filter, so the result for one filter suffices
    rw [Token.ofFilters, Backend.compile_eq] at ht ht'
    rw [compileFilter, Backend.compile_eq] at hp hq
    exact Token.holds_eq legible _ none none _ _ t' p q ht ht' hp hq
  · refine failAlike_iff.mp (f.failAlike_withFilters fun fs => ?_)
    exact failAlike_compileFilter legible workspace options type fs

namespace Parcels

/-- The adapter of bytes, which are those of a text in UTF-8. It refuses all texts for other types. -/
def adapter : Adapter where
  read raw t :=
    match t with
    | .scalar .bytes => .ok (.bytes raw.text.toUTF8.data.toList)
    | _ => .error .refused

/-- Parcels with a weight and a code of bytes. -/
def schema : Schema :=
  ⟨[], [⟨"Parcel", [], .model [⟨"weight", .scalar .integer, [], false, none⟩,
    ⟨"code", .scalar .bytes, [], false, none⟩], []⟩], adapter⟩

theorem exists_bytes {raw : RawText} {t : TypeExpr} {v : Value} (h : adapter.read raw t = .ok v) :
    ∃ bs, v = .bytes bs := by
  unfold adapter at h
  simp only at h
  split at h
  · exact ⟨_, (Except.ok.inj h).symm⟩
  · cases h

theorem legible : schema.Legible where
  adapter := {
    displayFault? := by
      intro raw t v h
      obtain ⟨bs, rfl⟩ := exists_bytes h
      rfl
    ne_list := by
      rintro raw t v h vs rfl
      obtain ⟨bs, hbs⟩ := exists_bytes h
      cases hbs
    eq_null := by
      intro raw t v h htype
      obtain ⟨bs, rfl⟩ := exists_bytes h
      simp [Value.qualifiedTypeName, Value.typeName] at htype
    ext := by
      intro raw raw' t v w h h' htype hdisplay
      obtain ⟨bs, rfl⟩ := exists_bytes h
      obtain ⟨cs, rfl⟩ := exists_bytes h'
      exact (Value.IsAtom.bytes bs).ext (.bytes cs) htype hdisplay }
  enums h := by cases h

end Parcels

open Parcels in
/-- Two filters with one fingerprint: the number of a condition may have blanks around it, and
filters may be given in a list or as a conjunction. -/
theorem Fingerprint.sound_of_parcels :
    let weight : ColumnPath := ⟨["weight"], by decide, by decide⟩
    let code : ColumnPath := ⟨["code"], by decide, by decide⟩
    let type : TypeExpr := .named "Parcel"
    let f : FilterInput := .several
      [.node (.leaf weight .gt (.plain " 30 ")), .node (.leaf code .eq (.plain "ab"))]
    let g : FilterInput := .one (.node
      (.group .and [.leaf weight .gt (.plain "30"), .leaf code .eq (.plain "ab")]))
    schema.Legible ∧ ∃ x, f.withFilters (Fingerprint.of schema .memory .usual type) = .ok x ∧
      g.withFilters (Fingerprint.of schema .memory .usual type) = .ok x ∧ ∃ p q,
      f.withFilters (compileFilter schema .usual Predicate.usualRegistry type) = .ok p ∧
      g.withFilters (compileFilter schema .usual Predicate.usualRegistry type) = .ok q ∧
      ∀ record, p.holds schema record = q.holds schema record := by
  intro weight code type f g
  have hsound := Fingerprint.sound legible f g type type .usual .usual .memory .memory
  exact ⟨legible, _, rfl, rfl, (hsound.1 _ rfl rfl).2.2⟩

/-! ### What displays do not tell -/

theorem Schema.checking_secret (s : Schema) (raw : RawText) :
    s.checking.read raw (.bare (.foreign "pydantic.types" "SecretStr")) = .ok (secret raw.text) := by
  simp [checking, isMixedRow, isCheckable, isCheckableShape]

namespace Logins

/-- Logins with a secret password. -/
def schema : Schema :=
  (⟨[], [⟨"Login", [], .plain [⟨"password", .bare (.foreign "pydantic.types" "SecretStr"), [],
    false, none⟩] false, []⟩], .absent⟩ : Schema).checked

/-- A login with a password. -/
def login (password : String) : Value :=
  .record ⟨.plain, "Login", [], none⟩ [("password", some (Schema.secret password))]

/-- The column of the passwords. -/
def password : ColumnPath := ⟨["password"], by decide, by decide⟩

theorem exists_condition : ∃ column : ResolvedColumn,
    (∀ text, schema.read false column (login text) = .ok (Schema.secret text)) ∧
    ∀ text, text = "a" ∨ text = "b" →
      schema.condition .usual (.named "Login") none password .eq (.plain text) =
        .ok ⟨column, .eq, Schema.secret text⟩ := by
  obtain ⟨column, hcolumn, hcheck, hread, htype⟩ : ∃ column, schema.resolveIn .usual
      (.named "Login") none password = .ok column ∧ schema.checkOperator column .eq = .ok () ∧
      (∀ text, schema.read false column (login text) = .ok (Schema.secret text)) ∧
      column.type = .bare (.foreign "pydantic.types" "SecretStr") :=
    ⟨_, rfl, rfl, fun _ => rfl, rfl⟩
  refine ⟨column, hread, fun text htext =>
    Schema.condition_eq_ok_iff.mpr ⟨hcolumn, hcheck, ?_, rfl⟩⟩
  show schema.coerce _ column.type _ = _
  rw [htype]
  -- a text that is not blank is left to the adapter
  obtain rfl | rfl := htext
  · exact Schema.adapt_eq_ok_iff.mpr (Schema.checking_secret _ _)
  · exact Schema.adapt_eq_ok_iff.mpr (Schema.checking_secret _ _)

end Logins

namespace Sizes

/-- The least number with more digits than can be written. -/
def huge : Nat := 10 ^ Numeral.digitLimit

theorem isTooLong_huge : Value.isTooLong huge = true := by
  have hlength : ¬ (Nat.toDigits 10 huge).length ≤ Numeral.digitLimit := by
    rw [Nat.length_toDigits_le_iff (by decide) (by decide), huge]
    exact Nat.lt_irrefl _
  exact decide_eq_true (Nat.lt_of_not_le hlength)

/-- The only size of boxes, whose value is a number. -/
def size (n : Int) : EnumType := ⟨"Size", .plain, [("HUGE", .int n)], List.nodup_singleton _⟩

/-- Boxes of this size. -/
def schema (n : Int) : Schema :=
  ⟨[size n], [⟨"Box", [], .model [⟨"size", .named "Size", [], false, none⟩], []⟩], .absent⟩

/-- The column of the sizes. -/
def column : ColumnPath := ⟨["size"], by decide, by decide⟩

/-- The value of a member is not looked at where a text gives its name. -/
theorem read_huge (n : Int) :
    (size n).read "huge".toList = .ok (some (.member .plain "Size" "HUGE" (.int n))) := by
  have hname : (Text.fold "HUGE".toList == Text.fold "huge".toList) = true := rfl
  have hfound : (size n).members.find? (fun m => Text.fold m.1.toList == Text.fold "huge".toList) =
      some ("HUGE", .int n) := List.find?_cons_of_pos hname
  obtain ⟨m, hm, hmember⟩ :=
    (size n).exists_memberOf (List.mem_cons_self : ("HUGE", .int n) ∈ (size n).members)
  rw [List.mem_singleton.mp hm] at hmember
  rw [EnumType.read, hfound]
  exact congrArg (fun v => Except.ok (some v)) hmember

theorem exists_condition (n : Int) : ∃ found : ResolvedColumn,
    (schema n).condition .usual (.named "Box") none column .eq (.plain "huge") =
      .ok ⟨found, .eq, .member .plain "Size" "HUGE" (.int n)⟩ := by
  obtain ⟨found, hcolumn, hcheck, htype⟩ : ∃ found, (schema n).resolveIn .usual (.named "Box") none
      column = .ok found ∧ (schema n).checkOperator found .eq = .ok () ∧
      found.type = .named "Size" := ⟨_, rfl, rfl, rfl⟩
  refine ⟨found, Schema.condition_eq_ok_iff.mpr ⟨hcolumn, hcheck, ?_, rfl⟩⟩
  show (schema n).coerce _ found.type _ = _
  rw [htype]
  show (liftFault ((size n).read "huge".toList) >>= _) = _
  rw [read_huge]
  rfl

/-- A member with a value that cannot be written has no display. -/
theorem token_eq {n : Int} (hlong : Value.isTooLong n = true) (found : ResolvedColumn) :
    Token.backend.condition ⟨found, .eq, .member .plain "Size" "HUGE" (.int n)⟩ =
      .error (.fault .invalidValue) := by
  have hvalue : CanonicalValue.of (.member .plain "Size" "HUGE" (.int n)) = .error .invalidValue := by
    show ((Value.shown _).map _).map _ = _
    rw [Value.shown, Value.displayFault?, Value.displayFault?, hlong]
    rfl
  show (liftFault (CanonicalValue.of _)).map _ = _
  rw [hvalue]
  rfl

end Sizes

/-- **Fingerprints are not sound** where displays do not tell values apart. Secrets are all shown
alike, so that two conditions on a password have one fingerprint and different answers. And a member
whose value has more digits than can be written has no fingerprint, but a predicate. -/
theorem Fingerprint.not_sound :
    (∃ x p q, Fingerprint.of Logins.schema .memory .usual (.named "Login")
          [.leaf Logins.password .eq (.plain "a")] = .ok x ∧
        Fingerprint.of Logins.schema .memory .usual (.named "Login")
          [.leaf Logins.password .eq (.plain "b")] = .ok x ∧
        compileFilter Logins.schema .usual Predicate.usualRegistry (.named "Login")
          [.leaf Logins.password .eq (.plain "a")] = .ok p ∧
        compileFilter Logins.schema .usual Predicate.usualRegistry (.named "Login")
          [.leaf Logins.password .eq (.plain "b")] = .ok q ∧
        p.holds Logins.schema (Logins.login "a") = .ok true ∧
        q.holds Logins.schema (Logins.login "a") = .ok false) ∧
      (∃ p, compileFilter (Sizes.schema Sizes.huge) .usual Predicate.usualRegistry (.named "Box")
        [.leaf Sizes.column .eq (.plain "huge")] = .ok p) ∧
      Fingerprint.of (Sizes.schema Sizes.huge) .memory .usual (.named "Box")
        [.leaf Sizes.column .eq (.plain "huge")] = .error (.fault .invalidValue) := by
  obtain ⟨column, hread, hcondition⟩ := Logins.exists_condition
  have ha := hcondition "a" (.inl rfl)
  have hb := hcondition "b" (.inr rfl)
  obtain ⟨found, hfound⟩ := Sizes.exists_condition Sizes.huge
  -- both secrets are shown as ten stars
  obtain ⟨t, hta, htb⟩ : ∃ t, Token.backend.condition ⟨column, .eq, Schema.secret "a"⟩ = .ok t ∧
      Token.backend.condition ⟨column, .eq, Schema.secret "b"⟩ = .ok t := ⟨_, rfl, rfl⟩
  refine ⟨⟨_, _, _, congrArg (Except.map _) ((Backend.compile_leaf ha).trans hta),
    congrArg (Except.map _) ((Backend.compile_leaf hb).trans htb), compileFilter_of_condition ha,
    compileFilter_of_condition hb, ?_, ?_⟩, ⟨_, compileFilter_of_condition hfound⟩, ?_⟩
  · rw [Predicate.holds, Options.usual, hread, ok_bind]
    rfl
  · rw [Predicate.holds, Options.usual, hread, ok_bind]
    rfl
  · exact congrArg (Except.map _)
      ((Backend.compile_leaf hfound).trans (Sizes.token_eq Sizes.isTooLong_huge found))

end RecordQuery
