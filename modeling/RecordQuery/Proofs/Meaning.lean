import RecordQuery.Predicate
import RecordQuery.Proofs.Grammar
import RecordQuery.Proofs.Members

/-!
# What filters mean

A reference reading of filters: the surface form is evaluated directly on a record, from left to
right, without a tree of full paths and without a compiled predicate. The predicate that is compiled
from the filters agrees with it on every record, in its answers and in its faults.

* `Surface.holds` — the reference. A condition reads its own short column from the record at hand; a
  quantified filter goes through the elements of its column, each of which becomes the record at
  hand.
* `FilterInput.Writes` — the ways to write down surface forms: as text, as trees that the interface
  builds from them, and as trees of qualified conditions.
* `compileNode_leaf` — what is compiled from a single condition.
* `compileFilter_agrees` — the agreement.

Compiled conditions come from a tree whose columns are full paths, and the walk over the tree takes
one enclosing column off each. The proof is an induction on the tree that keeps the surface form of
the subtree in step with what is compiled from it.
-/

namespace RecordQuery

/-! ### The reference -/

/-- All tests in order, up to the first that is false. -/
def everyInOrder {α : Type} (test : α → Except Error Bool) : List α → Except Error Bool
  | [] => .ok true
  | a :: as => do if ← test a then everyInOrder test as else .ok false

/-- All tests in order, up to the first that is true. -/
def someInOrder {α : Type} (test : α → Except Error Bool) : List α → Except Error Bool
  | [] => .ok false
  | a :: as => do if ← test a then .ok true else someInOrder test as

namespace Surface

variable (s : Schema) (options : Options)

/-- The value of a column in a record. -/
def valueAt (column : ResolvedColumn) (record : Value) : Except Error Value :=
  liftFault (s.read options.nullGuard column record)

/-- The parts that a quantified filter goes through: null has none, and what is no collection has
those that it has as a sequence, if any. -/
def elements (v : Value) : Except Error (List Value) :=
  if v.isNull then .ok [] else v.items?.elim (.error (.fault .unsupported)) .ok

mutual

/-- Whether a record of a type satisfies a filter in its surface form. -/
def holds (owner : TypeExpr) : Surface → Value → Except Error Bool
  | leaf c o raw, record => do
    let column ← s.resolve options.fallback owner c
    let expected ← s.coerce raw column.type o
    let actual ← valueAt s options column record
    liftFault (Strategy.usualHolds o actual expected)
  | group .and us, record => holdsEvery owner us record
  | group .or us, record => holdsSome owner us record
  | quantified q c us, record => do
    let column ← s.resolve options.fallback owner c
    match column.element? with
    | none => .error (Schema.mismatch column q.word .noCollection)
    | some element => do
      let parts ← elements (← valueAt s options column record)
      match q with
      | .any => someInOrder (holdsEvery element us) parts
      | .all => everyInOrder (holdsEvery element us) parts
termination_by structural u => u

/-- Whether a record satisfies all of several filters, tried in order. -/
def holdsEvery (owner : TypeExpr) : List Surface → Value → Except Error Bool
  | [], _ => .ok true
  | u :: us, record => do
    if ← holds owner u record then holdsEvery owner us record else .ok false
termination_by structural us => us

/-- Whether a record satisfies one of several filters, tried in order. -/
def holdsSome (owner : TypeExpr) : List Surface → Value → Except Error Bool
  | [], _ => .ok false
  | u :: us, record => do
    if ← holds owner u record then .ok true else holdsSome owner us record
termination_by structural us => us

end

end Surface

/-! ### Agreement of parts -/

theorem liftFault_elementsOf (v : Value) :
    liftFault (Predicate.elementsOf v) = Surface.elements v := by
  cases hv : v.items? with
  | none => cases v <;> simp [Predicate.elementsOf, Surface.elements, Value.isNull, liftFault, hv]
  | some xs => cases v <;> simp [Predicate.elementsOf, Surface.elements, Value.isNull, liftFault, hv]

/-- A predicate and a surface form agree on all records of a type: they give the same answer, or
fail in the same way. -/
def Agree (s : Schema) (options : Options) (owner : TypeExpr) (p : Predicate) (u : Surface) :
    Prop :=
  ∀ record, liftFault (p.holds s record) = u.holds s options owner record

/-! Groups and elements are gone through alike: what is tried is a list of tests. -/

namespace Predicate

/-- A group of predicates is tried like a list of elements. -/
theorem holdsAll_eq_allOk (s : Schema) (ps : List Predicate) (record : Value) :
    holdsAll s ps record = allOk (fun p => p.holds s record) ps := by
  induction ps with
  | nil => rfl
  | cons p ps ih => rw [holdsAll, allOk, ih]

theorem holdsAny_eq_anyOk (s : Schema) (ps : List Predicate) (record : Value) :
    holdsAny s ps record = anyOk (fun p => p.holds s record) ps := by
  induction ps with
  | nil => rfl
  | cons p ps ih => rw [holdsAny, anyOk, ih]

end Predicate

namespace Surface

theorem holdsEvery_eq_everyInOrder (s : Schema) (options : Options) (owner : TypeExpr)
    (us : List Surface) (record : Value) : holdsEvery s options owner us record =
      everyInOrder (fun u => holds s options owner u record) us := by
  induction us with
  | nil => rfl
  | cons u us ih => rw [holdsEvery, everyInOrder, ih]

theorem holdsSome_eq_someInOrder (s : Schema) (options : Options) (owner : TypeExpr)
    (us : List Surface) (record : Value) : holdsSome s options owner us record =
      someInOrder (fun u => holds s options owner u record) us := by
  induction us with
  | nil => rfl
  | cons u us ih => rw [holdsSome, someInOrder, ih]

end Surface

section InOrder

variable {α β : Type} {as : List α} {bs : List β}

/-- Tests that agree one by one stop at the same place. -/
theorem Predicate.allOk_congr {f : α → Except Fault Bool} {g : β → Except Fault Bool}
    (h : List.Forall₂ (fun a b => f a = g b) as bs) : allOk f as = allOk g bs := by
  induction h with
  | nil => rfl
  | cons hfirst _ ih => rw [allOk, allOk, hfirst, ih]

theorem Predicate.anyOk_congr {f : α → Except Fault Bool} {g : β → Except Fault Bool}
    (h : List.Forall₂ (fun a b => f a = g b) as bs) : anyOk f as = anyOk g bs := by
  induction h with
  | nil => rfl
  | cons hfirst _ ih => rw [anyOk, anyOk, hfirst, ih]

variable {test : α → Except Fault Bool} {other : β → Except Error Bool}

theorem liftFault_allOk (h : List.Forall₂ (fun a b => liftFault (test a) = other b) as bs) :
    liftFault (Predicate.allOk test as) = everyInOrder other bs := by
  induction h with
  | nil => rfl
  | cons hfirst _ ih =>
    rw [Predicate.allOk, everyInOrder, liftFault_bind, hfirst]
    congr 1
    funext b
    -- only after true the others are tried
    cases b with
    | false => rfl
    | true => exact ih

theorem liftFault_anyOk (h : List.Forall₂ (fun a b => liftFault (test a) = other b) as bs) :
    liftFault (Predicate.anyOk test as) = someInOrder other bs := by
  induction h with
  | nil => rfl
  | cons hfirst _ ih =>
    rw [Predicate.anyOk, someInOrder, liftFault_bind, hfirst]
    congr 1
    funext b
    cases b with
    | false => exact ih
    | true => rfl

end InOrder

section
variable {s : Schema} {options : Options} {owner : TypeExpr} {ps : List Predicate}
  {us : List Surface}

/-- Predicates that agree with surface forms one by one hold together where these do. -/
theorem liftFault_holdsAll (h : List.Forall₂ (Agree s options owner) ps us) (record : Value) :
    liftFault (Predicate.holdsAll s ps record) =
      Surface.holdsEvery s options owner us record := by
  rw [Predicate.holdsAll_eq_allOk, Surface.holdsEvery_eq_everyInOrder]
  exact liftFault_allOk (h.imp fun _ _ hagree => hagree record)

/-- One of the predicates holds where one of the surface forms does. -/
theorem liftFault_holdsAny (h : List.Forall₂ (Agree s options owner) ps us) (record : Value) :
    liftFault (Predicate.holdsAny s ps record) = Surface.holdsSome s options owner us record := by
  rw [Predicate.holdsAny_eq_anyOk, Surface.holdsSome_eq_someInOrder]
  exact liftFault_anyOk (h.imp fun _ _ hagree => hagree record)

end

namespace Predicate

/-- A conjunction of no part or of one part is no group, but holds like one. -/
theorem holds_conjunction (registry : Registry Strategy) (nullGuard : Bool) (s : Schema)
    (ps : List Predicate) (record : Value) :
    ((backend registry nullGuard).conjunction ps).holds s record = holdsAll s ps record := by
  match ps with
  | [] => rfl
  | [p] =>
    show p.holds s record = p.holds s record >>= _
    cases p.holds s record with
    | error e => rfl
    | ok b => cases b <;> rfl
  | _ :: _ :: _ => rfl

theorem holds_disjunction (registry : Registry Strategy) (nullGuard : Bool) (s : Schema)
    (ps : List Predicate) (record : Value) :
    ((backend registry nullGuard).disjunction ps).holds s record = holdsAny s ps record := by
  match ps with
  | [] => rfl
  | [p] =>
    show p.holds s record = p.holds s record >>= _
    cases p.holds s record with
    | error e => rfl
    | ok b => cases b <;> rfl
  | _ :: _ :: _ => rfl

theorem require_usualRegistry (o : Operator) : usualRegistry.require o = .ok (.usual o) := by
  cases o <;> rfl

end Predicate

theorem Predicate.holds_test_of_read {s : Schema} {column : ResolvedColumn} {nullGuard : Bool}
    {record v : Value} (hread : s.read nullGuard column record = .ok v) (strategy : Strategy)
    (w : Value) : (test strategy column nullGuard w).holds s record = strategy.holds v w := by
  rw [holds, hread, ok_bind]

/-! ### The walk over a tree -/

section
variable {s : Schema} {options : Options}

/-- The tree of predicates that the usual backend makes. -/
abbrev usualBackend (options : Options) : Backend Predicate :=
  Predicate.backend Predicate.usualRegistry options.nullGuard

theorem condition_usualBackend (c : Condition) : (usualBackend options).condition c =
    .ok (.test (.usual c.operator) c.column options.nullGuard c.value) := by
  change (Predicate.usualRegistry.require c.operator).map _ = _
  rw [Predicate.require_usualRegistry]
  rfl

/-- A quantifier goes through a column that is found and has elements. -/
theorem collection_eq_ok_iff {owner : TypeExpr} {scope : Option ColumnPath} {q : Quantifier}
    {path : ColumnPath} {column : ResolvedColumn} {e : TypeExpr} :
    Backend.collection s options owner scope q path = .ok (column, e) ↔
      s.resolveIn options owner scope path = .ok column ∧ column.element? = some e := by
  rw [Backend.collection, bind_eq_ok_iff]
  constructor
  · rintro ⟨found, hfound, h⟩
    split at h
    · next helement =>
      cases h
      exact ⟨hfound, helement⟩
    · cases h
  · rintro ⟨hcolumn, helement⟩
    refine ⟨column, hcolumn, ?_⟩
    rw [helement]

section
variable {owner : TypeExpr} {scope : Option ColumnPath} {path : ColumnPath} {o : Operator}

/-- What a leaf becomes that compares a column with an operator that fits it. -/
theorem compileNode_leaf {column : ResolvedColumn}
    (hcolumn : s.resolveIn options owner scope path = .ok column)
    (hoperator : s.checkOperator column o = .ok ()) (raw : RawText) :
    (usualBackend options).compileNode s options owner scope (.leaf path o raw) =
      (s.coerce raw column.type o).map fun w => .test (.usual o) column options.nullGuard w := by
  show s.condition options owner scope path o raw >>= (usualBackend options).condition = _
  rw [Schema.condition, hcolumn, ok_bind, hoperator, ok_bind]
  cases s.coerce raw column.type o with
  | error e => rfl
  | ok w => exact condition_usualBackend ⟨column, o, w⟩

theorem compileNode_leaf_of_error {e : Error}
    (hcolumn : s.resolveIn options owner scope path = .error e) (o : Operator) (raw : RawText) :
    (usualBackend options).compileNode s options owner scope (.leaf path o raw) = .error e := by
  show s.condition options owner scope path o raw >>= (usualBackend options).condition = _
  rw [Schema.condition, hcolumn]
  rfl

/-- The predicate of a single leaf. -/
theorem compileFilter_leaf {column : ResolvedColumn} {raw : RawText} {w : Value}
    (hcolumn : s.resolve options.fallback owner path = .ok column)
    (hoperator : s.checkOperator column o = .ok ()) (hw : s.coerce raw column.type o = .ok w) :
    compileFilter s options Predicate.usualRegistry owner [.leaf path o raw] =
      .ok (.test (.usual o) column options.nullGuard w) := by
  have hcolumn : s.resolveIn options owner none path = .ok column := hcolumn
  show (usualBackend options).compileNode s options owner none (.leaf path o raw) = _
  rw [compileNode_leaf hcolumn hoperator, hw]
  rfl

end

mutual

/-- **One filter.** What is compiled from a tree below a column agrees with the tree's surface form,
which is read below the same column. -/
theorem agree_of_compileNode (scope : Option ColumnPath) (owner : TypeExpr) :
    ∀ (f : Filter) (p : Predicate) (u : Surface),
      (usualBackend options).compileNode s options owner scope f = .ok p →
      f.surface scope = .ok u → Agree s options owner p u
  | .leaf c o raw, p, u, hp, hu => by
    obtain ⟨column, hcolumn, hu⟩ := bind_eq_ok_iff.mp hu
    cases hu
    obtain ⟨condition, hcondition, hmade⟩ := bind_eq_ok_iff.mp hp
    obtain ⟨hresolved, -, hexpected, rfl⟩ := Schema.condition_eq_ok_iff.mp hcondition
    rw [Schema.resolveIn, hcolumn, ok_bind] at hresolved
    rw [condition_usualBackend] at hmade
    cases hmade
    -- the walk resolves and reads once, the reference for every record, with the same results
    intro record
    rw [Surface.holds, hresolved, ok_bind, hexpected, ok_bind, Predicate.holds, liftFault_bind]
    rfl
  | .group k fs, p, u, hp, hu => by
    obtain ⟨us, hus, hu⟩ := bind_eq_ok_iff.mp hu
    cases hu
    obtain ⟨ps, hps, rfl⟩ := map_eq_ok_iff.mp hp
    -- a group changes neither the scope nor the type
    have hall := agree_of_compileAll scope owner fs ps us hps hus
    intro record
    cases k with
    | and =>
      rw [Surface.holds, ← liftFault_holdsAll hall, ← Predicate.holds_conjunction]
      rfl
    | or =>
      rw [Surface.holds, ← liftFault_holdsAny hall, ← Predicate.holds_disjunction]
      rfl
  | .quantified q c fs, p, u, hp, hu => by
    obtain ⟨column, hcolumn, hu⟩ := bind_eq_ok_iff.mp hu
    obtain ⟨us, hus, hu⟩ := bind_eq_ok_iff.mp hu
    cases hu
    obtain ⟨⟨resolved, element⟩, hcollection, hp⟩ := bind_eq_ok_iff.mp hp
    obtain ⟨ps, hps, hp⟩ := bind_eq_ok_iff.mp hp
    cases hp
    obtain ⟨hresolved, helement⟩ := collection_eq_ok_iff.mp hcollection
    rw [Schema.resolveIn, hcolumn, ok_bind] at hresolved
    -- the conditions are read with the full path of the collection as their scope
    have hall := agree_of_compileAll (some c) element fs ps us hps hus
    have hinner : ∀ as : List Value, List.Forall₂ (fun a b =>
        liftFault (((usualBackend options).conjunction ps).holds s a) =
          Surface.holdsEvery s options element us b) as as := by
      refine fun as => List.forall₂_same.mpr fun a _ => ?_
      rw [Predicate.holds_conjunction, liftFault_holdsAll hall]
    intro record
    rw [Surface.holds, hresolved, ok_bind, Predicate.holds, liftFault_bind]
    simp only [helement, Surface.valueAt, liftFault_bind, liftFault_elementsOf]
    -- both read the collection first, then turn it into elements, then go through these
    congr 1
    funext value
    congr 1
    funext elements
    cases q with
    | any => exact liftFault_anyOk (hinner elements)
    | all => exact liftFault_allOk (hinner elements)

/-- Several filters, one by one. -/
theorem agree_of_compileAll (scope : Option ColumnPath) (owner : TypeExpr) :
    ∀ (fs : List Filter) (ps : List Predicate) (us : List Surface),
      (usualBackend options).compileAll s options owner scope fs = .ok ps →
      Filter.surfaceAll scope fs = .ok us → List.Forall₂ (Agree s options owner) ps us
  | [], ps, us, hps, hus => by
    cases hps
    cases hus
    exact .nil
  | f :: fs, ps, us, hps, hus => by
    obtain ⟨p, hp, hps⟩ := bind_eq_ok_iff.mp hps
    obtain ⟨ps', hps', hok⟩ := bind_eq_ok_iff.mp hps
    cases hok
    obtain ⟨u, hu, hus⟩ := bind_eq_ok_iff.mp hus
    obtain ⟨us', hus', hok⟩ := bind_eq_ok_iff.mp hus
    cases hok
    exact .cons (agree_of_compileNode scope owner f p u hp hu)
      (agree_of_compileAll scope owner fs ps' us' hps' hus')

end

end

/-- A list of filters is compiled like the conjunction of its members. -/
theorem usualBackend_compile (s : Schema) (options : Options) (type : TypeExpr) (fs : List Filter) :
    (usualBackend options).compile s options type fs =
      ((usualBackend options).compileAll s options type none fs).map
        (usualBackend options).conjunction := by
  match fs with
  | [] => rfl
  | [f] =>
    rw [Backend.compile, Backend.compileAll]
    cases (usualBackend options).compileNode s options type none f <;> rfl
  | _ :: _ :: _ => rfl

/-! ### Written filters -/

/-- What is given writes down a list of surface forms: as a text that derives them, as nothing, as
trees that the interface builds from them, or as trees with qualified conditions that have them as
surface forms. Trees that the interface builds from qualified ones are of the last kind
(`Filter.surface_compose`). -/
inductive FilterInput.Writes : FilterInput → List Surface → Prop
  | text {text : String} {us : List Surface} (derived : DerivesAll text.toList us) :
      Writes (.one (.value (.text text))) us
  | absent : Writes (.one (.value .null)) []
  | node (u : Surface) : Writes (.one (.node u.tree)) [u]
  | nodes (us : List Surface) : Writes (.several ((Surface.trees us).map .node)) us
  | qualified {f : Filter} {u : Surface} (form : f.surface none = .ok u) :
      Writes (.one (.node f)) [u]
  | qualifiedAll {fs : List Filter} {us : List Surface}
      (forms : Filter.surfaceAll none fs = .ok us) : Writes (.several (fs.map .node)) us

theorem NodePart.withFilters_map_node {α : Type} (fs : List Filter)
    (make : List Filter → Except Error α) : NodePart.withFilters (fs.map .node) make = make fs := by
  rw [NodePart.withFilters, NodePart.filters_map_node]

/-- What writes down surface forms stands for filters that have these forms. -/
theorem FilterInput.Writes.exists_filters {given : FilterInput} {us : List Surface}
    (h : given.Writes us) : ∃ fs, Filter.surfaceAll none fs = .ok us ∧
      ∀ {α : Type} (make : List Filter → Except Error α), given.withFilters make = make fs := by
  cases h with
  | @text text _ derived =>
    -- a text that derives the forms is read as their trees
    have hparse := (Filter.parseAll_eq_ok_iff text _).mpr ⟨us, derived, rfl⟩
    refine ⟨Surface.trees us, Filter.surfaceAll_underAll none us, fun make => ?_⟩
    have hspread : (NodePart.value (.text text)).spread =
        (Filter.parseAll text).map fun fs => fs.map .node := rfl
    rw [hparse] at hspread
    rw [FilterInput.withFilters, hspread]
    exact NodePart.withFilters_map_node (Surface.trees us) make
  | absent => exact ⟨[], rfl, fun make => rfl⟩
  | node u =>
    refine ⟨[u.tree], Filter.surfaceAll_underAll none [u], fun make => ?_⟩
    exact NodePart.withFilters_map_node [u.tree] make
  | nodes us =>
    refine ⟨Surface.trees us, Filter.surfaceAll_underAll none us, fun make => ?_⟩
    exact NodePart.withFilters_map_node (Surface.trees us) make
  | @qualified f u form =>
    refine ⟨[f], ?_, NodePart.withFilters_map_node [f]⟩
    rw [Filter.surfaceAll, form]
    rfl
  | @qualifiedAll fs _ forms => exact ⟨fs, forms, NodePart.withFilters_map_node fs⟩

/-- **Compiled filters mean what they say.** When filters are accepted, the predicate that is made
of them gives on every record the answer of their surface forms, evaluated directly, and fails
where that evaluation fails, in the same way. -/
theorem compileFilter_agrees {s : Schema} {options : Options} {type : TypeExpr}
    {given : FilterInput} {us : List Surface} {p : Predicate} (written : given.Writes us)
    (accepted : given.withFilters (compileFilter s options Predicate.usualRegistry type) = .ok p)
    (record : Value) :
    liftFault (p.holds s record) = Surface.holdsEvery s options type us record := by
  obtain ⟨fs, hforms, hwith⟩ := written.exists_filters
  rw [hwith] at accepted
  -- the list is compiled as a conjunction, the parts of which agree one by one
  have hcompile := (usualBackend_compile s options type fs).symm.trans accepted
  obtain ⟨ps, hps, rfl⟩ := map_eq_ok_iff.mp hcompile
  rw [Predicate.holds_conjunction]
  exact liftFault_holdsAll (agree_of_compileAll none type fs ps us hps hforms) record

/-- Conditions on the names of the members of some team of a club hold for the club with a team that
satisfies them, and not for the club without. -/
theorem compileFilter_agrees_of_club :
    let person : RecordType := ⟨"Person", [], .model [⟨"name", .scalar .text, [], false, none⟩], []⟩
    let team : RecordType :=
      ⟨"Team", [], .model [⟨"people", .applied .list [.named "Person"], [], false, none⟩], []⟩
    let club : RecordType :=
      ⟨"Club", [], .model [⟨"teams", .applied .list [.named "Team"], [], false, none⟩], []⟩
    let s : Schema := ⟨[], [club, team, person], .absent⟩
    let form : Surface :=
      .quantified .any ⟨["teams"], by decide, by decide⟩
        [.quantified .all ⟨["people"], by decide, by decide⟩
          [.leaf ⟨["name"], by decide, by decide⟩ .sw (.plain "A")]]
    let people (names : List String) : Value :=
      .map [("people", .list (names.map fun n => .map [("name", .text n)]))]
    let clubOf (teams : List (List String)) : Value := .map [("teams", .list (teams.map people))]
    ∃ p, (FilterInput.several [.node form.tree]).withFilters
        (compileFilter s .usual Predicate.usualRegistry (.named "Club")) = .ok p ∧
      liftFault (p.holds s (clubOf [["Ada", "Bob"], ["Ann", "Amy"]])) = .ok true ∧
      liftFault (p.holds s (clubOf [["Ada", "Bob"]])) = .ok false := by
  intro person team club s form people clubOf
  obtain ⟨p, hp⟩ : ∃ p, (FilterInput.several [.node form.tree]).withFilters
      (compileFilter s .usual Predicate.usualRegistry (.named "Club")) = .ok p := ⟨_, rfl⟩
  -- the answers are those of the surface form, which are computed
  have hagrees := compileFilter_agrees (.nodes [form]) hp
  exact ⟨p, hp, (hagrees _).trans rfl, (hagrees _).trans rfl⟩

end RecordQuery
