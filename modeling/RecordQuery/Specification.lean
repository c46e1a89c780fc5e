import RecordQuery.Cache
import RecordQuery.Criteria
import RecordQuery.Sort.Key
import RecordQuery.Sql.Select

/-!
# Specifications

Criteria bound to the record type that they are about. The predicate of the filters is compiled
when it is needed for the first time, and kept.

* `Specification` is the binding, `Specification.prepare` gives its predicate;
* `Specification.isSatisfiedBy` tests one record, `Specification.apply` filters and sorts records;
* `Specification.select` makes the query for a mapped type instead;
* `Specification.both` joins two specifications of one type.

Specifications that share a cache also share the predicates of equal filters.
-/

namespace RecordQuery

/-- A cache of predicates. -/
abbrev PredicateCache : Type := Cache CacheKey Compiled

/-- Criteria for records of a type, the switches of reading them, whether predicates are looked for
in a cache, and the predicate once it is compiled. -/
structure Specification where
  type : TypeExpr
  criteria : Criteria
  options : Options
  shared : Bool
  predicate : Option Compiled

namespace Specification

/-- A specification whose predicate is not compiled yet. -/
def of (type : TypeExpr) (criteria : Criteria) (options : Options) (shared : Bool) :
    Specification :=
  ⟨type, criteria, options, shared, none⟩

/-- The predicate for a request that needs it, compiled or found in the cache. -/
def compile (s : Schema) (request : Nat) (cache : PredicateCache) (spec : Specification) :
    Except Error Compiled × PredicateCache :=
  let filters := spec.criteria.filters
  if spec.shared then
    compileShared id s spec.options Workspace.memory Predicate.usualRegistry spec.type filters
      request cache
  else
    ((compileFilter s spec.options Predicate.usualRegistry spec.type filters).map
      fun p => ⟨request, p⟩, cache)

/-- The predicate of a specification, which has none if there are no filters, with the
specification and the cache after it has been compiled. -/
def prepare (s : Schema) (request : Nat) (cache : PredicateCache) (spec : Specification) :
    Except Error (Option Compiled) × Specification × PredicateCache :=
  if spec.criteria.filters.isEmpty then (.ok none, spec, cache)
  else
    match spec.predicate with
    | some p => (.ok (some p), spec, cache)
    | none =>
      match spec.compile s request cache with
      | (.ok p, cache) => (.ok (some p), { spec with predicate := some p }, cache)
      | (.error e, cache) => (.error e, spec, cache)

/-- Whether a record satisfies a predicate that may be missing. -/
def accepts (s : Schema) (p : Option Compiled) (record : Value) : Except Fault Bool :=
  match p with
  | none => .ok true
  | some p => p.predicate.holds s record

/-- Whether a record satisfies the specification. -/
def isSatisfiedBy (s : Schema) (request : Nat) (cache : PredicateCache) (spec : Specification)
    (record : Value) : Except Error Bool × Specification × PredicateCache :=
  let (p, after) := spec.prepare s request cache
  (p.bind fun p => liftFault (accepts s p record), after)

/-- The records that a predicate accepts, with their places, in the order of the sort list. -/
def arrange (s : Schema) (spec : Specification) (p : Option Compiled) (records : List Value) :
    Except Error (List (Nat × Value)) := do
  let kept ← liftFault (keepFrom (accepts s p) 0 records)
  applySorting s spec.options spec.type spec.criteria.sorting Prod.snd kept

/-- The records that satisfy the specification, with their places, in the order of its sort
list. -/
def apply (s : Schema) (request : Nat) (cache : PredicateCache) (spec : Specification)
    (records : List Value) :
    Except Error (List (Nat × Value)) × Specification × PredicateCache :=
  let (p, after) := spec.prepare s request cache
  (p.bind fun p => spec.arrange s p records, after)

/-- The elements of a value that a specification is applied to. -/
def recordsOf (v : Value) : Except Error (List Value) :=
  match v.items? with
  | some xs => .ok xs
  | none => .error (.misuse (.notIterable v.typeName))

/-- The query for the rows that satisfy the specification. -/
def select (s : Schema) (spec : Specification) : Except Error Sql.Select := do
  let q ← Sql.Select.all s spec.type
  q.satisfying s spec.options usualClauses spec.type spec.criteria

/-- The specification that is satisfied when two of one type are; the first one says how it is
read. -/
def both (a b : Specification) : Except Error Specification :=
  if a.type = b.type then .ok (of a.type (a.criteria.merge b.criteria) a.options a.shared)
  else .error (.misuse .differentTypes)

/-- The way a specification is shown. -/
def display (spec : Specification) : Except Error String :=
  spec.criteria.text.map fun t => "CriteriaSpecification(" ++ spec.type.name ++ ", " ++ t ++ ")"

end Specification
end RecordQuery
