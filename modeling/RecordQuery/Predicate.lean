import RecordQuery.Backend
import RecordQuery.Predicate.Strategy
import RecordQuery.Registry

/-!
# Predicates

A filter as a predicate over records in memory.

* `Predicate` is the tree that a filter becomes: tests of columns, joined in order;
* `Predicate.holds` evaluates it on a record, from left to right and no further than needed;
* `Predicate.backend` makes predicates, `compileFilter` that of a list of filters, and
  `applyFilter` keeps the records that satisfy it.

The predicates of no conditions at all are `always` and `never`. A predicate of one part is this
part.
-/

namespace RecordQuery

/-- A predicate over records. -/
inductive Predicate where
  | always
  | never
  /-- A strategy tests the value of a column, read with or without a guard against null. -/
  | test (strategy : Strategy) (column : ResolvedColumn) (nullGuard : Bool) (value : Value)
  | every (parts : List Predicate)
  | some (parts : List Predicate)
  /-- Some or every element of a collection satisfies a predicate. -/
  | elements (q : Quantifier) (column : ResolvedColumn) (nullGuard : Bool) (inner : Predicate)
  deriving Inhabited

namespace Predicate

/-- All tests in order, up to the first that is false. -/
def allOk {α : Type} (test : α → Except Fault Bool) : List α → Except Fault Bool
  | [] => .ok true
  | a :: as => do if ← test a then allOk test as else .ok false

/-- All tests in order, up to the first that is true. -/
def anyOk {α : Type} (test : α → Except Fault Bool) : List α → Except Fault Bool
  | [] => .ok false
  | a :: as => do if ← test a then .ok true else anyOk test as

/-- Some or all tests, in order. -/
def quantify {α : Type} (q : Quantifier) (test : α → Except Fault Bool) (as : List α) :
    Except Fault Bool :=
  match q with
  | .any => anyOk test as
  | .all => allOk test as

/-- The elements of a collection; null has none. -/
def elementsOf : Value → Except Fault (List Value)
  | .null => .ok []
  | v =>
    match v.items? with
    | Option.some xs => .ok xs
    | Option.none => .error .unsupported

mutual

/-- Whether a record satisfies a predicate. -/
def holds (s : Schema) : Predicate → Value → Except Fault Bool
  | always, _ => .ok true
  | never, _ => .ok false
  | test strategy column nullGuard expected, record => do
    strategy.holds (← s.read nullGuard column record) expected
  | every parts, record => holdsAll s parts record
  | some parts, record => holdsAny s parts record
  | elements q column nullGuard inner, record => do
    quantify q (holds s inner) (← elementsOf (← s.read nullGuard column record))
termination_by structural p => p

/-- Whether a record satisfies all predicates, tried in order. -/
def holdsAll (s : Schema) : List Predicate → Value → Except Fault Bool
  | [], _ => .ok true
  | p :: ps, record => do if ← holds s p record then holdsAll s ps record else .ok false
termination_by structural ps => ps

/-- Whether a record satisfies one of the predicates, tried in order. -/
def holdsAny (s : Schema) : List Predicate → Value → Except Fault Bool
  | [], _ => .ok false
  | p :: ps, record => do if ← holds s p record then .ok true else holdsAny s ps record
termination_by structural ps => ps

end

/-! ### From filters -/

/-- The usual meanings of the operators in memory. -/
def usualRegistry : Registry Strategy := .ofAll "in-memory" .usual

/-- Filters as predicates, with strategies from a registry. -/
def backend (registry : Registry Strategy) (nullGuard : Bool) : Backend Predicate where
  condition c := (registry.require c.operator).map fun strategy =>
    test strategy c.column nullGuard c.value
  conjunction
    | [] => always
    | [p] => p
    | ps => every ps
  disjunction
    | [] => never
    | [p] => p
    | ps => some ps
  quantified q column inner := .ok (elements q column nullGuard inner)

/-- Whether the predicate is one of the two that look at nothing. -/
def isConstant : Predicate → Bool
  | always | never => true
  | _ => false

end Predicate

/-- The predicate of a list of filters, all of which have to hold. -/
def compileFilter (s : Schema) (options : Options) (registry : Registry Strategy)
    (type : TypeExpr) (filters : List Filter) : Except Error Predicate :=
  (Predicate.backend registry options.nullGuard).compile s options type filters

/-- The elements that satisfy a test, with their places from a given one on. -/
def keepFrom {α : Type} (test : α → Except Fault Bool) : Nat → List α →
    Except Fault (List (Nat × α))
  | _, [] => .ok []
  | i, a :: as => do
    let kept ← test a
    let rest ← keepFrom test (i + 1) as
    .ok (if kept then (i, a) :: rest else rest)

/-- The records that satisfy a list of filters, with their places. -/
def applyFilter (s : Schema) (options : Options) (registry : Registry Strategy) (type : TypeExpr)
    (filters : List Filter) (records : List Value) : Except Error (List (Nat × Value)) := do
  let p ← compileFilter s options registry type filters
  liftFault (keepFrom (p.holds s) 0 records)

end RecordQuery
