import RecordQuery.Text.Blank
import RecordQuery.Text.Casing

/-!
# Operators

The names of the query grammar: the operators of a condition, the words that combine conditions,
and the directions of sorting.

* `Operator` are the tests of a single column;
* `Connective` combines conditions, `Quantifier` ranges over a collection, and `Combinator` is
  either of them;
* `Direction` is the direction of a sort key.

A token names one of them in any letter case and with blanks around it; a value names it exactly.
-/

namespace RecordQuery

open Text

/-- The element of a list with a given name. -/
def named? {α : Type} (name : α → String) (all : List α) (s : String) : Option α :=
  all.find? fun a => name a == s

/-- A token without the blanks around it, in lower case. -/
def normalToken (s : String) : String := String.ofList (lower (trim s.toList))

/-- The tests of a column against a value. -/
inductive Operator where
  | eq
  | neq
  | gt
  | gte
  | lt
  | lte
  | ct
  | nct
  | sw
  | ew
  | isIn
  deriving DecidableEq, Repr

namespace Operator

/-- All operators. -/
def all : List Operator := [eq, neq, gt, gte, lt, lte, ct, nct, sw, ew, isIn]

/-- The word of the grammar. -/
def word : Operator → String
  | eq => "eq"
  | neq => "neq"
  | gt => "gt"
  | gte => "gte"
  | lt => "lt"
  | lte => "lte"
  | ct => "ct"
  | nct => "nct"
  | sw => "sw"
  | ew => "ew"
  | isIn => "in"

/-- The operator of a word, exactly spelt. -/
def ofWord? (s : String) : Option Operator := named? word all s

/-- The operator that a token names. -/
def ofToken? (s : String) : Option Operator := ofWord? (normalToken s)

/-- Whether the operator takes a list of values. -/
def takesList : Operator → Bool
  | isIn => true
  | _ => false

/-- Whether the operator needs a column whose type has an order. -/
def isOrdering : Operator → Bool
  | gt | gte | lt | lte => true
  | _ => false

/-- Whether the operator needs a text column. -/
def isTextual : Operator → Bool
  | sw | ew => true
  | _ => false

/-- Whether the operator tests for membership in columns that are not texts. -/
def isContainment : Operator → Bool
  | ct | nct => true
  | _ => false

end Operator

/-- The words that combine conditions of one record. -/
inductive Connective where
  | and
  | or
  deriving DecidableEq, Repr

/-- The words that range over the elements of a collection. -/
inductive Quantifier where
  | any
  | all
  deriving DecidableEq, Repr

/-- The words that combine conditions. -/
inductive Combinator where
  | connective (c : Connective)
  | quantifier (q : Quantifier)
  deriving DecidableEq, Repr

/-- The word of the grammar. -/
def Connective.word : Connective → String
  | .and => "and"
  | .or => "or"

/-- The word of the grammar. -/
def Quantifier.word : Quantifier → String
  | .any => "any"
  | .all => "all"

namespace Combinator

/-- All combinators. -/
def every : List Combinator :=
  [.connective .and, .connective .or, .quantifier .any, .quantifier .all]

/-- The word of the grammar. -/
def word : Combinator → String
  | .connective c => c.word
  | .quantifier q => q.word

/-- Whether the combinator ranges over a collection. -/
def isQuantifier : Combinator → Bool
  | .connective _ => false
  | .quantifier _ => true

/-- The combinator of a word, exactly spelt. -/
def ofWord? (s : String) : Option Combinator := named? word every s

/-- The combinator that a token names. -/
def ofToken? (s : String) : Option Combinator := ofWord? (normalToken s)

end Combinator

/-- The connective that a token names. -/
def Connective.ofToken? (s : String) : Option Connective :=
  match Combinator.ofToken? s with
  | some (.connective c) => some c
  | _ => none

/-- The quantifier that a token names. -/
def Quantifier.ofToken? (s : String) : Option Quantifier :=
  match Combinator.ofToken? s with
  | some (.quantifier q) => some q
  | _ => none

/-- The direction of a sort key. -/
inductive Direction where
  | asc
  | desc
  deriving DecidableEq, Repr

namespace Direction

/-- The word of the grammar. -/
def word : Direction → String
  | asc => "asc"
  | desc => "desc"

/-- The direction of a word, exactly spelt. -/
def ofWord? (s : String) : Option Direction := named? word [asc, desc] s

/-- The direction that a token names. -/
def ofToken? (s : String) : Option Direction := ofWord? (normalToken s)

end Direction
end RecordQuery
