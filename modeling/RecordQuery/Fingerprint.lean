import RecordQuery.Backend
import RecordQuery.Predicate

/-!
# Fingerprints

What a filter means for a record type, apart from how it is written: kinds of nodes, operators,
names of members, and values with their types. Two filters with one fingerprint have one predicate.

* `Token` is the tree of what counts, `Token.ofFilters` that of a list of filters;
* `Fingerprint` adds the type, the switches and the place where the predicate is used.
-/

namespace RecordQuery

/-- The name of a value's type with the module that defines it. -/
def Value.qualifiedTypeName : Value → String
  | .decimal _ => "decimal.Decimal"
  | .dateTime _ => "datetime.datetime"
  | .date _ => "datetime.date"
  | .time _ => "datetime.time"
  | .duration _ => "datetime.timedelta"
  | .uuid _ => "uuid.UUID"
  | .foreign home name _ _ => home ++ "." ++ name
  | .member _ owner _ _ => TypeExpr.schemaHome ++ "." ++ owner
  | .record tag _ => TypeExpr.schemaHome ++ "." ++ tag.owner
  | v => "builtins." ++ v.typeName

/-- A value that a column is compared with: the name of its type and its display form, or a list of
such pairs. -/
inductive CanonicalValue where
  | single (typeName shown : String)
  | several (items : List (String × String))
  deriving DecidableEq, Repr

namespace CanonicalValue

/-- The type name and the display form of a value that has one. -/
def pairOf (v : Value) : Except Fault (String × String) :=
  v.shown.map fun text => (v.qualifiedTypeName, text)

/-- The canonical form of a value whose parts have display forms. -/
def of : Value → Except Fault CanonicalValue
  -- a list of values for a membership test, which holds no lists itself
  | .list xs => (xs.mapM pairOf).map several
  | v => (pairOf v).map fun p => single p.1 p.2

end CanonicalValue

/-- What counts of a filter. -/
inductive Token where
  | leaf (operator : Operator) (members : List String) (typeName : String) (value : CanonicalValue)
  | group (connective : Connective) (parts : List Token)
  | quantified (q : Quantifier) (members : List String) (inner : Token)

namespace Token

mutual

/-- Decides whether two trees are equal. -/
def same : Token → Token → Bool
  | leaf o m t v, leaf o' m' t' v' => o = o' && m = m' && t = t' && v = v'
  | group k ps, group k' ps' => k = k' && sameAll ps ps'
  | quantified q m p, quantified q' m' p' => q = q' && m = m' && same p p'
  | _, _ => false
termination_by structural x => x

/-- Decides whether two lists of trees are equal. -/
def sameAll : List Token → List Token → Bool
  | [], [] => true
  | p :: ps, q :: qs => same p q && sameAll ps qs
  | _, _ => false
termination_by structural x => x

end

mutual

theorem same_iff : ∀ p q : Token, same p q = true ↔ p = q
  | leaf _ _ _ _, q => by cases q <;> simp [same, and_assoc]
  | group _ ps, q => by cases q <;> simp [same, sameAll_iff ps]
  | quantified _ _ p, q => by cases q <;> simp [same, same_iff p, and_assoc]

theorem sameAll_iff : ∀ ps qs : List Token, sameAll ps qs = true ↔ ps = qs
  | [], qs => by cases qs <;> simp [sameAll]
  | p :: ps, qs => by cases qs <;> simp [sameAll, same_iff p, sameAll_iff ps]

end

instance : DecidableEq Token := fun p q => decidable_of_iff _ (same_iff p q)

/-- Filters as trees of what counts. -/
def backend : Backend Token where
  condition c :=
    (liftFault (CanonicalValue.of c.value)).map
      (leaf c.operator c.column.memberNames c.column.type.qualifiedName)
  conjunction := group .and
  disjunction := group .or
  quantified q column inner := .ok (quantified q column.memberNames inner)

/-- The tree of a list of filters. -/
def ofFilters (s : Schema) (options : Options) (type : TypeExpr) (filters : List Filter) :
    Except Error Token :=
  backend.compile s options type filters

end Token

/-- The place where predicates are used: a backend, or a registry of its own. -/
inductive Workspace where
  | backend (name : String)
  | registry (name : String)
  deriving DecidableEq, Repr

/-- The workspace of the usual predicates in memory. -/
def Workspace.memory : Workspace := .backend "memory"

/-- All that a compiled filter depends on. -/
structure Fingerprint where
  type : TypeExpr
  workspace : Workspace
  options : Options
  tokens : Token
  deriving DecidableEq

/-- The fingerprint of a list of filters; it fails where the filters do not fit the type. -/
def Fingerprint.of (s : Schema) (workspace : Workspace) (options : Options) (type : TypeExpr)
    (filters : List Filter) : Except Error Fingerprint :=
  (Token.ofFilters s options type filters).map fun tokens => ⟨type, workspace, options, tokens⟩

end RecordQuery
