import RecordQuery.Error
import RecordQuery.Operator

/-!
# Registries

What an operator means can be replaced. A registry maps operators to strategies, at most one to
each; an operator without a strategy cannot be used.

* `Registry.register` and `Registry.unregister` change a registry;
* `Registry.require` looks a strategy up.
-/

namespace RecordQuery

/-- The strategies of a backend, by operator. -/
structure Registry (σ : Type) where
  backend : String
  strategies : List (Operator × σ)

namespace Registry

variable {σ : Type}

/-- The registry with a strategy in the place of any other for its operator. -/
def register (r : Registry σ) (operator : Operator) (strategy : σ) : Registry σ :=
  { r with strategies := (operator, strategy) :: r.strategies.filter fun p => p.1 != operator }

/-- The registry without a strategy for an operator. -/
def unregister (r : Registry σ) (operator : Operator) : Registry σ :=
  { r with strategies := r.strategies.filter fun p => p.1 != operator }

/-- The strategy for an operator. -/
def require (r : Registry σ) (operator : Operator) : Except Error σ :=
  match r.strategies.find? fun p => p.1 == operator with
  | some p => .ok p.2
  | none => .error (.misuse (.noStrategy r.backend operator.word))

/-- The registry that gives every operator a strategy of its own. -/
def ofAll (backend : String) (strategy : Operator → σ) : Registry σ :=
  ⟨backend, Operator.all.map fun o => (o, strategy o)⟩

end Registry
end RecordQuery
