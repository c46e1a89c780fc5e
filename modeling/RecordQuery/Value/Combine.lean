import RecordQuery.Number.Bits
import RecordQuery.Operator
import RecordQuery.Value.Placement

/-!
# Connectives between values

What `and` and `or` give between two values that are no conditions: the digits of integers are
combined place by place, sets by what they have in common or together, and two mappings become one.

* `Value.combine` combines two values, if they are of kinds that can be.
-/

namespace RecordQuery

/-- Two truth values under a connective. -/
def Connective.ofBools : Connective → Bool → Bool → Bool
  | .and => (· && ·)
  | .or => (· || ·)

/-- Two integers under a connective. -/
def Connective.ofIntegers : Connective → Int → Int → Int
  | .and => Bits.both
  | .or => Bits.either

namespace Value

/-- The integer that a value is. -/
def asInteger? (v : Value) : Option Int :=
  match v.unwrapped with
  | bool b => some (if b then 1 else 0)
  | int n => some n
  | _ => none

/-- The elements of two sets under a connective. -/
def combineElements (k : Connective) (xs ys : List Value) : List Value :=
  match k with
  | .and => arranged (xs.filter fun x => (isIn x ys).toOption == some true)
  | .or => arranged (xs ++ ys)

/-- The entries of two mappings as one, of which the second decides where both have a key. -/
def joinEntries (xs ys : List (String × Value)) : List (String × Value) :=
  (xs.map fun e => (e.1, (ys.lookup e.1).getD e.2)) ++
    ys.filter fun e => (xs.lookup e.1).isNone

/-- Two values under a connective. -/
def combine (k : Connective) (v w : Value) : Except Fault Value :=
  match v, w with
  | bool a, bool b => .ok (bool (k.ofBools a b))
  | set xs, set ys | set xs, frozenSet ys => .ok (set (combineElements k xs ys))
  | frozenSet xs, set ys | frozenSet xs, frozenSet ys =>
    .ok (frozenSet (combineElements k xs ys))
  | map xs, map ys => if k = .or then .ok (map (joinEntries xs ys)) else .error .unsupported
  | v, w =>
    match v.asInteger?, w.asInteger? with
    | some m, some n => .ok (int (k.ofIntegers m n))
    | _, _ => .error .unsupported

end Value
end RecordQuery
