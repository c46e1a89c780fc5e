import RecordQuery.Text.Order
import RecordQuery.Value.Attribute

/-!
# Equality and order of values

Values of different kinds can be equal: truth values, integers, floating point and decimal numbers
are compared as numbers, and a member of an integer or text enumeration as its value. Order is
partial and exists only between values of compatible kinds.

* `Value.eq` is equality; a signalling decimal makes it fail, and so does a data class record of
  which a declared field is missing;
* `Value.orders` tests the order of two values, with a fault between values that cannot be compared.
-/

namespace RecordQuery

/-- The tests of an order. -/
inductive OrderTest where
  | lt
  | le
  | gt
  | ge
  deriving DecidableEq, Repr

/-- Whether an order satisfies a test. -/
def OrderTest.holds : OrderTest → Ordering → Bool
  | lt, o => o == .lt
  | le, o => o != .gt
  | gt, o => o == .gt
  | ge, o => o != .lt

namespace Value

/-! ### Equality -/

/-- Equality of values that are not made of other values. -/
def eqScalar : Value → Value → Except Fault Bool
  | null, null => .ok true
  | int a, int b => .ok (a == b)
  | bool a, bool b => .ok (a == b)
  | text a, text b => .ok (a == b)
  | bytes a, bytes b => .ok (a == b)
  | dateTime a, dateTime b => .ok (a.compare? b == some .eq)
  | date a, date b => .ok (a == b)
  | time a, time b => .ok (a.compare? b == some .eq)
  | duration a, duration b => .ok (a == b)
  | uuid a, uuid b => .ok (a == b)
  | foreign home name _ content, foreign home' name' _ content' =>
    .ok (home == home' && name == name' && content == content')
  | member _ owner name _, member _ owner' name' _ => .ok (owner == owner' && name == name')
  -- numbers of different kinds are compared by their exact values
  | a, b =>
    match a.asNumber?, b.asNumber? with
    | some x, some y =>
      if x.isSignaling || y.isSignaling then .error .invalidOperation
      else .ok (x.compare? y == some .eq)
    | _, _ => .ok false

/-- Whether some element of a list satisfies a test that may fail, tried in order. -/
def anyOk (test : Value → Except Fault Bool) : List Value → Except Fault Bool
  | [] => .ok false
  | v :: vs => do if ← test v then .ok true else anyOk test vs

/-- The members of a record that are declared fields. -/
def declared (tag : RecordTag) (members : List (String × Option Value)) :
    List (String × Option Value) :=
  members.filter fun m => tag.fields.contains m.1

/-- Whether every declared field of a record has a value. -/
def isFull (tag : RecordTag) (members : List (String × Option Value)) : Bool :=
  (declared tag members).all fun m => m.2.isSome

mutual

/-- Equality of two values. Lists of different lengths differ, whatever their elements are. Records
of data classes and models are equal when they are of one type and their declared fields are; the
fields of a data class all have to be there. -/
def eq : Value → Value → Except Fault Bool
  | list xs, list ys => if xs.length = ys.length then eqAll xs ys else .ok false
  | tuple xs, tuple ys => eqAll xs ys
  | set xs, set ys | set xs, frozenSet ys | frozenSet xs, set ys | frozenSet xs, frozenSet ys =>
    if xs.length = ys.length then within xs ys else .ok false
  | map xs, map ys => if xs.length = ys.length then entriesWithin xs ys else .ok false
  | record tag xs, record other ys =>
    if tag.owner ≠ other.owner then .ok false
    else
      match tag.kind with
      | .data =>
        if isFull tag xs && isFull other ys then fieldsWithin tag.fields xs ys
        else .error .missingMember
      | .model =>
        if (declared tag xs).length = (declared other ys).length then fieldsWithin tag.fields xs ys
        else .ok false
      | .plain | .mapped => .ok false
  | a, b => eqScalar a.unwrapped b.unwrapped
termination_by structural x => x

/-- Equality of two sequences, element by element. -/
def eqAll : List Value → List Value → Except Fault Bool
  | [], [] => .ok true
  | x :: xs, y :: ys => do if ← eq x y then eqAll xs ys else .ok false
  | _, _ => .ok false
termination_by structural x => x

/-- Whether every value of the first list equals one of the second. -/
def within : List Value → List Value → Except Fault Bool
  | [], _ => .ok true
  | x :: xs, ys => do if ← anyOk (eq x) ys then within xs ys else .ok false
termination_by structural x => x

/-- Whether the second list has an equal value under every key of the first. -/
def entriesWithin : List (String × Value) → List (String × Value) → Except Fault Bool
  | [], _ => .ok true
  | (k, x) :: xs, ys =>
    match ys.lookup k with
    | some y => do if ← eq x y then entriesWithin xs ys else .ok false
    | none => .ok false
termination_by structural x => x

/-- Whether the second list has an equal value for every member of the first that is one of some
fields. -/
def fieldsWithin (fields : List String) :
    List (String × Option Value) → List (String × Option Value) → Except Fault Bool
  | [], _ => .ok true
  | (_, none) :: xs, ys => fieldsWithin fields xs ys
  | (k, some x) :: xs, ys =>
    if fields.contains k then
      match ys.lookup k with
      | some (some y) => do if ← eq x y then fieldsWithin fields xs ys else .ok false
      | _ => .ok false
    else fieldsWithin fields xs ys
termination_by structural x => x

end

/-- Whether a value equals an element of a list. -/
def isIn (v : Value) (vs : List Value) : Except Fault Bool := anyOk (eq v) vs

/-- Whether a value is of a kind that can change. -/
def changes : Value → Bool
  | list _ | set _ | map _ => true
  | record tag _ => tag.kind == .model || tag.kind == .data
  | _ => false

mutual

/-- Whether a value can be an element of a set: it cannot change, nor can anything in it. -/
def isFixed : Value → Bool
  | decimal d => !d.isSignaling
  | tuple xs => allFixed xs
  | v => !v.changes
termination_by structural x => x

/-- Whether all values of a list can be elements of a set. -/
def allFixed : List Value → Bool
  | [] => true
  | x :: xs => isFixed x && allFixed xs
termination_by structural x => x

end

/-- The values as the elements of a set: of equal values the first one stays. Values that cannot be
compared count as different. -/
def distinct (vs : List Value) : List Value :=
  vs.foldl (fun kept v => if (isIn v kept).toOption == some true then kept else kept ++ [v]) []

/-! ### Order -/

/-- The test of an order that exists, or the fault of values that have none. -/
def ordered (t : OrderTest) (o : Option Ordering) : Except Fault Bool :=
  match o with
  | some o => .ok (t.holds o)
  | none => .error .unsupported

/-- The order of values that are not made of other values. A floating point value that is no number
satisfies no test. -/
def ordersScalar (t : OrderTest) : Value → Value → Except Fault Bool
  | int a, int b => .ok (t.holds (Ord.compare a b))
  | text a, text b => .ok (t.holds (Text.compare a b))
  | bytes a, bytes b =>
    .ok (t.holds (Text.compareNats (a.map UInt8.toNat) (b.map UInt8.toNat)))
  | dateTime a, dateTime b => ordered t (a.compare? b)
  | date a, date b => .ok (t.holds (Ord.compare a.ordinal b.ordinal))
  | time a, time b => ordered t (a.compare? b)
  | duration a, duration b => .ok (t.holds (Ord.compare a.micros b.micros))
  | uuid a, uuid b => .ok (t.holds (Ord.compare a.bits.toNat b.bits.toNat))
  | a, b =>
    match a.asNumber?, b.asNumber? with
    | some x, some y =>
      match x.compare? y with
      | some o => .ok (t.holds o)
      -- no number on one side: decimals refuse the test, floating point numbers fail it
      | none => if a.isDecimal || b.isDecimal then .error .invalidOperation else .ok false
    | _, _ => .error .unsupported

/-- The order of two sets by inclusion. -/
def ordersSets (t : OrderTest) (xs ys : List Value) : Except Fault Bool := do
  let below ← within xs ys
  let above ← within ys xs
  return match below, above with
    | true, true => t.holds .eq
    | true, false => t.holds .lt
    | false, true => t.holds .gt
    | false, false => false

/-- The member by which records of the value's type are ordered. -/
def rank? : Value → Option String
  | record tag _ => tag.rank
  | _ => none

/-- The value that is read by name: a member of a record, or an attribute of any other value. -/
def part? (v : Value) (name : String) : Option Value :=
  match v with
  | record _ members => (members.lookup name).bind id
  | v => v.attribute? name

/-- The member that decides a test: the type of the lesser value orders records, and only by strict
tests. -/
def decider? (t : OrderTest) (v w : Value) : Option String :=
  match t with
  | .lt => v.rank?
  | .gt => w.rank?
  | .le | .ge => none

mutual

/-- Whether the order of two values satisfies a test, if they are comparable. -/
def orders (t : OrderTest) : Value → Value → Except Fault Bool
  | list xs, list ys => ordersAll t xs ys
  | tuple xs, tuple ys => ordersAll t xs ys
  | set xs, set ys | set xs, frozenSet ys | frozenSet xs, set ys | frozenSet xs, frozenSet ys =>
    ordersSets t xs ys
  -- records are ordered by the one member that their type names for this, if it names one
  | record tag xs, w =>
    match decider? t (record tag xs) w with
    | none => .error .unsupported
    | some key =>
      match w.part? key with
      | some y => ordersMember t key y xs
      | none => .error .missingMember
  | v, w =>
    match decider? t v w with
    | none => ordersScalar t v.unwrapped w.unwrapped
    | some key =>
      match v.part? key, w.part? key with
      | some x, some y => ordersScalar t x.unwrapped y.unwrapped
      | _, _ => .error .missingMember
termination_by structural x => x

/-- The order of two sequences: by the first two elements that are not equal, else by length. -/
def ordersAll (t : OrderTest) : List Value → List Value → Except Fault Bool
  | [], [] => .ok (t.holds .eq)
  | [], _ :: _ => .ok (t.holds .lt)
  | _ :: _, [] => .ok (t.holds .gt)
  | x :: xs, y :: ys => do if ← eq x y then ordersAll t xs ys else orders t x y
termination_by structural x => x

/-- The order of the member of a name among some members and a value. -/
def ordersMember (t : OrderTest) (key : String) (y : Value) :
    List (String × Option Value) → Except Fault Bool
  | [] => .error .missingMember
  | (_, none) :: xs => ordersMember t key y xs
  | (k, some x) :: xs => if k = key then orders t x y else ordersMember t key y xs
termination_by structural xs => xs

end

end Value
end RecordQuery
