import RecordQuery.Operator
import RecordQuery.Schema.Read
import RecordQuery.Text.Split
import RecordQuery.Value.Compare
import RecordQuery.Value.Text

/-!
# Tests of values

What the operators mean for the values of a record in memory.

* `Strategy` is a meaning of an operator: the usual one, or any test in its place;
* `Strategy.holds` tests the value of a record against the value of a condition.

A moment without offset is compared with one that has an offset as if it were at offset zero.
Nothing is ordered before or after null, and null contains nothing.
-/

namespace RecordQuery

open Text

namespace Value

/-- Two values to be compared: of two moments, one without offset is read at offset zero if the
other has one. Offsets are fixed, so that the two can be compared after that. -/
def align : Value → Value → Value × Value
  | dateTime m, dateTime n =>
    match m.offset, n.offset with
    | none, some _ => (dateTime m.assumeUniversal, dateTime n)
    | some _, none => (dateTime m, dateTime n.assumeUniversal)
    | _, _ => (dateTime m, dateTime n)
  | v, w => (v, w)

/-- Equality of aligned values. -/
def equals (v w : Value) : Except Fault Bool :=
  let (v, w) := align v w
  eq v w

/-- Whether the order of two aligned values satisfies a test. -/
def ordersAligned (t : OrderTest) (v w : Value) : Except Fault Bool :=
  if v.isNull || w.isNull then .ok false
  else
    let (v, w) := align v w
    orders t v w

/-- Whether a value can be looked for in a set; a set itself can be, as the set of its elements. -/
def isHashable : Value → Bool
  | set _ => true
  | v => v.isFixed

/-- Whether a byte, given as a number, occurs in a sequence of bytes. -/
def byteIn (bs : List UInt8) (n : Int) : Except Fault Bool :=
  if 0 ≤ n ∧ n < 256 then .ok (bs.any fun b => b.toNat == n.toNat) else .error .invalidValue

/-- Whether a number or a sequence of bytes occurs in a sequence of bytes. -/
def inBytes (bs : List UInt8) : Value → Except Fault Bool
  | bytes part =>
    .ok (occursIn (part.map fun b => Char.ofNat b.toNat) (bs.map fun b => Char.ofNat b.toNat))
  | int n => byteIn bs n
  | bool b => byteIn bs (if b then 1 else 0)
  | _ => .error .unsupported

/-- Whether a value contains another: a text a part of it, a collection an element, and a mapping
or a single value only what it equals. A list of values contains the ones that equal an element. -/
def contains (actual expected : Value) : Except Fault Bool :=
  match actual, expected with
  | null, _ => .ok false
  -- the condition has a list where the column is a single value
  | _, list xs => isIn actual xs
  | bytes bs, _ => inBytes bs expected.unwrapped
  | map _, _ => eq actual expected
  | set xs, _ | frozenSet xs, _ =>
    -- a set is searched by hash, so the value has to have one
    if expected.isHashable then isIn expected xs else .error .unsupported
  | _, _ =>
    match actual.asText?, actual.items? with
    | some s, _ => expected.plainShown.map fun part => occursIn part.toList s.toList
    | none, some xs => isIn expected xs
    | none, none => eq actual expected

/-- A comparison of the plain forms of two values, the form of the first of which is made first. -/
def compareTexts (v w : Value) (test : List Char → List Char → Bool) : Except Fault Bool := do
  let text ← v.plainShown
  let other ← w.plainShown
  .ok (test text.toList other.toList)

/-- A comparison of the plain forms of two values, to which null on the left never answers. -/
def compareForms (v w : Value) (test : List Char → List Char → Bool) : Except Fault Bool :=
  if v.isNull then .ok false else v.compareTexts w test

end Value

/-- A meaning of an operator: the usual one, or any test of the value of a record against the value
of a condition. -/
inductive Strategy where
  | usual (operator : Operator)
  | replaced (test : Value → Value → Except Fault Bool)

namespace Strategy

/-- The usual meaning of an operator. -/
def usualHolds (operator : Operator) (actual expected : Value) : Except Fault Bool :=
  match operator with
  | .eq => actual.equals expected
  | .neq => (actual.equals expected).map not
  | .gt => actual.ordersAligned .gt expected
  | .gte => actual.ordersAligned .ge expected
  | .lt => actual.ordersAligned .lt expected
  | .lte => actual.ordersAligned .le expected
  | .isIn =>
    -- a blank text gives null here, and null has no elements
    if expected.isNull then .ok false
    else
      match expected.items? with
      | some xs => Value.anyOk actual.equals xs
      | none => .error .unsupported
  | .ct => actual.contains expected
  | .nct => (actual.contains expected).map not
  | .sw => actual.compareForms expected fun text part => part.isPrefixOf text
  | .ew => actual.compareForms expected fun text part => part.isSuffixOf text

/-- Tests the value of a record against the value of a condition. -/
def holds : Strategy → Value → Value → Except Fault Bool
  | usual operator, actual, expected => usualHolds operator actual expected
  | replaced test, actual, expected => test actual expected

/-- Equality of texts without regard to letter case. -/
def caselessEqual : Strategy :=
  replaced fun actual expected =>
    actual.compareTexts expected fun text other => lower text == lower other

/-- Whether the condition gives exactly two values. -/
def givesTwo : Strategy :=
  replaced fun _ expected =>
    match expected.length? with
    | some n => .ok (n == 2)
    | none => .error .unsupported

end Strategy
end RecordQuery
