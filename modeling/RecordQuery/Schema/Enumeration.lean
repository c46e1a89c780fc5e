import RecordQuery.Schema.Definition
import RecordQuery.Value.Text
import RecordQuery.Text.Blank

/-!
# Declaring enumerations

An enumeration whose members are integers or texts converts the values that are declared for them.
Not every name can be that of a member.

* `EnumType.declare` is the enumeration of some names and values.
-/

namespace RecordQuery

open Text

/-- The integer that a declared value stands for. -/
def Value.toInteger : Value → Except Fault Int
  | bool b => .ok (if b then 1 else 0)
  | int n => .ok n
  | text s =>
    match Numeral.readInteger? (trim s.toList) with
    | some n => .ok n
    | none => .error .invalidValue
  | float (.infinite _) => .error .overflow
  | float x =>
    match x.ratio? with
    | some (n, d) => .ok (n.tdiv d)
    | none => .error .invalidValue
  | _ => .error .unsupported

/-- The value of a member as its enumeration keeps it. -/
def EnumBase.convert : EnumBase → Value → Except Fault Value
  | plain, v => .ok v
  | integer, v => v.toInteger.map .int
  | text, v => v.plainShown.map .text

namespace EnumType

/-- Whether a name has a number of underscores on both sides of something else that neither begins
nor ends with one. -/
def isFramed (count : Nat) (name : String) : Bool :=
  let frame := List.replicate count '_'
  let inner := (name.toList.drop count).take (name.length - 2 * count)
  2 * count < name.length && frame.isPrefixOf name.toList && frame.isSuffixOf name.toList &&
    inner.head? != some '_' && inner.getLast? != some '_'

/-- Names between single underscores that say something about the enumeration. -/
def reservedNames : List String :=
  ["_generate_next_value_", "_ignore_", "_iter_member_", "_missing_", "_numeric_repr_", "_order_"]

/-- The names that no member can have. -/
def refusedNames : List String := ["mro", ""]

/-- Whether a name is private to an enumeration: it begins with the enumeration's name between one
and two underscores, and does not end with two. -/
def isPrivate (owner name : String) : Bool :=
  let mark := "_" ++ owner ++ "__"
  mark.isPrefixOf name && mark.length < name.length && !"__".toList.isSuffixOf name.toList

/-- Whether a declared name is that of a member. -/
def isMemberName (owner name : String) : Bool :=
  !isPrivate owner name && !isFramed 2 name && !reservedNames.contains name

/-- Checks names, the last one first in the list: one between single underscores is refused, and so
is a repeated one. -/
def checkNames (owner : String) : List String → Except Fault Unit
  | [] => .ok ()
  | name :: earlier => do
    checkNames owner earlier
    if !isMemberName owner name then .ok ()
    else if isFramed 1 name then .error .invalidValue
    else if earlier.contains name then .error .unsupported
    else .ok ()

/-- The enumeration of some names and values. -/
def declare (base : EnumBase) (name : String) (members : List (String × Value)) :
    Except Fault EnumType := do
  let names := members.map Prod.fst
  checkNames name names.reverse
  if refusedNames.any names.contains then .error .invalidValue
  else
    let kept ← (members.filter fun m => isMemberName name m.1).mapM fun m =>
      (base.convert m.2).map fun v => (m.1, v)
    match make? name base kept with
    | some e => .ok e
    | none => .error .unsupported

end EnumType
end RecordQuery
