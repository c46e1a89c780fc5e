import RecordQuery.Calendar.Time
import RecordQuery.Number.Decimal
import RecordQuery.Number.Uuid

/-!
# Values

The values that records hold and that conditions are compared with. Records come from schemas of
different kinds, so values are dynamic: their kind is known only when a record is read.

* `Value` is the type;
* `Fault` is the kind of a failure that has no text of its own;
* `Value.items?` lists what a value consists of, if it can be gone through.
-/

namespace RecordQuery

/-- What the members of an enumeration are besides being members: nothing, integers or texts. -/
inductive EnumBase where
  | plain
  | integer
  | text
  deriving DecidableEq, Repr

/-- The kinds of record types: validated models, data classes, plain classes, and classes mapped
to a table. -/
inductive RecordKind where
  | model
  | data
  | plain
  | mapped
  deriving DecidableEq, Repr

/-- The kinds of failures that have no text of their own. -/
inductive Fault where
  /-- A name stands for nothing. -/
  | unknownName
  /-- A value has no such member. -/
  | missingMember
  /-- A mapping has no such key. -/
  | missingKey
  /-- Values of these kinds do not support the operation. -/
  | unsupported
  /-- A decimal value that is no number takes part in a comparison. -/
  | invalidOperation
  /-- A name or a number lies outside the values that are allowed. -/
  | invalidValue
  /-- A number lies outside the range of its type. -/
  | overflow
  /-- A clause tests a column in a way that there is not, such as an order against null. -/
  | invalidClause
  /-- A clause asks for something that has no expression. -/
  | notImplemented
  /-- A value has no literal form in the text of a clause. -/
  | noLiteral
  /-- A computed property is computed from itself. -/
  | tooDeep
  /-- No value can be checked against a type. -/
  | uncheckable
  /-- A text is no expression. -/
  | noExpression
  /-- An index lies outside a sequence. -/
  | outOfRange
  /-- A number is divided by zero. -/
  | zeroDivisor
  deriving DecidableEq, Repr

/-- What a record says about its type: the declared fields, which are compared and shown, and the
member by which instances are ordered, if they are. -/
structure RecordTag where
  kind : RecordKind
  owner : String
  fields : List String
  rank : Option String
  deriving DecidableEq, Repr

/-- A dynamic value. -/
inductive Value where
  | null
  | bool (b : Bool)
  | int (n : Int)
  | float (x : Binary64)
  | decimal (d : Decimal)
  | text (s : String)
  | bytes (bs : List UInt8)
  | dateTime (m : DateTime)
  | date (d : Date)
  | time (t : Time)
  | duration (d : Duration)
  | uuid (u : Uuid)
  /-- A value of a type from elsewhere: the module and the name of its type, the way it is shown, and
  the content that it is compared by, of which the shown form need not tell anything. -/
  | foreign (home name shown content : String)
  /-- A member of an enumeration, with its name and value. -/
  | member (base : EnumBase) (owner name : String) (value : Value)
  | list (items : List Value)
  | tuple (items : List Value)
  | set (items : List Value)
  | frozenSet (items : List Value)
  | map (entries : List (String × Value))
  /-- An instance of a record type. Its members are those that are stored in it; a data class also
  lists its declared fields, first and in order, and a field without a value is missing. -/
  | record (tag : RecordTag) (members : List (String × Option Value))
  deriving Inhabited

/-- Names that begin with an underscore are not visible. -/
def isHidden (name : String) : Bool := "_".toList.isPrefixOf name.toList

namespace Value

/-- Whether the value is the absent one. -/
def isNull : Value → Bool
  | null => true
  | _ => false

/-- The integer or text that a member of an enumeration also is; any other value is itself. -/
def unwrapped : Value → Value
  | member .integer _ _ v => v
  | member .text _ _ v => v
  | v => v

/-- The text that a value is. -/
def asText? (v : Value) : Option String :=
  match v.unwrapped with
  | text s => some s
  | _ => none

/-- The number that a value is. -/
def asNumber? : Value → Option Decimal
  | bool b => some (.ofInt (if b then 1 else 0))
  | int n => some (.ofInt n)
  | float x => some (.ofBinary64 x)
  | decimal d => some d
  | _ => none

/-- Whether the value is a decimal number. -/
def isDecimal : Value → Bool
  | decimal _ => true
  | _ => false

/-- Whether the value counts as nothing: null, false, zero or something empty. -/
def isVoid (v : Value) : Bool :=
  match v.unwrapped with
  | null => true
  | bool b => !b
  | int n => n == 0
  | float x => x.ratio?.any fun r => r.1 == 0
  | text s => s.isEmpty
  | bytes bs => bs.isEmpty
  | list xs | tuple xs | set xs | frozenSet xs => xs.isEmpty
  | map entries => entries.isEmpty
  | _ => false

/-- The members of a record that have a value. -/
def present (members : List (String × Option Value)) : List (String × Value) :=
  members.filterMap fun m => m.2.map fun v => (m.1, v)

/-- The parts of a value that can be gone through: elements, characters, bytes or keys, and for a
validated model pairs of member name and value. -/
def items? (v : Value) : Option (List Value) :=
  match v.unwrapped with
  | list xs | tuple xs | set xs | frozenSet xs => some xs
  | text s => some (s.toList.map fun c => text (String.ofList [c]))
  | bytes bs => some (bs.map fun b => int b.toNat)
  | map entries => some (entries.map fun e => text e.1)
  | record ⟨.model, _, _, _⟩ members =>
    some (((present members).filter fun m => !isHidden m.1).map fun m => tuple [text m.1, m.2])
  | _ => none

/-- The name of the value's type. -/
def typeName : Value → String
  | null => "NoneType"
  | bool _ => "bool"
  | int _ => "int"
  | float _ => "float"
  | decimal _ => "Decimal"
  | text _ => "str"
  | bytes _ => "bytes"
  | dateTime _ => "datetime"
  | date _ => "date"
  | time _ => "time"
  | duration _ => "timedelta"
  | uuid _ => "UUID"
  | foreign _ name _ _ => name
  | member _ owner _ _ => owner
  | list _ => "list"
  | tuple _ => "tuple"
  | set _ => "set"
  | frozenSet _ => "frozenset"
  | map _ => "dict"
  | record tag _ => tag.owner

end Value
end RecordQuery
