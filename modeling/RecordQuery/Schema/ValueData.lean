import RecordQuery.Calendar.Iso
import RecordQuery.Schema.Instance
import RecordQuery.Value.Placement

/-!
# Values as data

A value in the form of data: null, truth values, integers and texts stand for themselves, other
values are lists of a word and their parts, and a mapping names the record type that it is of.

* `Schema.valueOfData` is the value that some data describes.
-/

namespace RecordQuery

/-- The value of a kind that a text describes; a text that describes none stands for null. -/
def Value.ofWritten (kind : String) (cs : List Char) : Value :=
  match kind with
  | "int" => (Numeral.readInteger? cs).elim .null .int
  | "float" => (Binary64.read? cs).elim .null .float
  | "decimal" => (Decimal.read? cs).elim .null .decimal
  | "datetime" => (DateTime.read? cs).elim .null .dateTime
  | "date" => (Date.read? cs).elim .null .date
  | "time" => (Time.read? cs).elim .null .time
  | "uuid" => (Uuid.read? cs).elim .null .uuid
  | "bytes" => .bytes ((Numeral.readBytes? cs).getD [])
  | _ => .null

/-- The collection of a kind with some elements. -/
def Value.collection (kind : String) (elements : List Value) : Value :=
  match kind with
  | "list" => .list elements
  | "tuple" => .tuple elements
  | "set" => .set (Value.arranged elements)
  | _ => .frozenSet (Value.arranged elements)

namespace Schema

/-- The key of the name of a record type among its members. -/
def typeKey : String := "$"

/-- The record of the type that some data names, with members; a type without a definition makes a
mapping. -/
def recordOfData (s : Schema) (owner : Option Value) (members : List (String × Value)) : Value :=
  match (owner.bind Value.asText?).bind s.record? with
  | some r => s.makeRecord r members
  | none => .map members

mutual

/-- The value that some data describes. -/
def valueOfData (s : Schema) : Value → Value
  | .list [.text "enum", .text owner, .text name] =>
    ((s.enum? owner).bind fun e => e.member? name).getD .null
  | .list [.text "timedelta", .int days, .int seconds, .int micros] =>
    (Duration.make? days seconds micros).elim .null .duration
  | .list [.text kind, .text written] => Value.ofWritten kind written.toList
  | .list [.text _, .int n] => .int n
  | .list [.text kind, .list parts] => Value.collection kind (valuesOfData s parts)
  | .map entries => recordOfData s (entries.lookup typeKey) (membersOfData s entries)
  | v => v
termination_by structural v => v

/-- The values that several pieces of data describe. -/
def valuesOfData (s : Schema) : List Value → List Value
  | [] => []
  | v :: vs => valueOfData s v :: valuesOfData s vs
termination_by structural vs => vs

/-- The members that the entries of a mapping describe. -/
def membersOfData (s : Schema) : List (String × Value) → List (String × Value)
  | [] => []
  | (k, v) :: rest =>
    if k = typeKey then membersOfData s rest else (k, valueOfData s v) :: membersOfData s rest
termination_by structural entries => entries

end

end Schema
end RecordQuery
