import RecordQuery.Schema.Member
import RecordQuery.Value.Attribute

/-!
# Instances

Records of a type, made from the values of some members. What a record shows and how it is compared
depends on its type, so it keeps the names of the declared fields.

* `Schema.initialValue?` is the value of a member that an instance does not store;
* `Schema.makeRecord` is the record of a type with some stored members.
-/

namespace RecordQuery

namespace Schema

/-- The value of a member that an instance does not store, where its type gives one. -/
def initialValue? (s : Schema) (owner name : String) : Option Value :=
  match s.classValue? owner name, s.table? owner with
  | some v, _ => some v
  | none, none => none
  | none, some t =>
    match t.column? name, t.relation? name with
    | some _, _ => some .null
    | none, some ⟨_, _, .toOne _⟩ => some .null
    | none, some ⟨_, _, .toMany⟩ => some (.list [])
    | none, none => none

/-- The member by which instances of a type are ordered: the first field of the nearest type in its
lineage that has an order. -/
def rank? (s : Schema) (owner : String) : Option String :=
  match (s.lineage owner).find? fun r => r.layout.ordered with
  | some r => r.layout.fields.head?.map Field.name
  | none => none

/-- The record of a type with some stored members. A data class lists its declared fields first,
with their initial values where none is stored. -/
def makeRecord (s : Schema) (r : RecordType) (members : List (String × Value)) : Value :=
  let fields := (s.fieldsOf r.name).map Field.name
  let stored := members.map fun m => (m.1, some m.2)
  let declared := fields.map fun f =>
    (f, (members.lookup f).orElse fun _ => s.initialValue? r.name f)
  let all := match r.layout.kind with
    | .data => declared ++ stored.filter fun m => !fields.contains m.1
    | _ => stored
  .record ⟨r.layout.kind, r.name, fields, s.rank? r.name⟩ all

end Schema
end RecordQuery
