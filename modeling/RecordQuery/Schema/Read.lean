import RecordQuery.Schema.Instance
import RecordQuery.Schema.Resolve
import RecordQuery.Value.Function

/-!
# Reading members

The values that members have in a record. A mapping is read by its keys. In a record of a type, a
computed property hides what is stored under its name, and a member that is not stored has the
value that its declaration gives; in a mapped record it is null, or an empty list of rows. Any other
value is read by its attributes.

* `Schema.readMember` reads one member, `Schema.read` follows a resolved column.

Reading a member of null fails, unless the reader guards against it: then the column has the value
`Value.defaultOf` its type.
-/

namespace RecordQuery

open Text

/-- The number of items in a value that has a length. -/
def Value.length? (v : Value) : Option Nat :=
  match v with
  | .record _ _ => none
  | v => v.items?.map List.length

/-- The text of a value in upper case, if it is a text. -/
def Value.upper? : Value → Option Value
  | .bytes bs => some (.bytes (bs.map fun b => if 0x61 ≤ b && b ≤ 0x7A then b - 0x20 else b))
  | v => v.asText?.map fun s => .text (String.ofList (Text.upper s.toList))

/-- What a property makes of the value of its source. -/
def PropertyRule.apply : PropertyRule → Value → Except Fault Value
  | .get, v => .ok v
  | .upper, v =>
    match v.upper? with
    | some u => .ok u
    | none => .error .missingMember
  | .length, v =>
    match v.length? with
    | some n => .ok (.int n)
    | none => .error .unsupported
  | .unreadable, _ => .error .missingMember

namespace Schema

/-- The value of a stored member. -/
def readStored (s : Schema) (owner : String) (members : List (String × Option Value))
    (name : String) : Except Fault Value :=
  match (members.lookup name).bind id with
  | some v => .ok v
  | none =>
    match s.initialValue? owner name with
    | some v => .ok v
    | none => .error .missingMember

/-- The value of a member, stored or computed. A property may be computed from another one, at most
so often; one that leads back to itself never ends. -/
def readComputed (s : Schema) (owner : String) (properties : List Property)
    (members : List (String × Option Value)) : Nat → String → Except Fault Value
  | 0, _ => .error .tooDeep
  | depth + 1, name =>
    match properties.find? fun p => p.name == name with
    | none => s.readStored owner members name
    | some ⟨_, _, _, .unreadable⟩ => .error .missingMember
    | some p => do p.rule.apply (← s.readComputed owner properties members depth p.source)

/-- The value of a member of a record type's instance. -/
def readInstance (s : Schema) (owner : String) (members : List (String × Option Value))
    (name : String) : Except Fault Value :=
  let properties := s.propertiesOf owner
  s.readComputed owner properties members (properties.length + 1) name

/-- The value of an attribute: a part of the value or a function that it has. A member of an
enumeration also has the other members of its enumeration as attributes. -/
def readAttribute (s : Schema) (v : Value) (name : String) : Except Fault Value :=
  let sibling := match v with
    | .member _ owner _ _ => (s.enum? owner).bind fun e => e.member? name
    | _ => none
  match (v.attribute? name).or (sibling.or (v.function? name)) with
  | some w => .ok w
  | none => .error .missingMember

/-- The value of a member. -/
def readMember (s : Schema) (v : Value) (name : String) : Except Fault Value :=
  match v with
  | .map entries =>
    match entries.lookup name with
    | some v => .ok v
    | none => .error .missingKey
  | .record tag members => s.readInstance tag.owner members name
  | v => s.readAttribute v name

/-- The value at the end of a chain of members, or a given one where the chain meets null. -/
def readFrom (s : Schema) (onNull : Option Value) : List Hop → Value → Except Fault Value
  | [], v => .ok v
  | hop :: rest, v =>
    match v, onNull with
    | .null, some d => .ok d
    | v, _ => do s.readFrom onNull rest (← s.readMember v hop.name)

/-- The value of a column in a record. -/
def read (s : Schema) (nullGuard : Bool) (c : ResolvedColumn) (v : Value) : Except Fault Value :=
  s.readFrom
    (if nullGuard then some (Value.defaultOf c.type c.terminal.nullable) else none) c.hops v

end Schema
end RecordQuery
