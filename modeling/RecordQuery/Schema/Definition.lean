import RecordQuery.RawText
import RecordQuery.Schema.Table
import RecordQuery.Value.Compare

/-!
# Schemas

A schema holds the enumerations and record types that queries are about. A record type of any kind
may have bases, whose members it inherits, and computed properties.

* `EnumType` and `RecordType` are the definitions, `Schema` a collection of them.
* `Adapter` is what comes with a schema from elsewhere: how a text is read as a type that has no
  conversion of its own.
-/

namespace RecordQuery

/-! ### Enumerations -/

/-- An enumeration with its members as declared, which have different names and any values. A
member whose value is already taken is another name of the first member with this value. -/
structure EnumType where
  name : String
  base : EnumBase
  members : List (String × Value)
  distinct_names : (members.map Prod.fst).Nodup

namespace EnumType

/-- The enumeration of some members, if it can have them. -/
def make? (name : String) (base : EnumBase) (members : List (String × Value)) : Option EnumType :=
  if h : (members.map Prod.fst).Nodup then some ⟨name, base, members, h⟩ else none

/-- Whether two values make the same member. -/
def sameValue (v w : Value) : Bool :=
  match Value.eq v w with
  | .ok b => b
  | .error _ => false

/-- The first name and value among those equal to a value. -/
def canonical? (e : EnumType) (v : Value) : Option (String × Value) :=
  e.members.find? fun m => sameValue m.2 v

/-- The member that a declared value denotes. -/
def memberOf (e : EnumType) (name : String) (v : Value) : Value :=
  -- the first member with an equal value is the member
  match e.canonical? v with
  | some (first, value) => .member e.base e.name first value
  | none => .member e.base e.name name v

/-- The member of a name. -/
def member? (e : EnumType) (name : String) : Option Value :=
  (e.members.find? fun m => m.1 == name).map fun m => e.memberOf m.1 m.2

/-- The members without further names of earlier ones. -/
def distinct (e : EnumType) : List (String × Value) :=
  e.members.filter fun m => ((e.canonical? m.2).map Prod.fst) == some m.1

end EnumType

/-! ### Record types -/

/-- A declared member: its type, the other names it answers to, whether it belongs to the type
itself rather than to its instances, and the value that it has where an instance stores none. -/
structure Field where
  name : String
  type : TypeExpr
  alternates : List String
  shared : Bool
  initial : Option Value

/-- The names given to a member of a model besides its own. A choice of names for reading counts
as a name given for reading, but is itself no name. -/
structure Aliases where
  general : Option String
  reading : Option String
  writing : Option String
  choice : Bool

/-- The other names of a member: the general one stands in for one that is not given, and the
member's own name is left out. -/
def Aliases.names (a : Aliases) (member : String) : List String :=
  let reading := if a.choice then none else a.reading.orElse fun _ => a.general
  let writing := a.writing.orElse fun _ => a.general
  ([a.general, reading, writing].filterMap id).filter fun s => s != member && s != ""

/-- What a computed property does with the member that it reads. -/
inductive PropertyRule where
  | get
  | upper
  | length
  /-- The property cannot be read. -/
  | unreadable
  deriving DecidableEq, Repr

/-- A computed property of a record type. -/
structure Property where
  name : String
  type : Option TypeExpr
  source : String
  rule : PropertyRule

/-- What the members of a record type are declared as. -/
inductive Layout where
  | model (fields : List Field)
  | data (fields : List Field)
  /-- The members of a plain class, and whether its instances can be ordered. -/
  | plain (fields : List Field) (ordered : Bool)
  | mapped (table : Table)

namespace Layout

/-- The kind of the record type. -/
def kind : Layout → RecordKind
  | model _ => .model
  | data _ => .data
  | plain _ _ => .plain
  | mapped _ => .mapped

/-- The declared fields; those of a mapped type are in its table. -/
def fields : Layout → List Field
  | model fs | data fs | plain fs _ => fs
  | mapped _ => []

/-- Whether instances can be ordered. -/
def ordered : Layout → Bool
  | plain _ o => o
  | _ => false

end Layout

/-- A record type. -/
structure RecordType where
  name : String
  bases : List String
  layout : Layout
  properties : List Property

/-- The table of a mapped type. -/
def RecordType.table? (r : RecordType) : Option Table :=
  match r.layout with
  | .mapped t => some t
  | _ => none

/-! ### Types without a conversion of their own -/

/-- Why no value of a type is read from a text. -/
inductive AdapterError where
  /-- Nothing can be checked against the type. -/
  | unsupported
  /-- The text denotes none of its values. -/
  | refused
  /-- The type cannot be looked at, or a reader of its own fails. -/
  | fault (f : Fault)
  deriving DecidableEq, Repr

/-- A way to read texts as values of any type. Queries depend on it where a type has no conversion
of its own; nothing is assumed of it. -/
structure Adapter where
  read : RawText → TypeExpr → Except AdapterError Value

/-- The adapter that supports no type. -/
def Adapter.absent : Adapter := ⟨fun _ _ => .error .unsupported⟩

/-! ### Schemas -/

/-- Enumerations and record types, the latest definitions first, and an adapter for their types. A
record type is defined after its bases. -/
structure Schema where
  enums : List EnumType
  records : List RecordType
  adapter : Adapter

namespace Schema

/-- The schema without definitions. -/
def empty : Schema := ⟨[], [], .absent⟩

/-- The schema with one more enumeration. -/
def addEnum (s : Schema) (e : EnumType) : Schema := { s with enums := e :: s.enums }

/-- The schema with one more record type. -/
def addRecord (s : Schema) (r : RecordType) : Schema := { s with records := r :: s.records }

/-- The enumeration of a name. -/
def enum? (s : Schema) (name : String) : Option EnumType := s.enums.find? fun e => e.name == name

/-- The record type of a name. -/
def record? (s : Schema) (name : String) : Option RecordType :=
  s.records.find? fun r => r.name == name

/-- Whether a name is that of an enumeration or a record type. -/
def defines (s : Schema) (name : String) : Bool := (s.enum? name).isSome || (s.record? name).isSome

/-- The table of a mapped type. -/
def table? (s : Schema) (name : String) : Option Table := (s.record? name).bind RecordType.table?

end Schema
end RecordQuery
