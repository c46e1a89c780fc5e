import RecordQuery.Schema.Annotation
import RecordQuery.Schema.Lineage
import RecordQuery.Text.Casing

/-!
# Members

What a record type declares, in one form for all kinds of record types: its fields or columns with
those of its bases, its relations, and its computed properties.

* `Member` is a member with its type, `Schema.membersOf` lists those of a record type;
* `Schema.members?` also tells which types are records;
* `Schema.isOrderable` tells which types have an order, and `Value.defaultOf` is the value that
  stands in for one that cannot be reached.
-/

namespace RecordQuery

/-- A member of a record type. -/
structure Member where
  name : String
  type : TypeExpr
  nullable : Bool
  alternates : List String
  relationship : Bool
  deriving DecidableEq

namespace Member

/-- A member of a declared type. -/
def of (name : String) (type : TypeExpr) (alternates : List String) : Member :=
  let (present, nullable) := type.present
  ⟨name, present, nullable, alternates, false⟩

/-- The member that a column stores. -/
def ofColumn (c : Column) : Member :=
  ⟨c.member, c.type.valueType, c.nullable,
    if c.label = c.member || c.label = "" then [] else [c.label], false⟩

/-- The member of a relation: a row that may be missing, or a list of rows. -/
def ofRelation (r : Relation) : Member :=
  match r.link with
  | .toOne _ => ⟨r.member, .named r.target, true, [], true⟩
  | .toMany => ⟨r.member, .applied .list [.named r.target], false, [], true⟩

end Member

namespace Schema

/-- Whether declarations stay as they are written where one of them fails in this way: a name
stands for nothing, or types do not go together. -/
def staysWritten (f : Fault) : Bool := f == .unknownName || f == .unsupported

/-- The fields with their types looked up and without annotations in them. -/
def evaluated (s : Schema) (fields : List Field) : Except Fault (List Field) :=
  fields.mapM fun f => (f.type.evaluate s false).map fun t => { f with type := t }

/-- The fields of a record type as the nearest of its ancestors declare them, with their types
looked up. If one of all declarations names nothing known, all stay as they are written. -/
def hintedFields (s : Schema) (name : String) : Except Fault (List Field) :=
  match s.evaluated (s.declarations name) with
  | .ok fields => .ok (mergeFields fields)
  | .error f => if staysWritten f then .ok (s.mergedFields name) else .error f

/-- The fields of a data class, with the types that are looked up for their names. -/
def hintedDataFields (s : Schema) (name : String) : Except Fault (List Field) := do
  let hints ← s.hintedFields name
  .ok ((s.fieldsOf name).map fun f =>
    match hints.find? fun h => h.name == f.name with
    | some h => { f with type := h.type }
    | none => f)

/-- A declared type with what it names, or as it is written if it names nothing known. -/
def evaluatedOrWritten (s : Schema) (annotations : Bool) (t : TypeExpr) : Except Fault TypeExpr :=
  match t.evaluate s annotations with
  | .ok u => .ok u
  | .error f => if staysWritten f then .ok t else .error f

/-- The members that are fields or columns. -/
def storedMembers (s : Schema) (r : RecordType) : Except Fault (List Member) :=
  match r.layout with
  | .model _ => .ok ((s.fieldsOf r.name).map fun f => Member.of f.name f.type f.alternates)
  | .data _ => (s.hintedDataFields r.name).map fun fields =>
    fields.map fun f => Member.of f.name f.type f.alternates
  | .plain _ _ => (s.hintedFields r.name).map fun fields =>
    (fields.filter fun f => !isHidden f.name && !f.shared).map fun f => Member.of f.name f.type []
  | .mapped t => .ok (t.columns.map Member.ofColumn ++ t.relations.map Member.ofRelation)

/-- The properties, each name at its first place. -/
def distinctProperties : List Property → List Property
  | [] => []
  | p :: ps => p :: (distinctProperties ps).filter fun q => q.name ≠ p.name

/-- The computed properties of a record type, its own before those of its bases, which they hide. -/
def propertiesOf (s : Schema) (name : String) : List Property :=
  distinctProperties ((s.lineage name).flatMap RecordType.properties)

/-- The members that are computed: visible properties that can be read. -/
def computedMembers (s : Schema) (name : String) : Except Fault (List Member) :=
  ((s.propertiesOf name).filter fun p => !isHidden p.name && p.rule != .unreadable).mapM fun p =>
    (s.evaluatedOrWritten false (p.type.getD .anything)).map fun t => Member.of p.name t []

/-- The members of a record type; a field hides a property of its name. -/
def membersOf (s : Schema) (r : RecordType) : Except Fault (List Member) := do
  let stored ← s.storedMembers r
  let computed ← s.computedMembers r.name
  .ok (stored ++ computed.filter fun m => !stored.any fun n => n.name == m.name)

/-- The members of a type, if its values are records. The type that says nothing is a record
without members. -/
def members? (s : Schema) : TypeExpr → Except Fault (Option (List Member))
  | .named name =>
    match s.record? name with
    | some r => (s.membersOf r).map some
    | none => .ok none
  | .anything => .ok (some [])
  | _ => .ok none

/-- Whether values of the type have an order. -/
def isOrderable (s : Schema) : TypeExpr → Bool
  | .anything | .object => true
  | .bare shape => shape.isOrdered
  | .scalar t => t != .boolean && t != .uuid
  | .named name =>
    match s.enum? name with
    | some e => e.base != .plain
    | none => (s.lineage name).any fun r => r.layout.ordered
  | _ => false

end Schema

/-- The value that stands for a member that cannot be reached: null where null is allowed, and zero
for numbers and truth values. -/
def Value.defaultOf (type : TypeExpr) (nullable : Bool) : Value :=
  if nullable then .null
  else
    match type with
    | .scalar .integer => .int 0
    | .scalar .float => .float (Binary64.zero false)
    | .scalar .decimal => .decimal (Decimal.ofInt 0)
    | .scalar .boolean => .bool false
    | _ => .null

end RecordQuery
