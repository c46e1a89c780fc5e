import RecordQuery.Schema.Checkable
import RecordQuery.Schema.Enumeration
import RecordQuery.Schema.TypeData
import RecordQuery.Schema.ValueData

/-!
# Definitions as data

The definition of an enumeration or a record type in the form of a mapping: its kind and name, and
what its members are declared as.

* `Schema.define` adds the type that some data defines to a schema.

A definition can fail: the bases of a record type have to have an order, a type that puts others
together has to allow them, and the annotations of a model are looked up when it is defined.
-/

namespace RecordQuery

/-- The value that a table gives to a word, or another one. -/
def chosen {α : Type} (table : List (String × α)) (other : α) (word : Value) : α :=
  (table.lookup word.textOrEmpty).getD other

/-! ### Members -/

/-- The texts that data gives under a key. -/
def Value.textUnder? (v : Value) (key : String) : Option String := (v.entry key).asText?

/-- The names given to a member of a model. -/
def Aliases.ofData (options : Value) : Aliases :=
  ⟨options.textUnder? "alias", options.textUnder? "validation_alias",
    options.textUnder? "serialization_alias", options.hasEntry "validation_choices"⟩

/-- The field that some data declares for a record type of a kind. -/
def Field.ofData (s : Schema) (kind : RecordKind) (d : Value) : Except Fault Field := do
  let name := (d.element 0).textOrEmpty
  let type ← TypeExpr.ofData (d.element 1)
  let options := d.element 2
  let alternates := match kind with
    | .model => (Aliases.ofData options).names name
    | _ => (options.textUnder? "column").toList.filter fun a => !a.isEmpty
  let initial := if options.hasEntry "default" then some (s.valueOfData (options.entry "default"))
    else none
  .ok ⟨name, type, alternates, (options.entry "classvar").isSet, initial⟩

/-- What computed properties do with their sources, under the words for it. -/
def PropertyRule.words : List (String × PropertyRule) :=
  [("get", .get), ("upper", .upper), ("len", .length), ("none", .unreadable)]

/-- The computed property that some data declares. -/
def Property.ofData (d : Value) : Except Fault Property := do
  let type ← match d.element 1 with
    | .null => .ok none
    | t => (TypeExpr.ofData t).map some
  .ok ⟨(d.element 0).textOrEmpty, type, (d.element 2).textOrEmpty,
    chosen PropertyRule.words .get (d.element 3)⟩

/-- The column that some data declares. -/
def Column.ofData (d : Value) : Column :=
  let name := (d.element 0).textOrEmpty
  let options := d.element 2
  ⟨name, (options.textUnder? "db").getD name, .ofDeclaration (d.element 1).textOrEmpty,
    (options.entry "nullable").isSet, (options.textUnder? "fk").bind tableIn?⟩

/-- The relation that some data declares. -/
def Relation.ofData (d : Value) : Relation :=
  let options := d.element 2
  ⟨(d.element 0).textOrEmpty, (d.element 1).textOrEmpty,
    if (options.entry "many").isSet then .toMany else .toOne (options.entry "fk").textOrEmpty⟩

/-! ### Types -/

/-- The kinds of record types, under the words for them. -/
def RecordKind.words : List (String × RecordKind) :=
  [("model", .model), ("data", .data), ("plain", .plain), ("mapped", .mapped)]

/-- The bases of enumerations, under the words for them. -/
def EnumBase.words : List (String × EnumBase) :=
  [("plain", .plain), ("integer", .integer), ("text", .text)]

/-- What the members of a record type are declared as by some data. -/
def Layout.ofData (s : Schema) (d : Value) : Except Fault Layout := do
  let kind := chosen RecordKind.words .plain (d.entry "kind")
  let fields ← (d.entry "fields").elements.mapM (Field.ofData s kind)
  .ok (match kind with
    | .model => .model fields
    | .data => .data fields
    | .plain => .plain fields (d.entry "order").isSet
    | .mapped => .mapped (.ofDeclarations (d.entry "table").textOrEmpty
      ((d.entry "columns").elements.map Column.ofData)
      ((d.entry "rels").elements.map Relation.ofData)))

/-- The record type that some data defines. -/
def RecordType.ofData (s : Schema) (d : Value) : Except Fault RecordType := do
  let layout ← Layout.ofData s d
  let properties ← (d.entry "props").elements.mapM Property.ofData
  let bases := (d.entry "bases").elements.map Value.textOrEmpty
  .ok ⟨(d.entry "name").textOrEmpty, bases, layout, properties⟩

/-- The enumeration that some data defines. -/
def EnumType.ofData (d : Value) : Except Fault EnumType :=
  EnumType.declare (chosen EnumBase.words .plain (d.entry "base")) (d.entry "name").textOrEmpty
    ((d.entry "members").elements.map fun m => ((m.element 0).textOrEmpty, m.element 1))

namespace Schema

/-- The type of a field of a model. A name in it may be unknown, and then it stays as it is written,
but it may not be wrong. -/
def modelType (s : Schema) (t : TypeExpr) : Except Fault TypeExpr :=
  match t.evaluate s true, t with
  | .error .unknownName, .quoted text => .ok (.forward text)
  | .error .unknownName, t => .ok t
  | r, _ => r

/-- Whether all names in the types of some fields are known. -/
def areKnown (s : Schema) (fields : List Field) : Bool :=
  fields.all fun f => (f.type.evaluate s true).toOption.isSome

/-- The record type with the types of its fields looked up, if they are as it is defined. Once all
names are known, values have to be checkable against them. -/
def modelled (s : Schema) (r : RecordType) : Except Fault RecordType :=
  match r.layout with
  | .model fields => do
    let types ← fields.mapM fun f => (s.modelType f.type).map fun t => { f with type := t }
    let checkable := types.all fun f => s.isCheckable (s.records.length + 1) f.type
    if s.areKnown fields && !checkable then .error .uncheckable
    else .ok { r with layout := .model types }
  | _ => .ok r

/-- Whether the fields of a data class that have an initial value come after all others. -/
def initialsLast (s : Schema) (name : String) : Bool :=
  (((s.fieldsOf name).map fun f => (s.classValue? name f.name).isSome).dropWhile (!·)).all id

/-- The initial values of a data class must not be such that change, and its fields without one come
first. -/
def checkInitials (s : Schema) (r : RecordType) : Except Fault Unit :=
  match r.layout with
  | .data fields =>
    if fields.any fun f => f.initial.any Value.changes then .error .invalidValue
    else if s.initialsLast r.name then .ok ()
    else .error .unsupported
  | _ => .ok ()

/-- The schema with one more record type, if the type can be defined after the others. -/
def defineRecord (s : Schema) (r : RecordType) : Except Fault Schema := do
  let known := s.addRecord r
  if (known.lineage? r.name).isNone then .error .unsupported
  else
    known.checkInitials r
    (known.modelled r).map s.addRecord

/-- The schema with one more type, which some data defines. -/
def define (s : Schema) (d : Value) : Except Fault Schema :=
  match d.entry "kind" with
  | .text "enum" => (EnumType.ofData d).map s.addEnum
  | _ => do s.defineRecord (← RecordType.ofData s d)

end Schema
end RecordQuery
