import RecordQuery.Schema.Definition

/-!
# Lineages

What a record type inherits. A type comes before its bases, bases keep the order in which they are
given, and both hold for the whole line of ancestors at once, or the type cannot be defined.

* `Schema.lineage` lists a record type and its ancestors in this order;
* `Schema.fieldsOf` lists the fields of a record type with those that it inherits, by the rules of
  its kind.
-/

namespace RecordQuery

/-! ### Order of ancestors -/

/-- Whether a type stands in a list behind another one. -/
def standsBehind (r : RecordType) (line : List RecordType) : Bool :=
  line.tail.any fun q => q.name == r.name

/-- The first type at the head of a list that stands behind another one in no list. -/
def nextAncestor? (lines : List (List RecordType)) : Option RecordType :=
  (lines.filterMap List.head?).find? fun r => lines.all fun line => !standsBehind r line

/-- The list without a type at its head. -/
def dropHead (r : RecordType) : List RecordType → List RecordType
  | [] => []
  | q :: line => if q.name = r.name then line else q :: line

/-- One list in which all types of some lists stand in the order of each of them, if there is one;
it has at most so many elements. -/
def mergeLines : Nat → List (List RecordType) → Option (List RecordType)
  | 0, lines => if lines.all List.isEmpty then some [] else none
  | count + 1, lines =>
    if lines.all List.isEmpty then some []
    else
      match nextAncestor? lines with
      | none => none
      | some r => (mergeLines count (lines.map (dropHead r))).map (r :: ·)

/-- The record type of a name and its ancestors, among definitions of which each comes before its
bases. -/
def lineageIn? : List RecordType → String → Option (List RecordType)
  | [], _ => some []
  | r :: rest, name =>
    if r.name = name then do
      let lines ← r.bases.mapM (lineageIn? rest)
      let all := lines ++ [lines.filterMap List.head?]
      (mergeLines all.flatten.length all).map (r :: ·)
    else lineageIn? rest name

/-! ### Inherited fields -/

/-- The fields with another one, which takes the place of a field of the same name. -/
def mergeField (fields : List Field) (f : Field) : List Field :=
  if fields.any fun g => g.name == f.name then
    fields.map fun g => if g.name = f.name then f else g
  else fields ++ [f]

/-- The fields, of which a later one takes the place of an earlier one of the same name. -/
def mergeFields (fields : List Field) : List Field := fields.foldl mergeField []

/-- The fields of a data class: all fields of its ancestors, the farthest first, then its own. -/
def dataFieldsIn : List RecordType → String → List Field
  | [], _ => []
  | r :: rest, name =>
    if r.name = name then
      let ancestors := ((lineageIn? (r :: rest) name).getD []).tail.reverse
      mergeFields (ancestors.flatMap (fun b => dataFieldsIn rest b.name) ++ r.layout.fields)
    else dataFieldsIn rest name

/-- The fields of a model: in the order in which the farthest ancestors declare their names, each as
the model itself declares it, or else the first of its bases that has it. -/
def modelFieldsIn : List RecordType → String → List Field
  | [], _ => []
  | r :: rest, name =>
    if r.name = name then
      let line := ((lineageIn? (r :: rest) name).getD []).reverse
      let declared := mergeFields (line.flatMap fun b => b.layout.fields)
      let known := mergeFields r.layout.fields ++ r.bases.flatMap (modelFieldsIn rest)
      (declared.filter fun f => !isHidden f.name).filterMap fun f =>
        known.find? fun g => g.name == f.name
    else modelFieldsIn rest name

namespace Schema

/-- The record type of a name and its ancestors, if they have an order. -/
def lineage? (s : Schema) (name : String) : Option (List RecordType) := lineageIn? s.records name

/-- The record type of a name and its ancestors. -/
def lineage (s : Schema) (name : String) : List RecordType := (s.lineage? name).getD []

/-- The declarations of all fields of a record type and its ancestors, the farthest first, also
those that others take the place of. -/
def declarations (s : Schema) (name : String) : List Field :=
  (s.lineage name).reverse.flatMap fun r => mergeFields r.layout.fields

/-- The fields of a record type and its ancestors as the nearest of them declare them. -/
def mergedFields (s : Schema) (name : String) : List Field := mergeFields (s.declarations name)

/-- The fields of a record type with those that it inherits. -/
def fieldsOf (s : Schema) (name : String) : List Field :=
  match (s.record? name).map fun r : RecordType => r.layout.kind with
  | some .model => modelFieldsIn s.records name
  | some .data => dataFieldsIn s.records name
  | _ => s.mergedFields name

/-- The value that a class has for a member. -/
def classValue? (s : Schema) (owner name : String) : Option Value :=
  (s.declarations owner).reverse.findSome? fun f => if f.name = name then f.initial else none

end Schema
end RecordQuery
