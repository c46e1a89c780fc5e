import RecordQuery.Text.Quoted
import RecordQuery.Text.Split
import RecordQuery.Value

/-!
# Type expressions

The declared types of record members: scalars, collections, unions, references to enumerations and
record types by name, and annotations that are still text.

* `TypeExpr` is the type; `TypeExpr.unionOf`, `TypeExpr.bar`, `TypeExpr.literalOf` and
  `TypeExpr.annotatedOf` build composite types in their normal form;
* `TypeExpr.present` takes the absent value out of a type, `TypeExpr.element?` gives the type of a
  collection's elements;
* `TypeExpr.display` is the full written form, `TypeExpr.name` the short one of messages, and
  `TypeExpr.qualifiedName` the one that tells types of different modules apart.
-/

namespace RecordQuery

open Text

/-- The types of single values. -/
inductive ScalarType where
  | text
  | integer
  | float
  | boolean
  | bytes
  | byteArray
  | decimal
  | uuid
  | dateTime
  | date
  | time
  | duration
  deriving DecidableEq, Repr

namespace ScalarType

/-- All scalar types. -/
def all : List ScalarType :=
  [text, integer, float, boolean, bytes, byteArray, decimal, uuid, dateTime, date, time, duration]

/-- The name of the type. -/
def name : ScalarType → String
  | text => "str"
  | integer => "int"
  | float => "float"
  | boolean => "bool"
  | bytes => "bytes"
  | byteArray => "bytearray"
  | decimal => "Decimal"
  | uuid => "UUID"
  | dateTime => "datetime"
  | date => "date"
  | time => "time"
  | duration => "timedelta"

/-- The module that defines the type. -/
def home : ScalarType → String
  | decimal => "decimal"
  | uuid => "uuid"
  | dateTime | date | time | duration => "datetime"
  | _ => "builtins"

end ScalarType

/-- The shapes of collections and mappings, concrete and abstract, and the other types of the basic
module, some of which take arguments as well. -/
inductive Shape where
  | list
  | tuple
  | set
  | frozenSet
  | dict
  | sequence
  | mutableSequence
  | abstractSet
  | mutableSet
  | collection
  | iterable
  | iterator
  | mapping
  | other (name : String)
  /-- A type of another module, with the module's name. -/
  | foreign (home name : String)
  deriving DecidableEq, Repr

namespace Shape

/-- The shapes that are concrete types. -/
def concrete : List Shape := [list, tuple, set, frozenSet, dict]

/-- The shapes that only say how values can be used. -/
def abstract : List Shape :=
  [sequence, mutableSequence, abstractSet, mutableSet, collection, iterable, iterator, mapping]

/-- The name of the shape. -/
def name : Shape → String
  | list => "list"
  | tuple => "tuple"
  | set => "set"
  | frozenSet => "frozenset"
  | dict => "dict"
  | sequence => "Sequence"
  | mutableSequence => "MutableSequence"
  | abstractSet => "Set"
  | mutableSet => "MutableSet"
  | collection => "Collection"
  | iterable => "Iterable"
  | iterator => "Iterator"
  | mapping => "Mapping"
  | other name | foreign _ name => name

/-- The name of the shape in capitals, under which it stands for itself with unspecified
arguments. -/
def capitalName : Shape → String
  | list => "List"
  | tuple => "Tuple"
  | set => "Set"
  | frozenSet => "FrozenSet"
  | dict => "Dict"
  | s => s.name

/-- The module that defines the shape. -/
def home : Shape → String
  | foreign home _ => home
  | s => if s ∈ abstract then "collections.abc" else "builtins"

/-- The shape of a name. -/
def ofName? (name : String) : Option Shape := (concrete ++ abstract).find? fun s => s.name == name

/-- Whether values of the shape are collections of elements: mappings and iterators are not. -/
def isCollection : Shape → Bool
  | dict | iterator | mapping | other _ | foreign _ _ => false
  | _ => true

/-- Whether a type of the basic module that is no collection has an order. -/
def isOrdered : Shape → Bool
  | other name => ["complex", "memoryview", "range", "slice"].contains name
  | foreign _ _ => false
  | _ => true

/-- Whether the shape takes arguments. -/
def isGeneric : Shape → Bool
  | other name => ["BaseExceptionGroup", "ExceptionGroup", "enumerate", "type"].contains name
  | foreign _ _ => false
  | _ => true

end Shape

/-- The two spellings of a union: by a name with brackets, or with bars between the parts. -/
inductive UnionForm where
  | bracketed
  | barred
  deriving DecidableEq, Repr

/-- A declared type. -/
inductive TypeExpr where
  | scalar (s : ScalarType)
  /-- The type that says nothing about its values. -/
  | anything
  /-- The type that all values have. -/
  | object
  /-- The absent value, written in place of its type. -/
  | nothing
  /-- The type of the absent value. -/
  | nullType
  /-- A concrete shape without arguments. -/
  | bare (s : Shape)
  /-- A shape under its capital name, without arguments. -/
  | unspecified (s : Shape)
  | applied (s : Shape) (arguments : List TypeExpr)
  /-- Tuples of any length with elements of one type. -/
  | row (element : TypeExpr)
  | union (form : UnionForm) (parts : List TypeExpr)
  | annotated (inner : TypeExpr)
  | literal (texts : List String)
  /-- An enumeration or a record type. -/
  | named (name : String)
  /-- A reference to a type that is not looked up yet. -/
  | forward (text : String)
  /-- A type given as text. -/
  | quoted (text : String)
  /-- Three dots. -/
  | ellipsis
  /-- Something in the place of a type that is none, with its name if it has one and the way it is
  shown. -/
  | constant (name : Option String) (shown : String)
  deriving Inhabited

namespace TypeExpr

/-! ### Equality -/

mutual

/-- Decides whether two types are equal. -/
def same : TypeExpr → TypeExpr → Bool
  | scalar s, scalar t => s = t
  | anything, anything | object, object | nothing, nothing | nullType, nullType => true
  | bare s, bare t => s = t
  | unspecified s, unspecified t => s = t
  | applied s as, applied t bs => s = t && sameAll as bs
  | row a, row b => same a b
  | union f as, union g bs => f = g && sameAll as bs
  | annotated a, annotated b => same a b
  | literal s, literal t => s = t
  | named s, named t => s = t
  | forward s, forward t => s = t
  | quoted s, quoted t => s = t
  | ellipsis, ellipsis => true
  | constant n s, constant m t => n = m && s = t
  | _, _ => false
termination_by structural x => x

/-- Decides whether two lists of types are equal. -/
def sameAll : List TypeExpr → List TypeExpr → Bool
  | [], [] => true
  | a :: as, b :: bs => same a b && sameAll as bs
  | _, _ => false
termination_by structural x => x

end

mutual

theorem same_iff : ∀ a b : TypeExpr, same a b = true ↔ a = b
  | scalar _, b => by cases b <;> simp [same]
  | anything, b => by cases b <;> simp [same]
  | object, b => by cases b <;> simp [same]
  | nothing, b => by cases b <;> simp [same]
  | nullType, b => by cases b <;> simp [same]
  | bare _, b => by cases b <;> simp [same]
  | unspecified _, b => by cases b <;> simp [same]
  | applied _ as, b => by cases b <;> simp [same, sameAll_iff as]
  | row a, b => by cases b <;> simp [same, same_iff a]
  | union _ as, b => by cases b <;> simp [same, sameAll_iff as]
  | annotated a, b => by cases b <;> simp [same, same_iff a]
  | literal _, b => by cases b <;> simp [same]
  | named _, b => by cases b <;> simp [same]
  | forward _, b => by cases b <;> simp [same]
  | quoted _, b => by cases b <;> simp [same]
  | ellipsis, b => by cases b <;> simp [same]
  | constant _ _, b => by cases b <;> simp [same]

theorem sameAll_iff : ∀ as bs : List TypeExpr, sameAll as bs = true ↔ as = bs
  | [], bs => by cases bs <;> simp [sameAll]
  | a :: as, bs => by cases bs <;> simp [sameAll, same_iff a, sameAll_iff as]

end

instance : DecidableEq TypeExpr := fun a b => decidable_of_iff _ (same_iff a b)

/-! ### Construction -/

/-- The types that one word stands for, under their words: the scalars, those of all values and of
the absent value, and the collections without arguments. -/
def basic : List (String × TypeExpr) :=
  ScalarType.all.map (fun s => (s.name, scalar s)) ++
    [("Any", anything), ("object", object), ("None", nothing)] ++
    Shape.concrete.map (fun s => (s.name, bare s)) ++
    [Shape.list, .tuple, .dict].map fun s => (s.capitalName, unspecified s)

/-- The parts of a union that a part of it contributes: a union its own parts, and the absent value
its type. -/
def unionParts : TypeExpr → List TypeExpr
  | union _ parts => parts
  | nothing => [nullType]
  | quoted text => [forward text]
  | t => [t]

/-- The types without repetitions, each at its first place. -/
def distinct : List TypeExpr → List TypeExpr
  | [] => []
  | t :: ts => t :: (distinct ts).filter (· ≠ t)

/-- The union of some types: without unions among its parts and without repetitions. A union of one
part is that part. -/
def unionOf (form : UnionForm) (parts : List TypeExpr) : TypeExpr :=
  -- what collapses to one part is no union
  match distinct (parts.flatMap unionParts) with
  | [t] => t
  | ts => union form ts

/-- Whether bars between types make no union of their own around this one. -/
def refusesBars : TypeExpr → Bool
  | unspecified _ | literal _ | annotated _ | forward _ | union .bracketed _ => true
  | _ => false

/-- Whether a bar can stand next to the type where no type refuses bars. -/
def takesBars : TypeExpr → Bool
  | quoted _ | ellipsis | constant _ _ => false
  | _ => true

/-- Two types with a bar between them: a bracketed union if one of them refuses bars. A bar needs at
least one type, and does not go with texts. -/
def bar (a b : TypeExpr) : Except Fault TypeExpr :=
  -- a type that refuses bars takes part in a union under its name instead
  if a.refusesBars || b.refusesBars then .ok (unionOf .bracketed [a, b])
  else if a.takesBars && b.takesBars && (a ≠ nothing || b ≠ nothing) then
    .ok (unionOf .barred [a, b])
  else .error .unsupported

/-- Several types with bars between them. -/
def barAll : List TypeExpr → Except Fault TypeExpr
  | [] => .error .unsupported
  | t :: ts => ts.foldlM bar t

/-- The type of some texts. A repeated text adds nothing. -/
def literalOf (texts : List String) : TypeExpr := literal texts.eraseDups

/-- A type that may be absent. -/
def optionalOf (t : TypeExpr) : TypeExpr := unionOf .bracketed [t, nothing]

/-- A type with an annotation; a second annotation adds nothing. -/
def annotatedOf : TypeExpr → TypeExpr
  | annotated t => annotated t
  | quoted text => annotated (forward text)
  | t => annotated t

/-! ### The absent value and elements -/

/-- Whether the type is that of the absent value. -/
def isNull : TypeExpr → Bool
  | nothing | nullType => true
  | _ => false

mutual

/-- The type without annotation and without the absent value, and whether that value was part of
it. A union with several other parts stays as it is. -/
def present : TypeExpr → TypeExpr × Bool
  | annotated t => present t
  | union form parts =>
    match presentParts parts with
    | [t] => (t, parts.any isNull)
    | _ => (union form parts, parts.any isNull)
  | nothing | nullType => (anything, true)
  | t => (t, false)
termination_by structural x => x

/-- The parts of a union that are not the absent value, each without its own absent value. -/
def presentParts : List TypeExpr → List TypeExpr
  | [] => []
  | t :: ts => if t.isNull then presentParts ts else (present t).1 :: presentParts ts
termination_by structural x => x

end

/-- The element type of a collection type. Tuples whose parts have types of their own, and
collections without arguments, have elements of any type. -/
def element? (t : TypeExpr) : Option TypeExpr :=
  match t.present.1 with
  | bare s | unspecified s => if s.isCollection then some anything else none
  | row e => some e.present.1
  | applied s args =>
    if s.isCollection then
      match s, args with
      | .tuple, _ => some anything
      | _, e :: _ => some e.present.1
      | _, [] => some anything
    else none
  | _ => none

/-- Whether raw text is a value of the type as it stands. -/
def isText : TypeExpr → Bool
  | anything | object | scalar .text => true
  | _ => false

/-! ### Names -/

/-- The module that holds the enumerations and record types of a schema. -/
def schemaHome : String := "rt"

/-- A name after its module; the names of the basic module stand alone. -/
def fromHome (home name : String) : String :=
  if home = "builtins" then name else home ++ "." ++ name

/-- The name of a bracketed union: a type that may be absent has a name of its own. -/
def unionName (parts : List TypeExpr) : String :=
  if parts.length = 2 && parts.any isNull then "Optional" else "Union"

/-- The full written form of a bracketed union, from the written forms of its parts. A type that
may be absent shows the other part only. -/
def bracketedDisplay (parts : List TypeExpr) (texts : List String) : String :=
  let name := unionName parts
  let shown := (parts.zip texts).filter fun p => name = "Union" || !p.1.isNull
  "typing." ++ name ++ "[" ++ join ", " (shown.map Prod.snd) ++ "]"

/-- The full written form of a union with bars, from the written forms of its parts. The type of the
absent value is written like that value. -/
def barredDisplay (parts : List TypeExpr) (texts : List String) : String :=
  join " | " ((parts.zip texts).map fun p => if p.1.isNull then "None" else p.2)

mutual

/-- The full written form of a type. -/
def display : TypeExpr → String
  | scalar s => fromHome s.home s.name
  | anything => "typing.Any"
  | object => "object"
  | nothing => "None"
  | nullType => "NoneType"
  | bare s => fromHome s.home s.name
  | unspecified s => "typing." ++ s.capitalName
  | applied s args =>
    let shown := if args.isEmpty then "()" else join ", " (displayAll args)
    fromHome s.home s.name ++ "[" ++ shown ++ "]"
  | row e => "tuple[" ++ display e ++ ", ...]"
  | union .barred parts => barredDisplay parts (displayAll parts)
  | union .bracketed parts => bracketedDisplay parts (displayAll parts)
  | annotated t => "typing.Annotated[" ++ display t ++ "]"
  | literal texts => "typing.Literal[" ++ join ", " (texts.map Text.quoted) ++ "]"
  | named name => fromHome schemaHome name
  | forward text => "ForwardRef(" ++ Text.quoted text ++ ")"
  | quoted text => Text.quoted text
  | ellipsis => "..."
  | constant name shown => name.getD shown
termination_by structural x => x

/-- The full written forms of several types. -/
def displayAll : List TypeExpr → List String
  | [] => []
  | t :: ts => display t :: displayAll ts
termination_by structural x => x

end

/-- The name of a type in messages. Types that have no name are written in full. -/
def name : TypeExpr → String
  | scalar s => s.name
  | anything => "Any"
  | object => "object"
  | nothing => "None"
  | nullType => "NoneType"
  | bare s => s.name
  | unspecified s => s.capitalName
  | applied s _ => s.name
  | row _ => "tuple"
  | union .bracketed parts => unionName parts
  | annotated _ => "Annotated"
  | literal _ => "Literal"
  | named name => name
  | ellipsis => "Ellipsis"
  | t => t.display

/-- The name of a type with the module that defines it. -/
def qualifiedName : TypeExpr → String
  | scalar s => s.home ++ "." ++ s.name
  | object => "builtins.object"
  | nothing => "None"
  | nullType => "builtins.NoneType"
  | bare s | applied s _ => s.home ++ "." ++ s.name
  | row _ => "builtins.tuple"
  | named name => schemaHome ++ "." ++ name
  | union .barred parts => "types." ++ (union .barred parts).display
  | quoted text => Text.quoted text
  | ellipsis => "Ellipsis"
  | constant (some name) _ => "builtins." ++ name
  | constant none shown => shown
  | t => "typing." ++ t.name

end TypeExpr
end RecordQuery
