import RecordQuery.Annotation.Expr
import RecordQuery.Annotation.Name
import RecordQuery.Annotation.Slice
import RecordQuery.Value.Attribute
import RecordQuery.Value.Text

/-!
# What annotations denote

An annotation is an expression over types, but it may denote any other thing as well: a value, a
collection of things, or a function.

* `Thing` is what an expression denotes; `Thing.display` is the way it is shown, and `Thing.isTrue`
  its truth value;
* `Thing.asType` is the thing in the place of a type, and `Thing.member`, `Thing.item` and
  `Thing.call` are what can be had from it.

A fault is that of the operation that fails: a thing that does not support it, a missing member, an
index out of range or a missing key.
-/

namespace RecordQuery.Annotation

open Text

/-- What an expression denotes. -/
inductive Thing where
  | type (t : TypeExpr)
  | value (v : Value)
  | ellipsis
  | items (b : Bracket) (xs : List Thing)
  /-- Keys and values by turns. -/
  | mapping (xs : List Thing)
  /-- A part of a sequence, given by its start, its stop and its step. -/
  | slice (bounds : List Thing)
  /-- A function or another object, with its name if it has one. -/
  | object (name : Option String)
  /-- Another module, with its name. -/
  | library (name : String)
  deriving Inhabited

namespace Thing

/-! ### Forms -/

mutual

/-- Whether a thing can be an element of a set or a key. -/
def isKey : Thing → Bool
  | items .tuple xs => allKeys xs
  | items _ _ | mapping _ | slice _ => false
  | _ => true
termination_by structural x => x

/-- Whether all of some things can be elements of a set. -/
def allKeys : List Thing → Bool
  | [] => true
  | x :: xs => isKey x && allKeys xs
termination_by structural xs => xs

end

/-- Whether a type is shown as a class rather than as an expression. -/
def isClass : TypeExpr → Bool
  | .scalar _ | .object | .nullType | .bare _ | .named _ => true
  | _ => false

/-- The way a type is shown among other things. -/
def displayType (s : Schema) (t : TypeExpr) : String :=
  match t with
  | .named name =>
    if (s.enum? name).isSome then "<enum '" ++ name ++ "'>" else "<class '" ++ t.display ++ "'>"
  | t => if isClass t then "<class '" ++ t.display ++ "'>" else t.display

mutual

/-- The way a thing is shown. -/
def display (s : Schema) : Thing → String
  | type t => displayType s t
  | value v => v.display
  | ellipsis => "Ellipsis"
  | items .tuple xs =>
    match xs with
    | [x] => "(" ++ display s x ++ ",)"
    | xs => bracketed "(" (displayAll s xs) ")"
  | items .list xs => bracketed "[" (displayAll s xs) "]"
  | items .set xs =>
    if xs.isEmpty then "set()" else bracketed openBrace (displayAll s xs) closeBrace
  | mapping xs => bracketed openBrace (displayEntries s xs) closeBrace
  | slice bounds => bracketed "slice(" (displayAll s bounds) ")"
  | object name => name.getD ""
  | library name => "<module '" ++ name ++ "'>"
termination_by structural x => x

/-- The ways several things are shown. -/
def displayAll (s : Schema) : List Thing → List String
  | [] => []
  | x :: xs => display s x :: displayAll s xs
termination_by structural xs => xs

/-- The ways keys are shown with their values. -/
def displayEntries (s : Schema) : List Thing → List String
  | k :: v :: xs => (display s k ++ ": " ++ display s v) :: displayEntries s xs
  | _ => []
termination_by structural xs => xs

end

/-- Whether a thing counts as true. -/
def isTrue : Thing → Bool
  | value v => !v.isVoid
  | items _ xs | mapping xs => !xs.isEmpty
  | _ => true

/-- Whether two things are the same. -/
def same (s : Schema) : Thing → Thing → Bool
  | type t, type u => t = u
  | value v, value w => EnumType.sameValue v w
  | a, b => display s a == display s b

/-- A thing in the place of a type: the argument of another type, or an annotation. -/
def asType (s : Schema) : Thing → TypeExpr
  | type t => t
  | value .null => .nothing
  | value v =>
    match v.asText? with
    | some text => .quoted text
    | none => .constant none v.display
  | ellipsis => .ellipsis
  | object (some name) => .constant (some name) name
  | x => .constant none (display s x)

/-! ### Attributes -/

/-- A function with a name. -/
def function (name : String) : Thing := object (some name)

/-- A text as a thing. -/
def ofText (s : String) : Thing := value (.text s)

/-- The type of a value that is a thing of the basic module. -/
def valueType : Value → TypeExpr
  | .bool _ => .scalar .boolean
  | .int _ => .scalar .integer
  | .float _ => .scalar .float
  | .text _ => .scalar .text
  | .bytes _ => .scalar .bytes
  | .member _ owner _ _ => .named owner
  | _ => .nullType

/-- The type that a type is an instance of. -/
def typeOfType (s : Schema) : TypeExpr → TypeExpr
  | .named owner => .bare (.other (if (s.enum? owner).isSome then "EnumType" else "type"))
  | .union _ _ => .bare (.other "UnionType")
  | .applied _ _ | .row _ => .bare (.other "GenericAlias")
  | _ => .bare (.other "type")

/-- The type that a thing is an instance of. -/
def typeOf (s : Schema) : Thing → TypeExpr
  | value v => valueType v
  | items .tuple _ => .bare .tuple
  | items .list _ => .bare .list
  | items .set _ => .bare .set
  | mapping _ => .bare .dict
  | type t => typeOfType s t
  | slice _ => .bare (.other "slice")
  | ellipsis => .constant (some "ellipsis") "ellipsis"
  | object name =>
    if name.any functionNames.contains then .bare (.other "builtin_function_or_method")
    else .constant none ""
  | library _ => .bare (.other "module")

/-- The attribute of a name among those that a type of the basic module gives to itself and to its
instances. -/
def ownAttribute (t : TypeExpr) (name : String) : Except Fault Thing :=
  if (typeAttributes t).contains name || (operatorNames t).contains name ||
      commonAttributes.contains name then .ok (function name)
  else .error .missingMember

/-- The attribute of an enumeration or a record type. -/
def namedAttribute (s : Schema) (owner name : String) : Except Fault Thing :=
  match s.enum? owner, (s.enum? owner).bind fun e => e.member? name with
  | _, some v => .ok (value v)
  | some ⟨_, .integer, _, _⟩, none => ownAttribute (.scalar .integer) name
  | some ⟨_, .text, _, _⟩, none => ownAttribute (.scalar .text) name
  | some _, none => ownAttribute .object name
  | none, none =>
    match s.record? owner with
    | some r =>
      if r.properties.any fun p => p.name == name then .ok (object none)
      else
        match r.layout.fields.find? fun f => f.name == name && f.initial.isSome with
        | some f => .ok (value (f.initial.getD .null))
        | none => ownAttribute .object name
    | none => ownAttribute .object name

/-- The attribute of a type. -/
def typeAttribute (s : Schema) (t : TypeExpr) (name : String) : Except Fault Thing :=
  let arguments (ts : List TypeExpr) : Thing := items .tuple (ts.map type)
  let generic (shape : Shape) (ts : List TypeExpr) : Except Fault Thing :=
    if name = "__args__" then .ok (arguments ts)
    else if name = "__origin__" then .ok (type (.bare shape))
    else if name = "__name__" then .ok (ofText shape.name)
    else ownAttribute (.bare shape) name
  match t with
  | .applied shape ts => generic shape ts
  | .row e => generic .tuple [e, .ellipsis]
  | .union _ ts => if name = "__args__" then .ok (arguments ts) else ownAttribute .object name
  | t =>
    if name = "__name__" || name = "__qualname__" then .ok (ofText t.name)
    else if name = "__module__" then .ok (ofText "builtins")
    else if name = "__class__" then .ok (type (.bare (.other "type")))
    else if classAttributes.contains name then .ok (function name)
    else if name = "__mro__" then .ok (arguments [t, .object])
    else if name = "__bases__" then .ok (arguments [.object])
    else
      match t with
      | .named owner => namedAttribute s owner name
      | t => ownAttribute t name

/-- What describes a thing: a text that is no expression, or nothing. -/
def description : Thing → Thing
  | type (.named _) | value .null | ellipsis => value .null
  | _ => ofText "?"

/-- The attribute of a thing. -/
def member (s : Schema) (x : Thing) (name : String) : Except Fault Thing :=
  if name = "__class__" then .ok (type (x.typeOf s))
  else if name = "__doc__" then .ok x.description
  else
    match x with
    | type t => typeAttribute s t name
    | value v =>
      match v.attribute? name with
      | some w => .ok (value w)
      | none => ownAttribute (valueType v) name
    | object (some own) =>
      if name = "__name__" || name = "__qualname__" then .ok (ofText own)
      else ownAttribute .object name
    | library home =>
      match importedTypes.lookup (home, name) with
      | some t => .ok (type t)
      | none => ownAttribute .object name
    | x => ownAttribute (x.typeOf s) name

/-! ### Items -/

/-- The element of a list at an index, which counts from the end if it is negative. -/
def elementAt (xs : List Thing) (i : Int) : Except Fault Thing :=
  -- once from the end, and not around it
  let place := if i < 0 then i + (xs.length : Int) else i
  if place < 0 then .error .outOfRange
  else
    match xs[place.toNat]? with
    | some x => .ok x
    | none => .error .outOfRange

/-- The number that a thing is, if it can be an index. -/
def index? : Thing → Option Int
  | value v =>
    match v.unwrapped with
    | .int n => some n
    | .bool b => some (if b then 1 else 0)
    | _ => none
  | _ => none

/-- A bound of a slice, which may be absent. -/
def bound? : Thing → Option (Option Int)
  | value .null => some none
  | x => x.index?.map some

/-- The element of a sequence, or a part of it made into a sequence of its kind. -/
def sequenceItem (make : List Thing → Thing) (xs : List Thing) (index : Thing) :
    Except Fault Thing :=
  match index with
  | slice bounds =>
    match bounds.mapM bound? with
    | some [start, stop, step] => (Slice.of ⟨start, stop, step⟩ xs).map make
    | _ => .error .unsupported
  | index =>
    match index.index? with
    | some i => elementAt xs i
    | none => .error .unsupported

/-- The value of a key among keys and values by turns. -/
def lookUp (s : Schema) (key : Thing) : List Thing → Except Fault Thing
  | k :: v :: xs => if same s k key then .ok v else lookUp s key xs
  | _ => .error .missingKey

/-- A concrete type with arguments; three dots stand for any number of elements. -/
def applied (s : Schema) (shape : Shape) (index : Thing) : TypeExpr :=
  let arguments := match index with
    | items .tuple xs => xs.map (asType s)
    | x => [asType s x]
  match shape, arguments with
  | .tuple, [e, .ellipsis] => if e = .ellipsis then .applied .tuple arguments else .row e
  | shape, ts => .applied shape ts

/-- The characters of a text, one by one. -/
def characters (text : String) : List Thing := text.toList.map fun c => ofText (String.ofList [c])

/-- The text of some characters. -/
def joined (xs : List Thing) : Thing :=
  ofText (String.join (xs.filterMap fun x => match x with | value v => v.asText? | _ => none))

/-- The bytes with some numbers. -/
def ofNumbers (xs : List Thing) : Thing :=
  value (.bytes (xs.filterMap fun x => x.index?.map fun n => UInt8.ofNat n.toNat))

/-- What an index gives: a type its arguments, an enumeration a member, a collection an element. -/
def item (s : Schema) (x index : Thing) : Except Fault Thing :=
  match x with
  | type (.bare shape) => if shape.isGeneric then .ok (type (applied s shape index))
    else .error .unsupported
  | type (.named owner) =>
    match s.enum? owner, index with
    | some e, value v =>
      match v.asText?.bind e.member? with
      | some m => .ok (value m)
      | none => .error .missingKey
    | some _, x => .error (if x.isKey then .missingKey else .unsupported)
    | none, _ => .error .unsupported
  | items .set _ => .error .unsupported
  | items b xs => sequenceItem (items b) xs index
  | mapping xs => if index.isKey then lookUp s index xs else .error .unsupported
  | value v =>
    match v.asText?, v with
    | some text, _ => sequenceItem joined (characters text) index
    | none, .bytes bs =>
      sequenceItem ofNumbers (bs.map fun b => value (.int b.toNat)) index
    | none, _ => .error .unsupported
  | _ => .error .unsupported

/-- The things that a collection holds, where they can be gone through. -/
def elements? (s : Schema) : Thing → Option (List Thing)
  | items _ xs => some xs
  | mapping xs => some ((xs.zipIdx.filter fun p => p.2 % 2 == 0).map Prod.fst)
  | value v => v.items?.map fun xs => xs.map value
  | type (.named owner) =>
    (s.enum? owner).map fun e => e.distinct.map fun m => value (e.memberOf m.1 m.2)
  | type (.applied shape ts) => some [type (.applied shape ts)]
  | _ => none

/-! ### Calls -/

/-- What a type makes without arguments. -/
def instanceOf : TypeExpr → Thing
  | .scalar .text => ofText ""
  | .scalar .integer => value (.int 0)
  | .scalar .float => value (.float (Binary64.zero false))
  | .scalar .boolean => value (.bool false)
  | .scalar .bytes => value (.bytes [])
  | .nullType => value .null
  | .bare .list => items .list []
  | .bare .tuple => items .tuple []
  | .bare .set => items .set []
  | .bare .dict => mapping []
  | _ => object none

/-- The member of an enumeration that has a value. -/
def memberOfValue (e : EnumType) (x : Thing) : Except Fault Thing :=
  match x with
  | value v =>
    match e.canonical? v with
    | some (name, w) => .ok (value (.member e.base e.name name w))
    | none => .error .invalidValue
  | _ => .error .invalidValue

/-- What a call gives: a type an instance of it, an enumeration the member of a value, and the type
of types the type of its argument. -/
def call (s : Schema) (x : Thing) (arguments : List Thing) : Except Fault Thing :=
  match x, arguments with
  -- the type of types tells the type of a thing
  | type (.bare (.other "type")), [y] => .ok (type (y.typeOf s))
  | type (.union _ _), _ => .error .unsupported
  | type (.applied shape _), [] => .ok (instanceOf (.bare shape))
  | type (.named owner), arguments =>
    match s.enum? owner, arguments with
    | some e, [y] => memberOfValue e y
    | some _, _ => .error .unsupported
    | none, [] => .ok (object none)
    | none, _ => .error .unsupported
  | type t, [] => if needsArguments t then .error .unsupported else .ok (instanceOf t)
  | object (some "print"), [] => .ok (value .null)
  | object (some "__import__"), [value (.text name)] =>
    .ok (if importedTypes.any fun p => p.1.1 == name then library name else object none)
  | object (some name), [] =>
    if freeFunctions.contains name then .ok (object none) else .error .unsupported
  | type _, _ | object (some _), _ => .ok (object none)
  | _, _ => .error .unsupported

end Thing
end RecordQuery.Annotation
