import RecordQuery.Calendar.Interval
import RecordQuery.Calendar.Iso
import RecordQuery.Error
import RecordQuery.Operator
import RecordQuery.Schema.Member
import RecordQuery.Value.Text

/-!
# Coercion

Conditions carry raw text. Once the type of a column is known, the text is converted to the value
that the column is compared with.

* `Schema.coerceScalar` converts one text, `Schema.coerceList` one between commas;
* `Schema.coerce` chooses between them by operator and type, and `Schema.coerceValue` does so for
  a value that need not be a text.

Blank text stands for null, except where text itself is the type. Text for a type that has no
conversion of its own is left to the adapter of the schema.
-/

namespace RecordQuery

open Text

/-! ### Single values -/

/-- The truth value that a text spells. -/
def readBool? (cs : List Char) : Option Bool :=
  let word := String.ofList (lower cs)
  if word = "true" ∨ word = "1" then some true
  else if word = "false" ∨ word = "0" then some false
  else none

/-- The first of some members whose value has a text that agrees with a key but for letter case. A
value without a text ends the search. -/
def EnumType.findValue (key : List Char) :
    List (String × Value) → Except Fault (Option (String × Value))
  | [] => .ok none
  | m :: ms => do
    let text ← m.2.plainShown
    if fold text.toList == key then .ok (some m) else findValue key ms

/-- The member of an enumeration that a text names, by a name or else by the text of a value, in
any letter case. -/
def EnumType.read (e : EnumType) (cs : List Char) : Except Fault (Option Value) :=
  let key := fold cs
  match e.members.find? fun m => fold m.1.toList == key with
  | some m => .ok (some (e.memberOf m.1 m.2))
  | none =>
    -- values are looked at only after all names
    (findValue key e.distinct).map fun found => found.map fun m => e.memberOf m.1 m.2

/-- The error of a text that is no duration. A letter or a word that names no unit is a fault of
its own. -/
def intervalError (raw : RawText) (typeName : String) (cs : List Char) : IntervalError → Error
  | .unrecognised => .coercion raw typeName (.interval (String.ofList cs))
  | .outOfRange | .tooManyDigits => .coercion raw typeName .malformed
  | .unknownLetter => .fault .missingKey
  | .unknownUnit => .fault .unsupported

/-- The duration that a value stands for: a duration itself, and otherwise what the plain form of
the value says. -/
def Value.interval (v : Value) : Except Error Duration :=
  match v with
  | .duration d => .ok d
  | v => do
    let text ← liftFault v.plainShown
    match Duration.readInterval text.toList with
    | .ok d => .ok d
    | .error .unrecognised => .error (.misuse (.unrecognisedInterval text))
    | .error .outOfRange => .error (.fault .overflow)
    | .error .tooManyDigits => .error (.fault .invalidValue)
    | .error .unknownLetter => .error (.fault .missingKey)
    | .error .unknownUnit => .error (.fault .unsupported)

/-- A moment with its offset taken off. -/
def readMoment? (cs : List Char) : Option DateTime := (DateTime.read? cs).bind DateTime.toUniversal?

/-- The value of a scalar type that trimmed text denotes, if the type has a conversion. -/
def ScalarType.read? : ScalarType → List Char → Option Value
  | .integer, cs => (Numeral.readInteger? cs).map .int
  | .float, cs => (Binary64.read? cs).map .float
  | .decimal, cs => (Decimal.read? cs).map .decimal
  | .uuid, cs => (Uuid.read? cs).map .uuid
  | .dateTime, cs => (readMoment? cs).map .dateTime
  | .date, cs => (Date.read? cs).map .date
  | .time, cs => (Time.read? cs).map .time
  | _, _ => none

/-! ### Types without a conversion of their own -/

namespace Schema

/-- The value of a type that the adapter reads. A text that is refused and a type that is not
supported are reported with the text; other failures of the adapter are passed on. -/
def adapt (s : Schema) (raw : RawText) (t : TypeExpr) : Except Error Value :=
  match s.adapter.read raw t with
  | .ok v => .ok v
  | .error .unsupported => .error (.coercion raw t.name .unsupportedType)
  | .error .refused => .error (.coercion raw t.name .malformed)
  | .error (.fault f) => .error (.fault f)

/-! ### Conversion -/

/-- The value of a type that trimmed text denotes, where the text is not blank. -/
def coerceText (s : Schema) (raw : RawText) (cs : List Char) (t : TypeExpr) : Except Error Value :=
  match t with
  | .scalar .boolean =>
    match readBool? cs with
    | some b => .ok (.bool b)
    | none => .error (.coercion (.plain (String.ofList cs)) t.name .notBoolean)
  | .scalar .duration =>
    match Duration.readInterval cs with
    | .ok d => .ok (.duration d)
    | .error e => .error (intervalError raw t.name cs e)
  | .scalar .text => .ok raw.value
  -- the type itself accepts a text, or refuses it
  | .scalar .bytes | .scalar .byteArray => s.adapt raw t
  | .scalar u =>
    match u.read? cs with
    | some v => .ok v
    | none => .error (.coercion raw t.name .malformed)
  | .named name =>
    match s.enum? name with
    | some e => do
      match ← liftFault (e.read cs) with
      | some v => .ok v
      | none =>
        .error (.coercion (.plain (String.ofList cs)) name (.notMember (e.members.map Prod.fst)))
    | none => s.adapt raw t
  | t => s.adapt raw t

/-- The value of a type that a text denotes. -/
def coerceScalar (s : Schema) (raw : RawText) (type : TypeExpr) : Except Error Value :=
  let t := type.present.1
  if t.isText then .ok raw.value
  else
    let cs := trim raw.text.toList
    if cs.isEmpty then .ok .null else s.coerceText raw cs t

/-- The list of values that a text with commas denotes; a blank text denotes none. -/
def coerceList (s : Schema) (raw : RawText) (type : TypeExpr) : Except Error Value :=
  if isBlankText raw.text then .ok (.list [])
  else do
    let values ← (pieces ',' raw.text.toList).mapM fun p =>
      s.coerceScalar (.plain (String.ofList (trim p))) type
    .ok (.list values)

/-- The value that a column of a type is compared with by an operator. Membership tests compare
with one element of a collection, and with a list of values where the column is a single value. -/
def coerce (s : Schema) (raw : RawText) (type : TypeExpr) (operator : Operator) :
    Except Error Value :=
  let t := type.present.1
  if operator.takesList then s.coerceList raw t
  else if operator.isContainment then
    -- containment in a collection compares with one element
    match t.element? with
    | some e => s.coerceScalar raw e
    | none => if t.isText then s.coerceScalar raw t else s.coerceList raw t
  else s.coerceScalar raw t

/-- Whether a text is itself the value that a column of a type is compared with. -/
def keepsText (type : TypeExpr) (operator : Operator) : Bool :=
  let t := type.present.1
  let element := if operator.isContainment then t.element? else none
  !operator.takesList && (element.elim t fun e => e.present.1).isText

/-- The value that a column is compared with, given as any value: one that is no text stands for
itself where a text would, and nothing can be read from it elsewhere. -/
def coerceValue (s : Schema) (v : Value) (type : TypeExpr) (operator : Operator) :
    Except Error Value :=
  match RawText.ofValue? v with
  | some raw => s.coerce raw type operator
  | none => if keepsText type operator then .ok v else .error (.fault .missingMember)

end Schema
end RecordQuery
