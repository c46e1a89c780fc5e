import RecordQuery.Schema.Member

/-!
# Types that values can be checked against

The fields of a model have to be of types that say which values they hold, and so has a type that a
text is to be read as without a conversion of its own. Plain and mapped types do not say it.

* `Schema.isCheckable` tells the types that do.
* `Schema.checking` is the adapter that reads a few of them. It is one of many: what is stated of
  schemas holds for any adapter.
-/

namespace RecordQuery

/-- Whether a value can be checked against a type of the basic module: of those that are no
collections, only complex numbers and types can. -/
def isCheckableShape : Shape → Bool
  | .other name => name == "complex" || name == "type"
  | _ => true

namespace Schema

mutual

/-- Whether a value can be checked against a type, for record types nested at most so deep. Plain
and mapped types cannot be checked, nor can a data class with a field that cannot. -/
def isCheckable (s : Schema) : Nat → TypeExpr → Bool
  | depth, .applied shape args =>
    isCheckableShape shape && shape != .iterator && shape != .collection &&
      allCheckable s depth args
  | _, .bare shape => isCheckableShape shape
  | depth, .row e => isCheckable s depth e
  | depth, .union _ parts => allCheckable s depth parts
  | depth, .annotated t => isCheckable s depth t
  | _, .scalar t => t != .byteArray
  | 0, .named _ => true
  | depth + 1, .named name =>
    match s.record? name with
    | none => true
    | some r =>
      match r.layout with
      | .model _ => true
      | .data _ =>
        match s.hintedDataFields name with
        | .ok fields => fields.all fun f => isCheckable s depth f.type
        | .error _ => false
      | _ => false
  | _, .forward _ | _, .quoted _ | _, .ellipsis | _, .constant _ _ => false
  | _, _ => true
termination_by depth t => (depth, sizeOf t)

/-- Whether values can be checked against all of some types. -/
def allCheckable (s : Schema) (depth : Nat) : List TypeExpr → Bool
  | [] => true
  | t :: ts => isCheckable s depth t && allCheckable s depth ts
termination_by ts => (depth, sizeOf ts)

end

mutual

/-- Whether a type cannot be looked at: somewhere in it are tuples of any length with elements of
several types. -/
def isMixedRow : TypeExpr → Bool
  | .applied .tuple args => (2 < args.length && args.getLast? = some .ellipsis) || anyMixedRow args
  | .applied _ args => anyMixedRow args
  | .row e => isMixedRow e
  | .union _ parts => anyMixedRow parts
  | .annotated t => isMixedRow t
  | _ => false
termination_by structural t => t

/-- Whether one of some types cannot be looked at. -/
def anyMixedRow : List TypeExpr → Bool
  | [] => false
  | t :: ts => isMixedRow t || anyMixedRow ts
termination_by structural ts => ts

end

/-- Texts that are not shown: of such a text only its length tells, if it is empty. -/
def secret (text : String) : Value :=
  let mask := if text.isEmpty then "" else "**********"
  .foreign "pydantic.types" "SecretStr" ("SecretStr('" ++ mask ++ "')") text

/-- The adapter that checks: bytes are those of the text's UTF-8 encoding, a literal is one of its
texts exactly, a secret is any text, and all other checkable types refuse a text. -/
def checking (s : Schema) : Adapter where
  read raw t :=
    if isMixedRow t then .error (.fault .invalidValue)
    else if s.isCheckable (s.records.length + 1) t then
      match t with
      | .scalar .bytes => .ok (.bytes raw.text.toUTF8.data.toList)
      | .literal texts => if raw.text ∈ texts then .ok (.text raw.text) else .error .refused
      | .bare (.foreign "pydantic.types" "SecretStr") => .ok (secret raw.text)
      | .union _ parts =>
        if parts.any TypeExpr.isText then .ok (.text raw.text) else .error .refused
      | _ => .error .refused
    else .error .unsupported

/-- The schema whose types are checked. -/
def checked (s : Schema) : Schema := { s with adapter := s.checking }

end Schema
end RecordQuery
