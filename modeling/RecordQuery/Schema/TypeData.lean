import RecordQuery.Schema.Annotation
import RecordQuery.Value.Data

/-!
# Types as data

A type in the form of data: a word, or a list of a word and the types that it puts together.

* `TypeExpr.ofData` is the type that some data describes, `TypeExpr.toData` the data of a type.

A type that stands as text in a union, or refers to another one by text, has to be an expression.
-/

namespace RecordQuery.TypeExpr

/-- The word for three dots. -/
def dots : String := "..."

/-- The type that a word puts together from others. -/
def composed (word : String) (parts : List TypeExpr) : Except Fault TypeExpr :=
  match word, parts with
  | "optional", t :: _ => t.checkText.map fun _ => optionalOf t
  | "union", ts => (ts.forM checkText).map fun _ => unionOf .bracketed ts
  | "pipe", ts => barAll ts
  | "annotated", t :: _ => t.checkText.map fun _ => annotatedOf t
  | "tuple", [e, ellipsis] => .ok (row e)
  | word, ts => .ok (((Shape.ofName? word).map (applied · ts)).getD anything)

/-- The type that a word makes of texts, if it is made of texts. -/
def ofTexts? (word : String) (texts : List String) : Option (Except Fault TypeExpr) :=
  let text := texts.headD ""
  match word with
  | "literal" => some (.ok (literalOf texts))
  | "text" => some (.ok (quoted text))
  | "self" | "fwd" => some ((forward text).checkText.map fun _ => forward text)
  | _ => none

mutual

/-- The type that some data describes. -/
def ofData : Value → Except Fault TypeExpr
  | .text word => .ok (if word = dots then ellipsis else (basic.lookup word).getD (named word))
  | .list (.text word :: rest) =>
    match ofTexts? word (rest.map Value.textOrEmpty) with
    | some t => t
    | none => do composed word (← ofDataAll rest)
  | _ => .ok anything
termination_by structural v => v

/-- The types that several pieces of data describe. -/
def ofDataAll : List Value → Except Fault (List TypeExpr)
  | [] => .ok []
  | v :: vs => do
    let t ← ofData v
    let ts ← ofDataAll vs
    .ok (t :: ts)
termination_by structural vs => vs

end

/-- A word and further data. -/
def taggedData (word : String) (rest : List Value) : Value := .list (.text word :: rest)

mutual

/-- The data of a type. What stands in the place of a type and has no name has none. -/
def toData : TypeExpr → Except Fault Value
  | scalar s => .ok (.text s.name)
  | anything => .ok (.text "Any")
  | object => .ok (.text "object")
  | nothing | nullType => .ok (.text "None")
  | bare s => .ok (.text s.name)
  | unspecified s => .ok (taggedData s.name [])
  | applied s args => (toDataAll args).map (taggedData s.name)
  | row e => (toData e).map fun d => taggedData Shape.tuple.name [d, .text dots]
  | union _ parts => (toDataAll parts).map (taggedData "union")
  | annotated t => (toData t).map fun d => taggedData "annotated" [d]
  | literal texts => .ok (taggedData "literal" (texts.map .text))
  | named name => .ok (.text name)
  | forward text => .ok (taggedData "fwd" [.text text])
  | quoted text => .ok (taggedData "text" [.text text])
  | ellipsis => .ok (.text dots)
  | constant (some name) _ => .ok (.text name)
  | constant none _ => .error .missingMember
termination_by structural t => t

/-- The data of several types. -/
def toDataAll : List TypeExpr → Except Fault (List Value)
  | [] => .ok []
  | t :: ts => do
    let d ← toData t
    let ds ← toDataAll ts
    .ok (d :: ds)
termination_by structural ts => ts

end

end RecordQuery.TypeExpr
