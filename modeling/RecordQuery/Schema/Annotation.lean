import RecordQuery.Annotation.Denotation

/-!
# Looking up annotations

Looking up the types that a declaration names. A declaration may refer to a type by text, before
that type is defined; the text is an expression over the basic types and those of the schema.

* `annotationExpr` reads such a text;
* `TypeExpr.evaluate` replaces all text in a type by the types that it denotes.

An annotation that names nothing known, or puts types together in a way that they do not support,
fails with the faults `unknownName` and `unsupported`; such annotations may stay as they are
written.
-/

namespace RecordQuery

open Annotation

/-- The expression of an annotation that is given as text. A star in front of it spreads it out. -/
def annotationExpr (text : String) : Except Fault Expr :=
  if text.isEmpty then .error .outOfRange
  else if text.contains '\x00' then .error .invalidValue
  else
    let source := if "*".isPrefixOf text then "(" ++ text ++ ",)[0]" else text
    match Expr.ofText? source with
    | some e => .ok e
    | none => .error .noExpression

namespace TypeExpr

/-- Checks that a type, if it is given as text, is an expression. -/
def checkText : TypeExpr → Except Fault Unit
  | forward text | quoted text => (annotationExpr text).map fun _ => ()
  | _ => .ok ()

mutual

/-- The type with all text in it looked up in some way, with or without the annotations in it. The
texts among the arguments of a shape have to be expressions all, before any is looked up. -/
def evaluateWith (read : String → Except Fault TypeExpr) (annotations : Bool) :
    TypeExpr → Except Fault TypeExpr
  | applied shape args => do
    args.forM checkText
    (evaluateAllWith read annotations args).map (applied shape)
  | row e => do
    e.checkText
    (evaluateWith read annotations e).map row
  | union .bracketed parts => (evaluateAllWith read annotations parts).map (unionOf .bracketed)
  | union .barred parts => do barAll (← evaluateAllWith read annotations parts)
  | annotated t =>
    (evaluateWith read annotations t).map fun t => if annotations then annotatedOf t else t
  | forward text => read text
  | quoted text => read text
  | t => .ok t
termination_by structural x => x

/-- The types with all text in them looked up in some way. -/
def evaluateAllWith (read : String → Except Fault TypeExpr) (annotations : Bool) :
    List TypeExpr → Except Fault (List TypeExpr)
  | [] => .ok []
  | t :: ts => do
    let t ← evaluateWith read annotations t
    let ts ← evaluateAllWith read annotations ts
    .ok (t :: ts)
termination_by structural x => x

end

/-- The type that a text denotes, for texts that denote each other at most so deep. A text inside
itself stays as it is. -/
def ofText (s : Schema) (annotations : Bool) : Nat → List String → String → Except Fault TypeExpr
  | 0, _, _ => .error .tooDeep
  | depth + 1, within, text =>
    if within.contains text then .ok (forward text)
    else do
      match ← (← annotationExpr text).evaluate s with
      | .items .tuple _ => .error .unsupported
      | .value .null => .ok nullType
      | x => evaluateWith (ofText s annotations depth (text :: within)) annotations (x.asType s)

/-- How deep texts can denote each other: a text in a text is shorter, or that of a member of an
enumeration. -/
def textDepth (s : Schema) (text : String) : Nat :=
  text.length + (s.enums.map fun e => e.members.length).foldl (· + ·) 1

/-- The type with all text in it looked up, with or without the annotations in it. -/
def evaluate (s : Schema) (annotations : Bool) (t : TypeExpr) : Except Fault TypeExpr :=
  evaluateWith (fun text => ofText s annotations (textDepth s text) [] text) annotations t

end TypeExpr
end RecordQuery
