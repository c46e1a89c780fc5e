import RecordQuery.Filter

/-!
# Writing filters

The canonical text of a filter: every leaf with its operator, and a comma and a blank between the
arguments of a combinator. Below a quantifier, columns are written relative to its column.

* `Filter.format` writes one filter, `Filter.formatAll` a list of filters.

A tree in which a column below a quantifier does not continue the quantifier's column has no text.
-/

namespace RecordQuery

open Text

/-- What stands between two arguments. -/
def argumentSeparator : String := ", "

/-- The part of a column that is written below a quantifier, or the whole column. -/
def ColumnPath.within (scope : Option ColumnPath) (p : ColumnPath) : Except Error ColumnPath :=
  match scope with
  | some s => p.relativeTo s
  | none => .ok p

namespace Filter

mutual

/-- The text of a filter below a quantifier's column, or at the top. -/
def formatIn (scope : Option ColumnPath) : Filter → Except Error String
  | leaf c o v => do
    let column ← c.within scope
    .ok (column.text ++ ":" ++ o.word ++ "(" ++ v.formText ++ ")")
  | group k cs => do
    let parts ← formatAllIn scope cs
    .ok (k.word ++ "(" ++ join argumentSeparator parts ++ ")")
  | quantified q c cs => do
    let column ← c.within scope
    let parts ← formatAllIn (some c) cs
    .ok (column.text ++ ":" ++ q.word ++ "(" ++ join argumentSeparator parts ++ ")")
termination_by structural f => f

/-- The texts of several filters. -/
def formatAllIn (scope : Option ColumnPath) : List Filter → Except Error (List String)
  | [] => .ok []
  | f :: fs => do
    let part ← formatIn scope f
    let parts ← formatAllIn scope fs
    .ok (part :: parts)
termination_by structural fs => fs

end

/-- The canonical text of a filter. -/
def format (f : Filter) : Except Error String := formatIn none f

/-- The canonical text of a list of filters. -/
def formatAll (fs : List Filter) : Except Error String :=
  (formatAllIn none fs).map (join argumentSeparator)

end Filter
end RecordQuery
