import RecordQuery.Casting

/-!
# Rules of a cast

Entries of a cast table in the form in which callers give them: columns and words that may be
wrong, and rules that say item by item what takes the place of a filter.

* `FilterEmission` and `SortEmission` are the items of rules;
* `CastOptions.map`, `CastOptions.mapSort` and `CastOptions.excludeAll` check what a caller gives.
-/

namespace RecordQuery

open Text

/-! ### Items -/

/-- A text with the value of a leaf written into it at some places. -/
def filledIn (value : List Char) : List Char → List Char
  | '\x7b' :: 'v' :: '\x7d' :: rest => value ++ filledIn value rest
  | c :: rest => c :: filledIn value rest
  | [] => []

/-- One of the filters that take the place of a filter: itself, its children, or a leaf whose value
is made from the filter's value. -/
inductive FilterEmission where
  | same
  | children
  | leaf (column : ColumnArg) (operator template : String)

/-- One of the items that take the place of a sort item, with its own direction or that of the
item. -/
structure SortEmission where
  column : ColumnArg
  direction : Option String

/-- The filters that an emission gives for a filter. Anything but a leaf has an empty value. -/
def FilterEmission.apply (e : FilterEmission) (f : Filter) : Except Error (List Filter) :=
  match e, f with
  | same, f => .ok [f]
  | children, .group _ cs | children, .quantified _ _ cs => .ok cs
  | children, .leaf _ _ _ => .error (.fault .missingMember)
  | leaf column operator template, f =>
    let value := match f with
      | .leaf _ _ v => v.text.toList
      | _ => []
    (LeafArgs.build
      ⟨column, operator, .text (String.ofList (filledIn value template.toList))⟩).map fun g => [g]

/-- The filters that a rule gives for a filter. -/
def FilterEmission.applyAll (rule : List FilterEmission) (f : Filter) :
    Except Error (List Filter) :=
  (rule.mapM fun e : FilterEmission => e.apply f).map List.flatten

/-- The items that a rule gives for a sort item. -/
def SortEmission.applyAll (rule : List SortEmission) (i : SortItem) :
    Except Error (List SortItem) :=
  rule.mapM fun e : SortEmission =>
    SortItem.build e.column (e.direction.getD i.direction.word)

/-! ### Entries -/

namespace CastOptions

/-- A word that may be missing, and otherwise has to name something exactly. -/
def optionalWord {α : Type} (ofWord? : String → Option α) :
    Option String → Except Error (Option α)
  | none => .ok none
  | some w => (wordOf ofWord? w).map some

/-- Moves the conditions on a column; source, destination and operator are checked in this order. A
change that is given here always has a value. -/
def map (o : CastOptions) (source destination : ColumnArg) (change : Option (String → Value))
    (operator : Option String) : Except Error CastOptions := do
  let path ← source.resolve
  let target ← destination.resolve
  let operator ← optionalWord Operator.ofWord? operator
  .ok (o.withFilter path (.moved target (change.map fun f text => .ok (f text)) operator))

/-- Moves the sort items on a column; source, destination and direction are checked in this
order. -/
def mapSort (o : CastOptions) (source destination : ColumnArg) (direction : Option String) :
    Except Error CastOptions := do
  let path ← source.resolve
  let target ← destination.resolve
  let direction ← optionalWord Direction.ofWord? direction
  .ok (o.withSort path (.moved target direction))

/-- Replaces the conditions on a column by what a rule gives. -/
def replace (o : CastOptions) (source : ColumnArg) (rule : List FilterEmission) :
    Except Error CastOptions :=
  source.resolve.map fun path => o.withFilter path (.replaced (FilterEmission.applyAll rule))

/-- Replaces the sort items on a column by what a rule gives. -/
def replaceSort (o : CastOptions) (source : ColumnArg) (rule : List SortEmission) :
    Except Error CastOptions :=
  source.resolve.map fun path => o.withSort path (.replaced (SortEmission.applyAll rule))

/-- Drops the conditions and sort items on columns. -/
def excludeAll (o : CastOptions) (columns : List ColumnArg) : Except Error CastOptions :=
  (columns.mapM ColumnArg.resolve).map o.exclude

end CastOptions
end RecordQuery
