import RecordQuery.Builder.Handle
import RecordQuery.Criteria

/-!
# Building criteria step by step

A builder collects conditions and sort items. Groups are opened and closed like brackets; the
conditions between them belong to the group, and those of one level all have to hold.

* `CriteriaBuilder` is the state, with the open groups from the innermost one on;
* each step gives the builder after it, and the error if the step failed;
* `CriteriaBuilder.build` gives the criteria when all groups are closed.

A group that is closed without conditions is an error, and the group is closed all the same.
-/

namespace RecordQuery

/-- An open group with the conditions so far. -/
structure OpenGroup where
  operator : Combinator
  column : Option ColumnPath
  filters : List Filter

/-- What has been collected, and the open groups, the innermost first. -/
structure CriteriaBuilder where
  filters : List Filter
  sorting : List SortItem
  groups : List OpenGroup

/-- The target of a condition: a filter, or a column. -/
inductive Target where
  | filter (f : Filter)
  | column (c : ColumnArg)

namespace CriteriaBuilder

/-- The builder without conditions. -/
def empty : CriteriaBuilder := ⟨[], [], []⟩

instance : Inhabited CriteriaBuilder := ⟨empty⟩

/-- The builder with a condition at the end of the innermost group. -/
def add (b : CriteriaBuilder) (f : Filter) : CriteriaBuilder :=
  match b.groups with
  | [] => { b with filters := b.filters ++ [f] }
  | g :: gs => { b with groups := { g with filters := g.filters ++ [f] } :: gs }

/-- A step that leaves the builder as it is when it fails. -/
def attempt (b : CriteriaBuilder) (step : Except Error CriteriaBuilder) :
    Option Error × CriteriaBuilder :=
  match step with
  | .ok b => (none, b)
  | .error e => (some e, b)

/-- The condition that a column, an operator word and a value state. -/
def leafOf (c : ColumnArg) (operator : Option String) (v : Value) : Except Error Filter := do
  let o ← match operator with
    | none => .ok Operator.eq
    | some w => wordOf Operator.ofWord? w
  let raw ← Handle.rawOf v
  let path ← c.resolve
  .ok (.leaf path o raw)

/-- Adds a condition. -/
def withFilter (b : CriteriaBuilder) (target : Target) (operator : Option String) (v : Value) :
    Option Error × CriteriaBuilder :=
  b.attempt <|
    match target with
    | .filter f => .ok (b.add f)
    | .column c => (leafOf c operator v).map b.add

/-- Opens a group. -/
def openGroup (b : CriteriaBuilder) (k : Connective) : CriteriaBuilder :=
  { b with groups := ⟨.connective k, none, []⟩ :: b.groups }

/-- Opens a group whose conditions are about the elements of a column. -/
def openQuantifier (b : CriteriaBuilder) (q : Quantifier) (c : ColumnArg) :
    Option Error × CriteriaBuilder :=
  b.attempt <| c.resolve.map fun path =>
    { b with groups := ⟨.quantifier q, some path, []⟩ :: b.groups }

/-- Closes the innermost group and adds it to the one around it. -/
def closeGroup (b : CriteriaBuilder) : Option Error × CriteriaBuilder :=
  match b.groups with
  | [] => (some (.misuse .noOpenGroup), b)
  | g :: gs =>
    let rest := { b with groups := gs }
    if g.filters.isEmpty then (some (.misuse .emptyGroup), rest)
    else rest.attempt ((Filter.compose g.operator g.column g.filters).map rest.add)

/-- Adds a sort item. -/
def orderBy (b : CriteriaBuilder) (c : ColumnArg) (direction : String) :
    Option Error × CriteriaBuilder :=
  b.attempt do
    let d ← wordOf Direction.ofWord? direction
    let path ← c.resolve
    .ok { b with sorting := b.sorting ++ [⟨path, d⟩] }

/-- Adds a sort item that is built already. -/
def orderByItem (b : CriteriaBuilder) (i : SortItem) : CriteriaBuilder :=
  { b with sorting := b.sorting ++ [i] }

/-- The criteria, when no group is open. -/
def build (b : CriteriaBuilder) : Except Error Criteria :=
  if b.groups.isEmpty then .ok ⟨b.filters, b.sorting⟩
  else .error (.misuse (.openGroups b.groups.length))

end CriteriaBuilder
end RecordQuery
