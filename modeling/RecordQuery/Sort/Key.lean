import RecordQuery.Condition
import RecordQuery.Schema.Read
import RecordQuery.Sort
import RecordQuery.Sort.Stable
import RecordQuery.Value.Compare

/-!
# Sorting records

A sort list orders records by the values of its columns, the first column first. Null comes before
all values.

* `SortKey` is a resolved item of a sort list, `compileSorting` resolves a list;
* `SortKey.less` is the order of two values under a key;
* `applySorting` sorts records by the last key first, so that the first one decides.
-/

namespace RecordQuery

/-- A column to sort by, resolved. -/
structure SortKey where
  column : ResolvedColumn
  descending : Bool
  nullGuard : Bool

/-- Refuses a collection to sort by. -/
def SortItem.checked (i : SortItem) (column : ResolvedColumn) : Except Error ResolvedColumn :=
  if column.isCollection then
    .error (Schema.mismatch column i.direction.word .unsortable)
  else .ok column

/-- The keys of a sort list. -/
def compileSorting (s : Schema) (options : Options) (type : TypeExpr) (items : List SortItem) :
    Except Error (List SortKey) :=
  items.mapM fun i => do
    let column ← s.resolve options.fallback type i.column
    let column ← i.checked column
    .ok ⟨column, i.descending, options.nullGuard⟩

namespace SortKey

/-- Whether a value comes before another. Equal values do not, whether or not they have an
order. -/
def less : Value → Value → Except Fault Bool
  | .null, w => .ok !w.isNull
  | _, .null => .ok false
  | v, w => do if ← v.eq w then .ok false else v.orders .lt w

/-- The records with the values of the key's column. -/
def keyed {α : Type} (s : Schema) (key : SortKey) (record : α → Value) (items : List α) :
    Except Fault (List (Value × α)) :=
  items.mapM fun a => (s.read key.nullGuard key.column (record a)).map fun v => (v, a)

/-- The records in the order of one key. -/
def sort {α : Type} (s : Schema) (key : SortKey) (record : α → Value) (items : List α) :
    Except Fault (List α) := do
  let pairs ← keyed s key record items
  let before (p q : Value × α) : Except Fault Bool := less p.1 q.1
  let sorted ← if key.descending then stableSortDescending before pairs else stableSort before pairs
  .ok (sorted.map Prod.snd)

/-- The records in the order of several keys, the first of which decides. -/
def sortBy {α : Type} (s : Schema) (record : α → Value) : List SortKey → List α →
    Except Fault (List α)
  | [], items => .ok items
  -- each sort is stable, so the order of the later keys survives among equal values
  | key :: keys, items => do sort s key record (← sortBy s record keys items)

end SortKey

/-- The records in the order of a sort list. -/
def applySorting {α : Type} (s : Schema) (options : Options) (type : TypeExpr)
    (items : List SortItem) (record : α → Value) (records : List α) : Except Error (List α) := do
  let keys ← compileSorting s options type items
  liftFault (SortKey.sortBy s record keys records)

end RecordQuery
