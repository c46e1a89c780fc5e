import RecordQuery.Criteria
import RecordQuery.Schema.Resolve

/-!
# Casting criteria

Criteria that are written for one record shape, changed to fit another. A table says what becomes of
the conditions and sort items on a column; a column without an entry is passed through, and its
name is looked up on the destination type if there is one.

* `CastOptions` is the table, with `FilterMapping` and `SortMapping` as its entries;
* `CastOptions.unmappedFilters` and `CastOptions.unmappedSorting` list the columns without an
  entry;
* `castFilters`, `castSorting` and `castCriteria` apply a table.

The conditions of a quantified filter move with it: below a collection that becomes another one,
columns are passed through relative to the two collections.
-/

namespace RecordQuery

/-- What becomes of a condition on a column: it moves to another column, perhaps with another value
or operator, or a rule gives the filters that take its place. A change of the value may fail. -/
inductive FilterMapping where
  | moved (destination : ColumnPath) (change : Option (String → Except Error Value))
    (operator : Option Operator)
  | replaced (rule : Filter → Except Error (List Filter))

/-- What becomes of a sort item on a column. -/
inductive SortMapping where
  | moved (destination : ColumnPath) (direction : Option Direction)
  | replaced (rule : SortItem → Except Error (List SortItem))

/-- A table of what becomes of columns, under their keys, and what is done about columns that are
not in it: they can be dropped, or refused. -/
structure CastOptions where
  filters : List (String × FilterMapping)
  sorting : List (String × SortMapping)
  excluded : List String
  dropsUnmapped : Bool
  refusesUnmapped : Bool
  fallback : Bool

namespace CastOptions

/-- The table without entries. -/
def empty : CastOptions := ⟨[], [], [], false, false, false⟩

instance : Inhabited CastOptions := ⟨empty⟩

/-! ### Entries -/

/-- The table with an entry for the conditions on a column, instead of any other one. -/
def withFilter (o : CastOptions) (source : ColumnPath) (m : FilterMapping) : CastOptions :=
  { o with filters := (source.key, m) :: o.filters }

/-- The table with an entry for the sort items on a column, instead of any other one. -/
def withSort (o : CastOptions) (source : ColumnPath) (m : SortMapping) : CastOptions :=
  { o with sorting := (source.key, m) :: o.sorting }

/-- The table with columns whose conditions and sort items are dropped. -/
def exclude (o : CastOptions) (columns : List ColumnPath) : CastOptions :=
  { o with excluded := o.excluded ++ columns.map ColumnPath.key }

/-- The entry for the conditions on a column. -/
def filterMapping? (o : CastOptions) (column : ColumnPath) : Option FilterMapping :=
  o.filters.lookup column.key

/-- The entry for the sort items on a column. -/
def sortMapping? (o : CastOptions) (column : ColumnPath) : Option SortMapping :=
  o.sorting.lookup column.key

/-- Whether the conditions and sort items on a column are dropped. -/
def isExcluded (o : CastOptions) (column : ColumnPath) : Bool := o.excluded.contains column.key

/-- Whether the table says what becomes of the conditions on a column. -/
def mapsFilter (o : CastOptions) (column : ColumnPath) : Bool :=
  (o.filterMapping? column).isSome || o.isExcluded column

/-- Whether the table says what becomes of the sort items on a column. -/
def mapsSort (o : CastOptions) (column : ColumnPath) : Bool :=
  (o.sortMapping? column).isSome || o.isExcluded column

/-! ### Columns without an entry -/

mutual

/-- The columns of a filter without an entry; below a quantifier with an entry none counts. -/
def unmapped (o : CastOptions) (covered : Bool) : Filter → List String
  | .leaf c _ _ => if covered || o.mapsFilter c then [] else [c.text]
  | .group _ cs => unmappedAll o covered cs
  | .quantified _ c cs =>
    -- an entry for the quantifier covers all conditions below it
    let mapped := o.mapsFilter c
    (if covered || mapped then [] else [c.text]) ++ unmappedAll o (covered || mapped) cs
termination_by structural f => f

/-- The columns of several filters without an entry. -/
def unmappedAll (o : CastOptions) (covered : Bool) : List Filter → List String
  | [] => []
  | f :: fs => unmapped o covered f ++ unmappedAll o covered fs
termination_by structural fs => fs

end

/-- The columns of filters without an entry, from left to right. -/
def unmappedFilters (o : CastOptions) (filters : List Filter) : List String :=
  o.unmappedAll false filters

/-- The columns of sort items without an entry, in order. -/
def unmappedSorting (o : CastOptions) (items : List SortItem) : List String :=
  (items.filter fun i => !o.mapsSort i.column).map fun i => i.column.text

/-- The texts, each at its first place. -/
def distinctTexts : List String → List String
  | [] => []
  | t :: ts => t :: (distinctTexts ts).filter fun u => u != t

/-- Refuses columns without an entry, all of them at once, if the table says so. -/
def checkMapped (o : CastOptions) (columns : List String) : Except Error Unit :=
  if o.refusesUnmapped && !columns.isEmpty then .error (.unmapped (distinctTexts columns))
  else .ok ()

end CastOptions

/-! ### Filters -/

/-- A collection whose conditions are being cast: its column before and after, and the type of
its elements if it is known. -/
structure CastScope where
  source : ColumnPath
  target : ColumnPath
  element : Option TypeExpr

/-- The destination of a cast: its schema, its type if there is one, and the table. -/
structure Caster where
  schema : Schema
  destination : Option TypeExpr
  options : CastOptions

namespace Caster

/-- The type that the columns of a scope are looked up on. -/
def owner (c : Caster) : Option CastScope → Option TypeExpr
  | none => c.destination
  | some scope => scope.element

/-- The members that a path names on the destination, where the destination is known. -/
def lookUp (c : Caster) (owner : Option TypeExpr) (path : ColumnPath) :
    Except Error (Option ResolvedColumn) :=
  match owner with
  | none => .ok none
  | some type => (c.schema.resolve c.options.fallback type path).map some

/-- A path with the members' own names. -/
def respelt (c : Caster) (owner : Option TypeExpr) (path : ColumnPath) :
    Except Error ColumnPath := do
  match ← c.lookUp owner path with
  | none => .ok path
  | some column => ColumnPath.ofSegments column.memberNames

/-- The destination of a column without an entry. -/
def passThrough (c : Caster) (scope : Option CastScope) (column : ColumnPath) :
    Except Error ColumnPath :=
  match scope with
  | none => c.respelt (c.owner scope) column
  | some s => do
    -- the path below the old collection is looked up on the elements of the new one
    let relative ← column.relativeTo s.source
    let respelt ← c.respelt (c.owner scope) relative
    .ok (s.target ++ respelt)

/-- The type of the elements of a collection at the destination. -/
def elementType (c : Caster) (scope : Option CastScope) (target : ColumnPath) :
    Except Error (Option TypeExpr) :=
  match c.owner scope with
  | none => .ok none
  | some type => do
    let relative ← match scope with
      | none => .ok target
      | some s => target.relativeTo s.target
    let column ← c.schema.resolve c.options.fallback type relative
    .ok column.element?

/-- Whether an item without an entry is dropped. Below a quantifier it never is. -/
def drops (c : Caster) (scope : Option CastScope) : Bool :=
  scope.isNone && c.options.dropsUnmapped

/-- The filters that take the place of a leaf. -/
def castLeaf (c : Caster) (scope : Option CastScope) (column : ColumnPath) (operator : Operator)
    (value : RawText) : Except Error (List Filter) :=
  if c.options.isExcluded column then .ok []
  else
    match c.options.filterMapping? column with
    | some (.replaced rule) => rule (.leaf column operator value)
    | some (.moved destination change replacement) => do
      -- the change sees the raw text, and has to give a text again
      let value ← match change with
        | none => .ok value
        | some f => f value.text >>= rawText
      .ok [.leaf destination (replacement.getD operator) value]
    | none =>
      if c.drops scope then .ok []
      else do
        let column ← c.passThrough scope column
        .ok [.leaf column operator value]

/-- What becomes of a quantified filter: nothing, what a rule gives, or a filter over another
collection, whose conditions are cast in its scope. -/
inductive QuantifierCast where
  | dropped
  | replaced (filters : List Filter)
  | moved (scope : CastScope)

/-- What becomes of a filter that is quantified over a column. -/
def castColumn (c : Caster) (scope : Option CastScope) (q : Quantifier) (column : ColumnPath)
    (children : List Filter) : Except Error QuantifierCast :=
  let into (target : ColumnPath) : Except Error QuantifierCast :=
    (c.elementType scope target).map fun element => .moved ⟨column, target, element⟩
  if c.options.isExcluded column then .ok .dropped
  else
    match c.options.filterMapping? column with
    | some (.replaced rule) => (rule (.quantified q column children)).map .replaced
    | some (.moved destination _ _) => into destination
    | none => if c.drops scope then .ok .dropped else (c.passThrough scope column).bind into

mutual

/-- The filters that take the place of a filter. A group or a quantified filter of which nothing is
left is dropped. -/
def cast (c : Caster) (scope : Option CastScope) : Filter → Except Error (List Filter)
  | .leaf column operator value => c.castLeaf scope column operator value
  | .group k children => do
    let children ← castAll c scope children
    .ok (if children.isEmpty then [] else [.group k children])
  | .quantified q column children => do
    match ← c.castColumn scope q column children with
    | .dropped => .ok []
    | .replaced filters => .ok filters
    | .moved inner =>
      let children ← castAll c (some inner) children
      if children.isEmpty then .ok []
      -- an entry may have moved a condition out of the collection, which is an error here
      else (Filter.ofQualified (.quantifier q) (some inner.target) children).map fun f => [f]
termination_by structural f => f

/-- The filters that take the place of several filters, from left to right. -/
def castAll (c : Caster) (scope : Option CastScope) : List Filter → Except Error (List Filter)
  | [] => .ok []
  | f :: fs => do
    -- from left to right, since a rule may fail
    let first ← cast c scope f
    let rest ← castAll c scope fs
    .ok (first ++ rest)
termination_by structural fs => fs

end

/-! ### Sort lists -/

/-- The items that take the place of a sort item. -/
def castItem (c : Caster) (i : SortItem) : Except Error (List SortItem) :=
  if c.options.isExcluded i.column then .ok []
  else
    match c.options.sortMapping? i.column with
    | some (.replaced rule) => rule i
    | some (.moved destination direction) => .ok [⟨destination, direction.getD i.direction⟩]
    | none =>
      if c.options.dropsUnmapped then .ok []
      else do
        let column ← c.respelt c.destination i.column
        .ok [⟨column, i.direction⟩]

/-- The items that take the place of several, in order. -/
def castItems (c : Caster) (items : List SortItem) : Except Error (List SortItem) :=
  (items.mapM c.castItem).map List.flatten

end Caster

/-- Filters for another record shape. Columns without an entry are refused before anything is
cast. -/
def castFilters (c : Caster) (filters : List Filter) : Except Error (List Filter) := do
  c.options.checkMapped (c.options.unmappedFilters filters)
  c.castAll none filters

/-- What is made of parts that all have to be filters, by a cast with a table. A table that refuses
columns without an entry looks at all parts before any of them is cast. -/
def CastOptions.withFilters {α : Type} (o : CastOptions) (parts : List NodePart)
    (make : List Filter → Except Error α) : Except Error α :=
  if o.refusesUnmapped && parts.any (fun p => p.node?.isNone) then .error (.fault .missingMember)
  else NodePart.withFilters parts make

/-- A sort list for another record shape. -/
def castSorting (c : Caster) (items : List SortItem) : Except Error (List SortItem) := do
  c.options.checkMapped (c.options.unmappedSorting items)
  c.castItems items

/-- Criteria for another record shape. One error lists the columns without an entry of the filters
and of the sort list. -/
def castCriteria (c : Caster) (criteria : Criteria) : Except Error Criteria := do
  c.options.checkMapped
    (c.options.unmappedFilters criteria.filters ++ c.options.unmappedSorting criteria.sorting)
  let filters ← c.castAll none criteria.filters
  let sorting ← c.castItems criteria.sorting
  .ok ⟨filters, sorting⟩

end RecordQuery
