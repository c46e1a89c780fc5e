import RecordQuery.Criteria
import RecordQuery.Sort.Key
import RecordQuery.Sql.Filter

/-!
# Queries

A query for the keys of the rows of a mapped type that satisfy criteria, in their order.

* `Select` is the query as data, `Select.render` its text;
* `Select.sortedBy` adds a sort list, `Select.satisfying` criteria.

To sort by a member of a related row, the related table is joined once for every prefix of a path
that leads to it, in such a way that rows without a related row stay. A joined table is known by its
place among the joins. It gets a name, `Select.aliases`, when the query is written.
-/

namespace RecordQuery.Sql

open RecordQuery

/-- Where a query takes a column from: a table under its own name, or one of the joined tables, by
its place. -/
inductive Source where
  | table (name : String)
  | join (place : Nat)
  deriving DecidableEq, Repr

/-- A table that is joined: the names of the members that lead to it, the table, and the columns
that are equal: its own, and that of the source which the last member belongs to. -/
structure Join where
  path : List String
  table : String
  label : String
  parent : Source
  parentLabel : String
  deriving DecidableEq, Repr

/-- A column to sort by. -/
structure OrderTerm where
  source : Source
  label : String
  direction : Direction
  deriving DecidableEq

/-- A query for the keys of rows. -/
structure Select where
  key : ColumnRef
  joins : List Join
  condition : Option Clause
  order : List OrderTerm

namespace Select

/-- The query for all rows of a mapped type. -/
def all (s : Schema) (type : TypeExpr) : Except Error Select :=
  match type with
  | .named name =>
    match s.table? name with
    | some t =>
      match t.column? Table.keyMember with
      | some c => .ok ⟨⟨t.name, c.label, true⟩, [], none, []⟩
      | none => .error (.fault .missingMember)
    | none => .error (.fault .missingMember)
  | _ => .error (.fault .missingMember)

/-! ### Sorting -/

/-- What a sort list adds to a query that has so many joins already. -/
structure Added where
  joins : List Join
  order : List OrderTerm

/-- Where the columns are that some members lead to: in the table that is joined for them, after so
many earlier joins; else in their own one. -/
def sourceAt (earlier : Nat) (joins : List Join) (own : String) (path : List String) : Source :=
  match joins.findIdx? fun j => j.path == path with
  | some n => .join (earlier + n)
  | none => .table own

/-- The joins with that of the table which a relation leads to, unless it is there already. -/
def joining (earlier : Nat) (path : List String) (member : String) (link : RowLink)
    (joins : List Join) : List Join :=
  let target := path ++ [member]
  if joins.any fun j => j.path == target then joins
  else
    joins ++ [⟨target, link.target, link.targetLabel, sourceAt earlier joins link.owner path,
      link.ownerLabel⟩]

/-- The joins with those of all tables that the hops of a path lead to. -/
def joiningAll (s : Schema) (earlier : Nat) (c : ResolvedColumn) :
    List String → List Hop → List Join → Except Error (List Join)
  | _, [], joins => .ok joins
  | path, hop :: rest, joins => do
    let link ← s.requireLink c hop
    joiningAll s earlier c (path ++ [hop.name]) rest (joining earlier path hop.name link joins)

/-- The column that an attribute sorts by. -/
def sortColumn : Attribute → Except Fault ColumnRef
  | .column ref _ => .ok ref
  | .one _ | .many => .error .notImplemented
  | .fixed _ | .computed => .error .missingMember

/-- What is added with one more item to sort by: the joins on the way to its column, and the
column. -/
def sortingBy (s : Schema) (options : Options) (type : TypeExpr) (earlier : Nat) (added : Added)
    (i : SortItem) : Except Error Added := do
  let column ← s.resolve options.fallback type i.column
  let column ← i.checked column
  let joins ← joiningAll s earlier column [] column.leading added.joins
  let member ← s.attributeAt column.terminal
  let ref ← liftFault (sortColumn member)
  let source := sourceAt earlier joins ref.table (column.leading.map Hop.name)
  .ok ⟨joins, added.order ++ [⟨source, ref.label, i.direction⟩]⟩

/-- The query in the order of a sort list. What is joined for the list is joined anew. -/
def sortedBy (s : Schema) (options : Options) (type : TypeExpr) (q : Select)
    (items : List SortItem) : Except Error Select := do
  let added ← items.foldlM (sortingBy s options type q.joins.length) ⟨[], []⟩
  .ok { q with joins := q.joins ++ added.joins, order := q.order ++ added.order }

/-! ### Criteria -/

/-- The query for the rows that satisfy criteria, in their order. -/
def satisfying (s : Schema) (options : Options) (registry : Registry ClauseStrategy)
    (type : TypeExpr) (q : Select) (criteria : Criteria) : Except Error Select := do
  let filtered ←
    if criteria.filters.isEmpty then .ok q
    else do
      let clause ← compileClause s options registry type criteria.filters
      .ok { q with condition := some clause.asPart.settle }
  filtered.sortedBy s options type criteria.sorting

/-! ### Text -/

/-- The names of the joined tables: each has the name of its table and a number, in which the joins
of one table are counted. -/
def aliases (q : Select) : List String :=
  q.joins.mapIdx fun n j =>
    j.table ++ "_" ++ toString ((q.joins.take n).countP (fun k => k.table == j.table) + 1)

/-- The name of a source. -/
def sourceName (q : Select) : Source → String
  | .table name => name
  | .join place => q.aliases[place]?.getD ""

/-- The text of a column of a source. -/
def columnText (q : Select) (source : Source) (label : String) : String :=
  nameText (q.sourceName source) ++ "." ++ nameText label

/-- The text of a join, under the name that the joined table gets. -/
def joinText (q : Select) (j : Join) (name : String) : String :=
  " LEFT OUTER JOIN " ++ nameText j.table ++ " AS " ++ nameText name ++ " ON " ++ nameText name ++
    "." ++ nameText j.label ++ " = " ++ q.columnText j.parent j.parentLabel

/-- The text of a column to sort by. -/
def orderText (q : Select) (o : OrderTerm) : String :=
  q.columnText o.source o.label ++ (match o.direction with | .asc => " ASC" | .desc => " DESC")

/-- The text of a query whose values all have literal forms. -/
def text (q : Select) : String :=
  let condition := match q.condition with
    | some c => " WHERE " ++ c.text [q.key.table]
    | none => ""
  let order :=
    if q.order.isEmpty then "" else " ORDER BY " ++ Text.join ", " (q.order.map q.orderText)
  oneLine ("SELECT " ++ q.key.text ++ " FROM " ++ nameText q.key.table ++
    String.join (q.joins.zipWith q.joinText q.aliases) ++ condition ++ order)

/-- The text of a query. -/
def render (q : Select) : Except Error String :=
  if q.condition.all Clause.isWritable then .ok q.text else .error (.fault .noLiteral)

end Select
end RecordQuery.Sql
