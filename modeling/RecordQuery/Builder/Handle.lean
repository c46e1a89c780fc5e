import RecordQuery.Filter.Grammar
import RecordQuery.Schema.Resolve
import RecordQuery.Sort
import RecordQuery.Value.Written

/-!
# Column handles

Handles on columns, from which conditions are built in code. A handle on a column of a known type is
resolved when it is made, so a misspelt member is found at once.

* `Handle` is a column with the type that it is a column of, if that is known;
* `Cursor` is a place reached from a type by names: a set of columns, one of them, its path, or
  something of a handle that is no column;
* `Handle.test` and `Handle.among` make leaves, `Handle.quantify` a quantified filter.

The names that a handle has for itself hide the columns of these names, which are reached as items.
-/

namespace RecordQuery

/-- A column, and the record type that it is looked up on. -/
structure Handle where
  path : ColumnPath
  type : Option TypeExpr

/-- A set of columns of a type, which may be unknown, one column, its path, or something else. -/
inductive Cursor where
  | columns (type : Option TypeExpr)
  | column (h : Handle)
  | path (p : ColumnPath)
  | other

namespace Handle

/-- The handle on a path; on a known type the path has to resolve. -/
def ofPath (s : Schema) (type : Option TypeExpr) (path : ColumnPath) : Except Error Handle :=
  match type with
  | none => .ok ⟨path, none⟩
  | some t => do
    let _ ← s.resolve false t path
    .ok ⟨path, some t⟩

/-- The handle on a path below a column. -/
def child (s : Schema) (h : Handle) (name : String) : Except Error Handle := do
  ofPath s h.type (h.path ++ (← ColumnPath.parse name))

/-- The columns of an element of a collection column. -/
def each (s : Schema) (h : Handle) : Except Error Cursor :=
  match h.type with
  | none => .ok (.columns none)
  | some t => do
    let column ← s.resolve false t h.path
    match column.element? with
    | some e => .ok (.columns (some e))
    | none => .error (.misuse (.noCollection h.path.text))

/-- The way a handle is shown. -/
def display (h : Handle) : String := "Column(" ++ Text.quoted h.path.text ++ ")"

/-! ### Conditions -/

/-- The raw text of a value, which has to balance its parentheses. -/
def rawOf (v : Value) : Except Error RawText :=
  match v.written with
  | .ok s => checkValue s
  | .error fault => .error (.fault fault)

/-- The leaf that tests the column against a value. -/
def test (h : Handle) (operator : Operator) (v : Value) : Except Error Filter :=
  (rawOf v).map fun raw => .leaf h.path operator raw

/-- The values of a membership test: several values, or the elements of a single collection. -/
def spread : List Value → List Value
  | [.list xs] | [.tuple xs] | [.set xs] | [.frozenSet xs] => xs
  | vs => vs

/-- The leaf that tests whether the column is one of some values. -/
def among (h : Handle) (vs : List Value) : Except Error Filter := h.test .isIn (.list (spread vs))

end Handle

/-- A group or a quantified filter of at least one condition. -/
def composeAll (operator : Combinator) (parts : List NodePart) (column : Option ColumnPath) :
    Except Error Filter :=
  if parts.isEmpty then .error (.grammar (.conditionRequired operator.word) none none)
  else do Filter.compose operator column (← NodePart.filters parts)

/-- The filter that ranges over the elements of a handle's column. -/
def Handle.quantify (h : Handle) (q : Quantifier) (parts : List NodePart) : Except Error Filter :=
  composeAll (.quantifier q) parts (some h.path)

/-- The sort item of a handle's column. -/
def Handle.sortItem (h : Handle) (d : Direction) : SortItem := ⟨h.path, d⟩

namespace Cursor

/-- The column of a name below a cursor. -/
def item (s : Schema) (c : Cursor) (name : String) : Except Error Cursor :=
  match c with
  | columns t => do
    let path ← ColumnPath.parse name
    (Handle.ofPath s t path).map column
  | column h => (h.child s name).map column
  | path _ | other => .error (.fault .unsupported)

/-- The hidden names that every handle and every set of columns has for itself. -/
def hiddenNames : List String :=
  ["_record_type", "__class__", "__delattr__", "__dir__", "__doc__", "__eq__", "__format__",
    "__ge__", "__getattr__", "__getattribute__", "__getitem__", "__getstate__", "__gt__",
    "__hash__", "__init__", "__init_subclass__", "__le__", "__lt__", "__module__", "__ne__",
    "__new__", "__reduce__", "__reduce_ex__", "__repr__", "__setattr__", "__sizeof__",
    "__slots__", "__str__", "__subclasshook__"]

/-- The names of what can be done with a handle. -/
def handleNames : List String :=
  ["record_type", "child", "eq", "neq", "gt", "gte", "lt", "lte", "contains", "not_contains",
    "starts_with", "ends_with", "in_", "any", "all", "asc", "desc", "_leaf"]

/-- The names of what can be done with a path. -/
def pathNames : List String := ["segments", "key", "parse", "join", "has_prefix", "relative_to"]

/-- What a handle has under a name for itself, if it has it. -/
def ownMember? (s : Schema) (h : Handle) (name : String) : Option (Except Error Cursor) :=
  if name = "each" then some (h.each s)
  else if name = "path" ∨ name = "_path" then some (.ok (path h.path))
  else if handleNames.contains name || hiddenNames.contains name then some (.ok other)
  else none

/-- What a cursor has under a name: something of its own, or the column of this name. Names that
begin with an underscore are those of no column. -/
def member (s : Schema) (c : Cursor) (name : String) : Except Error Cursor :=
  let named (own : Option (Except Error Cursor)) : Except Error Cursor :=
    match own with
    | some found => found
    | none => if isHidden name then .error (.misuse (.hiddenName name)) else c.item s name
  match c with
  | columns _ => named (if hiddenNames.contains name then some (.ok other) else none)
  | column h => named (ownMember? s h name)
  | path _ => if pathNames.contains name then .ok other else .error (.fault .missingMember)
  | other => .error (.fault .missingMember)

/-- The error of using a set of columns as a column: what is asked of it, name after name, is taken
for the names of columns, which then cannot be used either. -/
def misused (s : Schema) (type : Option TypeExpr) (asked : List String) : Error :=
  match asked.foldlM (fun c name => c.member s name) (columns type) with
  | .error e => e
  | .ok _ => .fault .unsupported

/-- The handle that a cursor is, where some names are asked of it. -/
def handle (s : Schema) (asked : List String) : Cursor → Except Error Handle
  | column h => .ok h
  | columns t => .error (misused s t asked)
  | path _ | other => .error (.fault .missingMember)

/-- The cursor in the place of a column, where some names are asked of a set of columns. -/
def argument (s : Schema) (asked : List String) : Cursor → ColumnArg
  | column h => .path h.path
  | path p => .path p
  | columns t => .refused (misused s t asked)
  | other => .other

end Cursor
end RecordQuery
