import RecordQuery.Filter

/-!
# Filters as data

A filter in the form of nested mappings, as it is stored or sent. A leaf has the keys `op`,
`column` and `value`, a combinator `op` and `conditions`, and a quantifier also `column`. Columns
are full paths.

* `Filter.toData` is the data of a filter, `Filter.ofData` the filter of some data.

Reading is lenient about values: whatever is given as an operator or as a value is taken by its
plain text, if it has one.
-/

namespace RecordQuery.Filter

open Text

mutual

/-- The data of a filter. -/
def toData : Filter → Value
  | leaf c o v =>
    .map [("op", .text o.word), ("column", .text c.text), ("value", v.value)]
  | group k cs => .map [("op", .text k.word), ("conditions", .list (toDataAll cs))]
  | quantified q c cs =>
    .map [("op", .text q.word), ("conditions", .list (toDataAll cs)), ("column", .text c.text)]
termination_by structural f => f

/-- The data of several filters. -/
def toDataAll : List Filter → List Value
  | [] => []
  | f :: fs => toData f :: toDataAll fs
termination_by structural fs => fs

end

/-- The column that some data gives. -/
def columnOfData : Value → ColumnArg
  | .text s => .text s
  | _ => .other

/-- The plain text of the value under a key, or nothing. -/
def textUnder (key : String) (entries : List (String × Value)) : Except Error String :=
  match entries.lookup key with
  | some v => liftFault v.plainShown
  | none => .ok ""

/-- The operator word of some data: its plain text in lower case. -/
def operatorText (entries : List (String × Value)) : Except Error String :=
  (textUnder "op" entries).map fun text => String.ofList (lower text.toList)

/-- The leaf of some data, for an operator. The value is taken before the column is read. -/
def leafOfData (operator : Operator) (entries : List (String × Value)) : Except Error Filter :=
  match entries.lookup "column" with
  | none => do
    let shown ← liftFault (Value.map entries).shown
    .error (.grammar (.columnMissing shown) none none)
  | some column => do
    let text ← textUnder "value" entries
    let path ← (columnOfData column).resolve
    .ok (leaf path operator (.plain text))

/-- The filter with a combinator and qualified conditions, and the column that some data gives. -/
def combine (operator : Combinator) (entries : List (String × Value)) (children : List Filter) :
    Except Error Filter := do
  let given := match entries.lookup "column" with
    | none | some .null => none
    | some v => some (columnOfData v)
  let column ← NodeArgs.checkedColumn operator given
  ofQualified operator column children

mutual

/-- The filter that some data describes. -/
def ofData : Value → Except Error Filter
  | .map entries =>
    (operatorText entries).bind fun word =>
      match Combinator.ofToken? word with
      | some k => (conditionsIn entries).bind (combine k entries)
      | none =>
        match Operator.ofToken? word with
        | some o => leafOfData o entries
        | none => .error (.grammar (.unknownOperator word) none none)
  | v => .error (.grammar (.notAMapping v.typeName) none none)
termination_by structural v => v

/-- The conditions among the entries of a mapping. -/
def conditionsIn : List (String × Value) → Except Error (List Filter)
  | [] => .ok []
  | (k, v) :: rest => if k = "conditions" then conditionsOf v else conditionsIn rest
termination_by structural entries => entries

/-- The conditions that a value holds. -/
def conditionsOf : Value → Except Error (List Filter)
  | .list vs => ofDataAll vs
  | v => if v.isVoid then .ok [] else .error (.grammar .conditionsNotList none none)
termination_by structural v => v

/-- The filters that several pieces of data describe. -/
def ofDataAll : List Value → Except Error (List Filter)
  | [] => .ok []
  | v :: vs => do
    let f ← ofData v
    let fs ← ofDataAll vs
    .ok (f :: fs)
termination_by structural vs => vs

end

end RecordQuery.Filter
