import RecordQuery.Filter.Data
import RecordQuery.Filter.Grammar
import RecordQuery.Filter.Printer

/-!
# Sort lists

A sort list names the columns by which records are ordered, the primary one first, each with a
direction: `name:desc, age`.

* `SortItem` is one column with its direction;
* `SortItem.parseAll` reads a list, `SortItem.formatAll` writes one;
* `SortItem.toData` and `SortItem.ofData` convert to and from mappings.
-/

namespace RecordQuery

open Text

/-- A column to sort by. -/
structure SortItem where
  column : ColumnPath
  direction : Direction
  deriving DecidableEq

namespace SortItem

/-- Whether greater values come first. -/
def descending (i : SortItem) : Bool := i.direction == .desc

/-- The written form `column:direction`. -/
def text (i : SortItem) : String := i.column.text ++ ":" ++ i.direction.word

/-- The item of a column and a word that has to name a direction exactly. -/
def build (column : ColumnArg) (direction : String) : Except Error SortItem := do
  let path ← column.resolve
  let d ← wordOf Direction.ofWord? direction
  .ok ⟨path, d⟩

/-- Reads one item of a list; the direction is checked before the column, and is ascending if it is
not given. -/
def read (list item : List Char) : Except Error SortItem :=
  if item.isEmpty then .error (.inText .emptySortItem (String.ofList list))
  else
    match cut ':' item with
    | none => do
      let path ← ColumnPath.parse (String.ofList item)
      .ok ⟨path, .asc⟩
    | some (before, after) => do
      match Direction.ofToken? (String.ofList after) with
      | none =>
        .error (.inText (.unknownDirection (String.ofList (trim after))) (String.ofList item))
      | some d =>
        let path ← ColumnPath.parse (String.ofList before)
        .ok ⟨path, d⟩

/-- The items that a text denotes: none if it is blank, else those between its commas. -/
def parseAll (s : String) : Except Error (List SortItem) :=
  if isBlankText s then .ok []
  else do
    let parts ← splitArguments s.toList
    parts.mapM (read s.toList)

/-- The written form of a list. -/
def formatAll (items : List SortItem) : String := join argumentSeparator (items.map text)

/-- The data of an item. -/
def toData (i : SortItem) : Value :=
  .map [("column", .text i.column.text), ("direction", .text i.direction.word)]

/-- The item that some data describes. -/
def ofData : Value → Except Error SortItem
  | .map entries =>
    match entries.lookup "column" with
    | none => .error (.fault .missingKey)
    | some column => do
      let path ← (Filter.columnOfData column).resolve
      let word := (entries.lookup "direction").getD (.text "asc")
      match word with
      | .text s =>
        let d ← wordOf Direction.ofWord? s
        .ok ⟨path, d⟩
      | _ => .error (.fault .invalidValue)
  | _ => .error (.fault .unsupported)

end SortItem
end RecordQuery
