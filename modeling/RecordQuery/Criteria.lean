import RecordQuery.Sort

/-!
# Criteria

The filters and the sort list of one query.

* `Criteria` is the pair; all its filters have to hold;
* `Criteria.parse`, `Criteria.ofParams` and `Criteria.ofData` read it from text, from the
  parameters of a request, and from mappings;
* `Criteria.conjoin`, `Criteria.merge` and `Criteria.sortedBy` derive other criteria from it.
-/

namespace RecordQuery

open Text

/-- The filters and the sort list of a query. -/
structure Criteria where
  filters : List Filter
  sorting : List SortItem
  deriving DecidableEq

namespace Criteria

/-- Neither filters nor sort items. -/
def empty : Criteria := ⟨[], []⟩

instance : Inhabited Criteria := ⟨empty⟩

/-- Whether there is neither a filter nor a sort item. -/
def isEmpty (c : Criteria) : Bool := c.filters.isEmpty && c.sorting.isEmpty

/-! ### Text -/

/-- The filters of a text that may be missing. -/
def parseFilters : Option String → Except Error (List Filter)
  | some s => Filter.parseAll s
  | none => .ok []

/-- The sort list of a text that may be missing. -/
def parseSorting : Option String → Except Error (List SortItem)
  | some s => SortItem.parseAll s
  | none => .ok []

/-- The criteria of a filter text and a sort text. -/
def parse (filterText sortText : Option String) : Except Error Criteria := do
  let filters ← parseFilters filterText
  let sorting ← parseSorting sortText
  .ok ⟨filters, sorting⟩

/-- The text of the filters. -/
def filterText (c : Criteria) : Except Error String := Filter.formatAll c.filters

/-- The text of the sort list. -/
def sortText (c : Criteria) : String := SortItem.formatAll c.sorting

/-- The two texts, quoted and labelled. -/
def text (c : Criteria) : Except Error String :=
  c.filterText.map fun t => "filter=" ++ quoted t ++ " sort=" ++ quoted c.sortText

/-! ### Parameters of a request -/

/-- The texts that a parameter gives: it may be missing, a text, or several values of which the
absent ones do not count. -/
def paramTexts : Option Value → Except Error (List String)
  | none | some .null => .ok []
  | some (.text s) => .ok [s]
  | some v =>
    match v.items? with
    | some items => .ok ((items.filter fun i => !i.isNull).map Value.plain)
    | none => .error (.fault .unsupported)

/-- The criteria of request parameters, under the keys of the filter and of the sort list. All
filters have to hold, and all sort lists follow one another. -/
def ofParams (params : List (String × Value)) (filterKey sortKey : String) :
    Except Error Criteria := do
  let filterTexts ← paramTexts (params.lookup filterKey)
  let filters ← filterTexts.mapM Filter.parseAll
  let sortTexts ← paramTexts (params.lookup sortKey)
  let sorting ← sortTexts.mapM SortItem.parseAll
  .ok ⟨filters.flatten, sorting.flatten⟩

/-! ### Data -/

/-- The criteria as mappings. -/
def toData (c : Criteria) : Value :=
  .map [("filters", .list (c.filters.map Filter.toData)),
    ("sorting", .list (c.sorting.map SortItem.toData))]

/-- The items under a key that may be missing. -/
def itemsUnder (key : String) (entries : List (String × Value)) : Except Error (List Value) :=
  match entries.lookup key with
  | none => .ok []
  | some v =>
    match v.items? with
    | some items => .ok items
    | none => .error (.fault .unsupported)

/-- The criteria that mappings describe. -/
def ofData : Value → Except Error Criteria
  | .map entries => do
    let filterItems ← itemsUnder "filters" entries
    let filters ← filterItems.mapM Filter.ofData
    let sortItems ← itemsUnder "sorting" entries
    let sorting ← sortItems.mapM SortItem.ofData
    .ok ⟨filters, sorting⟩
  | _ => .error (.fault .missingMember)

/-! ### Combination -/

/-- The criteria of some parts. A part that is no filter makes criteria of which nothing can be
told. -/
def ofParts (parts : List NodePart) (sorting : List SortItem) : Except Error Criteria :=
  match NodePart.filters parts with
  | .ok filters => .ok ⟨filters, sorting⟩
  | .error _ => .error (.fault .missingMember)

/-- The criteria with further filters. -/
def conjoin (c : Criteria) (parts : List NodePart) : Except Error Criteria :=
  (ofParts parts c.sorting).map fun d => { d with filters := c.filters ++ d.filters }

/-- The filters of both criteria, and the sort items of the first before those of the second. -/
def merge (c d : Criteria) : Criteria := ⟨c.filters ++ d.filters, c.sorting ++ d.sorting⟩

/-- The criteria with another sort list. -/
def sortedBy (c : Criteria) (sorting : List SortItem) : Criteria := { c with sorting }

end Criteria
end RecordQuery
