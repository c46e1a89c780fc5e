import RecordQuery.Value

/-!
# Plain data

What messages carry: null, truth values, numbers, texts, and lists and mappings of these.

* `Value.entry` and `Value.element` look into data; what is not there is null.
-/

namespace RecordQuery.Value

/-- The entry of a mapping under a key. -/
def entry (v : Value) (key : String) : Value :=
  match v with
  | map entries => (entries.lookup key).getD null
  | _ => null

/-- Whether a mapping has an entry under a key. -/
def hasEntry (v : Value) (key : String) : Bool :=
  match v with
  | map entries => (entries.lookup key).isSome
  | _ => false

/-- The elements of a list. -/
def elements : Value → List Value
  | list xs => xs
  | _ => []

/-- The element of a list at a place. -/
def element (v : Value) (place : Nat) : Value := v.elements.getD place null

/-- The text that data holds; anything else holds the empty text. -/
def textOrEmpty (v : Value) : String := v.asText?.getD ""

/-- Whether data says that something is so. -/
def isSet : Value → Bool
  | bool b => b
  | _ => false

end RecordQuery.Value
