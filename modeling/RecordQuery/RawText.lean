import RecordQuery.Value.Text

/-!
# Raw texts

The text of a condition before it is read as a value of the column's type. It is a text as it is,
or that of a member of an enumeration whose members are texts; such a member is compared, cut and
read by its text, and keeps its name where it is shown.

* `RawText` is the type; `RawText.text` is what it says, and `RawText.formText` how it stands in the
  text of a filter.
-/

namespace RecordQuery

/-- A raw text. -/
inductive RawText where
  | plain (text : String)
  | member (owner name text : String)
  deriving DecidableEq, Repr

namespace RawText

instance : Inhabited RawText := ⟨plain ""⟩

/-- What the raw text says. -/
def text : RawText → String
  | plain s => s
  | member _ _ s => s

/-- The raw text as a value. -/
def value : RawText → Value
  | plain s => .text s
  | member owner name s => .member .text owner name (.text s)

/-- The raw text inside the text of a filter, where a member of an enumeration stands with its
name. -/
def formText (r : RawText) : String := r.value.plain

/-- The value as a raw text, if it is a text. -/
def ofValue? : Value → Option RawText
  | .text s => some (plain s)
  | .member .text owner name (.text s) => some (member owner name s)
  | _ => none

@[simp] theorem ofValue?_value (r : RawText) : ofValue? r.value = some r := by
  cases r <;> rfl

@[simp] theorem formText_plain (s : String) : (plain s).formText = s := by
  simp [formText, value, Value.plain]

end RawText
end RecordQuery
