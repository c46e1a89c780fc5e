import RecordQuery.Calendar.Interval
import RecordQuery.RawText

/-!
# Raw text of values

The raw text that stands for a value in a filter: what a reader of the column's type turns into the
value again.

* `Value.written` is the text. Truth values are small words, members of enumerations their names,
  members that are texts stand for themselves, and a collection is the texts of its elements between
  commas.
-/

namespace RecordQuery

open Text

namespace Value

/-- The raw text of a value that is no collection. -/
def writtenScalar : Value → Except Fault RawText
  | null => .ok (.plain "")
  | bool b => .ok (.plain (if b then "true" else "false"))
  | dateTime m => .ok (.plain (String.ofList m.render))
  | duration d => .ok (.plain (String.ofList d.writeInterval))
  | member .text owner name (text s) => .ok (.member owner name s)
  | member _ _ name _ => .ok (.plain name)
  | v => v.plainShown.map .plain

mutual

/-- The raw text of a value. -/
def written : Value → Except Fault RawText
  | list xs | tuple xs | set xs | frozenSet xs =>
    (writtenAll xs).map fun texts => .plain (join "," texts)
  | v => writtenScalar v
termination_by structural x => x

/-- The raw texts of several values. -/
def writtenAll : List Value → Except Fault (List String)
  | [] => .ok []
  | x :: xs => do
    let raw ← written x
    let texts ← writtenAll xs
    .ok (raw.text :: texts)
termination_by structural x => x

end

end Value
end RecordQuery
