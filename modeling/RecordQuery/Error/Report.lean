import RecordQuery.Error
import RecordQuery.Value.Compare
import RecordQuery.Value.Data

/-!
# Reports

Query errors that a caller makes from parts of its own. The parts are data of any kind, which the
message shows as it can; parts that it cannot show make no report.

* `Report.make` is the report of a family of errors with some parts, in order or by name.
-/

namespace RecordQuery

open Text

/-- The families of query errors, and those of no special family. -/
inductive ErrorFamily where
  | grammar
  | resolution
  | coercion
  | mismatch
  | unmapped
  | general
  deriving DecidableEq, Repr

/-- The parts of an error of a family by name, and the number of those that it has to have. An error
of no special family has parts without names. -/
def ErrorFamily.parts : ErrorFamily → List String × Nat
  | grammar => (["message", "text", "position"], 1)
  | resolution => (["path", "segment", "type_name", "available", "reason", "cutoff"], 3)
  | coercion => (["raw", "type_name", "reason"], 2)
  | mismatch => (["operator", "type_name", "column", "reason"], 2)
  | unmapped => (["columns"], 1)
  | general => ([], 0)

/-- A query error as it is told: its message, and its parts as data. -/
structure Report where
  message : String
  data : Value

namespace Report

/-- The parts of a family in order: some are given in order and some by name, each once. -/
def bound (family : ErrorFamily) (given : List Value) (named : List (String × Value)) :
    Except Fault (List (Option Value)) :=
  let (names, required) := family.parts
  let free := names.drop given.length
  if names.length < given.length || named.any (fun p => !free.contains p.1) then
    .error .unsupported
  else
    let found := given.map some ++ free.map fun name => named.lookup name
    if (found.take required).all Option.isSome then .ok found else .error .unsupported

/-- A part that may be left out. -/
def part (found : List (Option Value)) (place : Nat) : Value := (found.getD place none).getD .null

/-- The plain form of a part that counts, or nothing. -/
def counting (v : Value) : Except Fault (Option String) :=
  if v.isVoid then .ok none else v.plainShown.map some

/-- The data of a report: the code of its family, and its parts by name. -/
def dataOf (code : String) (parts : List (String × Value)) : Value :=
  .map (("error", .text code) :: parts)

/-- A grammar error. A message that is a list has the further text added to it letter by letter. -/
def grammar (message text position : Value) : Except Fault Report := do
  let quote ← if text.isNull then .ok "" else text.shown.map (" in " ++ ·)
  let place ← if position.isNull then .ok "" else position.plainShown.map (" at position " ++ ·)
  let letters := (quote ++ place).toList.map fun c => Value.text (String.ofList [c])
  let whole ← match message with
    | .text s => .ok (.text (s ++ quote ++ place))
    | .list xs => .ok (.list (xs ++ letters))
    | v => if text.isNull && position.isNull then .ok v else .error .unsupported
  let stated := match message with
    | .list _ => whole
    | v => v
  .ok ⟨← whole.plainShown, dataOf "GRAMMAR_ERROR"
    [("message", stated), ("text", text), ("position", position)]⟩

/-- Whether each of some values can be sorted between those before it. -/
def areOrdered : List Value → Bool
  | v :: w :: rest => (w.orders .lt v).toOption.isSome && areOrdered (w :: rest)
  | _ => true

/-- The texts that some values are, where they are texts all. -/
def texts (vs : List Value) : Except Fault (List String) :=
  match vs.mapM Value.asText? with
  | some ts => .ok ts
  | none => .error .unsupported

/-- The parts of a value that has to be gone through. -/
def items (v : Value) : Except Fault (List Value) :=
  match v.items? with
  | some xs => .ok xs
  | none => .error .unsupported

/-- The cutoff that a part is: a number from zero to one. -/
def cutoff : Option Value → Except Fault Binary64
  | none => .ok Resolution.usualCutoff
  | some v =>
    let number : Option Binary64 := match v with
      | .bool b => some (.ofInt (if b then 1 else 0))
      | .int n => some (.ofInt n)
      | .float x => some x
      | _ => none
    match number with
    | none => .error .unsupported
    | some x =>
      match x.ratio? with
      | some (n, d) => if 0 ≤ n ∧ n ≤ d then .ok x else .error .invalidValue
      | none => .error .invalidValue

/-- A segment that cannot be resolved, with the names that are close to it. -/
def resolution (path segment typeName available reason : Value) (limit : Option Value) :
    Except Fault Report := do
  let members ← if available.isVoid then .ok [] else items available
  if !areOrdered members then .error .unsupported
  else
    let limit ← cutoff limit
    let letters ← items segment
    let names := sort (← texts members)
    let suggestions :=
      closeMatches limit (String.join (letters.map Value.textOrEmpty)) names
    let given ← counting reason
    let typeText ← typeName.plainShown
    let reason := given.getD (Resolution.noMemberReason typeText (← segment.plainShown))
    .ok ⟨Resolution.report (← path.plainShown) reason suggestions names,
      dataOf "RESOLUTION_ERROR" [("path", path), ("segment", segment), ("type", typeName),
        ("suggestions", Error.textList suggestions), ("available", Error.textList names)]⟩

/-- A value that cannot be converted. -/
def coercion (raw typeName reason : Value) : Except Fault Report := do
  let text := Error.conversionText (← raw.shown) (← typeName.plainShown)
  .ok ⟨Error.withReason text (← counting reason),
    dataOf "COERCION_ERROR" [("raw", raw), ("type", typeName), ("reason", reason)]⟩

/-- An operator that a type does not support. -/
def mismatch (operator typeName column reason : Value) : Except Fault Report := do
  let operatorText ← operator.plainShown
  let text := Error.mismatchText operatorText (← typeName.plainShown) (← counting column)
  .ok ⟨Error.withReason text (← counting reason), dataOf "OPERATOR_MISMATCH"
    [("operator", operator), ("type", typeName), ("column", column)]⟩

/-- Columns without an entry. -/
def unmapped (columns : Value) : Except Fault Report := do
  let names ← texts (← items columns)
  .ok ⟨Error.unmappedText names, dataOf "UNMAPPED_COLUMNS" [("columns", Error.textList names)]⟩

/-- An error of no special family: a single part is its message. -/
def general (given : List Value) : Except Fault Report := do
  let message ← match given with
    | [] => .ok ""
    | [v] => v.plainShown
    | vs => (Value.tuple vs).shown
  .ok ⟨message, dataOf "CriteriaError" [("message", .text message)]⟩

/-- The report of an error of a family. -/
def make (family : ErrorFamily) (given : List Value) (named : List (String × Value)) :
    Except Fault Report := do
  match family with
  | .general => if named.isEmpty then general given else .error .unsupported
  | family =>
    let found ← bound family given named
    let get := part found
    match family with
    | .grammar => grammar (get 0) (get 1) (get 2)
    | .resolution => resolution (get 0) (get 1) (get 2) (get 3) (get 4) (found.getD 5 none)
    | .coercion => coercion (get 0) (get 1) (get 2)
    | .mismatch => mismatch (get 0) (get 1) (get 2) (get 3)
    | _ => unmapped (get 0)

end Report
end RecordQuery
