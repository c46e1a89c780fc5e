import RecordQuery.RawText
import RecordQuery.Text.Order
import RecordQuery.Text.Quoted
import RecordQuery.Text.Similarity
import RecordQuery.Text.Split

/-!
# Errors

What can be wrong with a query, told apart by cause. The five families of query errors have a
message and their parts; a misuse of the interface has a message only, and a fault only a kind.

* `GrammarCause`, `Resolution`, `CoercionCause` and `MismatchCause` are the causes;
* `Error` is the type of all errors, `Error.message` the text of each and `Error.toData` its parts.
-/

namespace RecordQuery

open Text

/-! ### Grammar -/

/-- Why a filter, a sort list or a column path is malformed. -/
inductive GrammarCause where
  | emptyPath
  | invalidSegment (shown : String)
  | unbalanced
  | trailingText
  | noArguments
  | emptyArgument
  | emptyFilter
  | missingSeparator
  | missingValue (column : String)
  | emptySortItem
  | unknownDirection (word : String)
  | unbalancedValue
  | columnRequired (operator : String)
  | columnRefused (operator : String)
  | notBelow (column scope : String)
  | conditionRequired (operator : String)
  | notAMapping (typeName : String)
  | conditionsNotList
  | unknownOperator (operator : String)
  | columnMissing (data : String)
  deriving DecidableEq, Repr

/-- The text of a grammar error, without the place. -/
def GrammarCause.message : GrammarCause → String
  | emptyPath => "Column path cannot be empty"
  | invalidSegment shown => "Invalid column segment " ++ shown
  | unbalanced => "Unbalanced parentheses"
  | trailingText => "Unexpected text after ')'"
  | noArguments => "Composite requires at least one argument"
  | emptyArgument => "Empty argument"
  | emptyFilter => "Empty filter expression"
  | missingSeparator => "Missing ':' separator"
  | missingValue column => "Missing value for column '" ++ column ++ "'"
  | emptySortItem => "Empty sort item"
  | unknownDirection word => "Unknown sort direction " ++ quoted word
  | unbalancedValue => "Unbalanced parentheses in value"
  | columnRequired operator => "'" ++ operator ++ "' requires a collection column"
  | columnRefused operator => "'" ++ operator ++ "' does not take a column"
  | notBelow column scope => "Column '" ++ column ++ "' is not below '" ++ scope ++ "'"
  | conditionRequired operator => "'" ++ operator ++ "' requires at least one condition"
  | notAMapping typeName => "Expected a dict, got " ++ typeName
  | conditionsNotList => "'conditions' must be a list"
  | unknownOperator operator => "Unknown operator " ++ quoted operator
  | columnMissing data => "Leaf missing 'column': " ++ data

/-! ### Resolution -/

/-- Why a segment of a path has no member. -/
inductive ResolutionCause where
  | noMember
  | noMembers
  | ambiguous (names : List String)
  | collection (member : String)
  | noRelationship (member : String)
  deriving DecidableEq, Repr

/-- A segment that cannot be resolved on a type: the whole path, the segment, the name of the type,
the type's members in order, and those whose names are close to the segment. -/
structure Resolution where
  path : String
  segment : String
  typeName : String
  available : List String
  suggestions : List String
  cause : ResolutionCause
  deriving DecidableEq, Repr

namespace Resolution

/-- Names are suggested from this similarity on, unless another cutoff is given. -/
def usualCutoff : Binary64 := Binary64.ofRatio 3 5

/-- A failure with its suggestions; the members may be given in any order. -/
def of (path segment typeName : String) (members : List String) (cause : ResolutionCause) :
    Resolution :=
  let available := sort members
  { path, segment, typeName, available, cause
    suggestions := closeMatches usualCutoff segment available }

/-- At most so many members are listed in a message. -/
def listedMembers : Nat := 15

/-- The reason in words that a type has no such member. -/
def noMemberReason (typeName segment : String) : String :=
  "'" ++ typeName ++ "' has no member '" ++ segment ++ "'"

/-- The reason in words. -/
def reason (r : Resolution) : String :=
  match r.cause with
  | .noMember => noMemberReason r.typeName r.segment
  | .noMembers => "'" ++ r.typeName ++ "' has no members"
  | .ambiguous names =>
    "'" ++ r.segment ++ "' is ambiguous on '" ++ r.typeName ++ "' (" ++ join ", " (sort names) ++
      ")"
  | .collection member => "'" ++ member ++ "' is a collection; use any/all to filter its elements"
  | .noRelationship member => "'" ++ member ++ "' is not a relationship"

/-- A message: the path and the reason, the suggestions line by line, and the members. -/
def report (path reason : String) (suggestions available : List String) : String :=
  let head := "Cannot resolve '" ++ path ++ "': " ++ reason ++ "."
  let hints :=
    if suggestions.isEmpty then []
    else "Did you mean one of these?" :: suggestions.map fun s => "  • " ++ s
  let members :=
    if available.isEmpty then []
    else
      let more := if listedMembers < available.length then ", ..." else ""
      ["Available members: " ++ join ", " (available.take listedMembers) ++ more]
  join "\n" (head :: hints ++ members)

/-- The message of a failure. -/
def message (r : Resolution) : String := report r.path r.reason r.suggestions r.available

end Resolution

/-! ### Coercion and operators -/

/-- Why a text is no value of a type. -/
inductive CoercionCause where
  /-- The text is malformed or out of range; what exactly is wrong with it is not told. -/
  | malformed
  | notBoolean
  | notMember (names : List String)
  | unsupportedType
  | interval (text : String)
  deriving DecidableEq, Repr

/-- The reason in words. -/
def CoercionCause.reason : CoercionCause → String
  | malformed => "*"
  | notBoolean => "expected true/false/1/0"
  | notMember names => "expected one of " ++ join ", " names
  | unsupportedType => "unsupported type"
  | interval text => "Unrecognised interval format: " ++ text

/-- Why an operator does not fit a column. -/
inductive MismatchCause where
  | textOnly
  | noOrdering
  | elementTest
  | noCollection
  | unsortable
  | noRelationship
  deriving DecidableEq, Repr

/-- The reason in words. -/
def MismatchCause.reason : MismatchCause → String
  | textOnly => "only text columns support prefix/suffix tests"
  | noOrdering => "type has no ordering"
  | elementTest => "use any/all or ct to test collection elements"
  | noCollection => "not a collection"
  | unsortable => "cannot sort by a collection"
  | noRelationship => "quantifiers need a relationship collection"

/-! ### Misuse -/

/-- A wrong use of the interface. -/
inductive Misuse where
  | noStrategy (backend operator : String)
  | notBelow (path scope : String)
  | noOpenGroup
  | emptyGroup
  | openGroups (count : Nat)
  | unrecognisedInterval (text : String)
  | notANode (shown : String)
  | valueNotText (typeName : String)
  | noCollection (path : String)
  | differentTypes
  | notIterable (typeName : String)
  | noCast (key : String)
  | hiddenName (name : String)
  deriving DecidableEq, Repr

/-- The text of a misuse. -/
def Misuse.message : Misuse → String
  | noStrategy backend operator =>
    "No " ++ backend ++ " strategy for operator '" ++ operator ++ "'"
  | notBelow path scope => "'" ++ path ++ "' is not below '" ++ scope ++ "'"
  | noOpenGroup => "No open group to close"
  | emptyGroup => "Cannot create an empty group"
  | openGroups count => toString count ++ " group(s) still open, call end_group() before build()"
  | unrecognisedInterval text => "Unrecognised interval format: " ++ text
  | notANode shown => "Unsupported filter node: " ++ shown
  | valueNotText typeName => "FilterLeaf.value must be raw text, got " ++ typeName
  | noCollection path => "'" ++ path ++ "' is not a collection"
  | differentTypes => "Cannot combine specifications over different types"
  | notIterable typeName =>
    "Cannot apply criteria to " ++ quoted typeName ++ ", expected an iterable or a Select"
  | noCast key => "No cast configuration registered for " ++ key
  | hiddenName name => name

/-! ### All errors -/

/-- Everything that can go wrong. -/
inductive Error where
  /-- A malformed text or tree, with the text and the place in it where they are known. -/
  | grammar (cause : GrammarCause) (text : Option RawText) (position : Option Nat)
  /-- A column that does not exist. -/
  | resolution (failure : Resolution)
  /-- A text that is no value of the column's type. -/
  | coercion (raw : RawText) (typeName : String) (cause : CoercionCause)
  /-- An operator that the column's type does not support. -/
  | mismatch (operator typeName : String) (column : Option String) (cause : MismatchCause)
  /-- Columns that a cast has no entry for. -/
  | unmapped (columns : List String)
  /-- A wrong use of the interface. -/
  | misuse (cause : Misuse)
  /-- A failure that has a kind and no text. -/
  | fault (kind : Fault)
  deriving DecidableEq, Repr

instance : Inhabited Error := ⟨.fault .unsupported⟩

namespace Error

/-- A grammar error in a text, at no particular place. -/
def inText (cause : GrammarCause) (text : String) : Error :=
  .grammar cause (some (.plain text)) none

/-- What a text that cannot be converted is told by. -/
def conversionText (shown typeName : String) : String :=
  "Cannot convert " ++ shown ++ " to " ++ typeName

/-- What an operator that a type does not support is told by, with the column if it is known. -/
def mismatchText (operator typeName : String) (column : Option String) : String :=
  let place := column.elim "" fun c => " (column '" ++ c ++ "')"
  "Operator '" ++ operator ++ "' is not supported for type " ++ typeName ++ place

/-- What columns without an entry are told by. -/
def unmappedText (columns : List String) : String :=
  "The following columns are unknown: " ++ join ", " columns

/-- A message with a reason after it, if there is one. -/
def withReason (message : String) (reason : Option String) : String :=
  message ++ reason.elim "" (": " ++ ·)

/-- The message of an error; a fault has none. -/
def message : Error → String
  | grammar cause text position =>
    cause.message ++ (match text with | some t => " in " ++ t.value.display | none => "") ++
      (match position with | some p => " at position " ++ toString p | none => "")
  | resolution failure => failure.message
  | coercion raw typeName cause =>
    withReason (conversionText raw.value.display typeName) (some cause.reason)
  | mismatch operator typeName column cause =>
    withReason (mismatchText operator typeName column) (some cause.reason)
  | unmapped columns => unmappedText columns
  | misuse cause => cause.message
  | fault _ => ""

/-- A text that may be missing, as a value. -/
def optionalText : Option String → Value
  | some s => .text s
  | none => .null

/-- A list of texts, as a value. -/
def textList (texts : List String) : Value := .list (texts.map .text)

/-- The parts of a query error as a mapping, for answers to a caller. A misuse and a fault have
none. -/
def toData : Error → Value
  | grammar cause text position =>
    .map [("error", .text "GRAMMAR_ERROR"), ("message", .text cause.message),
      ("text", match text with | some t => t.value | none => .null),
      ("position", match position with | some p => .int p | none => .null)]
  | resolution r =>
    .map [("error", .text "RESOLUTION_ERROR"), ("path", .text r.path), ("segment", .text r.segment),
      ("type", .text r.typeName), ("suggestions", textList r.suggestions),
      ("available", textList r.available)]
  | coercion raw typeName cause =>
    .map [("error", .text "COERCION_ERROR"), ("raw", raw.value), ("type", .text typeName),
      ("reason", .text cause.reason)]
  | mismatch operator typeName column _ =>
    .map [("error", .text "OPERATOR_MISMATCH"), ("operator", .text operator),
      ("type", .text typeName), ("column", optionalText column)]
  | unmapped columns => .map [("error", .text "UNMAPPED_COLUMNS"), ("columns", textList columns)]
  | misuse _ | fault _ => .null

end Error

/-- An outcome that may be a fault as one that may be an error. -/
def liftFault {α : Type} : Except Fault α → Except Error α
  | .ok a => .ok a
  | .error fault => .error (.fault fault)

end RecordQuery
