import RecordQuery.Error
import RecordQuery.Text.Blank
import RecordQuery.Text.Casing
import RecordQuery.Value.Text

/-!
# Column paths

A column path names a member of a record, or a member of a member: `profile.address.city`. Its
segments are identifiers, kept as they are written, while paths are compared without regard to
letter case.

* `ColumnPath` is a non-empty sequence of identifiers, made by `ColumnPath.ofSegments` or read by
  `ColumnPath.parse`;
* `ColumnPath.text` is its written form, `ColumnPath.key` the key of tables of columns;
* `ColumnPath.isBelow` compares a path with one that it may continue, and `ColumnPath.relativeTo`
  takes that one off.
-/

namespace RecordQuery

open Text

/-- Whether a character begins an identifier. -/
def opensIdentifier (c : Char) : Bool := c.isAlpha || c == '_'

/-- Whether a character continues an identifier. -/
def continuesIdentifier (c : Char) : Bool := c.isAlphanum || c == '_'

/-- Whether the characters after the first make an identifier; a line break may follow them. -/
def isIdentifierTail : List Char → Bool
  | [] => true
  | c :: cs => (continuesIdentifier c && isIdentifierTail cs) || (c == '\n' && cs.isEmpty)

/-- Whether a text is an identifier of ASCII letters, digits and underscores that begins with no
digit. A line break at the end is tolerated. -/
def isSegment (s : String) : Bool :=
  match s.toList with
  | [] => false
  | c :: cs => opensIdentifier c && isIdentifierTail cs

/-- A non-empty sequence of member names. -/
structure ColumnPath where
  segments : List String
  nonempty : segments ≠ []
  valid : segments.all isSegment = true
  deriving DecidableEq

namespace ColumnPath

/-- The path of a sequence of identifiers. -/
def ofSegments (segments : List String) : Except Error ColumnPath :=
  if nonempty : segments = [] then .error (.grammar .emptyPath none none)
  else if valid : segments.all isSegment = true then .ok ⟨segments, nonempty, valid⟩
  else
    match segments.find? fun s => !isSegment s with
    | some s => .error (.inText (.invalidSegment (quoted s)) (join "." segments))
    | none => .error (.grammar .emptyPath none none)

/-- Whether a value is an identifier. -/
def isSegmentValue : Value → Bool
  | .text s => isSegment s
  | _ => false

/-- The path of a sequence of values, which all have to be identifiers. -/
def ofValues (values : List Value) : Except Error ColumnPath :=
  match values.find? fun v => !isSegmentValue v with
  | some v =>
    .error (.inText (.invalidSegment v.display) (join "." (values.map Value.plain)))
  | none => ofSegments (values.filterMap Value.asText?)

/-- The path of identifiers between dots, with blanks around each of them removed. -/
def parse (s : String) : Except Error ColumnPath :=
  let stripped := trim s.toList
  -- an empty path is told from a path with an empty segment
  if stripped.isEmpty then .error (.inText .emptyPath s)
  else ofSegments ((pieces '.' stripped).map fun p => String.ofList (trim p))

/-- The written form: the segments with dots between them. -/
def text (p : ColumnPath) : String := join "." p.segments

instance : ToString ColumnPath := ⟨text⟩

/-- The number of segments. -/
def length (p : ColumnPath) : Nat := p.segments.length

/-- The key under which tables of columns hold the path: its text without case differences. -/
def key (p : ColumnPath) : String := foldKey p.text

/-- Whether two lists of segments agree, ignoring case, up to the end of the first. -/
def beginsWith : List String → List String → Bool
  | [], _ => true
  | _ :: _, [] => false
  | s :: ss, t :: ts => foldKey s == foldKey t && beginsWith ss ts

/-- Whether the path continues a shorter one, ignoring case. -/
def isBelow (p scope : ColumnPath) : Bool :=
  scope.length < p.length && beginsWith scope.segments p.segments

theorem drop_ne_nil {p scope : ColumnPath} (h : p.isBelow scope = true) :
    p.segments.drop scope.length ≠ [] := by
  simp only [isBelow, Bool.and_eq_true, decide_eq_true_eq] at h
  simpa [length] using h.1

theorem all_drop (p : ColumnPath) (n : Nat) : (p.segments.drop n).all isSegment = true := by
  have h := p.valid
  rw [List.all_eq_true] at h ⊢
  exact fun s hs => h s (List.mem_of_mem_drop hs)

/-- The part of the path after a shorter one that it continues. -/
def relativeTo (p scope : ColumnPath) : Except Error ColumnPath :=
  if h : p.isBelow scope = true then
    .ok ⟨p.segments.drop scope.length, drop_ne_nil h, p.all_drop scope.length⟩
  else .error (.misuse (.notBelow p.text scope.text))

/-- The path of one path's segments followed by another's. -/
def append (p q : ColumnPath) : ColumnPath :=
  ⟨p.segments ++ q.segments, by simp [p.nonempty], by
    rw [List.all_append, p.valid, q.valid]; rfl⟩

instance : Append ColumnPath := ⟨append⟩

@[simp] theorem segments_append (p q : ColumnPath) : (p ++ q).segments = p.segments ++ q.segments :=
  rfl

end ColumnPath

/-- A column as it is given to the interface: as text, as a path, or as something else, which is
no column. Some things cannot even be asked for their path without an error of their own. -/
inductive ColumnArg where
  | text (s : String)
  | path (p : ColumnPath)
  | other
  | refused (e : Error)

/-- The path that a column argument denotes. -/
def ColumnArg.resolve : ColumnArg → Except Error ColumnPath
  | .text s => ColumnPath.parse s
  | .path p => .ok p
  | .other => .error (.fault .missingMember)
  | .refused e => .error e

end RecordQuery
