import RecordQuery.Text.Quoted
import RecordQuery.Text.Split
import RecordQuery.Value

/-!
# Text of values

Values have two written forms. The display form tells values of different kinds apart: texts are
quoted, and dates, decimals and identifiers are written as the call that constructs them. The
plain form is what a reader expects inside a sentence; it differs from the display form for texts,
numbers, dates and members of enumerations.

* `Value.display` is the display form, `Value.plain` the plain one;
* `Value.displayFault?` tells why a value has no display form: a data class record of which a field
  is missing has none, nor has an integer of too many digits. `Value.shown` and `Value.plainShown`
  give the forms only where there are some.
-/

namespace RecordQuery

open Text

/-- Parts between an opening and a closing mark, separated by commas. -/
def bracketed (opening : String) (parts : List String) (closing : String) : String :=
  opening ++ join ", " parts ++ closing

/-- The opening brace, which also begins an empty mapping. -/
def openBrace : String := "\x7b"

/-- The closing brace. -/
def closeBrace : String := "\x7d"

/-- A duration as a call with its parts that are not zero. -/
def Duration.display (d : Duration) : String :=
  let part (name : String) (n : Int) : List String :=
    if n = 0 then [] else [name ++ "=" ++ String.ofList (Numeral.signed n)]
  let parts := part "days" d.days ++ part "seconds" d.seconds ++ part "microseconds" d.microseconds
  bracketed "datetime.timedelta(" (if parts.isEmpty then ["0"] else parts) ")"

/-- An offset as the call that constructs its time zone. -/
def Offset.display (o : Offset) : String :=
  if o.micros = 0 then "datetime.timezone.utc"
  else
    match Duration.ofMicroseconds? o.micros with
    | some d => "datetime.timezone(" ++ d.display ++ ")"
    | none => ""

/-- The numbers of a clock reading from the hour on, without zero seconds and microseconds at the
end. -/
def Clock.displayParts (c : Clock) : List Nat :=
  [c.hour, c.minute] ++
    if c.micro ≠ 0 then [c.second, c.micro] else if c.second ≠ 0 then [c.second] else []

/-- The offset as a named argument, if there is one. -/
def displayOffset : Option Offset → List String
  | some o => ["tzinfo=" ++ o.display]
  | none => []

/-- A time of day as the call that constructs it. -/
def Time.display (t : Time) : String :=
  bracketed "datetime.time(" (t.clock.displayParts.map toString ++ displayOffset t.offset) ")"

/-- A day as the call that constructs it. -/
def Date.display (d : Date) : String :=
  bracketed "datetime.date(" ([d.year, d.month, d.day].map toString) ")"

/-- A moment as the call that constructs it. -/
def DateTime.display (m : DateTime) : String :=
  bracketed "datetime.datetime("
    (([m.date.year, m.date.month, m.date.day] ++ m.clock.displayParts).map toString ++
      displayOffset m.offset) ")"

namespace Value

/-- The display form of a value that is not made of others. -/
def displayScalar : Value → String
  | null => "None"
  | bool b => if b then "True" else "False"
  | int n => String.ofList (Numeral.signed n)
  | float x => String.ofList x.render
  | decimal d => "Decimal('" ++ String.ofList d.render ++ "')"
  | text s => quoted s
  | bytes bs => String.ofList (quoteBytes bs)
  | dateTime m => m.display
  | date d => d.display
  | time t => t.display
  | duration d => d.display
  | uuid u => "UUID('" ++ String.ofList u.render ++ "')"
  | foreign _ _ shown _ => shown
  | record tag _ => "<" ++ tag.owner ++ " object>"
  | _ => ""

mutual

/-- The display form of a value. -/
def display : Value → String
  | member _ owner name value => "<" ++ owner ++ "." ++ name ++ ": " ++ display value ++ ">"
  | list xs => bracketed "[" (displayAll xs) "]"
  | tuple xs => match xs with
    | [x] => "(" ++ display x ++ ",)"
    | xs => bracketed "(" (displayAll xs) ")"
  | set xs => if xs.isEmpty then "set()" else bracketed openBrace (displayAll xs) closeBrace
  | frozenSet xs =>
    if xs.isEmpty then "frozenset()"
    else bracketed ("frozenset(" ++ openBrace) (displayAll xs) (closeBrace ++ ")")
  | map entries => bracketed openBrace (displayEntries entries) closeBrace
  | record ⟨.model, owner, fields, _⟩ members | record ⟨.data, owner, fields, _⟩ members =>
    bracketed (owner ++ "(") (displayMembers fields members) ")"
  | v => displayScalar v

/-- The display forms of several values. -/
def displayAll : List Value → List String
  | [] => []
  | x :: xs => display x :: displayAll xs

/-- The entries of a mapping with quoted keys. -/
def displayEntries : List (String × Value) → List String
  | [] => []
  | (k, x) :: rest => (quoted k ++ ": " ++ display x) :: displayEntries rest

/-- The members of a record that are fields, as named arguments. -/
def displayMembers (fields : List String) : List (String × Option Value) → List String
  | [] => []
  | (_, none) :: rest => displayMembers fields rest
  | (k, some x) :: rest =>
    if fields.contains k then (k ++ "=" ++ display x) :: displayMembers fields rest
    else displayMembers fields rest

end

/-- The plain form of a value. -/
def plain : Value → String
  | text s => s
  | decimal d => String.ofList d.render
  | dateTime m => String.ofList (m.renderWith ' ')
  | date d => String.ofList d.render
  | time t => String.ofList t.render
  | duration d => String.ofList d.render
  | uuid u => String.ofList u.render
  | member .integer _ _ v => display v
  | member _ owner name _ => owner ++ "." ++ name
  | record ⟨.model, _, fields, _⟩ members => join " " (displayMembers fields members)
  | v => display v

/-! ### Values without a form -/

/-- Whether an integer has more digits than can be written. -/
def isTooLong (n : Int) : Bool := Numeral.digitLimit < (Nat.toDigits 10 n.natAbs).length

mutual

/-- What prevents the display form of a value. -/
def displayFault? : Value → Option Fault
  | int n => if isTooLong n then some .invalidValue else none
  | member _ _ _ v => displayFault? v
  | list xs | tuple xs | set xs | frozenSet xs => displayFaultAmong? xs
  | map entries => displayFaultUnder? entries
  | record ⟨.model, _, fields, _⟩ members | record ⟨.data, _, fields, _⟩ members =>
    displayFaultIn? fields members
  | _ => none
termination_by structural x => x

/-- What prevents the display form of one of several values. -/
def displayFaultAmong? : List Value → Option Fault
  | [] => none
  | x :: xs => (displayFault? x).or (displayFaultAmong? xs)
termination_by structural xs => xs

/-- What prevents the display form of a value in a mapping. -/
def displayFaultUnder? : List (String × Value) → Option Fault
  | [] => none
  | (_, x) :: rest => (displayFault? x).or (displayFaultUnder? rest)
termination_by structural xs => xs

/-- What prevents the display form of a field of a record. -/
def displayFaultIn? (fields : List String) : List (String × Option Value) → Option Fault
  | [] => none
  | (_, none) :: _ => some .missingMember
  | (k, some x) :: rest =>
    (if fields.contains k then displayFault? x else none).or (displayFaultIn? fields rest)
termination_by structural xs => xs

end

mutual

/-- Whether a value has a display form and consists of values of the built-in kinds: neither members
of enumerations, nor records, nor values from elsewhere are part of it. -/
def isBasic : Value → Bool
  | int n => !isTooLong n
  | member _ _ _ _ | record _ _ | foreign _ _ _ _ => false
  | list xs | tuple xs | set xs | frozenSet xs => areBasic xs
  | map entries => areBasicUnder entries
  | _ => true
termination_by structural x => x

/-- Whether several values are basic. -/
def areBasic : List Value → Bool
  | [] => true
  | x :: xs => isBasic x && areBasic xs
termination_by structural xs => xs

/-- Whether the values in a mapping are basic. -/
def areBasicUnder : List (String × Value) → Bool
  | [] => true
  | (_, x) :: rest => isBasic x && areBasicUnder rest
termination_by structural xs => xs

end

/-- A form of a value, unless something prevents it. -/
def unlessFault (fault : Option Fault) (form : String) : Except Fault String :=
  match fault with
  | some f => .error f
  | none => .ok form

/-- The display form of a value that has one. -/
def shown (v : Value) : Except Fault String := unlessFault v.displayFault? v.display

/-- The plain form of a value that has one. The plain form of a member of an enumeration shows its
name, unless it is an integer. -/
def plainShown (v : Value) : Except Fault String :=
  match v with
  | member .plain _ _ _ | member .text _ _ _ => .ok v.plain
  | v => unlessFault v.displayFault? v.plain

end Value
end RecordQuery
