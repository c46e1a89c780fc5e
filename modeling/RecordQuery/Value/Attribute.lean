import RecordQuery.Value

/-!
# Attributes of single values

What can be read by name from values that are no records: the parts of dates, times and durations,
the forms of identifiers, the parts of numbers, and the name and value of a member of an
enumeration.

* `Value.attribute?` is the attribute of a name, if the value has one.
-/

namespace RecordQuery

/-- The parts of a clock reading by name. -/
def Clock.attributes (c : Clock) : List (String × Value) :=
  [("hour", .int c.hour), ("minute", .int c.minute), ("second", .int c.second),
    ("microsecond", .int c.micro), ("fold", .int 0)]

/-- The parts of a day by name. -/
def Date.attributes (d : Date) : List (String × Value) :=
  [("year", .int d.year), ("month", .int d.month), ("day", .int d.day)]

/-- The first and the last clock reading of a day. -/
def Clock.bounds : Clock × Clock :=
  (.midnight, (Clock.make? 23 59 59 999999).getD .midnight)

/-- The first and the last day of the calendar. -/
def Date.bounds : Date × Date :=
  ((Date.make? 1 1 1).getD default, (Date.make? 9999 12 31).getD default)

/-- The least value, the greatest value and the smallest step of a type, by name. -/
def boundAttributes (least greatest : Value) (stepMicros : Int) : List (String × Value) :=
  [("min", least), ("max", greatest),
    ("resolution", .duration ((Duration.ofMicroseconds? stepMicros).getD default))]

/-- The time zone of a value without offset; one with an offset has a zone that is no value. -/
def zoneAttributes : Option Offset → List (String × Value)
  | none => [("tzinfo", .null)]
  | some _ => []

namespace Uuid

/-- The number that some bits of an identifier make, counted from the highest one. -/
def slice (u : Uuid) (start width : Nat) : Nat :=
  u.bits.toNat / Nat.pow 2 (128 - start - width) % Nat.pow 2 width

/-- The bytes of a number, the highest one first. -/
def bytesOf (count n : Nat) : List UInt8 :=
  (List.range count).reverse.map fun i => UInt8.ofNat (n / Nat.pow 256 i % 256)

/-- The variant that the bits after the first half tell. -/
def variant (u : Uuid) : String :=
  let n := u.slice 64 3
  if n < 4 then "reserved for NCS compatibility"
  else if n < 6 then "specified in RFC 4122"
  else if n = 6 then "reserved for Microsoft compatibility"
  else "reserved for future definition"

/-- The parts and forms of an identifier by name. -/
def attributes (u : Uuid) : List (String × Value) :=
  let timeLow := u.slice 0 32
  let timeMid := u.slice 32 16
  let timeHigh := u.slice 48 16
  let sequenceHigh := u.slice 64 8
  let sequenceLow := u.slice 72 8
  let node := u.slice 80 48
  let timestamp := timeHigh % 4096 * Nat.pow 2 48 + timeMid * Nat.pow 2 32 + timeLow
  let isStandard := sequenceHigh / 64 == 2
  [("int", .int u.bits.toNat), ("hex", .text (String.ofList u.hexDigits)),
    ("urn", .text ("urn:uuid:" ++ String.ofList u.render)),
    ("bytes", .bytes (bytesOf 16 u.bits.toNat)),
    ("bytes_le", .bytes ((bytesOf 4 timeLow).reverse ++ (bytesOf 2 timeMid).reverse ++
      (bytesOf 2 timeHigh).reverse ++ bytesOf 8 (u.slice 64 64))),
    ("time_low", .int timeLow), ("time_mid", .int timeMid), ("time_hi_version", .int timeHigh),
    ("clock_seq_hi_variant", .int sequenceHigh), ("clock_seq_low", .int sequenceLow),
    ("node", .int node), ("time", .int timestamp),
    ("clock_seq", .int (sequenceHigh % 64 * 256 + sequenceLow : Nat)),
    ("fields", .tuple ([timeLow, timeMid, timeHigh, sequenceHigh, sequenceLow, node].map
      fun n : Nat => .int n)),
    ("variant", .text u.variant),
    ("version", if isStandard then .int (u.slice 48 4) else .null),
    ("is_safe", .member .plain "SafeUUID" "unknown" .null)]

end Uuid

namespace Value

/-- The attributes of an integer by name. -/
def integerAttributes (n : Int) : List (String × Value) :=
  [("real", .int n), ("imag", .int 0), ("numerator", .int n), ("denominator", .int 1)]

/-- The attributes of a value that is no record, by name. -/
def attributes : Value → List (String × Value)
  | bool b => integerAttributes (if b then 1 else 0)
  | int n => integerAttributes n
  | float x => [("real", float x), ("imag", float (Binary64.zero false))]
  | decimal d => [("real", decimal d), ("imag", decimal (Decimal.ofInt 0))]
  | dateTime m =>
    let bound (d : Date) (c : Clock) := dateTime ⟨d, c, none⟩
    m.date.attributes ++ m.clock.attributes ++ zoneAttributes m.offset ++
      boundAttributes (bound Date.bounds.1 Clock.bounds.1) (bound Date.bounds.2 Clock.bounds.2) 1
  | date d => d.attributes ++ boundAttributes (date Date.bounds.1) (date Date.bounds.2) microsPerDay
  | time t =>
    t.clock.attributes ++ zoneAttributes t.offset ++
      boundAttributes (time ⟨Clock.bounds.1, none⟩) (time ⟨Clock.bounds.2, none⟩) 1
  | duration d =>
    let limit (days rest : Int) := duration ((Duration.make? days 0 rest).getD default)
    [("days", int d.days), ("seconds", int d.seconds), ("microseconds", int d.microseconds)] ++
      boundAttributes (limit (-dayLimit) 0) (limit dayLimit (microsPerDay - 1)) 1
  | uuid u => u.attributes
  | member base _ name value =>
    [("name", text name), ("value", value)] ++
      match base, value with
      | .integer, int n => integerAttributes n
      | _, _ => []
  | _ => []

/-- The attribute of a name, if the value is no record and has one. -/
def attribute? (v : Value) (name : String) : Option Value := v.attributes.lookup name

end Value
end RecordQuery
