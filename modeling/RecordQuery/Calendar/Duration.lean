import RecordQuery.Number.Binary64.Text

/-!
# Durations

A duration is a whole number of microseconds, between minus and plus a thousand million days.

* `Duration` is the type; `Duration.ofMicroseconds?` checks the range;
* `Duration.ofParts?` adds amounts of different units, whole or fractional;
* `Duration.totalSeconds` is the number of seconds as a floating point number;
* `Duration.render` is the form `1 day, 2:03:04.000005`.
-/

namespace RecordQuery

/-- The number of microseconds of a second. -/
def microsPerSecond : Nat := 1000000

/-- The number of microseconds of a day. -/
def microsPerDay : Nat := 86400 * microsPerSecond

/-- The least and the greatest number of days that begin a duration. -/
def dayLimit : Nat := 999999999

/-- Whether a number of microseconds makes a duration. -/
def isDuration (micros : Int) : Bool :=
  -(dayLimit * microsPerDay : Int) ≤ micros && micros < (dayLimit + 1) * microsPerDay

/-- A signed length of time in microseconds. -/
structure Duration where
  micros : Int
  valid : isDuration micros = true
  deriving DecidableEq, Repr

namespace Duration

instance : Inhabited Duration := ⟨⟨0, by decide⟩⟩

/-- The duration of a number of microseconds, within the range. -/
def ofMicroseconds? (micros : Int) : Option Duration :=
  if h : isDuration micros = true then some ⟨micros, h⟩ else none

/-- The days of a duration, rounded down; the rest is less than a day. -/
def days (d : Duration) : Int := d.micros / microsPerDay

/-- The whole seconds beyond the days. -/
def seconds (d : Duration) : Nat := (d.micros % microsPerDay).toNat / microsPerSecond

/-- The microseconds beyond the seconds. -/
def microseconds (d : Duration) : Nat := (d.micros % microsPerDay).toNat % microsPerSecond

/-- The duration of days, seconds and microseconds. -/
def make? (days seconds micros : Int) : Option Duration :=
  ofMicroseconds? (days * microsPerDay + seconds * microsPerSecond + micros)

/-- The opposite duration, if it is in range. -/
def neg? (d : Duration) : Option Duration := ofMicroseconds? (-d.micros)

/-- The length in seconds, rounded to the nearest floating point number. -/
def totalSeconds (d : Duration) : Binary64 := Binary64.ofRatio d.micros microsPerSecond

/-! ### Sums of amounts -/

/-- Why amounts of time cannot be added to a duration. -/
inductive AmountError where
  | notANumber
  | outOfRange
  deriving DecidableEq, Repr

/-- A number of units of time. -/
inductive Amount where
  | whole (n : Int)
  | fractional (x : Binary64)

/-- The sum so far: whole microseconds, and the parts of a microsecond as a floating point
number. -/
abbrev Partial := Int × Binary64

/-- Adds an amount of a unit. The integer part of a fractional amount is added exactly; the
microseconds in its fraction are rounded as a floating point product, and what they leave of a
microsecond is collected apart. -/
def addAmount (unitMicros : Nat) (sum : Partial) : Amount → Except AmountError Partial
  | .whole n => .ok (sum.1 + n * unitMicros, sum.2)
  | .fractional .nan => .error .notANumber
  | .fractional x =>
    match x.split with
    | none => .error .outOfRange
    | some (whole, fraction) =>
      let exact := sum.1 + whole * unitMicros
      match ((Binary64.ofInt unitMicros).mul fraction).split with
      | some (micros, rest) => .ok (exact + micros, sum.2.add rest)
      | none => .ok (exact, sum.2)

/-- The integer nearest to an integer plus a fraction; a half goes to the even one. -/
def roundSum (whole : Int) (fraction : Binary64) : Int :=
  match fraction.ratio? with
  | some (num, den) =>
    let total := whole * den + num
    let floor := total / den
    let rest := total % den
    if 2 * rest < den then floor
    else if den < 2 * rest then floor + 1
    else if floor % 2 = 0 then floor else floor + 1
  | none => whole

/-- The sum of amounts, each with the microseconds of its unit. -/
def ofParts? (parts : List (Nat × Amount)) : Except AmountError Duration := do
  let (whole, fraction) ← parts.foldlM (fun sum p => addAmount p.1 sum p.2) (0, Binary64.zero false)
  match ofMicroseconds? (roundSum whole fraction) with
  | some d => .ok d
  | none => .error .outOfRange

/-! ### Text -/

/-- Six digits of microseconds after a point, unless there are none. -/
def renderMicros (n : Nat) : List Char := if n = 0 then [] else '.' :: Numeral.padded 6 n

/-- The form `1 day, 2:03:04.000005`, without days when there are none. -/
def render (d : Duration) : List Char :=
  let s := d.seconds
  let clock := Nat.toDigits 10 (s / 3600) ++ ':' :: Numeral.padded 2 (s / 60 % 60) ++ ':' ::
    Numeral.padded 2 (s % 60) ++ renderMicros d.microseconds
  if d.days = 0 then clock
  else Numeral.signed d.days ++ (if d.days.natAbs = 1 then " day, " else " days, ").toList ++ clock

end Duration
end RecordQuery
