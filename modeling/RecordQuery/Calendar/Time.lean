import RecordQuery.Calendar.Date
import RecordQuery.Calendar.Duration

/-!
# Times of day and moments

A clock reading has microseconds. A time of day is a clock reading with or without an offset from
universal time, and a moment is a day with a time. Two of them are comparable when both have an
offset, which is then taken off, or when neither has one.

Offsets are fixed. Of a zone whose offset changes, a moment keeps the one that the zone has for it;
that the zone has two of them for a reading of the clock, when it is put back, makes no difference
here. A zone without any offset is no zone.

* `Clock`, `Offset`, `Time` and `DateTime` are the types;
* `Time.compare?` and `DateTime.compare?` are the orders, where there is one;
* `DateTime.toUniversal?` moves a moment to offset zero;
* `render` gives the forms with seconds, with microseconds only where there are some.
-/

namespace RecordQuery

/-! ### Clock readings -/

/-- Whether four numbers are a clock reading. -/
def isClock (hour minute second micro : Nat) : Bool :=
  hour < 24 && minute < 60 && second < 60 && micro < 1000000

/-- A clock reading. -/
structure Clock where
  hour : Nat
  minute : Nat
  second : Nat
  micro : Nat
  valid : isClock hour minute second micro = true
  deriving DecidableEq, Repr

namespace Clock

/-- The beginning of the day. -/
def midnight : Clock := ⟨0, 0, 0, 0, by decide⟩

instance : Inhabited Clock := ⟨midnight⟩

/-- A clock reading from its parts. -/
def make? (hour minute second micro : Nat) : Option Clock :=
  if h : isClock hour minute second micro = true then some ⟨hour, minute, second, micro, h⟩
  else none

/-- The microseconds since midnight. -/
def micros (c : Clock) : Nat :=
  ((c.hour * 60 + c.minute) * 60 + c.second) * 1000000 + c.micro

/-- The clock reading so many microseconds after midnight, within the day. -/
def ofMicros? (n : Nat) : Option Clock :=
  let s := n / 1000000
  make? (s / 3600) (s / 60 % 60) (s % 60) (n % 1000000)

/-- The form `HH:MM:SS.ffffff`. -/
def render (c : Clock) : List Char :=
  Numeral.padded 2 c.hour ++ ':' :: Numeral.padded 2 c.minute ++ ':' :: Numeral.padded 2 c.second ++
    Duration.renderMicros c.micro

end Clock

/-! ### Offsets -/

/-- Whether a number of microseconds is less than a day in either direction. -/
def isOffset (micros : Int) : Bool := -(microsPerDay : Int) < micros && micros < microsPerDay

/-- The distance of a local clock from universal time. -/
structure Offset where
  micros : Int
  valid : isOffset micros = true
  deriving DecidableEq, Repr

namespace Offset

/-- Universal time itself. -/
def universal : Offset := ⟨0, by decide⟩

instance : Inhabited Offset := ⟨universal⟩

/-- An offset of less than a day. -/
def ofMicros? (n : Int) : Option Offset :=
  if h : isOffset n = true then some ⟨n, h⟩ else none

/-- The form `+HH:MM`, with seconds and microseconds only where there are some. -/
def render (o : Offset) : List Char :=
  let n := o.micros.natAbs
  let s := n / 1000000
  let rest := n % 1000000
  (if o.micros < 0 then '-' else '+') :: Numeral.padded 2 (s / 3600) ++
    ':' :: Numeral.padded 2 (s / 60 % 60) ++
    if s % 60 = 0 ∧ rest = 0 then []
    else ':' :: Numeral.padded 2 (s % 60) ++ Duration.renderMicros rest

end Offset

/-! ### Times of day -/

/-- A clock reading, possibly with an offset. -/
structure Time where
  clock : Clock
  offset : Option Offset
  deriving DecidableEq, Repr, Inhabited

namespace Time

/-- The seconds and the microseconds by which two times with offsets are compared: the offset is
taken off the whole seconds of the clock, and only by its own whole seconds. -/
def key (t : Time) (o : Offset) : Int × Nat :=
  ((t.clock.micros / 1000000 : Nat) - o.micros / 1000000, t.clock.micro)

/-- The order of two times, if both have an offset or neither has one. Two times with one offset
are compared by the clock. -/
def compare? (s t : Time) : Option Ordering :=
  match s.offset, t.offset with
  | none, none => some (compare s.clock.micros t.clock.micros)
  | some a, some b =>
    -- with one offset nothing is taken off
    if a = b then some (compare s.clock.micros t.clock.micros)
    else some ((compare (s.key a).1 (t.key b).1).then (compare (s.key a).2 (t.key b).2))
  | _, _ => none

/-- The form `HH:MM:SS.ffffff+HH:MM`. -/
def render (t : Time) : List Char :=
  t.clock.render ++ (match t.offset with | some o => o.render | none => [])

end Time

/-! ### Moments -/

/-- A day and a clock reading, possibly with an offset, which is fixed. -/
structure DateTime where
  date : Date
  clock : Clock
  offset : Option Offset
  deriving DecidableEq, Repr, Inhabited

namespace DateTime

/-- The microseconds since the beginning of the calendar on the local clock. -/
def localMicros (m : DateTime) : Int := (m.date.ordinal : Int) * microsPerDay + m.clock.micros

/-- The order of two moments, if both have an offset or neither has one. -/
def compare? (m n : DateTime) : Option Ordering :=
  match m.offset, n.offset with
  | none, none => some (compare m.localMicros n.localMicros)
  | some a, some b => some (compare (m.localMicros - a.micros) (n.localMicros - b.micros))
  | _, _ => none

/-- The local moment of a number of microseconds, within the calendar. -/
def ofLocalMicros? (n : Int) (offset : Option Offset) : Option DateTime := do
  let date ← Date.ofOrdinal? (n / microsPerDay)
  let clock ← Clock.ofMicros? (n % microsPerDay).toNat
  some ⟨date, clock, offset⟩

/-- The same instant at offset zero, within the calendar; a moment without offset is kept. -/
def toUniversal? (m : DateTime) : Option DateTime :=
  match m.offset with
  | none => some m
  | some o => ofLocalMicros? (m.localMicros - o.micros) (some Offset.universal)

/-- A moment without offset is read as one at offset zero. -/
def assumeUniversal (m : DateTime) : DateTime :=
  match m.offset with
  | none => { m with offset := some Offset.universal }
  | some _ => m

/-- Day and time with a separator between them. -/
def renderWith (separator : Char) (m : DateTime) : List Char :=
  m.date.render ++ separator :: (⟨m.clock, m.offset⟩ : Time).render

/-- The form `YYYY-MM-DDTHH:MM:SS.ffffff+HH:MM`. -/
def render (m : DateTime) : List Char := m.renderWith 'T'

end DateTime
end RecordQuery
