import RecordQuery.Calendar.Duration
import RecordQuery.Text.Blank
import RecordQuery.Text.Casing

/-!
# Interval text

Durations as people write them in a query: `1:30:00`, `7d`, `1 day 2 hours`, or a plain number of
seconds.

* `Duration.readInterval` reads a duration, trying these forms in the order shorthand, clock,
  phrase, number;
* `Duration.writeInterval` writes one as a number of seconds.

Letters match in either case, and a letter outside ASCII matches the letter it is a case variant
of; but a unit has to be spelt with ASCII letters once it is in lower case, so a phrase can match
and still name no unit.
-/

namespace RecordQuery

/-- Why a text is no duration. -/
inductive IntervalError where
  | unrecognised
  | outOfRange
  | tooManyDigits
  | unknownLetter
  | unknownUnit
  deriving DecidableEq, Repr

/-- The units of an interval. -/
inductive TimeUnit where
  | second
  | minute
  | hour
  | day
  | week
  deriving DecidableEq, Repr

namespace TimeUnit

/-- The units from the smallest on; amounts are added in this order. -/
def all : List TimeUnit := [.second, .minute, .hour, .day, .week]

/-- The name of one unit. -/
def name : TimeUnit → String
  | .second => "second"
  | .minute => "minute"
  | .hour => "hour"
  | .day => "day"
  | .week => "week"

/-- The letter that stands for the unit in the shorthand form. -/
def letter : TimeUnit → Char
  | .second => 's'
  | .minute => 'm'
  | .hour => 'h'
  | .day => 'd'
  | .week => 'w'

/-- The length of the unit in microseconds. -/
def micros : TimeUnit → Nat
  | .second => microsPerSecond
  | .minute => 60 * microsPerSecond
  | .hour => 3600 * microsPerSecond
  | .day => microsPerDay
  | .week => 7 * microsPerDay

end TimeUnit

namespace Interval

open Text

/-- Whether a character is a case variant of a small letter, inside or outside ASCII. -/
def variantOf (letter c : Char) : Bool :=
  c.toLower == letter || (letter == 's' && c.toNat == 0x17F) ||
    (letter == 'k' && c.toNat == 0x212A) ||
    (letter == 'i' && (c.toNat == 0x130 || c.toNat == 0x131))

/-- The beginning of a text that is a case variant of a word, and the text after it. -/
def spanWord? : List Char → List Char → Option (List Char × List Char)
  | [], cs => some ([], cs)
  | _ :: _, [] => none
  | l :: word, c :: cs =>
    if variantOf l c then (spanWord? word cs).map fun p => (c :: p.1, p.2) else none

/-- A number with digits on both sides of an optional point, and the text after it. -/
def spanNumber? (cs : List Char) : Option (List Char × List Char) :=
  match cs.span isDigit with
  | ([], _) => none
  | (whole, '.' :: rest) =>
    match rest.span isDigit with
    | ([], _) => some (whole, '.' :: rest)
    | (fraction, after) => some (whole ++ '.' :: fraction, after)
  | (whole, rest) => some (whole, rest)

/-- The floating point number that digits with an optional point denote. -/
def numberValue (cs : List Char) : Binary64 :=
  match Numeral.readDecimal? cs with
  | some (c, e) => Binary64.ofDecimal false c e
  | none => .nan

/-! ### The four forms -/

/-- The sum of amounts, with the cause of a failure as one of an interval. -/
def sum (parts : List (Nat × Duration.Amount)) : Except IntervalError Duration :=
  match Duration.ofParts? parts with
  | .ok d => .ok d
  | .error .notANumber => .error .unrecognised
  | .error .outOfRange => .error .outOfRange

/-- A number and the letter of a unit. -/
def shorthand? (cs : List Char) : Option (Except IntervalError Duration) := do
  let (number, rest) ← spanNumber? cs
  match rest.dropWhile isBlank with
  | [c] =>
    let letters := TimeUnit.all.map TimeUnit.letter
    -- a letter outside ASCII gets here, and then names no unit
    if letters.any (variantOf · c) then
      match TimeUnit.all.find? fun u => u.letter == c.toLower with
      | some u => some (sum [(u.micros, .fractional (numberValue number))])
      | none => some (.error .unknownLetter)
    else none
  | _ => none

/-- One or two digits, and the text after them. -/
def spanPair? (cs : List Char) : Option (List Char × List Char) :=
  match cs.span isDigit with
  | ([], _) => none
  | (ds, rest) => if ds.length ≤ 2 then some (ds, rest) else none

/-- The natural number that digits of any script denote. -/
def digitsValue (cs : List Char) : Nat := natOfDigits 10 (cs.filterMap digitValue?)

/-- Hours, minutes and seconds between colons, the seconds with an optional fraction, after an
optional minus. -/
def clock? (cs : List Char) : Option (Except IntervalError Duration) := do
  let (negative, cs) := match cs with
    | '-' :: rest => (true, rest)
    | _ => (false, cs)
  let (hours, rest) ← match cs.span isDigit with
    | ([], _) => none
    | (ds, ':' :: rest) => some (ds, rest)
    | _ => none
  let (minutes, rest) ← match ← spanPair? rest with
    | (ds, ':' :: rest) => some (ds, rest)
    | _ => none
  -- the seconds have at most two digits before their point
  let (whole, _) ← spanPair? rest
  let (seconds, rest) ← spanNumber? rest
  if whole.isEmpty || !rest.isEmpty then none
  else if Numeral.digitLimit < hours.length then some (.error .tooManyDigits)
  else
    some <| do
      let d ← sum [(TimeUnit.second.micros, .fractional (numberValue seconds)),
        (TimeUnit.minute.micros, .whole (digitsValue minutes)),
        (TimeUnit.hour.micros, .whole (digitsValue hours))]
      if negative then
        match d.neg? with
        | some e => .ok e
        | none => .error .outOfRange
      else .ok d

/-- A term of a phrase: the number, and the unit as it is written. -/
structure Term where
  number : List Char
  word : List Char

/-- A term at the beginning of a text: a number and a unit in the singular or plural. -/
def term? (cs : List Char) : Option (Term × List Char) := do
  let (number, rest) ← spanNumber? cs
  let rest := rest.dropWhile isBlank
  -- no name begins with another one, so the order of the units does not matter
  let (word, rest) ← TimeUnit.all.findSome? fun u => spanWord? u.name.toList rest
  match rest with
  | c :: more =>
    if variantOf 's' c then some (⟨number, word ++ [c]⟩, more) else some (⟨number, word⟩, rest)
  | [] => some (⟨number, word⟩, [])

/-- The terms of a phrase, which may have blanks between them. The first argument bounds their
number; the length of the text suffices. -/
def terms? : Nat → List Char → Option (List Term)
  | 0, cs => if cs.all isBlank then some [] else none
  | bound + 1, cs =>
    match cs.dropWhile isBlank with
    | [] => some []
    | rest => do
      let (t, rest) ← term? rest
      (terms? bound rest).map (t :: ·)

/-- The unit that a term names. -/
def Term.unit? (t : Term) : Option TimeUnit :=
  let word := lower t.word
  TimeUnit.all.find? fun u => word == u.name.toList || word == u.name.toList ++ ['s']

/-- The amount of a unit in a phrase: the sum of its terms as floating point numbers. -/
def amountOf (terms : List (TimeUnit × Binary64)) (u : TimeUnit) : Option (Nat × Duration.Amount) :=
  let own := terms.filter fun t => t.1 == u
  if own.isEmpty then none
  else some (u.micros, .fractional (own.foldl (fun x t => addNumbers x t.2) (Binary64.zero false)))
where
  /-- The sum of two numbers of a phrase, which are not negative. -/
  addNumbers (x y : Binary64) : Binary64 :=
    match x, y with
    | .infinite s, _ => .infinite s
    | _, .infinite s => .infinite s
    | _, _ => x.add y

/-- One or more terms. -/
def phrase? (cs : List Char) : Option (Except IntervalError Duration) := do
  let terms ← terms? cs.length cs
  if terms.isEmpty then none
  else
    -- all terms have the shape of one, but a word may still name no unit
    match terms.mapM fun t => t.unit?.map fun u => (u, numberValue t.number) with
    | none => some (.error .unknownUnit)
    | some amounts => some (sum (TimeUnit.all.filterMap (amountOf amounts)))

/-- A number of seconds. -/
def number (cs : List Char) : Except IntervalError Duration :=
  match Binary64.read? cs with
  | some x => sum [(TimeUnit.second.micros, .fractional x)]
  | none => .error .unrecognised

end Interval

namespace Duration

/-- The duration that an interval text denotes. -/
def readInterval (cs : List Char) : Except IntervalError Duration :=
  let text := Text.trim cs
  match Interval.shorthand? text with
  | some r => r
  | none =>
    match Interval.clock? text with
    | some r => r
    | none =>
      match Interval.phrase? text with
      | some r => r
      | none => Interval.number text

/-- The interval text of a duration: whole seconds that are not negative carry their unit. -/
def writeInterval (d : Duration) : List Char :=
  let seconds := d.totalSeconds
  match seconds.toInt? with
  | some n => if 0 ≤ n then Numeral.signed n ++ ['s'] else Numeral.signed n
  | none => seconds.render

end Duration
end RecordQuery
