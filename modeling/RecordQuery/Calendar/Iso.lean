import RecordQuery.Calendar.Time
import RecordQuery.Text.Split

/-!
# ISO 8601

Reading days, times and moments in the forms of ISO 8601, basic and extended.

* `Date.read?` reads `YYYY-MM-DD`, `YYYYMMDD`, `YYYY-Www-D` and `YYYYWwwD`, the last two also
  without a day;
* `Time.read?` reads `HH`, `HH:MM` and `HH:MM:SS` with or without colons, a fraction after a point
  or a comma, and an offset;
* `DateTime.read?` reads a day, any one character and a time; a `Z` stands for offset zero.

Of a fraction the first six digits count. A day is not checked to end where its form ends: its
length tells the forms apart, and what follows within that length is passed over. Lengths are
those of the UTF-8 encoding. Where a time has to be at its end, a null character ends it as well.
-/

namespace RecordQuery

namespace Iso

/-- The value of an ASCII digit. -/
def digit? (c : Char) : Option Nat := if c.isDigit then some (c.toNat - '0'.toNat) else none

/-- The number written by exactly so many digits, and the text after them. -/
def fixed? : Nat → Nat → List Char → Option (Nat × List Char)
  | 0, n, cs => some (n, cs)
  | _ + 1, _, [] => none
  | width + 1, n, c :: cs => (digit? c).bind fun d => fixed? width (n * 10 + d) cs

/-- The number written by exactly so many digits, and the text after them. -/
def number? (width : Nat) (cs : List Char) : Option (Nat × List Char) := fixed? width 0 cs

/-- The text after a character that has to stand at its beginning. -/
def expect? (c : Char) : List Char → Option (List Char)
  | [] => none
  | d :: cs => if d = c then some cs else none

/-- Whether a time may end before a text: there is none, or a null character begins it. -/
def atEnd : List Char → Bool
  | [] => true
  | c :: _ => c == '\x00'

/-- The number of bytes in the UTF-8 encoding of a text. -/
def octets (cs : List Char) : Nat := cs.foldl (fun n c => n + c.utf8Size) 0

/-! ### Days -/

/-- A day at the beginning of a text, in a form of the given length. -/
def day? (length : Nat) (cs : List Char) : Option Date := do
  let (year, rest) ← number? 4 cs
  -- a dash after the year decides that there are dashes everywhere
  let dashed := rest.head? == some '-'
  let rest := if dashed then rest.drop 1 else rest
  if rest.head? == some 'W' then
    let (week, rest) ← number? 2 (rest.drop 1)
    -- the length tells whether the week has a day behind it; without one its first day is meant
    if (if dashed then 8 else 7) < length then
      let rest ← if dashed then expect? '-' rest else some rest
      let (day, _) ← number? 1 rest
      Date.ofWeek? year week day
    else Date.ofWeek? year week 1
  else
    let (month, rest) ← number? 2 rest
    let rest ← if dashed then expect? '-' rest else some rest
    let (day, _) ← number? 2 rest
    Date.make? year month day

/-! ### Times -/

/-- The parts of a clock reading as written, before their ranges are checked, and whether the
reading takes up the whole text. -/
structure Reading where
  hour : Nat
  minute : Nat
  second : Nat
  micro : Nat
  complete : Bool

/-- A fraction of a second in microseconds: all characters up to the sixth have to be digits, and
further digits are passed over. -/
def fraction? (cs : List Char) : Option (Nat × Bool) := do
  let width := min 6 cs.length
  let (n, rest) ← number? width cs
  some (n * Nat.pow 10 (6 - width), atEnd (rest.dropWhile Char.isDigit))

/-- The fields of a clock reading when so many are left: two digits each, with a colon after each
of them or after none, up to a point or comma. One more byte may follow the last digits; unless it
is null, the reading then does not take up the whole text. -/
def fields? (colons : Bool) : Nat → List Char → Option (List Nat × Nat × Bool)
  | 0, cs => (fraction? cs).map fun f => ([], f)
  | left + 1, cs => do
    let (n, rest) ← number? 2 cs
    match rest with
    | [] => some ([n], 0, true)
    | [c] => if c.utf8Size = 1 then some ([n], 0, atEnd [c]) else none
    | c :: more =>
      -- the character after the hour decides whether there are colons everywhere
      let colons := if left = 2 then c == ':' else colons
      if colons && c == ':' then
        (fields? colons left more).map fun f => (n :: f.1, f.2)
      else if c = '.' || c = ',' then (fraction? more).map fun f => ([n], f)
      else if colons then none
      else (fields? colons left rest).map fun f => (n :: f.1, f.2)

/-- A clock reading with its fraction. -/
def reading? (cs : List Char) : Option Reading :=
  (fields? true 3 cs).map fun f => ⟨f.1.getD 0 0, f.1.getD 1 0, f.1.getD 2 0, f.2.1, f.2.2⟩

/-- Whether a character begins an offset. -/
def opensOffset (c : Char) : Bool := c == '+' || c == '-' || c == 'Z'

/-- An offset with its sign: `Z`, or a clock reading that takes up the whole text. An offset of no
whole seconds is zero. -/
def offset? (sign : Char) (cs : List Char) : Option Offset :=
  if sign = 'Z' then if atEnd cs then some Offset.universal else none
  else do
    let r ← reading? cs
    if !r.complete then none
    else
      let seconds := r.hour * 3600 + r.minute * 60 + r.second
      -- an offset below one second counts as none, whatever its fraction
      if seconds = 0 then some Offset.universal
      else
        let n : Int := seconds * 1000000 + r.micro
        Offset.ofMicros? (if sign = '-' then -n else n)

/-- A time with or without an offset. Without one the clock reading has to take up the whole
text. -/
def time? (cs : List Char) : Option Time := do
  let (before, after) := cs.span fun c => !opensOffset c
  let r ← reading? before
  let offset ←
    match after with
    | [] => if r.complete then some none else none
    | sign :: rest => (offset? sign rest).map some
  let clock ← Clock.make? r.hour r.minute r.second r.micro
  some ⟨clock, offset⟩

/-! ### Moments -/

/-- The length of the day at the beginning of a moment. Its form is told by its fifth and sixth
characters; a week date without colons and dashes is told from one without a day by the number of
digits, since those of a time come in pairs. -/
def dayLength? (cs : List Char) : Option Nat :=
  let n := octets cs
  let at? (i : Nat) (c : Char) : Bool := cs[i]? == some c
  -- `YYYYWww` alone
  if n = 7 then some 7
  else if at? 4 '-' then
    if at? 5 'W' then
      if n < 8 then none
      else if 8 < n && at? 8 '-' then
        if n = 9 then none
        else if ((cs[10]?).map Char.isDigit).getD false then some 8
        else some 10
      else some 8
    else some 10
  else if at? 4 'W' then
    -- `YYYYWww` with or without a day, and the digits of a time that follow come in pairs
    let stop := 7 + ((cs.drop 7).takeWhile Char.isDigit).length
    if stop < 9 then some stop else if stop % 2 = 0 then some 7 else some 8
  else some 8

/-- A day, any one character and a time, or a day alone. -/
def moment? (cs : List Char) : Option DateTime := do
  let length ← dayLength? cs
  let date ← day? length cs
  if octets cs ≤ length then some ⟨date, Clock.midnight, none⟩
  else
    let time ← time? (cs.drop (length + 1))
    some ⟨date, time.clock, time.offset⟩

end Iso

/-- A day in one of the forms of 7, 8 or 10 bytes. -/
def Date.read? (cs : List Char) : Option Date :=
  let n := Iso.octets cs
  if n = 7 ∨ n = 8 ∨ n = 10 then Iso.day? n cs else none

/-- A time of day, possibly after a `T`. -/
def Time.read? (cs : List Char) : Option Time :=
  match cs with
  | 'T' :: rest => Iso.time? rest
  | _ => Iso.time? cs

/-- A moment; every `Z` in it stands for `+00:00`. -/
def DateTime.read? (cs : List Char) : Option DateTime :=
  Iso.moment? (cs.flatMap fun c => if c = 'Z' then "+00:00".toList else [c])

end RecordQuery
