import RecordQuery.Text.Digits

/-!
# Numerals

The written forms of numbers. Numbers are written with ASCII digits and read with decimal digits
of any script.

* `padded` and `signed` write natural numbers and integers;
* `readInteger?` reads an integer in a base, with a sign and with single underscores between
  digits;
* `readDecimal?` reads digits, a point and an exponent of ten;
* `ungroup?` removes the underscores that stand between digits.
-/

namespace RecordQuery.Numeral

open Text

/-! ### Writing -/

/-- A natural number in decimal digits, padded with zeros to a width. -/
def padded (width n : Nat) : List Char :=
  let ds := Nat.toDigits 10 n
  List.replicate (width - ds.length) '0' ++ ds

/-- An integer in decimal digits, with a minus if it is negative. -/
def signed (n : Int) : List Char := (if n < 0 then ['-'] else []) ++ Nat.toDigits 10 n.natAbs

/-! ### Reading -/

/-- An integer is written with at most so many digits in base ten. -/
def digitLimit : Nat := 4300

/-- The value of a digit in a base up to sixteen. -/
def digitIn? (base : Nat) (c : Char) : Option Nat :=
  let value :=
    match digitValue? c with
    | some d => some d
    | none =>
      if 'a' ≤ c ∧ c ≤ 'f' then some (c.toNat - 'a'.toNat + 10)
      else if 'A' ≤ c ∧ c ≤ 'F' then some (c.toNat - 'A'.toNat + 10)
      else none
  value.filter (· < base)

/-- The text without its underscores, if each of them stands between two digits. The first
argument tells whether the character before is a digit. -/
def ungroupAfter (digit : Char → Bool) : Bool → List Char → Option (List Char)
  | _, [] => some []
  | before, c :: cs =>
    if c = '_' then
      match cs with
      | [] => none
      | d :: _ => if before && digit d then ungroupAfter digit false cs else none
    else (ungroupAfter digit (digit c) cs).map (c :: ·)

/-- The text without its underscores, if each of them stands between two digits. -/
def ungroup? (digit : Char → Bool) (cs : List Char) : Option (List Char) :=
  ungroupAfter digit false cs

/-- Splits off a sign: whether it is a minus, and the text after it. -/
def spanSign : List Char → Bool × List Char
  | [] => (false, [])
  | c :: cs => if c = '-' then (true, cs) else if c = '+' then (false, cs) else (false, c :: cs)

/-- The bytes that pairs of hexadecimal digits denote, if the text holds nothing else. -/
def readBytes? : List Char → Option (List UInt8)
  | [] => some []
  | a :: b :: rest => do
    let high ← digitIn? 16 a
    let low ← digitIn? 16 b
    (readBytes? rest).map ((high * 16 + low).toUInt8 :: ·)
  | [_] => none

/-- The digits of a natural number in a base, if the text holds nothing else and is not empty. -/
def readDigits? (base : Nat) (cs : List Char) : Option (List Nat) :=
  if cs.isEmpty then none else cs.mapM (digitIn? base)

/-- The text after the mark of base sixteen, if it has one; one underscore may follow the mark. -/
def dropHexMark (cs : List Char) : List Char :=
  match cs with
  | '0' :: x :: rest =>
    if x = 'x' || x = 'X' then
      match rest with
      | '_' :: more => more
      | _ => rest
    else cs
  | _ => cs

/-- An integer in base ten. -/
def readInteger? (cs : List Char) : Option Int := do
  let (negative, rest) := spanSign cs
  let plain ← ungroup? isDigit rest
  let ds ← readDigits? 10 plain
  if digitLimit < ds.length then none
  else
    let n : Int := natOfDigits 10 ds
    some (if negative then -n else n)

/-- A natural number in base sixteen, with an optional sign and mark. -/
def readHex? (cs : List Char) : Option Int := do
  let (negative, rest) := spanSign cs
  let plain ← ungroup? (fun c => (digitIn? 16 c).isSome) (dropHexMark rest)
  let ds ← readDigits? 16 plain
  let n : Int := natOfDigits 16 ds
  some (if negative then -n else n)

/-- The exponent after its mark: a sign and at least one digit, up to the end. -/
def readExponent? (cs : List Char) : Option Int :=
  let (negative, rest) := spanSign cs
  match spanDigits rest with
  | (d :: ds, []) =>
    let n : Int := natOfDigits 10 (d :: ds)
    some (if negative then -n else n)
  | _ => none

/-- The digits after the point, and the text after them; none if there is no point. -/
def spanFraction (cs : List Char) : List Nat × List Char :=
  match cs with
  | '.' :: more => spanDigits more
  | _ => ([], cs)

/-- The exponent that follows the digits of a numeral, up to the end: zero if nothing follows. -/
def exponentTail? : List Char → Option Int
  | [] => some 0
  | c :: more => if c = 'e' || c = 'E' then readExponent? more else none

/-- An unsigned decimal numeral as coefficient and exponent of ten: digits with an optional point
among them, at least one digit, and an optional exponent. -/
def readDecimal? (cs : List Char) : Option (Nat × Int) :=
  let (whole, rest) := spanDigits cs
  let (fraction, tail) := spanFraction rest
  if whole.isEmpty && fraction.isEmpty then none
  else
    (exponentTail? tail).map fun e =>
      (natOfDigits 10 (whole ++ fraction), -(fraction.length : Int) + e)

/-- Whether a text spells a word of lower case letters, in either case of ASCII. -/
def spells (word : String) (cs : List Char) : Bool := cs.map Char.toLower == word.toList

end RecordQuery.Numeral
