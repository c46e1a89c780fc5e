import RecordQuery.Number.Binary64
import RecordQuery.Number.Numeral

/-!
# Floating point text

The written form of a floating point number is the shortest decimal that reads back to it, and of
the shortest ones the nearest. It is positional from 10⁻⁴ up to 10¹⁶ and scientific elsewhere.

* `Binary64.shortest` finds digits and decimal exponent;
* `Binary64.render` writes a number, `Binary64.read?` reads one.
-/

namespace RecordQuery.Binary64

/-- The number of decimal digits of a natural number. -/
def digitCount (n : Nat) : Nat := (Nat.toDigits 10 n).length

/-- The number nearest to `coefficient * 10 ^ exponent`. Exponents far outside the range of
floating point are decided without computing the power. -/
def ofDecimal (negative : Bool) (coefficient : Nat) (exponent : Int) : Binary64 :=
  if coefficient = 0 then zero negative
  else
    let magnitude := digitCount coefficient + exponent
    if 310 < magnitude then .infinite negative
    else if magnitude < -330 then zero negative
    else if exponent < 0 then nearest negative coefficient (Nat.pow 10 exponent.natAbs)
    else nearest negative (coefficient * Nat.pow 10 exponent.natAbs) 1

/-! ### Writing -/

/-- The exponent `k` with `10 ^ (k - 1) ≤ num / den < 10 ^ k`, for a positive fraction. -/
def decimalExponent (num den : Nat) : Int :=
  if den ≤ num then digitCount (num / den)
  else
    -- below one the place is counted by the zeros after the point; a power of ten is the edge
    let t := digitCount (den / num)
    if num * Nat.pow 10 (t - 1) = den then 2 - t else 1 - t

/-- The fraction divided by a power of ten, rounded down, and whether nothing is cut off. -/
def onGrid (num den : Nat) (power : Int) : Nat × Nat × Nat :=
  let n := if power < 0 then num * Nat.pow 10 power.natAbs else num
  let d := if power < 0 then den else den * Nat.pow 10 power.natAbs
  (n / d, n % d, d)

/-- The point of a decimal grid that reads back to a positive number, the nearer one of two. -/
def gridPoint? (m : Nat) (e : Int) (num den : Nat) (power : Int) : Option Nat :=
  let (low, rest, unit) := onGrid num den power
  let reads (c : Nat) : Bool := ofDecimal false c power == .finite false m e
  let lowNearer := 2 * rest < unit || (2 * rest == unit && low % 2 == 0)
  -- the number lies between these two points of the grid
  match reads low, reads (low + 1) with
  | true, true => some (if lowNearer then low else low + 1)
  | true, false => some low
  | false, true => some (low + 1)
  | false, false => none

/-- The first decimal grid from a number of digits on that has a point reading back to the
number; seventeen digits always suffice. -/
def shortestFrom (m : Nat) (e : Int) (num den : Nat) (k : Int) : Nat → Nat → Nat × Int
  | 0, n => ((onGrid num den (k - n)).1, k - n)
  | tries + 1, n =>
    match gridPoint? m e num den (k - n) with
    | some c => (c, k - n)
    | none => shortestFrom m e num den k tries (n + 1)

/-- Coefficient and exponent of the shortest decimal that reads back to a positive number. -/
def shortest (m : Nat) (e : Int) : Nat × Int :=
  let num := if 0 ≤ e then m * Nat.pow 2 e.natAbs else m
  let den := if 0 ≤ e then 1 else Nat.pow 2 e.natAbs
  shortestFrom m e num den (decimalExponent num den) 17 1

/-- A list of digits without the zeros at its end. -/
def dropTrailingZeros (ds : List Char) : List Char := (ds.reverse.dropWhile (· == '0')).reverse

/-- Digits with the decimal point after the first `point` places; a point at the end is followed
by one zero. -/
def positional (ds : List Char) (point : Int) : List Char :=
  if point ≤ 0 then '0' :: '.' :: List.replicate point.natAbs '0' ++ ds
  else
    let p := point.toNat
    if ds.length ≤ p then ds ++ List.replicate (p - ds.length) '0' ++ ['.', '0']
    else ds.take p ++ '.' :: ds.drop p

/-- Digits in scientific notation: one digit before the point and an exponent of two digits at
least, with its sign. -/
def scientific (ds : List Char) (exponent : Int) : List Char :=
  let digits := Nat.toDigits 10 exponent.natAbs
  let tail := (if exponent < 0 then '-' else '+') ::
    (if digits.length < 2 then '0' :: digits else digits)
  let fraction := match ds with
    | d :: e :: rest => d :: '.' :: e :: rest
    | _ => ds
  fraction ++ 'e' :: tail

/-- The digits of a positive number and the place of its decimal point. -/
def digitsOf (m : Nat) (e : Int) : List Char × Int :=
  let (c, power) := shortest m e
  let ds := Nat.toDigits 10 c
  (dropTrailingZeros ds, ds.length + power)

/-- The written form of a floating point number. -/
def render : Binary64 → List Char
  | .nan => ['n', 'a', 'n']
  | .infinite negative => (if negative then ['-'] else []) ++ ['i', 'n', 'f']
  | .finite negative m e =>
    let sign := if negative then ['-'] else []
    if m = 0 then sign ++ ['0', '.', '0']
    else
      let (ds, point) := digitsOf m e
      sign ++ if -4 < point ∧ point ≤ 16 then positional ds point else scientific ds (point - 1)

/-! ### Reading -/

/-- A floating point number from text without surrounding blanks: a decimal numeral with an
optional sign, or a word for infinity or for no number. -/
def read? (cs : List Char) : Option Binary64 :=
  -- a sign may stand before the words too
  let (negative, rest) := Numeral.spanSign cs
  if Numeral.spells "inf" rest || Numeral.spells "infinity" rest then some (.infinite negative)
  else if Numeral.spells "nan" rest then some .nan
  else do
    let plain ← Numeral.ungroup? Text.isDigit rest
    let (c, e) ← Numeral.readDecimal? plain
    some (ofDecimal negative c e)

end RecordQuery.Binary64
