/-!
# Floating point numbers

Binary floating point of 64 bits, kept as sign, mantissa and exponent rather than as a machine
word: every finite value is then a fraction that can be compared with integers and decimal
numbers exactly, and every operation is a rounding of an exact result.

* `Binary64` is the type; `Binary64.nearest` is the only place where rounding happens;
* `Binary64.ratio?` gives the exact value as a signed fraction;
* `Binary64.mul`, `Binary64.add` and `Binary64.split` are the operations that durations need.
-/

namespace RecordQuery

/-- A floating point number. The value of `finite negative mantissa exponent` is the mantissa
times two to the exponent, with its sign; values made by `Binary64.nearest` have a mantissa of 53
bits or the least exponent. -/
inductive Binary64 where
  | finite (negative : Bool) (mantissa : Nat) (exponent : Int)
  | infinite (negative : Bool)
  | nan
  deriving DecidableEq, Repr, Inhabited

namespace Binary64

/-- The exponent of the smallest positive number. -/
def leastExponent : Int := -1074

/-- The exponent of the largest numbers. -/
def greatestExponent : Int := 971

/-- Zero with a sign. -/
def zero (negative : Bool) : Binary64 := .finite negative 0 leastExponent

/-- The quotient of two natural numbers, rounded to the nearest one; a half goes to the even
neighbour. -/
def roundDiv (num den : Nat) : Nat :=
  let q := num / den
  let r := num % den
  if 2 * r < den then q
  else if den < 2 * r then q + 1
  else if q % 2 = 0 then q else q + 1

/-- The fraction `num / (den * 2 ^ e)` with natural terms. -/
def scaled (num den : Nat) (e : Int) : Nat × Nat :=
  if e < 0 then (num * Nat.pow 2 e.natAbs, den) else (num, den * Nat.pow 2 e.natAbs)

/-- The exponent at which a fraction has a mantissa of 53 bits, or the least exponent. -/
def exponentFor (num den : Nat) : Int :=
  let guess := max ((num.log2 : Int) - den.log2 - 53) leastExponent
  let (n, d) := scaled num den guess
  -- the guess from the numbers of bits is exact or one too small
  if n / d < Nat.pow 2 53 then guess else guess + 1

/-- The floating point number nearest to a fraction; of two equally near ones, that with the even
mantissa. -/
def nearest (negative : Bool) (num den : Nat) : Binary64 :=
  if num = 0 then zero negative
  else
    let e := exponentFor num den
    let (n, d) := scaled num den e
    let m := roundDiv n d
    -- rounding up may carry into a 54th bit
    let (m, e) := if m = Nat.pow 2 53 then (Nat.pow 2 52, e + 1) else (m, e)
    if greatestExponent < e then .infinite negative else .finite negative m e

/-- The quotient of an integer by a positive natural number. -/
def ofRatio (num : Int) (den : Nat) : Binary64 := nearest (num < 0) num.natAbs den

/-- The number nearest to an integer. -/
def ofInt (n : Int) : Binary64 := ofRatio n 1

/-- The exact value as a fraction, for a finite number. -/
def ratio? : Binary64 → Option (Int × Nat)
  | .finite negative m e =>
    let num : Nat := if 0 ≤ e then m * Nat.pow 2 e.natAbs else m
    let den : Nat := if 0 ≤ e then 1 else Nat.pow 2 e.natAbs
    some (if negative then -(num : Int) else num, den)
  | _ => none

/-- Whether the sign is set. -/
def isNegative : Binary64 → Bool
  | .finite negative _ _ => negative
  | .infinite negative => negative
  | .nan => false

/-- The integer value, if the number is an integer. -/
def toInt? (x : Binary64) : Option Int :=
  match x.ratio? with
  | some (num, den) => if num % den = 0 then some (num / den) else none
  | none => none

/-- The product of two finite numbers, rounded once. -/
def mul : Binary64 → Binary64 → Binary64
  | .finite s m e, .finite t n f =>
    let (num, den) := scaled (m * n) 1 (-(e + f))
    nearest (xor s t) num den
  | _, _ => .nan

/-- The sum of two finite numbers, rounded once. -/
def add (x y : Binary64) : Binary64 :=
  match x.ratio?, y.ratio? with
  | some (a, b), some (c, d) =>
    let sum := a * d + c * b
    -- the sum of opposite numbers is the positive zero
    if sum = 0 then zero (x.isNegative && y.isNegative) else ofRatio sum (b * d)
  | _, _ => .nan

/-- The integer part of a finite number, toward zero, and the fraction that is left. -/
def split (x : Binary64) : Option (Int × Binary64) :=
  match x.ratio? with
  | some (num, den) =>
    let whole := num.tdiv den
    let rest := num - whole * den
    some (whole, nearest x.isNegative rest.natAbs den)
  | none => none

end Binary64
end RecordQuery
