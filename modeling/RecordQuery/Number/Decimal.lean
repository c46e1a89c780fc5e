import RecordQuery.Number.Binary64.Text

/-!
# Decimal numbers

Numbers with a decimal coefficient and exponent, as the General Decimal Arithmetic defines them:
trailing zeros are kept, and besides the infinities there are quiet and signalling values that
are no number. Integers and floating point numbers embed exactly, so numbers of all three kinds
are compared here.

* `Decimal` is the type, `Decimal.ofInt` and `Decimal.ofBinary64` the embeddings;
* `Decimal.compare?` compares two values exactly, if both are numbers;
* `Decimal.render` writes a value in scientific notation, `Decimal.read?` reads one.
-/

namespace RecordQuery

/-- A decimal number, an infinity, or a value that is no number, with its diagnostic digits. -/
inductive Decimal where
  | finite (negative : Bool) (coefficient : Nat) (exponent : Int)
  | infinite (negative : Bool)
  | nan (negative signaling : Bool) (payload : Nat)
  deriving DecidableEq, Repr, Inhabited

namespace Decimal

open Text

/-- The number of decimal digits of a coefficient. -/
def digitCount (n : Nat) : Nat := (Nat.toDigits 10 n).length

/-- An integer as a decimal number. -/
def ofInt (n : Int) : Decimal := .finite (n < 0) n.natAbs 0

/-- The exact decimal value of a floating point number: a fraction over a power of two is one
over the same power of ten. -/
def ofBinary64 : Binary64 → Decimal
  | .nan => .nan false false 0
  | .infinite negative => .infinite negative
  | .finite negative m e =>
    if 0 ≤ e then .finite negative (m * Nat.pow 2 e.natAbs) 0
    else .finite negative (m * Nat.pow 5 e.natAbs) e

/-- Whether the value signals on every use as a number. -/
def isSignaling : Decimal → Bool
  | .nan _ signaling _ => signaling
  | _ => false

/-! ### Comparison -/

/-- Compares two positive values by the place of their first digit, and only if these agree by
their digits, brought to one exponent. -/
def comparePositive (c : Nat) (e : Int) (d : Nat) (f : Int) : Ordering :=
  match compare (digitCount c + e) (digitCount d + f) with
  | .eq =>
    if f ≤ e then compare (c * Nat.pow 10 (e - f).natAbs) d
    else compare c (d * Nat.pow 10 (f - e).natAbs)
  | o => o

/-- The sign of a value that is a number. -/
def sign : Decimal → Int
  | .finite negative c _ => if c = 0 then 0 else if negative then -1 else 1
  | .infinite negative => if negative then -1 else 1
  | .nan _ _ _ => 0

/-- The order of the absolute values of two numbers. -/
def compareAbs : Decimal → Decimal → Ordering
  | .finite _ c e, .finite _ d f => comparePositive c e d f
  | .infinite _, .infinite _ => .eq
  | .infinite _, _ => .gt
  | _, _ => .lt

/-- Whether the value is a number or an infinity. -/
def isNumber : Decimal → Bool
  | .nan _ _ _ => false
  | _ => true

/-- The order of two values, or none if one of them is no number. -/
def compare? (x y : Decimal) : Option Ordering :=
  if x.isNumber && y.isNumber then
    let s := x.sign
    let t := y.sign
    if s ≠ t then some (compare s t)
    else if s = 0 then some .eq
    else if s = 1 then some (compareAbs x y)
    else some (compareAbs y x)
  else none

/-! ### Text -/

/-- The greatest place that a first digit may have. -/
def greatestPlace : Int := 999999999999999999

/-- The least exponent. -/
def leastExponent : Int := -1999999999999999997

/-- Digits with an exponent of ten: positional when the exponent is not positive and at most six
zeros follow the point, else one digit before the point and an exponent with its sign. -/
def renderDigits (ds : List Char) (exponent : Int) : List Char :=
  let point : Int := ds.length + exponent
  if exponent ≤ 0 ∧ -6 < point then
    if exponent = 0 then ds
    else if point ≤ 0 then '0' :: '.' :: List.replicate point.natAbs '0' ++ ds
    else ds.take point.toNat ++ '.' :: ds.drop point.toNat
  else
    let fraction := match ds with
      | d :: e :: rest => d :: '.' :: e :: rest
      | _ => ds
    let power := point - 1
    fraction ++ 'E' :: (if power < 0 then '-' else '+') :: Nat.toDigits 10 power.natAbs

/-- The written form of a decimal number. -/
def render : Decimal → List Char
  | .finite negative c e =>
    (if negative then ['-'] else []) ++ renderDigits (Nat.toDigits 10 c) e
  | .infinite negative => (if negative then ['-'] else []) ++ "Infinity".toList
  | .nan negative signaling payload =>
    (if negative then ['-'] else []) ++ (if signaling then ['s'] else []) ++ "NaN".toList ++
      (if payload = 0 then [] else Nat.toDigits 10 payload)

/-- A finite value, if its exponent and the place of its first digit are within bounds. -/
def bounded? (negative : Bool) (coefficient : Nat) (exponent : Int) : Option Decimal :=
  if leastExponent ≤ exponent ∧ exponent + digitCount coefficient - 1 ≤ greatestPlace then
    some (.finite negative coefficient exponent)
  else none

/-- The diagnostic digits after the word for no number. -/
def readPayload? (cs : List Char) : Option Nat :=
  match spanDigits cs with
  | (ds, []) => some (natOfDigits 10 ds)
  | _ => none

/-- A decimal number from text without surrounding blanks, in which underscores have no meaning:
a decimal numeral with an optional sign, or a word for infinity or for no number. -/
def read? (cs : List Char) : Option Decimal :=
  let (negative, rest) := Numeral.spanSign (cs.filter (· != '_'))
  let small := rest.map Char.toLower
  if Numeral.spells "inf" rest || Numeral.spells "infinity" rest then some (.infinite negative)
  else if "nan".toList.isPrefixOf small then
    (readPayload? (rest.drop 3)).map (.nan negative false ·)
  else if "snan".toList.isPrefixOf small then
    (readPayload? (rest.drop 4)).map (.nan negative true ·)
  else (Numeral.readDecimal? rest).bind fun p => bounded? negative p.1 p.2

end Decimal
end RecordQuery
