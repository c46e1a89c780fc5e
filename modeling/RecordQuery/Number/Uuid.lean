import RecordQuery.Number.Numeral
import RecordQuery.Text.Blank
import RecordQuery.Text.Split

/-!
# Universally unique identifiers

An identifier is a number of 128 bits, written as 32 hexadecimal digits in five groups.

* `Uuid.render` is the canonical form;
* `Uuid.read?` also reads the digits without dashes, in braces or after a URN scheme.
-/

namespace RecordQuery

/-- A universally unique identifier. -/
structure Uuid where
  bits : BitVec 128
  deriving DecidableEq, Repr, Inhabited

namespace Uuid

/-- The 32 lower case hexadecimal digits. -/
def hexDigits (u : Uuid) : List Char :=
  let ds := Nat.toDigits 16 u.bits.toNat
  List.replicate (32 - ds.length) '0' ++ ds

/-- The form with groups of 8, 4, 4, 4 and 12 digits. -/
def render (u : Uuid) : List Char :=
  let ds := u.hexDigits
  ds.take 8 ++ '-' :: (ds.drop 8).take 4 ++ '-' :: (ds.drop 12).take 4 ++ '-' ::
    (ds.drop 16).take 4 ++ '-' :: ds.drop 20

/-- Whether a character is passed over around the digits: a blank other than the information
separators. -/
def isSpace (c : Char) : Bool := Text.isBlank c && !(0x1C ≤ c.toNat && c.toNat ≤ 0x1F)

/-- The text without the characters of a class at its two ends. -/
def dropEnds (p : Char → Bool) (cs : List Char) : List Char :=
  ((cs.dropWhile p).reverse.dropWhile p).reverse

/-- An identifier from its digits: 32 characters are left when the scheme, the braces and the
dashes are removed, and they denote a number that is not negative. -/
def read? (cs : List Char) : Option Uuid :=
  let bare := Text.removeAll "uuid:".toList (Text.removeAll "urn:".toList cs)
  let digits := (dropEnds (fun c => c == '\x7b' || c == '\x7d') bare).filter (· != '-')
  if digits.length = 32 then
    match Numeral.readHex? (dropEnds isSpace digits) with
    | some n => if 0 ≤ n then some ⟨BitVec.ofNat 128 n.toNat⟩ else none
    | none => none
  else none

end Uuid
end RecordQuery
