import RecordQuery.Value.Compare

/-!
# The order of a set

A set does not keep the order in which its elements came: each stands at a place of a table, which
its residue decides, and the set lists them from place to place. Numbers that are equal have one
residue, whatever their kind. The place of a text or a time says nothing, and a set with such an
element lists them all in the order in which they came.

* `Value.residue?` is the residue of a number;
* `Places.add` puts an element into a table, which grows before it is full;
* `Value.arranged` lists values as the elements of a set.
-/

namespace RecordQuery

/-! ### Residues -/

namespace Residue

/-- The prime by which residues are taken. -/
def modulus : Nat := 2305843009213693951

/-- The number that a tenth is up to multiples of the modulus. -/
def tenth : Nat := 2075258708292324556

theorem ten_mul_tenth : 10 * tenth % modulus = 1 := by decide

/-- A power up to multiples of the modulus. -/
def power (base n : Nat) : Nat :=
  if n = 0 then 1
  else
    let half := power (base * base % modulus) (n / 2)
    if n % 2 = 1 then base * half % modulus else half

/-- The residue of a number with a sign. The residue of minus one is not in use. -/
def signed (negative : Bool) (r : Nat) : Int :=
  if negative then (if r = 1 then -2 else -r) else r

/-- The residue of an infinity. -/
def infinite : Nat := 314159

/-- The residue of a decimal number. -/
def ofDecimal? : Decimal → Option Int
  | .finite negative c e =>
    let scale := power (if e < 0 then tenth else 10) e.natAbs
    some (signed negative (c * scale % modulus))
  | .infinite negative => some (signed negative infinite)
  | .nan _ _ _ => none

end Residue

/-- The residue that decides the place of a value in a set, if the value is a number or consists of
one. -/
def Value.residue? (v : Value) : Option Int :=
  match v.unwrapped with
  | .uuid u => some (Residue.signed false (u.bits.toNat % Residue.modulus))
  | v => v.asNumber?.bind Residue.ofDecimal?

/-! ### Places -/

/-- A table of places, each of which is free or holds a value with its residue. -/
abbrev Places := Array (Option (Int × Value))

namespace Places

/-- A table of free places. -/
def free (size : Nat) : Places := Array.replicate size none

/-- The number of places of the least table. -/
def leastSize : Nat := 8

/-- Whether a place is free. -/
def isFree (t : Places) (place : Nat) : Bool := (t[place]?.getD none).isNone

/-- The number of places that are tried in a row. -/
def row : Nat := 10

/-- The free place for a value: the first one of a row from some place on, if the table goes on so
far, else that place alone, and then from a place further on that is decided by what is left of the
residue. -/
def seek (t : Places) : Nat → Nat → Nat → Nat
  | 0, place, _ => place
  | fuel + 1, place, rest =>
    let tried := List.range' place (if place + row ≤ t.size then row else 1)
    match tried.find? t.isFree with
    | some found => found
    | none => seek t fuel ((place * 5 + 1 + rest / 32) % t.size) (rest / 32)

/-- The table with one more value. A residue is a word of 64 bits, of which nothing is left after
thirteen steps; from then on the steps come to every place. -/
def put (t : Places) (entry : Int × Value) : Places :=
  let word := (entry.1 % 18446744073709551616).toNat
  t.setIfInBounds (t.seek (t.size + 13) (word % t.size) word) (some entry)

/-- What a table holds, from place to place. -/
def entries (t : Places) : List (Int × Value) := t.toList.filterMap id

/-- The size of a table that gets room for as many values. -/
def sizeFor (room : Nat) : Nat := Nat.pow 2 (Nat.log2 room + 1)

/-- The table with one more value, and with more places if it is three fifths full. -/
def add (t : Places) (entry : Int × Value) : Places :=
  let t := t.put entry
  let held := t.entries.length
  if held * 5 < (t.size - 1) * 3 then t
  else t.entries.foldl put (free (sizeFor (if held ≤ 50000 then held * 4 else held * 2)))

end Places

namespace Value

/-- The values as the elements of a set, in the order in which it lists them. -/
def arranged (vs : List Value) : List Value :=
  let kept := distinct vs
  match kept.mapM fun v => v.residue?.map fun r => (r, v) with
  | some entries => (entries.foldl Places.add (Places.free Places.leastSize)).entries.map Prod.snd
  | none => kept

end Value
end RecordQuery
