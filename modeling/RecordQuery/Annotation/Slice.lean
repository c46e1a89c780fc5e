import RecordQuery.Value

/-!
# Slices

A part of a sequence, given by the places where it begins and ends and by the step from one place to
the next. Places count from the end if they are negative, and may lie beyond the ends.

* `Slice.places` are the places of a slice in a sequence of some length;
* `Slice.of` is the part of a sequence.
-/

namespace RecordQuery.Annotation

/-- The bounds of a part of a sequence, each of which may be left out. -/
structure Slice where
  start : Option Int
  stop : Option Int
  step : Option Int

namespace Slice

/-- A place in a sequence of some length, not below a least and not above a greatest one. -/
def within (length least greatest place : Int) : Int :=
  max least (min greatest (if place < 0 then place + length else place))

/-- The number of steps from one place up to another one, which is not reached. -/
def steps (distance step : Int) : Nat := ((distance + step - 1) / step).toNat

/-- The places of a slice in a sequence of some length. There is none with steps of zero. -/
def places (s : Slice) (length : Nat) : Except Fault (List Nat) :=
  let n : Int := length
  let step := s.step.getD 1
  if step = 0 then .error .invalidValue
  else
    let (least, greatest) := if 0 < step then (0, n) else (-1, n - 1)
    let start := s.start.elim (if 0 < step then least else greatest) (within n least greatest)
    let stop := s.stop.elim (if 0 < step then greatest else least) (within n least greatest)
    let count := if 0 < step then steps (stop - start) step else steps (start - stop) (-step)
    .ok ((List.range count).map fun (k : Nat) => (start + (k : Int) * step).toNat)

/-- The part of a sequence that a slice gives. -/
def of {α : Type} (s : Slice) (xs : List α) : Except Fault (List α) :=
  (s.places xs.length).map fun places => places.filterMap fun i => xs[i]?

end Slice
end RecordQuery.Annotation
