/-!
# Stable sorting

Sorting by a test of order that can fail.

* `stableSort` sorts ascending: the elements that are in order at the beginning stay, and each
  further element is put into its place among those before it, found by halving;
* `stableSortDescending` sorts descending.

Both keep the order of elements neither of which is less than the other.
-/

namespace RecordQuery

variable {α ε : Type}

/-- The length of the longest beginning in which a test holds of each element and the one before
it, after a first element. -/
def runLength (test : α → α → Except ε Bool) : α → List α → Except ε Nat
  | _, [] => .ok 0
  | a, b :: rest => do if ← test b a then (runLength test b rest).map (· + 1) else .ok 0

/-- Splits off the elements at the beginning that are in order: ascending ones as they are, or
strictly descending ones in reverse. -/
def splitRun (less : α → α → Except ε Bool) : List α → Except ε (List α × List α)
  | [] => .ok ([], [])
  | [a] => .ok ([a], [])
  | a :: b :: rest => do
    if ← less b a then
      -- strictly descending, so that no equal elements change places
      let n ← runLength less b rest
      .ok ((a :: b :: rest.take n).reverse, rest.drop n)
    else
      let n ← runLength (fun y x => (less y x).map not) b rest
      .ok (a :: b :: rest.take n, rest.drop n)

/-- The place at which an element goes into a sorted list, after all elements that it is not less
than, searched between two places. The first argument bounds the number of halvings. -/
def placeIn (less : α → α → Except ε Bool) (pivot : α) (sorted : Array α) :
    Nat → Nat → Nat → Except ε Nat
  | 0, low, _ => .ok low
  | bound + 1, low, high =>
    if low < high then
      let middle := low + (high - low) / 2
      match sorted[middle]? with
      | none => .ok low
      | some a => do
        -- an equal element goes behind, which keeps the sort stable
        if ← less pivot a then placeIn less pivot sorted bound low middle
        else placeIn less pivot sorted bound (middle + 1) high
    else .ok low

/-- Puts elements one by one into a sorted list. -/
def insertAll (less : α → α → Except ε Bool) : List α → List α → Except ε (List α)
  | sorted, [] => .ok sorted
  | sorted, a :: rest => do
    let n := sorted.length
    let place ← placeIn less a sorted.toArray (n + 1) 0 n
    insertAll less (sorted.take place ++ a :: sorted.drop place) rest

/-- The elements in ascending order. -/
def stableSort (less : α → α → Except ε Bool) (as : List α) : Except ε (List α) := do
  let (run, rest) ← splitRun less as
  insertAll less run rest

/-- The elements in descending order. -/
def stableSortDescending (less : α → α → Except ε Bool) (as : List α) : Except ε (List α) :=
  (stableSort less as.reverse).map List.reverse

end RecordQuery
