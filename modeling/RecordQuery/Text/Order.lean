/-!
# Order of texts

Texts are ordered by the code points of their characters, a text before its continuations.

* `compare` is the order, `sort` sorts by it.
-/

namespace RecordQuery.Text

/-- The lexicographic order of two lists of numbers. -/
def compareNats : List Nat → List Nat → Ordering
  | [], [] => .eq
  | [], _ :: _ => .lt
  | _ :: _, [] => .gt
  | m :: ms, n :: ns =>
    match Ord.compare m n with
    | .eq => compareNats ms ns
    | o => o

/-- The order of two texts. -/
def compare (s t : String) : Ordering :=
  compareNats (s.toList.map Char.toNat) (t.toList.map Char.toNat)

/-- The texts in ascending order. -/
def sort (texts : List String) : List String := texts.mergeSort fun s t => compare s t != .gt

end RecordQuery.Text
