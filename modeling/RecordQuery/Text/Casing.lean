import RecordQuery.Text.Casing.Runs
import RecordQuery.Text.Casing.Sigma

/-!
# Letter case

The full case mappings of Unicode. A character may map to several, and the capital sigma has two
lower case forms, chosen by the letters around it.

* `lower`, `upper` change the case of a text;
* `fold` removes case differences: two texts with one folding differ in case only;
* `foldKey` is the folding of a string, the key of look-ups that ignore case.
-/

namespace RecordQuery.Text

/-- The image of a code point under the first run that holds it, else itself. -/
def imageUnder (runs : List CaseRun) (expansions : List (Nat × List Nat)) (c : Char) :
    List Char :=
  let n := c.toNat
  match expansions.find? fun e => e.1 == n with
  | some e => e.2.map Char.ofNat
  | none =>
    match runs.findSome? fun r => r.image? n with
    | some m => [Char.ofNat m]
    | none => [c]

/-- Lower case of one character, apart from its context. -/
def lowerChar (c : Char) : List Char :=
  if c.toNat < 0x80 then [c.toLower] else imageUnder lowerRuns lowerExpansions c

/-- Upper case of one character. -/
def upperChar (c : Char) : List Char :=
  if c.toNat < 0x80 then [c.toUpper] else imageUnder upperRuns upperExpansions c

/-- The case folding of one character. -/
def foldChar (c : Char) : List Char :=
  if c.toNat < 0x80 then [c.toLower] else imageUnder foldRuns foldExpansions c

/-- Whether a code point lies in one of the intervals. -/
def inRanges (ranges : List (Nat × Nat)) (c : Char) : Bool :=
  ranges.any fun r => r.1 ≤ c.toNat && c.toNat ≤ r.2

/-- Whether the first character that is not passed over is a letter with case. -/
def meetsCased (cs : List Char) : Bool :=
  match cs.dropWhile (inRanges caseIgnorableRanges) with
  | [] => false
  | c :: _ => inRanges casedRanges c

/-- Lower case of a text whose characters before it are given, the nearest first. -/
def lowerAfter (before : List Char) : List Char → List Char
  | [] => []
  | c :: cs =>
    let image :=
      if c.toNat = 0x3A3 then
        [Char.ofNat (if meetsCased before && !meetsCased cs then 0x3C2 else 0x3C3)]
      else lowerChar c
    image ++ lowerAfter (c :: before) cs

/-- Lower case of a text. -/
def lower (cs : List Char) : List Char := lowerAfter [] cs

/-- Upper case of a text. -/
def upper (cs : List Char) : List Char := cs.flatMap upperChar

/-- The text without case differences. -/
def fold (cs : List Char) : List Char := cs.flatMap foldChar

/-- The string without case differences. -/
def foldKey (s : String) : String := String.ofList (fold s.toList)

@[simp] theorem fold_nil : fold [] = [] := rfl

@[simp] theorem fold_cons (c : Char) (cs : List Char) : fold (c :: cs) = foldChar c ++ fold cs :=
  rfl

@[simp] theorem fold_append (cs ds : List Char) : fold (cs ++ ds) = fold cs ++ fold ds := by
  simp [fold]

end RecordQuery.Text
