import RecordQuery.Number.Binary64

/-!
# Similar names

Which names are close to a misspelt one. The similarity of two texts is that of Ratcliff and
Obershelp: twice the number of matching characters over the number of all characters, where the
matches are the longest common block and, recursively, those on both sides of it.

* `longestBlock` is the longest common block, the leftmost of several;
* `similarity` is the ratio;
* `closeMatches` lists the candidates above a cutoff, best first.

In a long second text, characters that make up more than about a hundredth of it do not start a
block; they only extend one.
-/

namespace RecordQuery.Text

/-- A common block: where it begins in the first and in the second text, and its length. -/
structure Block where
  first : Nat
  second : Nat
  size : Nat
  deriving Repr

/-- For each place of the second text, the length of the common block that ends there and at the
current character of the first text. The list holds the lengths for the character before, moved
by one place. -/
def blockEnds (seed : Char → Bool) (c : Char) : List Char → List Nat → List Nat
  | d :: ds, k :: ks => (if d = c && seed d then k + 1 else 0) :: blockEnds seed c ds ks
  | _, _ => []

/-- The better of the best block so far and those that end in the current row. -/
def bestInRow (i : Nat) : Nat → List Nat → Block → Block
  | _, [], best => best
  | j, k :: ks, best =>
    bestInRow i (j + 1) ks (if best.size < k then ⟨i + 1 - k, j + 1 - k, k⟩ else best)

/-- The longest block that the rows from the current one on contain. -/
def bestBlock (seed : Char → Bool) (second : List Char) :
    Nat → List Char → List Nat → Block → Block
  | _, [], _, best => best
  | i, c :: cs, row, best =>
    let ends := blockEnds seed c second (0 :: row)
    bestBlock seed second (i + 1) cs ends (bestInRow i 0 ends best)

/-- The number of characters that two texts share at their beginning. -/
def commonLength : List Char → List Char → Nat
  | c :: cs, d :: ds => if c = d then commonLength cs ds + 1 else 0
  | _, _ => 0

/-- The longest common block of seed characters, the first one in the first text and then in the
second, extended on both sides by equal characters. -/
def longestBlock (seed : Char → Bool) (a b : List Char) : Block :=
  let core := bestBlock seed b 0 a (List.replicate b.length 0) ⟨0, 0, 0⟩
  let back := commonLength (a.take core.first).reverse (b.take core.second).reverse
  let ahead := commonLength (a.drop (core.first + core.size)) (b.drop (core.second + core.size))
  ⟨core.first - back, core.second - back, core.size + back + ahead⟩

/-- The number of matching characters. The first argument bounds the depth; the length of the
first text suffices, since each side of a block is shorter. -/
def matching (seed : Char → Bool) : Nat → List Char → List Char → Nat
  | 0, _, _ => 0
  | depth + 1, a, b =>
    let m := longestBlock seed a b
    if m.size = 0 then 0
    else
      m.size + matching seed depth (a.take m.first) (b.take m.second) +
        matching seed depth (a.drop (m.first + m.size)) (b.drop (m.second + m.size))

/-- Texts of this length on have characters too common to start a block. -/
def longText : Nat := 200

/-- Whether a character may start a block in a second text. -/
def isSeed (b : List Char) (c : Char) : Bool :=
  b.length < longText || b.count c ≤ b.length / 100 + 1

/-- The similarity of two texts, between zero and one. -/
def similarity (a b : List Char) : Binary64 :=
  let total := a.length + b.length
  if total = 0 then Binary64.ofInt 1
  else Binary64.ofRatio (2 * matching (isSeed b) a.length a b : Nat) total

/-- The order of two finite floating point numbers. -/
def compareRatio (x y : Binary64) : Ordering :=
  match x.ratio?, y.ratio? with
  | some (a, b), some (c, d) => Ord.compare (a * (d : Int)) (c * (b : Int))
  | _, _ => .eq

/-- Whether a scored candidate goes before another: by a greater score, then by a greater name. -/
def ranksBefore (x y : Binary64 × String) : Bool :=
  match compareRatio x.1 y.1 with
  | .gt => true
  | .lt => false
  | .eq => y.2 ≤ x.2

/-- At most so many suggestions are made. -/
def suggestionLimit : Nat := 5

/-- The candidates whose similarity to a name reaches the cutoff, best first. -/
def closeMatches (cutoff : Binary64) (name : String) (candidates : List String) : List String :=
  let scored := candidates.map fun c => (similarity c.toList name.toList, c)
  let close := scored.filter fun s => compareRatio s.1 cutoff != .lt
  ((close.mergeSort ranksBefore).take suggestionLimit).map Prod.snd

end RecordQuery.Text
