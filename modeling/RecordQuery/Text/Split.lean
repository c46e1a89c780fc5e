/-!
# Splitting and joining

Cutting a text at a separator and putting parts together again, over lists of characters.

* `pieces` cuts at every occurrence of a character, `cut` at the first one;
* `join` puts strings together with a separator between them;
* `removeAll` takes out every occurrence of a word, and `occursIn` tells whether there is one.
-/

namespace RecordQuery.Text

/-- The pieces between the occurrences of a separator: one more than there are separators. -/
def pieces (sep : Char) : List Char → List (List Char)
  | [] => [[]]
  | c :: cs =>
    if c = sep then [] :: pieces sep cs
    else
      match pieces sep cs with
      | [] => [[c]]
      | p :: ps => (c :: p) :: ps

/-- The text before the first separator and the text after it, if there is a separator. -/
def cut (sep : Char) : List Char → Option (List Char × List Char)
  | [] => none
  | c :: cs => if c = sep then some ([], cs) else (cut sep cs).map fun p => (c :: p.1, p.2)

/-- The strings in order, with a separator between neighbours. -/
def join (sep : String) (parts : List String) : String :=
  String.ofList (List.intercalate sep.toList (parts.map String.toList))

/-- The text without the occurrences of a word, found from left to right without overlap. The
first argument counts the characters of an occurrence that are still to be passed over. -/
def removeFrom (word : List Char) : Nat → List Char → List Char
  | _, [] => []
  | n + 1, _ :: cs => removeFrom word n cs
  | 0, c :: cs =>
    if word.isPrefixOf (c :: cs) then removeFrom word (word.length - 1) cs
    else c :: removeFrom word 0 cs

/-- The text without the occurrences of a word. -/
def removeAll (word : List Char) (cs : List Char) : List Char := removeFrom word 0 cs

/-- Whether a word stands somewhere in a text. -/
def occursIn (word : List Char) : List Char → Bool
  | [] => word.isEmpty
  | c :: cs => word.isPrefixOf (c :: cs) || occursIn word cs

theorem pieces_ne_nil (sep : Char) (cs : List Char) : pieces sep cs ≠ [] := by
  cases cs with
  | nil => simp [pieces]
  | cons c cs =>
    simp only [pieces]
    split
    · simp
    · split <;> simp

end RecordQuery.Text
