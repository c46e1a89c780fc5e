import Mathlib.Data.List.Infix
import RecordQuery.Sql.Text

/-!
# Pattern tests

A pattern test of a database compares a text with a pattern, in which two characters stand for other
texts unless an escape character is in front of them. `escapePattern` writes a text so that it means
itself in a pattern, whatever characters it has.

* `readPattern` is what a pattern says, `fits` whether a text fits it.
* `readPattern_escapePattern` — an escaped text is read as its own letters.
* `fits_pattern` — the patterns of the tests say that a text has a part somewhere, at its beginning,
  or at its end.
-/

namespace RecordQuery.Sql

open Text

/-- What a pattern asks of a text, from left to right. -/
inductive PatternPart where
  | letter (c : Char)
  | anyLetter
  | anyText
  deriving DecidableEq

/-- What a character means that no escape character stands before. -/
def PatternPart.of (c : Char) : PatternPart :=
  if c = '%' then anyText else if c = '_' then anyLetter else letter c

/-- What the rest of a pattern says, where an escape character may stand right before it. -/
def readPatternFrom (escape : Option Char) : Bool → List Char → List PatternPart
  | _, [] => []
  | true, c :: cs => .letter c :: readPatternFrom escape false cs
  | false, c :: cs =>
    if escape = some c then readPatternFrom escape true cs
    else .of c :: readPatternFrom escape false cs

/-- What a pattern says, with an escape character if there is one. -/
def readPattern (escape : Option Char) (cs : List Char) : List PatternPart :=
  readPatternFrom escape false cs

/-- Whether a text fits what a pattern says. -/
def fits : List PatternPart → List Char → Bool
  | [], cs => cs.isEmpty
  | .letter _ :: _, [] | .anyLetter :: _, [] => false
  | .letter c :: ps, d :: cs => c == d && fits ps cs
  | .anyLetter :: ps, _ :: cs => fits ps cs
  | .anyText :: ps, cs => cs.tails.any (fits ps)

/-- The pattern of the texts that have a part in a place. -/
def Place.pattern (place : Place) (part : List Char) : List Char :=
  match place with
  | .anywhere => '%' :: (escapePattern part ++ ['%'])
  | .start => escapePattern part ++ ['%']
  | .finish => '%' :: escapePattern part

/-- Whether a text has a part in a place. -/
def Place.has (place : Place) (part cs : List Char) : Bool :=
  match place with
  | .anywhere => occursIn part cs
  | .start => part.isPrefixOf cs
  | .finish => part.isSuffixOf cs

/-! ### Reading -/

/-- **Escaped texts mean themselves**, whatever follows them in the pattern. -/
theorem readPattern_escapePattern (part rest : List Char) :
    readPattern (some '/') (escapePattern part ++ rest) =
      part.map .letter ++ readPattern (some '/') rest := by
  induction part with
  | nil => rfl
  | cons c part ih =>
    have hcons : escapePattern (c :: part) ++ rest =
        (if c = '/' ∨ c = '%' ∨ c = '_' then ['/', c] else [c]) ++
          (escapePattern part ++ rest) := by
      simp [escapePattern, or_assoc]
    rw [hcons, List.map_cons, List.cons_append, ← ih]
    by_cases hc : c = '/' ∨ c = '%' ∨ c = '_'
    · rw [if_pos hc]
      rfl
    · -- any other character needs no escape
      rw [if_neg hc]
      simp only [not_or] at hc
      obtain ⟨hslash, hpercent, hunderscore⟩ := hc
      have hof : PatternPart.of c = .letter c := by
        rw [PatternPart.of, if_neg hpercent, if_neg hunderscore]
      have hescape : ¬some '/' = some c := fun h => hslash (Option.some.inj h).symm
      rw [List.singleton_append, readPattern, readPatternFrom, if_neg hescape, hof]
      rfl

/-! ### Fitting -/

theorem fits_letters (part : List Char) (ps : List PatternPart) (cs : List Char) :
    fits (part.map .letter ++ ps) cs = true ↔ ∃ rest, part ++ rest = cs ∧ fits ps rest = true := by
  induction part generalizing cs with
  | nil => simp
  | cons c part ih =>
    cases cs with
    | nil => simp [fits]
    | cons d cs =>
      rw [List.map_cons, List.cons_append, fits, Bool.and_eq_true, beq_iff_eq, ih]
      constructor
      · rintro ⟨rfl, rest, rfl, h⟩
        exact ⟨rest, rfl, h⟩
      · rintro ⟨rest, hrest, h⟩
        obtain ⟨rfl, rfl⟩ := List.cons_eq_cons.mp hrest
        exact ⟨rfl, rest, rfl, h⟩

theorem fits_anyText (ps : List PatternPart) (cs : List Char) :
    fits (.anyText :: ps) cs = true ↔ ∃ before rest, before ++ rest = cs ∧ fits ps rest = true := by
  rw [fits, List.any_eq_true]
  constructor
  · rintro ⟨rest, hmem, h⟩
    obtain ⟨before, hbefore⟩ := (List.mem_tails rest cs).mp hmem
    exact ⟨before, rest, hbefore, h⟩
  · rintro ⟨before, rest, hbefore, h⟩
    exact ⟨rest, (List.mem_tails rest cs).mpr ⟨before, hbefore⟩, h⟩

theorem fits_anyText_nil (cs : List Char) : fits [.anyText] cs = true :=
  (fits_anyText [] cs).mpr ⟨cs, [], List.append_nil cs, rfl⟩

theorem occursIn_iff (part cs : List Char) :
    occursIn part cs = true ↔ ∃ before rest, before ++ (part ++ rest) = cs := by
  induction cs with
  | nil =>
    rw [occursIn, List.isEmpty_iff]
    constructor
    · rintro rfl
      exact ⟨[], [], rfl⟩
    · rintro ⟨before, rest, h⟩
      simp only [List.append_eq_nil_iff] at h
      exact h.2.1
  | cons c cs ih =>
    rw [occursIn, Bool.or_eq_true, List.isPrefixOf_iff_prefix, ih]
    constructor
    · rintro (⟨rest, hrest⟩ | ⟨before, rest, rfl⟩)
      · exact ⟨[], rest, hrest⟩
      · exact ⟨c :: before, rest, rfl⟩
    · rintro ⟨before, rest, h⟩
      -- the part begins here, or further behind
      cases before with
      | nil => exact .inl ⟨rest, h⟩
      | cons d before =>
        obtain ⟨rfl, rfl⟩ := List.cons_eq_cons.mp h
        exact .inr ⟨before, rest, rfl⟩

/-- **Patterns of parts.** A text fits the pattern of a part in a place exactly when it has the part
there, also if the part has characters that mean something in patterns. -/
theorem fits_pattern (place : Place) (part cs : List Char) :
    fits (readPattern (some '/') (place.pattern part)) cs = place.has part cs := by
  have hend : readPattern (some '/') ['%'] = [.anyText] := rfl
  have hbegin : ∀ ds, readPattern (some '/') ('%' :: ds) = .anyText :: readPattern (some '/') ds :=
    fun _ => rfl
  rw [Bool.eq_iff_iff]
  cases place with
  | anywhere =>
    rw [Place.pattern, hbegin, readPattern_escapePattern, hend, fits_anyText, Place.has,
      occursIn_iff]
    constructor
    · rintro ⟨before, rest, rfl, h⟩
      obtain ⟨after, rfl, -⟩ := (fits_letters part _ rest).mp h
      exact ⟨before, after, rfl⟩
    · rintro ⟨before, after, rfl⟩
      exact ⟨before, part ++ after, rfl,
        (fits_letters part _ _).mpr ⟨after, rfl, fits_anyText_nil after⟩⟩
  | start =>
    rw [Place.pattern, readPattern_escapePattern, hend, fits_letters, Place.has,
      List.isPrefixOf_iff_prefix]
    exact ⟨fun ⟨rest, h, _⟩ => ⟨rest, h⟩, fun ⟨rest, h⟩ => ⟨rest, h, fits_anyText_nil rest⟩⟩
  | finish =>
    have hread := readPattern_escapePattern part []
    rw [List.append_nil] at hread
    rw [Place.pattern, hbegin, hread, fits_anyText, Place.has, List.isSuffixOf_iff_suffix]
    constructor
    · rintro ⟨before, rest, rfl, h⟩
      obtain ⟨after, rfl, hafter⟩ := (fits_letters part _ rest).mp h
      -- nothing follows the part
      rw [readPattern, readPatternFrom, fits, List.isEmpty_iff] at hafter
      rw [hafter, List.append_nil]
      exact ⟨before, rfl⟩
    · rintro ⟨before, rfl⟩
      refine ⟨before, part, rfl, (fits_letters part _ part).mpr ⟨[], ?_, rfl⟩⟩
      exact List.append_nil part

end RecordQuery.Sql
