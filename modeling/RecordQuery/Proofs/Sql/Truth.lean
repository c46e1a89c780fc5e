import RecordQuery.Proofs.Sql.Pattern
import RecordQuery.Sql.Filter
import RecordQuery.Value.Compare

/-!
# Truth of clauses

What a clause says about a row of a database. A test of a null column is neither true nor false, and
what is made of such tests may be neither. A row is selected when its clause is true.

* `Database` has the rows of each table, `RowLink.joins` tells which rows belong together.
* `Clause.truth` is the truth of a clause for a row: `some true`, `some false`, or `none` where it
  is not known. That some linked row satisfies a condition is always known.
* `truth_joinAll`, `truth_negate` — clauses are kept small when they are joined and negated, and
  this does not change their truth, where it is not known either.
-/

namespace RecordQuery.Sql

/-! ### Databases -/

/-- A row: the value of each column, by the column's label. -/
abbrev Row := String → Value

/-- The rows of each table, by its name. -/
structure Database where
  rows : String → List Row

/-- Whether a row of the target belongs to a row of the owner. Null belongs to nothing. -/
def RowLink.joins (link : RowLink) (row other : Row) : Bool :=
  let key := row link.ownerLabel
  !key.isNull && (key.eq (other link.targetLabel)).toOption == some true

/-- The rows of the target that belong to a row of the owner. -/
def Database.related (db : Database) (link : RowLink) (row : Row) : List Row :=
  (db.rows link.target).filter (link.joins row)

/-! ### Truth values -/

/-- Whether something is true, where this is known. -/
abbrev Truth := Option Bool

namespace Truth

/-- Two parts under a connective. A part that decides the whole does so also if nothing is known of
the other one. -/
def combine (k : Connective) : Truth → Truth → Truth
  | some a, some b => some (if a = Clause.neutral k then b else a)
  | some a, none => if a = Clause.neutral k then none else some a
  | none, some b => if b = Clause.neutral k then none else some b
  | none, none => none

/-- Any number of parts under a connective. -/
def joinAll (k : Connective) (ts : List Truth) : Truth :=
  ts.foldr (combine k) (some (Clause.neutral k))

/-- The opposite. -/
def negate (t : Truth) : Truth := t.map not

/-- The opposite of a test, or the test itself. -/
def negateIf (negated : Bool) (t : Truth) : Truth := if negated then t.negate else t

@[simp] theorem joinAll_nil (k : Connective) : joinAll k [] = some (Clause.neutral k) := rfl

@[simp] theorem joinAll_cons (k : Connective) (t : Truth) (ts : List Truth) :
    joinAll k (t :: ts) = combine k t (joinAll k ts) := rfl

@[simp] theorem combine_neutral (k : Connective) (t : Truth) :
    combine k (some (Clause.neutral k)) t = t := by
  cases t with
  | none => simp [combine]
  | some b => simp [combine]

@[simp] theorem combine_neutral_right (k : Connective) (t : Truth) :
    combine k t (some (Clause.neutral k)) = t := by
  match t with
  | none => simp [combine]
  | some b =>
    rw [combine]
    split
    · next h => rw [h]
    · rfl

@[simp] theorem combine_deciding (k : Connective) (t : Truth) :
    combine k (some !(Clause.neutral k)) t = some !(Clause.neutral k) := by
  cases t with
  | none => simp [combine]
  | some b => simp [combine]

@[simp] theorem combine_deciding_right (k : Connective) (t : Truth) :
    combine k t (some !(Clause.neutral k)) = some !(Clause.neutral k) := by
  match t with
  | none => simp [combine]
  | some b => cases b <;> cases k <;> rfl

theorem combine_assoc (k : Connective) (t u v : Truth) :
    combine k (combine k t u) v = combine k t (combine k u v) := by
  cases k <;> rcases t with _ | _ | _ <;> rcases u with _ | _ | _ <;> rcases v with _ | _ | _ <;>
    rfl

theorem joinAll_append (k : Connective) (ts us : List Truth) :
    joinAll k (ts ++ us) = combine k (joinAll k ts) (joinAll k us) := by
  induction ts with
  | nil => simp
  | cons t ts ih => rw [List.cons_append, joinAll_cons, joinAll_cons, ih, combine_assoc]

/-- One deciding part decides the whole. -/
theorem joinAll_of_mem_deciding {k : Connective} {ts : List Truth}
    (h : some (!Clause.neutral k) ∈ ts) : joinAll k ts = some !(Clause.neutral k) := by
  induction ts with
  | nil => cases h
  | cons t ts ih =>
    rcases List.mem_cons.mp h with rfl | h
    · exact combine_deciding k _
    · rw [joinAll_cons, ih h, combine_deciding_right]

theorem negate_negate (t : Truth) : t.negate.negate = t := by
  cases t with
  | none => rfl
  | some b => simp [negate]

theorem negateIf_not (n : Bool) (t : Truth) : t.negateIf (!n) = (t.negateIf n).negate := by
  cases n with
  | false => rfl
  | true => exact (negate_negate t).symm

end Truth

/-! ### Tests -/

/-- Whether a comparison holds of values in some order. -/
def Comparison.holds : Comparison → Ordering → Bool
  | eq, o => o == .eq
  | ne, o => o != .eq
  | gt, o => o == .gt
  | ge, o => o != .lt
  | lt, o => o == .lt
  | le, o => o != .gt

theorem Comparison.holds_negated (c : Comparison) (o : Ordering) :
    c.negated.holds o = !c.holds o := by
  cases c <;> cases o <;> rfl

/-- The order of two numbers, texts or truth values of one kind. Texts are ordered by their
characters. Null stands in no order to anything. -/
def order? : Value → Value → Option Ordering
  | .int a, .int b => some (Ord.compare a b)
  | .bool a, .bool b => some (Ord.compare a b)
  | .text a, .text b => some (if a < b then .lt else if a = b then .eq else .gt)
  | _, _ => none

/-- The truth of a comparison of two values. -/
def compareTruth (c : Comparison) (v w : Value) : Truth := (order? v w).map c.holds

/-- The truth of a membership test: the value is equal to one of the list or to another. In an empty
list there is nothing, not even null. -/
def amongTruth (v : Value) (ws : List Value) : Truth :=
  Truth.joinAll .or (ws.map (compareTruth .eq v))

/-- The truth of a pattern test. -/
def likeTruth (place : Place) (part : String) : Value → Truth
  | .text s => some (fits (readPattern (some '/') (place.pattern part.toList)) s.toList)
  | _ => none

/-- The truth of a pattern test without regard to letter case, where the value is the pattern. -/
def caselessTruth : Value → Value → Truth
  | .text s, .text pattern =>
    some (fits (readPattern none (Text.lower pattern.toList)) (Text.lower s.toList))
  | _, _ => none

namespace Clause

mutual

/-- The truth of a clause for a row. -/
def truth (db : Database) : Clause → Row → Truth
  | verdict b, _ | constant b, _ => some b
  | compare c column v, row => compareTruth c (row column.label) v
  | isNull n column, row => Truth.negateIf n (some (row column.label).isNull)
  | among n column vs, row => (amongTruth (row column.label) vs).negateIf n
  | like n column place part, row => (likeTruth place part (row column.label)).negateIf n
  | caselessLike n column v, row => (caselessTruth (row column.label) v).negateIf n
  | joined k parts, row => Truth.joinAll k (truths db parts row)
  | settled c, row => truth db c row
  | negation c, row => (truth db c row).negate
  | related link c, row =>
    some ((db.related link row).any fun other => truth db c other == some true)
termination_by structural c => c

/-- The truths of several clauses for a row. -/
def truths (db : Database) : List Clause → Row → List Truth
  | [], _ => []
  | c :: cs, row => truth db c row :: truths db cs row
termination_by structural cs => cs

end

variable (db : Database) (row : Row)

theorem truths_eq_map (cs : List Clause) : truths db cs row = cs.map fun c => truth db c row := by
  induction cs with
  | nil => rfl
  | cons c cs ih => rw [truths, ih, List.map_cons]

@[simp] theorem truth_asPart (c : Clause) : truth db c.asPart row = truth db c row := by
  cases c <;> rfl

@[simp] theorem truth_settle (c : Clause) : truth db c.settle row = truth db c row := by
  cases c <;> rfl

/-! ### Clauses that are kept small -/

/-- The parts that a clause is taken apart into say together what the clause says. -/
theorem joinAll_truths_partsOf (k : Connective) (c : Clause) :
    Truth.joinAll k (truths db (partsOf k c) row) = truth db c row := by
  rw [partsOf.eq_def]
  split
  · next l parts =>
    split
    · next h =>
      subst h
      rfl
    · simp [truths]
  · simp [truths]

theorem joinAll_truths_flatMap (k : Connective) (cs : List Clause) :
    Truth.joinAll k (truths db (cs.flatMap (partsOf k)) row) =
      Truth.joinAll k (truths db cs row) := by
  induction cs with
  | nil => rfl
  | cons c cs ih =>
    have happend : ∀ as bs : List Clause, truths db (as ++ bs) row =
        truths db as row ++ truths db bs row := by
      intro as bs
      rw [truths_eq_map, truths_eq_map, truths_eq_map, List.map_append]
    rw [List.flatMap_cons, happend, Truth.joinAll_append, joinAll_truths_partsOf, ih, truths,
      Truth.joinAll_cons]

/-- Constants that change nothing can be left out. -/
theorem joinAll_truths_filter (k : Connective) (cs : List Clause) :
    Truth.joinAll k (truths db (cs.filter fun c => !isConstant (neutral k) c) row) =
      Truth.joinAll k (truths db cs row) := by
  induction cs with
  | nil => rfl
  | cons c cs ih =>
    rw [List.filter_cons]
    split
    · rw [truths, truths, Truth.joinAll_cons, Truth.joinAll_cons, ih]
    · next h =>
      -- what is left out is the neutral constant
      rw [Bool.not_eq_true', Bool.not_eq_false] at h
      obtain ⟨b, rfl, hb⟩ : ∃ b, c = constant b ∧ neutral k = b := by
        cases c with
        | constant b => exact ⟨b, rfl, by simpa [isConstant] using h⟩
        | _ => cases h
      rw [ih, truths, Truth.joinAll_cons, truth, ← hb, Truth.combine_neutral]

/-- **Joining clauses joins their truths.** -/
theorem truth_combine (k : Connective) (cs : List Clause) :
    truth db (combine k cs) row = Truth.joinAll k (truths db cs row) := by
  have hparts : truths db (cs.map asPart) row = truths db cs row := by
    rw [truths_eq_map, truths_eq_map, List.map_map]
    exact List.map_congr_left fun c _ => truth_asPart db row c
  rw [combine, ← hparts]
  generalize cs.map asPart = parts
  split
  · next h =>
    -- one part decides the whole
    obtain ⟨c, hc, hconstant⟩ := List.any_eq_true.mp h
    have hmem : some (!neutral k) ∈ truths db parts row := by
      rw [truths_eq_map]
      refine List.mem_map.mpr ⟨c, hc, ?_⟩
      cases c with
      | constant b =>
        rw [isConstant, beq_iff_eq] at hconstant
        rw [truth, hconstant]
      | _ => cases hconstant
    rw [Truth.joinAll_of_mem_deciding hmem]
    rfl
  · -- no part decides, and those that are constant change nothing
    rw [← joinAll_truths_filter]
    split
    · next h =>
      rw [h]
      rfl
    · next c h =>
      rw [h, truth_settle, truths, Truth.joinAll_cons, truths, Truth.joinAll_nil,
        Truth.combine_neutral_right]
    · exact joinAll_truths_flatMap db row k _

theorem truth_joinAll (k : Connective) (cs : List Clause) :
    truth db (joinAll k cs) row = Truth.joinAll k (truths db cs row) := by
  rw [joinAll.eq_def]
  split
  · rfl
  · rw [truths, Truth.joinAll_cons, truths, Truth.joinAll_nil, Truth.combine_neutral_right]
  · exact truth_combine db row k _

/-- **Negating a clause negates its truth**, by the opposite test where there is one. -/
theorem truth_negate (c : Clause) : truth db c.negate row = (truth db c row).negate := by
  cases c with
  | compare c column v =>
    rw [negate, truth, truth, compareTruth, compareTruth, Truth.negate, Option.map_map]
    congr 1
    -- null stays unknown, and an order is turned to its opposite
    funext o
    exact c.holds_negated o
  | isNull n column => exact Truth.negateIf_not n _
  | among n column vs => exact Truth.negateIf_not n _
  | like n column place part => exact Truth.negateIf_not n _
  | caselessLike n column v => exact Truth.negateIf_not n _
  | settled c => cases c <;> rfl
  | _ => rfl

end Clause
end RecordQuery.Sql
