import RecordQuery.Proofs.Fingerprint
import RecordQuery.Proofs.Switches

/-!
# Alternate names are conservative

Alternate names are tried for a segment that no member answers to, in any letter case. So they add
columns and change none: what is found without them is found with them, and it is the same thing.
Two filters that differ in letter case are compiled to predicates with the same answers; here it is
one filter, and the predicate itself is the same.

* `candidates_of_answers` — an alternate name takes nothing from a member that answers to it.
* `Schema.follows_resolve_of_names` — a column that is found stays the same one.
* `Backend.follows_compileNode_of_columns` — the walk over a filter, for any backend: it asks its
  options for columns only.
* `fallback_conservative` — the results for filters, sort lists, and their answers.
-/

namespace RecordQuery

open Text

/-! ### Candidates -/

/-- **No alternate name captures a name.** Where a member answers to a segment in any letter case,
the candidates are those that answer to it, and alternate names are not looked at. -/
theorem candidates_of_answers {ms : List Member} {segment : String} {m : Member} (hm : m ∈ ms)
    (answers : foldKey m.name = foldKey segment) (fallback : Bool) :
    candidates ms segment fallback = candidates ms segment false := by
  unfold candidates
  split
  · rfl
  · -- alternate names come last, and only where this list is empty
    have hfound : m ∈ ms.filter fun n => foldKey n.name == foldKey segment :=
      List.mem_filter.mpr ⟨hm, beq_iff_eq.mpr answers⟩
    have hnonempty : (ms.filter fun n => foldKey n.name == foldKey segment).isEmpty = false :=
      List.isEmpty_eq_false_iff.mpr (List.ne_nil_of_mem hfound)
    simp only [hnonempty, Bool.false_and, Bool.false_eq_true, if_false]

/-! ### Columns -/

namespace Schema

variable {s : Schema} {fallback fallback' : Bool}

/-- **Columns.** A column that is found stays the same one where more names are tried. -/
theorem follows_resolve_of_names (le : fallback = true → fallback' = true) (owner : TypeExpr)
    (path : ColumnPath) :
    Follows Eq (s.resolve fallback owner path) (s.resolve fallback' owner path) := by
  intro column h
  obtain ⟨hpath, hwalk⟩ := resolve_eq_ok_iff.mp h
  -- each segment has the candidate that it had
  have hsame : List.Forall₂ Eq path.segments path.segments := List.forall₂_same.mpr fun _ _ => rfl
  have hwalk' := hwalk.follows (s.namesFollow_eq owner le) .root hsame
  exact ⟨column, resolve_eq_ok_iff.mpr ⟨hpath, hwalk'⟩, rfl⟩

/-- Options under which every column is found that is found under other ones, and is the same. -/
def FindsColumns (s : Schema) (o o' : Options) : Prop :=
  ∀ owner scope path,
    Follows Eq (s.resolveIn o owner scope path) (s.resolveIn o' owner scope path)

theorem findsColumns_of_names {o o' : Options} (le : o.fallback = true → o'.fallback = true) :
    s.FindsColumns o o' := fun owner scope path =>
  (Follows.self (path.within scope)).bind_eq (follows_resolve_of_names le owner)

end Schema

/-! ### Filters -/

namespace Backend

variable {α : Type} {s : Schema} {o o' : Options}

theorem follows_condition_of_columns (h : s.FindsColumns o o') (owner : TypeExpr)
    (scope : Option ColumnPath) (path : ColumnPath) (operator : Operator) (raw : RawText) :
    RecordQuery.Follows Eq (s.condition o owner scope path operator raw)
      (s.condition o' owner scope path operator raw) :=
  (h owner scope path).bind_eq fun _ => .self _

theorem follows_collection_of_columns (h : s.FindsColumns o o') (owner : TypeExpr)
    (scope : Option ColumnPath) (q : Quantifier) (path : ColumnPath) :
    RecordQuery.Follows Eq (collection s o owner scope q path)
      (collection s o' owner scope q path) :=
  (h owner scope path).bind_eq fun _ => .self _

mutual

/-- **The walk over a filter.** Where the same columns are found, a filter becomes the same. -/
theorem follows_compileNode_of_columns (b : Backend α) (h : s.FindsColumns o o') :
    ∀ (f : Filter) (owner : TypeExpr) (scope : Option ColumnPath),
      RecordQuery.Follows Eq (b.compileNode s o owner scope f) (b.compileNode s o' owner scope f)
  | .leaf path operator raw, owner, scope =>
    (follows_condition_of_columns h owner scope path operator raw).bind_eq fun _ => .self _
  | .group k children, owner, scope =>
    (follows_compileAll_of_columns b h children owner scope).map fun _ _ => congrArg _
  | .quantified q path children, owner, scope => by
    -- the same column has the same elements, so the conditions are on one type
    refine (follows_collection_of_columns h owner scope q path).bind_eq fun ⟨column, element⟩ => ?_
    exact (follows_compileAll_of_columns b h children element (some path)).bind_eq fun _ => .self _

theorem follows_compileAll_of_columns (b : Backend α) (h : s.FindsColumns o o') :
    ∀ (fs : List Filter) (owner : TypeExpr) (scope : Option ColumnPath),
      RecordQuery.Follows Eq (b.compileAll s o owner scope fs) (b.compileAll s o' owner scope fs)
  | [], _, _ => .self _
  | f :: fs, owner, scope => by
    refine (follows_compileNode_of_columns b h f owner scope).bind_eq fun part => ?_
    exact (follows_compileAll_of_columns b h fs owner scope).bind_eq fun _ => .self _

end

theorem follows_compile_of_columns (b : Backend α) (h : s.FindsColumns o o') (type : TypeExpr)
    (fs : List Filter) :
    RecordQuery.Follows Eq (b.compile s o type fs) (b.compile s o' type fs) := by
  rw [compile_eq, compile_eq]
  exact follows_compileNode_of_columns b h (conjoined fs) type none

end Backend

/-! ### Sort lists -/

theorem follows_compileSorting_of_names {s : Schema} (guard : Bool) {fallback fallback' : Bool}
    (le : fallback = true → fallback' = true) (type : TypeExpr) (items : List SortItem) :
    Follows Eq (compileSorting s ⟨guard, fallback⟩ type items)
      (compileSorting s ⟨guard, fallback'⟩ type items) := by
  rw [compileSorting, compileSorting, ← List.forall₂_eq_eq_eq]
  exact Follows.mapM fun i _ =>
    (Schema.follows_resolve_of_names le type i.column).bind_eq fun column => .self _

/-- **Alternate names are conservative.** Names that members answer to have the same candidates with
and without alternate names. So every column that is found without alternate names is found with
them, and is the same one; filters that are compiled without them are compiled with them to the same
predicate; and sort lists to the same keys, which sort every list of records in the same way. -/
theorem fallback_conservative (s : Schema) (type : TypeExpr) (guard : Bool) :
    (∀ ms segment, (∃ m ∈ ms, foldKey m.name = foldKey segment) →
      candidates ms segment true = candidates ms segment false) ∧
    (∀ owner scope path column, s.resolveIn ⟨guard, false⟩ owner scope path = .ok column →
      s.resolveIn ⟨guard, true⟩ owner scope path = .ok column) ∧
    (∀ r (given : FilterInput) p,
      given.withFilters (compileFilter s ⟨guard, false⟩ r type) = .ok p →
      given.withFilters (compileFilter s ⟨guard, true⟩ r type) = .ok p) ∧
    ∀ items keys, compileSorting s ⟨guard, false⟩ type items = .ok keys →
      compileSorting s ⟨guard, true⟩ type items = .ok keys ∧
      ∀ {α : Type} (record : α → Value) (as : List α),
        applySorting s ⟨guard, true⟩ type items record as =
          applySorting s ⟨guard, false⟩ type items record as := by
  have hnames : false = true → true = true := fun _ => rfl
  have hcolumns : s.FindsColumns ⟨guard, false⟩ ⟨guard, true⟩ := Schema.findsColumns_of_names hnames
  refine ⟨fun ms segment ⟨m, hm, answers⟩ => candidates_of_answers hm answers true,
    fun owner scope path column h => ?_, fun r given p h => ?_, fun items keys h => ?_⟩
  · obtain ⟨_, hfound, rfl⟩ := hcolumns owner scope path column h
    exact hfound
  · -- the parts are made into the same filters, whatever the options
    obtain ⟨fs, hmade, hwith⟩ := FilterInput.withFilters_eq_ok h
    obtain ⟨_, hcompiled, rfl⟩ := Backend.follows_compile_of_columns _ hcolumns type fs p hmade
    rw [hwith]
    exact hcompiled
  · obtain ⟨_, hkeys, rfl⟩ := follows_compileSorting_of_names guard hnames type items keys h
    refine ⟨hkeys, fun record as => ?_⟩
    rw [applySorting, applySorting, h, hkeys]

namespace Subscribers

/-- A schema of subscribers. Each of the two members has the name of the other one, in another letter
case, as an alternate name, and both share one. -/
def schema : Schema :=
  ⟨[], [⟨"Subscriber", [], .model
      [⟨"name", .scalar .text, ["Mail", "label"], false, none⟩,
        ⟨"mail", .scalar .text, ["NAME", "label"], false, none⟩], []⟩], .absent⟩

/-- A subscriber with a name and a mail. -/
def subscriber (name mail : String) : Value :=
  .record ⟨.model, "Subscriber", ["name", "mail"], none⟩
    [("name", some (.text name)), ("mail", some (.text mail))]

/-- The column of the mails, in a letter case in which it is an alternate name of the names. -/
def mail : ColumnPath := ⟨["Mail"], by decide, by decide⟩

/-- A column that only alternate names answer to, those of both members. -/
def label : ColumnPath := ⟨["label"], by decide, by decide⟩

end Subscribers

open Subscribers in
/-- A filter by the mails of subscribers stays one where alternate names are tried, and so does a
sort list. An alternate name that two members share stands for none of them. -/
theorem fallback_conservative_of_subscribers :
    let given : FilterInput := .one (.node (.leaf mail .eq (.plain "a@b")))
    let subscribers := [subscriber "bob" "x@y", subscriber "ann" "a@b"]
    ∃ p, given.withFilters (compileFilter schema .usual Predicate.usualRegistry
        (.named "Subscriber")) = .ok p ∧
      given.withFilters (compileFilter schema ⟨false, true⟩ Predicate.usualRegistry
        (.named "Subscriber")) = .ok p ∧
      p.holds schema (subscriber "ann" "a@b") = .ok true ∧
      applySorting schema ⟨false, true⟩ (.named "Subscriber") [⟨mail, .asc⟩] id subscribers =
        .ok subscribers.reverse ∧
      ¬ Succeeds (compileSorting schema ⟨false, true⟩ (.named "Subscriber") [⟨label, .asc⟩]) := by
  intro given subscribers
  obtain ⟨-, -, hfilter, hsort⟩ := fallback_conservative schema (.named "Subscriber") false
  refine ⟨_, rfl, hfilter Predicate.usualRegistry given _ rfl, rfl, ?_, ?_⟩
  · rw [(hsort [⟨mail, .asc⟩] _ rfl).2 id subscribers]
    rfl
  · rintro ⟨keys, hkeys⟩
    cases hkeys

end RecordQuery
