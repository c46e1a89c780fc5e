import RecordQuery.Proofs.Respelling
import RecordQuery.Proofs.Sorting.Lexicographic

/-!
# More switches, more answers

A filter is read with two switches: alternate names may be tried, and null on the way to a column
may be guarded against. Both of them let more be found and take nothing away. A column that is found
without alternate names is the same one with them, and a value that is read without the guard met no
null, so the guard was never asked.

* `Options.Within` — the order of switches.
* `Schema.namesFollow_eq` and `Schema.follows_read` — what more switches do to a column, by
  its names and by its value.
* `Predicate.Yields` — a predicate whose answers are also those of another one. The failures of the
  first predicate are open to the second one, so groups and quantifiers have to be followed from
  their first part on: up to the first failure both stop at the same part.
* `compileFilter_yields`, `follows_applySorting` — the results for filters and for sort lists.
* `nullGuard_conservative` — the case of the guard alone.
-/

namespace RecordQuery

/-! ### Switches -/

/-- Every switch that is set is set in the other options, too. -/
structure Options.Within (o o' : Options) : Prop where
  guard : o.nullGuard = true → o'.nullGuard = true
  fallback : o.fallback = true → o'.fallback = true

theorem Options.within_guarded (fallback : Bool) :
    Options.Within ⟨false, fallback⟩ ⟨true, fallback⟩ :=
  ⟨nofun, id⟩

/-- The switches of both. -/
def Options.join (o o' : Options) : Options :=
  ⟨o.nullGuard || o'.nullGuard, o.fallback || o'.fallback⟩

theorem Options.within_join_left (o o' : Options) : o.Within (o.join o') :=
  ⟨fun h => by rw [join, h, Bool.true_or], fun h => by rw [join, h, Bool.true_or]⟩

theorem Options.within_join_right (o o' : Options) : o'.Within (o.join o') :=
  ⟨fun h => by rw [join, h, Bool.or_true], fun h => by rw [join, h, Bool.or_true]⟩

/-- Alternate names are only tried for a segment that names nothing otherwise. -/
theorem candidates_mono {ms : List Member} {segment : String} {fallback fallback' : Bool}
    {m : Member} (le : fallback = true → fallback' = true)
    (one : candidates ms segment fallback = [m]) : candidates ms segment fallback' = [m] := by
  cases fallback with
  | true => rwa [le rfl]
  | false =>
    unfold candidates at one ⊢
    split at one
    · exact one
    · simp only [Bool.and_false, Bool.false_eq_true, if_false] at one
      simp only [one, List.isEmpty_cons, Bool.false_and, Bool.false_eq_true, if_false]

namespace Schema

variable {s : Schema}

theorem namesFollow_eq (s : Schema) (root : TypeExpr) {fallback fallback' : Bool}
    (le : fallback = true → fallback' = true) : s.NamesFollow root Eq fallback fallback' where
  fold := congrArg _
  found _ _ hsame one := hsame ▸ candidates_mono le one

/-- **Null has no members.** -/
theorem readMember_null (s : Schema) (name : String) :
    s.readMember .null name = .error .missingMember := rfl

/-- What is read without a guard is read with one: members are read of values that have them. -/
theorem follows_readFrom (onNull : Option Value) (hops : List Hop) :
    ∀ v, Follows Eq (s.readFrom none hops v) (s.readFrom onNull hops v) := by
  induction hops with
  | nil => exact fun v => .ok rfl
  | cons hop rest ih =>
    intro v
    by_cases hv : v = .null
    · -- without the guard, reading ends here
      subst hv
      exact .error _
    · rw [readFrom_cons s hv, readFrom_cons s hv]
      exact (Follows.self (s.readMember v hop.name)).bind_eq ih

/-- **The value of a column** is the same with more switches. -/
theorem follows_read {guard guard' : Bool} (le : guard = true → guard' = true)
    {c c' : ResolvedColumn} (hops : c.SameHops c') (v : Value) :
    Follows Eq (s.read guard c v) (s.read guard' c' v) := by
  rw [read_congr hops.1 hops.2]
  cases guard with
  | true =>
    rw [le rfl]
    exact .self _
  | false => exact follows_readFrom _ c'.hops v

end Schema

/-! ### Predicates -/

namespace Predicate

variable {s : Schema} {α β : Type} {f : α → Except Fault Bool} {g : β → Except Fault Bool}
  {as : List α} {bs : List β}

/-- Tests in order stop at the same element, as long as none of the first ones fails. -/
theorem follows_allOk (h : List.Forall₂ (fun a b => Follows Eq (f a) (g b)) as bs) :
    Follows Eq (allOk f as) (allOk g bs) := by
  induction h with
  | nil => exact .ok rfl
  | cons hfirst _ ih =>
    rw [allOk, allOk]
    refine hfirst.bind_eq fun b => ?_
    cases b with
    | false => exact .ok rfl
    | true => exact ih

theorem follows_anyOk (h : List.Forall₂ (fun a b => Follows Eq (f a) (g b)) as bs) :
    Follows Eq (anyOk f as) (anyOk g bs) := by
  induction h with
  | nil => exact .ok rfl
  | cons hfirst _ ih =>
    rw [anyOk, anyOk]
    refine hfirst.bind_eq fun b => ?_
    cases b with
    | false => exact ih
    | true => exact .ok rfl

/-- The answers of a predicate are those of another one, which may also answer where the first one
fails. -/
def Yields (s : Schema) (p q : Predicate) : Prop :=
  ∀ record, Follows Eq (p.holds s record) (q.holds s record)

theorem Yields.eq_ok {p q : Predicate} (h : p.Yields s q) {record : Value} {b : Bool}
    (hp : p.holds s record = .ok b) : q.holds s record = .ok b := by
  obtain ⟨b', hq, rfl⟩ := h record b hp
  exact hq

variable {guard guard' : Bool} {ps qs : List Predicate}

/-- Parts that yield to others do so together. -/
theorem yields_conjunction (r : Registry Strategy) (h : List.Forall₂ (Yields s) ps qs) :
    ((backend r guard).conjunction ps).Yields s ((backend r guard').conjunction qs) := by
  intro record
  rw [holds_conjunction, holds_conjunction, holdsAll_eq_allOk, holdsAll_eq_allOk]
  exact follows_allOk (h.imp fun _ _ hpq => hpq record)

theorem yields_disjunction (r : Registry Strategy) (h : List.Forall₂ (Yields s) ps qs) :
    ((backend r guard).disjunction ps).Yields s ((backend r guard').disjunction qs) := by
  intro record
  rw [holds_disjunction, holds_disjunction, holdsAny_eq_anyOk, holdsAny_eq_anyOk]
  exact follows_anyOk (h.imp fun _ _ hpq => hpq record)

theorem yields_elements (le : guard = true → guard' = true) (q : Quantifier)
    {c c' : ResolvedColumn} (hops : c.SameHops c') {p p' : Predicate} (h : p.Yields s p') :
    (elements q c guard p).Yields s (elements q c' guard' p') := by
  intro record
  rw [holds, holds]
  refine (Schema.follows_read le hops record).bind_eq fun v => ?_
  refine (Follows.self (elementsOf v)).bind_eq fun items => ?_
  -- the elements are the same, and each is tested by both predicates
  have hitems : List.Forall₂ (fun a b => Follows Eq (p.holds s a) (p'.holds s b)) items items :=
    List.forall₂_same.mpr fun item _ => h item
  cases q with
  | any => exact follows_anyOk hitems
  | all => exact follows_allOk hitems

/-- **The nodes.** With the guard, predicates answer wherever they do without it. -/
theorem backend_yields (s : Schema) (r : Registry Strategy) (le : guard = true → guard' = true) :
    (backend r guard).Follows s (Yields s) (backend r guard') where
  condition {x y} h := by
    show Follows _ ((r.require x.operator).map _) ((r.require y.operator).map _)
    rw [← h.operator, ← h.value]
    refine (Follows.self (r.require x.operator)).map ?_
    -- the strategy is the same, and what is read follows
    rintro strategy _ rfl record
    rw [holds, holds]
    exact (Schema.follows_read le h.column record).bind_eq fun v => .self _
  conjunction := yields_conjunction r
  disjunction := yields_disjunction r
  quantified q _ _ hops _ _ h := .ok (yields_elements le q hops h)

/-- The guard has no part in what is compiled. -/
theorem backend_compiles (s : Schema) (r : Registry Strategy) (guard guard' : Bool) :
    (backend r guard).Follows s (fun _ _ => True) (backend r guard') where
  condition {x y} h := by
    show Follows _ ((r.require x.operator).map _) ((r.require y.operator).map _)
    rw [← h.operator]
    exact (Follows.self (r.require x.operator)).map fun _ _ _ => trivial
  conjunction _ := trivial
  disjunction _ := trivial
  quantified _ _ _ _ _ _ _ := .ok trivial

end Predicate

section
variable {s : Schema} {o o' : Options} {r : Registry Strategy} {type : TypeExpr}

/-- **Filters.** With more switches a list of filters is compiled if it is with fewer ones, and its
predicate has the same answers. -/
theorem compileFilter_yields (h : o.Within o') (fs : List Filter) :
    Follows (Predicate.Yields s) (compileFilter s o r type fs) (compileFilter s o' r type fs) :=
  Backend.follows_compile (s.namesFollow_eq type h.fallback) (Predicate.backend_yields s r h.guard)
    (Filter.RespeltAll.refl (fun _ => rfl) fs)

/-- Filters that are read with different switches have one answer where both readings have one, which
is that of the reading with all these switches. -/
theorem compileFilter_unique {fs : List Filter} {p q : Predicate} {record : Value} {v w : Bool}
    (hp : compileFilter s o r type fs = .ok p) (hq : compileFilter s o' r type fs = .ok q)
    (hv : p.holds s record = .ok v) (hw : q.holds s record = .ok w) : v = w := by
  obtain ⟨both, hboth, hyields⟩ := compileFilter_yields (o.within_join_left o') fs p hp
  obtain ⟨both', hboth', hyields'⟩ := compileFilter_yields (o.within_join_right o') fs q hq
  obtain rfl := Except.ok.inj (hboth.symm.trans hboth')
  exact Except.ok.inj ((hyields.eq_ok hv).symm.trans (hyields'.eq_ok hw))

/-- Whether filters are compiled depends on the names that are tried only. -/
theorem succeeds_compileFilter_of_fallback (le : o.fallback = true → o'.fallback = true)
    (fs : List Filter) (h : Succeeds (compileFilter s o r type fs)) :
    Succeeds (compileFilter s o' r type fs) :=
  (Backend.follows_compile (s.namesFollow_eq type le)
    (Predicate.backend_compiles s r o.nullGuard o'.nullGuard)
    (Filter.RespeltAll.refl (fun _ => rfl) fs)).succeeds h

/-! ### Sort lists -/

/-- A key with the members and the direction of another one, read with no fewer switches. -/
structure SortKey.Within (key key' : SortKey) : Prop where
  column : key.column.SameHops key'.column
  descending : key.descending = key'.descending
  guard : key.nullGuard = true → key'.nullGuard = true

theorem follows_compileSorting (h : o.Within o') (items : List SortItem) :
    Follows (List.Forall₂ SortKey.Within) (compileSorting s o type items)
      (compileSorting s o' type items) := by
  rw [compileSorting, compileSorting]
  refine Follows.mapM fun i _ => ?_
  -- the columns are the same, only the switches differ
  have hpath : i.column.Respelt Eq i.column := List.forall₂_same.mpr fun _ _ => rfl
  refine (Schema.follows_resolve (s.namesFollow_eq type h.fallback) .root hpath).bind ?_
  intro column column' _ hhops
  rw [SortItem.checked, SortItem.checked, ← hhops.isCollection_eq]
  split
  · exact .error _
  · exact .ok ⟨hhops, rfl, h.guard⟩

variable {α : Type} {record : α → Value}

/-- The sort of one key only looks at the values of its column. -/
theorem SortKey.Within.follows_sort {key key' : SortKey} (h : key.Within key') (as : List α) :
    Follows Eq (SortKey.sort s key record as) (SortKey.sort s key' record as) := by
  have hkeyed : Follows Eq (SortKey.keyed s key record as) (SortKey.keyed s key' record as) := by
    rw [← List.forall₂_eq_eq_eq]
    refine Follows.mapM fun a _ => (Schema.follows_read h.guard h.column (record a)).map ?_
    rintro v _ rfl
    rfl
  rw [SortKey.sort, SortKey.sort]
  refine hkeyed.bind_eq fun pairs => ?_
  rw [h.descending]
  exact .self _

theorem SortKey.follows_sortBy {keys keys' : List SortKey} (h : List.Forall₂ Within keys keys')
    (as : List α) : Follows Eq (sortBy s record keys as) (sortBy s record keys' as) := by
  induction h with
  | nil => exact .ok rfl
  | cons hfirst _ ih =>
    rw [sortBy, sortBy]
    exact ih.bind_eq fun mid => hfirst.follows_sort mid

/-- **Sort lists.** With more switches, records are sorted as they are with fewer ones. -/
theorem follows_applySorting (h : o.Within o') (items : List SortItem) (as : List α) :
    Follows Eq (applySorting s o type items record as)
      (applySorting s o' type items record as) := by
  rw [applySorting, applySorting]
  refine (follows_compileSorting h items).bind fun keys keys' _ hkeys out hout => ?_
  obtain ⟨out', hout', rfl⟩ := SortKey.follows_sortBy hkeys as out (liftFault_eq_ok_iff.mp hout)
  exact ⟨out, liftFault_eq_ok_iff.mpr hout', rfl⟩

end

/-- **The guard is conservative.** Reading a member of null fails. Filters are compiled with the
guard exactly if they are without it, and on each record where the predicate without the guard
answers, the predicate with the guard gives the same answer. A list that is sorted without the guard
is sorted in the same way with it. -/
theorem nullGuard_conservative (s : Schema) (type : TypeExpr) (fallback : Bool) :
    (∀ name, s.readMember .null name = .error .missingMember) ∧
    (∀ (r : Registry Strategy) (fs : List Filter),
      (Succeeds (compileFilter s ⟨false, fallback⟩ r type fs) ↔
        Succeeds (compileFilter s ⟨true, fallback⟩ r type fs)) ∧
      ∀ p q, compileFilter s ⟨false, fallback⟩ r type fs = .ok p →
        compileFilter s ⟨true, fallback⟩ r type fs = .ok q →
        ∀ record b, p.holds s record = .ok b → q.holds s record = .ok b) ∧
    ∀ {α : Type} (items : List SortItem) (record : α → Value) (as out : List α),
      applySorting s ⟨false, fallback⟩ type items record as = .ok out →
      applySorting s ⟨true, fallback⟩ type items record as = .ok out := by
  have hwithin := Options.within_guarded fallback
  -- what is accepted does not depend on the guard
  have hcompiles : ∀ (r : Registry Strategy) (fs : List Filter) (guard guard' : Bool),
      Succeeds (compileFilter s ⟨guard, fallback⟩ r type fs) →
      Succeeds (compileFilter s ⟨guard', fallback⟩ r type fs) := by
    intro r fs guard guard' h
    refine succeeds_compileFilter_of_fallback ?_ fs h
    exact id
  refine ⟨s.readMember_null, fun r fs => ⟨⟨hcompiles r fs false true, hcompiles r fs true false⟩,
    ?_⟩, fun items record as out hout => ?_⟩
  · intro p q hp hq record b hb
    obtain ⟨q', hq', hyields⟩ := compileFilter_yields hwithin fs p hp
    obtain rfl := Except.ok.inj (hq'.symm.trans hq)
    exact hyields.eq_ok hb
  · obtain ⟨out', hout', rfl⟩ := follows_applySorting hwithin items as out hout
    exact hout'

namespace Profiles

/-- A schema of users, who may have a profile. -/
def schema : Schema :=
  ⟨[], [⟨"User", [], .data
      [⟨"name", .scalar .text, [], false, none⟩,
        ⟨"profile", .union .barred [.named "Profile", .nothing], [], false, none⟩], []⟩,
    ⟨"Profile", [], .data [⟨"followers", .scalar .integer, [], false, none⟩], []⟩], .absent⟩

/-- A user with some followers, or without a profile. -/
def user (name : String) (followers : Option Int) : Value :=
  let profile (n : Int) : Value :=
    .record ⟨.data, "Profile", ["followers"], none⟩ [("followers", some (.int n))]
  .record ⟨.data, "User", ["name", "profile"], none⟩
    [("name", some (.text name)), ("profile", some ((followers.map profile).getD .null))]

/-- The column of a user's followers. -/
def followers : ColumnPath := ⟨["profile", "followers"], by decide, by decide⟩

end Profiles

open Profiles in
/-- Users are counted and sorted by their followers. Without the guard, a user without a profile is
neither counted nor sorted. -/
theorem nullGuard_conservative_of_profile :
    let fs : List Filter := [.leaf followers .eq (.plain "3")]
    let items : List SortItem := [⟨followers, .asc⟩]
    let users := [user "bob" (some 5), user "ann" (some 3)]
    ∃ p q, compileFilter schema .usual Predicate.usualRegistry (.named "User") fs = .ok p ∧
      compileFilter schema ⟨true, false⟩ Predicate.usualRegistry (.named "User") fs = .ok q ∧
      p.holds schema (user "ann" (some 3)) = .ok true ∧
      q.holds schema (user "ann" (some 3)) = .ok true ∧
      p.holds schema (user "cat" none) = .error .missingMember ∧
      q.holds schema (user "cat" none) = .ok false ∧
      applySorting schema .usual (.named "User") items id users = .ok users.reverse ∧
      applySorting schema ⟨true, false⟩ (.named "User") items id users = .ok users.reverse := by
  intro fs items users
  obtain ⟨-, hfilter, hsort⟩ := nullGuard_conservative schema (.named "User") false
  -- only for a user without a profile the guard makes a difference
  have hsame := (hfilter Predicate.usualRegistry fs).2 _ _ rfl rfl (user "ann" (some 3)) true rfl
  exact ⟨_, _, rfl, rfl, rfl, hsame, rfl, rfl, rfl, hsort items id users _ rfl⟩

end RecordQuery
