import RecordQuery.Proofs.Counting
import RecordQuery.Proofs.Switches
import RecordQuery.Specification

/-!
# Conjunctions of specifications

A specification compiles its filters when it is used for the first time, perhaps finds their
predicate in a cache, and keeps it. None of this shows in its answers. Joined to another one, it
reads the filters of both with its own switches. So the conjunction has the answer of both parts
where it has an answer, but it may have none: the second part may need a switch that is not set in
the first one.

* `PredicateCache.Arises` — the caches that the interface leaves behind. `Arises.isSound` is their
  invariant: under a fingerprint for memory stands what filters with this fingerprint compile to.
  That these are as good as any others with the fingerprint takes a legible schema, which is only
  asked for where there is a cache.
* `Specification.Used` — a specification after some uses. `Used.keeps` is its invariant: it keeps
  what its filters compile to.
* `Specification.matched_prepare`, `Specification.isSatisfiedBy_eq` — hence the predicate that it
  prepares is that of its filters, compiled on the spot, and so is its answer
  (`Specification.directly`).
* `Specification.directly_merge` — the filters of a conjunction are those of the parts, in order, so
  after a first part that accepts a record the second one decides.
* `Specification.both_isSatisfiedBy` — what a conjunction answers. Two readings of the second part
  agree where both answer, since both yield to the reading with the switches of both.
* `Specification.both_fails` — a conjunction without an answer where both parts have one.
-/

namespace RecordQuery

/-! ### Caches -/

/-- The outcome of a predicate that was compiled is that of another one, on every record. -/
def Compiled.Agrees (s : Schema) (c : Compiled) (p : Predicate) : Prop :=
  ∀ record, c.predicate.holds s record = p.holds s record

namespace PredicateCache

/-- The caches that come about: predicates are compiled with them, other things are kept in them
under other keys, and everything is dropped. -/
inductive Arises (s : Schema) : PredicateCache → Prop
  | empty : Arises s .empty
  | compiled {cache : PredicateCache} (h : Arises s cache) (options : Options) (type : TypeExpr)
    (fs : List Filter) (request : Nat) :
    Arises s (compileShared id s options .memory Predicate.usualRegistry type fs request cache).2
  | other {cache : PredicateCache} (h : Arises s cache) {key : CacheKey}
    (foreign : ∀ x, key = .filter x → x.workspace ≠ .memory)
    (make : Unit → Except Error Compiled) : Arises s (cache.getOrCreate key make).2
  | clear {cache : PredicateCache} (h : Arises s cache) : Arises s cache.clear

/-- Every predicate for memory stands under the fingerprint of filters that compile to it. -/
def Sound (s : Schema) (cache : PredicateCache) : Prop :=
  ∀ x c, (.filter x, c) ∈ cache.entries → x.workspace = .memory →
    ∃ fs, Token.ofFilters s x.options x.type fs = .ok x.tokens ∧
      compileFilter s x.options Predicate.usualRegistry x.type fs = .ok c.predicate

variable {s : Schema} {cache : PredicateCache}

/-- **Every cache** that comes about is sound. -/
theorem Arises.isSound (h : cache.Arises s) : cache.Sound s := by
  induction h with
  | empty => exact fun _ _ hmem => nomatch hmem
  | clear => exact fun _ _ hmem => nomatch hmem
  | other _ foreign make ih =>
    intro x c hmem hmemory
    obtain hmem | ⟨d, -, hentry⟩ := Cache.mem_of_mem_getOrCreate hmem
    · exact ih x c hmem hmemory
    · exact absurd hmemory (foreign x (congrArg Prod.fst hentry).symm)
  | compiled _ options type fs request ih =>
    intro x c hmem hmemory
    rw [compileShared] at hmem
    split at hmem
    · exact ih x c hmem hmemory
    · next y hy =>
      obtain hmem | ⟨d, hd, hentry⟩ := Cache.mem_of_mem_getOrCreate hmem
      · exact ih x c hmem hmemory
      · -- the new entry stands under the fingerprint of the filters that were compiled for it
        obtain ⟨p, hp, rfl⟩ := map_eq_ok_iff.mp hd
        obtain ⟨t, ht, rfl⟩ := map_eq_ok_iff.mp hy
        cases hentry
        exact ⟨fs, ht, hp⟩

/-- **A look-up** in a legible schema answers like compiling, whatever is in a sound cache. -/
theorem Sound.matched (legible : s.Legible) (h : cache.Sound s) (options : Options)
    (type : TypeExpr) (fs : List Filter) (request : Nat) :
    Matched (Compiled.Agrees s)
      (compileShared id s options .memory Predicate.usualRegistry type fs request cache).1
      (compileFilter s options Predicate.usualRegistry type fs) := by
  have halike := Fingerprint.failAlike_compileFilter legible .memory options type fs
  rw [compileShared]
  cases hx : Fingerprint.of s .memory options type fs with
  | error e =>
    rw [(failAlike_iff.mp halike e).mp hx]
    exact ⟨rfl, nofun⟩
  | ok x =>
    obtain ⟨p, hp⟩ := halike.exists_ok hx
    obtain ⟨t, ht, rfl⟩ := map_eq_ok_iff.mp hx
    rw [hp]
    show Matched _ (cache.getOrCreate (.filter ⟨type, .memory, options, t⟩) _).1 _
    cases hfound : cache.get? (.filter ⟨type, .memory, options, t⟩) with
    | some c =>
      -- what is found was compiled for filters with the same tokens
      obtain ⟨gs, hgs, hc⟩ := h _ c (Cache.mem_of_get? hfound) rfl
      obtain ⟨p', hp', hsame⟩ := Token.ofFilters_alike legible ht hgs hc
      obtain rfl := Except.ok.inj (hp'.symm.trans hp)
      rw [Cache.getOrCreate_of_some hfound]
      exact .ok fun record => (hsame record).symm
    | none =>
      rw [Cache.getOrCreate_of_none hfound]
      exact .ok fun _ => rfl

end PredicateCache

/-! ### One specification -/

namespace Specification

variable {s : Schema} {spec after : Specification} {cache : PredicateCache} {record : Value}

/-- The answer of the filters alone, compiled on the spot. -/
def directly (s : Schema) (spec : Specification) (record : Value) : Except Error Bool := do
  let p ← compileFilter s spec.options Predicate.usualRegistry spec.type spec.criteria.filters
  liftFault (p.holds s record)

/-- A specification after it has been used some times, with caches that come about. Each use, to
test a record or to filter records, prepares its predicate first. -/
inductive Used (s : Schema) (start : Specification) : Specification → Prop
  | start : Used s start start
  | use {spec : Specification} (h : Used s start spec) (request : Nat) {cache : PredicateCache}
    (arises : cache.Arises s) : Used s start (spec.prepare s request cache).2.1

/-- A specification keeps a predicate that its filters compile to, or none. -/
def Keeps (s : Schema) (spec : Specification) : Prop :=
  ∀ c, spec.predicate = some c → ∃ p,
    compileFilter s spec.options Predicate.usualRegistry spec.type spec.criteria.filters = .ok p ∧
      c.Agrees s p

theorem matched_compile (legible : spec.shared = true → s.Legible) (h : cache.Sound s)
    (request : Nat) :
    Matched (Compiled.Agrees s) (spec.compile s request cache).1
      (compileFilter s spec.options Predicate.usualRegistry spec.type spec.criteria.filters) := by
  rw [compile]
  split
  · next hshared =>
    exact h.matched (legible hshared) spec.options spec.type spec.criteria.filters request
  · cases compileFilter s spec.options Predicate.usualRegistry spec.type spec.criteria.filters with
    | error e => exact ⟨rfl, nofun⟩
    | ok p => exact .ok fun _ => rfl

/-- A use changes nothing but the predicate that is kept. -/
theorem prepare_fields (s : Schema) (request : Nat) (cache : PredicateCache)
    (spec : Specification) :
    ∃ kept, (spec.prepare s request cache).2.1 = { spec with predicate := kept } := by
  rw [prepare]
  split
  · exact ⟨_, rfl⟩
  · split
    · exact ⟨_, rfl⟩
    · split <;> exact ⟨_, rfl⟩

/-- **One use** keeps what the filters compile to. -/
theorem Keeps.prepare (hspec : spec.Keeps s) (legible : spec.shared = true → s.Legible)
    (hcache : cache.Sound s) (request : Nat) :
    Keeps s (spec.prepare s request cache).2.1 := by
  rw [Specification.prepare]
  -- an answer is kept from the first use on, and an error is not kept
  split
  · exact hspec
  · split
    · exact hspec
    · split
      · next c cache' hc =>
        rintro _ ⟨⟩
        have hmatched := matched_compile legible hcache request
        rw [hc] at hmatched
        obtain ⟨p, hp⟩ := hmatched.1.exists_ok rfl
        exact ⟨p, hp, hmatched.2 c p rfl hp⟩
      · exact hspec

/-- **Any uses** do, and they leave the rest of the specification as it is. -/
theorem Used.keeps (h : spec.Used s after) (legible : spec.shared = true → s.Legible)
    (hspec : spec.Keeps s) :
    after.Keeps s ∧ ∃ kept, after = { spec with predicate := kept } := by
  induction h with
  | start => exact ⟨hspec, _, rfl⟩
  | use _ request arises ih =>
    obtain ⟨hkeeps, kept, rfl⟩ := ih
    exact ⟨hkeeps.prepare legible arises.isSound request, prepare_fields s request _ _⟩

/-- **The predicate** that a specification prepares has the outcomes of its filters, compiled on the
spot. -/
theorem matched_prepare (hspec : spec.Keeps s) (legible : spec.shared = true → s.Legible)
    (hcache : cache.Sound s) (request : Nat) :
    Matched (fun c p => ∀ record, accepts s c record = p.holds s record)
      (spec.prepare s request cache).1
      (compileFilter s spec.options Predicate.usualRegistry spec.type spec.criteria.filters) := by
  rw [prepare]
  split
  · next hempty =>
    -- no filters compile to the predicate that always holds
    rw [List.isEmpty_iff.mp hempty]
    exact .ok fun _ => rfl
  · split
    · next c hkept =>
      obtain ⟨p, hp, hagrees⟩ := hspec c hkept
      rw [hp]
      exact .ok hagrees
    · have hmatched := matched_compile legible hcache request
      split
      · next c cache' hc =>
        rw [hc] at hmatched
        obtain ⟨p, hp⟩ := hmatched.1.exists_ok rfl
        rw [hp]
        exact .ok (hmatched.2 c p rfl hp)
      · next e cache' he =>
        rw [he] at hmatched
        rw [(failAlike_iff.mp hmatched.1 e).mp rfl]
        exact ⟨rfl, nofun⟩

/-- **The answer** of a specification is that of its filters. -/
theorem isSatisfiedBy_eq (hspec : spec.Keeps s) (legible : spec.shared = true → s.Legible)
    (hcache : cache.Sound s) (request : Nat) (record : Value) :
    (spec.isSatisfiedBy s request cache record).1 = spec.directly s record := by
  refine (matched_prepare hspec legible hcache request).bind_eq fun c p haccepts => ?_
  exact congrArg liftFault (haccepts record)

theorem Used.answer (h : spec.Used s after) (legible : spec.shared = true → s.Legible)
    (hspec : spec.predicate = none)
    (hcache : cache.Arises s) (request : Nat) (record : Value) :
    (after.isSatisfiedBy s request cache record).1 = spec.directly s record := by
  have hkeeps : spec.Keeps s := by
    intro c hc
    cases hspec.symm.trans hc
  obtain ⟨hafter, kept, rfl⟩ := h.keeps legible hkeeps
  exact isSatisfiedBy_eq hafter legible hcache.isSound request record

end Specification

/-! ### Filters of two parts -/

section
variable {s : Schema} {options : Options} {owner : TypeExpr} {scope : Option ColumnPath}
  {α : Type}

theorem Backend.compileAll_append (b : Backend α) (fs gs : List Filter) :
    b.compileAll s options owner scope (fs ++ gs) =
      b.compileAll s options owner scope fs >>= fun xs =>
        (b.compileAll s options owner scope gs).map fun ys => xs ++ ys := by
  induction fs with
  | nil =>
    show b.compileAll s options owner scope gs =
      (b.compileAll s options owner scope gs).map fun ys => ys
    cases b.compileAll s options owner scope gs <;> rfl
  | cons f fs ih =>
    rw [List.cons_append, Backend.compileAll, Backend.compileAll, ih]
    -- the first error of the first list is the error of both
    cases b.compileNode s options owner scope f with
    | error e => rfl
    | ok x =>
      cases b.compileAll s options owner scope fs with
      | error e => rfl
      | ok xs => cases b.compileAll s options owner scope gs <;> rfl

theorem Predicate.holdsAll_append (ps qs : List Predicate) (record : Value) :
    holdsAll s (ps ++ qs) record =
      holdsAll s ps record >>= fun b => if b then holdsAll s qs record else .ok false := by
  induction ps with
  | nil => rfl
  | cons p ps ih =>
    rw [List.cons_append, holdsAll, holdsAll, ih]
    cases p.holds s record with
    | error e => rfl
    | ok b => cases b <;> rfl

end

namespace Specification

variable {s : Schema} {type : TypeExpr} {f g : Criteria} {o o' : Options} {shared shared' : Bool}
  {record : Value} {x y : Bool}

theorem directly_eq_ok_iff {spec : Specification} {v : Bool} :
    spec.directly s record = .ok v ↔ ∃ p,
      compileFilter s spec.options Predicate.usualRegistry spec.type spec.criteria.filters = .ok p ∧
        p.holds s record = .ok v := by
  rw [directly, bind_eq_ok_iff]
  exact exists_congr fun p => and_congr_right fun _ => liftFault_eq_ok_iff

/-- **The conjunction.** Where the first part has an answer, the filters of both parts have the
answer of the second one, read with the switches of the first, if that was positive. -/
theorem directly_merge (hx : (of type f o shared).directly s record = .ok x) :
    (of type (f.merge g) o shared).directly s record =
      compileFilter s o Predicate.usualRegistry type g.filters >>= fun q =>
        if x then liftFault (q.holds s record) else .ok false := by
  obtain ⟨p, hp, hholds⟩ := directly_eq_ok_iff.mp hx
  have hparts := (usualBackend_compile s o type f.filters).symm.trans hp
  obtain ⟨ps, hps, rfl⟩ := map_eq_ok_iff.mp hparts
  rw [Predicate.holds_conjunction] at hholds
  -- the first filters compile as they did alone, so that those of the other side decide
  have hmerged : compileFilter s o Predicate.usualRegistry type (f.filters ++ g.filters) =
      ((usualBackend o).compileAll s o type none g.filters).map fun qs =>
        (usualBackend o).conjunction (ps ++ qs) := by
    show (usualBackend o).compile s o type (f.filters ++ g.filters) = _
    rw [usualBackend_compile, Backend.compileAll_append, hps]
    cases (usualBackend o).compileAll s o type none g.filters <;> rfl
  have hsecond : compileFilter s o Predicate.usualRegistry type g.filters =
      ((usualBackend o).compileAll s o type none g.filters).map (usualBackend o).conjunction :=
    usualBackend_compile s o type g.filters
  show (compileFilter s o Predicate.usualRegistry type (f.filters ++ g.filters) >>= _) = _
  rw [hmerged, hsecond]
  cases (usualBackend o).compileAll s o type none g.filters with
  | error e => rfl
  | ok qs =>
    show liftFault (((usualBackend o).conjunction (ps ++ qs)).holds s record) =
      if x then liftFault (((usualBackend o).conjunction qs).holds s record) else .ok false
    rw [Predicate.holds_conjunction, Predicate.holds_conjunction, Predicate.holdsAll_append, hholds]
    cases x <;> rfl

/-- **The answers of a conjunction** are those of both parts. The second part answers twice here, with
its own switches and with those of the first part. -/
theorem eq_of_directly_merge (hx : (of type f o shared).directly s record = .ok x)
    (hy : (of type g o' shared').directly s record = .ok y) {v : Bool}
    (hv : (of type (f.merge g) o shared).directly s record = .ok v) : v = (x && y) := by
  rw [directly_merge hx] at hv
  obtain ⟨q, hq, hqv⟩ := bind_eq_ok_iff.mp hv
  obtain ⟨p, hp, hpy⟩ := directly_eq_ok_iff.mp hy
  cases x with
  | false => exact (Except.ok.inj hqv).symm
  | true => exact compileFilter_unique hq hp (liftFault_eq_ok_iff.mp hqv) hpy

/-- A conjunction has an answer exactly if the second part can be read with the switches of the first
one and, where it is asked, answers. -/
theorem directly_merge_eq_ok_iff (hx : (of type f o shared).directly s record = .ok x)
    (hy : (of type g o' shared').directly s record = .ok y) :
    (of type (f.merge g) o shared).directly s record = .ok (x && y) ↔
      ∃ q, compileFilter s o Predicate.usualRegistry type g.filters = .ok q ∧
        (x = true → Succeeds (q.holds s record)) := by
  constructor
  · intro h
    rw [directly_merge hx] at h
    obtain ⟨q, hq, hqv⟩ := bind_eq_ok_iff.mp h
    refine ⟨q, hq, ?_⟩
    rintro rfl
    exact ⟨_, liftFault_eq_ok_iff.mp hqv⟩
  · rintro ⟨q, hq, hsucceeds⟩
    -- any answer will do, since there is only one
    suffices hv : ∃ v, (of type (f.merge g) o shared).directly s record = .ok v by
      obtain ⟨v, hv⟩ := hv
      rw [← eq_of_directly_merge hx hy hv]
      exact hv
    rw [directly_merge hx, hq]
    cases x with
    | false => exact ⟨false, rfl⟩
    | true =>
      obtain ⟨v, hv⟩ := hsucceeds rfl
      exact ⟨v, liftFault_eq_ok_iff.mpr hv⟩

/-- With the switches of the second part among its own, the first one reads it to the same answer. -/
theorem directly_merge_of_within (hwithin : o'.Within o)
    (hx : (of type f o shared).directly s record = .ok x)
    (hy : (of type g o' shared').directly s record = .ok y) :
    (of type (f.merge g) o shared).directly s record = .ok (x && y) := by
  obtain ⟨p, hp, hpy⟩ := directly_eq_ok_iff.mp hy
  obtain ⟨q, hq, hyields⟩ := compileFilter_yields hwithin g.filters p hp
  exact (directly_merge_eq_ok_iff hx hy).mpr ⟨q, hq, fun _ => ⟨y, hyields.eq_ok hpy⟩⟩

/-- **A conjunction** of two specifications of one type, each with its own switches, cache and uses,
on a record for which both have an answer. Caches are used in legible schemas. Where the conjunction
has an answer, it is that of both. It has one if the second specification has no switch that is not
set in the first, and in general exactly if its filters can be read with the switches of the first
one and, should the record satisfy the first one, answer on it. -/
theorem both_isSatisfiedBy {a b : Specification} (ha : (of type f o shared).Used s a)
    (hb : (of type g o' shared').Used s b) (legible : shared = true ∨ shared' = true → s.Legible)
    {m n : Nat} {cache cache' : PredicateCache}
    (hcache : cache.Arises s) (hcache' : cache'.Arises s)
    (hx : (a.isSatisfiedBy s m cache record).1 = .ok x)
    (hy : (b.isSatisfiedBy s n cache' record).1 = .ok y) :
    ∃ c, a.both b = .ok c ∧
      ∀ {c' : Specification} {k : Nat} {cache'' : PredicateCache}, c.Used s c' →
        cache''.Arises s →
        let z := (c'.isSatisfiedBy s k cache'' record).1
        (∀ v, z = .ok v → v = (x && y)) ∧ (o'.Within o → z = .ok (x && y)) ∧
        (z = .ok (x && y) ↔ ∃ q,
          compileFilter s o Predicate.usualRegistry type g.filters = .ok q ∧
            (x = true → Succeeds (q.holds s record))) := by
  have hmerged : a.both b = .ok (of type (f.merge g) o shared) := by
    obtain ⟨-, kept, rfl⟩ := ha.keeps (fun h => legible (.inl h)) nofun
    obtain ⟨-, kept', rfl⟩ := hb.keeps (fun h => legible (.inr h)) nofun
    exact if_pos rfl
  rw [ha.answer (fun h => legible (.inl h)) rfl hcache] at hx
  rw [hb.answer (fun h => legible (.inr h)) rfl hcache'] at hy
  refine ⟨_, hmerged, fun hc' hcache'' => ?_⟩
  -- the conjunction uses a cache if the first part does
  rw [hc'.answer (fun h => legible (.inl h)) rfl hcache'']
  exact ⟨fun v hv => eq_of_directly_merge hx hy hv,
    fun hwithin => directly_merge_of_within hwithin hx hy, directly_merge_eq_ok_iff hx hy⟩

end Specification

/-! ### Parts with different switches -/

namespace Profiles

/-- Users who are called Ann. -/
def named (options : Options) : Specification :=
  .of (.named "User")
    ⟨[.leaf ⟨["name"], by decide, by decide⟩ .eq (.plain "ann")], []⟩ options false

/-- Users without followers. -/
def unfollowed (options : Options) : Specification :=
  .of (.named "User") ⟨[.leaf followers .eq (.plain "0")], []⟩ options false

end Profiles

namespace Specification

open Profiles in
/-- With the guard in both parts, a user without a profile is also found by their conjunction. -/
theorem both_isSatisfiedBy_of_profile :
    let guarded : Options := ⟨true, false⟩
    let record := user "ann" none
    let a := ((named guarded).prepare schema 0 .empty).2.1
    let b := unfollowed guarded
    (a.isSatisfiedBy schema 1 .empty record).1 = .ok true ∧
      (b.isSatisfiedBy schema 1 .empty record).1 = .ok true ∧
      ∃ c, a.both b = .ok c ∧ (c.isSatisfiedBy schema 2 .empty record).1 = .ok true := by
  intro guarded record a b
  have ha : (named guarded).Used schema a := .use .start 0 .empty
  have hb : (unfollowed guarded).Used schema b := .start
  have hx : (a.isSatisfiedBy schema 1 .empty record).1 = .ok true := rfl
  have hy : (b.isSatisfiedBy schema 1 .empty record).1 = .ok true := rfl
  obtain ⟨c, hc, hanswer⟩ := both_isSatisfiedBy ha hb (fun h => nomatch h) .empty .empty hx hy
  exact ⟨hx, hy, c, hc, (hanswer .start .empty).2.1 ⟨id, id⟩⟩

open Profiles in
/-- Where only the second part is guarded against null, both parts find a user without a profile,
but their conjunction fails. The other way round it finds the user. -/
theorem both_fails :
    let record := user "ann" none
    let a := named .usual
    let b := unfollowed ⟨true, false⟩
    (a.isSatisfiedBy schema 0 .empty record).1 = .ok true ∧
      (b.isSatisfiedBy schema 1 .empty record).1 = .ok true ∧
      (∃ c, a.both b = .ok c ∧
        (c.isSatisfiedBy schema 2 .empty record).1 = .error (.fault .missingMember)) ∧
      ∃ d, b.both a = .ok d ∧ (d.isSatisfiedBy schema 2 .empty record).1 = .ok true :=
  ⟨rfl, rfl, ⟨_, rfl, rfl⟩, _, rfl, rfl⟩

end Specification
end RecordQuery
