import RecordQuery.Proofs.Respelling

/-!
# Columns without regard to letter case

A segment of a column names the member that is spelt like it, and otherwise a member that differs
from it in letter case only. As long as no two members of a type differ in this way, the case of a
segment decides nothing: two filters that differ in the case of their columns are accepted together,
have one fingerprint, and hold for the same records.

* `SameLetters` — texts that differ in the case of ASCII letters. Segments consist of no other
  letters, so for them this is equality of folded texts (`foldKey_eq_of_segment`).
* `Schema.NamesApart` — the condition on the types that columns lead to.
* `candidates_eq_of_apart` — then a segment is looked up by its folded text, whichever of the three
  ways of looking it up finds something; so related segments name one member
  (`Schema.NamesApart.namesFollow`).
* `exists_sameLetters` — one direction of the result, along the walk for fingerprints.
* `compileFilter_sameLetters` — the result.
-/

namespace RecordQuery

open Text

/-! ### Letters -/

/-- Two texts of the same letters, apart from the case of ASCII letters. -/
def SameLetters (a b : String) : Prop := a.toList.map Char.toLower = b.toList.map Char.toLower

instance (a b : String) : Decidable (SameLetters a b) := inferInstanceAs (Decidable (_ = _))

theorem SameLetters.symm {a b : String} (h : SameLetters a b) : SameLetters b a := Eq.symm h

/-- The characters of an identifier are ASCII characters, and so is a line break at its end. -/
theorem toNat_lt_of_isSegment {a : String} (h : isSegment a = true) :
    ∀ c ∈ a.toList, c.toNat < 0x80 := by
  obtain ⟨ds, after, ha, hds, hafter⟩ := exists_identifier h
  rw [ha]
  refine List.forall_mem_append.mpr ⟨fun c hc => ?_, ?_⟩
  · have hranges := (continuesIdentifier_iff c).mp (continuesIdentifier_of_mem hds c hc)
    omega
  · obtain rfl | rfl := hafter
    · exact List.forall_mem_nil _
    · exact List.forall_mem_singleton.mpr (by decide)

theorem fold_eq_map {cs : List Char} (h : ∀ c ∈ cs, c.toNat < 0x80) :
    fold cs = cs.map Char.toLower := by
  induction cs with
  | nil => rfl
  | cons c cs ih =>
    obtain ⟨hc, hcs⟩ := List.forall_mem_cons.mp h
    rw [fold_cons, ih hcs, foldChar, if_pos hc]
    rfl

theorem foldKey_eq_of_segment {a b : String} (ha : isSegment a = true) (hb : isSegment b = true)
    (h : SameLetters a b) : foldKey a = foldKey b := by
  rw [foldKey, foldKey, fold_eq_map (toNat_lt_of_isSegment ha),
    fold_eq_map (toNat_lt_of_isSegment hb)]
  exact congrArg String.ofList h

theorem sameLetters_of_foldKey {a b : String} (ha : isSegment a = true) (hb : isSegment b = true)
    (h : foldKey a = foldKey b) : SameLetters a b := by
  rw [foldKey, foldKey, fold_eq_map (toNat_lt_of_isSegment ha),
    fold_eq_map (toNat_lt_of_isSegment hb)] at h
  exact String.ofList_injective h

/-- Segments of the same letters are related by their folded texts. -/
theorem ColumnPath.Respelt.fold {p q : ColumnPath} (h : p.Respelt SameLetters q) :
    p.Respelt (fun a b => foldKey a = foldKey b) q := by
  have hsegments : ∀ {as bs : List String}, List.Forall₂ SameLetters as bs →
      as.all isSegment = true → bs.all isSegment = true →
      List.Forall₂ (fun a b => foldKey a = foldKey b) as bs := by
    intro as bs hall
    induction hall with
    | nil => exact fun _ _ => .nil
    | cons hfirst _ ih =>
      intro has hbs
      rw [List.all_cons, Bool.and_eq_true] at has hbs
      -- segments are of ASCII letters, which fold as they are lowered
      exact .cons (foldKey_eq_of_segment has.1 hbs.1 hfirst) (ih has.2 hbs.2)
  exact hsegments h p.valid q.valid

/-! ### Names apart -/

/-- The members of every type that columns lead to have names that are different even without
regard to letter case. -/
def Schema.NamesApart (s : Schema) (root : TypeExpr) : Prop :=
  ∀ t, s.Reaches root t → ∀ ms, s.members? t = .ok (some ms) →
    (ms.map fun m => foldKey m.name).Nodup

/-- Where names are apart, a member is the only one with its name in any letter case. -/
theorem filter_foldKey_eq {ms : List Member} (apart : (ms.map fun m => foldKey m.name).Nodup)
    {m : Member} (hm : m ∈ ms) : (ms.filter fun n => foldKey n.name == foldKey m.name) = [m] := by
  obtain ⟨before, after, rfl⟩ := List.append_of_mem hm
  rw [List.map_append, List.map_cons, List.nodup_middle, List.nodup_cons] at apart
  -- no other member has the folded name of this one
  have hnone : ∀ n ∈ before ++ after, ¬ (foldKey n.name == foldKey m.name) = true := by
    intro n hn hsame
    refine apart.1 ?_
    rw [← List.map_append]
    exact List.mem_map.mpr ⟨n, hn, beq_iff_eq.mp hsame⟩
  obtain ⟨hbefore, hafter⟩ := List.forall_mem_append.mp hnone
  have hself : (foldKey m.name == foldKey m.name) = true := beq_self_eq_true _
  rw [List.filter_append, List.filter_eq_nil_iff.mpr hbefore, List.filter_cons, if_pos hself,
    List.filter_eq_nil_iff.mpr hafter, List.nil_append]

/-- **The look-up.** Where names are apart, the exact spelling of a segment adds nothing to what is
found for its folded text. -/
theorem candidates_eq_of_apart {ms : List Member} (apart : (ms.map fun m => foldKey m.name).Nodup)
    (segment : String) (fallback : Bool) :
    candidates ms segment fallback =
      let found := ms.filter fun m => foldKey m.name == foldKey segment
      if found.isEmpty && fallback then
        ms.filter fun m => m.alternates.any fun a => foldKey a == foldKey segment
      else found := by
  rw [candidates]
  split
  · next m hm =>
    have hname : m.name = segment := by simpa using List.find?_some hm
    -- an exact match is a match without regard to case, and there is no other one
    have hfound : (ms.filter fun n => foldKey n.name == foldKey segment) = [m] := by
      rw [← hname]
      exact filter_foldKey_eq apart (List.mem_of_find?_eq_some hm)
    rw [hfound]
    rfl
  · rfl

theorem Schema.NamesApart.namesFollow {s : Schema} {root : TypeExpr} (apart : s.NamesApart root)
    (fallback : Bool) :
    s.NamesFollow root (fun a b => foldKey a = foldKey b) fallback fallback where
  fold h := h
  found reached members h one := by
    have hms := apart _ reached _ members
    rw [candidates_eq_of_apart hms] at one ⊢
    rw [← h]
    exact one

/-! ### Two walks over columns of the same members -/

/-- Conditions on columns that pass through the same members have predicates with the same
outcomes. -/
theorem Predicate.backend_follows (s : Schema) (r : Registry Strategy) (nullGuard : Bool) :
    (backend r nullGuard).Follows s (fun p q => ∀ record, q.holds s record = p.holds s record)
      (backend r nullGuard) where
  condition {x y} h := by
    intro p hp
    obtain ⟨strategy, hstrategy, rfl⟩ := map_eq_ok_iff.mp hp
    refine ⟨.test strategy y.column nullGuard y.value, ?_, fun record => ?_⟩
    · show (r.require y.operator).map _ = _
      rw [← h.operator, hstrategy]
      rfl
    · -- two spellings of a column have the same hops, and reading looks at nothing else
      rw [holds, holds, Schema.read_congr h.column.1 h.column.2, h.value]
  conjunction {ps qs} h := by
    intro record
    rw [holds_conjunction, holds_conjunction, holdsAll_eq_allOk, holdsAll_eq_allOk]
    exact (allOk_congr (h.imp fun p q hpq => (hpq record).symm)).symm
  disjunction {ps qs} h := by
    intro record
    rw [holds_disjunction, holds_disjunction, holdsAny_eq_anyOk, holdsAny_eq_anyOk]
    exact (anyOk_congr (h.imp fun p q hpq => (hpq record).symm)).symm
  quantified q column column' hops p p' h := by
    refine .ok fun record => ?_
    rw [holds, holds, Schema.read_congr hops.1 hops.2, funext h]

namespace Token

/-- Filters as outcomes of making their tree: the tree, or the fault of the first value that has no
display. Other than a tree, an outcome exists wherever a predicate does. -/
def outcomes : Backend (Except Fault Token) where
  condition c := .ok ((CanonicalValue.of c.value).map
    (leaf c.operator c.column.memberNames c.column.type.qualifiedName))
  conjunction xs := (xs.mapM id).map (group .and)
  disjunction xs := (xs.mapM id).map (group .or)
  quantified q column x := .ok (x.map (quantified q column.memberNames))

section
variable {s : Schema} {options : Options}

mutual

/-- An outcome is what becomes of making the tree. -/
theorem compileNode_eq_outcome : ∀ (f : Filter) (owner : TypeExpr) (scope : Option ColumnPath)
    {x : Except Fault Token}, outcomes.compileNode s options owner scope f = .ok x →
      backend.compileNode s options owner scope f = liftFault x
  | .leaf path o raw, owner, scope, x, h => by
    obtain ⟨read, hread, h⟩ := bind_eq_ok_iff.mp h
    cases h
    rw [Backend.compileNode, hread]
    show (liftFault (CanonicalValue.of read.value)).map _ = _
    cases CanonicalValue.of read.value <;> rfl
  | .group k fs, owner, scope, x, h => by
    obtain ⟨xs, hxs, rfl⟩ := map_eq_ok_iff.mp h
    rw [Backend.compileNode, compileAll_eq_outcomes fs owner scope hxs]
    -- the first part without a token is the one whose fault is told
    cases k <;> simp only [Backend.group, outcomes, backend] <;> cases xs.mapM id <;> rfl
  | .quantified q path fs, owner, scope, x, h => by
    obtain ⟨⟨column, element⟩, hcollection, h⟩ := bind_eq_ok_iff.mp h
    obtain ⟨xs, hxs, h⟩ := bind_eq_ok_iff.mp h
    cases h
    rw [Backend.compileNode, hcollection, ok_bind]
    simp only [compileAll_eq_outcomes fs element _ hxs]
    show liftFault (xs.mapM id) >>= _ = liftFault (((xs.mapM id).map _).map _)
    cases xs.mapM id <;> rfl

theorem compileAll_eq_outcomes : ∀ (fs : List Filter) (owner : TypeExpr)
    (scope : Option ColumnPath) {xs : List (Except Fault Token)},
    outcomes.compileAll s options owner scope fs = .ok xs →
      backend.compileAll s options owner scope fs = liftFault (xs.mapM id)
  | [], owner, scope, xs, h => by
    cases h
    rfl
  | f :: fs, owner, scope, xs, h => by
    obtain ⟨x, hx, h⟩ := bind_eq_ok_iff.mp h
    obtain ⟨xs', hxs, h⟩ := bind_eq_ok_iff.mp h
    cases h
    rw [Backend.compileAll, compileNode_eq_outcome f owner scope hx,
      compileAll_eq_outcomes fs owner scope hxs, List.mapM_cons]
    -- the first fault stands before what the others have
    cases x with
    | error fault => rfl
    | ok t =>
      simp only [id, ok_bind]
      cases xs'.mapM id <;> rfl

end

theorem ofFilters_eq_outcome {type : TypeExpr} {fs : List Filter} {x : Except Fault Token}
    (h : outcomes.compile s options type fs = .ok x) :
    ofFilters s options type fs = liftFault x := by
  rw [Backend.compile_eq] at h
  rw [ofFilters, Backend.compile_eq]
  exact compileNode_eq_outcome _ type none h

end

/-- An outcome keeps of a condition what conditions of one meaning have in common. -/
theorem outcomes_follow (s : Schema) : outcomes.Follows s Eq outcomes where
  condition {x y} h := by
    refine .ok ?_
    rw [h.operator, h.value, h.column.memberNames_eq, h.column.type_eq]
  conjunction h := by
    rw [List.forall₂_eq_eq_eq] at h
    rw [h]
  disjunction h := by
    rw [List.forall₂_eq_eq_eq] at h
    rw [h]
  quantified q _ _ hops x _ h := by
    subst h
    exact .ok (congrArg (fun names => x.map (quantified q names)) hops.memberNames_eq)

end Token

/-- What is compiled to a predicate has an outcome. -/
theorem Predicate.outcomes_follow (s : Schema) (r : Registry Strategy) (nullGuard : Bool) :
    (Predicate.backend r nullGuard).Follows s (fun _ _ => True) Token.outcomes where
  condition _ := fun _ _ => ⟨_, rfl, trivial⟩
  conjunction _ := trivial
  disjunction _ := trivial
  quantified _ _ _ _ _ _ _ := .ok trivial

/-- In a legible schema, what is compiled to a predicate also has a tree. -/
theorem Predicate.tokens_follow {s : Schema} (legible : s.Legible) (r : Registry Strategy)
    (nullGuard : Bool) :
    (Predicate.backend r nullGuard).Follows s (fun _ _ => True) Token.backend where
  condition {x y} h := by
    obtain ⟨raw, hraw⟩ := h.read
    obtain ⟨form, hform⟩ := Schema.exists_canonical legible hraw
    -- what was read from a text has a canonical form in a legible schema
    have htoken : Succeeds (Token.backend.condition y) := by
      show Succeeds ((liftFault (CanonicalValue.of y.value)).map _)
      rw [← h.value, hform]
      exact .ok _
    intro p _
    obtain ⟨t, ht⟩ := htoken
    exact ⟨t, ht, trivial⟩
  conjunction _ := trivial
  disjunction _ := trivial
  quantified _ _ _ _ _ _ _ := .ok trivial

variable {s : Schema} {options : Options} {r : Registry Strategy} {type : TypeExpr}
  {fs gs : List Filter}

theorem Token.succeeds_ofFilters (legible : s.Legible) {R : String → String → Prop}
    (names : s.NamesFollow type R options.fallback options.fallback) (self : ∀ a, R a a)
    (compiled : Succeeds (compileFilter s options r type fs)) :
    Succeeds (ofFilters s options type fs) := by
  have hfollows := Backend.follows_compile names
    (Predicate.tokens_follow legible r options.nullGuard) (Filter.RespeltAll.refl self fs)
  exact hfollows.succeeds compiled

/-- **One direction.** Where one of two lists in different letter case is compiled, the other one is
compiled to a predicate that holds for the same records, and the same becomes of making their
trees. -/
theorem exists_sameLetters (apart : s.NamesApart type)
    (respelt : Filter.RespeltAll SameLetters fs gs) {p : Predicate}
    (hp : compileFilter s options r type fs = .ok p) :
    (∃ q, compileFilter s options r type gs = .ok q ∧
      ∀ record, q.holds s record = p.holds s record) ∧
    Token.ofFilters s options type fs = Token.ofFilters s options type gs := by
  have hnames := apart.namesFollow options.fallback
  have hfold : Filter.RespeltAll (fun a b => foldKey a = foldKey b) fs gs :=
    respelt.imp fun _ _ h => h.fold
  have hself : Filter.RespeltAll (fun a b => foldKey a = foldKey b) fs fs :=
    Filter.RespeltAll.refl (fun a => Eq.refl (foldKey a)) fs
  refine ⟨Backend.follows_compile hnames (Predicate.backend_follows s r options.nullGuard) hfold
    p hp, ?_⟩
  -- the trees themselves may fail to be made, their outcomes may not
  obtain ⟨x, hx, -⟩ :=
    Backend.follows_compile hnames (Predicate.outcomes_follow s r options.nullGuard) hself p hp
  obtain ⟨x', hx', rfl⟩ := Backend.follows_compile hnames (Token.outcomes_follow s) hfold x hx
  rw [Token.ofFilters_eq_outcome hx, Token.ofFilters_eq_outcome hx']

/-- **Letter case decides nothing.** Where no two members of a type differ in letter case only, two
lists of filters that differ in the letter case of their columns only are compiled together, to
predicates with the same outcome on every record. Their fingerprints in any place are equal; in a
legible schema they exist, and elsewhere a value without a display spoils both or none. -/
theorem compileFilter_sameLetters (apart : s.NamesApart type)
    (respelt : Filter.RespeltAll SameLetters fs gs) (options : Options) (r : Registry Strategy) :
    (Succeeds (compileFilter s options r type fs) ↔
      Succeeds (compileFilter s options r type gs)) ∧
    ∀ p q, compileFilter s options r type fs = .ok p → compileFilter s options r type gs = .ok q →
      (∀ record, p.holds s record = q.holds s record) ∧
      ∀ workspace,
        Fingerprint.of s workspace options type fs = Fingerprint.of s workspace options type gs ∧
        (s.Legible → Succeeds (Fingerprint.of s workspace options type fs)) := by
  -- what is said of one spelling holds of the other, since respelling goes both ways
  have hback : Filter.RespeltAll SameLetters gs fs := respelt.symm fun _ _ h => h.symm
  refine ⟨⟨?_, ?_⟩, fun p q hp hq => ?_⟩
  · rintro ⟨p, hp⟩
    obtain ⟨⟨q, hq, -⟩, -⟩ := exists_sameLetters apart respelt hp
    exact ⟨q, hq⟩
  · rintro ⟨q, hq⟩
    obtain ⟨⟨p, hp, -⟩, -⟩ := exists_sameLetters apart hback hq
    exact ⟨p, hp⟩
  · obtain ⟨⟨q', hq', hsame⟩, htokens⟩ := exists_sameLetters apart respelt hp
    obtain rfl := Except.ok.inj (hq'.symm.trans hq)
    refine ⟨fun record => (hsame record).symm, fun workspace => ⟨?_, fun legible => ?_⟩⟩
    · rw [Fingerprint.of, Fingerprint.of, htokens]
    · have hnames := apart.namesFollow options.fallback
      exact (Token.succeeds_ofFilters legible hnames (fun _ => rfl) ⟨p, hp⟩).map _

namespace People

theorem namesApart : schema.NamesApart (.named "Person") := by
  intro t ht ms hms
  obtain rfl | rfl | rfl := reaches_cases ht
  · cases members_person.symm.trans hms
    decide
  · cases hms
  · cases hms

/-- Some friend is older than thirty, by the columns of the friends and of their age. -/
def olderFriend (friends age : ColumnPath) : Filter :=
  .quantified .any friends [.leaf age .gt (.plain "30")]

end People

open People in
/-- A condition on friends may have the column of the friends in one letter case where they are gone
through, and in another one below. -/
theorem compileFilter_sameLetters_of_people :
    let f := olderFriend ⟨["friends"], by decide, by decide⟩
      ⟨["friends", "age"], by decide, by decide⟩
    let g := olderFriend ⟨["FRIENDS"], by decide, by decide⟩
      ⟨["Friends", "aGe"], by decide, by decide⟩
    schema.NamesApart (.named "Person") ∧ Filter.RespeltAll SameLetters [f] [g] ∧
    ∃ p q, compileFilter schema .usual Predicate.usualRegistry (.named "Person") [f] = .ok p ∧
      compileFilter schema .usual Predicate.usualRegistry (.named "Person") [g] = .ok q ∧
      (∀ record, p.holds schema record = q.holds schema record) ∧
      ∀ workspace, ∃ x, Fingerprint.of schema workspace .usual (.named "Person") [f] = .ok x ∧
        Fingerprint.of schema workspace .usual (.named "Person") [g] = .ok x := by
  intro f g
  have hfriends : List.Forall₂ SameLetters ["friends"] ["FRIENDS"] := .cons (by decide) .nil
  have hage : List.Forall₂ SameLetters ["friends", "age"] ["Friends", "aGe"] :=
    .cons (by decide) (.cons (by decide) .nil)
  have hrespelt : Filter.RespeltAll SameLetters [f] [g] := by
    refine .cons (.quantified .any hfriends (.cons ?_ .nil)) .nil
    apply Filter.Respelt.leaf
    exact hage
  obtain ⟨-, hsame⟩ :=
    compileFilter_sameLetters namesApart hrespelt .usual Predicate.usualRegistry
  obtain ⟨hholds, hfingerprints⟩ := hsame _ _ rfl rfl
  refine ⟨namesApart, hrespelt, _, _, rfl, rfl, hholds, fun workspace => ?_⟩
  -- all values of this schema have a display, so that there are fingerprints
  obtain ⟨hequal, hexists⟩ := hfingerprints workspace
  obtain ⟨x, hx⟩ := hexists (Schema.legible_of_absent rfl rfl)
  exact ⟨x, hx, hequal ▸ hx⟩

end RecordQuery
