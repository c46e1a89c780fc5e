import RecordQuery.Casting
import RecordQuery.Proofs.Casting.Canonical
import RecordQuery.Proofs.Refusal

/-!
# What a cast fails with

A cast looks columns up, takes the path of a collection off them and puts filters together. It fails
where one of these steps does, and the walk over the filters adds no failure of its own.

* `Caster.Meets` — the filters that a cast meets, with the scopes in which it meets them.
* `Caster.StepsFailWith` — the errors of the steps at these filters; by `Caster.failsWith_castAll`
  the cast has no others. Nothing is assumed of the table, whose rules may fail with any error.
* `Caster.Meets.isBelow`, `Caster.Meets.reaches` — what is known where a filter is met.
* `castFilters_refused` — the result for tables without rules.

A path is taken off another one in three places. The columns of a parsed filter continue the column
of their quantifier, so the first place, where a column without an entry is passed through, cannot
fail. Conditions that an entry moves out of their collection are found when the new quantified
filter is put together. But a nested quantifier that an entry moves out of its collection is found
earlier, when the type of its elements is asked for, and there the failure is not one of the
documented ones: `castFilters_fault_of_company`.
-/

namespace RecordQuery

/-! ### Families of errors -/

namespace Error

/-- Columns without an entry. -/
inductive IsUnmapped : Error → Prop
  | intro (columns : List String) : IsUnmapped (.unmapped columns)

/-- The errors that a cast is refused with, by the documentation. -/
def IsCastRefusal (e : Error) : Prop := e.IsUnmapped ∨ e.IsResolution ∨ e.IsGrammar

theorem IsResolution.isCastRefusal {e : Error} (h : e.IsResolution) : e.IsCastRefusal :=
  .inr (.inl h)

theorem IsGrammar.isCastRefusal {e : Error} (h : e.IsGrammar) : e.IsCastRefusal := .inr (.inr h)

end Error

/-- The table moves columns, perhaps with another operator, and has no rules and no changes of
values. -/
def CastOptions.IsPlain (o : CastOptions) : Prop :=
  ∀ key m, (key, m) ∈ o.filters → ∃ target operator, m = .moved target none operator

namespace Caster

/-! ### The walk -/

/-- The filters that a cast of some filters meets, each with its scope. What is below a quantifier
is met if the quantifier moves. -/
inductive Meets (c : Caster) (fs : List Filter) : Option CastScope → Filter → Prop
  | top {f : Filter} (hf : f ∈ fs) : Meets c fs none f
  | part {scope : Option CastScope} {k : Connective} {gs : List Filter} {f : Filter}
    (h : Meets c fs scope (.group k gs)) (hf : f ∈ gs) : Meets c fs scope f
  | inside {scope : Option CastScope} {q : Quantifier} {p : ColumnPath} {gs : List Filter}
    {x : CastScope} {f : Filter} (h : Meets c fs scope (.quantified q p gs))
    (moved : c.castColumn scope q p gs = .ok (.moved x)) (hf : f ∈ gs) : Meets c fs (some x) f

/-- The errors of the steps of a cast at the filters that it meets. -/
structure StepsFailWith (c : Caster) (fs : List Filter) (P : Error → Prop) : Prop where
  leaf {scope : Option CastScope} {p : ColumnPath} {o : Operator} {raw : RawText}
    (h : c.Meets fs scope (.leaf p o raw)) : FailsWith P (c.castLeaf scope p o raw)
  column {scope : Option CastScope} {q : Quantifier} {p : ColumnPath} {gs : List Filter}
    (h : c.Meets fs scope (.quantified q p gs)) : FailsWith P (c.castColumn scope q p gs)
  grammar {e : Error} (h : e.IsGrammar) : P e

section Walk

variable {c : Caster} {fs : List Filter} {P : Error → Prop}

mutual

theorem failsWith_cast (steps : c.StepsFailWith fs P) : ∀ (f : Filter) {scope : Option CastScope},
    c.Meets fs scope f → FailsWith P (c.cast scope f)
  | .leaf _ _ _, _, met => steps.leaf met
  | .group k gs, scope, met => by
    have hparts := failsWith_castAllIn steps gs fun f hf => .part met hf
    exact hparts.bind fun children _ => failsWith_ok _
  | .quantified q p gs, scope, met => by
    -- the conditions are met only if the quantifier moves
    refine (steps.column met).bind fun result hresult => ?_
    cases result with
    | dropped => exact failsWith_ok _
    | replaced filters => exact failsWith_ok _
    | moved x =>
      have hparts := failsWith_castAllIn steps gs fun f hf => .inside met hresult hf
      refine hparts.bind fun children _ => ?_
      split
      · exact failsWith_ok _
      · -- the conditions may have been moved out of the collection, which is found here
        have hmade := Filter.failsWith_ofQualified (.quantifier q) (some x.target) children
        exact (hmade.mono fun _ => steps.grammar).map _

theorem failsWith_castAllIn (steps : c.StepsFailWith fs P) :
    ∀ (gs : List Filter) {scope : Option CastScope}, (∀ f ∈ gs, c.Meets fs scope f) →
      FailsWith P (c.castAll scope gs)
  | [], _, _ => failsWith_ok []
  | f :: gs, scope, met => by
    obtain ⟨hf, hgs⟩ := List.forall_mem_cons.mp met
    refine (failsWith_cast steps f hf).bind fun first _ => ?_
    exact (failsWith_castAllIn steps gs hgs).bind fun rest _ => failsWith_ok _

end

/-- **The walk.** A cast fails with the errors of its steps only. -/
theorem failsWith_castAll (steps : c.StepsFailWith fs P) : FailsWith P (c.castAll none fs) :=
  failsWith_castAllIn steps fs fun _ hf => .top hf

end Walk

/-! ### The steps -/

section Steps

variable {c : Caster} {P : Error → Prop} {scope : Option CastScope} {p : ColumnPath}

/-- A leaf fails where a rule fails, where a change of its value fails or gives no text, or where
its column cannot be passed through. -/
theorem failsWith_castLeaf {o : Operator} {raw : RawText}
    (rule : ∀ rule, c.options.filterMapping? p = some (.replaced rule) →
      FailsWith P (rule (.leaf p o raw)))
    (change : ∀ target f operator,
      c.options.filterMapping? p = some (.moved target (some f) operator) →
        FailsWith P (f raw.text >>= rawText))
    (passed : FailsWith P (c.passThrough scope p)) : FailsWith P (c.castLeaf scope p o raw) := by
  rw [castLeaf]
  split
  · exact failsWith_ok _
  · split
    · next hrule => exact rule _ hrule
    · next f operator hmoved =>
      -- only a change of the value can fail
      cases f with
      | none => exact failsWith_ok _
      | some f => exact (change _ f operator hmoved).bind fun value _ => failsWith_ok _
    · split
      · exact failsWith_ok _
      · exact passed.bind fun q _ => failsWith_ok _

/-- A quantifier fails where a rule fails, where its column cannot be passed through, or where the
elements of the new column are not found. -/
theorem failsWith_castColumn {q : Quantifier} {gs : List Filter}
    (rule : ∀ rule, c.options.filterMapping? p = some (.replaced rule) →
      FailsWith P (rule (.quantified q p gs)))
    (moved : ∀ target change operator, c.options.isExcluded p = false →
      c.options.filterMapping? p = some (.moved target change operator) →
        FailsWith P (c.elementType scope target))
    (passed : FailsWith P (c.passThrough scope p))
    (found : ∀ target, c.passThrough scope p = .ok target →
      FailsWith P (c.elementType scope target)) :
    FailsWith P (c.castColumn scope q p gs) := by
  -- an excluded column, a rule, a column that is moved, and one without an entry
  rw [castColumn]
  split
  · exact failsWith_ok _
  · next hexcluded =>
    split
    · next hrule => exact (rule _ hrule).map _
    · next hmoved =>
      exact (moved _ _ _ (Bool.eq_false_iff.mpr hexcluded) hmoved).map _
    · split
      · exact failsWith_ok _
      · exact passed.bind fun target htarget => (found target htarget).map _

/-- What is known of the scope of a quantifier that moves. -/
theorem castColumn_moved {q : Quantifier} {gs : List Filter} {x : CastScope}
    (h : c.castColumn scope q p gs = .ok (.moved x)) :
    x.source = p ∧ c.elementType scope x.target = .ok x.element := by
  -- an entry and a column that is passed through both end in the same last step
  have hinto : ∀ target, (c.elementType scope target).map
      (fun element => QuantifierCast.moved ⟨p, target, element⟩) = .ok (.moved x) →
      x.source = p ∧ c.elementType scope x.target = .ok x.element := by
    intro target h
    obtain ⟨element, helement, hx⟩ := map_eq_ok_iff.mp h
    cases hx
    exact ⟨rfl, helement⟩
  rw [castColumn] at h
  split at h
  · cases h
  · split at h
    · obtain ⟨_, -, h⟩ := map_eq_ok_iff.mp h
      cases h
    · exact hinto _ h
    · split at h
      · cases h
      · obtain ⟨target, -, h⟩ := bind_eq_ok_iff.mp h
        exact hinto target h

/-- What takes the place of a column is written with the members' own names. -/
theorem failsWith_respelt {owner : Option TypeExpr}
    (lookUp : ∀ type path, owner = some type →
      FailsWith P (c.schema.resolve c.options.fallback type path))
    (grammar : ∀ e, e.IsGrammar → P e) : FailsWith P (c.respelt owner p) := by
  rw [respelt, Caster.lookUp.eq_def]
  cases owner with
  | none => exact failsWith_ok p
  | some type =>
    refine ((lookUp type p rfl).map some).bind fun column hcolumn => ?_
    cases column with
    | none => exact failsWith_ok p
    -- the names of the members need not be such as columns have
    | some column => exact (ColumnPath.failsWith_ofSegments _).mono grammar

/-- A column is passed through where it is below its collection and is found. -/
theorem failsWith_passThrough (relative : ∀ x ∈ scope, FailsWith P (p.relativeTo x.source))
    (lookUp : ∀ type path, c.owner scope = some type →
      FailsWith P (c.schema.resolve c.options.fallback type path))
    (grammar : ∀ e, e.IsGrammar → P e) : FailsWith P (c.passThrough scope p) := by
  cases scope with
  | none => exact failsWith_respelt lookUp grammar
  | some x =>
    refine (relative x rfl).bind fun q _ => ?_
    exact (failsWith_respelt lookUp grammar).bind fun q' _ => failsWith_ok _

theorem isBelow_of_passThrough {target : ColumnPath} (h : c.passThrough scope p = .ok target) :
    ∀ x ∈ scope, target.isBelow x.target = true := by
  intro x hx
  cases hx
  obtain ⟨q, -, h⟩ := bind_eq_ok_iff.mp h
  obtain ⟨q', -, h⟩ := bind_eq_ok_iff.mp h
  cases h
  exact ColumnPath.isBelow_append x.target q'

/-- The elements of a column are looked up below its collection, if their owner is known. -/
theorem failsWith_elementType
    (relative : ∀ x ∈ scope, x.element.isSome = true → FailsWith P (p.relativeTo x.target))
    (lookUp : ∀ type path, c.owner scope = some type →
      FailsWith P (c.schema.resolve c.options.fallback type path)) :
    FailsWith P (c.elementType scope p) := by
  rw [elementType]
  split
  · exact failsWith_ok none
  · next type howner =>
    cases scope with
    | none => exact (lookUp type p howner).bind fun column _ => failsWith_ok _
    | some x =>
      -- in a collection, the owner is the type of its elements
      have helement : x.element.isSome = true := Option.isSome_iff_exists.mpr ⟨type, howner⟩
      refine (relative x rfl helement).bind fun q _ => ?_
      exact (lookUp type q howner).bind fun column _ => failsWith_ok _

theorem elementType_eq_some {e : TypeExpr} (h : c.elementType scope p = .ok (some e)) :
    ∃ owner q column, c.owner scope = some owner ∧
      c.schema.resolve c.options.fallback owner q = .ok column ∧ column.element? = some e := by
  rw [elementType] at h
  split at h
  · cases h
  · next owner howner =>
    -- outside a collection the path is taken as it is, inside it is shortened first
    cases scope with
    | none =>
      simp only [ok_bind] at h
      obtain ⟨column, hcolumn, h⟩ := bind_eq_ok_iff.mp h
      exact ⟨owner, p, column, howner, hcolumn, Except.ok.inj h⟩
    | some x =>
      obtain ⟨q, -, h⟩ := bind_eq_ok_iff.mp h
      obtain ⟨column, hcolumn, h⟩ := bind_eq_ok_iff.mp h
      exact ⟨owner, q, column, howner, hcolumn, Except.ok.inj h⟩

end Steps

/-! ### What is known of the filters that are met -/

namespace Meets

variable {c : Caster} {fs : List Filter} {scope : Option CastScope} {f : Filter}

/-- In qualified trees, the columns that are met continue the column of their quantifier. -/
theorem isBelow (qualified : ∀ f ∈ fs, f.Qualified) (h : c.Meets fs scope f) :
    f.Qualified ∧ ∀ x ∈ scope, ∀ p ∈ f.columns, p.isBelow x.source = true := by
  induction h with
  | top hf => exact ⟨qualified _ hf, nofun⟩
  | part _ hf ih =>
    obtain ⟨hgroup, hcolumns⟩ := ih
    refine ⟨Filter.qualified_group.mp hgroup _ hf, fun x hx p hp => hcolumns x hx p ?_⟩
    exact Filter.mem_columnsAll.mpr ⟨_, hf, hp⟩
  | inside _ moved hf ih =>
    obtain ⟨hcolumns, hparts⟩ := Filter.qualified_quantified.mp ih.1
    refine ⟨hparts _ hf, fun x hx p hp => ?_⟩
    -- the collection is the column of the quantifier, whatever the scope of the quantifier was
    cases hx
    rw [(castColumn_moved moved).1]
    exact hcolumns p (Filter.mem_columnsAll.mpr ⟨_, hf, hp⟩)

/-- Columns of the destination lead to the types on which columns are looked up. -/
theorem reaches (h : c.Meets fs scope f) : ∀ type, c.owner scope = some type →
    ∃ root ∈ c.destination, c.schema.Reaches root type := by
  induction h with
  | top _ => exact fun type on => ⟨type, on, .root⟩
  | part _ _ ih => exact ih
  | @inside scope q p gs x f _ moved _ ih =>
    intro type on
    -- the elements were found on a column of the owner outside, to which columns lead
    change x.element = some type at on
    obtain ⟨-, helement⟩ := castColumn_moved moved
    rw [on] at helement
    obtain ⟨owner, q, column, howner, hcolumn, hholds⟩ := elementType_eq_some helement
    obtain ⟨root, hroot, hreaches⟩ := ih owner howner
    exact ⟨root, hroot, (Schema.reaches_of_resolve hreaches hcolumn).element hholds⟩

end Meets

/-! ### Tables without rules -/

/-- A quantifier is met in a collection whose elements are known, and its entry leads out of the
place where the collection goes. -/
structure Strays (c : Caster) (fs : List Filter) (x : CastScope) (p target : ColumnPath) :
    Prop where
  met : ∃ q gs, c.Meets fs (some x) (.quantified q p gs)
  known : x.element.isSome = true
  listed : c.options.isExcluded p = false
  entry : ∃ change operator, c.options.filterMapping? p = some (.moved target change operator)
  outside : target.isBelow x.target = false

/-- At a quantifier that strays, the path of the collection cannot be taken off the new column. -/
theorem Strays.castColumn_eq {c : Caster} {fs : List Filter} {x : CastScope} {p target : ColumnPath}
    (h : c.Strays fs x p target) (q : Quantifier) (gs : List Filter) :
    c.castColumn (some x) q p gs = .error (.misuse (.notBelow target.text x.target.text)) := by
  obtain ⟨change, operator, hentry⟩ := h.entry
  obtain ⟨type, htype⟩ := Option.isSome_iff_exists.mp h.known
  have howner : c.owner (some x) = some type := htype
  rw [castColumn, h.listed, hentry]
  simp only [Bool.false_eq_true, if_false]
  rw [elementType, howner]
  show ((target.relativeTo x.target >>= _) : Except Error _).map _ = _
  -- the target lies outside the collection, and cannot be shortened
  rw [ColumnPath.relativeTo_of_outside h.outside]
  rfl

/-- The elements of a collection are known only if there is a destination. -/
theorem Strays.exists_destination {c : Caster} {fs : List Filter} {x : CastScope}
    {p target : ColumnPath} (h : c.Strays fs x p target) : ∃ root, c.destination = some root := by
  obtain ⟨q, gs, hmet⟩ := h.met
  obtain ⟨type, htype⟩ := Option.isSome_iff_exists.mp h.known
  obtain ⟨root, hroot, -⟩ := hmet.reaches type htype
  exact ⟨root, hroot⟩

/-- The errors of a table without rules: a documented one, or that of a quantifier that strays. -/
def Fails (c : Caster) (fs : List Filter) (e : Error) : Prop :=
  e.IsCastRefusal ∨ ∃ x p target, c.Strays fs x p target ∧
    e = .misuse (.notBelow target.text x.target.text)

/-- **The steps** of a cast of parsed filters, by a table without rules. -/
theorem stepsFailWith {c : Caster} {fs : List Filter} (qualified : ∀ f ∈ fs, f.Qualified)
    (plain : c.options.IsPlain) (described : ∀ type ∈ c.destination, c.schema.Described type) :
    c.StepsFailWith fs (c.Fails fs) := by
  have hgrammar : ∀ e, e.IsGrammar → c.Fails fs e := fun e he => .inl he.isCastRefusal
  -- columns are looked up on types whose members are known
  have hlookUp : ∀ {scope f}, c.Meets fs scope f → ∀ type path, c.owner scope = some type →
      FailsWith (c.Fails fs) (c.schema.resolve c.options.fallback type path) := by
    intro scope f met type path on
    obtain ⟨root, hroot, hreaches⟩ := met.reaches type on
    have hresolve :=
      Schema.failsWith_resolve (described root hroot) hreaches c.options.fallback path
    exact hresolve.mono fun e he => .inl he.isCastRefusal
  -- and they continue the column of their collection, so that this can be taken off
  have hrelative : ∀ {scope f p}, c.Meets fs scope f → p ∈ f.columns →
      ∀ x ∈ scope, FailsWith (c.Fails fs) (p.relativeTo x.source) := by
    intro scope f p met hp x hx
    have hbelow := (met.isBelow qualified).2 x hx p hp
    exact ColumnPath.failsWith_relativeTo fun houtside => by simp [hbelow] at houtside
  -- no entry is a rule, and none changes values
  have hnone : ∀ {p rule}, c.options.filterMapping? p ≠ some (.replaced rule) := by
    intro p rule hrule
    obtain ⟨target, operator, h⟩ := plain _ _ (mem_of_lookup hrule)
    cases h
  constructor
  · intro scope p o raw met
    refine failsWith_castLeaf (fun rule hrule => absurd hrule hnone) ?_ ?_
    · intro target f operator hmoved
      obtain ⟨_, _, h⟩ := plain _ _ (mem_of_lookup hmoved)
      cases h
    · have hp : p ∈ (Filter.leaf p o raw).columns := List.mem_singleton_self p
      exact failsWith_passThrough (hrelative met hp) (hlookUp met) hgrammar
  · intro scope q p gs met
    have hp : p ∈ (Filter.quantified q p gs).columns := List.mem_cons_self
    refine failsWith_castColumn (fun rule hrule => absurd hrule hnone) ?_
      (failsWith_passThrough (hrelative met hp) (hlookUp met) hgrammar) ?_
    · -- an entry may lead anywhere
      intro target change operator hlisted hentry
      refine failsWith_elementType (fun x hx hknown => ?_) (hlookUp met)
      cases hx
      exact ColumnPath.failsWith_relativeTo fun houtside => .inr ⟨x, p, target,
        ⟨⟨q, gs, met⟩, hknown, hlisted, ⟨change, operator, hentry⟩, houtside⟩, rfl⟩
    · intro target htarget
      -- a column that is passed through stays in its collection
      refine failsWith_elementType (fun x hx _ => ?_) (hlookUp met)
      have hbelow := isBelow_of_passThrough htarget x hx
      exact ColumnPath.failsWith_relativeTo fun houtside => by simp [hbelow] at houtside
  · exact fun he => hgrammar _ he

end Caster

/-- **A cast is refused with documented errors, or a quantifier strays.** Filters that are read from
a text are cast to a described type, or to no type, by a table that may move, exclude, drop and
refuse columns, but has no rules. The cast has a result, or one of the documented errors, or that of
a nested quantifier whose entry leads out of its collection; such a quantifier always fails. Without
a destination type there is no such failure. -/
theorem castFilters_refused {s : Schema} {destination : Option TypeExpr} {o : CastOptions}
    {text : String} {fs : List Filter} (parsed : Filter.parseAll text = .ok fs) (plain : o.IsPlain)
    (described : ∀ type ∈ destination, s.Described type) :
    let c : Caster := ⟨s, destination, o⟩
    ((∃ gs, castFilters c fs = .ok gs) ∨ ∃ e, castFilters c fs = .error e ∧
      (e.IsCastRefusal ∨ ∃ x p target, c.Strays fs x p target ∧
        e = .misuse (.notBelow target.text x.target.text))) ∧
    (∀ x p target, c.Strays fs x p target → ∀ q gs, c.castColumn (some x) q p gs =
      .error (.misuse (.notBelow target.text x.target.text))) ∧
    (destination = none → ∀ e, castFilters c fs = .error e → e.IsCastRefusal) := by
  intro c
  have hsteps := Caster.stepsFailWith (c := c) (Filter.qualified_parseAll parsed) plain described
  have hfails : FailsWith (c.Fails fs) (castFilters c fs) := by
    refine FailsWith.bind ?_ fun _ _ => Caster.failsWith_castAll hsteps
    -- the check for columns without an entry comes first, and fails in one way only
    rw [CastOptions.checkMapped]
    split
    · exact failsWith_error (.inl (.inl (.intro _)))
    · exact failsWith_ok _
  refine ⟨?_, fun x p target h => h.castColumn_eq, fun hnone e he => ?_⟩
  · cases h : castFilters c fs with
    | ok gs => exact .inl ⟨gs, rfl⟩
    | error e => exact .inr ⟨e, rfl, hfails e h⟩
  · obtain hrefusal | ⟨x, p, target, hstrays, -⟩ := hfails e he
    · exact hrefusal
    · obtain ⟨root, hroot⟩ := hstrays.exists_destination
      exact absurd (hroot.symm.trans hnone) nofun

namespace Companies

/-- The members of all types that columns of companies lead to are known. -/
theorem described : schema.Described (.named "Company") := by
  intro t ht
  obtain rfl | rfl | rfl | rfl | rfl | rfl := reaches_cases ht
  · exact ⟨_, members_company⟩
  · exact ⟨none, rfl⟩
  · exact ⟨_, members_team⟩
  · exact ⟨none, rfl⟩
  · exact ⟨_, members_person⟩
  · exact ⟨none, rfl⟩

/-- The table that moves one column. -/
def moving (source target : ColumnPath) : CastOptions :=
  CastOptions.empty.withFilter source (.moved target none none)

theorem isPlain_moving (source target : ColumnPath) : (moving source target).IsPlain := by
  intro key m h
  cases List.mem_singleton.mp h
  exact ⟨target, none, rfl⟩

end Companies

open Companies in
/-- A condition on the members of a team that is moved out of the members is refused. -/
theorem castFilters_refused_of_company :
    let f := addressed ⟨["teams"], by decide, by decide⟩
      ⟨["teams", "members"], by decide, by decide⟩
      ⟨["teams", "members", "mail"], by decide, by decide⟩
    let o := moving ⟨["teams", "members", "mail"], by decide, by decide⟩
      ⟨["mail"], by decide, by decide⟩
    let c : Caster := ⟨schema, some (.named "Company"), o⟩
    Filter.parseAll "teams:any(members:all(mail:sw(a)))" = .ok [f] ∧ o.IsPlain ∧
      schema.Described (.named "Company") ∧
      castFilters c [f] = .error (.inText (.notBelow "mail" "teams.members") "mail") ∧
      ((∃ gs, castFilters c [f] = .ok gs) ∨ ∃ e, castFilters c [f] = .error e ∧
        (e.IsCastRefusal ∨ ∃ x p target, c.Strays [f] x p target ∧
          e = .misuse (.notBelow target.text x.target.text))) := by
  intro f o c
  have hparse : Filter.parseAll "teams:any(members:all(mail:sw(a)))" = .ok [f] := by
    decide +kernel
  have hplain : o.IsPlain := isPlain_moving _ _
  have hdescribed : ∀ type ∈ some (TypeExpr.named "Company"), schema.Described type := by
    rintro type ⟨⟩
    exact described
  -- the members have no entry, so their mail is moved out of them
  have hrefused := castFilters_refused (s := schema) hparse hplain hdescribed
  exact ⟨hparse, hplain, described, rfl, hrefused.1⟩

open Companies in
/-- **A nested quantifier that an entry moves out of its collection is no documented error.** The
entry for the members of a team gives their column as it is written below the teams. -/
theorem castFilters_fault_of_company :
    let o := moving ⟨["teams", "members"], by decide, by decide⟩
      ⟨["members"], by decide, by decide⟩
    let c : Caster := ⟨schema, some (.named "Company"), o⟩
    let cast := Filter.parseAll "teams:any(members:all(mail:sw(a)))" >>= castFilters c
    o.IsPlain ∧ schema.Described (.named "Company") ∧ schema.NamesSegments (.named "Company") ∧
      (∀ gs, cast ≠ .ok gs) ∧ ∀ e, cast = .error e → ¬ e.IsCastRefusal := by
  intro o c cast
  let f := addressed ⟨["teams"], by decide, by decide⟩
    ⟨["teams", "members"], by decide, by decide⟩
    ⟨["teams", "members", "mail"], by decide, by decide⟩
  have hparse : Filter.parseAll "teams:any(members:all(mail:sw(a)))" = .ok [f] := by
    decide +kernel
  have hfault : castFilters c [f] = .error (.misuse (.notBelow "members" "teams")) := by
    decide +kernel
  have hcast : cast = .error (.misuse (.notBelow "members" "teams")) := by
    show Filter.parseAll "teams:any(members:all(mail:sw(a)))" >>= castFilters c = _
    rw [hparse, ok_bind, hfault]
  rw [hcast]
  refine ⟨isPlain_moving _ _, described, namesSegments, nofun, ?_⟩
  rintro e he (h | h | h)
  -- a misuse is none of the three kinds of refusal
  all_goals
    cases he
    cases h

end RecordQuery
