import RecordQuery.Casting
import RecordQuery.Proofs.LetterCase
import RecordQuery.Proofs.Switches

/-!
# Casting without a table

A cast without entries moves nothing. Without a destination type it gives back what the reader of
filters made. With one it looks every column up and writes it with the members' own names, and this
changes the spelling of the filters and nothing else.

* `Caster.bare` — the cast without entries.
* `Caster.Spells` — what it writes for a column: the names of the members that the column is
  resolved to, below the collection that it is in. A column that is written in this way is found
  again and left as it is (`Caster.Spells.again`), with alternate names tried or not.
* `Caster.Respells` — a filter and what it becomes, column by column. Everything is read off this
  relation: what the cast gives (`Caster.Respells.cast_eq`), what is compiled from it
  (`Caster.Respells.follows_compileNode`), and that it is cast to itself (`Caster.Respells.again`).
* `castFilters_canonical` — the result.

Two paths go with a collection: the one that its conditions have in the filter, and the one that
they get. In the filter, conditions may write the path of the collection in another case than the
quantifier does; afterwards all of them write it like the quantifier.
-/

namespace RecordQuery

/-! ### Members with identifiers as names -/

namespace Schema

variable {s : Schema} {root owner : TypeExpr}

/-- The members of all types that columns lead to, the elements of collections included, have names
that can stand in a column. -/
def NamesSegments (s : Schema) (root : TypeExpr) : Prop :=
  ∀ t, s.Reaches root t → s.NamedAs (fun name => isSegment name = true) t

/-- The names of the members of a column make a path. -/
theorem exists_path_of_resolve (named : s.NamesSegments root) (howner : s.Reaches root owner)
    {fallback : Bool} {path : ColumnPath} {column : ResolvedColumn}
    (h : s.resolve fallback owner path = .ok column) :
    ∃ q : ColumnPath, q.segments = column.memberNames := by
  have hne : column.memberNames ≠ [] := by
    simp [ResolvedColumn.memberNames, ResolvedColumn.hops]
  -- the names of the members that can be reached are segments
  have hvalid : column.memberNames.all isSegment = true := by
    rw [List.all_eq_true]
    intro name hname
    obtain ⟨hop, hhop, rfl⟩ := List.mem_map.mp hname
    exact named owner howner _ (chained_of_resolve h) hop hhop
  exact ⟨⟨column.memberNames, hne, hvalid⟩, rfl⟩

end Schema

/-! ### Trees below a column -/

namespace Surface

theorem isBelow_of_mem_underAll {c p : ColumnPath} {us : List Surface}
    (h : p ∈ Filter.columnsAll (underAll (some c) us)) : p.isBelow c = true := by
  rw [← qualifyAll_trees] at h
  exact Filter.isBelow_of_mem_qualifyAll h

theorem isEmpty_underAll (scope : Option ColumnPath) {us : List Surface} (h : us ≠ []) :
    (underAll scope us).isEmpty = false := by
  cases us with
  | nil => exact absurd rfl h
  | cons u us => rfl

end Surface

/-! ### Casts without entries -/

/-- The scope of a collection that stays where it has been put. -/
def CastScope.settled (x : CastScope) : CastScope := ⟨x.target, x.target, x.element⟩

namespace Caster

/-- The cast without entries. Columns are looked up on the destination, if there is one. -/
def bare (s : Schema) (destination : Option TypeExpr) (fallback : Bool) : Caster :=
  ⟨s, destination, { CastOptions.empty with fallback := fallback }⟩

section
variable {s : Schema} {destination : Option TypeExpr} {fallback : Bool}

/-- Nothing is dropped, since nothing is asked to be. -/
theorem drops_bare (scope : Option CastScope) : (bare s destination fallback).drops scope = false :=
  Bool.and_false _

theorem castLeaf_bare (scope : Option CastScope) (p : ColumnPath) (o : Operator) (raw : RawText) :
    (bare s destination fallback).castLeaf scope p o raw =
      ((bare s destination fallback).passThrough scope p).map fun q => [.leaf q o raw] := by
  -- without entries, the two lists that are searched for the column are empty
  have hexcluded : (bare s destination fallback).options.isExcluded p = false := rfl
  have hmapping : (bare s destination fallback).options.filterMapping? p = none := rfl
  rw [castLeaf, hexcluded, hmapping]
  simp only [drops_bare, Bool.false_eq_true, if_false]
  rfl

theorem castColumn_bare (scope : Option CastScope) (q : Quantifier) (p : ColumnPath)
    (fs : List Filter) :
    (bare s destination fallback).castColumn scope q p fs = (do
      let target ← (bare s destination fallback).passThrough scope p
      let element ← (bare s destination fallback).elementType scope target
      .ok (.moved ⟨p, target, element⟩)) := by
  have hexcluded : (bare s destination fallback).options.isExcluded p = false := rfl
  have hmapping : (bare s destination fallback).options.filterMapping? p = none := rfl
  rw [castColumn, hexcluded, hmapping]
  simp only [drops_bare, Bool.false_eq_true, if_false]
  rfl

end

/-! ### No destination -/

section Unresolved

variable {s : Schema} {fallback : Bool}

/-- The scope of a collection that stays where it is, with elements of which nothing is known. -/
def staying (scope : Option ColumnPath) : Option CastScope := scope.map fun p => ⟨p, p, none⟩

theorem owner_staying (scope : Option ColumnPath) :
    (bare s none fallback).owner (staying scope) = none := by
  cases scope <;> rfl

/-- A path below the column of its quantifier is taken apart there and put together again. -/
theorem passThrough_staying (scope : Option ColumnPath) (p : ColumnPath) :
    (bare s none fallback).passThrough (staying scope) (p.under scope) = .ok (p.under scope) := by
  cases scope with
  | none => rfl
  | some c =>
    show (ColumnPath.relativeTo (c ++ p) c >>= _) = _
    rw [ColumnPath.relativeTo_append]
    rfl

theorem elementType_staying (scope : Option ColumnPath) (target : ColumnPath) :
    (bare s none fallback).elementType (staying scope) target = .ok none := by
  rw [elementType, owner_staying]

mutual

/-- What a text derives is cast to itself. -/
theorem cast_under : ∀ (u : Surface) (scope : Option ColumnPath) {cs : List Char}, Derives cs u →
    (bare s none fallback).cast (staying scope) (u.under scope) = .ok [u.under scope]
  | .leaf p o raw, scope, _, _ => by
    rw [Surface.under, cast, castLeaf_bare, passThrough_staying]
    rfl
  | .group k us, scope, _, h => by
    cases h with
    | group _ _ arguments children =>
      rw [Surface.under, cast, castAll_underAll us scope children, ok_bind]
      -- a group that is read has an argument, so it is not dropped as empty
      have hsome := Surface.isEmpty_underAll scope (ne_nil_of_derives arguments children)
      rw [hsome]
      rfl
  | .quantified q p us, scope, _, h => by
    cases h with
    | quantified _ _ _ arguments children =>
      rw [Surface.under, cast, castColumn_bare, passThrough_staying, ok_bind, elementType_staying]
      -- below the quantifier, its full path is the scope
      have hchildren := castAll_underAll us (some (p.under scope)) children
      have hsome :=
        Surface.isEmpty_underAll (some (p.under scope)) (ne_nil_of_derives arguments children)
      have hbelow : ∀ d ∈ Filter.columnsAll (Surface.underAll (some (p.under scope)) us),
          d.isBelow (p.under scope) = true := fun d hd => Surface.isBelow_of_mem_underAll hd
      have hqualified := Filter.ofQualified_of_isBelow q hbelow
      simp only [ok_bind]
      rw [staying, Option.map_some] at hchildren
      rw [hchildren, ok_bind, hsome]
      simp only [Bool.false_eq_true, if_false]
      rw [hqualified]
      rfl

theorem castAll_underAll : ∀ (us : List Surface) (scope : Option ColumnPath)
    {parts : List (List Char)}, List.Forall₂ Derives parts us →
    (bare s none fallback).castAll (staying scope) (Surface.underAll scope us) =
      .ok (Surface.underAll scope us)
  | [], _, _, _ => rfl
  | u :: us, scope, _, .cons hu hus => by
    rw [Surface.underAll, castAll, cast_under u scope hu, ok_bind, castAll_underAll us scope hus]
    rfl

end

end Unresolved

/-! ### Columns at the destination -/

/-- What a column becomes: the names of the members that it is resolved to, below the place where
its collection goes. -/
inductive Spells (c : Caster) (scope : Option CastScope) (p p' : ColumnPath)
    (column : ResolvedColumn) : Prop
  | intro {owner : TypeExpr} {relative q : ColumnPath} (on : c.owner scope = some owner)
    (within : p.within (scope.map CastScope.source) = .ok relative)
    (found : c.schema.resolve c.options.fallback owner relative = .ok column)
    (names : q.segments = column.memberNames)
    (target : p' = q.under (scope.map CastScope.target)) : Spells c scope p p' column

namespace Spells

variable {c : Caster} {scope : Option CastScope} {p p' : ColumnPath} {column : ResolvedColumn}
  {owner : TypeExpr} {options options' : Options}

/-- A column that is found is written in some way, if its members have identifiers as names. -/
theorem exists_of_resolveIn {root : TypeExpr} (named : c.schema.NamesSegments root)
    (on : c.owner scope = some owner) (howner : c.schema.Reaches root owner)
    (same : options.fallback = c.options.fallback)
    (h : c.schema.resolveIn options owner (scope.map CastScope.source) p = .ok column) :
    ∃ p', c.Spells scope p p' column := by
  obtain ⟨relative, hrelative, hcolumn⟩ := bind_eq_ok_iff.mp h
  obtain ⟨q, hq⟩ := Schema.exists_path_of_resolve named howner hcolumn
  rw [same] at hcolumn
  exact ⟨_, .intro on hrelative hcolumn hq rfl⟩

/-- The cast of a column without an entry. -/
theorem passThrough_eq (h : c.Spells scope p p' column) : c.passThrough scope p = .ok p' := by
  obtain @⟨owner, relative, q, on, within, found, names, rfl⟩ := h
  have hrespelt : c.respelt (c.owner scope) relative = .ok q := by
    rw [on, respelt, lookUp, found]
    exact (ColumnPath.ofSegments_eq_ok_iff _ q).mpr names
  -- at the root the whole column is written anew, in a collection what is below its source
  cases scope with
  | none =>
    cases within
    exact hrespelt
  | some x =>
    change p.relativeTo x.source = .ok relative at within
    rw [passThrough, within, ok_bind, hrespelt]
    rfl

/-- The place where a column goes is looked up under the names that are written there. -/
theorem elementType_eq (h : c.Spells scope p p' column) :
    c.elementType scope p' = .ok column.element? := by
  obtain @⟨owner, relative, q, on, within, found, names, rfl⟩ := h
  have hagain := Schema.resolve_memberNames found names c.options.fallback
  rw [elementType, on]
  -- in a collection its target is taken off again, which leaves the names
  cases scope with
  | none =>
    show (c.schema.resolve c.options.fallback owner q >>= _) = _
    rw [hagain]
    rfl
  | some x =>
    show ((x.target ++ q).relativeTo x.target >>= _) = _
    rw [ColumnPath.relativeTo_append]
    show (c.schema.resolve c.options.fallback owner q >>= _) = _
    rw [hagain]
    rfl

theorem isBelow (h : c.Spells scope p p' column) : ∀ x ∈ scope, p'.isBelow x.target = true := by
  obtain ⟨-, -, -, -, rfl⟩ := h
  intro x hx
  cases hx
  exact ColumnPath.isBelow_append x.target _

/-- A column names one chain of members only. -/
theorem eq_of_resolveIn (h : c.Spells scope p p' column) (on : c.owner scope = some owner)
    (same : options.fallback = c.options.fallback) {found : ResolvedColumn}
    (hfound : c.schema.resolveIn options owner (scope.map CastScope.source) p = .ok found) :
    found = column := by
  obtain ⟨on', within, hcolumn, -, -⟩ := h
  -- both look the same relative path up, on the same owner
  cases on'.symm.trans on
  rw [Schema.resolveIn, within, ok_bind, same, hcolumn] at hfound
  exact (Except.ok.inj hfound).symm

/-- **Columns.** What is written names the same members, with alternate names tried or not. -/
theorem follows_resolveIn (h : c.Spells scope p p' column) (on : c.owner scope = some owner)
    (same : options.fallback = c.options.fallback) (options' : Options) :
    Follows ResolvedColumn.SameHops
      (c.schema.resolveIn options owner (scope.map CastScope.source) p)
      (c.schema.resolveIn options' owner (scope.map CastScope.target) p') := by
  intro found hfound
  -- the column that was spelt out is the one that is found
  obtain rfl := h.eq_of_resolveIn on same hfound
  obtain @⟨owner', relative, q, on', within, hcolumn, names, rfl⟩ := h
  cases on'.symm.trans on
  refine ⟨⟨q, found.leading, found.terminal⟩, ?_, rfl, rfl⟩
  rw [Schema.resolveIn, ColumnPath.within_under, ok_bind]
  exact Schema.resolve_memberNames hcolumn names options'.fallback

end Spells

/-! ### Filters at the destination -/

mutual

/-- A filter and what it becomes: the same filter with its columns written anew. -/
inductive Respells (c : Caster) : Option CastScope → Filter → Filter → Prop
  | leaf {scope : Option CastScope} {p p' : ColumnPath} {column : ResolvedColumn}
    (spells : c.Spells scope p p' column) (o : Operator) (raw : RawText) :
    Respells c scope (.leaf p o raw) (.leaf p' o raw)
  | group {scope : Option CastScope} {fs gs : List Filter} (k : Connective) (some_left : gs ≠ [])
    (children : RespellsAll c scope fs gs) : Respells c scope (.group k fs) (.group k gs)
  | quantified {scope : Option CastScope} {p p' : ColumnPath} {column : ResolvedColumn}
    {element : TypeExpr} {fs gs : List Filter} (q : Quantifier)
    (spells : c.Spells scope p p' column) (holds : column.element? = some element)
    (some_left : gs ≠ []) (children : RespellsAll c (some ⟨p, p', some element⟩) fs gs) :
    Respells c scope (.quantified q p fs) (.quantified q p' gs)

/-- Lists of filters that become others one by one. -/
inductive RespellsAll (c : Caster) : Option CastScope → List Filter → List Filter → Prop
  | nil {scope : Option CastScope} : RespellsAll c scope [] []
  | cons {scope : Option CastScope} {f g : Filter} {fs gs : List Filter}
    (first : Respells c scope f g) (rest : RespellsAll c scope fs gs) :
    RespellsAll c scope (f :: fs) (g :: gs)

end

section Existence

variable {α : Type} {c : Caster} {root : TypeExpr} {b : Backend α} {options : Options}

theorem RespellsAll.ne_nil {scope : Option CastScope} {fs gs : List Filter}
    (h : c.RespellsAll scope fs gs) (hne : fs ≠ []) : gs ≠ [] := by
  cases h with
  | nil => exact absurd rfl hne
  | cons first rest => exact List.cons_ne_nil _ _

mutual

/-- A filter that is compiled becomes some filter. -/
theorem exists_respells (named : c.schema.NamesSegments root)
    (same : options.fallback = c.options.fallback) :
    ∀ (f : Filter) {scope : Option CastScope} {owner : TypeExpr} {x : α},
      c.owner scope = some owner → c.schema.Reaches root owner → f.NoneEmpty →
      b.compileNode c.schema options owner (scope.map CastScope.source) f = .ok x →
      ∃ g, c.Respells scope f g
  | .leaf p o raw, scope, owner, x, on, howner, _, h => by
    obtain ⟨condition, hcondition, -⟩ := bind_eq_ok_iff.mp h
    obtain ⟨hcolumn, -⟩ := Schema.condition_eq_ok_iff.mp hcondition
    -- of the condition only its column counts; its text and its operator stay
    obtain ⟨p', hspells⟩ := Spells.exists_of_resolveIn named on howner same hcolumn
    exact ⟨_, .leaf hspells o raw⟩
  | .group k fs, scope, owner, x, on, howner, hfull, h => by
    obtain ⟨hne, hfs⟩ := Filter.noneEmpty_group.mp hfull
    obtain ⟨xs, hxs, -⟩ := map_eq_ok_iff.mp h
    obtain ⟨gs, hgs⟩ := exists_respellsAll named same fs on howner hfs hxs
    exact ⟨_, .group k (hgs.ne_nil hne) hgs⟩
  | .quantified q p fs, scope, owner, x, on, howner, hfull, h => by
    obtain ⟨hne, hfs⟩ := Filter.noneEmpty_quantified.mp hfull
    obtain ⟨⟨column, element⟩, hcollection, h⟩ := bind_eq_ok_iff.mp h
    obtain ⟨xs, hxs, -⟩ := bind_eq_ok_iff.mp h
    obtain ⟨hcolumn, helement⟩ := collection_eq_ok_iff.mp hcollection
    obtain ⟨p', hspells⟩ := Spells.exists_of_resolveIn named on howner same hcolumn
    -- the conditions are about the elements, to which columns lead as well
    have hreaches := (Schema.reaches_of_resolveIn howner hcolumn).element helement
    have hon : c.owner (some ⟨p, p', some element⟩) = some element := rfl
    obtain ⟨gs, hgs⟩ := exists_respellsAll named same fs hon hreaches hfs hxs
    exact ⟨_, .quantified q hspells helement (hgs.ne_nil hne) hgs⟩

theorem exists_respellsAll (named : c.schema.NamesSegments root)
    (same : options.fallback = c.options.fallback) :
    ∀ (fs : List Filter) {scope : Option CastScope} {owner : TypeExpr} {xs : List α},
      c.owner scope = some owner → c.schema.Reaches root owner → (∀ f ∈ fs, f.NoneEmpty) →
      b.compileAll c.schema options owner (scope.map CastScope.source) fs = .ok xs →
      ∃ gs, c.RespellsAll scope fs gs
  | [], _, _, _, _, _, _, _ => ⟨[], .nil⟩
  | f :: fs, scope, owner, xs, on, howner, hfull, h => by
    obtain ⟨hf, hfs⟩ := List.forall_mem_cons.mp hfull
    obtain ⟨y, hy, h⟩ := bind_eq_ok_iff.mp h
    obtain ⟨ys, hys, -⟩ := bind_eq_ok_iff.mp h
    -- a list is compiled with one scope, so its filters are respelt in one scope
    obtain ⟨g, hg⟩ := exists_respells named same f on howner hf hy
    obtain ⟨gs, hgs⟩ := exists_respellsAll named same fs on howner hfs hys
    exact ⟨g :: gs, .cons hg hgs⟩

end

/-- What a list of filters is compiled from is compiled one by one. -/
theorem exists_respellsAll_of_compile (named : c.schema.NamesSegments root)
    (same : options.fallback = c.options.fallback) (on : c.owner none = some root)
    {fs : List Filter} (hfull : ∀ f ∈ fs, f.NoneEmpty) {x : α}
    (h : b.compile c.schema options root fs = .ok x) : ∃ gs, c.RespellsAll none fs gs := by
  -- a single filter is compiled alone, several as one conjunction
  match fs, hfull, h with
  | [], _, _ => exact ⟨[], .nil⟩
  | [f], hfull, h =>
    obtain ⟨g, hg⟩ :=
      exists_respells named same f on .root (hfull f (List.mem_singleton_self f)) h
    exact ⟨[g], .cons hg .nil⟩
  | f₁ :: f₂ :: fs, hfull, h =>
    obtain ⟨xs, hxs, -⟩ := map_eq_ok_iff.mp h
    exact exists_respellsAll named same (f₁ :: f₂ :: fs) on .root hfull hxs

end Existence

section Reading

variable {α β : Type} {c : Caster} {S : α → β → Prop} {b : Backend α} {b' : Backend β}
  {options : Options}

mutual

/-- **The meaning.** What is compiled from a filter is compiled from what it becomes, too. -/
theorem Respells.follows_compileNode (h : Backend.Follows c.schema S b b')
    (same : options.fallback = c.options.fallback) (options' : Options) :
    ∀ {f g : Filter} {scope : Option CastScope} {owner : TypeExpr}, c.Respells scope f g →
      c.owner scope = some owner →
      Follows S (b.compileNode c.schema options owner (scope.map CastScope.source) f)
        (b'.compileNode c.schema options' owner (scope.map CastScope.target) g)
  | _, _, scope, owner, .leaf spells o raw, on => by
    have hcolumn := spells.follows_resolveIn on same options'
    exact (Schema.follows_condition_of_column hcolumn o raw).bind fun _ _ _ hread =>
      h.condition hread
  | _, _, scope, owner, .group k _ children, on => by
    refine (RespellsAll.follows_compileAll h same options' children on).map fun xs ys hxs => ?_
    cases k with
    | and => exact h.conjunction hxs
    | or => exact h.disjunction hxs
  | _, _, scope, owner, .quantified q spells holds _ children, on => by
    have hcolumn := spells.follows_resolveIn on same options'
    refine (Schema.follows_collection_of_column hcolumn q).bind ?_
    rintro ⟨found, element⟩ ⟨found', _⟩ hfound ⟨hhops, rfl⟩
    obtain ⟨hresolved, hholds⟩ := collection_eq_ok_iff.mp hfound
    -- the column is the one that is written, so the conditions are about its elements
    obtain rfl := spells.eq_of_resolveIn on same hresolved
    cases holds.symm.trans hholds
    refine (RespellsAll.follows_compileAll h same options' children rfl).bind fun xs ys _ hxs => ?_
    exact h.quantified q hhops (h.conjunction hxs)

theorem RespellsAll.follows_compileAll (h : Backend.Follows c.schema S b b')
    (same : options.fallback = c.options.fallback) (options' : Options) :
    ∀ {fs gs : List Filter} {scope : Option CastScope} {owner : TypeExpr},
      c.RespellsAll scope fs gs → c.owner scope = some owner →
      Follows (List.Forall₂ S)
        (b.compileAll c.schema options owner (scope.map CastScope.source) fs)
        (b'.compileAll c.schema options' owner (scope.map CastScope.target) gs)
  | _, _, _, _, .nil, _ => .ok .nil
  | _, _, _, _, .cons first rest, on => by
    refine (Respells.follows_compileNode h same options' first on).bind fun x y _ hxy => ?_
    refine (RespellsAll.follows_compileAll h same options' rest on).bind fun xs ys _ hxs => ?_
    exact .ok (.cons hxy hxs)

end

theorem RespellsAll.follows_compile (h : Backend.Follows c.schema S b b')
    (same : options.fallback = c.options.fallback) (options' : Options) {fs gs : List Filter}
    {owner : TypeExpr} (respells : c.RespellsAll none fs gs) (on : c.owner none = some owner) :
    Follows S (b.compile c.schema options owner fs) (b'.compile c.schema options' owner gs) := by
  have hall := RespellsAll.follows_compileAll h same options' respells on
  cases respells with
  | nil => exact .ok (h.conjunction .nil)
  | cons first rest =>
    cases rest with
    | nil => exact first.follows_compileNode h same options' on
    | cons second rest => exact hall.map fun _ _ hxs => h.conjunction hxs

end Reading

section Cast

variable {s : Schema} {destination : Option TypeExpr} {fallback : Bool}

mutual

/-- What a filter becomes stays in its collection. -/
theorem Respells.isBelow {c : Caster} : ∀ {f g : Filter} {scope : Option CastScope},
    c.Respells scope f g → ∀ x ∈ scope, ∀ p ∈ g.columns, p.isBelow x.target = true
  | _, _, _, .leaf spells _ _, x, hx, p, hp => by
    rw [List.mem_singleton.mp hp]
    exact spells.isBelow x hx
  | _, _, _, .group _ _ children, x, hx, p, hp => children.isBelow x hx p hp
  | _, _, _, .quantified _ spells _ _ children, x, hx, p, hp => by
    obtain rfl | hp := List.mem_cons.mp hp
    · exact spells.isBelow x hx
    · -- the conditions are below the quantifier, which is below the collection
      exact ColumnPath.isBelow_trans (children.isBelow _ rfl p hp) (spells.isBelow x hx)

theorem RespellsAll.isBelow {c : Caster} : ∀ {fs gs : List Filter} {scope : Option CastScope},
    c.RespellsAll scope fs gs →
    ∀ x ∈ scope, ∀ p ∈ Filter.columnsAll gs, p.isBelow x.target = true
  | _, _, _, .nil, _, _, _, hp => nomatch hp
  | _, _, _, .cons first rest, x, hx, p, hp => by
    obtain hp | hp := List.mem_append.mp hp
    · exact first.isBelow x hx p hp
    · exact rest.isBelow x hx p hp

end

mutual

/-- **The cast.** A cast without entries gives what a filter becomes. -/
theorem Respells.cast_eq : ∀ {f g : Filter} {scope : Option CastScope},
    (bare s destination fallback).Respells scope f g →
    (bare s destination fallback).cast scope f = .ok [g]
  | _, _, _, .leaf spells o raw => by
    rw [cast, castLeaf_bare, spells.passThrough_eq]
    rfl
  | _, _, _, .group k some_left children => by
    rw [cast, children.castAll_eq, ok_bind, List.isEmpty_eq_false_iff.mpr some_left]
    rfl
  | _, _, _, .quantified q spells holds some_left children => by
    -- the conditions are already below the new column, so they are not put there again
    have hqualified := Filter.ofQualified_of_isBelow q (children.isBelow _ rfl)
    rw [cast, castColumn_bare, spells.passThrough_eq, ok_bind, spells.elementType_eq, ok_bind,
      holds]
    simp only [ok_bind]
    rw [children.castAll_eq, ok_bind, List.isEmpty_eq_false_iff.mpr some_left]
    simp only [Bool.false_eq_true, if_false]
    rw [hqualified]
    rfl

theorem RespellsAll.castAll_eq : ∀ {fs gs : List Filter} {scope : Option CastScope},
    (bare s destination fallback).RespellsAll scope fs gs →
    (bare s destination fallback).castAll scope fs = .ok gs
  | _, _, _, .nil => rfl
  | _, _, _, .cons first rest => by
    rw [castAll, first.cast_eq, ok_bind, rest.castAll_eq]
    rfl

end

theorem owner_settled (scope : Option CastScope) (fallback' : Bool) :
    (bare s destination fallback').owner (scope.map CastScope.settled) =
      (bare s destination fallback).owner scope := by
  cases scope <;> rfl

/-- What is written for a column is written for itself. -/
theorem Spells.again {scope : Option CastScope} {p p' : ColumnPath} {column : ResolvedColumn}
    (h : (bare s destination fallback).Spells scope p p' column) (fallback' : Bool) :
    ∃ column', (bare s destination fallback').Spells (scope.map CastScope.settled) p' p' column' ∧
      column.SameHops column' := by
  obtain @⟨owner, relative, q, on, within, found, names, rfl⟩ := h
  -- both paths that go with the settled collection are the one where it has been put
  have hsource : (scope.map CastScope.settled).map CastScope.source =
      scope.map CastScope.target := by cases scope <;> rfl
  have htarget : (scope.map CastScope.settled).map CastScope.target =
      scope.map CastScope.target := by cases scope <;> rfl
  have hwithin : (q.under (scope.map CastScope.target)).within
      ((scope.map CastScope.settled).map CastScope.source) = .ok q := by
    rw [hsource]
    exact ColumnPath.within_under _ q
  have hon := (owner_settled scope fallback').trans on
  have hagain := Schema.resolve_memberNames found names fallback'
  refine ⟨⟨q, column.leading, column.terminal⟩, .intro hon hwithin hagain names ?_, rfl, rfl⟩
  rw [htarget]

mutual

/-- **The fixed point.** What a filter becomes is left as it is. -/
theorem Respells.again (fallback' : Bool) : ∀ {f g : Filter} {scope : Option CastScope},
    (bare s destination fallback).Respells scope f g →
    (bare s destination fallback').Respells (scope.map CastScope.settled) g g
  | _, _, _, .leaf spells o raw => by
    obtain ⟨column', hspells, -⟩ := spells.again fallback'
    exact .leaf hspells o raw
  | _, _, _, .group k some_left children => .group k some_left (children.again fallback')
  | _, _, _, .quantified q spells holds some_left children => by
    obtain ⟨column', hspells, hhops⟩ := spells.again fallback'
    -- the same members hold the same elements, so the conditions are settled below them
    rw [hhops.element?_eq] at holds
    exact .quantified q hspells holds some_left (children.again fallback')

theorem RespellsAll.again (fallback' : Bool) :
    ∀ {fs gs : List Filter} {scope : Option CastScope},
      (bare s destination fallback).RespellsAll scope fs gs →
      (bare s destination fallback').RespellsAll (scope.map CastScope.settled) gs gs
  | _, _, _, .nil => .nil
  | _, _, _, .cons first rest => .cons (first.again fallback') (rest.again fallback')

end

end Cast
end Caster

/-- **A cast without entries only canonicalises.** Without a destination type it gives back what is
read from a text. For a type whose members have identifiers as names, filters without empty groups
that are compiled for the type, with alternate names or without, are cast; the result is compiled
with any switches, so also without alternate names, to the tree of tokens that the filters have; and
casting the result again leaves it unchanged, with alternate names or without. In a legible schema
there is a tree, and elsewhere a value without a display spoils it before the cast as after. -/
theorem castFilters_canonical (s : Schema) :
    (∀ text fs, Filter.parseAll text = .ok fs → castFilters ⟨s, none, .empty⟩ fs = .ok fs) ∧
    ∀ (type : TypeExpr) (options : Options) (r : Registry Strategy) (fs : List Filter),
      s.NamesSegments type → (∀ f ∈ fs, f.NoneEmpty) →
      Succeeds (compileFilter s options r type fs) →
      ∃ gs,
        castFilters ⟨s, some type, { CastOptions.empty with fallback := options.fallback }⟩ fs =
          .ok gs ∧
        (∀ options' : Options, Succeeds (compileFilter s options' r type gs) ∧
          Token.ofFilters s options' type gs = Token.ofFilters s options type fs) ∧
        (s.Legible → Succeeds (Token.ofFilters s options type fs)) ∧
        ∀ fallback,
          castFilters ⟨s, some type, { CastOptions.empty with fallback := fallback }⟩ gs =
            .ok gs := by
  refine ⟨fun text fs hfs => ?_, fun type options r fs named full compiled => ?_⟩
  · obtain ⟨us, hderives, rfl⟩ := (Filter.parseAll_eq_ok_iff text fs).mp hfs
    cases hderives with
    | blank => rfl
    | parts _ children =>
      have hsame : (Caster.bare s none false).castAll none (Surface.trees us) =
          .ok (Surface.trees us) := Caster.castAll_underAll us none children
      exact hsame
  · let c := Caster.bare s (some type) options.fallback
    obtain ⟨p, hp⟩ := compiled
    have same : options.fallback = c.options.fallback := rfl
    obtain ⟨gs, hgs⟩ := Caster.exists_respellsAll_of_compile named same rfl full hp
    -- making a tree has an outcome where there is a predicate
    have hnames : s.NamesFollow type Eq options.fallback options.fallback := s.namesFollow_eq type id
    have hself : Filter.RespeltAll Eq fs fs := Filter.RespeltAll.refl (fun _ => rfl) fs
    obtain ⟨x, hx, -⟩ := Backend.follows_compile hnames
      (Predicate.outcomes_follow s r options.nullGuard) hself p hp
    refine ⟨gs, hgs.castAll_eq, fun options' => ⟨?_, ?_⟩, fun legible => ?_, fun fallback => ?_⟩
    · have hcompiles := Predicate.backend_compiles s r options.nullGuard options'.nullGuard
      exact (hgs.follows_compile hcompiles rfl options' rfl).succeeds ⟨p, hp⟩
    · obtain ⟨x', hx', rfl⟩ :=
        hgs.follows_compile (Token.outcomes_follow s) rfl options' rfl x hx
      exact (Token.ofFilters_eq_outcome hx').trans (Token.ofFilters_eq_outcome hx).symm
    · exact Token.succeeds_ofFilters legible hnames (fun _ => rfl) ⟨p, hp⟩
    · exact (hgs.again fallback).castAll_eq

namespace Companies

/-- A schema of companies with teams of people, whose members have alternate names. -/
def schema : Schema :=
  ⟨[], [⟨"Company", [], .model [⟨"teams", .applied .list [.named "Team"], [], false, none⟩], []⟩,
    ⟨"Team", [], .model
      [⟨"members", .applied .list [.named "Person"], ["people"], false, none⟩], []⟩,
    ⟨"Person", [], .model [⟨"mail", .scalar .text, ["address"], false, none⟩], []⟩], .absent⟩

theorem members_company : schema.members? (.named "Company") =
    .ok (some [⟨"teams", .applied .list [.named "Team"], false, [], false⟩]) := rfl

theorem members_team : schema.members? (.named "Team") =
    .ok (some [⟨"members", .applied .list [.named "Person"], false, ["people"], false⟩]) := rfl

theorem members_person : schema.members? (.named "Person") =
    .ok (some [⟨"mail", .scalar .text, false, ["address"], false⟩]) := rfl

/-- Columns of companies lead to teams, to people and to texts. -/
theorem reaches_cases {t : TypeExpr} (h : schema.Reaches (.named "Company") t) :
    t = .named "Company" ∨ t = .applied .list [.named "Team"] ∨ t = .named "Team" ∨
      t = .applied .list [.named "Person"] ∨ t = .named "Person" ∨ t = .scalar .text := by
  induction h with
  | root => exact .inl rfl
  | member _ known hm ih =>
    -- three of the six types are models with one member each; the others have none
    obtain rfl | rfl | rfl | rfl | rfl | rfl := ih
    · cases members_company.symm.trans known
      obtain rfl := List.mem_singleton.mp hm
      exact .inr (.inl rfl)
    · cases known
    · cases members_team.symm.trans known
      obtain rfl := List.mem_singleton.mp hm
      exact .inr (.inr (.inr (.inl rfl)))
    · cases known
    · cases members_person.symm.trans known
      obtain rfl := List.mem_singleton.mp hm
      exact .inr (.inr (.inr (.inr (.inr rfl))))
    · cases known
  | element _ he ih =>
    -- only the two lists have elements
    obtain rfl | rfl | rfl | rfl | rfl | rfl := ih
    · cases he
    · cases he
      exact .inr (.inr (.inl rfl))
    · cases he
    · cases he
      exact .inr (.inr (.inr (.inr (.inl rfl))))
    · cases he
    · cases he

theorem namesSegments : schema.NamesSegments (.named "Company") := by
  intro t ht
  refine Schema.namedAs_of_closed ht fun owner ms howner hms m hm =>
    ⟨?_, howner.member hms hm⟩
  revert m
  obtain rfl | rfl | rfl | rfl | rfl | rfl := reaches_cases howner
  · cases members_company.symm.trans hms
    exact List.forall_mem_singleton.mpr rfl
  · cases hms
  · cases members_team.symm.trans hms
    exact List.forall_mem_singleton.mpr rfl
  · cases hms
  · cases members_person.symm.trans hms
    exact List.forall_mem_singleton.mpr rfl
  · cases hms

/-- Some team has members of one kind of address only, by the columns of its teams, of their members
and of the addresses. -/
def addressed (teams members mail : ColumnPath) : Filter :=
  .quantified .any teams [.quantified .all members [.leaf mail .sw (.plain "a")]]

theorem noneEmpty (teams members mail : ColumnPath) : (addressed teams members mail).NoneEmpty := by
  refine ⟨fun k cs h => ?_, fun q c cs h => ?_⟩
  · simp [addressed, Filter.nodes, Filter.nodesAll] at h
  · simp [addressed, Filter.nodes, Filter.nodesAll] at h
    obtain ⟨-, -, rfl⟩ | ⟨-, -, rfl⟩ := h
    · exact List.cons_ne_nil _ _
    · exact List.cons_ne_nil _ _

end Companies

open Companies in
/-- A text is cast to itself without a destination. Columns with alternate names, and in different
cases for one collection, are written with the members' own names at the destination. -/
theorem castFilters_canonical_of_company :
    let h := addressed ⟨["teams"], by decide, by decide⟩ ⟨["teams", "people"], by decide, by decide⟩
      ⟨["teams", "people", "address"], by decide, by decide⟩
    let f := addressed ⟨["Teams"], by decide, by decide⟩ ⟨["teams", "people"], by decide, by decide⟩
      ⟨["TEAMS", "People", "address"], by decide, by decide⟩
    let g := addressed ⟨["teams"], by decide, by decide⟩
      ⟨["teams", "members"], by decide, by decide⟩
      ⟨["teams", "members", "mail"], by decide, by decide⟩
    let c (fallback : Bool) : Caster :=
      ⟨schema, some (.named "Company"), { CastOptions.empty with fallback := fallback }⟩
    Filter.parseAll "teams:any(people:all(address:sw(a)))" = .ok [h] ∧
      castFilters ⟨schema, none, .empty⟩ [h] = .ok [h] ∧
      schema.NamesSegments (.named "Company") ∧ f.NoneEmpty ∧
      Succeeds (compileFilter schema ⟨false, true⟩ Predicate.usualRegistry (.named "Company") [f]) ∧
      castFilters (c true) [f] = .ok [g] ∧
      (∃ t, Token.ofFilters schema ⟨false, true⟩ (.named "Company") [f] = .ok t ∧
        Token.ofFilters schema .usual (.named "Company") [g] = .ok t) ∧
      castFilters (c true) [g] = .ok [g] ∧ castFilters (c false) [g] = .ok [g] := by
  intro h f g c
  have hparse : Filter.parseAll "teams:any(people:all(address:sw(a)))" = .ok [h] := by
    decide +kernel
  have hfull : ∀ f' ∈ [f], f'.NoneEmpty := List.forall_mem_singleton.mpr (noneEmpty _ _ _)
  have hcompiled : Succeeds
      (compileFilter schema ⟨false, true⟩ Predicate.usualRegistry (.named "Company") [f]) :=
    ⟨_, rfl⟩
  have hcast : castFilters (c true) [f] = .ok [g] := rfl
  obtain ⟨hkept, hcanonical⟩ := castFilters_canonical schema
  obtain ⟨gs, hgs, htokens, hexists, hagain⟩ := hcanonical (.named "Company") ⟨false, true⟩
    Predicate.usualRegistry [f] namesSegments hfull hcompiled
  obtain rfl := Except.ok.inj (hcast.symm.trans hgs)
  -- all values of this schema have a display, so that there is a tree
  obtain ⟨t, ht⟩ := hexists (Schema.legible_of_absent rfl rfl)
  exact ⟨hparse, hkept _ [h] hparse, namesSegments, noneEmpty _ _ _, hcompiled, hcast,
    ⟨t, ht, (htokens .usual).2.trans ht⟩, hagain true, hagain false⟩

end RecordQuery
