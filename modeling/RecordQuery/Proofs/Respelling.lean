import RecordQuery.Proofs.Fingerprint
import RecordQuery.Proofs.Refusal

/-!
# Two readings of a filter

A filter can be read twice, with its columns spelt in another way or with other switches. Both
readings walk over trees of one shape, so it is enough to look at what they do at a node: where the
names of the second reading find the members that those of the first one find, the second walk has
a result if the first has one, and the results are related if the two backends keep them related.

* `Filter.Respelt` — two filters that differ in the segments of their columns only.
* `Schema.NamesFollow` — the second reading of a segment finds what the first one finds. This is
  needed of the types that columns lead to, and gives `follows_resolveIn` for whole columns.
* `Schema.follows_condition` — the same for the conditions that leaves state.
* `Backend.Follows` — what is needed of the backends, node by node; `Backend.follows_compile` is
  what follows for lists of filters.
-/

namespace RecordQuery

open Text

/-! ### Respelt filters -/

/-- Two paths with equally many segments, which are related one by one. -/
def ColumnPath.Respelt (R : String → String → Prop) (p q : ColumnPath) : Prop :=
  List.Forall₂ R p.segments q.segments

namespace Filter

mutual

/-- Two filters that differ in the segments of their columns only, which are related. -/
inductive Respelt (R : String → String → Prop) : Filter → Filter → Prop
  | leaf {p p' : ColumnPath} (path : p.Respelt R p') (o : Operator) (raw : RawText) :
    Respelt R (.leaf p o raw) (.leaf p' o raw)
  | group (k : Connective) {fs gs : List Filter} (children : RespeltAll R fs gs) :
    Respelt R (.group k fs) (.group k gs)
  | quantified (q : Quantifier) {p p' : ColumnPath} {fs gs : List Filter} (path : p.Respelt R p')
    (children : RespeltAll R fs gs) : Respelt R (.quantified q p fs) (.quantified q p' gs)

/-- Lists of filters that are respelt one by one. -/
inductive RespeltAll (R : String → String → Prop) : List Filter → List Filter → Prop
  | nil : RespeltAll R [] []
  | cons {f g : Filter} {fs gs : List Filter} (first : Respelt R f g) (rest : RespeltAll R fs gs) :
    RespeltAll R (f :: fs) (g :: gs)

end

section
variable {R R' : String → String → Prop}

mutual

theorem Respelt.refl (h : ∀ a, R a a) : ∀ f : Filter, Respelt R f f
  | .leaf _ o raw => .leaf (List.forall₂_same.mpr fun a _ => h a) o raw
  | .group k fs => .group k (RespeltAll.refl h fs)
  | .quantified q _ fs =>
    .quantified q (List.forall₂_same.mpr fun a _ => h a) (RespeltAll.refl h fs)

theorem RespeltAll.refl (h : ∀ a, R a a) : ∀ fs : List Filter, RespeltAll R fs fs
  | [] => .nil
  | f :: fs => .cons (Respelt.refl h f) (RespeltAll.refl h fs)

end

mutual

/-- Filters that are respelt in one way are respelt in another, if this is so for their paths. -/
theorem Respelt.imp (h : ∀ p q : ColumnPath, p.Respelt R q → p.Respelt R' q) :
    ∀ {f g : Filter}, Respelt R f g → Respelt R' f g
  | _, _, .leaf path o raw => .leaf (h _ _ path) o raw
  | _, _, .group k children => .group k (RespeltAll.imp h children)
  | _, _, .quantified q path children => .quantified q (h _ _ path) (RespeltAll.imp h children)

theorem RespeltAll.imp (h : ∀ p q : ColumnPath, p.Respelt R q → p.Respelt R' q) :
    ∀ {fs gs : List Filter}, RespeltAll R fs gs → RespeltAll R' fs gs
  | _, _, .nil => .nil
  | _, _, .cons first rest => .cons (Respelt.imp h first) (RespeltAll.imp h rest)

end

mutual

theorem Respelt.symm (h : ∀ a b, R a b → R b a) : ∀ {f g : Filter}, Respelt R f g → Respelt R g f
  | _, _, .leaf path o raw => .leaf (path.imp h).flip o raw
  | _, _, .group k children => .group k (RespeltAll.symm h children)
  | _, _, .quantified q path children => .quantified q (path.imp h).flip (RespeltAll.symm h children)

theorem RespeltAll.symm (h : ∀ a b, R a b → R b a) :
    ∀ {fs gs : List Filter}, RespeltAll R fs gs → RespeltAll R gs fs
  | _, _, .nil => .nil
  | _, _, .cons first rest => .cons (Respelt.symm h first) (RespeltAll.symm h rest)

end

theorem RespeltAll.conjoined : ∀ {fs gs : List Filter}, RespeltAll R fs gs →
    Respelt R (Backend.conjoined fs) (Backend.conjoined gs)
  | _, _, .nil => .group .and .nil
  | _, _, .cons first .nil => first
  | _, _, .cons first (.cons second rest) => .group .and (.cons first (.cons second rest))

end

end Filter

/-! ### Columns -/

/-- Two columns that pass through the same members and end in the same one. The paths that they come
from may differ. -/
def ResolvedColumn.SameHops (c c' : ResolvedColumn) : Prop :=
  c.leading = c'.leading ∧ c.terminal = c'.terminal

namespace ResolvedColumn.SameHops

variable {c c' : ResolvedColumn}

theorem type_eq (h : c.SameHops c') : c.type = c'.type := congrArg Hop.type h.2

theorem element?_eq (h : c.SameHops c') : c.element? = c'.element? :=
  congrArg TypeExpr.element? h.type_eq

theorem isCollection_eq (h : c.SameHops c') : c.isCollection = c'.isCollection :=
  congrArg Option.isSome h.element?_eq

theorem hops_eq (h : c.SameHops c') : c.hops = c'.hops := by
  rw [ResolvedColumn.hops, h.1, h.2, ← ResolvedColumn.hops]

theorem memberNames_eq (h : c.SameHops c') : c.memberNames = c'.memberNames :=
  congrArg (List.map Hop.name) h.hops_eq

end ResolvedColumn.SameHops

namespace Schema

variable {s : Schema} {root owner : TypeExpr} {R : String → String → Prop}

/-- Related segments name one member: in each type that columns lead to, the second segment finds
the member that the first one finds, with alternate names tried or not. -/
structure NamesFollow (s : Schema) (root : TypeExpr) (R : String → String → Prop)
    (fallback fallback' : Bool) : Prop where
  fold {a b : String} (h : R a b) : foldKey a = foldKey b
  found {owner : TypeExpr} {ms : List Member} {a b : String} {m : Member}
    (reached : s.Reaches root owner) (members : s.members? owner = .ok (some ms)) (h : R a b)
    (one : candidates ms a fallback = [m]) : candidates ms b fallback' = [m]

section
variable {fallback fallback' : Bool}

/-- Related segments lead to the same hops. -/
theorem Walk.follows (h : s.NamesFollow root R fallback fallback') {segments : List String}
    {hops : List Hop} (walk : s.Walk fallback owner segments hops)
    (howner : s.Reaches root owner) {segments' : List String}
    (hsegments : List.Forall₂ R segments segments') :
    s.Walk fallback' owner segments' hops := by
  induction walk generalizing segments' with
  | last members one =>
    obtain ⟨segment', rest', hfirst, hrest, rfl⟩ := List.forall₂_cons_left_iff.mp hsegments
    obtain rfl := List.forall₂_nil_left_iff.mp hrest
    exact .last members (h.found howner members hfirst one)
  | step members one single _ ih =>
    obtain ⟨segment', rest', hfirst, hrest, rfl⟩ := List.forall₂_cons_left_iff.mp hsegments
    -- the next segments are read on the type of this member
    have hmem := mem_of_mem_candidates (one ▸ List.mem_singleton_self _)
    exact .step members (h.found howner members hfirst one) single
      (ih (howner.member members hmem) hrest)

/-- **Columns.** A respelt path leads through the same members. -/
theorem follows_resolve (h : s.NamesFollow root R fallback fallback')
    (howner : s.Reaches root owner) {p p' : ColumnPath} (hpath : p.Respelt R p') :
    Follows ResolvedColumn.SameHops (s.resolve fallback owner p)
      (s.resolve fallback' owner p') := by
  intro column hcolumn
  have hwalk := (resolve_eq_ok_iff.mp hcolumn).2.follows h howner hpath
  exact ⟨⟨p', column.leading, column.terminal⟩, resolve_eq_ok_iff.mpr ⟨rfl, hwalk⟩, rfl, rfl⟩

end

end Schema

namespace ColumnPath

variable {R : String → String → Prop}

theorem beginsWith_eq (fold : ∀ a b, R a b → foldKey a = foldKey b) {ss ss' : List String}
    (h : List.Forall₂ R ss ss') : ∀ {ts ts' : List String}, List.Forall₂ R ts ts' →
      beginsWith ss ts = beginsWith ss' ts' := by
  induction h with
  | nil => exact fun _ => rfl
  | cons hfirst _ ih =>
    rintro _ _ (_ | ⟨hfirst', hrest'⟩)
    · rfl
    · rw [beginsWith, beginsWith, fold _ _ hfirst, fold _ _ hfirst', ih hrest']

theorem Respelt.length_eq {p p' : ColumnPath} (h : p.Respelt R p') : p.length = p'.length :=
  List.Forall₂.length_eq h

/-- A path is below another one if this is so after both are respelt. -/
theorem isBelow_eq (fold : ∀ a b, R a b → foldKey a = foldKey b) {p p' c c' : ColumnPath}
    (hp : p.Respelt R p') (hc : c.Respelt R c') : p.isBelow c = p'.isBelow c' := by
  rw [isBelow, isBelow, hp.length_eq, hc.length_eq, beginsWith_eq fold hc hp]

/-- The part of a path below its scope is respelt like the path. -/
theorem follows_within (fold : ∀ a b, R a b → foldKey a = foldKey b)
    {scope scope' : Option ColumnPath} (hscope : Option.Rel (ColumnPath.Respelt R) scope scope')
    {p p' : ColumnPath} (hp : p.Respelt R p') :
    Follows (ColumnPath.Respelt R) (p.within scope) (p'.within scope') := by
  cases hscope with
  | none => exact .ok hp
  | @some c c' hc =>
    rw [within, within, relativeTo, relativeTo]
    split
    · -- both columns lose as many segments, since their scopes are of one length
      next hbelow =>
      rw [dif_pos (isBelow_eq fold hp hc ▸ hbelow)]
      refine .ok ?_
      show List.Forall₂ R (p.segments.drop c.length) (p'.segments.drop c'.length)
      rw [hc.length_eq]
      exact List.forall₂_drop _ hp
    · exact .error _

end ColumnPath

/-! ### Conditions -/

/-- Two conditions of one operator and one value, whose columns pass through the same members. The
value was read for the type of the column. -/
structure Condition.Alike (s : Schema) (x y : Condition) : Prop where
  column : x.column.SameHops y.column
  operator : x.operator = y.operator
  value : x.value = y.value
  read : ∃ raw, s.coerce raw x.column.type x.operator = .ok x.value

namespace Schema

variable {s : Schema} {root owner : TypeExpr} {R : String → String → Prop}
  {options options' : Options} {scope scope' : Option ColumnPath} {p p' : ColumnPath}

theorem follows_resolveIn (h : s.NamesFollow root R options.fallback options'.fallback)
    (howner : s.Reaches root owner) (hscope : Option.Rel (ColumnPath.Respelt R) scope scope')
    (hpath : p.Respelt R p') :
    Follows ResolvedColumn.SameHops (s.resolveIn options owner scope p)
      (s.resolveIn options' owner scope' p') :=
  (ColumnPath.follows_within (fun _ _ => h.fold) hscope hpath).bind fun _ _ _ hrelative =>
    follows_resolve h howner hrelative

/-- A leaf states the same condition about another column, if this column passes through the same
members. -/
theorem follows_condition_of_column {owner' : TypeExpr}
    (h : Follows ResolvedColumn.SameHops (s.resolveIn options owner scope p)
      (s.resolveIn options' owner' scope' p')) (o : Operator) (raw : RawText) :
    Follows (Condition.Alike s) (s.condition options owner scope p o raw)
      (s.condition options' owner' scope' p' o raw) := by
  intro x hx
  obtain ⟨hcolumn, hoperator, hvalue, rfl⟩ := condition_eq_ok_iff.mp hx
  obtain ⟨column, hcolumn', hhops⟩ := h x.column hcolumn
  refine ⟨⟨column, x.operator, x.value⟩, condition_eq_ok_iff.mpr ⟨hcolumn', ?_, ?_, rfl⟩,
    ⟨hhops, rfl, rfl, raw, hvalue⟩⟩
  · -- operators are checked against the type of the last member
    rw [checkOperator_eq_ok_iff] at hoperator ⊢
    rw [← hhops.type_eq, ← hhops.isCollection_eq]
    exact hoperator
  · rw [← hhops.type_eq]
    exact hvalue

/-- **Leaves** of respelt columns state the same conditions. -/
theorem follows_condition (h : s.NamesFollow root R options.fallback options'.fallback)
    (howner : s.Reaches root owner) (hscope : Option.Rel (ColumnPath.Respelt R) scope scope')
    (hpath : p.Respelt R p') (o : Operator) (raw : RawText) :
    Follows (Condition.Alike s) (s.condition options owner scope p o raw)
      (s.condition options' owner scope' p' o raw) :=
  follows_condition_of_column (follows_resolveIn h howner hscope hpath) o raw

/-- A quantifier over a column that passes through the same members is about elements of the same
type. -/
theorem follows_collection_of_column {owner' : TypeExpr}
    (h : Follows ResolvedColumn.SameHops (s.resolveIn options owner scope p)
      (s.resolveIn options' owner' scope' p')) (q : Quantifier) :
    Follows (fun x y => x.1.SameHops y.1 ∧ x.2 = y.2)
      (Backend.collection s options owner scope q p)
      (Backend.collection s options' owner' scope' q p') := by
  rintro ⟨column, element⟩ hfound
  obtain ⟨hcolumn, helement⟩ := collection_eq_ok_iff.mp hfound
  obtain ⟨column', hcolumn', hhops⟩ := h column hcolumn
  refine ⟨(column', element), collection_eq_ok_iff.mpr ⟨hcolumn', ?_⟩, hhops, rfl⟩
  rw [← hhops.element?_eq]
  exact helement

end Schema

/-! ### Two walks over respelt filters -/

namespace Backend

variable {α β : Type} {s : Schema} {root : TypeExpr} {R : String → String → Prop}
  {options options' : Options} {b : Backend α} {c : Backend β} {S : α → β → Prop}

/-- What is made of a node by the second backend follows what the first one makes of it, if this is
so for its parts. -/
structure Follows (s : Schema) (S : α → β → Prop) (b : Backend α) (c : Backend β) : Prop where
  condition {x y : Condition} (h : x.Alike s y) :
    RecordQuery.Follows S (b.condition x) (c.condition y)
  conjunction {xs : List α} {ys : List β} (h : List.Forall₂ S xs ys) :
    S (b.conjunction xs) (c.conjunction ys)
  disjunction {xs : List α} {ys : List β} (h : List.Forall₂ S xs ys) :
    S (b.disjunction xs) (c.disjunction ys)
  quantified (q : Quantifier) {column column' : ResolvedColumn} (hops : column.SameHops column')
    {x : α} {y : β} (h : S x y) :
    RecordQuery.Follows S (b.quantified q column x) (c.quantified q column' y)

mutual

/-- **The step.** A walk over a filter follows the walk over a filter that is respelt. -/
theorem follows_compileNode (names : s.NamesFollow root R options.fallback options'.fallback)
    (h : Follows s S b c) :
    ∀ {f g : Filter} {owner : TypeExpr} {scope scope' : Option ColumnPath}, Filter.Respelt R f g →
      s.Reaches root owner → Option.Rel (ColumnPath.Respelt R) scope scope' →
      RecordQuery.Follows S (b.compileNode s options owner scope f)
        (c.compileNode s options' owner scope' g)
  | _, _, _, _, _, .leaf path o raw, howner, hscope =>
    (Schema.follows_condition names howner hscope path o raw).bind fun _ _ _ hread =>
      h.condition hread
  | _, _, _, _, _, .group k children, howner, hscope => by
    refine (follows_compileAll names h children howner hscope).map fun xs ys hxs => ?_
    cases k with
    | and => exact h.conjunction hxs
    | or => exact h.disjunction hxs
  | _, _, owner, scope, scope', @Filter.Respelt.quantified _ q p p' _ _ path children, howner,
      hscope => by
    -- both columns hold elements of one type, about which the conditions are
    have hcolumn := Schema.follows_resolveIn names howner hscope path
    refine (Schema.follows_collection_of_column hcolumn q).bind ?_
    rintro ⟨column, element⟩ ⟨column', _⟩ hfound ⟨hhops, rfl⟩
    obtain ⟨hresolved, hholds⟩ := collection_eq_ok_iff.mp hfound
    have helement := (Schema.reaches_of_resolveIn howner hresolved).element hholds
    refine (follows_compileAll names h children helement (.some path)).bind fun xs ys _ hxs => ?_
    exact h.quantified q hhops (h.conjunction hxs)

theorem follows_compileAll (names : s.NamesFollow root R options.fallback options'.fallback)
    (h : Follows s S b c) :
    ∀ {fs gs : List Filter} {owner : TypeExpr} {scope scope' : Option ColumnPath},
      Filter.RespeltAll R fs gs → s.Reaches root owner →
      Option.Rel (ColumnPath.Respelt R) scope scope' →
      RecordQuery.Follows (List.Forall₂ S) (b.compileAll s options owner scope fs)
        (c.compileAll s options' owner scope' gs)
  | _, _, _, _, _, .nil, _, _ => .ok .nil
  | _, _, _, _, _, .cons first rest, howner, hscope => by
    refine (follows_compileNode names h first howner hscope).bind fun x y _ hxy => ?_
    refine (follows_compileAll names h rest howner hscope).bind fun xs ys _ hxs => ?_
    -- the first filter that fails on one side is the first one on the other
    exact .ok (.cons hxy hxs)

end

/-- **The run.** What is made of a list of filters follows what is made of a list that is respelt. -/
theorem follows_compile (names : s.NamesFollow root R options.fallback options'.fallback)
    (h : Follows s S b c) {fs gs : List Filter} (hfs : Filter.RespeltAll R fs gs) :
    RecordQuery.Follows S (b.compile s options root fs) (c.compile s options' root gs) := by
  rw [compile_eq, compile_eq]
  exact follows_compileNode names h hfs.conjoined .root .none

end Backend
end RecordQuery
