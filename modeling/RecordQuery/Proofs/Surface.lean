import RecordQuery.Filter.Printer
import RecordQuery.Proofs.Outcome

/-!
# The surface form of filters

A filter is written with short columns: below a quantifier, a column is meant relative to the
quantified column, and only the tree that is made from the text has full paths. `Surface` is the
written form. It has the shape of the tree, but its columns are the short ones.

* `Surface.tree` is the tree that a surface form stands for, `Surface.under` the same below the
  column of a quantifier.
* `Filter.surface` reads the surface form off a tree, taking one enclosing column off each path. It
  fails on trees that have a column below a quantifier which does not continue the quantifier's
  column; such a tree has no surface form.
* `Filter.surface_compose` — a filter that is built from filters with surface forms has the surface
  form that is built from these.
* `Surface.chars` is the canonical text of a surface form; by `Filter.formatIn_eq` it is what the
  printer makes of a tree, below any column.

`Filter.compose` builds the tree of a quantified filter by qualifying the trees of its conditions,
so that a condition under `n` quantifiers is qualified `n` times. `qualify_under` is the reason why
this ends in the same tree as going down with the full path once.
-/

namespace RecordQuery

/-- A filter as it is written. The columns of the conditions of a quantified filter are relative to
its own column. -/
inductive Surface where
  | leaf (column : ColumnPath) (operator : Operator) (raw : RawText)
  | group (connective : Connective) (children : List Surface)
  | quantified (quantifier : Quantifier) (column : ColumnPath) (children : List Surface)

/-! ### Paths and scopes -/

namespace ColumnPath

@[ext] theorem ext {p q : ColumnPath} (h : p.segments = q.segments) : p = q := by
  cases p
  cases q
  cases h
  rfl

theorem append_assoc (p q r : ColumnPath) : p ++ q ++ r = p ++ (q ++ r) := by
  ext1
  simp only [segments_append, List.append_assoc]

/-- The full path of a column that is written below the column of a quantifier, or at the top. -/
def under (scope : Option ColumnPath) (p : ColumnPath) : ColumnPath :=
  match scope with
  | none => p
  | some c => c ++ p

/-- The full path of a scope, or of the top, that is itself moved below a column. -/
def below (c : ColumnPath) (scope : Option ColumnPath) : ColumnPath :=
  match scope with
  | none => c
  | some d => c ++ d

/-- A path put behind a column is the path below the column's scope. -/
theorem append_under (c : ColumnPath) (scope : Option ColumnPath) (p : ColumnPath) :
    c ++ p.under scope = p.under (some (c.below scope)) := by
  cases scope with
  | none => rfl
  | some d => exact (append_assoc c d p).symm

theorem beginsWith_append (ss ts : List String) : beginsWith ss (ss ++ ts) = true := by
  induction ss with
  | nil => rfl
  | cons s ss ih => simp [beginsWith, ih]

/-- What two lists of segments begin with in common does not count. -/
theorem beginsWith_append_append (rs ss ts : List String) :
    beginsWith (rs ++ ss) (rs ++ ts) = beginsWith ss ts := by
  induction rs with
  | nil => rfl
  | cons r rs ih => simp [beginsWith, ih]

theorem isBelow_append (p q : ColumnPath) : (p ++ q).isBelow p = true := by
  have hq := List.length_pos_iff.mpr q.nonempty
  simp only [isBelow, length, segments_append, List.length_append, Bool.and_eq_true,
    decide_eq_true_eq]
  exact ⟨by omega, beginsWith_append p.segments q.segments⟩

/-- What a path has below a column are its segments after those of the column. -/
theorem relativeTo_eq_ok_iff {p c q : ColumnPath} :
    p.relativeTo c = .ok q ↔ p.isBelow c = true ∧ q.segments = p.segments.drop c.length := by
  rw [relativeTo]
  split
  · next h =>
    rw [Except.ok.injEq, ColumnPath.ext_iff, eq_comm]
    exact (and_iff_right h).symm
  · next h => exact ⟨nofun, fun hq => absurd hq.1 h⟩

theorem relativeTo_of_outside {p c : ColumnPath} (h : p.isBelow c = false) :
    p.relativeTo c = .error (.misuse (.notBelow p.text c.text)) := by
  rw [relativeTo, dif_neg (Bool.eq_false_iff.mp h)]

theorem relativeTo_append (p q : ColumnPath) : (p ++ q).relativeTo p = .ok q :=
  relativeTo_eq_ok_iff.mpr ⟨isBelow_append p q, by simp [length]⟩

theorem within_under (scope : Option ColumnPath) (p : ColumnPath) :
    (p.under scope).within scope = .ok p := by
  cases scope with
  | none => rfl
  | some c => exact relativeTo_append c p

/-- Two paths that are moved below a column stand to each other as before. -/
theorem isBelow_append_append (c p d : ColumnPath) : (c ++ p).isBelow (c ++ d) = p.isBelow d := by
  have hlength : (c ++ d).length < (c ++ p).length ↔ d.length < p.length := by
    simp only [length, segments_append, List.length_append, Nat.add_lt_add_iff_left]
  rw [isBelow, isBelow, segments_append, segments_append, beginsWith_append_append,
    decide_eq_decide.mpr hlength]

/-- A column that is moved together with its scope is the same one below it. -/
theorem within_append {scope : Option ColumnPath} {p q : ColumnPath} (c : ColumnPath)
    (h : p.within scope = .ok q) : (c ++ p).within (some (c.below scope)) = .ok q := by
  cases scope with
  | none =>
    cases h
    exact relativeTo_append c p
  | some d =>
    change p.relativeTo d = .ok q at h
    show (c ++ p).relativeTo (c ++ d) = .ok q
    rw [relativeTo] at h ⊢
    split at h
    · next hp =>
      cases h
      -- what stands behind the scope is the same on both sides
      rw [dif_pos ((isBelow_append_append c p d).trans hp)]
      congr 1
      ext1
      simp only [length, segments_append, List.length_append, List.drop_append]
      simp
    · cases h

end ColumnPath

/-! ### Trees of surface forms -/

namespace Surface

mutual

/-- The tree of a surface form that stands below the column of a quantifier, or at the top. -/
def under (scope : Option ColumnPath) : Surface → Filter
  | leaf c o v => .leaf (c.under scope) o v
  | group k us => .group k (underAll scope us)
  | quantified q c us => .quantified q (c.under scope) (underAll (some (c.under scope)) us)
termination_by structural u => u

/-- The trees of several surface forms. -/
def underAll (scope : Option ColumnPath) : List Surface → List Filter
  | [] => []
  | u :: us => under scope u :: underAll scope us
termination_by structural us => us

end

/-- The tree that a surface form stands for. -/
def tree (u : Surface) : Filter := u.under none

/-- The trees that several surface forms stand for. -/
def trees (us : List Surface) : List Filter := underAll none us

mutual

/-- Qualifying the tree of a surface form moves it below the column. -/
theorem qualify_under (c : ColumnPath) (scope : Option ColumnPath) :
    ∀ u : Surface, Filter.qualify c (u.under scope) = u.under (some (c.below scope))
  | leaf d o v => by
    rw [under, under, Filter.qualify, ColumnPath.append_under]
  | group k us => by
    rw [under, under, Filter.qualify, qualifyAll_underAll c scope us]
  | quantified q d us => by
    have hscope : c.below (some (d.under scope)) = d.under (some (c.below scope)) :=
      ColumnPath.append_under c scope d
    rw [under, under, Filter.qualify, ColumnPath.append_under,
      qualifyAll_underAll c (some (d.under scope)) us, hscope]

theorem qualifyAll_underAll (c : ColumnPath) (scope : Option ColumnPath) :
    ∀ us : List Surface,
      Filter.qualifyAll c (underAll scope us) = underAll (some (c.below scope)) us
  | [] => rfl
  | u :: us => by
    rw [underAll, underAll, Filter.qualifyAll, qualify_under c scope u,
      qualifyAll_underAll c scope us]

end

/-- Below a column, the trees of conditions become the trees that stand below it. -/
theorem qualifyAll_trees (c : ColumnPath) (us : List Surface) :
    Filter.qualifyAll c (trees us) = underAll (some c) us :=
  qualifyAll_underAll c none us

/-- **Building a filter.** From the trees of the conditions, the interface makes the tree of the
surface form that has the conditions below it. -/
theorem compose_trees (us : List Surface) :
    (∀ k, Filter.compose (.connective k) none (trees us) = .ok (group k us).tree) ∧
      ∀ q c, Filter.compose (.quantifier q) (some c) (trees us) = .ok (quantified q c us).tree := by
  refine ⟨fun k => rfl, fun q c => ?_⟩
  rw [Filter.compose, qualifyAll_trees]
  rfl

end Surface

theorem NodePart.filters_map_node (ts : List Filter) :
    NodePart.filters (ts.map .node) = .ok ts := by
  induction ts with
  | nil => rfl
  | cons t ts ih =>
    rw [List.map_cons, NodePart.filters, ih]
    rfl

/-! ### The surface form of a tree -/

namespace Filter

mutual

/-- The surface form of a filter below the column of a quantifier, or at the top. -/
def surface (scope : Option ColumnPath) : Filter → Except Error Surface
  | leaf c o v => do
    let column ← c.within scope
    .ok (.leaf column o v)
  | group k fs => do
    let children ← surfaceAll scope fs
    .ok (.group k children)
  | quantified q c fs => do
    let column ← c.within scope
    let children ← surfaceAll (some c) fs
    .ok (.quantified q column children)
termination_by structural f => f

/-- The surface forms of several filters. -/
def surfaceAll (scope : Option ColumnPath) : List Filter → Except Error (List Surface)
  | [] => .ok []
  | f :: fs => do
    let u ← surface scope f
    let us ← surfaceAll scope fs
    .ok (u :: us)
termination_by structural fs => fs

end

mutual

/-- The surface form of the tree of a surface form is this form. -/
theorem surface_under (scope : Option ColumnPath) :
    ∀ u : Surface, surface scope (u.under scope) = .ok u
  | .leaf c o v => by
    rw [Surface.under, surface, ColumnPath.within_under]
    rfl
  | .group k us => by
    rw [Surface.under, surface, surfaceAll_underAll scope us]
    rfl
  | .quantified q c us => by
    rw [Surface.under, surface, ColumnPath.within_under, surfaceAll_underAll _ us]
    rfl

theorem surfaceAll_underAll (scope : Option ColumnPath) :
    ∀ us : List Surface, surfaceAll scope (Surface.underAll scope us) = .ok us
  | [] => rfl
  | u :: us => by
    rw [Surface.underAll, surfaceAll, surface_under scope u, surfaceAll_underAll scope us]
    rfl

end

mutual

/-- A filter that is moved below a column keeps its surface form. -/
theorem surface_qualify (c : ColumnPath) (scope : Option ColumnPath) :
    ∀ (f : Filter) (u : Surface), surface scope f = .ok u →
      surface (some (c.below scope)) (qualify c f) = .ok u
  | leaf d o v, u, h => by
    obtain ⟨p, hp, h⟩ := bind_eq_ok_iff.mp h
    cases h
    rw [qualify, surface, ColumnPath.within_append c hp]
    rfl
  | group k fs, u, h => by
    obtain ⟨us, hus, h⟩ := bind_eq_ok_iff.mp h
    cases h
    rw [qualify, surface, surfaceAll_qualifyAll c scope fs us hus]
    rfl
  | quantified q d fs, u, h => by
    obtain ⟨p, hp, h⟩ := bind_eq_ok_iff.mp h
    obtain ⟨us, hus, h⟩ := bind_eq_ok_iff.mp h
    cases h
    -- the conditions were written below `d` and are written below `c ++ d` now
    have hchildren := surfaceAll_qualifyAll c (some d) fs us hus
    rw [ColumnPath.below] at hchildren
    rw [qualify, surface, ColumnPath.within_append c hp, ok_bind, hchildren]
    rfl

/-- Filters that are moved below a column keep their surface forms. -/
theorem surfaceAll_qualifyAll (c : ColumnPath) (scope : Option ColumnPath) :
    ∀ (fs : List Filter) (us : List Surface), surfaceAll scope fs = .ok us →
      surfaceAll (some (c.below scope)) (qualifyAll c fs) = .ok us
  | [], us, h => by
    cases h
    rfl
  | f :: fs, us, h => by
    obtain ⟨u, hu, h⟩ := bind_eq_ok_iff.mp h
    obtain ⟨rest, hrest, h⟩ := bind_eq_ok_iff.mp h
    cases h
    rw [qualifyAll, surfaceAll, surface_qualify c scope f u hu, ok_bind,
      surfaceAll_qualifyAll c scope fs rest hrest]
    rfl

end

/-- **Surface forms are composed as trees are**, also where the parts are trees that were qualified
by hand and may write the column of a quantifier in another case. -/
theorem surface_compose {fs : List Filter} {us : List Surface} (h : surfaceAll none fs = .ok us) :
    (∀ k, ∃ t, compose (.connective k) none fs = .ok t ∧ surface none t = .ok (.group k us)) ∧
      ∀ q c, ∃ t, compose (.quantifier q) (some c) fs = .ok t ∧
        surface none t = .ok (.quantified q c us) := by
  refine ⟨fun k => ⟨.group k fs, rfl, ?_⟩, fun q c => ⟨.quantified q c (qualifyAll c fs), rfl, ?_⟩⟩
  · rw [surface, h]
    rfl
  · have hchildren := surfaceAll_qualifyAll c none fs us h
    rw [ColumnPath.below] at hchildren
    rw [surface, ColumnPath.within, ok_bind, hchildren]
    rfl

end Filter

/-! ### The text of a surface form -/

namespace Surface

mutual

/-- The characters of the canonical text of a surface form. -/
def chars : Surface → List Char
  | leaf c o v => c.text.toList ++ ':' :: (o.word.toList ++ '(' :: (v.formText.toList ++ [')']))
  | group k us =>
    k.word.toList ++ '(' :: (argumentSeparator.toList.intercalate (charsAll us) ++ [')'])
  | quantified q c us =>
    c.text.toList ++ ':' ::
      (q.word.toList ++ '(' :: (argumentSeparator.toList.intercalate (charsAll us) ++ [')']))
termination_by structural u => u

/-- The texts of several surface forms. -/
def charsAll : List Surface → List (List Char)
  | [] => []
  | u :: us => chars u :: charsAll us
termination_by structural us => us

end

end Surface

namespace Filter

mutual

/-- **The printer** writes the surface form of a tree, below any column, and fails where the tree
has none. -/
theorem formatIn_eq : ∀ (f : Filter) (scope : Option ColumnPath),
    formatIn scope f = (surface scope f).map fun u => String.ofList u.chars
  | leaf c o v, scope => by
    rw [formatIn, surface]
    -- both ways print the column relative to the scope, and fail together
    cases c.within scope with
    | error e => rfl
    | ok column =>
      apply congrArg Except.ok
      apply String.toList_inj.mp
      simp [Surface.chars]
  | group k fs, scope => by
    rw [formatIn, surface, formatAllIn_eq fs scope]
    cases surfaceAll scope fs with
    | error e => rfl
    | ok us =>
      apply congrArg Except.ok
      apply String.toList_inj.mp
      simp [Surface.chars, Text.join, Function.comp_def]
  | quantified q c fs, scope => by
    rw [formatIn, surface, formatAllIn_eq fs (some c)]
    cases c.within scope with
    | error e => rfl
    | ok column =>
      cases surfaceAll (some c) fs with
      | error e => rfl
      | ok us =>
        apply congrArg Except.ok
        apply String.toList_inj.mp
        simp [Surface.chars, Text.join, Function.comp_def]

theorem formatAllIn_eq : ∀ (fs : List Filter) (scope : Option ColumnPath),
    formatAllIn scope fs = (surfaceAll scope fs).map fun us =>
      (Surface.charsAll us).map String.ofList
  | [], _ => rfl
  | f :: fs, scope => by
    rw [formatAllIn, surfaceAll, formatIn_eq f scope, formatAllIn_eq fs scope]
    cases surface scope f with
    | error e => rfl
    | ok u =>
      cases surfaceAll scope fs with
      | error e => rfl
      | ok us => rfl

end

end Filter

namespace Surface

/-- The printer writes the tree of a surface form as the form's text, whatever column the tree
stands below. -/
theorem formatIn_under (scope : Option ColumnPath) (u : Surface) :
    Filter.formatIn scope (u.under scope) = .ok (String.ofList u.chars) := by
  rw [Filter.formatIn_eq, Filter.surface_under]
  rfl

theorem formatAllIn_underAll (scope : Option ColumnPath) (us : List Surface) :
    Filter.formatAllIn scope (underAll scope us) = .ok ((charsAll us).map String.ofList) := by
  rw [Filter.formatAllIn_eq, Filter.surfaceAll_underAll]
  rfl

end Surface

end RecordQuery
