import Mathlib.Data.List.Induction
import RecordQuery.Proofs.Calls
import RecordQuery.Proofs.Surface

/-!
# The brackets of a builder

The calls of a builder open and close groups like brackets. The builder keeps a stack of the groups
that are open, and at each closing bracket makes a node of the innermost one, below whose column all
its conditions are put, also those of inner groups that have been put below theirs before. What
comes out is what the brackets say: each group is a node of its own parts.

* `Part` — what stands between brackets, with the calls and the filters of each part.
* `Reading` — the brackets that have been read. It is a stack, too, but of parts, and says nothing
  of filters. By `Reading.of_callsAll`, calls are read in one way.
* `Reading.Matches` — the builder holds what the reading stands for. `Matches.next` is the step, and
  `Returned.matches_run` the run.
* `Returned.countP_opens`, `Returned.opensLast_iff`, `Composes.closeGroup_fails_iff` — the open
  groups, and the closing bracket.
* `builder_reads_brackets` — the results together.
-/

namespace RecordQuery
namespace CriteriaBuilder

/-! ### Calls that return -/

/-- Calls none of which fails, one after the other. -/
inductive Returned : List Step → Prop
  | nil : Returned []
  | snoc {steps : List Step} {step : Step} (before : Returned steps)
      (returned : step.error? (run steps) = none) : Returned (steps ++ [step])

/-! ### Reading brackets -/

/-- The group of some conditions, made as a node by itself. -/
def Opening.group (o : Opening) (children : List Filter) : Except Error Filter :=
  NodeArgs.build ⟨o.operator.word, children.map .node, o.column?⟩

/-- A part of what is built: a condition, a sort item, or a group between brackets. -/
inductive Part where
  | condition (target : Target) (operator : Option String) (value : Value)
  | order (column : ColumnArg) (direction : String)
  | orderItem (item : SortItem)
  | group (opening : Opening) (parts : List Part)

namespace Part

mutual

/-- The calls that make a part. -/
def calls : Part → List Step
  | condition target operator v => [.filter target operator v]
  | order c direction => [.orderBy c direction]
  | orderItem i => [.orderByItem i]
  | group o ps => o.call :: (callsAll ps ++ [.closeGroup])
termination_by structural p => p

/-- The calls that make some parts. -/
def callsAll : List Part → List Step
  | [] => []
  | p :: ps => calls p ++ callsAll ps
termination_by structural ps => ps

end

mutual

/-- The filters that a part stands for. A group is one filter, and a sort item none. -/
def filters : Part → Except Error (List Filter)
  | condition target operator v => (target.condition operator v).map ([·])
  | order _ _ | orderItem _ => .ok []
  | group o ps => do
    let children ← filtersAll ps
    (o.group children).map ([·])
termination_by structural p => p

/-- The filters that some parts stand for, in order. -/
def filtersAll : List Part → Except Error (List Filter)
  | [] => .ok []
  | p :: ps => do
    let fs ← filters p
    let gs ← filtersAll ps
    .ok (fs ++ gs)
termination_by structural ps => ps

end

theorem callsAll_append (ps qs : List Part) : callsAll (ps ++ qs) = callsAll ps ++ callsAll qs := by
  induction ps with
  | nil => rfl
  | cons p ps ih => rw [List.cons_append, callsAll, callsAll, ih, List.append_assoc]

/-- The filters of one more part come after the others. -/
theorem filtersAll_concat {ps : List Part} {p : Part} {fs gs : List Filter}
    (hps : filtersAll ps = .ok fs) (hp : p.filters = .ok gs) :
    filtersAll (ps ++ [p]) = .ok (fs ++ gs) := by
  induction ps generalizing fs with
  | nil =>
    cases hps
    rw [List.nil_append, filtersAll, hp, ok_bind, filtersAll, ok_bind, List.append_nil]
    rfl
  | cons q qs ih =>
    obtain ⟨first, hfirst, hps⟩ := bind_eq_ok_iff.mp hps
    obtain ⟨rest, hrest, hps⟩ := bind_eq_ok_iff.mp hps
    cases hps
    rw [List.cons_append, filtersAll, hfirst, ok_bind, ih hrest, ok_bind, List.append_assoc]

end Part

/-- What has been read of some brackets: the parts at the top, and the open groups with the parts in
them, the innermost first. -/
structure Reading where
  parts : List Part
  opened : List (Opening × List Part)

namespace Reading

/-- The reading with a part at the end of the innermost group. -/
def add (r : Reading) (p : Part) : Reading :=
  match r.opened with
  | [] => { r with parts := r.parts ++ [p] }
  | (o, ps) :: outer => { r with opened := (o, ps ++ [p]) :: outer }

/-- The reading after a call. A bracket that closes no group is passed over. -/
def next (r : Reading) : Step → Reading
  | .filter target operator v => r.add (.condition target operator v)
  | .openGroup k => { r with opened := (.connective k, []) :: r.opened }
  | .openQuantifier q c => { r with opened := (.quantifier q c, []) :: r.opened }
  | .closeGroup =>
    match r.opened with
    | [] => r
    | (o, ps) :: outer => { r with opened := outer }.add (.group o ps)
  | .orderBy c direction => r.add (.order c direction)
  | .orderByItem i => r.add (.orderItem i)

/-- The reading of some calls. -/
def of (steps : List Step) : Reading := steps.foldl next ⟨[], []⟩

@[simp] theorem of_append (steps : List Step) (step : Step) :
    of (steps ++ [step]) = (of steps).next step := by
  rw [of, List.foldl_append]
  rfl

/-- The calls of some parts at the top and of open groups. -/
def callsOf (parts : List Part) : List (Opening × List Part) → List Step
  | [] => Part.callsAll parts
  | (o, ps) :: outer => callsOf parts outer ++ o.call :: Part.callsAll ps

/-- The calls that were read. -/
def calls (r : Reading) : List Step := callsOf r.parts r.opened

theorem calls_add (r : Reading) (p : Part) : (r.add p).calls = r.calls ++ p.calls := by
  obtain ⟨parts, opened⟩ := r
  cases opened with
  | nil =>
    rw [add, calls, callsOf, Part.callsAll_append, Part.callsAll, Part.callsAll, List.append_nil]
    rfl
  | cons top outer =>
    rw [add, calls, callsOf, Part.callsAll_append, Part.callsAll, Part.callsAll, List.append_nil,
      ← List.cons_append, ← List.append_assoc]
    rfl

/-- A reading keeps its calls, unless one of them closes a group that is not open. -/
theorem calls_next {r : Reading} {step : Step} (h : step = .closeGroup → r.opened ≠ []) :
    (r.next step).calls = r.calls ++ [step] := by
  cases step with
  | filter target operator v => exact r.calls_add _
  | orderBy c direction => exact r.calls_add _
  | orderByItem i => exact r.calls_add _
  | openGroup k => rfl
  | openQuantifier q c => rfl
  | closeGroup =>
    obtain ⟨parts, opened⟩ := r
    cases opened with
    | nil => exact absurd rfl (h rfl)
    | cons top outer =>
      -- the part that is added has the calls of its opening and of its parts, and this one
      obtain ⟨o, ps⟩ := top
      rw [next, calls_add, Part.calls, calls, calls, callsOf, List.append_assoc, List.cons_append]

theorem foldl_add_top (parts : List Part) : ∀ ps : List Part,
    ps.foldl add ⟨parts, []⟩ = ⟨parts ++ ps, []⟩
  | [] => by rw [List.append_nil]; rfl
  | p :: ps => by
    rw [List.foldl_cons, add, foldl_add_top (parts ++ [p]) ps, List.append_assoc]
    rfl

theorem foldl_add_opened (parts : List Part) (o : Opening) (outer : List (Opening × List Part)) :
    ∀ qs ps : List Part,
      ps.foldl add ⟨parts, (o, qs) :: outer⟩ = ⟨parts, (o, qs ++ ps) :: outer⟩
  | qs, [] => by rw [List.append_nil]; rfl
  | qs, p :: ps => by
    rw [List.foldl_cons, add, foldl_add_opened parts o outer (qs ++ [p]) ps, List.append_assoc]
    rfl

mutual

/-- The calls of a part are read as this part. -/
theorem foldl_calls : ∀ (p : Part) (r : Reading), p.calls.foldl next r = r.add p
  | .condition _ _ _, _ | .order _ _, _ | .orderItem _, _ => rfl
  | .group o ps, r => by
    have hopen : r.next o.call = ⟨r.parts, (o, []) :: r.opened⟩ := by cases o <;> rfl
    rw [Part.calls, List.foldl_cons, List.foldl_append, hopen, foldl_callsAll ps]
    -- inside the group its parts have been collected, and the bracket makes one part of them
    rw [foldl_add_opened, List.nil_append]
    rfl

theorem foldl_callsAll : ∀ (ps : List Part) (r : Reading),
    (Part.callsAll ps).foldl next r = ps.foldl add r
  | [], _ => rfl
  | p :: ps, r => by
    rw [Part.callsAll, List.foldl_append, foldl_calls p r, foldl_callsAll ps, List.foldl_cons]

end

/-- **Brackets are read in one way.** Parts are what their calls are read as. -/
theorem of_callsAll (ps : List Part) : of (Part.callsAll ps) = ⟨ps, []⟩ := by
  rw [of, foldl_callsAll, foldl_add_top, List.nil_append]

end Reading

/-! ### Builders and readings -/

/-- An open group of a builder is what an opening and some parts stand for. -/
structure Opened (read : Opening × List Part) (g : OpenGroup) : Prop where
  operator : g.operator = read.1.operator
  column : NodeArgs.checkedColumn read.1.operator read.1.column? = .ok g.column
  filters : Part.filtersAll read.2 = .ok g.filters

theorem Opened.group_eq {read : Opening × List Part} {g : OpenGroup} (h : Opened read g) :
    read.1.group g.filters = Filter.compose g.operator g.column g.filters := by
  have hword : ∀ c : Combinator, wordOf Combinator.ofWord? c.word = .ok c := by
    rintro (k | q)
    · cases k <;> rfl
    · cases q <;> rfl
  rw [Opening.group, NodeArgs.build, hword, ok_bind, NodePart.filters_map_node, ok_bind, h.column,
    ok_bind, h.operator]

/-- A builder holds what a reading stands for, in its open groups too. -/
structure Reading.Matches (r : Reading) (b : CriteriaBuilder) : Prop where
  filters : Part.filtersAll r.parts = .ok b.filters
  groups : List.Forall₂ Opened r.opened b.groups

namespace Reading.Matches

variable {r : Reading} {b : CriteriaBuilder}

/-- A part that stands for one filter is added like this filter. -/
theorem add (h : r.Matches b) {p : Part} {f : Filter} (hp : p.filters = .ok [f]) :
    (r.add p).Matches (b.add f) := by
  obtain ⟨parts, opened⟩ := r
  obtain ⟨filters, sorting, groups⟩ := b
  obtain ⟨hfilters, hgroups⟩ := h
  cases hgroups with
  | nil => exact ⟨Part.filtersAll_concat hfilters hp, .nil⟩
  | cons htop houter =>
    exact ⟨hfilters,
      .cons ⟨htop.operator, htop.column, Part.filtersAll_concat htop.filters hp⟩ houter⟩

/-- A part that stands for no filter leaves the filters as they are. -/
theorem add_order (h : r.Matches b) {p : Part} (hp : p.filters = .ok []) (items : List SortItem) :
    (r.add p).Matches { b with sorting := items } := by
  obtain ⟨parts, opened⟩ := r
  obtain ⟨filters, sorting, groups⟩ := b
  obtain ⟨hfilters, hgroups⟩ := h
  -- a sort has no filters, so the open part stays as it was
  have hsame : ∀ {ps : List Part} {fs : List Filter}, Part.filtersAll ps = .ok fs →
      Part.filtersAll (ps ++ [p]) = .ok fs := by
    intro ps fs hps
    rw [Part.filtersAll_concat hps hp, List.append_nil]
  cases hgroups with
  | nil => exact ⟨hsame hfilters, .nil⟩
  | cons htop houter =>
    exact ⟨hfilters, .cons ⟨htop.operator, htop.column, hsame htop.filters⟩ houter⟩

/-- **The step.** A call that returns does to the builder what it does to the reading. -/
theorem next (h : r.Matches b) {step : Step} {b' : CriteriaBuilder} (does : step.Does b b') :
    (r.next step).Matches b' := by
  cases does with
  | @condition target operator v f made =>
    exact h.add (by rw [Part.filters, made]; rfl)
  | @opening o c column =>
    have hnext : r.next o.call = { r with opened := (o, []) :: r.opened } := by cases o <;> rfl
    rw [hnext]
    exact ⟨h.filters, .cons ⟨rfl, column, rfl⟩ h.groups⟩
  | @closing g gs f groups nonempty made =>
    obtain ⟨parts, opened⟩ := r
    obtain ⟨hfilters, hgroups⟩ := h
    rw [groups] at hgroups
    -- the innermost group of the reading is the one that the builder closes
    obtain ⟨⟨o, ps⟩, outer, htop, houter, rfl⟩ := List.forall₂_cons_right_iff.mp hgroups
    have hpart : (Part.group o ps).filters = .ok [f] := by
      rw [Part.filters, htop.filters, ok_bind, htop.group_eq, made]
      rfl
    have hmatches : Reading.Matches ⟨parts, outer⟩ { b with groups := gs } := ⟨hfilters, houter⟩
    exact hmatches.add hpart
  | sorting item =>
    cases step with
    | orderBy c direction => exact h.add_order rfl _
    | orderByItem i => exact h.add_order rfl _
    | filter _ _ _ | openGroup _ | openQuantifier _ _ | closeGroup => cases item

end Reading.Matches

/-- **The run.** A builder whose calls all return holds what its calls are read as. -/
theorem Returned.matches_run {steps : List Step} (h : Returned steps) :
    (Reading.of steps).Matches (run steps) := by
  induction h with
  | nil => exact ⟨rfl, .nil⟩
  | snoc _ returned ih =>
    rw [Reading.of_append, run_append]
    exact ih.next (does_of_returned returned)

/-- Calls that all return are read without loss: no bracket closes a group that is not open. -/
theorem Returned.calls_of {steps : List Step} (h : Returned steps) :
    (Reading.of steps).calls = steps := by
  induction h with
  | nil => rfl
  | @snoc steps step before returned ih =>
    -- a builder without open groups would have refused the bracket
    have hopen : step = .closeGroup → (Reading.of steps).opened ≠ [] := by
      rintro rfl hnil
      have hgroups := before.matches_run.groups
      rw [hnil, List.forall₂_nil_left_iff] at hgroups
      rw [Step.error?, closeGroup, hgroups] at returned
      cases returned
    rw [Reading.of_append, Reading.calls_next hopen, ih]

/-- The sort items of some calls, in order. -/
def sortItems (steps : List Step) : Except Error (List SortItem) :=
  (steps.filterMap Step.sortItem?).mapM id

theorem sortItems_append {steps steps' : List Step} {is js : List SortItem}
    (h : sortItems steps = .ok is) (h' : sortItems steps' = .ok js) :
    sortItems (steps ++ steps') = .ok (is ++ js) := by
  rw [sortItems, mapM_eq_ok_iff] at h h' ⊢
  rw [List.filterMap_append]
  exact List.rel_append h h'

theorem sorting_add (b : CriteriaBuilder) (f : Filter) : (b.add f).sorting = b.sorting := by
  rw [add]
  split <;> rfl

theorem Step.Does.sorting_eq {b b' : CriteriaBuilder} {step : Step} (h : step.Does b b') :
    ∃ is, sortItems [step] = .ok is ∧ b'.sorting = b.sorting ++ is := by
  cases h with
  | condition => exact ⟨[], rfl, by rw [sorting_add, List.append_nil]⟩
  | @opening o => exact ⟨[], by cases o <;> rfl, (List.append_nil _).symm⟩
  | closing => exact ⟨[], rfl, by rw [sorting_add, List.append_nil]⟩
  | @sorting step i item =>
    refine ⟨[i], ?_, rfl⟩
    rw [sortItems, List.filterMap_cons_some item]
    rfl

theorem Returned.sortItems_run {steps : List Step} (h : Returned steps) :
    sortItems steps = .ok (run steps).sorting := by
  induction h with
  | nil => rfl
  | snoc _ returned ih =>
    obtain ⟨is, hitems, hsorting⟩ := (does_of_returned returned).sorting_eq
    rw [run_append, hsorting]
    exact sortItems_append ih hitems

/-! ### Balance -/

namespace Step

/-- Whether a call opens a group. -/
def opens : Step → Bool
  | openGroup _ | openQuantifier _ _ => true
  | _ => false

/-- Whether a call closes a group. -/
def closes : Step → Bool
  | closeGroup => true
  | _ => false

/-- Whether a call is about sorting. -/
def sorts (step : Step) : Bool := step.sortItem?.isSome

theorem bracket_of_sorts {step : Step} (h : step.sorts = true) :
    step.opens = false ∧ step.closes = false := by
  cases step with
  | orderBy _ _ | orderByItem _ => exact ⟨rfl, rfl⟩
  | filter _ _ _ | openGroup _ | openQuantifier _ _ | closeGroup => cases h

theorem bracket_call (o : Opening) :
    o.call.opens = true ∧ o.call.closes = false ∧ o.call.sorts = false := by
  cases o <;> exact ⟨rfl, rfl, rfl⟩

end Step

theorem length_groups_add (b : CriteriaBuilder) (f : Filter) :
    (b.add f).groups.length = b.groups.length := by
  rw [add]
  split
  · rfl
  · next hgroups => rw [hgroups, List.length_cons, List.length_cons]

theorem Step.Does.length_groups {b b' : CriteriaBuilder} {step : Step} (h : step.Does b b') :
    b'.groups.length + [step].countP closes = b.groups.length + [step].countP opens := by
  -- only opening and closing change the number of groups, and they are what is counted
  cases h with
  | @condition _ _ _ f => exact length_groups_add b f
  | @opening o =>
    obtain ⟨hopens, hcloses, -⟩ := bracket_call o
    rw [List.countP_singleton, List.countP_singleton, hopens, hcloses]
    rfl
  | @closing g gs f groups =>
    rw [length_groups_add, groups]
    rfl
  | sorting item =>
    obtain ⟨hopens, hcloses⟩ := bracket_of_sorts (Option.isSome_of_mem item)
    rw [List.countP_singleton, List.countP_singleton, hopens, hcloses]

/-- There are as many open groups as more groups have been opened than closed. -/
theorem Returned.countP_opens {steps : List Step} (h : Returned steps) :
    steps.countP Step.opens = steps.countP Step.closes + (run steps).groups.length := by
  induction h with
  | nil => rfl
  | snoc _ returned ih =>
    have hgroups := (does_of_returned returned).length_groups
    rw [run_append, List.countP_append, List.countP_append]
    omega

/-- The innermost group has no conditions so far. -/
def InnermostEmpty (b : CriteriaBuilder) : Prop := ∃ g gs, b.groups = g :: gs ∧ g.filters = []

theorem not_innermostEmpty_add (b : CriteriaBuilder) (f : Filter) : ¬ (b.add f).InnermostEmpty := by
  rintro ⟨g, gs, hgroups, hnil⟩
  rw [add] at hgroups
  split at hgroups
  · next hnone => cases hnone.symm.trans hgroups
  · -- the condition is the last one of the innermost group
    cases hgroups
    exact List.append_ne_nil_of_right_ne_nil _ (List.cons_ne_nil _ _) hnil

theorem Step.Does.innermostEmpty_iff {b b' : CriteriaBuilder} {step : Step}
    (h : step.Does b b') :
    b'.InnermostEmpty ↔
      (step.sorts = true ∧ b.InnermostEmpty) ∨ (step.sorts = false ∧ step.opens = true) := by
  cases h with
  | @condition target operator v f =>
    refine iff_of_false (not_innermostEmpty_add b f) ?_
    rintro (⟨hsorts, -⟩ | ⟨-, hopens⟩)
    · cases hsorts
    · cases hopens
  | @opening o =>
    obtain ⟨hopens, -, hsorts⟩ := bracket_call o
    exact iff_of_true ⟨_, _, rfl, rfl⟩ (.inr ⟨hsorts, hopens⟩)
  | @closing g gs f =>
    refine iff_of_false (not_innermostEmpty_add _ f) ?_
    rintro (⟨hsorts, -⟩ | ⟨-, hopens⟩)
    · cases hsorts
    · cases hopens
  | sorting item =>
    -- the sort list is no part of any group
    have hsorts : step.sorts = true := Option.isSome_of_mem item
    rw [hsorts]
    exact ⟨fun h => .inl ⟨rfl, h⟩, fun h => h.elim And.right (absurd ·.1 nofun)⟩

/-- The last call that is not about sorting opens a group. -/
def OpensLast (steps : List Step) : Prop :=
  ∃ step, (steps.filter fun s => !s.sorts).getLast? = some step ∧ step.opens = true

theorem opensLast_append (steps : List Step) (step : Step) :
    OpensLast (steps ++ [step]) ↔
      (step.sorts = true ∧ OpensLast steps) ∨ (step.sorts = false ∧ step.opens = true) := by
  rw [OpensLast, List.filter_append, List.filter_singleton]
  cases step.sorts with
  | true => simp [OpensLast]
  | false => simp

/-- The innermost group is empty exactly when nothing but sorting came after it was opened. -/
theorem Returned.opensLast_iff {steps : List Step} (h : Returned steps) :
    OpensLast steps ↔ (run steps).InnermostEmpty := by
  induction h with
  | nil =>
    refine iff_of_false ?_ ?_
    · rintro ⟨_, hlast, -⟩
      cases hlast
    · rintro ⟨_, _, hgroups, -⟩
      cases hgroups
  | snoc _ returned ih =>
    rw [run_append, opensLast_append, ih, (does_of_returned returned).innermostEmpty_iff]

/-! ### Closing a group -/

/-- A quantifier is opened with a column, and a connective without one, as their groups need it. -/
theorem Opening.succeeds_compose (o : Opening) {c : Option ColumnPath}
    (column : NodeArgs.checkedColumn o.operator o.column? = .ok c) (fs : List Filter) :
    Succeeds (Filter.compose o.operator c fs) := by
  cases o with
  | connective k =>
    cases column
    exact ⟨_, rfl⟩
  | quantifier q given =>
    obtain ⟨path, -, rfl⟩ := map_eq_ok_iff.mp column
    exact ⟨_, rfl⟩

/-- The conditions of every open group can be composed, whatever they are. -/
def Composes (b : CriteriaBuilder) : Prop :=
  ∀ g ∈ b.groups, ∀ fs, Succeeds (Filter.compose g.operator g.column fs)

namespace Composes

variable {b : CriteriaBuilder}

theorem add (hb : b.Composes) (f : Filter) : (b.add f).Composes := by
  obtain ⟨filters, sorting, groups⟩ := b
  cases groups with
  | nil => exact hb
  | cons g gs =>
    obtain ⟨htop, houter⟩ := List.forall_mem_cons.mp hb
    exact List.forall_mem_cons.mpr ⟨htop, houter⟩

theorem dropped (hb : b.Composes) {g : OpenGroup} {gs : List OpenGroup}
    (groups : b.groups = g :: gs) : Composes { b with groups := gs } := by
  rw [Composes, groups] at hb
  exact (List.forall_mem_cons.mp hb).2

/-- A call keeps this so, also if it fails. -/
theorem apply (hb : b.Composes) (step : Step) : (step.apply b).Composes := by
  have hleaves := leaves_apply b step
  generalize step.apply b = b' at hleaves
  -- an empty group is dropped even though the step is refused
  cases hleaves with
  | refused => exact hb
  | dropped groups => exact hb.dropped groups
  | returned does =>
    cases does with
    | @condition _ _ _ f => exact hb.add f
    | @opening o c column =>
      exact List.forall_mem_cons.mpr ⟨o.succeeds_compose column, hb⟩
    | @closing g gs f groups => exact (hb.dropped groups).add f
    | sorting => exact hb

end Composes

/-- After any calls, failed ones too, open groups can be composed. -/
theorem composes_run (steps : List Step) : (run steps).Composes := by
  induction steps using List.reverseRecOn with
  | nil => exact List.forall_mem_nil _
  | append_singleton steps step ih =>
    rw [run_append]
    exact ih.apply step

/-- A group that is open and has conditions is closed without an error. -/
theorem Composes.closeGroup_fails_iff {b : CriteriaBuilder} (hb : b.Composes) :
    Step.closeGroup.error? b ≠ none ↔ b.groups = [] ∨ b.InnermostEmpty := by
  obtain ⟨filters, sorting, groups⟩ := b
  cases groups with
  | nil => exact iff_of_true (Option.some_ne_none _) (.inl rfl)
  | cons g gs =>
    simp only [Step.error?, CriteriaBuilder.closeGroup]
    split
    · next hempty =>
      exact iff_of_true (Option.some_ne_none _) (.inr ⟨g, gs, rfl, List.isEmpty_iff.mp hempty⟩)
    · next hne =>
      -- what is left to fail is the node, and its column goes with its operator
      obtain ⟨f, hf⟩ := (List.forall_mem_cons.mp hb).1 g.filters
      rw [hf]
      refine iff_of_false (absurd rfl) ?_
      rintro (hnil | ⟨g', gs', hgroups, hnil⟩)
      · cases hnil
      · cases hgroups
        exact hne (List.isEmpty_iff.mpr hnil)

theorem succeeds_build_iff (b : CriteriaBuilder) : Succeeds b.build ↔ b.groups = [] := by
  rw [build, ← List.isEmpty_iff]
  split
  · next hempty => exact iff_of_true (.ok _) hempty
  · next hne =>
    refine iff_of_false ?_ hne
    rintro ⟨c, hbuilt⟩
    cases hbuilt

/-- What a builder builds of calls that all return is what their one reading stands for. -/
theorem Returned.exists_parts {steps : List Step} (h : Returned steps) {c : Criteria}
    (built : (run steps).build = .ok c) :
    ∃ parts, Part.callsAll parts = steps ∧
      (∀ parts', Part.callsAll parts' = steps → parts' = parts) ∧
      Part.filtersAll parts = .ok c.filters ∧ sortItems steps = .ok c.sorting := by
  have hgroups : (run steps).groups = [] := (succeeds_build_iff _).mp ⟨c, built⟩
  obtain ⟨hfilters, hopened⟩ := h.matches_run
  rw [hgroups, List.forall₂_nil_right_iff] at hopened
  rw [build, hgroups] at built
  cases built
  refine ⟨(Reading.of steps).parts, ?_, ?_, hfilters, h.sortItems_run⟩
  · have hcalls := h.calls_of
    rwa [Reading.calls, hopened] at hcalls
  · -- other parts with these calls would be read from them, too
    rintro parts rfl
    rw [Reading.of_callsAll]

end CriteriaBuilder

open CriteriaBuilder in
/-- **A builder is a reader of brackets.** Let a builder be called so that every call returns. It is
built exactly if as many groups are closed as were opened. The calls are then read as parts in one
way, by their brackets; the filters are the parts in order, each group a node of its operator, its
column and its own parts, and the sort list holds the sort items in order. After any calls, closing
a group fails exactly if none is open or the innermost one has no conditions; that is, if all groups
are closed or nothing but sorting came after the last bracket, which was opened. -/
theorem builder_reads_brackets :
    (∀ steps, Step.closeGroup.error? (run steps) ≠ none ↔
      (run steps).groups = [] ∨ (run steps).InnermostEmpty) ∧
    ∀ steps, Returned steps →
      (Succeeds (run steps).build ↔ steps.countP Step.opens = steps.countP Step.closes) ∧
      (Step.closeGroup.error? (run steps) ≠ none ↔
        steps.countP Step.opens = steps.countP Step.closes ∨ OpensLast steps) ∧
      ∀ c, (run steps).build = .ok c →
        ∃ parts, Part.callsAll parts = steps ∧
          (∀ parts', Part.callsAll parts' = steps → parts' = parts) ∧
          Part.filtersAll parts = .ok c.filters ∧ sortItems steps = .ok c.sorting := by
  refine ⟨fun steps => (composes_run steps).closeGroup_fails_iff, fun steps h => ?_⟩
  -- each opened group is still there or was closed
  have hcount : steps.countP Step.opens = steps.countP Step.closes ↔ (run steps).groups = [] := by
    rw [h.countP_opens, ← List.length_eq_zero_iff]
    omega
  refine ⟨?_, ?_, fun c built => h.exists_parts built⟩
  · rw [succeeds_build_iff, hcount]
  · rw [(composes_run steps).closeGroup_fails_iff, h.opensLast_iff, hcount]

open CriteriaBuilder in
/-- Two alternatives about the elements of a column, between brackets inside brackets. -/
theorem builder_reads_brackets_of_roles :
    let name (v : String) : Step := .filter (.column (.text "name")) none (.text v)
    let steps : List Step := [.openQuantifier .any (.text "roles"), .openGroup .or, name "a",
      .orderBy (.text "age") "desc", name "b", .closeGroup, .closeGroup]
    let roles : ColumnPath := ⟨["roles"], by decide, by decide⟩
    let roleName : ColumnPath := ⟨["roles", "name"], by decide, by decide⟩
    let age : ColumnPath := ⟨["age"], by decide, by decide⟩
    Returned steps ∧
      (run steps).build = .ok ⟨[.quantified .any roles [.group .or
        [.leaf roleName .eq (.plain "a"), .leaf roleName .eq (.plain "b")]]], [⟨age, .desc⟩]⟩ ∧
      steps.countP Step.opens = steps.countP Step.closes ∧
      Step.closeGroup.error? (run steps) ≠ none ∧ ∃ parts, Part.callsAll parts = steps := by
  intro name steps roles roleName age
  have hreturned : Returned steps :=
    .snoc (.snoc (.snoc (.snoc (.snoc (.snoc (.snoc .nil rfl) rfl) rfl) rfl) rfl) rfl) rfl
  obtain ⟨hbalance, hclose, hparts⟩ := builder_reads_brackets.2 steps hreturned
  -- both groups are closed, so that no further one can be
  have hcount := hbalance.mp ⟨_, rfl⟩
  obtain ⟨parts, hcalls, -⟩ := hparts _ rfl
  exact ⟨hreturned, rfl, hcount, hclose.mpr (.inl hcount), parts, hcalls⟩

end RecordQuery
