import RecordQuery.Builder
import RecordQuery.Proofs.Outcome

/-!
# The calls of a builder

What a call does to a builder, in all cases at once. Whatever is shown of builders is shown by these
cases, and looks into no call again.

* `CriteriaBuilder.Step` — a call; `run` is the builder after some calls.
* `Step.Does` — what a call that returns does; `does_of_returned` says that there is nothing else.
* `apply_of_failed` — calls that fail change nothing, but for a group that is closed in vain;
  `Step.Leaves` has both outcomes, by `leaves_apply`.
-/

namespace RecordQuery

/-- The condition that a filter is by itself, or that a leaf states of a column, an operator word
and the written form of a value. -/
def Target.condition (target : Target) (operator : Option String) (v : Value) :
    Except Error Filter :=
  match target with
  | .filter f => .ok f
  | .column c => do
    let raw ← Handle.rawOf v
    LeafArgs.build ⟨c, operator.getD Operator.eq.word, raw.value⟩

namespace CriteriaBuilder

/-! ### Calls -/

/-- A call of a builder. -/
inductive Step where
  | filter (target : Target) (operator : Option String) (value : Value)
  | openGroup (connective : Connective)
  | openQuantifier (quantifier : Quantifier) (column : ColumnArg)
  | closeGroup
  | orderBy (column : ColumnArg) (direction : String)
  | orderByItem (item : SortItem)

/-- The builder after a call, which may have failed. -/
def Step.apply (b : CriteriaBuilder) : Step → CriteriaBuilder
  | filter target operator v => (b.withFilter target operator v).2
  | openGroup k => b.openGroup k
  | openQuantifier q c => (b.openQuantifier q c).2
  | closeGroup => b.closeGroup.2
  | orderBy c direction => (b.orderBy c direction).2
  | orderByItem i => b.orderByItem i

/-- The builder after some calls. -/
def run (steps : List Step) : CriteriaBuilder := steps.foldl Step.apply empty

@[simp] theorem run_append (steps : List Step) (step : Step) :
    run (steps ++ [step]) = step.apply (run steps) := by
  rw [run, List.foldl_append]
  rfl

/-- The error that a call fails with, if it does. -/
def Step.error? (b : CriteriaBuilder) : Step → Option Error
  | filter target operator v => (b.withFilter target operator v).1
  | openGroup _ => none
  | openQuantifier q c => (b.openQuantifier q c).1
  | closeGroup => b.closeGroup.1
  | orderBy c direction => (b.orderBy c direction).1
  | orderByItem _ => none

/-- The sort item of a call, as it is made by itself. -/
def Step.sortItem? : Step → Option (Except Error SortItem)
  | orderBy c direction => some (SortItem.build c direction)
  | orderByItem i => some (.ok i)
  | _ => none

/-- How a group is opened: by a connective, or by a quantifier over a column. -/
inductive Opening where
  | connective (k : Connective)
  | quantifier (q : Quantifier) (column : ColumnArg)

namespace Opening

/-- The call that opens the group. -/
def call : Opening → Step
  | connective k => .openGroup k
  | quantifier q c => .openQuantifier q c

/-- The operator of the group. -/
def operator : Opening → Combinator
  | connective k => .connective k
  | quantifier q _ => .quantifier q

/-- The column that the group is given. -/
def column? : Opening → Option ColumnArg
  | connective _ => none
  | quantifier _ c => some c

end Opening

/-! ### What a call does -/

/-- What a call that returns does: it adds a condition, opens a group, closes one that has
conditions and adds it to the level around it, or adds a sort item. -/
inductive Step.Does (b : CriteriaBuilder) : Step → CriteriaBuilder → Prop
  | condition {target : Target} {operator : Option String} {v : Value} {f : Filter}
      (made : target.condition operator v = .ok f) : Does b (.filter target operator v) (b.add f)
  | opening {o : Opening} {c : Option ColumnPath}
      (column : NodeArgs.checkedColumn o.operator o.column? = .ok c) :
      Does b o.call { b with groups := ⟨o.operator, c, []⟩ :: b.groups }
  | closing {g : OpenGroup} {gs : List OpenGroup} {f : Filter} (groups : b.groups = g :: gs)
      (nonempty : g.filters ≠ [])
      (made : Filter.compose g.operator g.column g.filters = .ok f) :
      Does b .closeGroup ({ b with groups := gs }.add f)
  | sorting {step : Step} {i : SortItem} (item : step.sortItem? = some (.ok i)) :
      Does b step { b with sorting := b.sorting ++ [i] }

theorem attempt_eq_none {b : CriteriaBuilder} {next : Except Error CriteriaBuilder}
    (h : (b.attempt next).1 = none) : next = .ok (b.attempt next).2 := by
  cases next with
  | ok b' => rfl
  | error e => cases h

/-- A leaf of a builder is made like a leaf by itself, of the written form of the value. -/
theorem leafOf_eq_ok {c : ColumnArg} {operator : Option String} {v : Value} {f : Filter}
    (h : leafOf c operator v = .ok f) : (Target.column c).condition operator v = .ok f := by
  -- the value is looked at before the column here, and after it there; both succeed
  have hleaf : ∀ (o : Operator) (w : String), wordOf Operator.ofWord? w = .ok o → (do
      let raw ← Handle.rawOf v
      let path ← c.resolve
      .ok (.leaf path o raw)) = Except.ok f → (do
        let raw ← Handle.rawOf v
        LeafArgs.build ⟨c, w, raw.value⟩) = .ok f := by
    intro o w hw made
    obtain ⟨raw, hraw, made⟩ := bind_eq_ok_iff.mp made
    obtain ⟨path, hpath, made⟩ := bind_eq_ok_iff.mp made
    cases made
    rw [hraw, ok_bind, LeafArgs.build, hpath, ok_bind, hw, ok_bind, rawText,
      RawText.ofValue?_value]
    rfl
  cases operator with
  | none => exact hleaf .eq _ rfl h
  | some w =>
    obtain ⟨o, ho, h⟩ := bind_eq_ok_iff.mp h
    exact hleaf o w ho h

theorem does_closeGroup {b : CriteriaBuilder} (returned : b.closeGroup.1 = none) :
    Step.Does b .closeGroup b.closeGroup.2 := by
  rw [closeGroup] at returned ⊢
  split at returned
  · cases returned
  · next g gs hgroups =>
    split at returned
    · cases returned
    · -- a group that is closed has filters, and its parts make one
      next hne =>
      obtain ⟨f, hf, hadded⟩ := map_eq_ok_iff.mp (attempt_eq_none returned)
      rw [if_neg hne, ← hadded]
      exact .closing hgroups (fun hnil => hne (List.isEmpty_iff.mpr hnil)) hf

/-- **The step.** This is all that a call that returns can do. -/
theorem does_of_returned {b : CriteriaBuilder} {step : Step} (returned : step.error? b = none) :
    step.Does b (step.apply b) := by
  cases step with
  | filter target operator v =>
    have hnext := attempt_eq_none returned
    cases target with
    | filter f =>
      rw [Step.apply, withFilter, ← Except.ok.inj hnext]
      exact .condition rfl
    | column c =>
      obtain ⟨f, hf, hadded⟩ := map_eq_ok_iff.mp hnext
      rw [Step.apply, withFilter, ← hadded]
      exact .condition (leafOf_eq_ok hf)
  | openGroup k => exact .opening (o := .connective k) rfl
  | openQuantifier q c =>
    -- the call resolves its column at once, as the node will when the group is closed
    obtain ⟨path, hpath, hopened⟩ := map_eq_ok_iff.mp (attempt_eq_none returned)
    rw [Step.apply, openQuantifier, ← hopened]
    have hcolumn : NodeArgs.checkedColumn (.quantifier q) (some c) = .ok (some path) := by
      rw [NodeArgs.checkedColumn, hpath]
      rfl
    exact .opening (o := .quantifier q c) hcolumn
  | closeGroup => exact does_closeGroup returned
  | orderBy c direction =>
    -- the builder looks at the direction first and a sort item at the column; both are right here
    obtain ⟨d, hd, hnext⟩ := bind_eq_ok_iff.mp (attempt_eq_none returned)
    obtain ⟨path, hpath, hnext⟩ := bind_eq_ok_iff.mp hnext
    rw [Step.apply, orderBy, ← Except.ok.inj hnext]
    have hitem : SortItem.build c direction = .ok ⟨path, d⟩ := by
      rw [SortItem.build, hpath, ok_bind, hd]
      rfl
    exact .sorting (congrArg some hitem)
  | orderByItem i => exact .sorting rfl

theorem attempt_of_eq_some {b : CriteriaBuilder} {next : Except Error CriteriaBuilder} {e : Error}
    (h : (b.attempt next).1 = some e) : (b.attempt next).2 = b := by
  cases next with
  | ok b' => cases h
  | error e' => rfl

theorem closeGroup_of_failed {b : CriteriaBuilder} {e : Error} (failed : b.closeGroup.1 = some e) :
    b.closeGroup.2 = b ∨ ∃ g gs, b.groups = g :: gs ∧ b.closeGroup.2 = { b with groups := gs } := by
  rw [closeGroup] at failed ⊢
  split at failed
  · exact .inl rfl
  · next g gs hgroups =>
    refine .inr ⟨g, gs, hgroups, ?_⟩
    split at failed
    · next hempty => rw [if_pos hempty]
    · next hne =>
      -- the group is taken off before its node is made, and stays off when this fails
      rw [if_neg hne, attempt_of_eq_some failed]

/-- **A call that fails** leaves the builder as it was, or without the group that it was to
close. -/
theorem apply_of_failed {b : CriteriaBuilder} {step : Step} {e : Error}
    (failed : step.error? b = some e) :
    step.apply b = b ∨
      step = .closeGroup ∧ ∃ g gs, b.groups = g :: gs ∧ step.apply b = { b with groups := gs } := by
  cases step with
  | filter target operator v => exact .inl (attempt_of_eq_some failed)
  | openGroup k => cases failed
  | openQuantifier q c => exact .inl (attempt_of_eq_some failed)
  | closeGroup => exact (closeGroup_of_failed failed).imp_right fun hgone => ⟨rfl, hgone⟩
  | orderBy c direction => exact .inl (attempt_of_eq_some failed)
  | orderByItem i => cases failed

/-- What is left after a call of any outcome: what the call does, if it returns, and otherwise the
builder as it was. A group without conditions is gone when it has been closed, though this fails. -/
inductive Step.Leaves (b : CriteriaBuilder) : Step → CriteriaBuilder → Prop
  | returned {step : Step} {b' : CriteriaBuilder} (does : step.Does b b') : Leaves b step b'
  | refused {step : Step} : Leaves b step b
  | dropped {g : OpenGroup} {gs : List OpenGroup} (groups : b.groups = g :: gs) :
      Leaves b .closeGroup { b with groups := gs }

/-- **The step, of any outcome.** -/
theorem leaves_apply (b : CriteriaBuilder) (step : Step) : step.Leaves b (step.apply b) := by
  cases failed : step.error? b with
  | none => exact .returned (does_of_returned failed)
  | some e =>
    obtain hsame | ⟨rfl, g, gs, hgroups, hgone⟩ := apply_of_failed failed
    · rw [hsame]
      exact .refused
    · rw [hgone]
      exact .dropped hgroups

end CriteriaBuilder
end RecordQuery
