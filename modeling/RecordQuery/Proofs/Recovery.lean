import RecordQuery.Proofs.Brackets

/-!
# Going on after a failure

Whoever uses a builder may catch the error of an operation and go on. What the operation has left
behind is then part of what is built later. An operation that fails leaves nothing behind, but for
one: a group without conditions cannot be closed, and is gone when this has been tried.

* `Operation` — a call, or an attempt to build; `after` is the builder after some operations, of
  which any may have failed.
* `Operation.ClosesEmpty` — the exception. `Operation.apply_of_failed` is the step: whatever else
  fails changes nothing. `Operation.ClosesEmpty.drops` says what the exception does.
* `foldl_returning` — the run: the operations that fail can be left out.
* `operations_atomic` — the results together; `operations_not_atomic` shows the exception at work.
-/

namespace RecordQuery
namespace CriteriaBuilder

/-! ### Operations -/

/-- What is done with a builder: a call, or an attempt to build the criteria. -/
inductive Operation where
  | call (step : Step)
  | build

namespace Operation

/-- The builder after an operation. Building leaves it as it is. -/
def apply (b : CriteriaBuilder) : Operation → CriteriaBuilder
  | call step => step.apply b
  | build => b

/-- The error that an operation fails with, if it does. -/
def error? (b : CriteriaBuilder) : Operation → Option Error
  | call step => step.error? b
  | build =>
    match b.build with
    | .ok _ => none
    | .error e => some e

/-- The operation closes a group that has no conditions. -/
def ClosesEmpty (b : CriteriaBuilder) (op : Operation) : Prop :=
  op = call .closeGroup ∧ b.InnermostEmpty

end Operation

/-- The builder after some operations. -/
def after (ops : List Operation) : CriteriaBuilder := ops.foldl Operation.apply empty

theorem after_append (ops rest : List Operation) :
    after (ops ++ rest) = rest.foldl Operation.apply (after ops) := List.foldl_append

/-- The operations that return, of some that are made one after the other. -/
def returning (b : CriteriaBuilder) : List Operation → List Operation
  | [] => []
  | op :: ops =>
    match op.error? b with
    | none => op :: returning (op.apply b) ops
    | some _ => returning (op.apply b) ops

/-- No group without conditions is closed. -/
def NoneClosesEmpty (b : CriteriaBuilder) (ops : List Operation) : Prop :=
  ∀ before op rest, ops = before ++ op :: rest → ¬ op.ClosesEmpty (before.foldl Operation.apply b)

/-! ### One operation -/

theorem Composes.operate {b : CriteriaBuilder} (hb : b.Composes) (op : Operation) :
    (op.apply b).Composes := by
  cases op with
  | call step => exact hb.apply step
  | build => exact hb

theorem composes_after (ops : List Operation) : (after ops).Composes := by
  induction ops using List.reverseRecOn with
  | nil => exact List.forall_mem_nil _
  | append_singleton ops op ih =>
    rw [after_append]
    exact ih.operate op

namespace Operation

variable {b : CriteriaBuilder} {op : Operation}

/-- **The step.** An operation that fails changes nothing, unless it closes a group without
conditions. -/
theorem apply_of_failed (hb : b.Composes) {e : Error} (failed : op.error? b = some e)
    (h : ¬ op.ClosesEmpty b) : op.apply b = b := by
  cases op with
  | build => rfl
  | call step =>
    obtain hsame | ⟨rfl, g, gs, hgroups, -⟩ := CriteriaBuilder.apply_of_failed failed
    · exact hsame
    · -- a group is open, and it cannot be its node that fails, so it has no conditions
      have hfails : Step.closeGroup.error? b ≠ none :=
        Option.ne_none_iff_exists'.mpr ⟨e, failed⟩
      obtain hnone | hempty := hb.closeGroup_fails_iff.mp hfails
      · cases hgroups.symm.trans hnone
      · exact absurd ⟨rfl, hempty⟩ h

/-- A group that is closed without conditions is taken off, and the operation fails. -/
theorem ClosesEmpty.drops (h : op.ClosesEmpty b) :
    op.error? b = some (.misuse .emptyGroup) ∧
      ∃ g gs, b.groups = g :: gs ∧ op.apply b = { b with groups := gs } := by
  obtain ⟨rfl, g, gs, hgroups, hnil⟩ := h
  have hempty : g.filters.isEmpty = true := List.isEmpty_iff.mpr hnil
  have hclosed : b.closeGroup = (some (.misuse .emptyGroup), { b with groups := gs }) := by
    rw [closeGroup, hgroups]
    exact if_pos hempty
  exact ⟨congrArg Prod.fst hclosed, g, gs, hgroups, congrArg Prod.snd hclosed⟩

end Operation

/-! ### Runs -/

theorem NoneClosesEmpty.first {b : CriteriaBuilder} {op : Operation} {ops : List Operation}
    (h : NoneClosesEmpty b (op :: ops)) : ¬ op.ClosesEmpty b :=
  h [] op ops rfl

theorem NoneClosesEmpty.rest {b : CriteriaBuilder} {op : Operation} {ops : List Operation}
    (h : NoneClosesEmpty b (op :: ops)) : NoneClosesEmpty (op.apply b) ops := by
  rintro before op' rest rfl
  exact h (op :: before) op' rest rfl

/-- **The run.** What fails on the way to a builder can be left out. -/
theorem foldl_returning {ops : List Operation} : ∀ {b : CriteriaBuilder}, b.Composes →
    NoneClosesEmpty b ops →
    (returning b ops).foldl Operation.apply b = ops.foldl Operation.apply b := by
  induction ops with
  | nil => exact fun _ _ => rfl
  | cons op ops ih =>
    intro b hb h
    have hnext := ih (hb.operate op) h.rest
    rw [returning]
    split
    · exact hnext
    · next e failed =>
      -- the operation is left out, and the builder is where it would be without it
      have hsame := Operation.apply_of_failed hb failed h.first
      rw [hsame] at hnext ⊢
      rw [hnext, List.foldl_cons, hsame]

end CriteriaBuilder

open CriteriaBuilder in
/-- **Operations are atomic**, but for one. Let a builder have been used in any way. An operation
that fails leaves its filters, its sort list and its open groups as they are, and the criteria that
are built later are those without the operation, unless it closes a group that has no conditions.
This always fails, and takes off the group and nothing else. Where it does not occur, all operations
that fail can be left out of a run. -/
theorem operations_atomic (ops : List Operation) (op : Operation) :
    (∀ e, op.error? (after ops) = some e → ¬ op.ClosesEmpty (after ops) →
      op.apply (after ops) = after ops ∧
        ∀ rest, (after (ops ++ op :: rest)).build = (after (ops ++ rest)).build) ∧
    (op.ClosesEmpty (after ops) →
      op.error? (after ops) = some (.misuse .emptyGroup) ∧
        ∃ g gs, (after ops).groups = g :: gs ∧ g.filters = [] ∧
          op.apply (after ops) = { after ops with groups := gs }) ∧
    (NoneClosesEmpty empty ops → after (returning empty ops) = after ops) := by
  refine ⟨fun e failed h => ?_, fun h => ?_, foldl_returning (composes_after [])⟩
  · -- what comes later starts from the same state
    have hsame := Operation.apply_of_failed (composes_after ops) failed h
    refine ⟨hsame, fun rest => ?_⟩
    rw [after_append, List.foldl_cons, hsame, after_append]
  · obtain ⟨herror, g, gs, hgroups, hdropped⟩ := h.drops
    obtain ⟨-, g', gs', hgroups', hnil⟩ := h
    cases hgroups.symm.trans hgroups'
    exact ⟨herror, g, gs, hgroups, hnil, hdropped⟩

open CriteriaBuilder in
/-- A value with a stray parenthesis is refused between two alternatives, which are built as if it
had not been tried; a group that is closed at once is gone. -/
theorem operations_atomic_of_names :
    let name (v : String) : Operation := .call (.filter (.column (.text "name")) none (.text v))
    let opened : List Operation := [.call (.openGroup .or), name "a"]
    let column : ColumnPath := ⟨["name"], by decide, by decide⟩
    let criteria : Criteria :=
      ⟨[.group .or [.leaf column .eq (.plain "a"), .leaf column .eq (.plain "b")]], []⟩
    (∃ e, (name "b)").error? (after opened) = some e) ∧
      ¬ (name "b)").ClosesEmpty (after opened) ∧
      (name "b)").apply (after opened) = after opened ∧
      (after (opened ++ name "b)" :: [name "b", .call .closeGroup])).build = .ok criteria ∧
      (Operation.call .closeGroup).ClosesEmpty (after [.call (.openGroup .or)]) ∧
      (∃ g gs, (after [.call (.openGroup .or)]).groups = g :: gs ∧ g.filters = []) ∧
      NoneClosesEmpty empty [name "b)", name "b"] ∧
      after (returning empty [name "b)", name "b"]) = after [name "b)", name "b"] := by
  intro name opened column criteria
  have hother : ¬ (name "b)").ClosesEmpty (after opened) := by
    rintro ⟨hclose, -⟩
    cases hclose
  have hempty : (Operation.call .closeGroup).ClosesEmpty (after [.call (.openGroup .or)]) :=
    ⟨rfl, _, _, rfl, rfl⟩
  -- no group is closed where names are compared only
  have hnone : NoneClosesEmpty empty [name "b)", name "b"] := by
    rintro before op rest hsplit ⟨rfl, -⟩
    have hclose : Operation.call .closeGroup ∈ [name "b)", name "b"] :=
      hsplit ▸ List.mem_append_right before List.mem_cons_self
    rcases hclose with _ | ⟨_, _ | ⟨_, ⟨⟩⟩⟩
  obtain ⟨hkept, -, -⟩ := operations_atomic opened (name "b)")
  obtain ⟨hsame, hbuilt⟩ := hkept _ rfl hother
  obtain ⟨-, hdropped, -⟩ := operations_atomic [.call (.openGroup .or)] (.call .closeGroup)
  obtain ⟨-, g, gs, hgroups, hnil, -⟩ := hdropped hempty
  obtain ⟨-, -, hrun⟩ := operations_atomic [name "b)", name "b"] .build
  exact ⟨⟨_, rfl⟩, hother, hsame, hbuilt _, hempty, ⟨g, gs, hgroups, hnil⟩, hnone, hrun hnone⟩

open CriteriaBuilder in
/-- After a group has been closed in vain, a condition that is meant for it stands alone, and
closing it again does not help. Without the first attempt the condition is built as the group. -/
theorem operations_not_atomic :
    let close : Operation := .call .closeGroup
    let opened : List Operation := [.call (.openGroup .or)]
    let rest : List Operation := [.call (.filter (.column (.text "name")) none (.text "a")), close]
    let leaf : Filter := .leaf ⟨["name"], by decide, by decide⟩ .eq (.plain "a")
    close.error? (after opened) = some (.misuse .emptyGroup) ∧
      close.apply (after opened) ≠ after opened ∧
      (after (opened ++ close :: rest)).build = .ok ⟨[leaf], []⟩ ∧
      (after (opened ++ rest)).build = .ok ⟨[.group .or [leaf]], []⟩ := by
  intro close opened rest leaf
  refine ⟨rfl, fun hsame => ?_, rfl, rfl⟩
  -- before the call a group is open, and after it none
  cases congrArg (·.groups.length) hsame

end RecordQuery
