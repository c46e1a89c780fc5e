import RecordQuery.Predicate.Strategy

/-!
# Outlines

A condition compares with single values, and so it does not look into records: a record equals no
single value, whatever its members are and however they are called. Its outline is all that counts.

* `Value.outline` is a value in which all records are alike.
* `Value.equals_outline`, `Value.contains_outline` — tests against single values give the same
  answers on the outline.

Forms are another matter. The plain form of a record shows the names of its members, so tests of a
beginning or an end are about more than the outline.
-/

namespace RecordQuery.Value

/-- Whether the value is made of other values. -/
def isComposite : Value → Bool
  | list _ | tuple _ | set _ | frozenSet _ | map _ | record _ _ => true
  | _ => false

mutual

/-- The value with one and the same mapping in the place of every mapping and record in it. -/
def outline : Value → Value
  | map _ | record _ _ => map []
  | list xs => list (outlineAll xs)
  | tuple xs => tuple (outlineAll xs)
  | set xs => set (outlineAll xs)
  | frozenSet xs => frozenSet (outlineAll xs)
  | v => v
termination_by structural v => v

/-- The outlines of several values. -/
def outlineAll : List Value → List Value
  | [] => []
  | v :: vs => outline v :: outlineAll vs
termination_by structural vs => vs

end

variable {v w : Value}

theorem outline_of_not_isComposite (h : v.isComposite = false) : v.outline = v := by
  cases v <;> first | rfl | contradiction

@[simp] theorem isComposite_outline (v : Value) : v.outline.isComposite = v.isComposite := by
  cases v <;> rfl

@[simp] theorem outline_eq_null_iff : v.outline = null ↔ v = null := by
  cases v <;> simp [outline]

/-! ### Equality -/

theorem eq_eq_false (hv : v.isComposite = true) (hw : w.isComposite = false) :
    eq v w = .ok false := by
  have hscalar : eqScalar v.unwrapped w.unwrapped = .ok false := by
    cases v <;> first | contradiction | (cases w.unwrapped <;> rfl)
  rw [← hscalar]
  cases v <;> first | contradiction | (cases w <;> first | contradiction | rfl)

theorem eq_eq_false' (hv : v.isComposite = false) (hw : w.isComposite = true) :
    eq v w = .ok false := by
  have hscalar : eqScalar v.unwrapped w.unwrapped = .ok false := by
    cases w <;> first | contradiction | (cases v.unwrapped <;> rfl)
  rw [← hscalar]
  cases w <;> first | contradiction | (cases v <;> first | contradiction | rfl)

theorem eq_outline (hw : w.isComposite = false) : eq v.outline w = eq v w := by
  cases hv : v.isComposite with
  | true => rw [eq_eq_false hv hw, eq_eq_false ((isComposite_outline v).trans hv) hw]
  | false => rw [outline_of_not_isComposite hv]

theorem eq_outline_right (hv : v.isComposite = false) : eq v w.outline = eq v w := by
  cases hw : w.isComposite with
  | true => rw [eq_eq_false' hv hw, eq_eq_false' hv ((isComposite_outline w).trans hw)]
  | false => rw [outline_of_not_isComposite hw]

/-- **Equality with a single value** does not look into records. -/
theorem equals_outline (hw : w.isComposite = false) : equals v.outline w = equals v w := by
  cases hv : v.isComposite with
  | true =>
    -- only moments are aligned
    have halign : ∀ u : Value, u.isComposite = true → equals u w = eq u w := by
      intro u hu
      cases u <;> first | contradiction | rfl
    rw [halign v hv, halign v.outline ((isComposite_outline v).trans hv), eq_outline hw]
  | false => rw [outline_of_not_isComposite hv]

/-! ### Containment -/

theorem anyOk_congr {f g : Value → Except Fault Bool} :
    ∀ {vs : List Value}, (∀ v ∈ vs, f v = g v) → anyOk f vs = anyOk g vs
  | [], _ => rfl
  | v :: vs, h => by
    rw [List.forall_mem_cons] at h
    rw [anyOk, anyOk, h.1, anyOk_congr h.2]

theorem isIn_outlineAll (hw : w.isComposite = false) :
    ∀ vs : List Value, isIn w (outlineAll vs) = isIn w vs
  | [] => rfl
  | v :: vs => by
    have hrest := isIn_outlineAll hw vs
    rw [isIn, isIn] at hrest ⊢
    rw [outlineAll, anyOk, anyOk, hrest, eq_outline_right hw]

/-- A single value is not among values that are made of others. -/
private theorem isIn_eq_false (hw : w.isComposite = false) :
    ∀ {vs : List Value}, (∀ v ∈ vs, v.isComposite = true) → isIn w vs = .ok false
  | [], _ => rfl
  | v :: vs, h => by
    rw [List.forall_mem_cons] at h
    have hrest := isIn_eq_false hw h.2
    rw [isIn] at hrest ⊢
    rw [anyOk, eq_eq_false' hw h.1, hrest]
    rfl

/-- What a record can be gone through for are pairs, so it contains no single value. -/
private theorem contains_record (tag : RecordTag) (members : List (String × Option Value))
    (hw : w.isComposite = false) : contains (record tag members) w = .ok false := by
  have hequal : eq (record tag members) w = .ok false := eq_eq_false rfl hw
  obtain ⟨kind, owner, fields, rank⟩ := tag
  cases kind with
  | model =>
    obtain ⟨pairs, hpairs, hcontains⟩ : ∃ pairs : List Value,
        (∀ p ∈ pairs, p.isComposite = true) ∧
          contains (record ⟨.model, owner, fields, rank⟩ members) w = isIn w pairs := by
      -- a model is run through in pairs of name and value
      refine ⟨((present members).filter fun m => !isHidden m.1).map fun m =>
        tuple [text m.1, m.2], fun p hp => ?_, ?_⟩
      · obtain ⟨m, -, rfl⟩ := List.mem_map.mp hp
        rfl
      · cases w <;> first | contradiction | rfl
    rw [hcontains]
    exact isIn_eq_false hw hpairs
  | data | plain | mapped =>
    rw [← hequal]
    cases w <;> first | contradiction | rfl

private theorem contains_sequence (hw : w.isComposite = false) (vs : List Value) :
    contains (list vs) w = isIn w vs ∧ contains (tuple vs) w = isIn w vs := by
  constructor <;> cases w <;> first | contradiction | rfl

private theorem contains_set (hw : w.isComposite = false) (vs : List Value) :
    let found := if w.isHashable then isIn w vs else .error .unsupported
    contains (set vs) w = found ∧ contains (frozenSet vs) w = found := by
  constructor <;> cases w <;> first | contradiction | rfl

private theorem contains_map (entries : List (String × Value)) (hw : w.isComposite = false) :
    contains (map entries) w = .ok false := by
  have hequal : eq (map entries) w = .ok false := eq_eq_false rfl hw
  rw [← hequal]
  cases w <;> first | contradiction | rfl

/-- **Containment of a single value** does not look into records. -/
theorem contains_outline (hw : w.isComposite = false) : contains v.outline w = contains v w := by
  cases v with
  | map entries => rw [outline, contains_map [] hw, contains_map entries hw]
  | record tag members => rw [outline, contains_map [] hw, contains_record tag members hw]
  | list vs =>
    rw [outline, (contains_sequence hw _).1, (contains_sequence hw _).1, isIn_outlineAll hw]
  | tuple vs =>
    rw [outline, (contains_sequence hw _).2, (contains_sequence hw _).2, isIn_outlineAll hw]
  | set vs => rw [outline, (contains_set hw _).1, (contains_set hw _).1, isIn_outlineAll hw]
  | frozenSet vs => rw [outline, (contains_set hw _).2, (contains_set hw _).2, isIn_outlineAll hw]
  | _ => rfl

/-- **Containment of one of several single values** does not look into records either. -/
theorem contains_outline_list {ws : List Value} (hws : ∀ w ∈ ws, w.isComposite = false) :
    contains v.outline (list ws) = contains v (list ws) := by
  -- but for null, a list contains what is equal to one of its elements
  have hlist : ∀ u : Value, u ≠ null → contains u (list ws) = isIn u ws := by
    intro u hu
    cases u <;> first | contradiction | rfl
  cases hnull : v.isNull with
  | true =>
    cases v <;> first | contradiction | rfl
  | false =>
    have hv : v ≠ null := by
      rintro rfl
      contradiction
    rw [hlist v hv, hlist v.outline (mt outline_eq_null_iff.mp hv), isIn, isIn]
    exact anyOk_congr fun w hw => eq_outline (hws w hw)

end RecordQuery.Value
