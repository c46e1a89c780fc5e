import Mathlib.Data.List.Forall2
import RecordQuery.Error

/-!
# Outcomes

A computation that may fail is a chain of steps, and it succeeds exactly when all of them do. The
lemmas here take such chains apart, so that no later proof looks into `bind` or `map`.

* `bind_eq_ok_iff`, `map_eq_ok_iff` — one step and what follows it;
* `mapM_eq_ok_iff` — the same step for all elements of a list.
* `Succeeds` — a computation that has a result.
* `FailAlike` — two computations with different results that fail together, in the same way.
* `Matched` — two such computations whose results are related.
* `Follows` — a computation that has a related result where another one has a result.
-/

namespace RecordQuery

variable {ε α β : Type}

theorem bind_eq_ok_iff {x : Except ε α} {f : α → Except ε β} {b : β} :
    x >>= f = .ok b ↔ ∃ a, x = .ok a ∧ f a = .ok b := by
  cases x with
  | error e => exact ⟨nofun, fun ⟨a, ha, _⟩ => nomatch ha⟩
  | ok a => exact ⟨fun h => ⟨a, rfl, h⟩, fun ⟨_, ha, h⟩ => Except.ok.inj ha ▸ h⟩

theorem map_eq_ok_iff {x : Except ε α} {f : α → β} {b : β} :
    x.map f = .ok b ↔ ∃ a, x = .ok a ∧ f a = b := by
  cases x with
  | error e => exact ⟨nofun, fun ⟨a, ha, _⟩ => nomatch ha⟩
  | ok a => exact ⟨fun h => ⟨a, rfl, Except.ok.inj h⟩, fun ⟨_, ha, h⟩ => by cases ha; rw [← h]; rfl⟩

@[simp] theorem ok_bind (a : α) (f : α → Except ε β) : Except.ok a >>= f = f a := rfl

theorem liftFault_bind (x : Except Fault α) (f : α → Except Fault β) :
    liftFault (x >>= f) = liftFault x >>= fun a => liftFault (f a) := by
  cases x <;> rfl

theorem liftFault_eq_ok_iff {x : Except Fault α} {a : α} : liftFault x = .ok a ↔ x = .ok a := by
  cases x with
  | ok b => exact ⟨fun h => congrArg _ (Except.ok.inj h), fun h => congrArg _ (Except.ok.inj h)⟩
  | error e => exact ⟨nofun, nofun⟩

/-- A step for all elements succeeds exactly when it does for each of them. -/
theorem mapM_eq_ok_iff {f : α → Except ε β} {as : List α} {bs : List β} :
    as.mapM f = .ok bs ↔ List.Forall₂ (fun a b => f a = .ok b) as bs := by
  induction as generalizing bs with
  | nil =>
    rw [List.mapM_nil, List.forall₂_nil_left_iff]
    exact ⟨fun h => (Except.ok.inj h).symm, fun h => by rw [h]; rfl⟩
  | cons a as ih =>
    rw [List.mapM_cons, bind_eq_ok_iff, List.forall₂_cons_left_iff]
    constructor
    · rintro ⟨b, hb, h⟩
      obtain ⟨rest, hrest, h⟩ := bind_eq_ok_iff.mp h
      exact ⟨b, rest, hb, ih.mp hrest, (Except.ok.inj h).symm⟩
    · rintro ⟨b, rest, hb, hrest, rfl⟩
      exact ⟨b, hb, bind_eq_ok_iff.mpr ⟨rest, ih.mpr hrest, rfl⟩⟩

/-- A step that goes back from what is made of each element gives the elements back. -/
theorem mapM_map_eq_ok_self_iff {f : α → β} {g : β → Except ε α} {as : List α} :
    (as.map f).mapM g = .ok as ↔ ∀ a ∈ as, g (f a) = .ok a := by
  rw [mapM_eq_ok_iff, List.forall₂_map_left_iff, List.forall₂_same]

/-- What stands in the second of two lists that are related one by one has a partner in the first. -/
theorem exists_of_mem_forall₂ {R : α → β → Prop} {as : List α} {bs : List β}
    (h : List.Forall₂ R as bs) {b : β} (hb : b ∈ bs) : ∃ a ∈ as, R a b := by
  induction h with
  | nil => cases hb
  | @cons a b' as bs hfirst _ ih =>
    obtain rfl | hb := List.mem_cons.mp hb
    · exact ⟨a, List.mem_cons_self, hfirst⟩
    · obtain ⟨a', ha', hrest⟩ := ih hb
      exact ⟨a', List.mem_cons_of_mem a ha', hrest⟩

theorem exists_of_mem_mapM {f : α → Except ε β} {as : List α} {bs : List β}
    (h : as.mapM f = .ok bs) {b : β} (hb : b ∈ bs) : ∃ a ∈ as, f a = .ok b :=
  exists_of_mem_forall₂ (mapM_eq_ok_iff.mp h) hb

/-! ### Success -/

/-- A computation has a result. -/
def Succeeds (x : Except ε α) : Prop := ∃ a, x = .ok a

theorem Succeeds.ok (a : α) : Succeeds (.ok a : Except ε α) := ⟨a, rfl⟩

theorem Succeeds.bind {x : Except ε α} {f : α → Except ε β} (hx : Succeeds x)
    (next : ∀ a, x = .ok a → Succeeds (f a)) : Succeeds (x >>= f) := by
  obtain ⟨a, rfl⟩ := hx
  exact next a rfl

theorem Succeeds.map {x : Except ε α} (hx : Succeeds x) (f : α → β) : Succeeds (x.map f) := by
  obtain ⟨a, rfl⟩ := hx
  exact .ok (f a)

/-- Two tests with an answer agree if they hold together. -/
theorem Succeeds.eq_iff {x y : Except ε Bool} (hx : Succeeds x) (hy : Succeeds y) :
    x = y ↔ (x = .ok true ↔ y = .ok true) := by
  obtain ⟨a, rfl⟩ := hx
  obtain ⟨b, rfl⟩ := hy
  cases a <;> cases b <;> simp

/-! ### Failing alike -/

variable {α' β' : Type}

/-- Two computations fail alike: both have a result, or both fail with the same error. -/
def FailAlike (x : Except ε α) (y : Except ε β) : Prop := x.map (fun _ => ()) = y.map fun _ => ()

theorem failAlike_iff {x : Except ε α} {y : Except ε β} :
    FailAlike x y ↔ ∀ e, x = .error e ↔ y = .error e := by
  unfold FailAlike
  cases x with
  | ok a =>
    cases y with
    | ok b => exact ⟨fun _ e => ⟨nofun, nofun⟩, fun _ => rfl⟩
    | error e' => exact ⟨nofun, fun h => nomatch (h e').mpr rfl⟩
  | error e =>
    cases y with
    | ok b => exact ⟨nofun, fun h => nomatch (h e).mp rfl⟩
    | error e' =>
      refine ⟨fun h e'' => ?_, fun h => ?_⟩
      · cases h
        exact ⟨fun h => by cases h; rfl, fun h => by cases h; rfl⟩
      · cases (h e).mp rfl
        rfl

theorem failAlike_of_map_eq {γ : Type} {x : Except ε α} {y : Except ε β} {f : α → γ} {g : β → γ}
    (h : x.map f = y.map g) : FailAlike x y := by
  cases x with
  | ok a =>
    cases y with
    | ok b => rfl
    | error e => cases h
  | error e =>
    cases y with
    | ok b => cases h
    | error e' =>
      cases h
      rfl

theorem FailAlike.exists_ok {x : Except ε α} {y : Except ε β} (h : FailAlike x y) {a : α}
    (hx : x = .ok a) : ∃ b, y = .ok b := by
  subst hx
  cases y with
  | ok b => exact ⟨b, rfl⟩
  | error e => cases h

/-- A computation fails like another one that is followed by the same steps. -/
theorem FailAlike.bind {x : Except ε α} {y : Except ε β} {f : α → Except ε α'}
    {g : β → Except ε β'} (h : FailAlike x y)
    (next : ∀ a b, x = .ok a → y = .ok b → FailAlike (f a) (g b)) :
    FailAlike (x >>= f) (y >>= g) := by
  cases x with
  | ok a =>
    cases y with
    | ok b => exact next a b rfl rfl
    | error e => cases h
  | error e =>
    cases y with
    | ok b => cases h
    | error e' =>
      cases h
      rfl

theorem FailAlike.map {x : Except ε α} {y : Except ε β} (h : FailAlike x y) (f : α → α')
    (g : β → β') : FailAlike (x.map f) (y.map g) :=
  h.bind (f := fun a => .ok (f a)) (g := fun b => .ok (g b)) fun _ _ _ _ => rfl

theorem FailAlike.map_left {x : Except ε α} {y : Except ε β} (h : FailAlike x y) (f : α → α') :
    FailAlike (x.map f) y := by
  cases x with
  | ok a => exact h
  | error e => exact h

/-! ### Related results -/

/-- Two computations match: they fail alike, and their results are related. -/
def Matched (R : α → β → Prop) (x : Except ε α) (y : Except ε β) : Prop :=
  FailAlike x y ∧ ∀ a b, x = .ok a → y = .ok b → R a b

theorem Matched.ok {R : α → β → Prop} {a : α} {b : β} (h : R a b) :
    Matched R (.ok a : Except ε α) (.ok b) :=
  ⟨rfl, fun _ _ ha hb => by cases ha; cases hb; exact h⟩

theorem Matched.bind {R : α → β → Prop} {S : α' → β' → Prop} {x : Except ε α} {y : Except ε β}
    {f : α → Except ε α'} {g : β → Except ε β'} (h : Matched R x y)
    (next : ∀ a b, R a b → Matched S (f a) (g b)) : Matched S (x >>= f) (y >>= g) := by
  refine ⟨h.1.bind fun a b ha hb => (next a b (h.2 a b ha hb)).1, fun a' b' ha' hb' => ?_⟩
  obtain ⟨a, ha, hfa⟩ := bind_eq_ok_iff.mp ha'
  obtain ⟨b, hb, hgb⟩ := bind_eq_ok_iff.mp hb'
  exact (next a b (h.2 a b ha hb)).2 a' b' hfa hgb

/-- Where the second of two computations that match has a result, the first one has a related
result. -/
theorem Matched.exists_left {R : α → β → Prop} {x : Except ε α} {y : Except ε β} (h : Matched R x y)
    {b : β} (hy : y = .ok b) : ∃ a, x = .ok a ∧ R a b := by
  have halike : FailAlike y x := Eq.symm h.1
  obtain ⟨a, ha⟩ := halike.exists_ok hy
  exact ⟨a, ha, h.2 a b ha hy⟩

/-- After computations that match, steps with the same outcome have the same outcome. -/
theorem Matched.bind_eq {R : α → β → Prop} {γ : Type} {x : Except ε α} {y : Except ε β}
    {f : α → Except ε γ} {g : β → Except ε γ} (h : Matched R x y)
    (next : ∀ a b, R a b → f a = g b) : x >>= f = y >>= g := by
  cases x with
  | ok a =>
    obtain ⟨b, rfl⟩ := h.1.exists_ok rfl
    exact next a b (h.2 a b rfl rfl)
  | error e =>
    rw [(failAlike_iff.mp h.1 e).mp rfl]
    rfl

/-! ### Following -/

/-- A second computation follows a first one: it has a related result where the first has a result.
Where the first one fails, nothing is said of the second. -/
def Follows (R : α → β → Prop) (x : Except ε α) (y : Except ε β) : Prop :=
  ∀ a, x = .ok a → ∃ b, y = .ok b ∧ R a b

namespace Follows

variable {R : α → β → Prop} {S : α' → β' → Prop} {x : Except ε α} {y : Except ε β}

theorem ok {a : α} {b : β} (h : R a b) : Follows R (.ok a : Except ε α) (.ok b) := by
  rintro _ ⟨⟩
  exact ⟨b, rfl, h⟩

theorem error (e : ε) : Follows R (.error e) y := nofun

theorem self (x : Except ε α) : Follows Eq x x := fun a ha => ⟨a, ha, rfl⟩

/-- Related steps after computations that follow each other do so, too. -/
theorem bind {f : α → Except ε α'} {g : β → Except ε β'} (h : Follows R x y)
    (next : ∀ a b, x = .ok a → R a b → Follows S (f a) (g b)) : Follows S (x >>= f) (y >>= g) := by
  intro c hc
  obtain ⟨a, ha, hfa⟩ := bind_eq_ok_iff.mp hc
  obtain ⟨b, rfl, hab⟩ := h a ha
  exact next a b ha hab c hfa

/-- After the same result, it is enough that the further steps follow each other. -/
theorem bind_eq {y : Except ε α} {f : α → Except ε α'} {g : α → Except ε β'} (h : Follows Eq x y)
    (next : ∀ a, Follows S (f a) (g a)) : Follows S (x >>= f) (y >>= g) := by
  refine h.bind ?_
  rintro a _ - rfl
  exact next a

theorem map {f : α → α'} {g : β → β'} (h : Follows R x y)
    (next : ∀ a b, R a b → S (f a) (g b)) : Follows S (x.map f) (y.map g) := by
  intro c hc
  obtain ⟨a, ha, rfl⟩ := map_eq_ok_iff.mp hc
  obtain ⟨b, rfl, hab⟩ := h a ha
  exact ⟨g b, rfl, next a b hab⟩

/-- A step for all elements follows another one, if it does for each of them. -/
theorem mapM {γ : Type} {as : List γ} {f : γ → Except ε α} {g : γ → Except ε β}
    (h : ∀ a ∈ as, Follows R (f a) (g a)) : Follows (List.Forall₂ R) (as.mapM f) (as.mapM g) := by
  induction as with
  | nil => exact .ok .nil
  | cons a as ih =>
    obtain ⟨ha, has⟩ := List.forall_mem_cons.mp h
    rw [List.mapM_cons, List.mapM_cons]
    refine ha.bind fun b c _ hbc => ?_
    exact (ih has).bind fun bs cs _ hbs => .ok (.cons hbc hbs)

theorem succeeds (h : Follows R x y) (hx : Succeeds x) : Succeeds y := by
  obtain ⟨a, ha⟩ := hx
  obtain ⟨b, hb, -⟩ := h a ha
  exact ⟨b, hb⟩

end Follows

end RecordQuery
