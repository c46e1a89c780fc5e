import RecordQuery.Proofs.Members
import RecordQuery.Proofs.Sorting.Stable
import RecordQuery.Sort.Key

/-!
# Sort lists order lexicographically

Records are sorted once for every key of a sort list, by the last key first. Every sort is stable,
so what the later keys have ordered survives among the records that an earlier key does not tell
apart. By induction on the keys the records are ordered by the first key that tells them apart, and
those that no key tells apart stand as they did.

* `Value.TotallyOrdered` — values that are put into a strict total order, up to equality.
* `Value.TotallyOrdered.decidesOrder` — such values and null are put in order by a key's test.
* `SortKey.inOrder` — the order of a list of keys, each in its own direction.
* `SortKey.exists_sort`, `SortKey.exists_sortBy` — the step of one key, and all of them.
* `applySorting_lexicographic` — the result for sort lists.
-/

namespace RecordQuery

/-! ### The order of values -/

namespace Value

/-- The values with a property are comparable, under a strict total order that is consistent with
equality. -/
structure TotallyOrdered (P : Value → Prop) : Prop where
  eq_refl {v : Value} : P v → v.eq v = .ok true
  eq_symm {v w : Value} : P v → P w → v.eq w = .ok true → w.eq v = .ok true
  eq_trans {u v w : Value} : P u → P v → P w → u.eq v = .ok true → v.eq w = .ok true →
    u.eq w = .ok true
  ne_of_lt {v w : Value} : P v → P w → v.orders .lt w = .ok true → v.eq w = .ok false
  lt_trans {u v w : Value} : P u → P v → P w → u.orders .lt v = .ok true →
    v.orders .lt w = .ok true → u.orders .lt w = .ok true
  /-- Of two values that are not equal one is less than the other, but not the other way. -/
  comparable {v w : Value} : P v → P w → v.eq w = .ok true ∨ v.eq w = .ok false ∧
    (v.orders .lt w = .ok true ∧ w.orders .lt v = .ok false ∨
      v.orders .lt w = .ok false ∧ w.orders .lt v = .ok true)

/-- Whether a value stands before another one in ascending order, where null comes first. -/
def comesBefore : Value → Value → Bool
  | null, w => !w.isNull
  | _, null => false
  | v, w => decide (v.orders .lt w = .ok true)

/-- Whether the order of values does not tell two values apart: they are equal, or both are null. -/
def standsWith : Value → Value → Bool
  | null, w => w.isNull
  | _, null => false
  | v, w => decide (v.eq w = .ok true)

variable {P : Value → Prop} {u v w : Value}

theorem eq_null_or (v : Value) : v = null ∨ v.isNull = false := by
  cases v
  case null => exact .inl rfl
  all_goals exact .inr rfl

theorem comesBefore_null (v : Value) : v.comesBefore null = false := by
  obtain rfl | hv := v.eq_null_or
  · rfl
  · unfold comesBefore
    split
    · cases hv
    · rfl
    · next hnull => exact absurd rfl hnull

theorem comesBefore_iff (hv : v.isNull = false) (hw : w.isNull = false) :
    v.comesBefore w = true ↔ v.orders .lt w = .ok true := by
  unfold comesBefore
  split
  · cases hv
  · cases hw
  · exact decide_eq_true_iff

theorem standsWith_null (v : Value) : v.standsWith null = v.isNull := by
  cases v <;> rfl

theorem standsWith_iff (hv : v.isNull = false) (hw : w.isNull = false) :
    v.standsWith w = true ↔ v.eq w = .ok true := by
  unfold standsWith
  split
  · cases hv
  · cases hw
  · exact decide_eq_true_iff

namespace TotallyOrdered

theorem mono {Q : Value → Prop} (h : TotallyOrdered P) (hPQ : ∀ v, Q v → P v) :
    TotallyOrdered Q where
  eq_refl hv := h.eq_refl (hPQ _ hv)
  eq_symm hv hw := h.eq_symm (hPQ _ hv) (hPQ _ hw)
  eq_trans hu hv hw := h.eq_trans (hPQ _ hu) (hPQ _ hv) (hPQ _ hw)
  ne_of_lt hv hw := h.ne_of_lt (hPQ _ hv) (hPQ _ hw)
  lt_trans hu hv hw := h.lt_trans (hPQ _ hu) (hPQ _ hv) (hPQ _ hw)
  comparable hv hw := h.comparable (hPQ _ hv) (hPQ _ hw)

theorem not_lt_of_eq (h : TotallyOrdered P) (hv : P v) (hw : P w) (heq : v.eq w = .ok true) :
    v.orders .lt w ≠ .ok true := by
  intro hlt
  cases heq.symm.trans (h.ne_of_lt hv hw hlt)

theorem not_lt_of_lt (h : TotallyOrdered P) (hv : P v) (hw : P w)
    (hlt : v.orders .lt w = .ok true) : w.orders .lt v ≠ .ok true := by
  intro hback
  exact h.not_lt_of_eq hv hv (h.eq_refl hv) (h.lt_trans hv hw hv hlt hback)

theorem eq_or_lt (h : TotallyOrdered P) (hv : P v) (hw : P w) (hnot : v.orders .lt w ≠ .ok true) :
    v.eq w = .ok true ∨ w.orders .lt v = .ok true := by
  obtain heq | ⟨-, ⟨hlt, -⟩ | ⟨-, hgt⟩⟩ := h.comparable hv hw
  · exact .inl heq
  · exact absurd hlt hnot
  · exact .inr hgt

theorem not_lt_trans (h : TotallyOrdered P) (hu : P u) (hv : P v) (hw : P w)
    (huv : u.orders .lt v ≠ .ok true) (hvw : v.orders .lt w ≠ .ok true) :
    u.orders .lt w ≠ .ok true := by
  intro hlt
  obtain huv | hvu := h.eq_or_lt hu hv huv
  · obtain hvw | hwv := h.eq_or_lt hv hw hvw
    · exact h.not_lt_of_eq hu hw (h.eq_trans hu hv hw huv hvw) hlt
    · exact h.not_lt_of_eq hu hv huv (h.lt_trans hu hw hv hlt hwv)
  · exact hvw (h.lt_trans hv hu hw hvu hlt)

theorem eq_iff_not_lt (h : TotallyOrdered P) (hv : P v) (hw : P w) :
    v.eq w = .ok true ↔ v.orders .lt w ≠ .ok true ∧ w.orders .lt v ≠ .ok true := by
  constructor
  · intro heq
    exact ⟨h.not_lt_of_eq hv hw heq, h.not_lt_of_eq hw hv (h.eq_symm hv hw heq)⟩
  · rintro ⟨hnot, hback⟩
    exact (h.eq_or_lt hv hw hnot).resolve_right hback

end TotallyOrdered

/-! ### Null among ordered values -/

section WithNull

variable (h : TotallyOrdered fun v => v.isNull = false ∧ P v)
include h

theorem TotallyOrdered.less_eq (hv : P v) (hw : P w) :
    SortKey.less v w = .ok (v.comesBefore w) := by
  unfold SortKey.less
  split
  · rfl
  · rw [comesBefore_null]
  · next hnv hnw =>
    have hnv : v.isNull = false := v.eq_null_or.resolve_left hnv
    have hnw : w.isNull = false := w.eq_null_or.resolve_left hnw
    have hbefore := comesBefore_iff hnv hnw
    -- of two values that are not null one is equal, smaller or greater
    obtain heq | ⟨hne, ⟨hlt, -⟩ | ⟨hnot, -⟩⟩ := h.comparable ⟨hnv, hv⟩ ⟨hnw, hw⟩
    · have hnot := mt hbefore.mp (h.not_lt_of_eq ⟨hnv, hv⟩ ⟨hnw, hw⟩ heq)
      rw [heq, Bool.of_not_eq_true hnot]
      rfl
    · rw [hne, hbefore.mpr hlt]
      exact hlt
    · have hfalse : v.comesBefore w = false := by
        rw [← Bool.not_eq_true, hbefore, hnot]
        exact nofun
      rw [hne, hfalse]
      exact hnot

theorem TotallyOrdered.comesBefore_asymm (hv : P v) (hw : P w) (hlt : v.comesBefore w = true) :
    w.comesBefore v = false := by
  obtain rfl | hnv := v.eq_null_or
  · exact comesBefore_null w
  obtain rfl | hnw := w.eq_null_or
  · exact absurd ((comesBefore_null v).symm.trans hlt) Bool.false_ne_true
  rw [comesBefore_iff hnv hnw] at hlt
  rw [← Bool.not_eq_true, comesBefore_iff hnw hnv]
  exact h.not_lt_of_lt ⟨hnv, hv⟩ ⟨hnw, hw⟩ hlt

theorem TotallyOrdered.not_comesBefore_trans (hu : P u) (hv : P v) (hw : P w)
    (huv : u.comesBefore v = false) (hvw : v.comesBefore w = false) : u.comesBefore w = false := by
  obtain rfl | hnw := w.eq_null_or
  · exact comesBefore_null u
  -- null is before every other value, so neither of the values before this one is null
  have hnv : v.isNull = false := by
    refine v.eq_null_or.resolve_left ?_
    rintro rfl
    exact Bool.false_ne_true (hvw.symm.trans (congrArg not hnw))
  have hnu : u.isNull = false := by
    refine u.eq_null_or.resolve_left ?_
    rintro rfl
    exact Bool.false_ne_true (huv.symm.trans (congrArg not hnv))
  rw [← Bool.not_eq_true, comesBefore_iff hnu hnv] at huv
  rw [← Bool.not_eq_true, comesBefore_iff hnv hnw] at hvw
  rw [← Bool.not_eq_true, comesBefore_iff hnu hnw]
  exact h.not_lt_trans ⟨hnu, hu⟩ ⟨hnv, hv⟩ ⟨hnw, hw⟩ huv hvw

/-- The values that the order does not tell apart are those neither of which comes before. -/
theorem TotallyOrdered.tied_eq_standsWith (hv : P v) (hw : P w) :
    tied comesBefore v w = v.standsWith w := by
  -- nulls are tied with nulls only
  obtain rfl | hnv := v.eq_null_or
  · rw [tied, comesBefore_null]
    show (!(!w.isNull) && true) = w.isNull
    rw [Bool.not_not, Bool.and_true]
  obtain rfl | hnw := w.eq_null_or
  · rw [tied, comesBefore_null, standsWith_null]
    show (true && !(!v.isNull)) = v.isNull
    rw [Bool.not_not, Bool.true_and]
  rw [Bool.eq_iff_iff, tied_iff, standsWith_iff hnv hnw, ← Bool.not_eq_true, ← Bool.not_eq_true,
    comesBefore_iff hnv hnw, comesBefore_iff hnw hnv]
  exact (h.eq_iff_not_lt ⟨hnv, hv⟩ ⟨hnw, hw⟩).symm

/-- **A key's test puts values in order**, null before all others. -/
theorem TotallyOrdered.decidesOrder : DecidesOrder P SortKey.less comesBefore where
  answers := h.less_eq
  asymm := h.comesBefore_asymm
  le_trans := h.not_comesBefore_trans

end WithNull

/-- Integers are totally ordered. -/
theorem totallyOrdered_int : TotallyOrdered fun v => ∃ n, v = int n := by
  have heq : ∀ m n : Int, (int m).eq (int n) = .ok (m == n) := fun _ _ => rfl
  have hlt : ∀ m n : Int, (int m).orders .lt (int n) = .ok (Ord.compare m n == .lt) :=
    fun _ _ => rfl
  have heq_iff : ∀ m n : Int, (int m).eq (int n) = .ok true ↔ m = n := by
    intro m n
    rw [heq, Except.ok.injEq, beq_iff_eq]
  have hlt_iff : ∀ m n : Int, (int m).orders .lt (int n) = .ok true ↔ m < n := by
    intro m n
    rw [hlt, Except.ok.injEq, beq_iff_eq]
    exact Int.compare_eq_lt
  -- all that is left are facts about integers
  constructor
  case eq_refl =>
    rintro _ ⟨n, rfl⟩
    exact (heq_iff n n).mpr rfl
  case eq_symm =>
    rintro _ _ ⟨m, rfl⟩ ⟨n, rfl⟩ h
    exact (heq_iff n m).mpr ((heq_iff m n).mp h).symm
  case eq_trans =>
    rintro _ _ _ ⟨l, rfl⟩ ⟨m, rfl⟩ ⟨n, rfl⟩ hlm hmn
    exact (heq_iff l n).mpr (((heq_iff l m).mp hlm).trans ((heq_iff m n).mp hmn))
  case ne_of_lt =>
    rintro _ _ ⟨m, rfl⟩ ⟨n, rfl⟩ h
    rw [heq, beq_false_of_ne (Int.ne_of_lt ((hlt_iff m n).mp h))]
  case lt_trans =>
    rintro _ _ _ ⟨l, rfl⟩ ⟨m, rfl⟩ ⟨n, rfl⟩ hlm hmn
    exact (hlt_iff l n).mpr (Int.lt_trans ((hlt_iff l m).mp hlm) ((hlt_iff m n).mp hmn))
  case comparable =>
    rintro _ _ ⟨m, rfl⟩ ⟨n, rfl⟩
    have hnot : ∀ {a b : Int}, a < b → (int b).orders .lt (int a) = .ok false := by
      intro a b hab
      have hback := mt (hlt_iff b a).mp (Int.lt_asymm hab)
      rw [hlt] at hback ⊢
      exact congrArg _ (Bool.of_not_eq_true (mt (congrArg _) hback))
    rw [heq_iff, heq, Except.ok.injEq, beq_eq_false_iff_ne]
    obtain hmn | rfl | hnm := Int.lt_trichotomy m n
    · exact .inr ⟨Int.ne_of_lt hmn, .inl ⟨(hlt_iff m n).mpr hmn, hnot hmn⟩⟩
    · exact .inl rfl
    · exact .inr ⟨Int.ne_of_gt hnm, .inr ⟨hnot hnm, (hlt_iff n m).mpr hnm⟩⟩

end Value

/-! ### Keys -/

namespace SortKey

/-- The value of a key's column in a record. -/
def value (s : Schema) (key : SortKey) (record : Value) : Value :=
  (s.read key.nullGuard key.column record).toOption.getD .null

/-- Whether a record stands before another one in the direction of a key. -/
def before (s : Schema) (key : SortKey) (v w : Value) : Bool :=
  if key.descending then (key.value s w).comesBefore (key.value s v)
  else (key.value s v).comesBefore (key.value s w)

/-- Whether two records have equal values under a key. -/
def agree (s : Schema) (key : SortKey) (v w : Value) : Bool :=
  (key.value s v).standsWith (key.value s w)

/-- Whether two records are in the lexicographic order of some keys: the first key that tells them
apart decides. -/
def inOrder (s : Schema) : List SortKey → Value → Value → Bool
  | [], _, _ => true
  | key :: keys, v, w => key.before s v w || key.agree s v w && inOrder s keys v w

/-- Whether no key tells two records apart. -/
def agreeOnAll (s : Schema) (keys : List SortKey) (v w : Value) : Bool :=
  keys.all fun key => key.agree s v w

variable {α : Type} {s : Schema} {key : SortKey} {record : α → Value} {as : List α}

/-- The records with the values of a key that can be read. -/
theorem keyed_eq (h : ∀ a ∈ as,
    s.read key.nullGuard key.column (record a) = .ok (key.value s (record a))) :
    keyed s key record as = .ok (as.map fun a => (key.value s (record a), a)) := by
  refine mapM_eq_ok_iff.mpr ?_
  rw [List.forall₂_map_right_iff, List.forall₂_same]
  intro a ha
  rw [h a ha]
  rfl

variable (s key record as) in
theorem forall_keyed : ∀ p ∈ as.map fun a => (key.value s (record a), a),
    p.2 ∈ as ∧ p.1 = key.value s (record p.2) := by
  intro p hp
  obtain ⟨a, ha, rfl⟩ := List.mem_map.mp hp
  exact ⟨ha, rfl⟩

variable (s key record as) in
theorem map_snd_keyed : (as.map fun a => (key.value s (record a), a)).map Prod.snd = as := by
  rw [List.map_map]
  exact List.map_id as

/-- A key can be read on some records, and its values other than null are totally ordered. -/
structure Sortable (s : Schema) (key : SortKey) (record : α → Value) (as : List α) : Prop where
  reads : ∀ a ∈ as, ∃ v, s.read key.nullGuard key.column (record a) = .ok v
  ordered : Value.TotallyOrdered fun v =>
    v.isNull = false ∧ ∃ a ∈ as, s.read key.nullGuard key.column (record a) = .ok v

theorem Sortable.perm (h : key.Sortable s record as) {bs : List α} (hperm : bs.Perm as) :
    key.Sortable s record bs where
  reads := fun a ha => h.reads a (hperm.mem_iff.mp ha)
  ordered := h.ordered.mono fun _ ⟨hnull, a, ha, hread⟩ => ⟨hnull, a, hperm.mem_iff.mp ha, hread⟩

theorem Sortable.read_eq (h : key.Sortable s record as) {a : α} (ha : a ∈ as) :
    s.read key.nullGuard key.column (record a) = .ok (key.value s (record a)) := by
  obtain ⟨v, hv⟩ := h.reads a ha
  rw [value, hv]
  rfl

/-- Records with the values of a key are put in order by these values. -/
theorem Sortable.decidesOrder (h : key.Sortable s record as) :
    DecidesOrder (fun p => p.2 ∈ as ∧ p.1 = key.value s (record p.2))
      (fun p q : Value × α => less p.1 q.1)
      (fun p q => (key.value s (record p.2)).comesBefore (key.value s (record q.2))) := by
  have hvalues := h.ordered.decidesOrder
  have hvalue : ∀ {a}, a ∈ as → ∃ b ∈ as, s.read key.nullGuard key.column (record b) =
      .ok (key.value s (record a)) := fun {a} ha => ⟨a, ha, h.read_eq ha⟩
  -- keys are compared instead of elements, each with the key that was read for it
  constructor
  case answers =>
    rintro p q ⟨hp, hpvalue⟩ ⟨hq, hqvalue⟩
    rw [hpvalue, hqvalue]
    exact hvalues.answers (hvalue hp) (hvalue hq)
  case asymm =>
    rintro p q ⟨hp, -⟩ ⟨hq, -⟩ hlt
    exact hvalues.asymm (hvalue hp) (hvalue hq) hlt
  case le_trans =>
    rintro p q r ⟨hp, -⟩ ⟨hq, -⟩ ⟨hr, -⟩ hpq hqr
    exact hvalues.le_trans (hvalue hp) (hvalue hq) (hvalue hr) hpq hqr

/-- The records that a key does not tell apart are those neither of which it puts before the
other, in either direction. -/
theorem Sortable.tied_eq_agree (h : key.Sortable s record as) {a b : α} (ha : a ∈ as)
    (hb : b ∈ as) :
    tied (fun a b => key.before s (record a) (record b)) a b =
      key.agree s (record a) (record b) := by
  have htied := h.ordered.tied_eq_standsWith ⟨a, ha, h.read_eq ha⟩ ⟨b, hb, h.read_eq hb⟩
  unfold before agree
  rw [← htied]
  cases key.descending with
  | true => exact Bool.and_comm _ _
  | false => rfl

theorem Sortable.not_before_self (h : key.Sortable s record as) {a : α} (ha : a ∈ as) :
    key.before s (record a) (record a) = false := by
  have hself := h.ordered.decidesOrder.irrefl ⟨a, ha, h.read_eq ha⟩
  unfold before
  rw [hself, ite_self]

/-- **One key.** Sorting by a key succeeds, and is stable in the key's direction. -/
theorem exists_sort (h : key.Sortable s record as) :
    ∃ out, sort s key record as = .ok out ∧
      StablySorted (· ∈ as) (fun a b => key.before s (record a) (record b)) as out := by
  have hkeyed := keyed_eq fun a ha => h.read_eq ha
  have hpairs := forall_keyed s key record as
  -- what is sorted with the values beside it is sorted without them
  have hforget : ∀ {lt : α → α → Bool} {out : List (Value × α)},
      StablySorted (fun p => p.2 ∈ as ∧ p.1 = key.value s (record p.2)) (fun p q => lt p.2 q.2)
        (as.map fun a => (key.value s (record a), a)) out →
      StablySorted (· ∈ as) lt as (out.map Prod.snd) := by
    intro lt out hsorted
    have hmapped := hsorted.map (Q := (· ∈ as)) fun a ha =>
      ⟨(key.value s (record a), a), ⟨ha, rfl⟩, rfl⟩
    rwa [map_snd_keyed] at hmapped
  cases hdescending : key.descending with
  | true =>
    obtain ⟨out, hout, hsorted⟩ := h.decidesOrder.exists_stableSortDescending hpairs
    refine ⟨out.map Prod.snd, ?_, ?_⟩
    · simp only [sort, hkeyed, ok_bind, hdescending, if_true, hout]
    · simp only [before, hdescending, if_true]
      exact hforget hsorted
  | false =>
    obtain ⟨out, hout, hsorted⟩ := h.decidesOrder.exists_stableSort hpairs
    refine ⟨out.map Prod.snd, ?_, ?_⟩
    · simp only [sort, hkeyed, ok_bind, hdescending, Bool.false_eq_true, if_false, hout]
    · simp only [before, hdescending, Bool.false_eq_true, if_false]
      exact hforget hsorted

/-- **All keys.** Sorting by several keys succeeds. Its result is in lexicographic order, and the
records that no key tells apart stand as they did. -/
theorem exists_sortBy : ∀ {keys : List SortKey}, (∀ key ∈ keys, key.Sortable s record as) →
    ∃ out, sortBy s record keys as = .ok out ∧ out.Perm as ∧
      out.Pairwise (fun a b => inOrder s keys (record a) (record b) = true) ∧
      ∀ a ∈ as, out.filter (fun b => agreeOnAll s keys (record a) (record b)) =
        as.filter fun b => agreeOnAll s keys (record a) (record b)
  | [], _ => ⟨as, rfl, .refl as, List.pairwise_of_forall fun _ _ => rfl, fun _ _ => rfl⟩
  | key :: keys, h => by
    obtain ⟨hkey, hkeys⟩ := List.forall_mem_cons.mp h
    obtain ⟨mid, hmid, hperm, hordered, hkept⟩ := exists_sortBy hkeys
    have hkey := hkey.perm hperm
    obtain ⟨out, hout, hsorted⟩ := exists_sort hkey
    have hagree : ∀ {a b}, a ∈ mid → b ∈ mid → tied (fun a b => key.before s (record a) (record b))
        a b = key.agree s (record a) (record b) := hkey.tied_eq_agree
    refine ⟨out, ?_, hsorted.perm.trans hperm, ?_, fun a ha => ?_⟩
    · rw [sortBy, hmid]
      exact hout
    · -- the earlier order survives among the records that this key does not tell apart
      have hirrefl : ∀ a ∈ mid, key.before s (record a) (record a) = false := fun a ha =>
        hkey.not_before_self ha
      have hlex := hsorted.pairwise_lex hirrefl (fun _ ha => ha) hordered
      refine hlex.imp_of_mem fun {a b} ha hb hab => ?_
      rw [hagree (hsorted.perm.mem_iff.mp ha) (hsorted.perm.mem_iff.mp hb)] at hab
      rw [inOrder, Bool.or_eq_true, Bool.and_eq_true]
      exact hab
    · have ha : a ∈ mid := hperm.mem_iff.mpr ha
      have hstable : out.filter (fun b => key.agree s (record a) (record b)) =
          mid.filter fun b => key.agree s (record a) (record b) := by
        have hcongr : ∀ bs : List α, (∀ b ∈ bs, b ∈ mid) →
            bs.filter (tied (fun a b => key.before s (record a) (record b)) a) =
              bs.filter fun b => key.agree s (record a) (record b) := fun bs hbs =>
          List.filter_congr fun b hb => hagree ha (hbs b hb)
        rw [← hcongr out fun b hb => hsorted.perm.mem_iff.mp hb, ← hcongr mid fun _ hb => hb]
        exact hsorted.stable ha
      calc out.filter (fun b => agreeOnAll s (key :: keys) (record a) (record b))
          = (out.filter fun b => key.agree s (record a) (record b)).filter fun b =>
              agreeOnAll s keys (record a) (record b) := by
            rw [List.filter_filter]
            simp only [agreeOnAll, List.all_cons, Bool.and_comm]
        _ = (mid.filter fun b => agreeOnAll s keys (record a) (record b)).filter fun b =>
              key.agree s (record a) (record b) := by
            rw [hstable, List.filter_filter, List.filter_filter]
            simp only [Bool.and_comm]
        _ = as.filter fun b => agreeOnAll s (key :: keys) (record a) (record b) := by
            rw [hkept a (hperm.mem_iff.mp ha), List.filter_filter]
            simp only [agreeOnAll, List.all_cons]

end SortKey

/-! ### Sort lists -/

theorem SortItem.checked_eq_ok_iff {i : SortItem} {column column' : ResolvedColumn} :
    i.checked column = .ok column' ↔ column.isCollection = false ∧ column' = column := by
  rw [SortItem.checked]
  split
  · next h =>
    rw [h]
    exact ⟨nofun, nofun⟩
  · next h =>
    rw [Except.ok.injEq]
    exact ⟨fun hsame => ⟨Bool.of_not_eq_true h, hsame.symm⟩, fun hsame => hsame.2.symm⟩

/-- A key is an item of a sort list, resolved to a column that is no collection. -/
structure SortItem.CompilesTo (s : Schema) (options : Options) (type : TypeExpr) (i : SortItem)
    (key : SortKey) : Prop where
  column : s.resolve options.fallback type i.column = .ok key.column
  single : key.column.isCollection = false
  direction : key.descending = i.descending
  guard : key.nullGuard = options.nullGuard

theorem compileSorting_eq_ok_iff {s : Schema} {options : Options} {type : TypeExpr}
    {items : List SortItem} {keys : List SortKey} :
    compileSorting s options type items = .ok keys ↔
      List.Forall₂ (SortItem.CompilesTo s options type) items keys := by
  -- the items are compiled one by one
  have hone : ∀ (i : SortItem) (key : SortKey), (do
      let column ← s.resolve options.fallback type i.column
      let column ← i.checked column
      (.ok ⟨column, i.descending, options.nullGuard⟩ : Except Error SortKey)) = .ok key ↔
        SortItem.CompilesTo s options type i key := by
    intro i key
    rw [bind_eq_ok_iff]
    constructor
    · rintro ⟨column, hcolumn, h⟩
      obtain ⟨checked, hchecked, h⟩ := bind_eq_ok_iff.mp h
      cases h
      obtain ⟨hsingle, rfl⟩ := SortItem.checked_eq_ok_iff.mp hchecked
      exact ⟨hcolumn, hsingle, rfl, rfl⟩
    · rintro ⟨hcolumn, hsingle, hdirection, hguard⟩
      refine ⟨key.column, hcolumn, ?_⟩
      rw [SortItem.checked_eq_ok_iff.mpr ⟨hsingle, rfl⟩, ← hdirection, ← hguard]
      rfl
  rw [compileSorting, mapM_eq_ok_iff]
  exact ⟨fun h => h.imp fun i key => (hone i key).mp, fun h => h.imp fun i key => (hone i key).mpr⟩

/-- **Sorting is stable and lexicographic.** Records on which every key of a sort list can be read,
with totally ordered values, are sorted: the result has the same records, ordered by the first key
that tells them apart, and those that no key tells apart stand as they did. -/
theorem applySorting_lexicographic {α : Type} {s : Schema} {options : Options} {type : TypeExpr}
    {items : List SortItem} {keys : List SortKey} {record : α → Value} {records : List α}
    (accepted : compileSorting s options type items = .ok keys)
    (sortable : ∀ key ∈ keys, key.Sortable s record records) :
    List.Forall₂ (SortItem.CompilesTo s options type) items keys ∧
      ∃ out, applySorting s options type items record records = .ok out ∧ out.Perm records ∧
        out.Pairwise (fun a b => SortKey.inOrder s keys (record a) (record b) = true) ∧
        ∀ a ∈ records, out.filter (fun b => SortKey.agreeOnAll s keys (record a) (record b)) =
          records.filter fun b => SortKey.agreeOnAll s keys (record a) (record b) := by
  obtain ⟨out, hout, hspec⟩ := SortKey.exists_sortBy sortable
  refine ⟨compileSorting_eq_ok_iff.mp accepted, out, ?_, hspec⟩
  rw [applySorting, accepted, ok_bind, hout]
  rfl

namespace Race

/-- A schema of runners. -/
def schema : Schema :=
  ⟨[], [⟨"Runner", [], .data
      [⟨"team", .scalar .integer, [], false, none⟩,
        ⟨"laps", .union .barred [.scalar .integer, .nothing], [], false, none⟩], []⟩], .absent⟩

/-- A runner of a team. -/
def runner (team : Int) (laps : Option Int) : Value :=
  .record ⟨.data, "Runner", ["team", "laps"], none⟩
    [("team", some (.int team)), ("laps", some ((laps.map Value.int).getD .null))]

/-- The values that runners have are integers or null. -/
theorem sortable {key : SortKey} {α : Type} {team : α → Int} {laps : α → Option Int} {as : List α}
    (h : ∀ a ∈ as, schema.read key.nullGuard key.column (runner (team a) (laps a)) = .ok .null ∨
      ∃ n, schema.read key.nullGuard key.column (runner (team a) (laps a)) = .ok (.int n)) :
    key.Sortable schema (fun a => runner (team a) (laps a)) as where
  reads := fun a ha => by
    obtain hnull | ⟨n, hn⟩ := h a ha
    · exact ⟨_, hnull⟩
    · exact ⟨_, hn⟩
  ordered := Value.totallyOrdered_int.mono fun v ⟨hnull, a, ha, hread⟩ => by
    obtain hv | ⟨n, hn⟩ := h a ha
    · cases hread.symm.trans hv
      cases hnull
    · exact ⟨n, Except.ok.inj (hread.symm.trans hn)⟩

/-- The order of runners: the teams with greater numbers first, and within a team those without laps
before the others. -/
def order : List SortItem :=
  [⟨⟨["team"], by decide, by decide⟩, .desc⟩, ⟨⟨["laps"], by decide, by decide⟩, .asc⟩]

theorem exists_keys : ∃ team laps, compileSorting schema Options.usual (.named "Runner") order =
      .ok [team, laps] ∧
    (∀ t l, schema.read team.nullGuard team.column (runner t l) = .ok (.int t)) ∧
    ∀ t l, schema.read laps.nullGuard laps.column (runner t l) =
      .ok ((l.map Value.int).getD .null) :=
  ⟨_, _, rfl, fun _ _ => rfl, fun _ _ => rfl⟩

end Race

/-- Five runners, with their numbers, are sorted: two of them have as many laps for the same team,
and keep their places. -/
theorem applySorting_lexicographic_of_race :
    let runners : List (Nat × Int × Option Int) :=
      [(1, 7, some 3), (2, 8, some 4), (3, 7, none), (4, 8, none), (5, 7, some 3)]
    ∃ keys out, compileSorting Race.schema Options.usual (.named "Runner") Race.order = .ok keys ∧
      applySorting Race.schema Options.usual (.named "Runner") Race.order
        (fun r => Race.runner r.2.1 r.2.2) runners = .ok out ∧
      out.Pairwise (fun a b => SortKey.inOrder Race.schema keys (Race.runner a.2.1 a.2.2)
        (Race.runner b.2.1 b.2.2) = true) ∧
      out.map Prod.fst = [4, 2, 3, 1, 5] := by
  intro runners
  obtain ⟨team, laps, accepted, hteam, hlaps⟩ := Race.exists_keys
  have hsortable : ∀ key ∈ [team, laps],
      key.Sortable Race.schema (fun r => Race.runner r.2.1 r.2.2) runners := by
    intro key hkey
    refine Race.sortable fun r _ => ?_
    obtain rfl | hkey := List.mem_cons.mp hkey
    · exact .inr ⟨r.2.1, hteam _ _⟩
    · obtain rfl := List.mem_singleton.mp hkey
      obtain ⟨_, _, _ | n⟩ := r
      · exact .inl (hlaps _ _)
      · exact .inr ⟨n, hlaps _ _⟩
  obtain ⟨-, out, hout, -, hordered, -⟩ := applySorting_lexicographic accepted hsortable
  -- the second and the fourth runner, who is without laps, are of the later team; the first and the
  -- fifth are equal and keep their order
  have hplaces : (applySorting Race.schema Options.usual (.named "Runner") Race.order
      (fun r => Race.runner r.2.1 r.2.2) runners).map (fun out => out.map Prod.fst) =
        .ok [4, 2, 3, 1, 5] := rfl
  rw [hout] at hplaces
  exact ⟨_, out, accepted, hout, hordered, Except.ok.inj hplaces⟩

end RecordQuery
