import RecordQuery.Proofs.Ordering
import RecordQuery.Proofs.Sorting.Lexicographic

/-!
# Sort lists that can be executed

A sort calls its test on pairs of elements in an order that depends on the answers, and fails as
soon as one call fails. It succeeds for certain if the test answers on every pair, whatever the
answers are: then it returns all elements in some order.

For a key this means that any two values of its column can be compared. A sort list is accepted
unless a column is a collection, so that the type of a column says little about this. What matters
is whether two values clash.

* `Succeeds.stableSort` — a sort succeeds where its test does; `SortKey.exists_sort_of_less` and
  `SortKey.exists_sortBy_of_less` are the step of one key and the run of all of them.
* `Value.sortFault?` — what the comparison of two values fails with. A key does not align moments as
  conditions do, so that one with an offset, which is fixed, clashes with one that has none, and the
  members of an enumeration may have no order at all.
* `Schema.succeeds_less` and `SortKey.less_eq_error` — the test of a key fails exactly there.
* `applySorting_executes` — the result; `applySorting_fails` shows accepted lists that fail.
-/

namespace RecordQuery

/-! ### Sorting by a test that answers -/

section

variable {α ε : Type} {less : α → α → Except ε Bool} {P : α → Prop}

/-- The length of a run is found. -/
theorem succeeds_runLength {test : α → α → Except ε Bool}
    (h : ∀ a b, P a → P b → Succeeds (test a b)) :
    ∀ {rest : List α} {a : α}, P a → (∀ b ∈ rest, P b) → Succeeds (runLength test a rest)
  | [], _, _, _ => .ok 0
  | b :: rest, a, ha, hrest => by
    obtain ⟨hb, hrest⟩ := List.forall_mem_cons.mp hrest
    rw [runLength]
    refine (h b a hb ha).bind fun goesOn _ => ?_
    cases goesOn with
    | true => exact (succeeds_runLength h hb hrest).map _
    | false => exact .ok 0

/-- The run at the front is split off, and nothing is lost. -/
theorem exists_splitRun_of_less (h : ∀ a b, P a → P b → Succeeds (less a b)) {as : List α}
    (has : ∀ a ∈ as, P a) :
    ∃ run rest, splitRun less as = .ok (run, rest) ∧ (run ++ rest).Perm as := by
  match as, has with
  | [], _ => exact ⟨[], [], rfl, .refl []⟩
  | [a], _ => exact ⟨[a], [], rfl, .refl [a]⟩
  | a :: b :: rest, has =>
    obtain ⟨ha, hrest⟩ := List.forall_mem_cons.mp has
    obtain ⟨hb, hrest⟩ := List.forall_mem_cons.mp hrest
    have hparts : ∀ n, (a :: b :: rest.take n) ++ rest.drop n = a :: b :: rest := by
      intro n
      rw [List.cons_append, List.cons_append, List.take_append_drop]
    obtain ⟨descends, hdescends⟩ := h b a hb ha
    rw [splitRun, hdescends, ok_bind]
    cases descends with
    | true =>
      obtain ⟨n, hn⟩ := succeeds_runLength h hb hrest
      refine ⟨(a :: b :: rest.take n).reverse, rest.drop n, ?_, ?_⟩
      · rw [if_pos rfl, hn]
        rfl
      · -- a descending run is turned around
        have hreverse := (List.reverse_perm (a :: b :: rest.take n)).append_right (rest.drop n)
        rwa [hparts] at hreverse
    | false =>
      have hnot : ∀ x y, P x → P y → Succeeds ((less x y).map not) := fun x y hx hy =>
        (h x y hx hy).map not
      obtain ⟨n, hn⟩ := succeeds_runLength hnot hb hrest
      refine ⟨a :: b :: rest.take n, rest.drop n, ?_, ?_⟩
      · rw [if_neg Bool.false_ne_true, hn]
        rfl
      · rw [hparts]

/-- A place is found. -/
theorem succeeds_placeIn (h : ∀ a b, P a → P b → Succeeds (less a b)) {pivot : α} (hpivot : P pivot)
    {sorted : List α} (hsorted : ∀ a ∈ sorted, P a) (bound : Nat) :
    ∀ low high : Nat, Succeeds (placeIn less pivot sorted.toArray bound low high) := by
  induction bound with
  | zero => exact fun low _ => .ok low
  | succ bound ih =>
    intro low high
    rw [placeIn]
    by_cases hlow : low < high
    · rw [if_pos hlow]
      dsimp only
      split
      · exact .ok low
      · next a ha =>
        rw [List.getElem?_toArray] at ha
        refine (h pivot a hpivot (hsorted a (List.mem_of_getElem? ha))).bind fun before _ => ?_
        -- either half is searched with one comparison less to make
        cases before with
        | true => exact ih _ _
        | false => exact ih _ _
    · rw [if_neg hlow]
      exact .ok low

/-- The elements are put into their places one by one, and nothing is lost. -/
theorem exists_insertAll_of_less (h : ∀ a b, P a → P b → Succeeds (less a b)) :
    ∀ {rest sorted : List α}, (∀ a ∈ sorted, P a) → (∀ a ∈ rest, P a) →
      ∃ out, insertAll less sorted rest = .ok out ∧ out.Perm (sorted ++ rest)
  | [], sorted, _, _ => ⟨sorted, rfl, by rw [List.append_nil]⟩
  | a :: rest, sorted, hsorted, hrest => by
    obtain ⟨ha, hrest⟩ := List.forall_mem_cons.mp hrest
    -- of the place nothing is known but that it is found
    obtain ⟨place, hplace⟩ :=
      succeeds_placeIn h ha hsorted (sorted.length + 1) 0 sorted.length
    have hmoved : (sorted.take place ++ a :: sorted.drop place).Perm (a :: sorted) := by
      have hmiddle := @List.perm_middle _ a (sorted.take place) (sorted.drop place)
      rwa [List.take_append_drop] at hmiddle
    have hall : ∀ b ∈ sorted.take place ++ a :: sorted.drop place, P b := by
      intro b hb
      rcases List.mem_cons.mp (hmoved.mem_iff.mp hb) with rfl | hb
      · exact ha
      · exact hsorted b hb
    obtain ⟨out, hout, hperm⟩ := exists_insertAll_of_less h hall hrest
    refine ⟨out, ?_, ?_⟩
    · rw [insertAll]
      simp only [hplace, ok_bind, hout]
    · have hmiddle : (a :: sorted ++ rest).Perm (sorted ++ a :: rest) := List.perm_middle.symm
      exact hperm.trans ((hmoved.append_right rest).trans hmiddle)

/-- **A sort succeeds** if its test answers on all pairs of elements, and returns all of them. -/
theorem exists_stableSort_of_less (h : ∀ a b, P a → P b → Succeeds (less a b)) {as : List α}
    (has : ∀ a ∈ as, P a) : ∃ out, stableSort less as = .ok out ∧ out.Perm as := by
  obtain ⟨run, rest, hsplit, hperm⟩ := exists_splitRun_of_less h has
  have hall : ∀ a ∈ run ++ rest, P a := fun a ha => has a (hperm.mem_iff.mp ha)
  obtain ⟨hrun, hrest⟩ := List.forall_mem_append.mp hall
  obtain ⟨out, hout, hsorted⟩ := exists_insertAll_of_less h hrun hrest
  refine ⟨out, ?_, hsorted.trans hperm⟩
  rw [stableSort, hsplit, ok_bind]
  exact hout

theorem exists_stableSortDescending_of_less (h : ∀ a b, P a → P b → Succeeds (less a b))
    {as : List α} (has : ∀ a ∈ as, P a) :
    ∃ out, stableSortDescending less as = .ok out ∧ out.Perm as := by
  obtain ⟨out, hout, hperm⟩ :=
    exists_stableSort_of_less h fun a ha => has a (List.mem_reverse.mp ha)
  refine ⟨out.reverse, by rw [stableSortDescending, hout]; rfl, ?_⟩
  exact (List.reverse_perm out).trans (hperm.trans (List.reverse_perm as))

/-- Two elements are sorted by one call of the test. -/
theorem stableSort_pair_eq_error {a b : α} {e : ε} (h : less b a = .error e) :
    stableSort less [a, b] = .error e := by
  have hsplit : splitRun less [a, b] = .error e := by
    rw [splitRun, h]
    rfl
  rw [stableSort, hsplit]
  rfl

theorem stableSortDescending_pair_eq_error {a b : α} {e : ε} (h : less a b = .error e) :
    stableSortDescending less [a, b] = .error e := by
  unfold stableSortDescending
  show (stableSort less [b, a]).map List.reverse = _
  rw [stableSort_pair_eq_error h]
  rfl

end

/-! ### Values that clash -/

namespace Value

/-- What the comparison of two values under a key fails with, if they are of one type. Members that
are neither integers nor texts are compared with themselves only, and moments and times of which
only one has an offset are not compared at all. -/
def sortFault? : Value → Value → Option Fault
  | dateTime m, dateTime n =>
    if m.offset.isSome = n.offset.isSome then none else some .unsupported
  | member .plain owner name _, member .plain owner' name' _ =>
    if owner = owner' ∧ name = name' then none else some .unsupported
  | v, w => v.orderFault? w

variable {v w : Value}

/-- Clashes are mutual. -/
theorem orderFault?_comm (v w : Value) : v.orderFault? w = w.orderFault? v := by
  unfold orderFault?
  split
  · rw [Bool.and_comm]
  · exact if_congr eq_comm rfl rfl
  · next hdecimal htime =>
    split
    · exact absurd rfl (hdecimal _ _ rfl)
    · exact absurd rfl (htime _ _ rfl)
    · rfl

theorem sortFault?_comm (v w : Value) : v.sortFault? w = w.sortFault? v := by
  unfold sortFault?
  split
  · exact if_congr eq_comm rfl rfl
  · exact if_congr (and_congr eq_comm eq_comm) rfl rfl
  · next hdateTime hmember =>
    split
    · exact absurd rfl (hdateTime _ _ rfl)
    · exact absurd rfl (hmember _ _ _ _ _ _ rfl)
    · exact orderFault?_comm v w

end Value

namespace SortKey

open Value

variable {v w : Value}

theorem less_of_eq_false (hv : v.isNull = false) (hw : w.isNull = false)
    (heq : v.eq w = .ok false) : less v w = v.orders .lt w := by
  unfold less
  split
  · cases hv
  · cases hw
  · rw [heq]
    rfl

theorem less_dateTime (m n : DateTime) : less (dateTime m) (dateTime n) =
    if m.compare? n = some .eq then .ok false else ordered .lt (m.compare? n) := by
  show (if (m.compare? n == some .eq) = true then _ else _) = _
  simp only [beq_iff_eq]
  rfl

theorem less_time (a b : Time) : less (time a) (time b) =
    if a.compare? b = some .eq then .ok false else ordered .lt (a.compare? b) := by
  show (if (a.compare? b == some .eq) = true then _ else _) = _
  simp only [beq_iff_eq]
  rfl

/-- A decimal that is no number is refused: a signalling one by the test of equality, and a quiet
one by that of order. -/
theorem less_decimal_eq_error {x y : Decimal} (h : x.compare? y = none) :
    less (decimal x) (decimal y) = .error .invalidOperation := by
  have heq : (decimal x).eq (decimal y) =
      if x.isSignaling || y.isSignaling then .error .invalidOperation
      else .ok (x.compare? y == some .eq) := rfl
  have hlt : (decimal x).orders .lt (decimal y) = .error .invalidOperation := by
    show (decimal x).ordersAligned .lt (decimal y) = _
    rw [ordersAligned_decimal, h]
  rw [h] at heq
  -- a signaling number fails at the test for equality, any other at the order
  by_cases hsignaling : (x.isSignaling || y.isSignaling) = true
  · rw [if_pos hsignaling] at heq
    show (decimal x).eq (decimal y) >>= _ = _
    rw [heq]
    rfl
  · rw [if_neg hsignaling] at heq
    rw [less_of_eq_false rfl rfl heq, hlt]

/-- Members of one enumeration that are neither integers nor texts have no order. -/
theorem less_plain_member (owner name owner' name' : String) (x y : Value) :
    less (member .plain owner name x) (member .plain owner' name' y) =
      if owner = owner' ∧ name = name' then .ok false else .error .unsupported := by
  have heq : (member .plain owner name x).eq (member .plain owner' name' y) =
      .ok (owner == owner' && name == name') := rfl
  show (member .plain owner name x).eq (member .plain owner' name' y) >>= _ = _
  rw [heq]
  -- a member equals itself only, and equal values are not compared further
  by_cases hsame : owner = owner' ∧ name = name'
  · rw [if_pos hsame, hsame.1, hsame.2, beq_self_eq_true, beq_self_eq_true]
    rfl
  · have hdiffers : (owner == owner' && name == name') = false := by
      rw [Bool.and_eq_false_iff, beq_eq_false_iff_ne, beq_eq_false_iff_ne]
      exact not_and_or.mp hsame
    rw [if_neg hsame, hdiffers]
    rfl

/-- **The failures.** Where two values clash, the test of a key fails. -/
theorem less_eq_error {fault : Fault} (h : v.sortFault? w = some fault) :
    less v w = .error fault := by
  unfold sortFault? at h
  split at h
  · -- the cases of a clash are those of its definition
    next m n =>
    split at h
    · cases h
    · next hoffsets =>
      cases h
      rw [less_dateTime, (DateTime.compare?_eq_none_iff m n).mpr hoffsets]
      rfl
  · split at h
    · cases h
    · next hdiffers =>
      cases h
      rw [less_plain_member, if_neg hdiffers]
  · unfold orderFault? at h
    split at h
    · split at h
      · cases h
      · next hnumbers =>
        cases h
        exact less_decimal_eq_error
          ((Decimal.compare?_eq_none_iff _ _).mpr (Bool.eq_false_iff.mpr hnumbers))
    · split at h
      · cases h
      · next hoffsets =>
        cases h
        rw [less_time, (Time.compare?_eq_none_iff _ _).mpr hoffsets]
        rfl
    · cases h

end SortKey

/-! ### Values that can be compared -/

namespace Value

variable {v w : Value}

/-- Two values are compared under a key if they can be tested for equality and for their order. -/
theorem succeeds_less_of (heq : Succeeds (v.eq w)) (hlt : Succeeds (v.orders .lt w)) :
    Succeeds (SortKey.less v w) := by
  unfold SortKey.less
  split
  · exact .ok _
  · exact .ok _
  · refine heq.bind fun same _ => ?_
    cases same with
    | true => exact .ok false
    | false => exact hlt

theorem succeeds_less_float (x y : Binary64) : Succeeds (SortKey.less (float x) (float y)) := by
  -- no binary number becomes a signaling one
  have hquiet : ∀ z : Binary64, (Decimal.ofBinary64 z).isSignaling = false := by
    intro z
    cases z with
    | finite negative m e =>
      rw [Decimal.ofBinary64]
      by_cases he : 0 ≤ e
      · rw [if_pos he]
        rfl
      · rw [if_neg he]
        rfl
    | _ => rfl
  have heq : (float x).eq (float y) =
      if (Decimal.ofBinary64 x).isSignaling || (Decimal.ofBinary64 y).isSignaling then
        .error .invalidOperation
      else .ok ((Decimal.ofBinary64 x).compare? (.ofBinary64 y) == some .eq) := rfl
  rw [hquiet, hquiet] at heq
  exact succeeds_less_of ⟨_, heq⟩ (succeeds_ordersAligned_float .lt x y)

theorem succeeds_less_decimal {x y : Decimal}
    (h : (decimal x).sortFault? (decimal y) = none) :
    Succeeds (SortKey.less (decimal x) (decimal y)) := by
  have hnumbers : (x.isNumber && y.isNumber) = true := by
    by_contra hnot
    have hfault : (decimal x).sortFault? (decimal y) =
        if x.isNumber && y.isNumber then none else some .invalidOperation := rfl
    rw [hfault, if_neg hnot] at h
    cases h
  -- equality asks for less than order: a number that is none may fail it only if it signals
  have hquiet : ∀ {z : Decimal}, z.isNumber = true → z.isSignaling = false := by
    intro z hz
    cases z with
    | nan => cases hz
    | _ => rfl
  obtain ⟨hx, hy⟩ := Bool.and_eq_true_iff.mp hnumbers
  have heq : (decimal x).eq (decimal y) =
      if x.isSignaling || y.isSignaling then .error .invalidOperation
      else .ok (x.compare? y == some .eq) := rfl
  rw [hquiet hx, hquiet hy] at heq
  exact succeeds_less_of ⟨_, heq⟩ (succeeds_ordersAligned_decimal h .lt)

theorem succeeds_less_dateTime {m n : DateTime}
    (h : (dateTime m).sortFault? (dateTime n) = none) :
    Succeeds (SortKey.less (dateTime m) (dateTime n)) := by
  refine succeeds_less_of (.ok _) ?_
  show Succeeds (ordered .lt (m.compare? n))
  cases horder : m.compare? n with
  | some o => exact .ok _
  | none =>
    rw [sortFault?, if_neg ((DateTime.compare?_eq_none_iff m n).mp horder)] at h
    cases h

theorem succeeds_less_time {a b : Time} (h : (time a).sortFault? (time b) = none) :
    Succeeds (SortKey.less (time a) (time b)) := by
  exact succeeds_less_of (.ok _) (succeeds_ordersAligned_time h .lt)

theorem succeeds_less_null (v : Value) :
    Succeeds (SortKey.less .null v) ∧ Succeeds (SortKey.less v .null) := by
  cases v <;> exact ⟨.ok _, .ok _⟩

end Value

namespace Schema

open Value

variable {s : Schema} {t : TypeExpr} {v w : Value}

/-- Two values that are exactly of a scalar type and do not clash. -/
theorem succeeds_less_scalar {u : ScalarType} (hv : u.Holds v) (hw : u.Holds w)
    (h : v.sortFault? w = none) : Succeeds (SortKey.less v w) := by
  cases hv with
  | text a => cases hw; exact succeeds_less_of (.ok _) (.ok _)
  | integer a => cases hw; exact succeeds_less_of (.ok _) (.ok _)
  | float x => cases hw; exact succeeds_less_float _ _
  | boolean a =>
    cases hw with
    | boolean b => cases a <;> cases b <;> exact succeeds_less_of (.ok _) (.ok _)
  | bytes a => cases hw; exact succeeds_less_of (.ok _) (.ok _)
  -- numbers that are none, and offsets, are what a comparison may fail at
  | decimal x => cases hw; exact succeeds_less_decimal h
  | uuid a => cases hw; exact succeeds_less_of (.ok _) (.ok _)
  | dateTime m => cases hw; exact succeeds_less_dateTime h
  | date a => cases hw; exact succeeds_less_of (.ok _) (.ok _)
  | time a => cases hw; exact succeeds_less_time h
  | duration a => cases hw; exact succeeds_less_of (.ok _) (.ok _)

/-- Two members of an enumeration that do not clash. -/
theorem succeeds_less_member {e : EnumType} (he : e.IsDeclared) {m n : String × Value}
    (hm : m ∈ e.members) (hn : n ∈ e.members)
    (h : (member e.base e.name m.1 m.2).sortFault? (member e.base e.name n.1 n.2) = none) :
    Succeeds (SortKey.less (member e.base e.name m.1 m.2) (member e.base e.name n.1 n.2)) := by
  cases hbase : e.base with
  | plain =>
    -- members without values to compare clash, unless they are one and the same
    rw [hbase, sortFault?] at h
    rw [SortKey.less_plain_member]
    split
    · exact .ok false
    · next hdiffers =>
      rw [if_neg hdiffers] at h
      cases h
  | integer =>
    obtain ⟨a, ha⟩ := he.exists_int hbase hm
    obtain ⟨b, hb⟩ := he.exists_int hbase hn
    rw [ha, hb]
    exact succeeds_less_of (.ok _) (.ok _)
  | text =>
    obtain ⟨a, ha⟩ := he.exists_text hbase hm
    obtain ⟨b, hb⟩ := he.exists_text hbase hn
    rw [ha, hb]
    exact succeeds_less_of (.ok _) (.ok _)

/-- **The answers.** The test of a key answers on two values of a type that do not clash. -/
theorem succeeds_less (hs : s.EnumsDeclared) (hv : s.Typed t v) (hw : s.Typed t w)
    (h : v.sortFault? w = none) : Succeeds (SortKey.less v w) := by
  cases hv with
  | null => exact (succeeds_less_null w).1
  | scalar exact =>
    cases hw with
    | null => exact (succeeds_less_null v).2
    | scalar exact' => exact succeeds_less_scalar exact exact' h
    | textMember =>
      cases exact
      exact succeeds_less_of (.ok _) (.ok _)
  | textMember =>
    -- a member that is a text meets other texts
    cases hw with
    | null => exact (succeeds_less_null _).2
    | scalar exact =>
      cases exact
      exact succeeds_less_of (.ok _) (.ok _)
    | textMember => exact succeeds_less_of (.ok _) (.ok _)
  | member found mem =>
    cases hw with
    | null => exact (succeeds_less_null _).2
    | member found' mem' =>
      cases found.symm.trans found'
      exact succeeds_less_member (hs.isDeclared found) mem mem' h

end Schema

/-! ### Keys -/

namespace SortKey

variable {α : Type} {s : Schema} {record : α → Value} {as : List α}

/-- The step of one key. -/
theorem exists_sort_of_less {key : SortKey}
    (hread : ∀ a ∈ as, s.read key.nullGuard key.column (record a) = .ok (key.value s (record a)))
    (hless : ∀ a ∈ as, ∀ b ∈ as,
      Succeeds (less (key.value s (record a)) (key.value s (record b)))) :
    ∃ out, sort s key record as = .ok out ∧ out.Perm as := by
  have hkeyed := keyed_eq hread
  have hpairs := forall_keyed s key record as
  have hanswers : ∀ p q : Value × α, (p.2 ∈ as ∧ p.1 = key.value s (record p.2)) →
      (q.2 ∈ as ∧ q.1 = key.value s (record q.2)) → Succeeds (less p.1 q.1) := by
    rintro p q ⟨hp, hpvalue⟩ ⟨hq, hqvalue⟩
    rw [hpvalue, hqvalue]
    exact hless _ hp _ hq
  have hforget : ∀ {out : List (Value × α)},
      out.Perm (as.map fun a => (key.value s (record a), a)) → (out.map Prod.snd).Perm as := by
    intro out hperm
    have hmapped := hperm.map Prod.snd
    rwa [map_snd_keyed] at hmapped
  -- both directions sort the same pairs of keys and elements
  unfold sort
  rw [hkeyed, ok_bind]
  cases key.descending with
  | true =>
    obtain ⟨out, hout, hperm⟩ := exists_stableSortDescending_of_less hanswers hpairs
    refine ⟨out.map Prod.snd, ?_, hforget hperm⟩
    simp only [if_true, hout, ok_bind]
  | false =>
    obtain ⟨out, hout, hperm⟩ := exists_stableSort_of_less hanswers hpairs
    refine ⟨out.map Prod.snd, ?_, hforget hperm⟩
    simp only [Bool.false_eq_true, if_false, hout, ok_bind]

/-- The run of all keys. -/
theorem exists_sortBy_of_less : ∀ {keys : List SortKey},
    (∀ key ∈ keys, ∀ a ∈ as,
      s.read key.nullGuard key.column (record a) = .ok (key.value s (record a))) →
    (∀ key ∈ keys, ∀ a ∈ as, ∀ b ∈ as,
      Succeeds (less (key.value s (record a)) (key.value s (record b)))) →
    ∃ out, sortBy s record keys as = .ok out ∧ out.Perm as
  | [], _, _ => ⟨as, rfl, .refl as⟩
  | key :: keys, hread, hless => by
    obtain ⟨hreadKey, hreadRest⟩ := List.forall_mem_cons.mp hread
    obtain ⟨hlessKey, hlessRest⟩ := List.forall_mem_cons.mp hless
    obtain ⟨mid, hmid, hperm⟩ := exists_sortBy_of_less hreadRest hlessRest
    -- the later keys have sorted the records already, and only permuted them
    have hmem : ∀ {a}, a ∈ mid → a ∈ as := fun ha => hperm.mem_iff.mp ha
    obtain ⟨out, hout, hsorted⟩ := exists_sort_of_less (fun a ha => hreadKey a (hmem ha))
      fun a ha b hb => hlessKey a (hmem ha) b (hmem hb)
    refine ⟨out, ?_, hsorted.trans hperm⟩
    rw [sortBy, hmid]
    exact hout

/-- Two elements are compared once, so that a key fails if they clash. -/
theorem sort_eq_error {key : SortKey} {a b : α}
    (hread : ∀ x ∈ [a, b], s.read key.nullGuard key.column (record x) =
      .ok (key.value s (record x))) {fault : Fault}
    (h : (key.value s (record a)).sortFault? (key.value s (record b)) = some fault) :
    sort s key record [a, b] = .error fault := by
  have hkeyed := keyed_eq hread
  rw [List.map_cons, List.map_cons, List.map_nil] at hkeyed
  unfold sort
  rw [hkeyed, ok_bind]
  cases key.descending with
  | true =>
    have hsorted : stableSortDescending (fun p q : Value × α => less p.1 q.1)
        [(key.value s (record a), a), (key.value s (record b), b)] = .error fault :=
      stableSortDescending_pair_eq_error (less_eq_error h)
    simp only [if_true, hsorted]
    rfl
  | false =>
    -- the ascending sort makes its one comparison the other way round
    rw [Value.sortFault?_comm] at h
    have hsorted : stableSort (fun p q : Value × α => less p.1 q.1)
        [(key.value s (record a), a), (key.value s (record b), b)] = .error fault :=
      stableSort_pair_eq_error (less_eq_error h)
    simp only [Bool.false_eq_true, if_false, hsorted]
    rfl

end SortKey

/-! ### Sort lists -/

/-- The value of an accepted key can be read on a conforming record, under the guard against null,
and conforms to the type of the column. -/
theorem SortItem.CompilesTo.read_eq {s : Schema} {options : Options} {type : TypeExpr}
    {i : SortItem} {key : SortKey} (h : i.CompilesTo s options type key)
    (hguard : options.nullGuard = true) {record : Value} (hrecord : s.Conforms type record) :
    s.read key.nullGuard key.column record = .ok (key.value s record) ∧
      s.Conforms key.column.type (key.value s record) := by
  obtain ⟨v, hread, hv⟩ := Schema.exists_read (Schema.chained_of_resolve h.column) hrecord
  have hkey : s.read key.nullGuard key.column record = .ok v := by
    rw [h.guard, hguard]
    exact hread
  have hvalue : key.value s record = v := by
    rw [SortKey.value, hkey]
    rfl
  rw [hvalue]
  exact ⟨hkey, hv⟩

/-- **Executing a sort list.** Let a sort list be accepted, under the guard against null, and let
every record conform to its type. The records are sorted, and none is lost, if for every key either
the column has a type of values without parts and no two of its values clash, or the values of the
column can all be compared in another way. Two records with values that clash are not sorted by a
key of such a type. -/
theorem applySorting_executes {α : Type} {s : Schema} (hs : s.EnumsDeclared) {options : Options}
    (hguard : options.nullGuard = true) {type : TypeExpr} {items : List SortItem}
    {keys : List SortKey} (accepted : compileSorting s options type items = .ok keys)
    {record : α → Value} {records : List α}
    (hconforms : ∀ a ∈ records, s.Conforms type (record a)) :
    ((∀ key ∈ keys,
        (s.isValued key.column.type = true ∧ ∀ a ∈ records, ∀ b ∈ records,
          (key.value s (record a)).sortFault? (key.value s (record b)) = none) ∨
        ∀ a ∈ records, ∀ b ∈ records,
          ∃ r, SortKey.less (key.value s (record a)) (key.value s (record b)) = .ok r) →
      ∃ out, applySorting s options type items record records = .ok out ∧ out.Perm records) ∧
    ∀ key a b fault, keys = [key] → records = [a, b] →
      (key.value s (record a)).sortFault? (key.value s (record b)) = some fault →
      applySorting s options type items record records = .error (.fault fault) := by
  have hcompiled : ∀ key ∈ keys, ∃ i, SortItem.CompilesTo s options type i key := by
    intro key hkey
    obtain ⟨i, -, hi⟩ := exists_of_mem_forall₂ (compileSorting_eq_ok_iff.mp accepted) hkey
    exact ⟨i, hi⟩
  -- under the guard every key reads a value of its column's type from every record
  have hread : ∀ key ∈ keys, ∀ a ∈ records,
      s.read key.nullGuard key.column (record a) = .ok (key.value s (record a)) ∧
        s.Conforms key.column.type (key.value s (record a)) := by
    intro key hkey a ha
    obtain ⟨i, hi⟩ := hcompiled key hkey
    exact hi.read_eq hguard (hconforms a ha)
  constructor
  · intro hcomparable
    have hless : ∀ key ∈ keys, ∀ a ∈ records, ∀ b ∈ records,
        Succeeds (SortKey.less (key.value s (record a)) (key.value s (record b))) := by
      intro key hkey a ha b hb
      obtain ⟨ht, hclash⟩ | hanswers := hcomparable key hkey
      · have hv := Schema.typed_of_conforms_valued ht (hread key hkey a ha).2
        have hw := Schema.typed_of_conforms_valued ht (hread key hkey b hb).2
        exact Schema.succeeds_less hs hv hw (hclash a ha b hb)
      · exact hanswers a ha b hb
    obtain ⟨out, hout, hperm⟩ :=
      SortKey.exists_sortBy_of_less (fun key hkey a ha => (hread key hkey a ha).1) hless
    refine ⟨out, ?_, hperm⟩
    rw [applySorting, accepted, ok_bind, hout]
    rfl
  · rintro key a b fault rfl rfl hfault
    have hsort := SortKey.sort_eq_error
      (fun x hx => (hread key List.mem_cons_self x hx).1) hfault
    rw [applySorting, accepted, ok_bind, SortKey.sortBy, SortKey.sortBy, ok_bind, hsort]
    rfl

/-! An example: meetings with a state and a moment at which they start. -/

namespace Meetings

/-- The state of a meeting, which has no order. -/
def state : EnumType :=
  ⟨"State", .plain, [("OPEN", .int 1), ("CLOSED", .int 2)], by decide⟩

/-- A schema of meetings. -/
def schema : Schema :=
  ⟨[state], [⟨"Meeting", [], .model
    [⟨"state", .named "State", [], false, none⟩, ⟨"starts", .scalar .dateTime, [], false, none⟩],
    []⟩], .absent⟩

/-- A meeting. -/
def meeting (state starts : Value) : Value :=
  .record ⟨.model, "Meeting", ["state", "starts"], none⟩
    [("state", some state), ("starts", some starts)]

/-- An open meeting. -/
def isOpen : Value := .member .plain "State" "OPEN" (.int 1)

/-- A closed meeting. -/
def isClosed : Value := .member .plain "State" "CLOSED" (.int 2)

theorem enumsDeclared : schema.EnumsDeclared := by
  intro e he
  obtain rfl := List.mem_singleton.mp he
  exact ⟨.plain, "State", [("OPEN", .int 1), ("CLOSED", .int 2)], rfl⟩

theorem conforms_meeting {value starts : Value} (hvalue : value = isOpen ∨ value = isClosed)
    (hstarts : schema.Conforms (.scalar .dateTime) starts) :
    schema.Conforms (.named "Meeting") (meeting value starts) := by
  have hopen : ("OPEN", .int 1) ∈ state.members := List.mem_cons_self
  have hclosed : ("CLOSED", .int 2) ∈ state.members := List.mem_cons_of_mem _ List.mem_cons_self
  have hmember : schema.Conforms (.named "State") value := by
    rcases hvalue with rfl | rfl
    · exact Schema.conforms_member rfl rfl hopen
    · exact Schema.conforms_member rfl rfl hclosed
  refine Schema.conforms_record rfl rfl ?_
  intro m hm
  rcases hm with _ | ⟨_, _ | ⟨_, ⟨⟩⟩⟩
  · exact ⟨_, rfl, hmember⟩
  · exact ⟨_, rfl, hstarts⟩

/-- Noon in summer, at an offset or without one. -/
def noon (offset : Option Offset) : DateTime :=
  ⟨⟨2024, 6, 1, by decide⟩, ⟨12, 0, 0, 0, by decide⟩, offset⟩

/-- The order of meetings by their state alone. -/
def byState : List SortItem := [⟨⟨["state"], by decide, by decide⟩, .asc⟩]

/-- The order of meetings by their start alone, the last one first. -/
def byStart : List SortItem := [⟨⟨["starts"], by decide, by decide⟩, .desc⟩]

theorem exists_keys : ∃ state starts,
    compileSorting schema ⟨true, false⟩ (.named "Meeting") (byState ++ byStart) =
      .ok [state, starts] ∧
    schema.isValued state.column.type = true ∧ schema.isValued starts.column.type = true ∧
    (∀ v w, state.value schema (meeting v w) = v) ∧ ∀ v w, starts.value schema (meeting v w) = w :=
  ⟨_, _, rfl, rfl, rfl, fun _ _ => rfl, fun _ _ => rfl⟩

end Meetings

open Meetings in
/-- Two open meetings, of which one has no start yet, are sorted by their state and start. -/
theorem applySorting_executes_of_meetings :
    let meetings := [meeting isOpen (.dateTime (noon none)), meeting isOpen .null]
    schema.EnumsDeclared ∧ (∀ m ∈ meetings, schema.Conforms (.named "Meeting") m) ∧
    ∃ keys out, compileSorting schema ⟨true, false⟩ (.named "Meeting") (byState ++ byStart) =
        .ok keys ∧
      (∀ key ∈ keys, schema.isValued key.column.type = true ∧ ∀ m ∈ meetings, ∀ n ∈ meetings,
        (key.value schema m).sortFault? (key.value schema n) = none) ∧
      applySorting schema ⟨true, false⟩ (.named "Meeting") (byState ++ byStart) id meetings =
        .ok out ∧ out.Perm meetings := by
  intro meetings
  have hconforms : ∀ m ∈ meetings, schema.Conforms (.named "Meeting") (id m) := by
    rw [List.forall_mem_cons, List.forall_mem_singleton]
    exact ⟨conforms_meeting (.inl rfl) (.scalar (.dateTime _)),
      conforms_meeting (.inl rfl) (.null _)⟩
  obtain ⟨state, starts, accepted, hstate, hstarts, hstateValue, hstartsValue⟩ := exists_keys
  -- equal states are not compared with less, and neither is a missing start
  have hclash : ∀ key ∈ [state, starts], schema.isValued key.column.type = true ∧
      ∀ m ∈ meetings, ∀ n ∈ meetings,
        (key.value schema m).sortFault? (key.value schema n) = none := by
    rw [List.forall_mem_cons, List.forall_mem_singleton]
    constructor
    · refine ⟨hstate, ?_⟩
      simp only [meetings, List.forall_mem_cons, hstateValue]
      exact ⟨⟨rfl, rfl, nofun⟩, ⟨rfl, rfl, nofun⟩, nofun⟩
    · refine ⟨hstarts, ?_⟩
      simp only [meetings, List.forall_mem_cons, hstartsValue]
      exact ⟨⟨rfl, rfl, nofun⟩, ⟨rfl, rfl, nofun⟩, nofun⟩
  obtain ⟨hexecutes, -⟩ :=
    applySorting_executes enumsDeclared rfl accepted hconforms
  obtain ⟨out, hout, hperm⟩ := hexecutes fun key hkey => .inl (hclash key hkey)
  exact ⟨enumsDeclared, hconforms, _, out, accepted, hclash, hout, hperm⟩

open Meetings in
/-- An open meeting without an offset and a closed one with an offset can be sorted neither by their
state, which has no order that a condition could test, nor by their start. Both sort lists are
accepted. -/
theorem applySorting_fails :
    let meetings := [meeting isOpen (.dateTime (noon none)),
      meeting isClosed (.dateTime (noon (some .universal)))]
    (∀ m ∈ meetings, schema.Conforms (.named "Meeting") m) ∧
    ∃ state starts, compileSorting schema ⟨true, false⟩ (.named "Meeting") byState = .ok [state] ∧
      compileSorting schema ⟨true, false⟩ (.named "Meeting") byStart = .ok [starts] ∧
      (∃ e, schema.checkOperator state.column .gt = .error e) ∧
      applySorting schema ⟨true, false⟩ (.named "Meeting") byState id meetings =
        .error (.fault .unsupported) ∧
      applySorting schema ⟨true, false⟩ (.named "Meeting") byStart id meetings =
        .error (.fault .unsupported) := by
  intro meetings
  have hconforms : ∀ m ∈ meetings, schema.Conforms (.named "Meeting") m := by
    rw [List.forall_mem_cons, List.forall_mem_singleton]
    exact ⟨conforms_meeting (.inl rfl) (.scalar (.dateTime _)),
      conforms_meeting (.inr rfl) (.scalar (.dateTime _))⟩
  exact ⟨hconforms, _, _, rfl, rfl, ⟨_, rfl⟩, rfl, rfl⟩

end RecordQuery
