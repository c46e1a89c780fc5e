import Mathlib.Data.List.Basic
import RecordQuery.Proofs.Outcome
import RecordQuery.Sort.Stable

/-!
# Stable sorting is correct

`stableSort` takes a run off the front of a list and puts every further element into its place. On
elements that a test puts into a strict order, up to ties, both steps keep one invariant: what has
been sorted so far is the front of the list, sorted stably (`StablySorted`).

* `DecidesOrder` — a test answers on some elements, and its answers are a strict weak order.
* `StablySorted` — a list is another one in order, in which tied elements stand as they did.
* `StablySorted.insert` — the step: an element goes behind all that it is not less than.
* `DecidesOrder.exists_stableSort`, `DecidesOrder.exists_stableSortDescending` — the results.
* `StablySorted.pairwise_lex` — a stable sort keeps an earlier order among tied elements.
* `StablySorted.unique`, `StablySorted.filter` — there is only one stable sort of a list, and what is
  left out of the list is left out of its sort.
-/

namespace RecordQuery

variable {α β ε : Type}

/-! ### DecidesOrder and sorted lists -/

/-- Neither of two elements is less than the other. -/
def tied (lt : α → α → Bool) (a b : α) : Bool := !lt a b && !lt b a

theorem tied_iff {lt : α → α → Bool} {a b : α} :
    tied lt a b = true ↔ lt a b = false ∧ lt b a = false := by
  rw [tied, Bool.and_eq_true, Bool.not_eq_true', Bool.not_eq_true']

/-- A test answers on the elements with a property, and its answers are a strict order up to
ties. -/
structure DecidesOrder (P : α → Prop) (less : α → α → Except ε Bool) (lt : α → α → Bool) :
    Prop where
  answers {a b : α} : P a → P b → less a b = .ok (lt a b)
  asymm {a b : α} : P a → P b → lt a b = true → lt b a = false
  le_trans {a b c : α} : P a → P b → P c → lt a b = false → lt b c = false → lt a c = false

/-- A list in order, in which tied elements stand as they do in another list of the same
elements. -/
structure StablySorted (P : α → Prop) (lt : α → α → Bool) (as out : List α) : Prop where
  perm : out.Perm as
  ordered : out.Pairwise fun a b => lt b a = false
  stable {c : α} : P c → out.filter (tied lt c) = as.filter (tied lt c)

variable {P : α → Prop} {less : α → α → Except ε Bool} {lt : α → α → Bool}

namespace DecidesOrder

variable {a b c : α}

theorem irrefl (h : DecidesOrder P less lt) (ha : P a) : lt a a = false := by
  cases hself : lt a a with
  | false => rfl
  | true => exact hself.symm.trans (h.asymm ha ha hself)

theorem lt_of_lt_of_le (h : DecidesOrder P less lt) (ha : P a) (hb : P b) (hc : P c)
    (hab : lt a b = true) (hcb : lt c b = false) : lt a c = true := by
  cases hac : lt a c with
  | true => rfl
  | false => exact (h.le_trans ha hc hb hac hcb).symm.trans hab

theorem lt_trans (h : DecidesOrder P less lt) (ha : P a) (hb : P b) (hc : P c) (hab : lt a b = true)
    (hbc : lt b c = true) : lt a c = true :=
  h.lt_of_lt_of_le ha hb hc hab (h.asymm hb hc hbc)

/-- An element is tied to one of two at most, if one of the two is less than the other. -/
theorem tied_eq_false (h : DecidesOrder P less lt) (ha : P a) (hb : P b) (hc : P c)
    (hab : lt a b = true) (hca : tied lt c a = true) : tied lt c b = false := by
  cases hcb : tied lt c b with
  | false => rfl
  | true =>
    have hab' := h.le_trans ha hc hb (tied_iff.mp hca).2 (tied_iff.mp hcb).1
    exact hab.symm.trans hab'

end DecidesOrder

/-! ### Putting one element into its place -/

theorem eq_take_append_drop {as : List α} {i : Nat} {a : α} (h : as[i]? = some a) :
    as = as.take i ++ a :: as.drop (i + 1) := by
  obtain ⟨hi, rfl⟩ := List.getElem?_eq_some_iff.mp h
  rw [← List.drop_eq_getElem_cons hi, List.take_append_drop]

/-- **Searching by halving** ends behind all elements that the new one is not less than. -/
theorem DecidesOrder.exists_placeIn (h : DecidesOrder P less lt) {pivot : α} (hpivot : P pivot)
    {sorted : List α} (hsorted : ∀ a ∈ sorted, P a)
    (ordered : sorted.Pairwise fun a b => lt b a = false) (bound : Nat) :
    ∀ low high : Nat, low ≤ high → high ≤ sorted.length → high - low < bound →
      (∀ a ∈ sorted.take low, lt pivot a = false) → (∀ a ∈ sorted.drop high, lt pivot a = true) →
      ∃ place, placeIn less pivot sorted.toArray bound low high = .ok place ∧
        (∀ a ∈ sorted.take place, lt pivot a = false) ∧
        ∀ a ∈ sorted.drop place, lt pivot a = true := by
  induction bound with
  | zero => exact fun _ _ _ _ hbound => absurd hbound (Nat.not_lt_zero _)
  | succ bound ih =>
    intro low high hle hlength hbound hbefore hbehind
    by_cases hlow : low < high
    · have hmiddle : low + (high - low) / 2 < sorted.length := by omega
      obtain ⟨a, helement⟩ : ∃ a, sorted[low + (high - low) / 2]? = some a :=
        ⟨_, List.getElem?_eq_getElem hmiddle⟩
      have ha : P a := hsorted a (List.mem_of_getElem? helement)
      -- the elements before the middle one are not greater, those behind it are not less
      have hparts := eq_take_append_drop helement
      have hcross := ordered
      rw [hparts] at hcross
      obtain ⟨-, hrest, hcross⟩ := List.pairwise_append.mp hcross
      obtain ⟨hafter, -⟩ := List.pairwise_cons.mp hrest
      have hstep : placeIn less pivot sorted.toArray (bound + 1) low high =
          if lt pivot a then placeIn less pivot sorted.toArray bound low (low + (high - low) / 2)
          else placeIn less pivot sorted.toArray bound (low + (high - low) / 2 + 1) high := by
        rw [placeIn, if_pos hlow]
        simp only [List.getElem?_toArray, helement, h.answers hpivot ha, ok_bind]
      rw [hstep]
      cases hless : lt pivot a with
      | true =>
        refine ih low _ (by omega) (by omega) (by omega) hbefore fun b hb => ?_
        rw [List.drop_eq_getElem_cons hmiddle] at hb
        have hsame : sorted[low + (high - low) / 2] = a :=
          (List.getElem?_eq_some_iff.mp helement).2
        obtain rfl | hb := List.mem_cons.mp hb
        · rw [hsame]
          exact hless
        · exact h.lt_of_lt_of_le hpivot ha (hsorted b (List.mem_of_mem_drop hb)) hless
            (hafter b hb)
      | false =>
        refine ih _ high (by omega) hlength (by omega) (fun b hb => ?_) hbehind
        rw [List.take_add_one, helement] at hb
        obtain hb | hb := List.mem_append.mp hb
        · have hab := hcross b hb a List.mem_cons_self
          exact h.le_trans hpivot ha (hsorted b (List.mem_of_mem_take hb)) hless hab
        · rw [List.mem_singleton.mp hb]
          exact hless
    · rw [placeIn, if_neg hlow]
      have hends : low = high := by omega
      exact ⟨low, rfl, hbefore, hends ▸ hbehind⟩

/-- **The step of a sort.** What has been sorted stays sorted, and stably so, when the next element
goes behind all that it is not less than. -/
theorem StablySorted.insert (h : DecidesOrder P less lt) {as sorted : List α} {a : α} (ha : P a)
    (hsorted : StablySorted P lt as sorted) (hmem : ∀ b ∈ sorted, P b) {place : Nat}
    (before : ∀ b ∈ sorted.take place, lt a b = false)
    (behind : ∀ b ∈ sorted.drop place, lt a b = true) :
    StablySorted P lt (as ++ [a]) (sorted.take place ++ a :: sorted.drop place) := by
  have hparts := List.take_append_drop place sorted
  refine ⟨?_, ?_, fun {c} hc => ?_⟩
  · have hmiddle : (sorted.take place ++ a :: sorted.drop place).Perm (a :: sorted) := by
      have hmoved := @List.perm_middle _ a (sorted.take place) (sorted.drop place)
      rwa [hparts] at hmoved
    exact hmiddle.trans ((hsorted.perm.cons a).trans (List.perm_append_singleton a as).symm)
  · have hordered := hsorted.ordered
    rw [← hparts] at hordered
    obtain ⟨hfront, hback, hcross⟩ := List.pairwise_append.mp hordered
    refine List.pairwise_append.mpr ⟨hfront, List.pairwise_cons.mpr ⟨fun b hb => ?_, hback⟩, ?_⟩
    · exact h.asymm ha (hmem b (List.mem_of_mem_drop hb)) (behind b hb)
    · intro b hb d hd
      obtain rfl | hd := List.mem_cons.mp hd
      · exact before b hb
      · exact hcross b hb d hd
  · rw [List.filter_append, List.filter_append, ← hsorted.stable hc, ← hparts, List.filter_append,
      hparts, List.append_assoc]
    congr 1
    cases htied : tied lt c a with
    | false => simp only [List.filter_cons, htied, Bool.false_eq_true, if_false, List.filter_nil,
        List.append_nil]
    | true =>
      -- an element that is tied to the new one is not greater, so it stands before it
      have hnone : (sorted.drop place).filter (tied lt c) = [] := by
        refine List.filter_eq_nil_iff.mpr fun b hb => ?_
        rw [h.tied_eq_false ha (hmem b (List.mem_of_mem_drop hb)) hc (behind b hb) htied]
        exact Bool.false_ne_true
      simp only [List.filter_cons, htied, if_true, hnone, List.filter_nil, List.nil_append]

theorem DecidesOrder.exists_insertAll (h : DecidesOrder P less lt) :
    ∀ {rest as sorted : List α}, StablySorted P lt as sorted → (∀ a ∈ as, P a) →
      (∀ a ∈ rest, P a) →
      ∃ out, insertAll less sorted rest = .ok out ∧ StablySorted P lt (as ++ rest) out
  | [], as, sorted, hsorted, _, _ => ⟨sorted, rfl, by rwa [List.append_nil]⟩
  | a :: rest, as, sorted, hsorted, has, hrest => by
    obtain ⟨ha, hrest⟩ := List.forall_mem_cons.mp hrest
    have hmem : ∀ b ∈ sorted, P b := fun b hb => has b (hsorted.perm.mem_iff.mp hb)
    -- a search with more fuel than there are elements ends, at the one place that keeps the order
    -- stable
    obtain ⟨place, hplace, hbefore, hbehind⟩ := h.exists_placeIn ha hmem hsorted.ordered
      (sorted.length + 1) 0 sorted.length (Nat.zero_le _) (Nat.le_refl _) (Nat.lt_succ_self _)
      (by simp) (by simp)
    have hnext := hsorted.insert h ha hmem hbefore hbehind
    have hall : ∀ b ∈ as ++ [a], P b := by
      intro b hb
      obtain hb | hb := List.mem_append.mp hb
      · exact has b hb
      · rwa [List.mem_singleton.mp hb]
    obtain ⟨out, hout, hspec⟩ := h.exists_insertAll hnext hall hrest
    refine ⟨out, ?_, ?_⟩
    · rw [insertAll]
      simp only [hplace, ok_bind, hout]
    · rwa [List.append_assoc] at hspec

/-! ### The run at the front -/

variable (P) in
/-- The elements of a run are all related as neighbours are, since the relation is transitive. -/
theorem exists_runLength {test : α → α → Except ε Bool} {r : α → α → Bool}
    (answers : ∀ {a b}, P a → P b → test b a = .ok (r a b))
    (trans : ∀ {a b c}, P a → P b → P c → r a b = true → r b c = true → r a c = true) :
    ∀ {rest : List α} {a : α}, P a → (∀ b ∈ rest, P b) →
      ∃ n, runLength test a rest = .ok n ∧ (a :: rest.take n).Pairwise fun x y => r x y = true
  | [], a, _, _ => ⟨0, rfl, List.pairwise_singleton _ a⟩
  | b :: rest, a, ha, hrest => by
    obtain ⟨hb, hrest⟩ := List.forall_mem_cons.mp hrest
    rw [runLength, answers ha hb, ok_bind]
    cases hab : r a b with
    | false => exact ⟨0, rfl, List.pairwise_singleton _ a⟩
    | true =>
      obtain ⟨n, hn, hrun⟩ := exists_runLength answers trans hb hrest
      refine ⟨n + 1, by rw [hn]; rfl, ?_⟩
      rw [List.take_succ_cons]
      refine List.pairwise_cons.mpr ⟨fun c hc => ?_, hrun⟩
      -- the next element stands before the rest of its run
      obtain rfl | hc := List.mem_cons.mp hc
      · exact hab
      · have hbc := (List.pairwise_cons.mp hrun).1 c hc
        exact trans ha hb (hrest c (List.mem_of_mem_take hc)) hab hbc

theorem StablySorted.of_ordered {as : List α} (h : as.Pairwise fun a b => lt b a = false) :
    StablySorted P lt as as :=
  ⟨.refl as, h, fun _ => rfl⟩

/-- A strictly descending run is sorted when it is turned around: no two of its elements are
tied. -/
theorem StablySorted.of_descending (h : DecidesOrder P less lt) {as : List α} (has : ∀ a ∈ as, P a)
    (descending : as.Pairwise fun a b => lt b a = true) : StablySorted P lt as as.reverse := by
  refine ⟨List.reverse_perm as, ?_, fun {c} hc => ?_⟩
  · rw [List.pairwise_reverse]
    refine descending.imp_of_mem fun ha hb hlt => ?_
    exact h.asymm (has _ hb) (has _ ha) hlt
  · rw [List.filter_reverse]
    -- of elements that descend no two are tied, so their order in the sort does not matter
    have hapart : (as.filter (tied lt c)).Pairwise fun _ _ => False := by
      refine (descending.filter _).imp_of_mem fun {a b} ha hb hlt => ?_
      obtain ⟨ha, hca⟩ := List.mem_filter.mp ha
      obtain ⟨hb, hcb⟩ := List.mem_filter.mp hb
      have hboth := h.tied_eq_false (has b hb) (has a ha) hc hlt hcb
      exact Bool.false_ne_true (hboth.symm.trans hca)
    match as.filter (tied lt c), hapart with
    | [], _ => rfl
    | [_], _ => rfl
    | a :: b :: _, hapart => exact absurd ((List.pairwise_cons.mp hapart).1 b List.mem_cons_self) id

theorem DecidesOrder.exists_splitRun (h : DecidesOrder P less lt) {as : List α}
    (has : ∀ a ∈ as, P a) :
    ∃ front run rest, splitRun less as = .ok (run, rest) ∧ as = front ++ rest ∧
      StablySorted P lt front run := by
  match as, has with
  | [], _ => exact ⟨[], [], [], rfl, rfl, .of_ordered List.Pairwise.nil⟩
  | [a], _ => exact ⟨[a], [a], [], rfl, rfl, .of_ordered (List.pairwise_singleton _ a)⟩
  | a :: b :: rest, has =>
    obtain ⟨ha, hrest⟩ := List.forall_mem_cons.mp has
    obtain ⟨hb, hrest⟩ := List.forall_mem_cons.mp hrest
    have hfront : ∀ n, a :: b :: rest = (a :: b :: rest.take n) ++ rest.drop n := fun n => by
      rw [List.cons_append, List.cons_append, List.take_append_drop]
    have hrun : ∀ n, ∀ c ∈ b :: rest.take n, P c := fun n c hc => by
      obtain rfl | hc := List.mem_cons.mp hc
      · exact hb
      · exact hrest c (List.mem_of_mem_take hc)
    rw [splitRun, h.answers hb ha, ok_bind]
    cases hba : lt b a with
    | true =>
      -- a strictly descending run, which is turned round
      have hanswers : ∀ {x y}, P x → P y → less y x = .ok (lt y x) := fun hx hy => h.answers hy hx
      obtain ⟨n, hn, hpairs⟩ := exists_runLength P hanswers
        (fun hx hy hz hxy hyz => h.lt_trans hz hy hx hyz hxy) hb hrest
      refine ⟨_, _, _, by simp only [if_true, hn, ok_bind], hfront n, .of_descending h ?_ ?_⟩
      · exact List.forall_mem_cons.mpr ⟨ha, hrun n⟩
      · refine List.pairwise_cons.mpr ⟨fun c hc => ?_, hpairs⟩
        obtain rfl | hmem := List.mem_cons.mp hc
        · exact hba
        · exact h.lt_trans (hrun n c hc) hb ha ((List.pairwise_cons.mp hpairs).1 c hmem) hba
    | false =>
      -- an ascending run, which may have elements of equal rank, stays as it is
      have hanswers : ∀ {x y}, P x → P y → (less y x).map not = .ok (!lt y x) := by
        intro x y hx hy
        rw [h.answers hy hx]
        rfl
      have htrans : ∀ {x y z}, P x → P y → P z → (!lt y x) = true → (!lt z y) = true →
          (!lt z x) = true := by
        intro x y z hx hy hz hxy hyz
        rw [Bool.not_eq_true'] at hxy hyz ⊢
        exact h.le_trans hz hy hx hyz hxy
      obtain ⟨n, hn, hpairs⟩ := exists_runLength P hanswers htrans hb hrest
      simp only [Bool.not_eq_true'] at hpairs
      refine ⟨_, _, _, by simp only [Bool.false_eq_true, if_false, hn, ok_bind], hfront n,
        .of_ordered ?_⟩
      refine List.pairwise_cons.mpr ⟨fun c hc => ?_, hpairs⟩
      obtain rfl | hmem := List.mem_cons.mp hc
      · exact hba
      · exact h.le_trans (hrun n c hc) hb ha ((List.pairwise_cons.mp hpairs).1 c hmem) hba

/-! ### The results -/

/-- **Sorting is stable.** On elements that the test puts in order, the sort succeeds. -/
theorem DecidesOrder.exists_stableSort (h : DecidesOrder P less lt) {as : List α}
    (has : ∀ a ∈ as, P a) :
    ∃ out, stableSort less as = .ok out ∧ StablySorted P lt as out := by
  obtain ⟨front, run, rest, hsplit, rfl, hrun⟩ := h.exists_splitRun has
  obtain ⟨hfront, hrest⟩ := List.forall_mem_append.mp has
  obtain ⟨out, hout, hsorted⟩ := h.exists_insertAll hrun hfront hrest
  refine ⟨out, ?_, hsorted⟩
  rw [stableSort, hsplit, ok_bind]
  exact hout

/-- **Sorting in descending order is stable** as well: the list is turned around twice. -/
theorem DecidesOrder.exists_stableSortDescending (h : DecidesOrder P less lt) {as : List α}
    (has : ∀ a ∈ as, P a) :
    ∃ out, stableSortDescending less as = .ok out ∧
      StablySorted P (fun a b => lt b a) as out := by
  obtain ⟨out, hout, hsorted⟩ :=
    h.exists_stableSort fun a ha => has a (List.mem_reverse.mp ha)
  refine ⟨out.reverse, by rw [stableSortDescending, hout]; rfl, ?_, ?_, fun {c} hc => ?_⟩
  · exact (List.reverse_perm out).trans (hsorted.perm.trans (List.reverse_perm as))
  · exact List.pairwise_reverse.mpr hsorted.ordered
  · have hswap : tied (fun a b => lt b a) c = tied lt c := funext fun b => Bool.and_comm _ _
    rw [hswap, List.filter_reverse, hsorted.stable hc, List.filter_reverse, List.reverse_reverse]

theorem StablySorted.map {Q : β → Prop} {f : α → β} {lt' : β → β → Bool} {as out : List α}
    (h : StablySorted P (fun a b => lt' (f a) (f b)) as out)
    (onto : ∀ c, Q c → ∃ a, P a ∧ f a = c) : StablySorted Q lt' (as.map f) (out.map f) := by
  refine ⟨h.perm.map f, List.pairwise_map.mpr h.ordered, fun {c} hc => ?_⟩
  obtain ⟨a, ha, rfl⟩ := onto c hc
  rw [List.filter_map, List.filter_map]
  exact congrArg (List.map f) (h.stable ha)

/-- **A stable sort keeps an earlier order among tied elements.** -/
theorem StablySorted.pairwise_lex (irrefl : ∀ a, P a → lt a a = false) {as out : List α}
    (h : StablySorted P lt as out) (has : ∀ a ∈ as, P a) {r : α → α → Prop} (hr : as.Pairwise r) :
    out.Pairwise fun a b => lt a b = true ∨ tied lt a b = true ∧ r a b := by
  rw [List.pairwise_iff_forall_sublist]
  intro a b hab
  have ha : P a := has a (h.perm.mem_iff.mp (hab.subset List.mem_cons_self))
  have hle : lt b a = false := List.pairwise_iff_forall_sublist.mp h.ordered hab
  cases hlt : lt a b with
  | true => exact .inl rfl
  | false =>
    -- both elements are among those tied to the first, which stand as they did
    have hself : tied lt a a = true := tied_iff.mpr ⟨irrefl a ha, irrefl a ha⟩
    have hother : tied lt a b = true := tied_iff.mpr ⟨hlt, hle⟩
    have hkept := hab.filter (tied lt a)
    rw [h.stable ha] at hkept
    simp only [List.filter_cons, hself, hother, if_true, List.filter_nil] at hkept
    exact .inr ⟨hother, List.pairwise_iff_forall_sublist.mp (hr.filter _) hkept⟩

/-- What is left out of a list is left out of its sort, which stays stable. -/
theorem StablySorted.filter {as out : List α} (h : StablySorted P lt as out) (keep : α → Bool) :
    StablySorted P lt (as.filter keep) (out.filter keep) where
  perm := h.perm.filter keep
  ordered := h.ordered.filter keep
  stable hc := by
    rw [List.filter_comm, h.stable hc, List.filter_comm]

/-- A list in order is determined by its elements and by the order of those that are tied. -/
theorem eq_of_perm_of_ordered : ∀ {out out' : List α}, (∀ a ∈ out, lt a a = false) →
    out.Perm out' → (out.Pairwise fun a b => lt b a = false) →
    (out'.Pairwise fun a b => lt b a = false) →
    (∀ c ∈ out, out.filter (tied lt c) = out'.filter (tied lt c)) → out = out'
  | [], _, _, hperm, _, _, _ => hperm.nil_eq
  | a :: out, [], _, hperm, _, _, _ => absurd hperm.symm.nil_eq nofun
  | a :: out, b :: out', hirrefl, hperm, hordered, hordered', htied => by
    obtain ⟨ha, hrest⟩ := List.pairwise_cons.mp hordered
    obtain ⟨hb, hrest'⟩ := List.pairwise_cons.mp hordered'
    have hself : ∀ {c}, c ∈ a :: out → tied lt c c = true := fun hc =>
      tied_iff.mpr ⟨hirrefl _ hc, hirrefl _ hc⟩
    -- each head stands before the other one, or is it, so they are tied
    have hba : lt b a = false := by
      obtain rfl | hmem := List.mem_cons.mp (hperm.mem_iff.mpr List.mem_cons_self)
      · exact hirrefl b List.mem_cons_self
      · exact ha b hmem
    have hab : lt a b = false := by
      obtain rfl | hmem := List.mem_cons.mp (hperm.mem_iff.mp List.mem_cons_self)
      · exact hirrefl a List.mem_cons_self
      · exact hb a hmem
    -- and the first of those that are tied is the same in both lists
    have hheads := htied a List.mem_cons_self
    rw [List.filter_cons_of_pos (hself List.mem_cons_self),
      List.filter_cons_of_pos (tied_iff.mpr ⟨hab, hba⟩)] at hheads
    obtain ⟨rfl, -⟩ := List.cons.inj hheads
    refine congrArg (a :: ·) (eq_of_perm_of_ordered
      (fun c hc => hirrefl c (List.mem_cons_of_mem a hc)) (hperm.cons_inv) hrest hrest' ?_)
    intro c hc
    have hsame := htied c (List.mem_cons_of_mem a hc)
    rw [List.filter_cons, List.filter_cons] at hsame
    split at hsame
    · exact (List.cons.inj hsame).2
    · exact hsame

/-- **A list has only one stable sort.** -/
theorem StablySorted.unique {as out out' : List α} (irrefl : ∀ a ∈ as, lt a a = false)
    (has : ∀ a ∈ as, P a) (h : StablySorted P lt as out) (h' : StablySorted P lt as out') :
    out = out' := by
  have hmem : ∀ a ∈ out, a ∈ as := fun a ha => h.perm.mem_iff.mp ha
  refine eq_of_perm_of_ordered (fun a ha => irrefl a (hmem a ha)) (h.perm.trans h'.perm.symm)
    h.ordered h'.ordered fun c hc => ?_
  rw [h.stable (has c (hmem c hc)), h'.stable (has c (hmem c hc))]

end RecordQuery
