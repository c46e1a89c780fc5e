import RecordQuery.Proofs.Conjunction
import RecordQuery.Proofs.Sorting.Lexicographic

/-!
# Selecting and sorting commute

A specification filters records first and sorts what is left. It could as well sort all records and
filter afterwards. A sort is stable, and a list has only one stable sort: so the sort of what is
left consists of what is left of the sort. Key by key, this holds for sort lists.

* `placedFrom` — records with their places, by which two equal ones are told apart.
* `SortKey.sort_filter`, `SortKey.sortBy_filter` — the step of one key, and all of them.
* `Specification.apply_commutes` — the result for specifications.
-/

namespace RecordQuery

/-! ### Places -/

section

variable {α β : Type}

/-- The elements of a list with their places, counted from a given one on. -/
def placedFrom (i : Nat) (as : List α) : List (Nat × α) := (as.zipIdx i).map Prod.swap

theorem placedFrom_cons (i : Nat) (a : α) (as : List α) :
    placedFrom i (a :: as) = (i, a) :: placedFrom (i + 1) as := rfl

@[simp] theorem map_snd_placedFrom (i : Nat) (as : List α) :
    (placedFrom i as).map Prod.snd = as := by
  rw [placedFrom, List.map_map]
  exact List.zipIdx_map_fst i as

theorem placedFrom_map (f : α → β) (i : Nat) (as : List α) :
    placedFrom i (as.map f) = (placedFrom i as).map fun a => (a.1, f a.2) := by
  rw [placedFrom, placedFrom, List.zipIdx_map, List.map_map, List.map_map]
  rfl

theorem getElem?_of_mem_placedFrom {as : List α} {a : Nat × α} (h : a ∈ placedFrom 0 as) :
    as[a.1]? = some a.2 := by
  obtain ⟨b, hb, rfl⟩ := List.mem_map.mp h
  exact List.mem_zipIdx_iff_getElem?.mp hb

/-- A test that answers on all elements keeps those on which it holds. -/
theorem keepFrom_eq {test : α → Except Fault Bool} {keep : α → Bool} :
    ∀ {as : List α} (i : Nat), (∀ a ∈ as, test a = .ok (keep a)) →
      keepFrom test i as = .ok ((placedFrom i as).filter fun a => keep a.2)
  | [], _, _ => rfl
  | a :: as, i, h => by
    obtain ⟨ha, has⟩ := List.forall_mem_cons.mp h
    rw [keepFrom, ha, ok_bind, keepFrom_eq (i + 1) has, ok_bind, placedFrom_cons, List.filter_cons]

end

/-! ### Keys -/

namespace SortKey

variable {α β : Type} {s : Schema} {key : SortKey} {record : α → Value} {as : List α}

/-- Whether a key can be used depends on the records only, not on what they are told apart by. -/
theorem sortable_map_iff {f : β → α} {bs : List β} :
    key.Sortable s record (bs.map f) ↔ key.Sortable s (fun b => record (f b)) bs := by
  have hvalues : ∀ v, (∃ a ∈ bs.map f, s.read key.nullGuard key.column (record a) = .ok v) ↔
      ∃ b ∈ bs, s.read key.nullGuard key.column (record (f b)) = .ok v := fun v => by
    simp only [List.mem_map, exists_exists_and_eq_and]
  constructor
  · rintro ⟨reads, ordered⟩
    exact ⟨fun b hb => reads (f b) (List.mem_map_of_mem hb),
      ordered.mono fun v => And.imp_right (hvalues v).mpr⟩
  · rintro ⟨reads, ordered⟩
    exact ⟨List.forall_mem_map.mpr reads, ordered.mono fun v => And.imp_right (hvalues v).mp⟩

/-- A key that can be used on some records can be used on fewer. -/
theorem Sortable.filter (h : key.Sortable s record as) (keep : α → Bool) :
    key.Sortable s record (as.filter keep) where
  reads := fun a ha => h.reads a (List.mem_of_mem_filter ha)
  ordered := h.ordered.mono fun _ ⟨hnull, a, ha, hread⟩ =>
    ⟨hnull, a, List.mem_of_mem_filter ha, hread⟩

/-- **One key.** The sort of what is left is what is left of the sort. -/
theorem sort_filter (h : key.Sortable s record as) (keep : α → Bool) {out : List α}
    (hout : sort s key record as = .ok out) :
    sort s key record (as.filter keep) = .ok (out.filter keep) := by
  obtain ⟨out', hout', hsorted⟩ := exists_sort h
  cases hout.symm.trans hout'
  obtain ⟨kept, hkept, hkeptSorted⟩ := exists_sort (h.filter keep)
  have hmono : StablySorted (· ∈ as.filter keep)
      (fun a b => key.before s (record a) (record b)) (as.filter keep) (out.filter keep) :=
    ⟨(hsorted.filter keep).perm, (hsorted.filter keep).ordered,
      fun hc => (hsorted.filter keep).stable (List.mem_of_mem_filter hc)⟩
  have hirrefl : ∀ a ∈ as.filter keep, key.before s (record a) (record a) = false := fun a ha =>
    h.not_before_self (List.mem_of_mem_filter ha)
  -- both are stable sorts of what is kept, and there is only one
  rw [hkept, hkeptSorted.unique hirrefl (fun _ ha => ha) hmono]

/-- **All keys.** -/
theorem sortBy_filter : ∀ {keys : List SortKey}, (∀ key ∈ keys, key.Sortable s record as) →
    ∀ (keep : α → Bool) {out : List α}, sortBy s record keys as = .ok out →
      sortBy s record keys (as.filter keep) = .ok (out.filter keep)
  | [], _, _, _, hout => by
    cases hout
    rfl
  | key :: keys, h, keep, out, hout => by
    obtain ⟨hkey, hkeys⟩ := List.forall_mem_cons.mp h
    obtain ⟨mid, hmid, hperm, -⟩ := exists_sortBy hkeys
    rw [sortBy, hmid] at hout
    rw [sortBy, sortBy_filter hkeys keep hmid]
    exact sort_filter (hkey.perm hperm) keep hout

end SortKey

/-! ### Specifications -/

/-- Whether a predicate holds for a record. -/
def Predicate.selects (s : Schema) (p : Predicate) (record : Value) : Bool :=
  decide (p.holds s record = .ok true)

theorem Predicate.holds_eq_selects {s : Schema} {p : Predicate} {record : Value}
    (h : Succeeds (p.holds s record)) : p.holds s record = .ok (p.selects s record) := by
  obtain ⟨b, hb⟩ := h
  rw [selects, hb]
  cases b <;> rfl

namespace Specification

variable {s : Schema} {spec : Specification} {cache : PredicateCache}

/-- **Selecting and sorting commute.** Take a specification, after any uses and, in a legible schema,
with any cache, and records on which its predicate answers, its keys can be read, and the values of
each key are totally ordered. What the specification makes of the records is what its filters keep
of all records, when these are sorted. It has each record that satisfies the filters once, and those
of them that no key tells apart stand as they did. -/
theorem apply_commutes {type : TypeExpr} {criteria : Criteria} {options : Options} {shared : Bool}
    (used : (of type criteria options shared).Used s spec) (legible : shared = true → s.Legible)
    (arises : cache.Arises s) (request : Nat) {p : Predicate}
    (compiled : compileFilter s options Predicate.usualRegistry type criteria.filters = .ok p)
    {keys : List SortKey} (accepted : compileSorting s options type criteria.sorting = .ok keys)
    {records : List Value} (answers : ∀ record ∈ records, Succeeds (p.holds s record))
    (sortable : ∀ key ∈ keys, key.Sortable s id records) :
    ∃ sorted kept out,
      applySorting s options type criteria.sorting Prod.snd (placedFrom 0 records) = .ok sorted ∧
      applyFilter s options Predicate.usualRegistry type criteria.filters (sorted.map Prod.snd) =
        .ok kept ∧
      (spec.apply s request cache records).1 = .ok out ∧
      (kept.map fun k => sorted[k.1]?) = out.map some ∧
      out.Perm ((placedFrom 0 records).filter fun a => p.selects s a.2) ∧
      ∀ a ∈ placedFrom 0 records, out.filter (fun b => SortKey.agreeOnAll s keys a.2 b.2) =
        ((placedFrom 0 records).filter fun b => p.selects s b.2).filter fun b =>
          SortKey.agreeOnAll s keys a.2 b.2 := by
  have hplaced : ∀ key ∈ keys, key.Sortable s Prod.snd (placedFrom 0 records) := by
    intro key hkey
    have hiff : key.Sortable s id ((placedFrom 0 records).map Prod.snd) ↔
        key.Sortable s Prod.snd (placedFrom 0 records) := SortKey.sortable_map_iff
    rw [map_snd_placedFrom] at hiff
    exact hiff.mp (sortable key hkey)
  obtain ⟨sorted, hsorted, hperm, -, hties⟩ := SortKey.exists_sortBy hplaced
  have hmem : ∀ a ∈ sorted, a.2 ∈ records := by
    intro a ha
    rw [← map_snd_placedFrom 0 records]
    exact List.mem_map_of_mem (hperm.mem_iff.mp ha)
  have hholds : ∀ record ∈ records, p.holds s record = .ok (p.selects s record) :=
    fun record hrecord => Predicate.holds_eq_selects (answers record hrecord)
  have hsort : ∀ {as out : List (Nat × Value)}, SortKey.sortBy s Prod.snd keys as = .ok out →
      applySorting s options type criteria.sorting Prod.snd as = .ok out := by
    intro as out hout
    rw [applySorting, accepted, ok_bind, hout]
    rfl
  refine ⟨sorted, (placedFrom 0 (sorted.map Prod.snd)).filter fun a => p.selects s a.2,
    sorted.filter fun a => p.selects s a.2, hsort hsorted, ?_, ?_, ?_, hperm.filter _,
    fun a ha => ?_⟩
  · rw [applyFilter, compiled, ok_bind, keepFrom_eq 0 fun record hrecord => ?_]
    · rfl
    · obtain ⟨a, ha, rfl⟩ := List.mem_map.mp hrecord
      exact hholds a.2 (hmem a ha)
  · -- at first no predicate has been made
    obtain ⟨hkeeps, kept, rfl⟩ := used.keeps legible fun c hc => by cases hc
    obtain ⟨c, hc, haccepts⟩ :=
      (matched_prepare hkeeps legible arises.isSound request).exists_left compiled
    have hkept : keepFrom (accepts s c) 0 records =
        .ok ((placedFrom 0 records).filter fun a => p.selects s a.2) :=
      keepFrom_eq 0 fun record hrecord => (haccepts record).trans (hholds record hrecord)
    show ((Specification.prepare s request cache _).1 >>= fun c => arrange s _ c records) = _
    rw [hc, ok_bind, arrange, hkept]
    exact hsort (SortKey.sortBy_filter hplaced _ hsorted)
  · -- what is kept of the records is found at its place in the sorted list
    have hfound : ∀ a ∈ (placedFrom 0 sorted).filter fun a => p.selects s a.2.2,
        sorted[a.1]? = some a.2 := fun a ha =>
      getElem?_of_mem_placedFrom (List.mem_of_mem_filter ha)
    rw [placedFrom_map, List.filter_map, List.map_map]
    refine (List.map_congr_left hfound).trans ?_
    show ((placedFrom 0 sorted).filter fun a => p.selects s a.2.2).map (fun a => some a.2) = _
    conv_rhs => rw [← map_snd_placedFrom 0 sorted, List.filter_map, List.map_map]
    rfl
  · rw [List.filter_comm, hties a ha, List.filter_comm]

/-- Runners with three laps or more, the teams with greater numbers first, after the specification
has been used once. Two of them have as many laps for the same team, and keep their places. -/
theorem apply_commutes_of_race :
    let criteria : Criteria :=
      ⟨[.leaf ⟨["laps"], by decide, by decide⟩ .gte (.plain "3")], Race.order⟩
    let start := of (.named "Runner") criteria .usual true
    let spec := (start.prepare Race.schema 0 .empty).2.1
    let records := [(7, some 3), (8, some 4), (7, none), (8, none), (7, some 3)].map
      fun r : Int × Option Int => Race.runner r.1 r.2
    ∃ p keys sorted kept out,
      compileFilter Race.schema .usual Predicate.usualRegistry (.named "Runner") criteria.filters =
        .ok p ∧
      compileSorting Race.schema .usual (.named "Runner") criteria.sorting = .ok keys ∧
      (∀ record ∈ records, Succeeds (p.holds Race.schema record)) ∧
      (∀ key ∈ keys, key.Sortable Race.schema id records) ∧
      applySorting Race.schema .usual (.named "Runner") criteria.sorting Prod.snd
        (placedFrom 0 records) = .ok sorted ∧
      applyFilter Race.schema .usual Predicate.usualRegistry (.named "Runner") criteria.filters
        (sorted.map Prod.snd) = .ok kept ∧
      (spec.apply Race.schema 1 .empty records).1 = .ok out ∧
      (kept.map fun k => sorted[k.1]?) = out.map some ∧ out.map Prod.fst = [1, 0, 4] := by
  intro criteria start spec records
  have hused : start.Used Race.schema spec := .use .start 0 .empty
  obtain ⟨p, hp, hanswers⟩ : ∃ p, compileFilter Race.schema .usual Predicate.usualRegistry
      (.named "Runner") criteria.filters = .ok p ∧
        ∀ record ∈ records, Succeeds (p.holds Race.schema record) := by
    refine ⟨_, rfl, ?_⟩
    simp only [records, List.map_cons, List.map_nil, List.forall_mem_cons]
    exact ⟨⟨true, rfl⟩, ⟨true, rfl⟩, ⟨false, rfl⟩, ⟨false, rfl⟩, ⟨true, rfl⟩, List.forall_mem_nil _⟩
  obtain ⟨team, laps, accepted, hteam, hlaps⟩ := Race.exists_keys
  -- some laps are missing, which a sort allows for, and all other values are numbers
  have hsortable : ∀ key ∈ [team, laps], key.Sortable Race.schema id records := by
    intro key hkey
    refine SortKey.sortable_map_iff.mpr (Race.sortable fun r _ => ?_)
    obtain rfl | hkey := List.mem_cons.mp hkey
    · exact .inr ⟨r.1, hteam _ _⟩
    · obtain rfl := List.mem_singleton.mp hkey
      obtain ⟨_, _ | n⟩ := r
      · exact .inl (hlaps _ _)
      · exact .inr ⟨n, hlaps _ _⟩
  obtain ⟨sorted, kept, out, hsorted, hkept, hout, hsame, -⟩ :=
    apply_commutes hused (fun _ => Schema.legible_of_absent rfl rfl) .empty 1 hp accepted hanswers
      hsortable
  -- the two runners without laps are left out
  have hplaces : (spec.apply Race.schema 1 .empty records).1.map (fun out => out.map Prod.fst) =
      .ok [1, 0, 4] := rfl
  rw [hout] at hplaces
  exact ⟨p, _, sorted, kept, out, hp, accepted, hanswers, hsortable, hsorted, hkept, hout, hsame,
    Except.ok.inj hplaces⟩

end Specification
end RecordQuery
