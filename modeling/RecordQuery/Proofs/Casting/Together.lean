import RecordQuery.Proofs.Casting.Unmapped

/-!
# Criteria are cast at once as they are in parts

Filters and sort items can be cast by themselves or as criteria. Each way checks for columns without
an entry first, and the check for criteria lists those of both parts in one error. After the checks
the two ways do the same.

* `unmappedColumns` — the columns that a cast refuses.
* `CastOptions.Returns` — the rules of the table always have a result. Without rules that raise
  errors of their own, a cast refuses columns in its check only (`Caster.failsWith_castAll_returns`,
  `Caster.failsWith_castItems`).
* `CastOptions.distinctTexts_append` — the columns of two checks, merged.
* `castCriteria_together` — the agreement.
-/

namespace RecordQuery

/-- The columns that a computation refuses for want of an entry. -/
def unmappedColumns {α : Type} : Except Error α → List String
  | .error (.unmapped columns) => columns
  | _ => []

/-! ### Two lists of columns -/

namespace CastOptions

variable {o : CastOptions}

/-- Texts that are listed already do not count again. -/
theorem distinctTexts_append (ts us : List String) :
    distinctTexts (ts ++ us) =
      distinctTexts ts ++ (distinctTexts us).filter (· ∉ distinctTexts ts) := by
  induction ts with
  | nil => simp [distinctTexts]
  | cons t ts ih =>
    -- both ways, a text of the second list has to differ from the first text and from the others
    have hsame : ∀ u, ((u != t) && decide (u ∉ distinctTexts ts)) =
        decide (u ∉ t :: (distinctTexts ts).filter fun u => u != t) := by
      intro u
      rw [Bool.eq_iff_iff]
      by_cases hu : u = t
      · simp [hu]
      · simp [hu]
    rw [List.cons_append, distinctTexts, ih, List.filter_append, List.filter_filter, distinctTexts,
      List.cons_append]
    simp only [hsame]

/-! ### Tables whose rules return -/

/-- The rules of the table and its changes of values always have a result. -/
structure Returns (o : CastOptions) : Prop where
  rule {key : String} {rule : Filter → Except Error (List Filter)}
    (h : (key, .replaced rule) ∈ o.filters) (f : Filter) : Succeeds (rule f)
  change {key : String} {target : ColumnPath} {f : String → Except Error Value}
    {operator : Option Operator} (h : (key, .moved target (some f) operator) ∈ o.filters)
    (text : String) : Succeeds (f text)
  sortRule {key : String} {rule : SortItem → Except Error (List SortItem)}
    (h : (key, .replaced rule) ∈ o.sorting) (i : SortItem) : Succeeds (rule i)

theorem Returns.not_raises (h : o.Returns) (e : Error) : ¬ o.Raises e := by
  rintro (⟨key, rule, f, hrule, he⟩ | ⟨key, target, f, operator, text, hchange, he⟩)
  · obtain ⟨gs, hgs⟩ := h.rule hrule f
    cases hgs.symm.trans he
  · obtain ⟨v, hv⟩ := h.change hchange text
    cases hv.symm.trans he

end CastOptions

namespace Caster

variable {c : Caster}

/-- A cast by such a table refuses no columns after its check. -/
theorem failsWith_castAll_returns (returns : c.options.Returns) (fs : List Filter) :
    FailsWith (fun e => ¬ e.IsUnmapped) (c.castAll none fs) := by
  refine (failsWith_castAll (c.stepsRefuseNothing fs)).mono fun e he hunmapped => ?_
  exact returns.not_raises e (he hunmapped)

theorem failsWith_castItem (returns : c.options.Returns) (i : SortItem) :
    FailsWith (fun e => ¬ e.IsUnmapped) (c.castItem i) := by
  rw [castItem]
  split
  · exact failsWith_ok _
  · split
    · next rule hrule =>
      obtain ⟨is, his⟩ := returns.sortRule (mem_of_lookup hrule) i
      rw [his]
      exact failsWith_ok _
    · exact failsWith_ok _
    · split
      · exact failsWith_ok _
      · refine FailsWith.bind ?_ fun column _ => failsWith_ok _
        -- a look-up fails in its own ways on any type, described or not
        refine failsWith_respelt (fun type path _ => ?_) fun e he => he.not_isUnmapped
        have hreached : c.schema.Reaches type type := .root
        have hlookUp := Schema.failsWith_lookUp hreached c.options.fallback path
        exact hlookUp.mono fun e h => h.not_isUnmapped

theorem failsWith_castItems (returns : c.options.Returns) (items : List SortItem) :
    FailsWith (fun e => ¬ e.IsUnmapped) (c.castItems items) :=
  (failsWith_mapM fun i _ => failsWith_castItem returns i).map _

end Caster

/-! ### A check and what follows it -/

section Checked

variable {α : Type} {o : CastOptions} {x : Except Error α}

/-- Columns are refused by the check, if by anything. -/
theorem checked_eq_unmapped_iff (refuses : o.refusesUnmapped = true)
    (hx : FailsWith (fun e => ¬ e.IsUnmapped) x) (columns found : List String) :
    (o.checkMapped columns >>= fun _ => x) = .error (.unmapped found) ↔
      columns ≠ [] ∧ found = CastOptions.distinctTexts columns := by
  by_cases hnil : columns = []
  · -- the check is passed, and what follows refuses nothing
    rw [hnil, CastOptions.checkMapped_nil, ok_bind]
    exact ⟨fun h => absurd (.intro found) (hx _ h), fun h => absurd rfl h.1⟩
  · rw [CastOptions.checkMapped_of_ne_nil refuses hnil]
    constructor
    · intro h
      cases h
      exact ⟨hnil, rfl⟩
    · rintro ⟨-, rfl⟩
      rfl

theorem unmappedColumns_checked (refuses : o.refusesUnmapped = true)
    (hx : FailsWith (fun e => ¬ e.IsUnmapped) x) (columns : List String) :
    unmappedColumns (o.checkMapped columns >>= fun _ => x) = CastOptions.distinctTexts columns := by
  by_cases hnil : columns = []
  · rw [hnil, CastOptions.checkMapped_nil, ok_bind]
    cases x with
    | ok a => rfl
    -- what follows the check may fail, but not by refusing columns
    | error e =>
      have hne : ¬ e.IsUnmapped := hx e rfl
      cases e with
      | unmapped found => exact absurd (.intro found) hne
      | _ => rfl
  · rw [CastOptions.checkMapped_of_ne_nil refuses hnil]
    rfl

end Checked

/-! ### Criteria -/

namespace Caster

variable {c : Caster}

/-- The casts of the filters and of the sort items of criteria, without any check. -/
def castParts (c : Caster) (criteria : Criteria) : Except Error Criteria := do
  let filters ← c.castAll none criteria.filters
  let sorting ← c.castItems criteria.sorting
  .ok ⟨filters, sorting⟩

theorem failsWith_castParts (returns : c.options.Returns) (criteria : Criteria) :
    FailsWith (fun e => ¬ e.IsUnmapped) (c.castParts criteria) :=
  (failsWith_castAll_returns returns criteria.filters).bind fun _ _ =>
    (failsWith_castItems returns criteria.sorting).bind fun _ _ => failsWith_ok _

/-- All three casts are a check and what follows it. -/
theorem casts_checked (c : Caster) (criteria : Criteria) :
    let columns := c.options.unmappedFilters criteria.filters
    let columns' := c.options.unmappedSorting criteria.sorting
    castFilters c criteria.filters =
        (c.options.checkMapped columns >>= fun _ => c.castAll none criteria.filters) ∧
      castSorting c criteria.sorting =
        (c.options.checkMapped columns' >>= fun _ => c.castItems criteria.sorting) ∧
      castCriteria c criteria =
        (c.options.checkMapped (columns ++ columns') >>= fun _ => c.castParts criteria) :=
  ⟨rfl, rfl, rfl⟩

/-- **A table that refuses columns.** Criteria are refused where one of their parts is. -/
theorem castCriteria_refused (returns : c.options.Returns)
    (refuses : c.options.refusesUnmapped = true) (criteria : Criteria) :
    let filters := castFilters c criteria.filters
    let sorting := castSorting c criteria.sorting
    ((∃ columns, castCriteria c criteria = .error (.unmapped columns)) ↔
      (∃ columns, filters = .error (.unmapped columns)) ∨
        ∃ columns, sorting = .error (.unmapped columns)) ∧
    ∀ columns, castCriteria c criteria = .error (.unmapped columns) →
      columns = unmappedColumns filters ++
        (unmappedColumns sorting).filter (· ∉ unmappedColumns filters) := by
  intro filters sorting
  obtain ⟨hfilters, hsorting, hcriteria⟩ := c.casts_checked criteria
  -- each of the three checks tells of its own cast what it refuses
  have hfilterCast := failsWith_castAll_returns returns criteria.filters
  have hsortCast := failsWith_castItems returns criteria.sorting
  have hfirst := checked_eq_unmapped_iff refuses hfilterCast
    (c.options.unmappedFilters criteria.filters)
  have hsecond := checked_eq_unmapped_iff refuses hsortCast
    (c.options.unmappedSorting criteria.sorting)
  have hboth := checked_eq_unmapped_iff refuses (failsWith_castParts returns criteria)
    (c.options.unmappedFilters criteria.filters ++ c.options.unmappedSorting criteria.sorting)
  rw [← hfilters] at hfirst
  rw [← hsorting] at hsecond
  rw [← hcriteria] at hboth
  refine ⟨⟨?_, ?_⟩, fun columns h => ?_⟩
  · rintro ⟨columns, h⟩
    have hne := ((hboth columns).mp h).1
    by_cases hnil : c.options.unmappedFilters criteria.filters = []
    · -- the columns are those of the sort items only
      rw [hnil, List.nil_append] at hne
      exact .inr ⟨_, (hsecond _).mpr ⟨hne, rfl⟩⟩
    · exact .inl ⟨_, (hfirst _).mpr ⟨hnil, rfl⟩⟩
  · rintro (⟨columns, h⟩ | ⟨columns, h⟩)
    · have hne := ((hfirst columns).mp h).1
      exact ⟨_, (hboth _).mpr ⟨List.append_ne_nil_of_left_ne_nil hne _, rfl⟩⟩
    · have hne := ((hsecond columns).mp h).1
      exact ⟨_, (hboth _).mpr ⟨List.append_ne_nil_of_right_ne_nil _ hne, rfl⟩⟩
  · -- the merged check is the two single ones, of which each part shows its own
    have hcolumns := unmappedColumns_checked refuses hfilterCast
      (c.options.unmappedFilters criteria.filters)
    have hcolumns' := unmappedColumns_checked refuses hsortCast
      (c.options.unmappedSorting criteria.sorting)
    rw [← hfilters] at hcolumns
    rw [← hsorting] at hcolumns'
    rw [hcolumns, hcolumns', ← CastOptions.distinctTexts_append]
    exact ((hboth columns).mp h).2

/-- **Every other case.** Where no check finds anything, criteria are cast as their parts are. -/
theorem castCriteria_of_passed {criteria : Criteria}
    (passed : c.options.refusesUnmapped = false ∨
      c.options.unmappedFilters criteria.filters ++ c.options.unmappedSorting criteria.sorting =
        []) :
    castCriteria c criteria = (do
      let fs ← castFilters c criteria.filters
      let ss ← castSorting c criteria.sorting
      .ok ⟨fs, ss⟩) := by
  obtain ⟨hfilters, hsorting, hcriteria⟩ := c.casts_checked criteria
  rw [hfilters, hsorting, hcriteria]
  -- one check of both lists passes if the checks of each of them do
  obtain lax | hnil := passed
  · rw [CastOptions.checkMapped_of_lax lax, CastOptions.checkMapped_of_lax lax,
      CastOptions.checkMapped_of_lax lax]
    rfl
  · obtain ⟨hfound, hfound'⟩ := List.append_eq_nil_iff.mp hnil
    rw [hfound, hfound', List.append_nil, CastOptions.checkMapped_nil]
    rfl

end Caster

/-- **Criteria are cast as their parts are.** The rules of the table always return. If it refuses
columns without an entry, criteria are refused exactly if their filters or their sort items are, and
the error lists the columns of the filters and then those of the sort items that are not listed yet.
In every other case criteria are cast by casting the filters and then the sort items, with the
results of both, or with the error of the first of them that fails. -/
theorem castCriteria_together {c : Caster} (returns : c.options.Returns) (criteria : Criteria) :
    let filters := castFilters c criteria.filters
    let sorting := castSorting c criteria.sorting
    (c.options.refusesUnmapped = true →
      ((∃ columns, castCriteria c criteria = .error (.unmapped columns)) ↔
        (∃ columns, filters = .error (.unmapped columns)) ∨
          ∃ columns, sorting = .error (.unmapped columns)) ∧
      ∀ columns, castCriteria c criteria = .error (.unmapped columns) →
        columns = unmappedColumns filters ++
          (unmappedColumns sorting).filter (· ∉ unmappedColumns filters)) ∧
    (c.options.refusesUnmapped = false ∨
        (∀ columns, castCriteria c criteria ≠ .error (.unmapped columns)) →
      castCriteria c criteria = do
        let fs ← filters
        let ss ← sorting
        .ok ⟨fs, ss⟩) := by
  intro filters sorting
  refine ⟨fun refuses => Caster.castCriteria_refused returns refuses criteria, fun hother => ?_⟩
  apply Caster.castCriteria_of_passed
  cases hrefuses : c.options.refusesUnmapped with
  | false => exact .inl rfl
  | true =>
    -- a strict table would have refused what its check finds
    have hnever := hother.resolve_left (by rw [hrefuses]; exact nofun)
    right
    by_contra hne
    have hrefused := checked_eq_unmapped_iff hrefuses (Caster.failsWith_castParts returns criteria)
    exact hnever _ ((hrefused _ _).mpr ⟨hne, rfl⟩)

open Companies in
/-- The teams have no entry, neither for the filters nor for the sort list, where the name has none
either. The error lists each of them once. Without the check both parts are cast. -/
theorem castCriteria_together_of_company :
    let teams : ColumnPath := ⟨["teams"], by decide, by decide⟩
    let name : ColumnPath := ⟨["name"], by decide, by decide⟩
    let members : ColumnPath := ⟨["teams", "members"], by decide, by decide⟩
    let f := addressed teams members ⟨["teams", "members", "mail"], by decide, by decide⟩
    let criteria : Criteria := ⟨[f], [⟨teams, .asc⟩, ⟨name, .desc⟩]⟩
    let o := moving members members
    let c : Caster := ⟨schema, none, { o with refusesUnmapped := true }⟩
    let c' : Caster := ⟨schema, none, o⟩
    o.Returns ∧ castFilters c criteria.filters = .error (.unmapped ["teams"]) ∧
      castSorting c criteria.sorting = .error (.unmapped ["teams", "name"]) ∧
      castCriteria c criteria = .error (.unmapped ["teams", "name"]) ∧
      castFilters c' criteria.filters = .ok [f] ∧
      castSorting c' criteria.sorting = .ok criteria.sorting ∧
      castCriteria c' criteria = .ok criteria := by
  intro teams name members f criteria o c c'
  have hplain : o.IsPlain := isPlain_moving members members
  -- a table that only moves has no rules that could fail
  have hreturns : o.Returns := by
    refine ⟨fun h => ?_, fun h => ?_, fun h => nomatch h⟩
    · obtain ⟨_, _, hm⟩ := hplain _ _ h
      cases hm
    · obtain ⟨_, _, hm⟩ := hplain _ _ h
      cases hm
  have hstrict : c.options.Returns := ⟨hreturns.rule, hreturns.change, hreturns.sortRule⟩
  have hfilters : castFilters c criteria.filters = .error (.unmapped ["teams"]) := by
    decide +kernel
  have hsorting : castSorting c criteria.sorting = .error (.unmapped ["teams", "name"]) := by
    decide +kernel
  have hfilters' : castFilters c' criteria.filters = .ok [f] := by decide +kernel
  have hsorting' : castSorting c' criteria.sorting = .ok criteria.sorting := by decide +kernel
  obtain ⟨hrefused, -⟩ := castCriteria_together hstrict criteria
  -- the lax table passes the same columns through
  obtain ⟨-, hcast⟩ := castCriteria_together (c := c') hreturns criteria
  obtain ⟨hiff, hcolumns⟩ := hrefused rfl
  obtain ⟨columns, h⟩ := hiff.mpr (.inl ⟨_, hfilters⟩)
  have hlisted := hcolumns columns h
  rw [hfilters, hsorting] at hlisted
  obtain rfl : columns = ["teams", "name"] := hlisted.trans (by decide)
  have hlax := hcast (.inl rfl)
  rw [hfilters', hsorting'] at hlax
  exact ⟨hreturns, hfilters, hsorting, h, hfilters', hsorting', hlax⟩

end RecordQuery
