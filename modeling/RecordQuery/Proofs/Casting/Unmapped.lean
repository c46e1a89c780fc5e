import RecordQuery.Proofs.Casting.Failures

/-!
# Columns without an entry are refused

A table can refuse filters with columns that it has no entry for. Before anything is cast, one walk
over the filters collects these columns, and a second walk casts the filters. The first walk carries
a flag, whether a quantifier with an entry is above; the second one carries the collection that it
is in. They agree on which items are without an entry.

* `Filter.Place` — a column with the quantifiers above it; `CastOptions.isMissing` says of a place
  that neither the column nor any of these quantifiers has an entry.
* `CastOptions.unmapped_eq` — the first walk lists the missing places.
* `FirstPlaces` — each text once, in the order of their first places; `firstPlaces_distinctTexts`.
* `Caster.castWith` — the second walk, with a free choice of what is done about items without an
  entry outside collections. Where no place is missing the choice is never made
  (`Caster.castWith_of_listed`).
* `castFilters_gate` — the result; `castFilters_not_gate` shows that a rule can refuse columns too,
  and that a part which is no filter goes before all columns.

Inside a collection whose quantifier has an entry, columns without one are passed through, whether
the table drops such columns or not. So the flag for dropping matters outside collections only,
where the first walk has found nothing.
-/

namespace RecordQuery

/-! ### Places -/

namespace Filter

/-- A column in a filter and the columns of the quantifiers above it, the innermost first. -/
structure Place where
  column : ColumnPath
  above : List ColumnPath
  deriving DecidableEq

mutual

/-- The places of the columns of a filter that stands below some quantifiers, from left to right. -/
def places (above : List ColumnPath) : Filter → List Place
  | leaf c _ _ => [⟨c, above⟩]
  | group _ cs => placesAll above cs
  | quantified _ c cs => ⟨c, above⟩ :: placesAll (c :: above) cs
termination_by structural f => f

/-- The places of the columns of several filters. -/
def placesAll (above : List ColumnPath) : List Filter → List Place
  | [] => []
  | f :: fs => places above f ++ placesAll above fs
termination_by structural fs => fs

end

mutual

theorem map_column_places (above : List ColumnPath) :
    ∀ f : Filter, (f.places above).map Place.column = f.columns
  | leaf _ _ _ => rfl
  | group _ cs => map_column_placesAll above cs
  | quantified _ c cs => by
    rw [places, columns, List.map_cons, map_column_placesAll (c :: above) cs]

theorem map_column_placesAll (above : List ColumnPath) :
    ∀ fs : List Filter, (placesAll above fs).map Place.column = columnsAll fs
  | [] => rfl
  | f :: fs => by
    rw [placesAll, columnsAll, List.map_append, map_column_places above f,
      map_column_placesAll above fs]

end

end Filter

/-! ### The columns that are listed -/

/-- A list has each of some texts once, in the order of their first places. -/
structure FirstPlaces (texts firsts : List String) : Prop where
  mem (t : String) : t ∈ firsts ↔ t ∈ texts
  ordered : firsts.Pairwise fun t u => texts.idxOf t < texts.idxOf u

theorem FirstPlaces.nodup {texts firsts : List String} (h : FirstPlaces texts firsts) :
    firsts.Nodup := by
  refine h.ordered.imp fun hlt hsame => ?_
  subst hsame
  exact lt_irrefl _ hlt

namespace CastOptions

variable {o : CastOptions}

theorem mem_distinctTexts {t : String} {ts : List String} : t ∈ distinctTexts ts ↔ t ∈ ts := by
  induction ts with
  | nil => exact Iff.rfl
  | cons u us ih =>
    rw [distinctTexts, List.mem_cons, List.mem_cons, List.mem_filter, ih]
    constructor
    · rintro (h | ⟨h, -⟩)
      · exact .inl h
      · exact .inr h
    · intro h
      by_cases hsame : t = u
      · exact .inl hsame
      · exact .inr ⟨h.resolve_left hsame, bne_iff_ne.mpr hsame⟩

theorem firstPlaces_distinctTexts (ts : List String) : FirstPlaces ts (distinctTexts ts) := by
  refine ⟨fun t => mem_distinctTexts, ?_⟩
  induction ts with
  | nil => exact .nil
  | cons t ts ih =>
    -- the first text comes before all others, and these stay in their order one place further
    have hne : ∀ u ∈ (distinctTexts ts).filter (fun u => u != t), u ≠ t := by
      intro u hu
      exact bne_iff_ne.mp (List.mem_filter.mp hu).2
    refine List.pairwise_cons.mpr ⟨fun u hu => ?_, ?_⟩
    · rw [List.idxOf_cons_self, List.idxOf_cons_ne ts (hne u hu).symm]
      exact Nat.succ_pos _
    · refine List.Pairwise.imp_of_mem ?_ (ih.filter _)
      intro u v hu hv hlt
      rw [List.idxOf_cons_ne ts (hne u hu).symm, List.idxOf_cons_ne ts (hne v hv).symm]
      exact Nat.succ_lt_succ hlt

/-- Whether the table says nothing about a column, nor about a quantifier above it. -/
def isMissing (o : CastOptions) (x : Filter.Place) : Bool :=
  !(x.above.any o.mapsFilter || o.mapsFilter x.column)

mutual

/-- **The first walk.** The flag says whether a quantifier above has an entry, and what is listed
are the columns at missing places. -/
theorem unmapped_eq (above : List ColumnPath) : ∀ f : Filter,
    o.unmapped (above.any o.mapsFilter) f =
      ((f.places above).filter o.isMissing).map fun x => x.column.text
  | .leaf c _ _ => by
    rw [unmapped, Filter.places, List.filter_singleton, isMissing]
    cases above.any o.mapsFilter || o.mapsFilter c <;> rfl
  | .group _ cs => unmappedAll_eq above cs
  | .quantified _ c cs => by
    have hchildren := unmappedAll_eq (c :: above) cs
    -- the flag for the conditions is that of the places below one more quantifier
    rw [List.any_cons, Bool.or_comm] at hchildren
    rw [unmapped, Filter.places, List.filter_cons, isMissing]
    simp only [hchildren]
    cases above.any o.mapsFilter || o.mapsFilter c <;> rfl

theorem unmappedAll_eq (above : List ColumnPath) : ∀ fs : List Filter,
    o.unmappedAll (above.any o.mapsFilter) fs =
      ((Filter.placesAll above fs).filter o.isMissing).map fun x => x.column.text
  | [] => rfl
  | f :: fs => by
    rw [unmappedAll, Filter.placesAll, List.filter_append, List.map_append, unmapped_eq above f,
      unmappedAll_eq above fs]

end

theorem unmappedFilters_eq (o : CastOptions) (fs : List Filter) :
    o.unmappedFilters fs =
      ((Filter.placesAll [] fs).filter o.isMissing).map fun x => x.column.text :=
  unmappedAll_eq [] fs

/-! ### Checks -/

theorem checkMapped_of_ne_nil {columns : List String} (refuses : o.refusesUnmapped = true)
    (h : columns ≠ []) : o.checkMapped columns = .error (.unmapped (distinctTexts columns)) := by
  rw [checkMapped, refuses, List.isEmpty_eq_false_iff.mpr h]
  rfl

theorem checkMapped_nil (o : CastOptions) : o.checkMapped [] = .ok () := by
  rw [checkMapped, List.isEmpty_nil, Bool.not_true, Bool.and_false]
  rfl

theorem checkMapped_of_lax (lax : o.refusesUnmapped = false) (columns : List String) :
    o.checkMapped columns = .ok () := by
  rw [checkMapped, lax]
  rfl

/-- An error that a rule of the table, or a change of a value, can have. -/
def Raises (o : CastOptions) (e : Error) : Prop :=
  (∃ key rule f, (key, .replaced rule) ∈ o.filters ∧ rule f = .error e) ∨
    ∃ key target f operator text, (key, .moved target (some f) operator) ∈ o.filters ∧
      f text = .error e

end CastOptions

/-! ### Nothing else is refused -/

theorem Error.IsGrammar.not_isUnmapped {e : Error} (h : e.IsGrammar) : ¬ e.IsUnmapped := by
  cases h
  rintro ⟨⟩

theorem Error.not_isUnmapped_misuse (m : Misuse) : ¬ (Error.misuse m).IsUnmapped := by
  rintro ⟨⟩

theorem Schema.LookUpFailure.not_isUnmapped {s : Schema} {root : TypeExpr} {e : Error}
    (h : s.LookUpFailure root e) : ¬ e.IsUnmapped := by
  cases h
  all_goals rintro ⟨⟩

namespace Caster

/-- An error with which columns are refused is one that the table itself raises. -/
def RefusesOnlyAs (o : CastOptions) (e : Error) : Prop := e.IsUnmapped → o.Raises e

theorem failsWith_resolve_unmapped (c : Caster) (type : TypeExpr) (path : ColumnPath) :
    FailsWith (RefusesOnlyAs c.options) (c.schema.resolve c.options.fallback type path) :=
  (Schema.failsWith_lookUp .root c.options.fallback path).mono fun _ h hunmapped =>
    absurd hunmapped h.not_isUnmapped

/-- The steps of a cast refuse no columns, unless a rule does. -/
theorem stepsRefuseNothing (c : Caster) (fs : List Filter) :
    c.StepsFailWith fs (RefusesOnlyAs c.options) := by
  -- columns are looked up on whatever type is known, so nothing is assumed of the schema
  have hrelative : ∀ p c' : ColumnPath, FailsWith (RefusesOnlyAs c.options) (p.relativeTo c') :=
    fun p c' => ColumnPath.failsWith_relativeTo fun _ hunmapped =>
      absurd hunmapped (Error.not_isUnmapped_misuse _)
  have hpassed : ∀ scope p, FailsWith (RefusesOnlyAs c.options) (c.passThrough scope p) := by
    intro scope p
    exact failsWith_passThrough (fun x _ => hrelative p x.source)
      (fun type path _ => c.failsWith_resolve_unmapped type path)
      fun e he hunmapped => absurd hunmapped he.not_isUnmapped
  have helement : ∀ scope p, FailsWith (RefusesOnlyAs c.options) (c.elementType scope p) := by
    intro scope p
    exact failsWith_elementType (fun x _ _ => hrelative p x.target)
      fun type path _ => c.failsWith_resolve_unmapped type path
  have hrule : ∀ p rule, c.options.filterMapping? p = some (.replaced rule) → ∀ f,
      FailsWith (RefusesOnlyAs c.options) (rule f) := by
    intro p rule h f e he _
    -- an error of a rule is one that the table raises, whatever it is
    exact .inl ⟨_, rule, f, mem_of_lookup h, he⟩
  constructor
  · intro scope p o raw _
    refine failsWith_castLeaf (fun rule h => hrule p rule h _) (fun target f operator h => ?_)
      (hpassed scope p)
    refine FailsWith.bind (fun e he _ => ?_) fun value _ => ?_
    · exact .inr ⟨_, target, f, operator, raw.text, mem_of_lookup h, he⟩
    · -- a value that is no text is misused
      rw [rawText]
      split
      · exact failsWith_ok _
      · exact failsWith_error fun h => absurd h (Error.not_isUnmapped_misuse _)
  · intro scope q p gs _
    exact failsWith_castColumn (fun rule h => hrule p rule h _)
      (fun target _ _ _ _ => helement scope target) (hpassed scope p)
      fun target _ => helement scope target
  · exact fun he hunmapped => absurd hunmapped he.not_isUnmapped

/-! ### The second walk -/

mutual

/-- The cast of filters outside collections, with a choice of what is done about items without an
entry. Below a quantifier with an entry it is the usual one. -/
def castWith (c : Caster) (unlisted : Filter → Except Error (List Filter)) :
    Filter → Except Error (List Filter)
  | .leaf p o raw =>
    if c.options.mapsFilter p then c.castLeaf none p o raw else unlisted (.leaf p o raw)
  | .group k children => do
    let children ← castAllWith c unlisted children
    .ok (if children.isEmpty then [] else [.group k children])
  | .quantified q p children =>
    if c.options.mapsFilter p then c.cast none (.quantified q p children)
    else unlisted (.quantified q p children)
termination_by structural f => f

/-- The same for several filters. -/
def castAllWith (c : Caster) (unlisted : Filter → Except Error (List Filter)) :
    List Filter → Except Error (List Filter)
  | [] => .ok []
  | f :: fs => do
    let first ← castWith c unlisted f
    let rest ← castAllWith c unlisted fs
    .ok (first ++ rest)
termination_by structural fs => fs

end

section Walk

variable {c : Caster}

mutual

theorem castWith_cast : ∀ f : Filter, c.castWith (c.cast none) f = c.cast none f
  | .leaf p o raw => by
    rw [castWith, cast, ite_self]
  | .group k gs => by
    rw [castWith, cast, castAllWith_cast gs]
  | .quantified q p gs => by
    -- below a quantifier there is no choice, so no hypothesis on the conditions is needed
    rw [castWith, ite_self]

theorem castAllWith_cast : ∀ fs : List Filter,
    c.castAllWith (c.cast none) fs = c.castAll none fs
  | [] => rfl
  | f :: fs => by
    rw [castAllWith, castAll, castWith_cast f, castAllWith_cast fs]

end

variable {unlisted unlisted' : Filter → Except Error (List Filter)}

theorem mapsFilter_of_listed {o : CastOptions} {p : ColumnPath}
    (h : o.isMissing ⟨p, []⟩ = false) : o.mapsFilter p = true := by
  rw [CastOptions.isMissing, List.any_nil, Bool.false_or] at h
  cases hlisted : o.mapsFilter p with
  | true => rfl
  | false =>
    rw [hlisted] at h
    cases h

mutual

/-- **No choice is left** where no place is missing. -/
theorem castWith_of_listed : ∀ {f : Filter},
    (∀ x ∈ f.places [], c.options.isMissing x = false) →
    c.castWith unlisted f = c.castWith unlisted' f
  | .leaf p o raw, h => by
    have hlisted := mapsFilter_of_listed (h _ (List.mem_singleton_self _))
    rw [castWith, castWith, if_pos hlisted, if_pos hlisted]
  | .group k gs, h => by
    rw [castWith, castWith, castAllWith_of_listed h]
  | .quantified q p gs, h => by
    -- of the places of a quantified filter only its own matters, which is outside collections
    have hlisted := mapsFilter_of_listed (h _ List.mem_cons_self)
    rw [castWith, castWith, if_pos hlisted, if_pos hlisted]

theorem castAllWith_of_listed : ∀ {fs : List Filter},
    (∀ x ∈ Filter.placesAll [] fs, c.options.isMissing x = false) →
    c.castAllWith unlisted fs = c.castAllWith unlisted' fs
  | [], _ => rfl
  | f :: fs, h => by
    rw [Filter.placesAll, List.forall_mem_append] at h
    rw [castAllWith, castAllWith, castWith_of_listed h.1, castAllWith_of_listed h.2]

end

/-! ### Dropping -/

/-- The same cast with a table that drops columns without an entry, or does not. -/
def dropping (c : Caster) (drops : Bool) : Caster :=
  { c with options := { c.options with dropsUnmapped := drops } }

variable {drops : Bool}

/-- A quantified filter is cast alike, if its column and its conditions are. -/
theorem cast_quantified_dropping {scope : Option CastScope} {q : Quantifier} {p : ColumnPath}
    {gs : List Filter}
    (column : (c.dropping drops).castColumn scope q p gs = c.castColumn scope q p gs)
    (children : ∀ x, (c.dropping drops).castAll (some x) gs = c.castAll (some x) gs) :
    (c.dropping drops).cast scope (.quantified q p gs) = c.cast scope (.quantified q p gs) := by
  rw [cast, cast, column]
  congr 1
  funext result
  cases result with
  | dropped => rfl
  | replaced filters => rfl
  | moved inner =>
    -- only a column that is moved lets its conditions be cast
    show (c.dropping drops).castAll (some inner) gs >>= _ = c.castAll (some inner) gs >>= _
    rw [children inner]

mutual

/-- In a collection nothing is dropped for want of an entry. -/
theorem cast_dropping : ∀ (f : Filter) (x : CastScope),
    (c.dropping drops).cast (some x) f = c.cast (some x) f
  | .leaf _ _ _, _ => rfl
  | .group k gs, x => by
    rw [cast, cast, castAll_dropping gs x]
  | .quantified q p gs, x => cast_quantified_dropping rfl (castAll_dropping gs)

theorem castAll_dropping : ∀ (fs : List Filter) (x : CastScope),
    (c.dropping drops).castAll (some x) fs = c.castAll (some x) fs
  | [], _ => rfl
  | f :: fs, x => by
    rw [castAll, castAll, cast_dropping f x, castAll_dropping fs x]

end

/-- A column of which the table says something is excluded or has an entry. -/
theorem listed_cases {o : CastOptions} {p : ColumnPath} (listed : o.mapsFilter p = true) :
    o.isExcluded p = true ∨ ∃ m, o.filterMapping? p = some m := by
  rw [CastOptions.mapsFilter, Bool.or_eq_true, Option.isSome_iff_exists] at listed
  exact listed.symm

/-- An item whose column is listed is cast alike, be it a leaf or a quantified filter: what is done
with it is up to the exclusions and the entries, which the two tables share. -/
theorem castItem_dropping {p : ColumnPath} (listed : c.options.mapsFilter p = true) :
    (∀ o raw, (c.dropping drops).castLeaf none p o raw = c.castLeaf none p o raw) ∧
      ∀ q gs, (c.dropping drops).castColumn none q p gs = c.castColumn none q p gs := by
  have hexcluded : (c.dropping drops).options.isExcluded p = c.options.isExcluded p := rfl
  have hmapping : (c.dropping drops).options.filterMapping? p = c.options.filterMapping? p := rfl
  simp only [castLeaf, castColumn, hexcluded, hmapping]
  -- what has an entry is excluded, moved or replaced, and no choice is left
  obtain hdropped | ⟨m, hentry⟩ := listed_cases listed
  · simp only [if_pos hdropped, implies_true, and_self]
  · rw [hentry]
    cases m with
    | moved destination change operator => exact ⟨fun _ _ => rfl, fun _ _ => rfl⟩
    | replaced rule => exact ⟨fun _ _ => rfl, fun _ _ => rfl⟩

mutual

/-- With a choice of what is done about items without an entry, the flag for dropping them is not
asked. -/
theorem castWith_dropping : ∀ f : Filter,
    (c.dropping drops).castWith unlisted f = c.castWith unlisted f
  | .leaf p o raw => by
    have hlisted : (c.dropping drops).options.mapsFilter p = c.options.mapsFilter p := rfl
    rw [castWith, castWith, hlisted]
    split
    · next h => exact (castItem_dropping h).1 o raw
    · rfl
  | .group k gs => by
    rw [castWith, castWith, castAllWith_dropping gs]
  | .quantified q p gs => by
    have hlisted : (c.dropping drops).options.mapsFilter p = c.options.mapsFilter p := rfl
    rw [castWith, castWith, hlisted]
    split
    · next h => exact cast_quantified_dropping ((castItem_dropping h).2 q gs) (castAll_dropping gs)
    · rfl

theorem castAllWith_dropping : ∀ fs : List Filter,
    (c.dropping drops).castAllWith unlisted fs = c.castAllWith unlisted fs
  | [] => rfl
  | f :: fs => by
    rw [castAllWith, castAllWith, castWith_dropping f, castAllWith_dropping fs]

end
end Walk

/-- What a strict cast does with filters: it refuses the columns at missing places, and otherwise
casts the filters. -/
theorem castFilters_of_refuses {c : Caster} (refuses : c.options.refusesUnmapped = true)
    (fs : List Filter) :
    let missing := (Filter.placesAll [] fs).filter c.options.isMissing
    (missing ≠ [] → castFilters c fs =
      .error (.unmapped (CastOptions.distinctTexts (missing.map fun x => x.column.text)))) ∧
    (missing = [] → castFilters c fs = c.castAll none fs) := by
  intro missing
  rw [castFilters, CastOptions.unmappedFilters_eq]
  refine ⟨fun hne => ?_, fun hnil => ?_⟩
  · have htexts : missing.map (fun x => x.column.text) ≠ [] := fun h =>
      hne (List.map_eq_nil_iff.mp h)
    rw [CastOptions.checkMapped_of_ne_nil refuses htexts]
    rfl
  · show c.options.checkMapped (missing.map fun x => x.column.text) >>= _ = _
    rw [hnil, List.map_nil, CastOptions.checkMapped_nil]
    rfl

/-- Where no column is missing, a strict cast makes no choice. -/
theorem castFilters_eq_castAllWith {c : Caster} (refuses : c.options.refusesUnmapped = true)
    {fs : List Filter} (listed : (Filter.placesAll [] fs).filter c.options.isMissing = [])
    (unlisted : Filter → Except Error (List Filter)) :
    castFilters c fs = c.castAllWith unlisted fs := by
  have hlisted : ∀ x ∈ Filter.placesAll [] fs, c.options.isMissing x = false := fun x hx =>
    Bool.eq_false_iff.mpr (List.filter_eq_nil_iff.mp listed x hx)
  -- the usual cast is one of the choices
  calc castFilters c fs = c.castAll none fs := (castFilters_of_refuses refuses fs).2 listed
    _ = c.castAllWith (c.cast none) fs := (castAllWith_cast fs).symm
    _ = c.castAllWith unlisted fs := castAllWith_of_listed hlisted

end Caster

/-- **A table that refuses columns without an entry is an exact gate.** A column is missing if
neither it nor the column of a quantifier above it has an entry. If a column is missing, all of them
are refused at once, with their texts in the order of their first places; and columns are refused
only if one is missing, or if a rule of the table raises such an error of its own. Whether the table
also drops columns without an entry makes no difference. And where no column is missing, nothing
that is done about items without an entry outside collections makes a difference: no such item is
passed through, and none is dropped. -/
theorem castFilters_gate {c : Caster} (refuses : c.options.refusesUnmapped = true)
    (fs : List Filter) :
    let missing := (Filter.placesAll [] fs).filter c.options.isMissing
    (missing ≠ [] → ∃ columns, castFilters c fs = .error (.unmapped columns) ∧
      FirstPlaces (missing.map fun x => x.column.text) columns) ∧
    (∀ columns, castFilters c fs = .error (.unmapped columns) →
      missing ≠ [] ∨ c.options.Raises (.unmapped columns)) ∧
    (∀ drops, castFilters (c.dropping drops) fs = castFilters c fs) ∧
    (missing = [] → ∀ unlisted, castFilters c fs = c.castAllWith unlisted fs) := by
  intro missing
  obtain ⟨hrefused, hcast⟩ := Caster.castFilters_of_refuses refuses fs
  refine ⟨fun hne => ⟨_, hrefused hne, CastOptions.firstPlaces_distinctTexts _⟩, ?_, ?_,
    fun hnil unlisted => Caster.castFilters_eq_castAllWith refuses hnil unlisted⟩
  · intro columns h
    by_cases hnil : missing = []
    · -- the check is passed, and of what follows only the rules can refuse columns
      rw [hcast hnil] at h
      have hraised := Caster.failsWith_castAll (c.stepsRefuseNothing fs) _ h
      exact .inr (hraised (.intro columns))
    · exact .inl hnil
  · intro drops
    -- the check does not ask whether columns are dropped
    have refuses' : (c.dropping drops).options.refusesUnmapped = true := refuses
    by_cases hnil : missing = []
    · -- one choice serves both casts
      let unlisted := c.cast none
      calc castFilters (c.dropping drops) fs
        _ = (c.dropping drops).castAllWith unlisted fs :=
          Caster.castFilters_eq_castAllWith refuses' hnil unlisted
        _ = c.castAllWith unlisted fs := Caster.castAllWith_dropping fs
        _ = castFilters c fs := (Caster.castFilters_eq_castAllWith refuses hnil unlisted).symm
    · rw [hrefused hnil, (Caster.castFilters_of_refuses refuses' fs).1 hnil]
      rfl

open Companies in
/-- The teams of companies have no entry here, their members have one; the teams are refused once
for two filters. With an entry for the teams too, nothing is left to choose. -/
theorem castFilters_gate_of_company :
    let teams : ColumnPath := ⟨["teams"], by decide, by decide⟩
    let members : ColumnPath := ⟨["teams", "members"], by decide, by decide⟩
    let f := addressed teams members ⟨["teams", "members", "mail"], by decide, by decide⟩
    let o : CastOptions := { moving members members with refusesUnmapped := true }
    let c : Caster := ⟨schema, some (.named "Company"), o⟩
    let c' : Caster :=
      ⟨schema, some (.named "Company"), o.withFilter teams (.moved teams none none)⟩
    o.refusesUnmapped = true ∧ castFilters c [f, f] = .error (.unmapped ["teams"]) ∧
      FirstPlaces ["teams", "teams"] ["teams"] ∧
      castFilters (c.dropping true) [f, f] = .error (.unmapped ["teams"]) ∧
      ∀ unlisted, c'.castAllWith unlisted [f, f] = .ok [f, f] := by
  intro teams members f o c c'
  obtain ⟨hrefused, -, hdropping, -⟩ := castFilters_gate (c := c) rfl [f, f]
  obtain ⟨-, -, -, hany⟩ := castFilters_gate (c := c') rfl [f, f]
  -- the teams are missing twice and refused once; below them the members have an entry
  have hmissing : (Filter.placesAll [] [f, f]).filter c.options.isMissing =
      [⟨teams, []⟩, ⟨teams, []⟩] := by decide +kernel
  have hnone : (Filter.placesAll [] [f, f]).filter c'.options.isMissing = [] := by decide +kernel
  have hcast : castFilters c [f, f] = .error (.unmapped ["teams"]) := by decide +kernel
  have hcast' : castFilters c' [f, f] = .ok [f, f] := by decide +kernel
  rw [hmissing] at hrefused
  obtain ⟨columns, herror, hfirst⟩ := hrefused (List.cons_ne_nil _ _)
  cases hcast.symm.trans herror
  refine ⟨rfl, hcast, hfirst, (hdropping true).trans hcast, fun unlisted => ?_⟩
  exact (hany hnone unlisted).symm.trans hcast'

namespace Companies

/-- The table without entries that refuses all columns. -/
def strict : CastOptions := { CastOptions.empty with refusesUnmapped := true }

/-- The rule that a filter is cast by another table. -/
def recast (o : CastOptions) (f : Filter) : Except Error (List Filter) :=
  castFilters ⟨schema, some (.named "Company"), o⟩ [f]

end Companies

open Companies in
/-- **Columns are refused elsewhere too.** The teams have an entry, whose rule casts them by a strict
table: the columns without an entry in that table are refused, though none is missing here. And a
part that is no filter is found before any column, so that a missing one is not refused. -/
theorem castFilters_not_gate :
    let teams : ColumnPath := ⟨["teams"], by decide, by decide⟩
    let members : ColumnPath := ⟨["teams", "members"], by decide, by decide⟩
    let f := addressed teams members ⟨["teams", "members", "mail"], by decide, by decide⟩
    let o := strict.withFilter teams (.replaced (recast strict))
    o.refusesUnmapped = true ∧ (Filter.placesAll [] [f]).filter o.isMissing = [] ∧
      castFilters ⟨schema, some (.named "Company"), o⟩ [f] =
        .error (.unmapped ["teams", "teams.members", "teams.members.mail"]) ∧
      (Filter.placesAll [] [f]).filter strict.isMissing ≠ [] ∧
      strict.withFilters [.node f, .value (.text "teams")]
        (castFilters ⟨schema, some (.named "Company"), strict⟩) = .error (.fault .missingMember) := by
  intro teams members f o
  have hmissing : (Filter.placesAll [] [f]).filter o.isMissing = [] := by decide +kernel
  -- the rule is asked first, and the table it casts by refuses all three columns
  have hcast : castFilters ⟨schema, some (.named "Company"), o⟩ [f] =
      .error (.unmapped ["teams", "teams.members", "teams.members.mail"]) := by decide +kernel
  have hrefused : (Filter.placesAll [] [f]).filter strict.isMissing ≠ [] := by decide +kernel
  exact ⟨rfl, hmissing, hcast, hrefused, rfl⟩

end RecordQuery
