import Mathlib.Data.List.Nodup
import RecordQuery.Condition
import RecordQuery.Proofs.Outcome
import RecordQuery.Schema.Read

/-!
# Members and their names

A column is resolved to a chain of members, each of the type that the one before it leads to. The
members of a type have different names, whatever declares them, and so a chain is known by the type
at which it begins and by the names along it.

* `Schema.nodup_members` — the names of the members of a type.
* `Schema.Chained` — hops that lead from a type through members; `Chained.ext` is their uniqueness.
* `Schema.NamedAs` — what the names along all chains from a type have in common.
* `Schema.Walk` — segments that lead to hops one by one. By `Schema.resolve_eq_ok_iff` this is what
  resolution finds, and what is shown of columns is shown by induction on the walk.
* `Schema.chained_of_resolve` — what resolution finds is a chain.
* `Schema.resolve_memberNames` — the names along a chain find it again.
* `Schema.condition_eq_ok_iff` — what a leaf needs to state a condition about such a column.

The path that a column was resolved from is not known by the names along it: it may use alternate
names and other letter cases. Nothing but messages depends on it.
-/

namespace RecordQuery

/-! ### Fields -/

theorem map_name_mergeField (fields : List Field) (f : Field) :
    (mergeField fields f).map Field.name =
      if fields.any (fun g => g.name == f.name) then fields.map Field.name
      else fields.map Field.name ++ [f.name] := by
  unfold mergeField
  split
  · -- a field of that name is there: the new one takes its place, under the same name
    have hname : ∀ g : Field, (if g.name = f.name then f else g).name = g.name := by
      intro g
      split
      · next h => exact h.symm
      · rfl
    rw [List.map_map]
    exact List.map_congr_left fun g _ => hname g
  · rw [List.map_append]
    rfl

/-- Merging keeps names different: a field takes the place of the one with its name, or comes last
if there is none. -/
theorem nodup_mergeField {fields : List Field} (h : (fields.map Field.name).Nodup) (f : Field) :
    ((mergeField fields f).map Field.name).Nodup := by
  rw [map_name_mergeField]
  split
  · exact h
  · next hnone =>
    -- the new field comes last, and no field has its name
    refine List.nodup_append.mpr ⟨h, List.nodup_singleton _, ?_⟩
    intro m hm n hn hsame
    obtain ⟨g, hg, rfl⟩ := List.mem_map.mp hm
    have hn : n = f.name := List.mem_singleton.mp hn
    exact hnone (List.any_eq_true.mpr ⟨g, hg, beq_iff_eq.mpr (hsame.trans hn)⟩)

theorem nodup_mergeFields (fields : List Field) : ((mergeFields fields).map Field.name).Nodup := by
  -- the invariant of the fold, from any start whose names differ
  have hfold : ∀ (fs acc : List Field), (acc.map Field.name).Nodup →
      ((fs.foldl mergeField acc).map Field.name).Nodup := by
    intro fs
    induction fs with
    | nil => exact fun _ h => h
    | cons f fs ih => exact fun acc h => ih (mergeField acc f) (nodup_mergeField h f)
  exact hfold fields [] List.nodup_nil

theorem nodup_dataFieldsIn (name : String) : ∀ rs : List RecordType,
    ((dataFieldsIn rs name).map Field.name).Nodup
  | [] => List.nodup_nil
  | r :: rest => by
    unfold dataFieldsIn
    split
    · exact nodup_mergeFields _
    · exact nodup_dataFieldsIn name rest

/-- Looking fields up by their names gives some of these names, in order. -/
theorem sublist_filterMap_find (known : List Field) : ∀ fs : List Field,
    ((fs.filterMap fun f => known.find? fun g => g.name == f.name).map Field.name).Sublist
      (fs.map Field.name)
  | [] => List.Sublist.slnil
  | f :: fs => by
    have ih := sublist_filterMap_find known fs
    cases hfound : known.find? (fun g => g.name == f.name) with
    | none =>
      simp only [List.filterMap_cons, hfound]
      exact ih.cons f.name
    | some g =>
      -- a field is replaced by one of its own name
      have hname : (g.name == f.name) = true := by simpa using List.find?_some hfound
      simp only [List.filterMap_cons, hfound, List.map_cons, beq_iff_eq.mp hname]
      exact ih.cons_cons f.name

theorem nodup_modelFieldsIn (name : String) : ∀ rs : List RecordType,
    ((modelFieldsIn rs name).map Field.name).Nodup
  | [] => List.nodup_nil
  | r :: rest => by
    unfold modelFieldsIn
    split
    · -- the fields come in the order of the declarations, but each is taken from the merged ones
      have hdeclared := nodup_mergeFields
        (((lineageIn? (r :: rest) name).getD []).reverse.flatMap fun b => b.layout.fields)
      exact hdeclared.sublist
        ((sublist_filterMap_find _ _).trans (List.filter_sublist.map Field.name))
    · exact nodup_modelFieldsIn name rest

namespace Schema

variable {s : Schema}

theorem nodup_fieldsOf (s : Schema) (name : String) :
    ((s.fieldsOf name).map Field.name).Nodup := by
  unfold fieldsOf
  split
  · exact nodup_modelFieldsIn name s.records
  · exact nodup_dataFieldsIn name s.records
  · exact nodup_mergeFields _

theorem nodup_hintedFields {name : String} {fields : List Field}
    (h : s.hintedFields name = .ok fields) : (fields.map Field.name).Nodup := by
  unfold hintedFields at h
  split at h
  · cases h
    exact nodup_mergeFields _
  · split at h
    · cases h
      exact nodup_mergeFields _
    · cases h

/-- Looking up the types of the fields of a data class does not touch their names. -/
theorem nodup_hintedDataFields {name : String} {fields : List Field}
    (h : s.hintedDataFields name = .ok fields) : (fields.map Field.name).Nodup := by
  obtain ⟨hints, -, h⟩ := bind_eq_ok_iff.mp h
  cases h
  rw [List.map_map]
  -- a hint replaces the type of a field, never its name
  refine (congrArg List.Nodup (List.map_congr_left fun f _ => ?_)).mpr (nodup_fieldsOf s name)
  rw [Function.comp_apply]
  split <;> rfl

/-! ### Members -/

theorem map_name_memberOf (fields : List Field) (alternates : Field → List String) :
    (fields.map fun f => Member.of f.name f.type (alternates f)).map Member.name =
      fields.map Field.name := by
  rw [List.map_map]
  rfl

theorem name_ofRelation (r : Relation) : (Member.ofRelation r).name = r.member := by
  unfold Member.ofRelation
  split <;> rfl

theorem nodup_storedMembers {r : RecordType} {ms : List Member} (h : s.storedMembers r = .ok ms) :
    (ms.map Member.name).Nodup := by
  unfold storedMembers at h
  split at h
  · cases h
    rw [map_name_memberOf]
    exact nodup_fieldsOf s r.name
  · obtain ⟨fields, hfields, rfl⟩ := map_eq_ok_iff.mp h
    rw [map_name_memberOf]
    exact nodup_hintedDataFields hfields
  · obtain ⟨fields, hfields, rfl⟩ := map_eq_ok_iff.mp h
    rw [map_name_memberOf _ fun _ => []]
    exact (nodup_hintedFields hfields).sublist (List.filter_sublist.map Field.name)
  · next t _ =>
    cases h
    -- the columns and the relations of a table share one space of names
    have hrelations : t.relations.map (Member.name ∘ Member.ofRelation) =
        t.relations.map Relation.member :=
      List.map_congr_left fun r _ => name_ofRelation r
    rw [List.map_append, List.map_map, List.map_map, hrelations]
    exact t.distinct

theorem nodup_distinctProperties : ∀ ps : List Property,
    ((distinctProperties ps).map Property.name).Nodup
  | [] => List.nodup_nil
  | p :: ps => by
    refine List.nodup_cons.mpr ⟨fun hmem => ?_, ?_⟩
    · -- the first of several properties with one name removes the later ones
      obtain ⟨q, hq, hname⟩ := List.mem_map.mp hmem
      have hne := (List.mem_filter.mp hq).2
      exact of_decide_eq_true hne hname
    · exact (nodup_distinctProperties ps).sublist (List.filter_sublist.map Property.name)

theorem nodup_computedMembers {name : String} {ms : List Member}
    (h : s.computedMembers name = .ok ms) : (ms.map Member.name).Nodup := by
  -- each member is named like the property that it comes from
  have hnames : ∀ (ps : List Property) (ns : List Member),
      List.Forall₂ (fun p n => (s.evaluatedOrWritten false (p.type.getD .anything)).map
        (fun t => Member.of p.name t []) = .ok n) ps ns →
      ns.map Member.name = ps.map Property.name := by
    intro ps ns hall
    induction hall with
    | nil => rfl
    | cons hp _ ih =>
      obtain ⟨t, -, rfl⟩ := map_eq_ok_iff.mp hp
      rw [List.map_cons, List.map_cons, ih]
      rfl
  rw [hnames _ ms (mapM_eq_ok_iff.mp h)]
  exact (nodup_distinctProperties _).sublist (List.filter_sublist.map Property.name)

theorem nodup_membersOf {r : RecordType} {ms : List Member} (h : s.membersOf r = .ok ms) :
    (ms.map Member.name).Nodup := by
  obtain ⟨stored, hstored, h⟩ := bind_eq_ok_iff.mp h
  obtain ⟨computed, hcomputed, h⟩ := bind_eq_ok_iff.mp h
  cases h
  rw [List.map_append]
  refine List.nodup_append.mpr ⟨nodup_storedMembers hstored, ?_, ?_⟩
  · exact (nodup_computedMembers hcomputed).sublist (List.filter_sublist.map Member.name)
  · -- a computed member with the name of a stored one was left out
    intro m hm n hn hsame
    obtain ⟨a, ha, rfl⟩ := List.mem_map.mp hm
    obtain ⟨b, hb, rfl⟩ := List.mem_map.mp hn
    have hhidden := (List.mem_filter.mp hb).2
    have hany : stored.any (fun n => n.name == b.name) = true :=
      List.any_eq_true.mpr ⟨a, ha, beq_iff_eq.mpr hsame⟩
    rw [hany] at hhidden
    cases hhidden

/-- The members of a type have different names. -/
theorem nodup_members {t : TypeExpr} {ms : List Member} (h : s.members? t = .ok (some ms)) :
    (ms.map Member.name).Nodup := by
  unfold members? at h
  split at h
  · -- only record types, and types without any, have members
    split at h
    · obtain ⟨ns, hns, hsome⟩ := map_eq_ok_iff.mp h
      cases hsome
      exact nodup_membersOf hns
    · cases h
  · cases h
    exact List.nodup_nil
  · cases h

/-! ### Chains -/

/-- Hops that lead from a type through members, each of the type that the one before it has. -/
inductive Chained (s : Schema) : TypeExpr → List Hop → Prop
  | nil (owner : TypeExpr) : Chained s owner []
  | cons {owner : TypeExpr} {ms : List Member} {m : Member} {hops : List Hop}
      (members : s.members? owner = .ok (some ms)) (mem : m ∈ ms) (rest : Chained s m.type hops) :
      Chained s owner (Hop.ofMember owner m :: hops)

/-- **A chain is known by its names.** Two chains from one type along the same names are equal. -/
theorem Chained.ext {owner : TypeExpr} {hops hops' : List Hop} (h : Chained s owner hops)
    (h' : Chained s owner hops') (names : hops.map Hop.name = hops'.map Hop.name) :
    hops = hops' := by
  induction h generalizing hops' with
  | nil owner =>
    cases h' with
    | nil => rfl
    | cons => cases names
  | @cons owner ms m hops members mem rest ih =>
    -- both first members belong to one type, where a name stands for one member only, and so the
    -- rests begin at one type again
    cases h' with
    | nil => cases names
    | @cons _ ms' m' hops' members' mem' rest' =>
      rw [members] at members'
      cases members'
      obtain ⟨hname, htail⟩ := List.cons_eq_cons.mp names
      have hsame : m = m' := List.inj_on_of_nodup_map (nodup_members members) mem mem' hname
      subst hsame
      rw [ih rest' htail]

/-- A chain is made of a chain from its start and one from where this ends. -/
theorem Chained.split {owner : TypeExpr} {hops rest : List Hop}
    (h : s.Chained owner (hops ++ rest)) :
    s.Chained owner hops ∧ ∃ middle, s.Chained middle rest := by
  induction hops generalizing owner with
  | nil => exact ⟨.nil owner, owner, h⟩
  | cons hop hops ih =>
    cases h with
    | cons members mem h =>
      obtain ⟨hfirst, hrest⟩ := ih h
      exact ⟨.cons members mem hfirst, hrest⟩

/-- Every name of a member that a chain from a type passes through has a property. -/
def NamedAs (s : Schema) (P : String → Prop) (root : TypeExpr) : Prop :=
  ∀ hops, s.Chained root hops → ∀ hop ∈ hops, P hop.name

/-- It suffices to look at a set of types that no member leads out of. -/
theorem namedAs_of_closed {P : String → Prop} {root : TypeExpr} {T : TypeExpr → Prop}
    (start : T root) (closed : ∀ owner ms, T owner → s.members? owner = .ok (some ms) →
      ∀ m ∈ ms, P m.name ∧ T m.type) : s.NamedAs P root := by
  intro hops h
  -- along the chain, the set is entered at its start and not left
  induction h with
  | nil => exact List.forall_mem_nil _
  | cons members mem _ ih =>
    obtain ⟨hname, htype⟩ := closed _ _ start members _ mem
    exact List.forall_mem_cons.mpr ⟨hname, ih htype⟩

theorem mem_of_mem_candidates {ms : List Member} {segment : String} {fallback : Bool} {m : Member}
    (h : m ∈ candidates ms segment fallback) : m ∈ ms := by
  unfold candidates at h
  split at h
  · -- an exact match wins, and is the only candidate
    next found => exact List.mem_singleton.mp h ▸ List.mem_of_find?_eq_some found
  · simp only at h
    split at h
    · exact List.mem_of_mem_filter h
    · exact List.mem_of_mem_filter h

/-- Where names are different, the exact name of a member has no other candidate. -/
theorem candidates_eq_singleton {ms : List Member} (hnodup : (ms.map Member.name).Nodup)
    {m : Member} (hm : m ∈ ms) (fallback : Bool) : candidates ms m.name fallback = [m] := by
  obtain ⟨found, hfound⟩ : ∃ found, ms.find? (fun n => n.name == m.name) = some found :=
    Option.isSome_iff_exists.mp (List.find?_isSome.mpr ⟨m, hm, beq_self_eq_true _⟩)
  have hname : found.name = m.name := by simpa using List.find?_some hfound
  have hsame : found = m :=
    List.inj_on_of_nodup_map hnodup (List.mem_of_find?_eq_some hfound) hm hname
  rw [candidates, hfound, hsame]

/-- A segment names a member where it has exactly one candidate. -/
theorem resolveSegment_eq_ok_iff {fallback : Bool} {path : ColumnPath} {owner : TypeExpr}
    {segment : String} {hop : Hop} :
    s.resolveSegment fallback path owner segment = .ok hop ↔
      ∃ ms m, s.members? owner = .ok (some ms) ∧ candidates ms segment fallback = [m] ∧
        hop = Hop.ofMember owner m := by
  constructor
  · intro h
    unfold resolveSegment at h
    split at h
    · cases h
    · cases h
    · next ms hms =>
      split at h
      · -- only a single candidate is taken
        next m hm =>
        cases h
        exact ⟨ms, m, hms, hm, rfl⟩
      · cases h
      · cases h
  · rintro ⟨ms, m, hms, hm, rfl⟩
    rw [resolveSegment, hms]
    simp only [hm]

theorem resolveSegment_eq_ok {fallback : Bool} {path : ColumnPath} {owner : TypeExpr}
    {segment : String} {hop : Hop} (h : s.resolveSegment fallback path owner segment = .ok hop) :
    ∃ ms m, s.members? owner = .ok (some ms) ∧ m ∈ ms ∧ hop = Hop.ofMember owner m := by
  obtain ⟨ms, m, hms, hm, rfl⟩ := resolveSegment_eq_ok_iff.mp h
  have hmem : m ∈ candidates ms segment fallback := hm ▸ List.mem_singleton_self m
  exact ⟨ms, m, hms, mem_of_mem_candidates hmem, rfl⟩

/-- A path is resolved segment by segment. -/
theorem resolve_of_segments {fallback : Bool} {owner : TypeExpr}
    {path : ColumnPath} {segment : String} {rest : List String}
    (h : path.segments = segment :: rest) :
    s.resolve fallback owner path =
      (s.resolveFrom fallback path owner segment rest).map fun r => ⟨path, r.1, r.2⟩ := by
  unfold resolve
  split
  · next hnil => exact absurd hnil path.nonempty
  · next hcons =>
    rw [h] at hcons
    cases hcons
    rfl

/-! ### Walks -/

/-- Segments that lead to hops from a type. Each of them has one candidate, and only the last one
may be a collection. -/
inductive Walk (s : Schema) (fallback : Bool) : TypeExpr → List String → List Hop → Prop
  | last {owner : TypeExpr} {segment : String} {ms : List Member} {m : Member}
      (members : s.members? owner = .ok (some ms)) (one : candidates ms segment fallback = [m]) :
      Walk s fallback owner [segment] [Hop.ofMember owner m]
  | step {owner : TypeExpr} {segment : String} {ms : List Member} {m : Member}
      {segments : List String} {hops : List Hop} (members : s.members? owner = .ok (some ms))
      (one : candidates ms segment fallback = [m]) (single : m.type.element? = none)
      (rest : Walk s fallback m.type segments hops) :
      Walk s fallback owner (segment :: segments) (Hop.ofMember owner m :: hops)

/-- The hops of the segments after the first are found from the type of the first one. -/
theorem walk_of_resolveFrom {fallback : Bool} {path : ColumnPath} {rest : List String} :
    ∀ {owner : TypeExpr} {segment : String} {found : List Hop × Hop},
      s.resolveFrom fallback path owner segment rest = .ok found →
      s.Walk fallback owner (segment :: rest) (found.1 ++ [found.2]) := by
  induction rest with
  | nil =>
    intro owner segment found h
    obtain ⟨hop, hhop, rfl⟩ := map_eq_ok_iff.mp h
    obtain ⟨ms, m, members, one, rfl⟩ := resolveSegment_eq_ok_iff.mp hhop
    exact .last members one
  | cons next rest ih =>
    intro owner segment found h
    obtain ⟨hop, hhop, h⟩ := bind_eq_ok_iff.mp h
    obtain ⟨ms, m, members, one, rfl⟩ := resolveSegment_eq_ok_iff.mp hhop
    split at h
    · cases h
    · -- the member is no collection, and its type is where the next segment is looked up
      next hsingle =>
      obtain ⟨tail, htail, h⟩ := bind_eq_ok_iff.mp h
      cases h
      exact .step members one (Option.not_isSome_iff_eq_none.mp hsingle) (ih htail)

/-- The hops of a walk are found, of which the search keeps the last one apart. -/
theorem Walk.resolveFrom_eq_ok {fallback : Bool} {owner : TypeExpr} {segments : List String}
    {hops : List Hop} (h : s.Walk fallback owner segments hops) (path : ColumnPath) :
    ∃ segment rest found, segments = segment :: rest ∧ hops = found.1 ++ [found.2] ∧
      s.resolveFrom fallback path owner segment rest = .ok found := by
  induction h with
  | @last owner segment ms m members one =>
    refine ⟨segment, [], ([], Hop.ofMember owner m), rfl, rfl, ?_⟩
    rw [resolveFrom, resolveSegment_eq_ok_iff.mpr ⟨ms, m, members, one, rfl⟩]
    rfl
  | @step owner segment ms m segments hops members one single _ ih =>
    obtain ⟨next, rest, found, rfl, rfl, hfound⟩ := ih
    refine ⟨segment, next :: rest, (Hop.ofMember owner m :: found.1, found.2), rfl, rfl, ?_⟩
    -- only a member that is no collection is gone through
    have hsingle : ¬ (Hop.ofMember owner m).type.element?.isSome = true :=
      Option.not_isSome_iff_eq_none.mpr single
    rw [resolveFrom, resolveSegment_eq_ok_iff.mpr ⟨ms, m, members, one, rfl⟩, ok_bind,
      if_neg hsingle]
    show s.resolveFrom fallback path m.type next rest >>= _ = _
    rw [hfound, ok_bind]

/-- **Resolution is a walk.** A path is resolved to a column exactly if its segments lead to the
hops of the column, which keeps the path. -/
theorem resolve_eq_ok_iff {fallback : Bool} {owner : TypeExpr} {path : ColumnPath}
    {column : ResolvedColumn} :
    s.resolve fallback owner path = .ok column ↔
      column.path = path ∧ s.Walk fallback owner path.segments column.hops := by
  constructor
  · intro h
    obtain ⟨segment, rest, hsegments⟩ := List.exists_cons_of_ne_nil path.nonempty
    rw [resolve_of_segments hsegments] at h
    obtain ⟨found, hfound, rfl⟩ := map_eq_ok_iff.mp h
    rw [hsegments]
    exact ⟨rfl, walk_of_resolveFrom hfound⟩
  · rintro ⟨rfl, hwalk⟩
    obtain ⟨path, leading, terminal⟩ := column
    obtain ⟨segment, rest, found, hsegments, hhops, hfound⟩ := hwalk.resolveFrom_eq_ok path
    -- the last hop is the terminal one, whatever stands before it
    obtain ⟨rfl, hterminal⟩ := List.append_inj' hhops rfl
    cases hterminal
    rw [resolve_of_segments hsegments, hfound]
    rfl

theorem Walk.exists_resolve {fallback : Bool} {owner : TypeExpr} {path : ColumnPath}
    {hops : List Hop} (h : s.Walk fallback owner path.segments hops) :
    ∃ column, s.resolve fallback owner path = .ok column ∧ column.hops = hops := by
  obtain ⟨_, _, found, -, rfl, -⟩ := h.resolveFrom_eq_ok path
  exact ⟨⟨path, found.1, found.2⟩, resolve_eq_ok_iff.mpr ⟨rfl, h⟩, rfl⟩

theorem Walk.chained {fallback : Bool} {owner : TypeExpr} {segments : List String}
    {hops : List Hop} (h : s.Walk fallback owner segments hops) : s.Chained owner hops := by
  induction h with
  | last members one =>
    exact .cons members (mem_of_mem_candidates (one ▸ List.mem_singleton_self _)) (.nil _)
  | step members one _ _ ih =>
    exact .cons members (mem_of_mem_candidates (one ▸ List.mem_singleton_self _)) ih

theorem chained_of_resolve {fallback : Bool} {owner : TypeExpr} {path : ColumnPath}
    {column : ResolvedColumn} (h : s.resolve fallback owner path = .ok column) :
    Chained s owner column.hops :=
  (resolve_eq_ok_iff.mp h).2.chained

theorem Walk.ne_nil {fallback : Bool} {owner : TypeExpr} {segments : List String}
    {hops : List Hop} (h : s.Walk fallback owner segments hops) : hops ≠ [] := by
  cases h <;> exact List.cons_ne_nil _ _

theorem Walk.length_eq {fallback : Bool} {owner : TypeExpr} {segments : List String}
    {hops : List Hop} (h : s.Walk fallback owner segments hops) :
    hops.length = segments.length := by
  induction h with
  | last => rfl
  | step _ _ _ _ ih => rw [List.length_cons, List.length_cons, ih]

theorem Walk.single {fallback : Bool} {owner : TypeExpr} {segments : List String}
    {hops : List Hop} (h : s.Walk fallback owner segments hops) :
    ∀ hop ∈ hops.dropLast, hop.type.element? = none := by
  induction h with
  | last => exact List.forall_mem_nil _
  | step _ _ single rest ih =>
    rw [List.dropLast_cons_of_ne_nil rest.ne_nil]
    exact List.forall_mem_cons.mpr ⟨single, ih⟩

/-- A column has a hop for each segment of its path, and no hop before the last one is a
collection. -/
theorem leading_of_resolve {fallback : Bool} {owner : TypeExpr} {path : ColumnPath}
    {column : ResolvedColumn} (h : s.resolve fallback owner path = .ok column) :
    column.leading.length + 1 = path.length ∧ ∀ hop ∈ column.leading, hop.type.element? = none := by
  have hwalk := (resolve_eq_ok_iff.mp h).2
  refine ⟨?_, ?_⟩
  · rw [ColumnPath.length, ← hwalk.length_eq, ResolvedColumn.hops, List.length_append]
    rfl
  · have hsingle := hwalk.single
    rwa [ResolvedColumn.hops, List.dropLast_concat] at hsingle

/-! ### Names that are found again -/

/-- The names along a walk lead the same way, with alternate names tried or not. -/
theorem Walk.names {fallback : Bool} {owner : TypeExpr} {segments : List String} {hops : List Hop}
    (h : s.Walk fallback owner segments hops) (fallback' : Bool) :
    s.Walk fallback' owner (hops.map Hop.name) hops := by
  -- where names are different, the exact name of a member has no other candidate
  have hexact : ∀ {owner : TypeExpr} {segment : String} {ms : List Member} {m : Member},
      s.members? owner = .ok (some ms) → candidates ms segment fallback = [m] →
      candidates ms m.name fallback' = [m] := fun members one =>
    candidates_eq_singleton (nodup_members members)
      (mem_of_mem_candidates (one ▸ List.mem_singleton_self _)) fallback'
  induction h with
  | last members one => exact .last members (hexact members one)
  | step members one single _ ih => exact .step members (hexact members one) single ih

/-- **A column is found again by the names of its members**, which are the segments of another path.
It passes through the same members, whatever the first path was. -/
theorem resolve_memberNames {fallback : Bool} {owner : TypeExpr} {path path' : ColumnPath}
    {column : ResolvedColumn} (h : s.resolve fallback owner path = .ok column)
    (names : path'.segments = column.memberNames) (fallback' : Bool) :
    s.resolve fallback' owner path' = .ok ⟨path', column.leading, column.terminal⟩ := by
  refine resolve_eq_ok_iff.mpr ⟨rfl, ?_⟩
  rw [names]
  exact (resolve_eq_ok_iff.mp h).2.names fallback'

theorem chained_of_resolveIn {options : Options} {owner : TypeExpr} {scope : Option ColumnPath}
    {path : ColumnPath} {column : ResolvedColumn}
    (h : s.resolveIn options owner scope path = .ok column) : s.Chained owner column.hops := by
  obtain ⟨relative, -, h⟩ := bind_eq_ok_iff.mp h
  exact chained_of_resolve h

/-- A leaf states a condition where its column is found, its operator fits, and its text is read. -/
theorem condition_eq_ok_iff {options : Options} {owner : TypeExpr} {scope : Option ColumnPath}
    {path : ColumnPath} {o : Operator} {raw : RawText} {c : Condition} :
    s.condition options owner scope path o raw = .ok c ↔
      s.resolveIn options owner scope path = .ok c.column ∧
        s.checkOperator c.column o = .ok () ∧ s.coerce raw c.column.type o = .ok c.value ∧
        c.operator = o := by
  constructor
  · intro h
    obtain ⟨column, hcolumn, h⟩ := bind_eq_ok_iff.mp h
    obtain ⟨⟨⟩, hoperator, h⟩ := bind_eq_ok_iff.mp h
    obtain ⟨v, hv, h⟩ := bind_eq_ok_iff.mp h
    cases h
    exact ⟨hcolumn, hoperator, hv, rfl⟩
  · rintro ⟨hcolumn, hoperator, hv, rfl⟩
    rw [condition, hcolumn, ok_bind, hoperator, ok_bind, hv]
    rfl

/-- Columns of one type with the same member names pass through the same members and end in the
same one. -/
theorem resolve_ext {fallback fallback' : Bool} {owner : TypeExpr} {path path' : ColumnPath}
    {column column' : ResolvedColumn} (h : s.resolve fallback owner path = .ok column)
    (h' : s.resolve fallback' owner path' = .ok column')
    (names : column.memberNames = column'.memberNames) :
    column.leading = column'.leading ∧ column.terminal = column'.terminal := by
  have hhops := (chained_of_resolve h).ext (chained_of_resolve h') names
  -- the last hop is the terminal one, whatever stands before it
  obtain ⟨hleading, hterminal⟩ := List.append_inj' hhops rfl
  exact ⟨hleading, (List.cons_eq_cons.mp hterminal).1⟩

/-! ### Reading -/

theorem readFrom_cons (s : Schema) {v : Value} {onNull : Option Value} {hop : Hop}
    {rest : List Hop} (hv : v ≠ .null) :
    s.readFrom onNull (hop :: rest) v = s.readMember v hop.name >>= s.readFrom onNull rest := by
  rw [readFrom.eq_def]
  simp only
  split
  · exact absurd rfl hv
  · rfl

end Schema
end RecordQuery
