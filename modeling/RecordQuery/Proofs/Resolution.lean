import RecordQuery.Proofs.Members
import RecordQuery.Proofs.Stored

/-!
# Chains of members

A path is resolved from left to right. Each segment has one candidate among the members of the type
that has been reached, and the type of this member is the one to go on from. All that is promised of
a column follows from this walk.

* `Walk.map_owner`, `Walk.only` — where the hops start, and which members they are.
* `Walk.take` — the first segments lead along the first hops.
* `Schema.WellTyped` — what resolution promises of a column.
* `Schema.NamedPlainly` — every name along a chain is an identifier, and so can stand in a path.
* `resolve_canonical` — the results together: a column is well typed, found again by its names, and
  found in part by each part of its path; and every member is found by its own name.
-/

namespace RecordQuery

open Text

namespace Schema

variable {s : Schema} {fallback : Bool}

/-! ### What a walk passes through -/

/-- A hop of which a segment has no other candidate on the type at which the hop starts. -/
def OnlyCandidate (s : Schema) (fallback : Bool) (segment : String) (hop : Hop) : Prop :=
  ∃ ms m, s.members? hop.owner = .ok (some ms) ∧ candidates ms segment fallback = [m] ∧
    hop = Hop.ofMember hop.owner m

/-- Each hop starts at the type that the one before it leads to. -/
theorem Walk.map_owner {owner : TypeExpr} {segments : List String} {hops : List Hop}
    (h : s.Walk fallback owner segments hops) :
    hops.map Hop.owner = owner :: hops.dropLast.map Hop.type := by
  induction h with
  | last => rfl
  | step _ _ _ rest ih =>
    rw [List.map_cons, ih, List.dropLast_cons_of_ne_nil rest.ne_nil, List.map_cons]
    rfl

theorem Walk.only {owner : TypeExpr} {segments : List String} {hops : List Hop}
    (h : s.Walk fallback owner segments hops) :
    List.Forall₂ (s.OnlyCandidate fallback) segments hops := by
  induction h with
  | last members one => exact .cons ⟨_, _, members, one, rfl⟩ .nil
  | step members one _ _ ih => exact .cons ⟨_, _, members, one, rfl⟩ ih

/-- **Parts of a path.** The first segments lead along the first hops. -/
theorem Walk.take {owner : TypeExpr} {segments : List String} {hops : List Hop}
    (h : s.Walk fallback owner segments hops) {start : List String} (hne : start ≠ [])
    (hstart : start <+: segments) : s.Walk fallback owner start (hops.take start.length) := by
  induction h generalizing start with
  | last members one =>
    obtain ⟨segment, rest, rfl⟩ := List.exists_cons_of_ne_nil hne
    obtain ⟨rfl, hrest⟩ := List.cons_prefix_cons.mp hstart
    obtain rfl := List.prefix_nil.mp hrest
    exact .last members one
  | step members one single _ ih =>
    obtain ⟨segment, rest, rfl⟩ := List.exists_cons_of_ne_nil hne
    obtain ⟨rfl, hrest⟩ := List.cons_prefix_cons.mp hstart
    -- the part may end here, where it does not matter whether the member is a collection
    by_cases hend : rest = []
    · subst hend
      exact .last members one
    · exact .step members one single (ih hend hrest)

/-! ### Names that can stand in a path -/

/-- Every name of a member that a chain from a type passes through is an identifier. -/
def NamedPlainly (s : Schema) (root : TypeExpr) : Prop :=
  s.NamedAs (fun name => IsIdentifier name.toList) root

/-- The names along a chain make a path, whose written form they are. -/
theorem NamedPlainly.exists_path {root : TypeExpr} (named : s.NamedPlainly root) {hops : List Hop}
    (hne : hops ≠ []) (h : s.Chained root hops) :
    ∃ path : ColumnPath, path.segments = hops.map Hop.name ∧
      ColumnPath.parse (join "." (hops.map Hop.name)) = .ok path := by
  have hnames : ∀ name ∈ hops.map Hop.name, IsIdentifier name.toList :=
    List.forall_mem_map.mpr (named hops h)
  -- an identifier is a segment, and has no dot that could end it
  have hvalid : (hops.map Hop.name).all isSegment = true := by
    rw [List.all_eq_true]
    intro name hname
    rw [← String.ofList_toList (s := name)]
    exact (isSegment_iff (isIdentifier_trimmed (hnames name hname))).mpr (hnames name hname)
  have hplain : (⟨hops.map Hop.name, by simpa using hne, hvalid⟩ : ColumnPath).Plain := hnames
  exact ⟨_, rfl, hplain.parse_text⟩

/-! ### What resolution promises -/

/-- A column that is well typed: there is one hop for each segment of its path, the first starts at
the type that the path is resolved on and every other one at the type of the hop before it, each is
the only candidate for its segment, and no hop before the last is a collection. -/
structure WellTyped (s : Schema) (fallback : Bool) (owner : TypeExpr) (path : ColumnPath)
    (column : ResolvedColumn) : Prop where
  one_each : column.hops.length = path.length
  owners : column.hops.map Hop.owner = owner :: column.leading.map Hop.type
  only : List.Forall₂ (s.OnlyCandidate fallback) path.segments column.hops
  single : ∀ hop ∈ column.leading, hop.type.element? = none

theorem wellTyped_of_resolve {owner : TypeExpr} {path : ColumnPath} {column : ResolvedColumn}
    (h : s.resolve fallback owner path = .ok column) : s.WellTyped fallback owner path column := by
  have hwalk := (resolve_eq_ok_iff.mp h).2
  have hleading : column.hops.dropLast = column.leading := List.dropLast_concat
  exact {
    one_each := hwalk.length_eq
    owners := by rw [hwalk.map_owner, hleading]
    only := hwalk.only
    single := (leading_of_resolve h).2 }

/-- A part of a path that is resolved is resolved to a part of the column. -/
theorem resolve_of_prefix {owner : TypeExpr} {path start : ColumnPath} {column : ResolvedColumn}
    (h : s.resolve fallback owner path = .ok column) (hstart : start.segments <+: path.segments) :
    ∃ part, s.resolve fallback owner start = .ok part ∧
      part.hops = column.hops.take start.length :=
  ((resolve_eq_ok_iff.mp h).2.take start.nonempty hstart).exists_resolve

/-- The names along a column can be written, and the column is found under them again. -/
theorem NamedPlainly.resolve_text {root : TypeExpr} (named : s.NamedPlainly root)
    {path : ColumnPath} {column : ResolvedColumn} (h : s.resolve fallback root path = .ok column) :
    ∃ names, ColumnPath.parse column.text = .ok names ∧ names.segments = column.memberNames ∧
      ∀ fallback', ∃ again, s.resolve fallback' root names = .ok again ∧
        again.hops = column.hops := by
  obtain ⟨names, hsegments, hparse⟩ :=
    named.exists_path (resolve_eq_ok_iff.mp h).2.ne_nil (chained_of_resolve h)
  exact ⟨names, hparse, hsegments, fun fallback' =>
    ⟨_, resolve_memberNames h hsegments fallback', rfl⟩⟩

/-- A member is found under its own name. -/
theorem NamedPlainly.resolve_name {root : TypeExpr} (named : s.NamedPlainly root)
    {ms : List Member} (members : s.members? root = .ok (some ms)) {m : Member} (hm : m ∈ ms) :
    ∃ path, ColumnPath.parse m.name = .ok path ∧ path.segments = [m.name] ∧
      ∀ fallback, ∃ column, s.resolve fallback root path = .ok column ∧
        column.hops = [Hop.ofMember root m] := by
  obtain ⟨path, hsegments, hparse⟩ :=
    named.exists_path (List.cons_ne_nil _ _) (.cons members hm (.nil m.type))
  have hjoin : join "." ([Hop.ofMember root m].map Hop.name) = m.name := by
    simp [join, Hop.ofMember]
  refine ⟨path, hjoin ▸ hparse, hsegments, fun fallback => Walk.exists_resolve ?_⟩
  rw [hsegments]
  -- no two members of a type share a name, so the exact spelling has one candidate
  exact .last members (candidates_eq_singleton (nodup_members members) hm fallback)

end Schema

/-- **Resolution is well typed, canonical and closed under parts of paths.** Let the names of the
members that a type leads to be identifiers. A column that is found for a path is well typed; it is
found again under the names of its members, with alternate names tried or not; and each part at the
beginning of the path is resolved to the hops at the beginning of the column. Every member of the
type is found under its own name. -/
theorem resolve_canonical {s : Schema} {root : TypeExpr} (named : s.NamedPlainly root) :
    (∀ fallback path column, s.resolve fallback root path = .ok column →
      s.WellTyped fallback root path column ∧
      (∃ names, ColumnPath.parse column.text = .ok names ∧ names.segments = column.memberNames ∧
        ∀ fallback', ∃ again, s.resolve fallback' root names = .ok again ∧
          again.hops = column.hops) ∧
      ∀ start : ColumnPath, start.segments <+: path.segments →
        ∃ part, s.resolve fallback root start = .ok part ∧
          part.hops = column.hops.take start.length) ∧
    ∀ ms, s.members? root = .ok (some ms) → ∀ m ∈ ms,
      ∃ path, ColumnPath.parse m.name = .ok path ∧ path.segments = [m.name] ∧
        ∀ fallback, ∃ column, s.resolve fallback root path = .ok column ∧
          column.hops = [Hop.ofMember root m] := by
  refine ⟨fun fallback path column h => ⟨Schema.wellTyped_of_resolve h, named.resolve_text h,
    fun start hstart => Schema.resolve_of_prefix h hstart⟩, fun ms members m hm => ?_⟩
  exact named.resolve_name members hm

namespace Staff

/-- A schema of clerks, who are people with an office. They inherit a name and a computed label. -/
def schema : Schema :=
  ⟨[], [⟨"Clerk", ["Person"], .model
      [⟨"office", .union .barred [.named "Office", .nothing], ["place"], false, none⟩], []⟩,
    ⟨"Person", [], .model [⟨"name", .scalar .text, ["title"], false, none⟩],
      [⟨"label", some (.scalar .text), "name", .upper⟩]⟩,
    ⟨"Office", [], .data [⟨"city", .scalar .text, ["town"], false, none⟩], []⟩], .absent⟩

theorem members_clerk : schema.members? (.named "Clerk") = .ok (some
    [⟨"name", .scalar .text, false, ["title"], false⟩,
      ⟨"office", .named "Office", true, ["place"], false⟩,
      ⟨"label", .scalar .text, false, [], false⟩]) := rfl

theorem members_office : schema.members? (.named "Office") =
    .ok (some [⟨"city", .scalar .text, false, ["town"], false⟩]) := rfl

theorem namedPlainly : schema.NamedPlainly (.named "Clerk") := by
  refine Schema.namedAs_of_closed
    (T := (· ∈ [.named "Clerk", .named "Office", .scalar .text])) List.mem_cons_self ?_
  intro owner ms howner members
  simp only [List.mem_cons, List.not_mem_nil, or_false] at howner
  obtain rfl | rfl | rfl := howner
  · cases members_clerk.symm.trans members
    simp [IsIdentifier]
    decide
  · cases members_office.symm.trans members
    simp [IsIdentifier]
    decide
  · cases members

/-- The city of a clerk's office, by alternate names. -/
def place : ColumnPath := ⟨["PLACE", "town"], by decide, by decide⟩

end Staff

open Staff in
/-- The city of a clerk's office is found by alternate names, and then by the names of the members
without alternate names. -/
theorem resolve_canonical_of_clerk :
    schema.NamedPlainly (.named "Clerk") ∧
      ∃ column, schema.resolve true (.named "Clerk") place = .ok column ∧
        column.memberNames = ["office", "city"] ∧
        schema.WellTyped true (.named "Clerk") place column ∧
        ∃ names, ColumnPath.parse "office.city" = .ok names ∧
          ∃ again, schema.resolve false (.named "Clerk") names = .ok again ∧
            again.hops = column.hops := by
  obtain ⟨column, hcolumn, hnames⟩ : ∃ column,
      schema.resolve true (.named "Clerk") place = .ok column ∧
        column.memberNames = ["office", "city"] := ⟨_, rfl, rfl⟩
  obtain ⟨htyped, ⟨names, hparse, -, hagain⟩, -⟩ :=
    (resolve_canonical namedPlainly).1 true place column hcolumn
  -- the place of a clerk has another name than the member that it leads to
  have htext : column.text = "office.city" := by rw [ResolvedColumn.text, hnames]; rfl
  exact ⟨namedPlainly, column, hcolumn, hnames, htyped, names, htext ▸ hparse, hagain false⟩

end RecordQuery
