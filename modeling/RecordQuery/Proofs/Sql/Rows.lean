import RecordQuery.Proofs.Members
import RecordQuery.Proofs.Sql.Truth

/-!
# Rows as objects

A row of a mapped type's table is an object in memory: its columns are members, and so are the
objects that it is related to. Since relations lead back and forth, an object is unfolded so many
steps deep; a path of members is read alike in all objects that are unfolded deep enough.

* `Database.Fits` — the rows are rows of a schema: columns hold values of their types, and every
  reference leads to exactly one row.
* `Database.object` is the object of a row.
* `Database.readMember_object_column`, `Database.readMember_object_relation` — what is read from it.
* `Schema.relation_of_requireLink` — a hop that a clause follows is a relation of the table, so it
  leads to the objects of the rows that the clause is about.
* `Schema.tableAt?_next` — the hop after it starts at the table that it leads to.
-/

namespace RecordQuery

open Sql

/-! ### Databases that fit a schema -/

/-- The types of numbers, texts and truth values. -/
def SqlType.isBasic : SqlType → Bool
  | .integer | .text | .boolean => true
  | _ => false

/-- The values of a column of a basic type. -/
inductive SqlType.Holds : SqlType → Value → Prop
  | null (type : SqlType) : Holds type .null
  | integer (n : Int) : Holds .integer (.int n)
  | text (s : String) : Holds .text (.text s)
  | boolean (b : Bool) : Holds .boolean (.bool b)

/-- A class has one attribute under each name, so a computed property of a mapped type is called
like no column and no relation of its table. -/
def Schema.PropertiesApart (s : Schema) : Prop :=
  ∀ name t, s.table? name = some t → ∀ p ∈ s.propertiesOf name,
    t.column? p.name = none ∧ t.relation? p.name = none

namespace Sql.Database

/-- The rows of a database fit a schema. A column of a basic type holds values of this type, and for
every row and every relation to one row there is that row. -/
structure Fits (db : Database) (s : Schema) : Prop where
  typed {name : String} {t : Table} (table : s.table? name = some t) {row : Row}
    (mem : row ∈ db.rows t.name) {c : Column} (column : c ∈ t.columns)
    (basic : c.type.isBasic = true) : c.type.Holds (row c.label)
  present {name : String} {t : Table} (table : s.table? name = some t) {row : Row}
    (mem : row ∈ db.rows t.name) {r : Relation} {column : String} {link : RowLink}
    (relation : r ∈ t.relations) (toOne : r.link = .toOne column)
    (linked : s.link? t r = some link) : ∃ other, db.related link row = [other]

/-! ### Objects -/

/-- The value of a relation to some objects. -/
def relationValue (r : Relation) (objects : List Value) : Value :=
  match r.link with
  | .toOne _ => objects.headD .null
  | .toMany => .list objects

/-- The record of a type with some stored members, where there is such a type. -/
def instanceOf (s : Schema) (name : String) (members : List (String × Value)) : Value :=
  match s.record? name with
  | some r => s.makeRecord r members
  | none => .null

/-- What a row stores under the members of its columns. -/
def columnValues (t : Table) (row : Row) : List (String × Value) :=
  t.columns.map fun c => (c.member, row c.label)

/-- What a row stores under the members of its relations, where the objects of rows are known. -/
def relationValues (db : Database) (s : Schema) (objectOf : String → Row → Value) (t : Table)
    (row : Row) : List (String × Value) :=
  t.relations.map fun r => (r.member,
    match s.link? t r with
    | some link => relationValue r ((db.related link row).map (objectOf r.target))
    | none => .null)

/-- The object of a row of a mapped type, with the objects that it leads to in so many steps. -/
def object (db : Database) (s : Schema) : Nat → String → Row → Value
  | 0, name, row =>
    match s.table? name with
    | some t => instanceOf s name (columnValues t row)
    | none => .null
  | depth + 1, name, row =>
    match s.table? name with
    | some t =>
      instanceOf s name (columnValues t row ++ relationValues db s (object db s depth) t row)
    | none => .null

end Sql.Database

/-! ### Reading objects -/

/-- Where every name stands once, it stands for the value beside it. -/
theorem lookup_eq_some_of_mem {α : Type} {entries : List (String × α)} {name : String} {a : α}
    (hnodup : (entries.map Prod.fst).Nodup) (h : (name, a) ∈ entries) :
    entries.lookup name = some a := by
  obtain ⟨before, after, rfl⟩ := List.append_of_mem h
  refine List.lookup_eq_some_iff.mpr ⟨before, after, rfl, fun p hp => ?_⟩
  rw [List.map_append, List.map_cons, List.nodup_append] at hnodup
  rw [bne_iff_ne]
  exact (hnodup.2.2 p.1 (List.mem_map_of_mem hp) name List.mem_cons_self).symm

namespace Schema

variable {s : Schema} {name : String} {t : Table}

theorem record_of_table? (h : s.table? name = some t) :
    ∃ r, s.record? name = some r ∧ r.name = name ∧ r.layout = .mapped t := by
  obtain ⟨r, hr, ht⟩ := Option.bind_eq_some_iff.mp h
  refine ⟨r, hr, ?_, ?_⟩
  · simpa using List.find?_some hr
  · rw [RecordType.table?] at ht
    split at ht
    · next t' hlayout =>
      cases ht
      exact hlayout
    · cases ht

/-- A stored member is read as it is stored, if no property hides it. -/
theorem readMember_instanceOf (h : s.table? name = some t) {members : List (String × Value)}
    (hnodup : (members.map Prod.fst).Nodup) {m : String} {v : Value} (hmem : (m, v) ∈ members)
    (hm : ∀ p ∈ s.propertiesOf name, p.name ≠ m) :
    s.readMember (Database.instanceOf s name members) m = .ok v := by
  obtain ⟨r, hr, rfl, hlayout⟩ := record_of_table? h
  -- properties are asked before stored members are
  have hproperty : (s.propertiesOf r.name).find? (fun p => p.name == m) = none := by
    rw [List.find?_eq_none]
    intro p hp
    simpa using hm p hp
  have hstored : (members.map fun m => (m.1, some m.2)).lookup m = some (some v) := by
    refine lookup_eq_some_of_mem ?_ (List.mem_map.mpr ⟨_, hmem, rfl⟩)
    rwa [List.map_map]
  rw [Database.instanceOf, hr]
  simp only [makeRecord, hlayout, Layout.kind, readMember, readInstance, readComputed, hproperty,
    readStored, hstored]
  rfl

end Schema

namespace Sql.Database

variable {db : Database} {s : Schema} {name : String} {t : Table}

theorem map_fst_columnValues (t : Table) (row : Row) :
    (columnValues t row).map Prod.fst = t.columns.map Column.member := by
  rw [columnValues, List.map_map]
  rfl

theorem map_fst_relationValues (objectOf : String → Row → Value) (t : Table) (row : Row) :
    (relationValues db s objectOf t row).map Prod.fst = t.relations.map Relation.member := by
  rw [relationValues, List.map_map]
  rfl

/-- **Columns are members.** An object has the value of each column. -/
theorem readMember_object_column (hs : s.PropertiesApart) (ht : s.table? name = some t)
    {m : String} {c : Column} (hc : t.column? m = some c) (depth : Nat) (row : Row) :
    s.readMember (object db s depth name row) m = .ok (row c.label) := by
  have hmember : c.member = m := by simpa using List.find?_some hc
  have hmem : (m, row c.label) ∈ columnValues t row :=
    List.mem_map.mpr ⟨c, List.mem_of_find?_eq_some hc, by rw [hmember]⟩
  have hproperty : ∀ p ∈ s.propertiesOf name, p.name ≠ m := by
    rintro p hp rfl
    rw [(hs name t ht p hp).1] at hc
    cases hc
  -- the columns are there however deep the object is unfolded
  cases depth with
  | zero =>
    rw [object, ht]
    refine Schema.readMember_instanceOf ht ?_ hmem hproperty
    rw [map_fst_columnValues]
    exact (List.nodup_append.mp t.distinct).1
  | succ depth =>
    rw [object, ht]
    refine Schema.readMember_instanceOf ht ?_ (List.mem_append_left _ hmem) hproperty
    rw [List.map_append, map_fst_columnValues, map_fst_relationValues]
    exact t.distinct

/-- **Relations are members.** An object leads to the objects of the rows that belong to its own. -/
theorem readMember_object_relation (hs : s.PropertiesApart) (ht : s.table? name = some t)
    {m : String} {r : Relation} (hr : t.relation? m = some r) {link : RowLink}
    (hlink : s.link? t r = some link) (depth : Nat) (row : Row) :
    s.readMember (object db s (depth + 1) name row) m =
      .ok (relationValue r ((db.related link row).map (object db s depth r.target))) := by
  have hmember : r.member = m := by simpa using List.find?_some hr
  -- no property hides the relation
  have hproperty : ∀ p ∈ s.propertiesOf name, p.name ≠ m := by
    rintro p hp rfl
    rw [(hs name t ht p hp).2] at hr
    cases hr
  rw [object, ht]
  refine Schema.readMember_instanceOf ht ?_ (List.mem_append_right _ ?_) hproperty
  · rw [List.map_append, map_fst_columnValues, map_fst_relationValues]
    exact t.distinct
  · rw [relationValues]
    refine List.mem_map.mpr ⟨r, List.mem_of_find?_eq_some hr, ?_⟩
    rw [hlink, hmember]

end Sql.Database

/-! ### Hops along relations -/

namespace Schema

variable {s : Schema} {name : String} {t : Table}

/-- The members of a mapped type are its columns and relations, and computed ones. -/
theorem members_of_table (ht : s.table? name = some t) {ms : List Member}
    (hms : s.members? (.named name) = .ok (some ms)) :
    ∃ computed visible, s.computedMembers name = .ok computed ∧ visible ⊆ computed ∧
      ms = t.columns.map Member.ofColumn ++ t.relations.map Member.ofRelation ++ visible := by
  obtain ⟨r, hr, hname, hlayout⟩ := record_of_table? ht
  rw [members?, hr] at hms
  obtain ⟨ns, hns, hsome⟩ := map_eq_ok_iff.mp hms
  cases hsome
  obtain ⟨stored, hstored, hns⟩ := bind_eq_ok_iff.mp hns
  obtain ⟨computed, hcomputed, hns⟩ := bind_eq_ok_iff.mp hns
  -- columns and relations are stored members, and properties may hide some
  rw [storedMembers, hlayout] at hstored
  cases hstored
  cases hns
  exact ⟨computed, _, hname ▸ hcomputed, List.filter_subset_self _, rfl⟩

theorem mem_members_of_table (ht : s.table? name = some t) {ms : List Member}
    (hms : s.members? (.named name) = .ok (some ms)) :
    (∀ c ∈ t.columns, Member.ofColumn c ∈ ms) ∧ ∀ r ∈ t.relations, Member.ofRelation r ∈ ms := by
  obtain ⟨computed, visible, -, -, rfl⟩ := members_of_table ht hms
  refine ⟨fun c hc => List.mem_append_left _ ?_, fun r hr => List.mem_append_left _ ?_⟩
  · exact List.mem_append_left _ (List.mem_map_of_mem hc)
  · exact List.mem_append_right _ (List.mem_map_of_mem hr)

theorem member_ext {owner : TypeExpr} {ms : List Member} (hms : s.members? owner = .ok (some ms))
    {m n : Member} (hm : m ∈ ms) (hn : n ∈ ms) (h : m.name = n.name) : m = n :=
  List.inj_on_of_nodup_map (nodup_members hms) hm hn h

theorem requireLink_eq_ok_iff {c : ResolvedColumn} {hop : Hop} {link : RowLink} :
    s.requireLink c hop = .ok link ↔ hop.relationship = true ∧ s.linkOf? hop = some link := by
  rw [requireLink]
  split
  · next hrelation =>
    split
    · next link' hlink =>
      rw [hlink, Except.ok.injEq, Option.some.injEq]
      exact ⟨fun h => ⟨hrelation, h⟩, And.right⟩
    · next hnone =>
      rw [hnone]
      exact ⟨nofun, nofun⟩
  · next hnone => exact ⟨nofun, fun h => absurd h.1 hnone⟩

/-- A hop with a link is a relation of the table, and has the type of its target. -/
theorem relation_of_linkOf? {ms : List Member} (hms : s.members? (.named name) = .ok (some ms))
    {m : Member} (hm : m ∈ ms) {link : RowLink}
    (h : s.linkOf? (Hop.ofMember (.named name) m) = some link) :
    ∃ t r, s.table? name = some t ∧ t.relation? m.name = some r ∧ s.link? t r = some link ∧
      m = Member.ofRelation r := by
  rw [linkOf?] at h
  simp only [Hop.ofMember] at h
  split at h
  · next t ht =>
    obtain ⟨r, hr, hlink⟩ := Option.bind_eq_some_iff.mp h
    -- the member found by the path has the relation's name, and names are different
    refine ⟨t, r, ht, hr, hlink, member_ext hms hm ?_ ?_⟩
    · exact (mem_members_of_table ht hms).2 r (List.mem_of_find?_eq_some hr)
    · rw [name_ofRelation]
      exact (by simpa using List.find?_some hr : r.member = m.name).symm
  · cases h

/-- **A hop that a clause follows is a relation** of the table, and has the type of its target. -/
theorem relation_of_requireLink {ms : List Member} (hms : s.members? (.named name) = .ok (some ms))
    {m : Member} (hm : m ∈ ms) {c : ResolvedColumn} {link : RowLink}
    (h : s.requireLink c (Hop.ofMember (.named name) m) = .ok link) :
    ∃ t r, s.table? name = some t ∧ t.relation? m.name = some r ∧ s.link? t r = some link ∧
      m = Member.ofRelation r :=
  relation_of_linkOf? hms hm (requireLink_eq_ok_iff.mp h).2

/-- A member that is a column of a database query is a column of the table. -/
theorem column_of_attributeAt {ms : List Member} (hms : s.members? (.named name) = .ok (some ms))
    {m : Member} (hm : m ∈ ms) {ref : ColumnRef} {type : SqlType}
    (h : s.attributeAt (Hop.ofMember (.named name) m) = .ok (.column ref type)) :
    ∃ t c, s.table? name = some t ∧ t.column? m.name = some c ∧ ref.table = t.name ∧
      ref.label = c.label ∧ type = c.type ∧ m = Member.ofColumn c := by
  -- what is no part of the table gives an attribute of another kind, or none
  have hunmapped : s.unmappedAttribute name m.name ≠ .ok (.column ref type) := by
    intro h
    rw [unmappedAttribute] at h
    repeat' split at h
    all_goals cases h
  change s.attributeOf name m.name = _ at h
  rw [attributeOf] at h
  split at h
  · exact absurd h hunmapped
  · next t ht =>
    split at h
    · next c hc =>
      cases h
      refine ⟨t, c, ht, hc, rfl, rfl, rfl, member_ext hms hm ?_ ?_⟩
      · exact (mem_members_of_table ht hms).1 c (List.mem_of_find?_eq_some hc)
      · exact (by simpa using List.find?_some hc : c.member = m.name).symm
    · cases h
    · cases h
    · exact absurd h hunmapped

/-- The table that a link leads to is that of the relation's target. -/
theorem table_of_link? {r : Relation} {link : RowLink} (h : s.link? t r = some link) :
    ∃ target, s.table? r.target = some target ∧ link.target = target.name := by
  obtain ⟨target, htarget, rfl⟩ := Option.map_eq_some_iff.mp h
  refine ⟨target, htarget, ?_⟩
  split <;> rfl

/-! ### Tables along a chain -/

variable {owner : TypeExpr} {hops : List Hop} {hop next : Hop} {link : RowLink}

/-- The table of the type that a hop starts at. -/
def tableAt? (s : Schema) (hop : Hop) : Option String :=
  match hop.owner with
  | .named owner => (s.table? owner).map Table.name
  | _ => none

theorem owner_of_link? {t : Table} {r : Relation} (h : s.link? t r = some link) :
    link.owner = t.name := by
  obtain ⟨target, -, rfl⟩ := Option.map_eq_some_iff.mp h
  split <;> rfl

theorem tableAt?_of_linkOf? (h : s.linkOf? hop = some link) : s.tableAt? hop = some link.owner := by
  unfold linkOf? at h
  split at h
  · next name hname =>
    split at h
    · next t ht =>
      obtain ⟨r, -, hlink⟩ := Option.bind_eq_some_iff.mp h
      rw [tableAt?, hname, owner_of_link? hlink]
      exact congrArg (Option.map Table.name) ht
    · cases h
  · cases h

theorem tableAt?_of_attributeAt {ref : ColumnRef} {type : SqlType}
    (h : s.attributeAt hop = .ok (.column ref type)) (hchained : s.Chained owner (hops ++ [hop])) :
    s.tableAt? hop = some ref.table := by
  obtain ⟨-, middle, hlast⟩ := hchained.split
  cases hlast with
  | @cons _ ms m _ members mem _ =>
    cases middle with
    | named name =>
      obtain ⟨t, c, ht, -, htable, -⟩ := column_of_attributeAt members mem h
      rw [htable]
      exact congrArg (Option.map Table.name) ht
    | _ => cases h

/-- **The hop after a relation starts at the table that the relation leads to.** -/
theorem tableAt?_next (h : s.linkOf? hop = some link)
    (hchained : s.Chained owner (hops ++ [hop, next])) : s.tableAt? next = some link.target := by
  obtain ⟨-, middle, hlast⟩ := hchained.split
  cases hlast with
  | @cons _ ms m _ members mem hnext =>
    cases hnext with
    | @cons _ ns n _ members' mem' _ =>
      cases middle with
      | named name =>
        obtain ⟨t, r, -, -, hlink, rfl⟩ := relation_of_linkOf? members mem h
        obtain ⟨target, htarget, hname⟩ := table_of_link? hlink
        rw [hname]
        unfold Member.ofRelation at members' ⊢
        split at members'
        · exact congrArg (Option.map Table.name) htarget
        · -- a list of rows has no members, so nothing comes after it
          cases members'
      | _ => cases h

end Schema
end RecordQuery
