import Mathlib.Data.List.Infix
import RecordQuery.Proofs.Display.Calendar
import RecordQuery.Proofs.Meaning
import RecordQuery.Proofs.Sorting.Lexicographic
import RecordQuery.Proofs.Sql.Rows
import RecordQuery.Sql.Select

/-!
# Joins of a sort list

A sort list names columns of rows that the sorted rows are related to. The way to such a row is a
prefix of a path, and paths share prefixes, however they are spelt.

* `ResolvedColumn.prefixes` — the ways that lead to a column.
* `Select.Provides` — where the rows at the end of a way are.
* `Select.JoinedFor` — joins for some ways: one for each, attached to what was joined before.
  `Select.JoinedFor.addWay` is the step, `Select.JoinedFor.addItems` a run of items.
* `Select.nodup_aliases` — joined tables get different names.
* `Select.sortedBy_joins` — a sort list joins each of its ways once and adds a term for each item.
-/

namespace RecordQuery

open Sql

/-! ### Ways -/

theorem map_name_concat (hops : List Hop) (hop : Hop) :
    (hops ++ [hop]).map Hop.name = hops.map Hop.name ++ [hop.name] := List.map_append

/-- The ways to a column: the names of the members up to each one before the last. -/
def ResolvedColumn.prefixes (c : ResolvedColumn) : List (List String) :=
  (c.leading.map Hop.name).inits.tail

/-- The longest way leads to the row with the column. -/
theorem ResolvedColumn.mem_prefixes (c : ResolvedColumn) (h : c.leading ≠ []) :
    c.leading.map Hop.name ∈ c.prefixes := by
  obtain ⟨hop, rest, hleading⟩ := List.exists_cons_of_ne_nil h
  have hmem := (List.mem_inits _ (c.leading.map Hop.name)).mpr (List.prefix_refl _)
  rw [prefixes]
  rw [hleading, List.map_cons, List.inits_cons] at hmem ⊢
  exact (List.mem_cons.mp hmem).resolve_left (List.cons_ne_nil _ _)

namespace Sql.Select

variable {s : Schema} {type : TypeExpr} {earlier : Nat} {ways : List (List String)}
  {joins joins' : List Join}

/-! ### Sources -/

/-- Where the rows of a table are that some members lead to: without members they are the sorted
rows themselves, else those of a table that is joined for these members. -/
inductive Provides (earlier : Nat) (joins : List Join) (table : String) :
    List String → Source → Prop
  | own : Provides earlier joins table [] (.table table)
  | joined {n : Nat} {j : Join} (place : joins[n]? = some j) (same : j.table = table) :
      Provides earlier joins table j.path (.join (earlier + n))

/-- What is provided stays where it is when more tables are joined. -/
theorem Provides.mono {table : String} {path : List String} {source : Source}
    (h : Provides earlier joins table path source) (hmore : joins <+: joins') :
    Provides earlier joins' table path source := by
  cases h with
  | own => exact .own
  | joined place same =>
    obtain ⟨more, rfl⟩ := hmore
    refine .joined ?_ same
    rw [List.getElem?_append_left (List.getElem?_eq_some_iff.mp place).1, place]

/-- A table is joined for the members that lead to it: for the last of them, a relation, from where
the others lead. -/
inductive Attached (s : Schema) (type : TypeExpr) (earlier : Nat) (before : List Join) : Join → Prop
  | intro {hops : List Hop} {hop : Hop} {link : RowLink} {source : Source}
      (chained : s.Chained type (hops ++ [hop])) (linked : s.linkOf? hop = some link)
      (parent : Provides earlier before link.owner (hops.map Hop.name) source) :
      Attached s type earlier before
        ⟨hops.map Hop.name ++ [hop.name], link.target, link.targetLabel, source, link.ownerLabel⟩

/-- A joined table is the one at which the next hop starts. -/
theorem Attached.tableAt? {before : List Join} {j : Join} (h : Attached s type earlier before j)
    {hops : List Hop} {hop next : Hop} (hchained : s.Chained type (hops ++ [hop, next]))
    (hpath : j.path = hops.map Hop.name ++ [hop.name]) : s.tableAt? next = some j.table := by
  cases h with
  | @intro hops' hop' link source chained linked parent =>
    -- the names are the same, and hops are known by their names
    have hboth : s.Chained type ((hops ++ [hop]) ++ [next]) := by rwa [List.append_assoc]
    have hsame := chained.ext hboth.split.1 (by rw [map_name_concat, map_name_concat]; exact hpath)
    obtain ⟨rfl, hlast⟩ := List.append_inj' hsame rfl
    cases hlast
    exact Schema.tableAt?_next linked hchained

theorem Attached.path_ne_nil {before : List Join} {j : Join}
    (h : Attached s type earlier before j) : j.path ≠ [] := by
  cases h with
  | @intro hops hop => simp

/-- Joins for some ways: one for each, in the order in which the ways are used for the first time,
and each attached to those before it. -/
structure JoinedFor (s : Schema) (type : TypeExpr) (earlier : Nat) (ways : List (List String))
    (joins : List Join) : Prop where
  once : joins.map Join.path = ways.eraseDups
  attached {before after : List Join} {j : Join} (split : joins = before ++ j :: after) :
    Attached s type earlier before j

/-- The column of an item to sort by, and the term for it. -/
inductive OrdersBy (s : Schema) (options : Options) (type : TypeExpr) (earlier : Nat)
    (joins : List Join) : SortItem → ResolvedColumn × OrderTerm → Prop
  | intro {i : SortItem} {c : ResolvedColumn} {ref : ColumnRef} {t : SqlType} {source : Source}
      (resolved : s.resolve options.fallback type i.column = .ok c)
      (single : c.isCollection = false) (column : s.attributeAt c.terminal = .ok (.column ref t))
      (provided : Provides earlier joins ref.table (c.leading.map Hop.name) source) :
      OrdersBy s options type earlier joins i (c, ⟨source, ref.label, i.direction⟩)

namespace JoinedFor

variable {hops : List Hop} {hop : Hop} {link : RowLink}

theorem nil : JoinedFor s type earlier [] [] where
  once := rfl
  attached h := by cases List.append_ne_nil_of_right_ne_nil _ (List.cons_ne_nil _ _) h.symm

theorem mem_iff (h : JoinedFor s type earlier ways joins) {path : List String} :
    path ∈ ways ↔ ∃ j ∈ joins, j.path = path := by
  rw [← List.mem_eraseDups, ← h.once, List.mem_map]

theorem exists_attached (h : JoinedFor s type earlier ways joins) {j : Join} (hj : j ∈ joins) :
    ∃ before, Attached s type earlier before j := by
  obtain ⟨before, after, hsplit⟩ := List.append_of_mem hj
  exact ⟨before, h.attached hsplit⟩

/-- At the end of a joined way the rows of the joined table are provided, and without a way those
that are sorted. -/
theorem provides (h : JoinedFor s type earlier ways joins) {own : String}
    (hchained : s.Chained type (hops ++ [hop])) (hown : s.tableAt? hop = some own)
    (hway : hops = [] ∨ hops.map Hop.name ∈ ways) :
    Provides earlier joins own (hops.map Hop.name)
      (sourceAt earlier joins own (hops.map Hop.name)) := by
  -- the way is empty, and then no join has it, or it is one of those joined
  obtain rfl | ⟨init, last, rfl⟩ := List.eq_nil_or_concat' hops
  · have hnone : joins.findIdx? (fun j => j.path == ([] : List Hop).map Hop.name) = none := by
      rw [List.findIdx?_eq_none_iff]
      intro j hj
      obtain ⟨before, hattached⟩ := h.exists_attached hj
      exact beq_false_of_ne hattached.path_ne_nil
    rw [sourceAt, hnone]
    exact .own
  · obtain ⟨j, hj, hpath⟩ := h.mem_iff.mp (hway.resolve_left (List.concat_ne_nil _ _))
    rw [map_name_concat] at hpath ⊢
    cases hfound : joins.findIdx? fun j => j.path == init.map Hop.name ++ [last.name] with
    | none =>
      rw [List.findIdx?_eq_none_iff] at hfound
      exact absurd hpath (beq_eq_false_iff_ne.mp (hfound j hj))
    | some n =>
      obtain ⟨hlt, hpath, -⟩ := List.findIdx?_eq_some_iff_getElem.mp hfound
      obtain ⟨before, hattached⟩ := h.exists_attached (List.getElem_mem hlt)
      rw [List.append_assoc] at hchained
      have htable := hattached.tableAt? hchained (beq_iff_eq.mp hpath)
      rw [hown, Option.some.injEq] at htable
      rw [sourceAt, hfound, ← beq_iff_eq.mp hpath]
      exact .joined (List.getElem?_eq_getElem hlt) htable.symm

/-- **One more way.** Where the way to a relation is joined, the way along it is joined next, unless
it is joined already. -/
theorem addWay (h : JoinedFor s type earlier ways joins)
    (hchained : s.Chained type (hops ++ [hop])) (hlink : s.linkOf? hop = some link)
    (hway : hops = [] ∨ hops.map Hop.name ∈ ways) :
    JoinedFor s type earlier (ways ++ [hops.map Hop.name ++ [hop.name]])
        (joining earlier (hops.map Hop.name) hop.name link joins) ∧
      joins <+: joining earlier (hops.map Hop.name) hop.name link joins := by
  have hways : (ways ++ [hops.map Hop.name ++ [hop.name]]).eraseDups =
      ways.eraseDups ++ ([hops.map Hop.name ++ [hop.name]].removeAll ways).eraseDups :=
    List.eraseDups_append
  have hprovides := h.provides hchained (Schema.tableAt?_of_linkOf? hlink) hway
  rw [Select.joining]
  split
  · next hthere =>
    obtain ⟨j, hj, hpath⟩ := List.any_eq_true.mp hthere
    have hmem := h.mem_iff.mpr ⟨j, hj, beq_iff_eq.mp hpath⟩
    refine ⟨⟨?_, h.attached⟩, List.prefix_refl joins⟩
    rw [hways, h.once]
    simp [List.removeAll, hmem]
  · next hnew =>
    have hmem : hops.map Hop.name ++ [hop.name] ∉ ways := by
      intro hmem
      obtain ⟨j, hj, hpath⟩ := h.mem_iff.mp hmem
      exact hnew (List.any_eq_true.mpr ⟨j, hj, beq_iff_eq.mpr hpath⟩)
    refine ⟨⟨?_, ?_⟩, List.prefix_append joins _⟩
    · rw [hways, List.map_append, h.once]
      simp [List.removeAll, hmem, List.eraseDups_cons]
    · intro before after j hsplit
      obtain rfl | ⟨init, last, rfl⟩ := List.eq_nil_or_concat' after
      · -- the new join is the last one
        obtain ⟨rfl, hlast⟩ := List.append_inj' hsplit rfl
        cases hlast
        exact .intro hchained hlink hprovides
      · rw [← List.cons_append, ← List.append_assoc] at hsplit
        exact h.attached (List.append_inj' hsplit rfl).1

/-- **One more path.** All hops before its end are joined. -/
theorem addHops {c : ResolvedColumn} {rest : List Hop} :
    ∀ {hops : List Hop} {ways : List (List String)} {joins joins' : List Join},
      JoinedFor s type earlier ways joins → s.Chained type (hops ++ rest) →
      (hops = [] ∨ hops.map Hop.name ∈ ways) →
      joiningAll s earlier c (hops.map Hop.name) rest joins = .ok joins' →
      JoinedFor s type earlier
          (ways ++ (rest.map Hop.name).inits.tail.map fun names => hops.map Hop.name ++ names)
          joins' ∧
        joins <+: joins' := by
  induction rest with
  | nil =>
    rintro hops ways joins joins' h - - hjoins
    cases hjoins
    refine ⟨?_, List.prefix_refl joins⟩
    simpa using h
  | cons hop rest ih =>
    intro hops ways joins joins' h hchained hway hjoins
    obtain ⟨link, hlink, hjoins⟩ := bind_eq_ok_iff.mp hjoins
    rw [List.append_cons] at hchained
    obtain ⟨hstep, hmore⟩ :=
      h.addWay hchained.split.1 (Schema.requireLink_eq_ok_iff.mp hlink).2 hway
    rw [← map_name_concat] at hjoins hstep
    obtain ⟨hrest, hmore'⟩ := ih hstep hchained
      (.inr (List.mem_append_right _ (List.mem_singleton_self _))) hjoins
    refine ⟨?_, hmore.trans hmore'⟩
    -- the first of the ways is that along the first hop, and the others continue it
    have hinits : ((hop :: rest).map Hop.name).inits.tail =
        [hop.name] :: (rest.map Hop.name).inits.tail.map fun names => hop.name :: names :=
      congrArg List.tail (List.inits_append [hop.name] (rest.map Hop.name))
    rw [hinits]
    simpa [map_name_concat, Function.comp_def] using hrest

end JoinedFor

/-! ### Items -/

theorem OrdersBy.mono {options : Options} {i : SortItem} {p : ResolvedColumn × OrderTerm}
    (h : OrdersBy s options type earlier joins i p) (hmore : joins <+: joins') :
    OrdersBy s options type earlier joins' i p := by
  cases h with
  | intro resolved single column provided =>
    exact .intro resolved single column (provided.mono hmore)

theorem sortColumn_eq_ok_iff {a : Attribute} {ref : ColumnRef} :
    sortColumn a = .ok ref ↔ ∃ t, a = .column ref t := by
  cases a with
  | column ref' t =>
    rw [sortColumn, Except.ok.injEq]
    exact ⟨fun h => ⟨t, by rw [h]⟩, fun ⟨_, h⟩ => by cases h; rfl⟩
  | _ => exact ⟨nofun, nofun⟩

/-- **One more item.** Its ways are joined next, and its term comes last. -/
theorem JoinedFor.addItem {options : Options} {added added' : Added} {i : SortItem}
    (h : JoinedFor s type earlier ways added.joins)
    (hadded : sortingBy s options type earlier added i = .ok added') :
    ∃ c term, OrdersBy s options type earlier added'.joins i (c, term) ∧
      added'.order = added.order ++ [term] ∧
      JoinedFor s type earlier (ways ++ c.prefixes) added'.joins ∧
      added.joins <+: added'.joins := by
  obtain ⟨c, hc, hadded⟩ := bind_eq_ok_iff.mp hadded
  obtain ⟨c', hchecked, hadded⟩ := bind_eq_ok_iff.mp hadded
  obtain ⟨joins, hjoins, hadded⟩ := bind_eq_ok_iff.mp hadded
  obtain ⟨member, hmember, hadded⟩ := bind_eq_ok_iff.mp hadded
  obtain ⟨ref, href, hadded⟩ := bind_eq_ok_iff.mp hadded
  obtain ⟨t, rfl⟩ := sortColumn_eq_ok_iff.mp (liftFault_eq_ok_iff.mp href)
  cases hadded
  obtain ⟨hsingle, rfl⟩ := SortItem.checked_eq_ok_iff.mp hchecked
  have hchained := Schema.chained_of_resolve hc
  rw [ResolvedColumn.hops] at hchained
  have hstart : s.Chained type ([] ++ c'.leading) := hchained.split.1
  -- the ways of the item are joined first, and its column is read where the last of them ends
  obtain ⟨hjoined, hmore⟩ := h.addHops hstart (.inl rfl) hjoins
  have hways : ((c'.leading.map Hop.name).inits.tail.map fun names => [] ++ names) =
      c'.prefixes := List.map_id _
  rw [List.map_nil, hways] at hjoined
  have hend : c'.leading = [] ∨ c'.leading.map Hop.name ∈ ways ++ c'.prefixes :=
    or_iff_not_imp_left.mpr fun hne => List.mem_append_right _ (c'.mem_prefixes hne)
  have hprovided := hjoined.provides hchained (Schema.tableAt?_of_attributeAt hmember hchained) hend
  exact ⟨c', _, .intro hc hsingle hmember hprovided, rfl, hjoined, hmore⟩

/-- A run of items. -/
theorem JoinedFor.addItems {options : Options} {items : List SortItem} :
    ∀ {ways : List (List String)} {added added' : Added},
      JoinedFor s type earlier ways added.joins →
      items.foldlM (sortingBy s options type earlier) added = .ok added' →
      ∃ sorted : List (ResolvedColumn × OrderTerm),
        List.Forall₂ (OrdersBy s options type earlier added'.joins) items sorted ∧
        added'.order = added.order ++ sorted.map Prod.snd ∧
        JoinedFor s type earlier (ways ++ (sorted.map Prod.fst).flatMap ResolvedColumn.prefixes)
          added'.joins ∧
        added.joins <+: added'.joins := by
  induction items with
  | nil =>
    rintro ways added added' h hadded
    cases hadded
    exact ⟨[], .nil, (List.append_nil _).symm, by simpa using h, List.prefix_refl _⟩
  | cons i items ih =>
    rintro ways added added' h hadded
    obtain ⟨next, hnext, hadded⟩ := bind_eq_ok_iff.mp hadded
    obtain ⟨c, term, horders, hterm, hjoined, hmore⟩ := h.addItem hnext
    obtain ⟨sorted, hsorted, hterms, hall, hmore'⟩ := ih hjoined hadded
    -- the item was ordered by the joins of its moment, which are still the first ones at the end
    refine ⟨(c, term) :: sorted, .cons (horders.mono hmore') hsorted, ?_, ?_, hmore.trans hmore'⟩
    · rw [hterms, hterm, List.append_assoc]
      rfl
    · rwa [List.append_assoc] at hall

/-! ### Names of joined tables -/

/-- A name and a number after it are known from the name that they make. -/
theorem numbered_inj {t u : String} {m n : Nat}
    (h : t ++ "_" ++ toString m = u ++ "_" ++ toString n) : t = u ∧ m = n := by
  have hdigits : ∀ k : Nat, '_' ∉ (Nat.toDigits 10 k).reverse := by
    intro k hmem
    have hdigit :=
      Nat.isDigit_of_mem_toDigits (by decide) (Nat.le_refl 10) (List.mem_reverse.mp hmem)
    exact absurd hdigit (by decide)
  -- read backwards, the number ends at the first underscore
  have hchars := congrArg (fun s : String => s.toList.reverse) h
  have hunderscore : "_".toList.reverse = ['_'] := rfl
  simp only [String.toList_append, List.reverse_append, toList_toString, hunderscore,
    List.singleton_append] at hchars
  obtain ⟨hnumber, hname⟩ := cut_unique hchars (hdigits m) (hdigits n)
  exact ⟨String.toList_inj.mp (List.reverse_injective hname),
    Numeral.toDigits_inj (by decide) (by decide) (List.reverse_injective hnumber)⟩

/-- **Joined tables get different names**, as the joins of each table are counted. -/
theorem nodup_aliases (q : Select) : q.aliases.Nodup := by
  rw [List.nodup_iff_pairwise_ne, List.pairwise_iff_getElem]
  intro m n hm hn hlt
  rw [aliases, List.length_mapIdx] at hm hn
  simp only [aliases, List.getElem_mapIdx]
  intro h
  obtain ⟨htable, hcount⟩ := numbered_inj h
  -- the first of the two joins counts for the second one
  have hone : (q.joins.take (m + 1)).countP (fun k => k.table == q.joins[n].table) =
      (q.joins.take m).countP (fun k => k.table == q.joins[n].table) + 1 := by
    rw [List.take_succ_eq_append_getElem hm, List.countP_append, List.countP_singleton,
      if_pos (beq_iff_eq.mpr htable)]
  have hmore := List.Sublist.countP_le (p := fun k : Join => k.table == q.joins[n].table)
    (List.take_sublist_take_left (l := q.joins) (show m + 1 ≤ n from hlt))
  rw [htable] at hcount
  omega

end Sql.Select

/-! ### Employees and those they report to -/

namespace Employees

/-- Employees have a name, a boss and a deputy. -/
def employees : Table where
  name := "employees"
  columns := [⟨"id", "id", .integer, false, none⟩, ⟨"name", "full_name", .text, true, none⟩,
    ⟨"boss_id", "boss_id", .integer, true, some "employees"⟩,
    ⟨"deputy_id", "deputy_id", .integer, true, some "employees"⟩]
  relations := [⟨"boss", "Employee", .toOne "boss_id"⟩, ⟨"deputy", "Employee", .toOne "deputy_id"⟩]
  distinct := by decide

/-- Employees. -/
def schema : Schema := ⟨[], [⟨"Employee", [], .mapped employees, []⟩], .absent⟩

end Employees

/-! ### Sort lists -/

namespace Sql.Select

/-- **A sort list joins each way once.** Take any query, and a sort list that is accepted for a
type. Added to the query are

* one join for each way that leads to a column of the list, in the order in which the ways are used
  for the first time: of the table at the end of a relation, from the rows that the way without this
  relation leads to, which are joined before;
* one term for each item, in order: the column of the item, in the rows that its own way leads to,
  with the direction of the item.

Nothing else is changed, and all joined tables get different names. Criteria without filters and
items change nothing at all. -/
theorem sortedBy_joins (s : Schema) (options : Options) (type : TypeExpr) (q : Select) :
    (∀ items result, q.sortedBy s options type items = .ok result →
      ∃ (sorted : List (ResolvedColumn × OrderTerm)) (joins : List Join),
        result = { q with joins := q.joins ++ joins, order := q.order ++ sorted.map Prod.snd } ∧
        List.Forall₂ (OrdersBy s options type q.joins.length joins) items sorted ∧
        JoinedFor s type q.joins.length
          ((sorted.map Prod.fst).flatMap ResolvedColumn.prefixes) joins ∧
        result.aliases.Nodup) ∧
    ∀ registry criteria, criteria.isEmpty = true →
      q.satisfying s options registry type criteria = .ok q := by
  constructor
  · intro items result accepted
    obtain ⟨added, hadded, hresult⟩ := bind_eq_ok_iff.mp accepted
    cases hresult
    obtain ⟨sorted, hsorted, hterms, hjoined, -⟩ := JoinedFor.nil.addItems hadded
    rw [List.nil_append] at hterms hjoined
    exact ⟨sorted, added.joins, by rw [hterms], hsorted, hjoined, nodup_aliases _⟩
  · rintro registry ⟨filters, sorting⟩ hempty
    obtain ⟨hfilters, hsorting⟩ := Bool.and_eq_true_iff.mp hempty
    obtain rfl := List.isEmpty_iff.mp hfilters
    obtain rfl := List.isEmpty_iff.mp hsorting
    change Except.ok { q with joins := q.joins ++ [], order := q.order ++ [] } = _
    rw [List.append_nil, List.append_nil]

/-- Employees by the names of others: one table is joined three times, and the second and the third
item share the first join though they spell it in another way. -/
theorem sortedBy_joins_of_bosses :
    let path (segments : List String) (h : segments ≠ [] ∧ segments.all isSegment = true) :
      ColumnPath := ⟨segments, h.1, h.2⟩
    let items : List SortItem := [⟨path ["boss", "name"] (by decide), .desc⟩,
      ⟨path ["BOSS", "deputy", "name"] (by decide), .asc⟩, ⟨path ["Boss", "id"] (by decide), .asc⟩,
      ⟨path ["deputy", "name"] (by decide), .desc⟩, ⟨path ["name"] (by decide), .asc⟩]
    ∃ q result, all Employees.schema (.named "Employee") = .ok q ∧
      q.sortedBy Employees.schema .usual (.named "Employee") items = .ok result ∧
      result.joins.map Join.path = [["boss"], ["boss", "deputy"], ["deputy"]] ∧
      result.joins.map Join.parent = [.table "employees", .join 0, .table "employees"] ∧
      result.order = [⟨.join 0, "full_name", .desc⟩, ⟨.join 1, "full_name", .asc⟩,
        ⟨.join 0, "id", .asc⟩, ⟨.join 2, "full_name", .desc⟩,
        ⟨.table "employees", "full_name", .asc⟩] ∧
      result.aliases.Nodup := by
  intro path items
  let q : Select := ⟨⟨"employees", "id", true⟩, [], none, []⟩
  -- all but the names are found by running the sort
  obtain ⟨-, -, -, -, -, hnames⟩ :=
    (sortedBy_joins Employees.schema .usual (.named "Employee") q).1 items _ rfl
  exact ⟨q, _, rfl, rfl, rfl, rfl, rfl, hnames⟩

end Sql.Select
end RecordQuery
