import RecordQuery.Proofs.Membership
import RecordQuery.Proofs.Printing
import RecordQuery.Proofs.Typing

/-!
# Members of enumerations that read back

A member of an enumeration is written as its name, or as its value where the members are texts. A
reader looks for a text among all names first, other names of a member included, and then among the
values of the members in order, in both cases without regard to the letter case.

* `EnumType.Calls` and `EnumType.ShowsFirst` — a text is a name of a member, or it is the value of a
  member and of none before it.
* `EnumType.read_eq_some_iff` — these two describe the reader, if no two names differ in their
  letter case only.
* `EnumType.Recalls` — the condition under which the text that is written for a member is read as
  this member. Members that are written as their names meet it (`recalls_of_calls`), and so do those
  whose values no other member has for a name or a value (`recalls_of_alone`).
* `equals_member` — members are compared one for one, so that a condition on equality holds of what
  its text is read as.
* `enumMember_reads_back` puts this together; `enumMember_read_as_other` shows a text that is the
  value of one member and the name of another.
-/

namespace RecordQuery

open Text

namespace EnumType

variable {e : EnumType} {v w : Value} {cs : List Char}

/-- A value is a member of the enumeration: its name is declared, and denotes it. A name with the
value of an earlier one denotes the earlier member, and is the name of none. -/
def Has (e : EnumType) (v : Value) : Prop :=
  ∃ m ∈ e.members, v = .member e.base e.name m.1 m.2 ∧ e.memberOf m.1 m.2 = v

/-- No two names differ in their letter case only. -/
def NamesApart (e : EnumType) : Prop := (e.members.map fun m => fold m.1.toList).Nodup

instance (e : EnumType) : Decidable e.NamesApart :=
  inferInstanceAs (Decidable (e.members.map fun m => fold m.1.toList).Nodup)

/-- A text is a name of a member, in any letter case. -/
def Calls (e : EnumType) (cs : List Char) (v : Value) : Prop :=
  ∃ m ∈ e.members, fold m.1.toList = fold cs ∧ v = e.memberOf m.1 m.2

/-- A text is the text of a member's value, in any letter case. -/
def Shows (e : EnumType) (cs : List Char) (v : Value) : Prop :=
  ∃ m ∈ e.distinct, (∃ t, m.2.plainShown = .ok t ∧ fold t.toList = fold cs) ∧
    v = e.memberOf m.1 m.2

/-- A text is the text of a member's value, and the values of all members before it have other
texts. -/
def ShowsFirst (e : EnumType) (cs : List Char) (v : Value) : Prop :=
  ∃ before m after, e.distinct = before ++ m :: after ∧
    (∀ n ∈ before, ∃ t, n.2.plainShown = .ok t ∧ fold t.toList ≠ fold cs) ∧
    (∃ t, m.2.plainShown = .ok t ∧ fold t.toList = fold cs) ∧ v = e.memberOf m.1 m.2

/-- A text is read as a member: it is not blank, and without its outer blanks it is a name of the
member, or else no name at all and the value of the member first. -/
def Recalls (e : EnumType) (text : String) (v : Value) : Prop :=
  trim text.toList ≠ [] ∧ (e.Calls (trim text.toList) v ∨
    (∀ w, ¬ e.Calls (trim text.toList) w) ∧ e.ShowsFirst (trim text.toList) v)

/-! ### Reading -/

theorem ShowsFirst.shows (h : e.ShowsFirst cs v) : e.Shows cs v := by
  obtain ⟨before, m, after, hdistinct, -, hkey, rfl⟩ := h
  have hm : m ∈ e.distinct := by
    rw [hdistinct]
    exact List.mem_append_right before List.mem_cons_self
  exact ⟨m, hm, hkey, rfl⟩

theorem Calls.unique (hapart : e.NamesApart) (hv : e.Calls cs v) (hw : e.Calls cs w) : v = w := by
  obtain ⟨m, hm, hkey, rfl⟩ := hv
  obtain ⟨n, hn, hkey', rfl⟩ := hw
  have hsame : m = n := List.inj_on_of_nodup_map hapart hm hn (hkey.trans hkey'.symm)
  rw [hsame]

/-- If a text is the value of some member, and all values have texts, then it is the value of one
of them first. -/
theorem exists_showsFirst (hall : ∀ n ∈ e.distinct, ∃ t, n.2.plainShown = .ok t)
    (h : e.Shows cs v) : ∃ w, e.ShowsFirst cs w := by
  classical
  obtain ⟨m, hm, hkey, -⟩ := h
  let P : String × Value → Prop := fun n => ∃ t, n.2.plainShown = .ok t ∧ fold t.toList = fold cs
  have hsome : (e.distinct.find? fun n => decide (P n)).isSome = true :=
    List.find?_isSome.mpr ⟨m, hm, decide_eq_true hkey⟩
  obtain ⟨n, hn⟩ := Option.isSome_iff_exists.mp hsome
  obtain ⟨hfound, before, after, hdistinct, hbefore⟩ := List.find?_eq_some_iff_append.mp hn
  -- the members before are compared too, so their values need a text
  refine ⟨_, before, n, after, hdistinct, fun x hx => ?_, of_decide_eq_true hfound, rfl⟩
  obtain ⟨t, ht⟩ := hall x (hdistinct ▸ List.mem_append_left _ hx)
  refine ⟨t, ht, fun hsame => ?_⟩
  simpa [P, ht, hsame] using hbefore x hx

/-- **The reader** takes a text for the member that it is a name of, and else for the first one that
it is the value of. -/
theorem read_eq_some_iff (hapart : e.NamesApart) : e.read cs = .ok (some v) ↔
    e.Calls cs v ∨ (∀ w, ¬ e.Calls cs w) ∧ e.ShowsFirst cs v := by
  unfold read
  simp only
  cases hfind : e.members.find? fun m => fold m.1.toList == fold cs with
  | some m =>
    have hkey := List.find?_some (p := fun m : String × Value => fold m.1.toList == fold cs) hfind
    have hcalls : e.Calls cs (e.memberOf m.1 m.2) :=
      ⟨m, List.mem_of_find?_eq_some hfind, beq_iff_eq.mp hkey, rfl⟩
    constructor
    · rintro ⟨⟩
      exact .inl hcalls
    · rintro (h | ⟨hnone, -⟩)
      · exact congrArg (fun v => Except.ok (some v)) (hcalls.unique hapart h)
      · exact absurd hcalls (hnone _)
  | none =>
    -- no name is met, and the values are searched in order
    have hnone : ∀ w, ¬ e.Calls cs w := by
      rintro w ⟨m, hm, hkey, -⟩
      exact List.find?_eq_none.mp hfind m hm (beq_iff_eq.mpr hkey)
    rw [or_iff_right (hnone v), and_iff_right hnone]
    constructor
    · intro h
      obtain ⟨found, hfound, h⟩ := map_eq_ok_iff.mp h
      obtain ⟨m, rfl, rfl⟩ := Option.map_eq_some_iff.mp h
      obtain ⟨before, after, hdistinct, hbefore, hshown⟩ := findValue_eq_some_iff.mp hfound
      exact ⟨before, m, after, hdistinct, hbefore, hshown, rfl⟩
    · rintro ⟨before, m, after, hdistinct, hbefore, hshown, rfl⟩
      rw [findValue_eq_some_iff.mpr ⟨before, after, hdistinct, hbefore, hshown⟩]
      rfl

/-! ### Members as values -/

/-- The values of members that are texts or integers themselves. -/
inductive IsKey : Value → Prop where
  | int (n : Int) : IsKey (.int n)
  | text (t : String) : IsKey (.text t)

theorem IsKey.eq_iff {x y : Value} (hx : IsKey x) (hy : IsKey y) :
    ∃ b, x.eq y = .ok b ∧ x.eqScalar y = .ok b ∧ (b = true ↔ x = y) := by
  cases hx with
  | int a =>
    cases hy with
    | int b => exact ⟨a == b, rfl, rfl, by rw [beq_iff_eq, Value.int.injEq]⟩
    | text t => exact ⟨false, rfl, rfl, by simp⟩
  | text t =>
    cases hy with
    | int b => exact ⟨false, rfl, rfl, by simp⟩
    | text u => exact ⟨t == u, rfl, rfl, by rw [beq_iff_eq, Value.text.injEq]⟩

theorem IsKey.sameValue_iff {x y : Value} (hx : IsKey x) (hy : IsKey y) :
    sameValue x y = true ↔ x = y := by
  obtain ⟨b, heq, -, hb⟩ := hx.eq_iff hy
  unfold sameValue
  rw [heq]
  exact hb

theorem IsDeclared.isKey (h : e.IsDeclared) (hbase : e.base ≠ .plain) {m : String × Value}
    (hm : m ∈ e.members) : IsKey m.2 := by
  cases hcases : e.base with
  | plain => exact absurd hcases hbase
  | integer =>
    obtain ⟨n, hn⟩ := h.exists_int hcases hm
    rw [hn]
    exact .int n
  | text =>
    obtain ⟨t, ht⟩ := h.exists_text hcases hm
    rw [ht]
    exact .text t

/-- Whatever name such a value is declared with, it denotes the first member that has it. -/
theorem exists_memberOf_eq (h : e.IsDeclared) (hbase : e.base ≠ .plain) {m : String × Value}
    (hm : m ∈ e.members) : ∃ n ∈ e.members, n.2 = m.2 ∧ e.canonical? m.2 = some n ∧
      ∀ name, e.memberOf name m.2 = .member e.base e.name n.1 n.2 := by
  -- a value is equal to itself, so that some member has it
  have hself : sameValue m.2 m.2 = true :=
    ((h.isKey hbase hm).sameValue_iff (h.isKey hbase hm)).mpr rfl
  have hsome : (e.canonical? m.2).isSome = true := List.find?_isSome.mpr ⟨m, hm, hself⟩
  obtain ⟨n, hn⟩ := Option.isSome_iff_exists.mp hsome
  have hmem : n ∈ e.members := List.mem_of_find?_eq_some hn
  have hsame := List.find?_some (p := fun n : String × Value => sameValue n.2 m.2) hn
  refine ⟨n, hmem, ((h.isKey hbase hmem).sameValue_iff (h.isKey hbase hm)).mp hsame, hn, ?_⟩
  intro name
  unfold memberOf
  rw [hn]

theorem has_of_read (h : e.IsDeclared) (hbase : e.base ≠ .plain)
    (hread : e.read cs = .ok (some v)) : e.Has v := by
  obtain ⟨m, hm, rfl⟩ : ∃ m ∈ e.members, v = e.memberOf m.1 m.2 := exists_memberOf_of_read hread
  obtain ⟨n, hn, hvalue, -, hmemberOf⟩ := exists_memberOf_eq h hbase hm
  exact ⟨n, hn, hmemberOf m.1, by rw [hvalue, hmemberOf, hmemberOf]⟩

/-- Members that are texts or integers are compared by their values, and others by their names:
either way a member equals itself only. -/
theorem Has.equals_iff (h : e.IsDeclared) (hv : e.Has v) (hread : e.read cs = .ok (some w)) :
    ∃ b, v.equals w = .ok b ∧ (b = true ↔ v = w) := by
  obtain ⟨m, hm, rfl, hown⟩ := hv
  by_cases hbase : e.base = .plain
  · obtain ⟨n, hn, rfl⟩ := exists_of_read hread
    refine ⟨m.1 == n.1, ?_, ?_⟩
    · rw [hbase]
      show Except.ok (e.name == e.name && m.1 == n.1) = _
      rw [beq_self_eq_true, Bool.true_and]
    · rw [beq_iff_eq]
      constructor
      · intro hname
        rw [List.inj_on_of_nodup_map e.distinct_names hm hn hname]
      · intro hsame
        exact (Value.member.inj hsame).2.2.1
  · obtain ⟨n, hn, rfl, hown'⟩ := has_of_read h hbase hread
    obtain ⟨b, -, heq, hb⟩ := (h.isKey hbase hm).eq_iff (h.isKey hbase hn)
    refine ⟨b, ?_, hb.trans ⟨fun hvalue => ?_, fun hsame => ?_⟩⟩
    · rw [← heq]
      cases hcases : e.base with
      | plain => exact absurd hcases hbase
      | integer => rfl
      | text => rfl
    · -- the value says which member it is
      obtain ⟨first, -, -, -, hmemberOf⟩ := exists_memberOf_eq h hbase hm
      rw [← hown, ← hown', ← hvalue, hmemberOf, hmemberOf]
    · exact (Value.member.inj hsame).2.2.2

/-- No member equals the absent value, from whichever side they are compared. -/
theorem equals_null (h : e.IsDeclared) {m : String × Value} (hm : m ∈ e.members) :
    (Value.member e.base e.name m.1 m.2).equals .null = .ok false ∧
      Value.null.equals (.member e.base e.name m.1 m.2) = .ok false := by
  cases hcases : e.base with
  | plain => exact ⟨rfl, rfl⟩
  | integer =>
    obtain ⟨n, hn⟩ := h.exists_int hcases hm
    rw [hn]
    exact ⟨rfl, rfl⟩
  | text =>
    obtain ⟨t, ht⟩ := h.exists_text hcases hm
    rw [ht]
    exact ⟨rfl, rfl⟩

/-! ### Writing -/

/-- What is written for a member: its value where that is a text, and else its name. -/
theorem Has.exists_written (h : e.IsDeclared) (hv : e.Has v) : ∃ raw, v.written = .ok raw ∧
    (e.base ≠ .text → e.Calls raw.text.toList v) ∧
    (e.base = .text → e.Shows raw.text.toList v) := by
  obtain ⟨m, hm, rfl, hown⟩ := hv
  by_cases hbase : e.base = .text
  · obtain ⟨t, ht⟩ := h.exists_text hbase hm
    refine ⟨.member e.name m.1 t, ?_, fun hne => absurd hbase hne, fun _ => ?_⟩
    · rw [hbase, ht]
      rfl
    · -- it is the first member with its value, because its name denotes it
      have hfirst : m ∈ e.distinct := by
        have hplain : e.base ≠ .plain := by simp [hbase]
        obtain ⟨n, -, -, hn, hmemberOf⟩ := exists_memberOf_eq h hplain hm
        have hname : n.1 = m.1 := (Value.member.inj ((hmemberOf m.1).symm.trans hown)).2.2.1
        refine List.mem_filter.mpr ⟨hm, ?_⟩
        rw [hn, Option.map_some, hname, beq_self_eq_true]
      refine ⟨m, hfirst, ⟨t, ?_, rfl⟩, hown.symm⟩
      rw [ht]
      rfl
  · refine ⟨.plain m.1, ?_, fun _ => ⟨m, hm, rfl, hown.symm⟩, fun hne => absurd hne hbase⟩
    cases hcases : e.base with
    | plain => rfl
    | integer => rfl
    | text => exact absurd hcases hbase

section

variable {text : String}

theorem recalls_of_calls (htrim : trim text.toList = text.toList) (hne : text ≠ "")
    (h : e.Calls text.toList v) : e.Recalls text v := by
  unfold Recalls
  rw [htrim]
  exact ⟨String.toList_eq_nil_iff.not.mpr hne, .inl h⟩

/-- The text of a value recalls the member, if all values have texts, and it is neither a name nor
the value of another one. -/
theorem recalls_of_alone (hall : ∀ n ∈ e.distinct, ∃ t, n.2.plainShown = .ok t)
    (htrim : trim text.toList = text.toList) (hne : text ≠ "") (h : e.Shows text.toList v)
    (halone : ∀ w, e.Calls text.toList w ∨ e.Shows text.toList w → w = v) : e.Recalls text v := by
  unfold Recalls
  rw [htrim]
  refine ⟨String.toList_eq_nil_iff.not.mpr hne, ?_⟩
  -- a name goes before the text of a value, but both lead to this member only
  by_cases hcalled : ∃ w, e.Calls text.toList w
  · obtain ⟨w, hw⟩ := hcalled
    obtain rfl := halone w (.inl hw)
    exact .inl hw
  · obtain ⟨w, hw⟩ := exists_showsFirst hall h
    obtain rfl := halone w (.inr hw.shows)
    exact .inr ⟨not_exists.mp hcalled, hw⟩

end

end EnumType

/-! ### Columns of enumerations -/

section

variable {s : Schema} {name : String} {e : EnumType}

/-- What a text is read as, where the type is an enumeration: a blank one is no value, and any other
one is looked up among the members, where a value without a text is a fault. -/
theorem Schema.coerce_named (he : s.enum? name = some e) (raw : RawText) :
    let cs := trim raw.text.toList
    s.coerce raw (.named name) .eq =
      if cs = [] then .ok .null
      else liftFault (e.read cs) >>= fun found => found.elim
        (.error (.coercion (.plain (String.ofList cs)) name (.notMember (e.members.map Prod.fst))))
        .ok := by
  intro cs
  have hscalar : s.coerce raw (.named name) .eq =
      if cs.isEmpty then .ok .null else s.coerceText raw cs (.named name) := rfl
  rw [hscalar]
  by_cases hblank : cs = []
  · rw [if_pos hblank, if_pos (List.isEmpty_iff.mpr hblank)]
  · rw [if_neg hblank, if_neg (List.isEmpty_iff.not.mpr hblank)]
    unfold coerceText
    simp only [he]
    -- a text names a member, or is none of them, or has a value that no text can be made of
    cases e.read cs with
    | error f => rfl
    | ok found =>
      cases found with
      | some w => rfl
      | none => rfl

/-- A text that is not blank is read as a member exactly if it is looked up as this member. -/
theorem Schema.coerce_named_eq_ok_iff (he : s.enum? name = some e) {raw : RawText}
    (hblank : trim raw.text.toList ≠ []) {v : Value} :
    s.coerce raw (.named name) .eq = .ok v ↔ e.read (trim raw.text.toList) = .ok (some v) := by
  rw [coerce_named he, if_neg hblank]
  cases e.read (trim raw.text.toList) with
  | error f => exact iff_of_false nofun nofun
  | ok found =>
    cases found with
    | none => exact iff_of_false nofun nofun
    | some w => exact ⟨fun h => by cases h; rfl, fun h => by cases h; rfl⟩

/-- The texts that are read as a member are those that recall it. -/
theorem Schema.coerce_eq_ok_iff_recalls (he : s.enum? name = some e) (hapart : e.NamesApart)
    {v : Value} (hv : v ≠ .null) (raw : RawText) :
    s.coerce raw (.named name) .eq = .ok v ↔ e.Recalls raw.text v := by
  unfold EnumType.Recalls
  rw [← EnumType.read_eq_some_iff hapart]
  by_cases hblank : trim raw.text.toList = []
  · refine iff_of_false (fun h => ?_) fun h => h.1 hblank
    rw [coerce_named he, if_pos hblank] at h
    exact hv (Except.ok.inj h).symm
  · rw [coerce_named_eq_ok_iff he hblank]
    exact (and_iff_right hblank).symm

theorem Schema.coerce_named_cases (he : s.enum? name = some e) {raw : RawText} {u : Value}
    (h : s.coerce raw (.named name) .eq = .ok u) :
    u = .null ∨ e.read (trim raw.text.toList) = .ok (some u) := by
  by_cases hblank : trim raw.text.toList = []
  · rw [coerce_named he, if_pos hblank] at h
    exact .inl (Except.ok.inj h).symm
  · exact .inr ((coerce_named_eq_ok_iff he hblank).mp h)

/-- **Equality** between what a column of the enumeration holds and what a text is read as is one
for one. -/
theorem Schema.equals_coerce (hs : s.EnumsDeclared) (he : s.enum? name = some e) {raw : RawText}
    {u w : Value} (hu : s.coerce raw (.named name) .eq = .ok u) (hw : w = .null ∨ e.Has w) :
    ∃ b, w.equals u = .ok b ∧ (b = true ↔ w = u) := by
  have hdeclared := hs.isDeclared he
  -- either side may be null, and null equals itself only
  rcases coerce_named_cases he hu with rfl | hread
  · rcases hw with rfl | ⟨m, hm, rfl, -⟩
    · exact ⟨true, rfl, iff_of_true rfl rfl⟩
    · exact ⟨false, (EnumType.equals_null hdeclared hm).1, iff_of_false Bool.false_ne_true nofun⟩
  · rcases hw with rfl | hw
    · obtain ⟨m, hm, rfl⟩ := EnumType.exists_of_read hread
      exact ⟨false, (EnumType.equals_null hdeclared hm).2, iff_of_false Bool.false_ne_true nofun⟩
    · exact hw.equals_iff hdeclared hread

/-- **Members read back.** Let the names of an enumeration differ in more than their letter case. A
member is written as a text, and this text is read as the member exactly if it recalls it. That is
so unless outer blanks or the lack of any character spoil the text, or the member is written as its
value and another member has this value, or this name, in some letter case. A condition that is
built from the member has the value that its text is read as, and holds of exactly the records that
have this value; so it holds of those that have the member exactly if the text recalls it. -/
theorem enumMember_reads_back (hs : s.EnumsDeclared) (he : s.enum? name = some e)
    (hapart : e.NamesApart) {v : Value} (hv : e.Has v) :
    ∃ raw, v.written = .ok raw ∧
      (s.coerce raw (.named name) .eq = .ok v ↔ e.Recalls raw.text v) ∧
      (trim raw.text.toList = raw.text.toList → raw.text ≠ "" →
        (e.base = .text → ∀ w,
          e.Calls raw.text.toList w ∨ e.Shows raw.text.toList w → w = v) →
        e.Recalls raw.text v) ∧
      ∀ {options : Options} {owner : TypeExpr} {h : Handle} {column : ResolvedColumn} {f : Filter},
        s.resolve options.fallback owner h.path = .ok column →
        column.type.present.1 = .named name → h.test .eq v = .ok f →
        compileFilter s options Predicate.usualRegistry owner [f] =
            (s.coerce raw (.named name) .eq).map
              (fun u => .test (.usual .eq) column options.nullGuard u) ∧
          ∀ u, s.coerce raw (.named name) .eq = .ok u → ∀ record w, (w = .null ∨ e.Has w) →
            s.read options.nullGuard column record = .ok w →
            ∃ b, (Predicate.test (.usual .eq) column options.nullGuard u).holds s record = .ok b ∧
              (b = true ↔ w = u) := by
  have hdeclared := hs.isDeclared he
  have hne : v ≠ .null := by
    rintro rfl
    obtain ⟨m, -, hm, -⟩ := hv
    cases hm
  obtain ⟨raw, hraw, hname, hvalue⟩ := hv.exists_written hdeclared
  refine ⟨raw, hraw, Schema.coerce_eq_ok_iff_recalls he hapart hne raw, ?_, ?_⟩
  · intro htrim hempty halone
    by_cases hbase : e.base = .text
    · -- texts have themselves for texts
      have hall : ∀ n ∈ e.distinct, ∃ t, n.2.plainShown = .ok t := by
        intro n hn
        obtain ⟨t, ht⟩ := hdeclared.exists_text hbase (List.mem_filter.mp hn).1
        rw [ht]
        exact ⟨t, rfl⟩
      exact EnumType.recalls_of_alone hall htrim hempty (hvalue hbase) (halone hbase)
    · exact EnumType.recalls_of_calls htrim hempty (hname hbase)
  · intro options owner h column f hcolumn htype hf
    -- the condition is a leaf with the text of the member
    obtain ⟨rfl, -⟩ := Handle.eq_leaf_of_test hraw hf
    have hresolved : s.resolveIn options owner none h.path = .ok column := hcolumn
    have hsingle : column.isCollection = false := by
      show column.type.element?.isSome = false
      unfold TypeExpr.element?
      rw [htype]
      rfl
    have hcoerce : s.coerce raw column.type .eq = s.coerce raw (.named name) .eq := by
      unfold Schema.coerce
      rw [htype]
      rfl
    refine ⟨?_, fun u hu record w hw hread => ?_⟩
    · show (usualBackend options).compileNode s options owner none _ = _
      rw [compileNode_leaf hresolved (checkOperator_of_single hsingle rfl rfl), hcoerce]
    · rw [Predicate.holds_test_of_read hread]
      exact Schema.equals_coerce hs he hu hw

end

namespace Cars

/-- The colour of a car. -/
def paint : EnumType :=
  ⟨"Paint", .text, [("RED", .text "crimson"), ("BLUE", .text "red"), ("NAVY", .text "red")],
    by decide⟩

/-- A schema of cars. -/
def schema : Schema :=
  ⟨[paint], [⟨"Car", [], .model [⟨"paint", .named "Paint", [], false, none⟩], []⟩], .absent⟩

/-- A car of a colour. -/
def car (paint : Value) : Value :=
  .record ⟨.model, "Car", ["paint"], none⟩ [("paint", some paint)]

theorem enumsDeclared : schema.EnumsDeclared := by
  intro e he
  obtain rfl := List.mem_singleton.mp he
  exact ⟨.text, "Paint", [("RED", .text "crimson"), ("BLUE", .text "red"), ("NAVY", .text "red")],
    rfl⟩

/-- The red paint. -/
def red : Value := .member .text "Paint" "RED" (.text "crimson")

/-- The blue paint, which is written as the name of the red one. -/
def blue : Value := .member .text "Paint" "BLUE" (.text "red")

theorem has_red : paint.Has red := ⟨("RED", .text "crimson"), by simp [paint], rfl, rfl⟩

theorem has_blue : paint.Has blue := ⟨("BLUE", .text "red"), by simp [paint], rfl, rfl⟩

end Cars

open Cars in
/-- A condition on the red paint. -/
theorem enumMember_reads_back_of_paint :
    let handle : Handle := ⟨⟨["paint"], by decide, by decide⟩, some (.named "Car")⟩
    schema.EnumsDeclared ∧ schema.enum? "Paint" = some paint ∧ paint.NamesApart ∧ paint.Has red ∧
    ∃ raw, red.written = .ok raw ∧ schema.coerce raw (.named "Paint") .eq = .ok red ∧
      ∃ f p, handle.test .eq red = .ok f ∧
        compileFilter schema .usual Predicate.usualRegistry (.named "Car") [f] = .ok p ∧
        ∀ w, (w = .null ∨ paint.Has w) →
          ∃ b, p.holds schema (car w) = .ok b ∧ (b = true ↔ w = red) := by
  intro handle
  have hapart : paint.NamesApart := by decide
  have hfound : schema.enum? "Paint" = some paint := rfl
  obtain ⟨raw, hraw, -, -, hcondition⟩ :=
    enumMember_reads_back enumsDeclared hfound hapart has_red
  obtain rfl : .member "Paint" "RED" "crimson" = raw := Except.ok.inj hraw
  have hread : schema.coerce (.member "Paint" "RED" "crimson") (.named "Paint") .eq = .ok red := rfl
  obtain ⟨column, f, hcolumn, htype, hf, hreads⟩ : ∃ column f,
      schema.resolve Options.usual.fallback (.named "Car") handle.path = .ok column ∧
        column.type.present.1 = .named "Paint" ∧ handle.test .eq red = .ok f ∧
        ∀ w, schema.read false column (car w) = .ok w := ⟨_, _, rfl, rfl, rfl, fun _ => rfl⟩
  obtain ⟨hcompile, hholds⟩ := hcondition hcolumn htype hf
  rw [hread] at hcompile
  exact ⟨enumsDeclared, hfound, hapart, has_red, _, rfl, hread, f, _, hf, hcompile,
    fun w hw => hholds red hread (car w) w hw (hreads w)⟩

open Cars in
/-- The names of the paints differ in more than their letter case. The value of the blue paint is
the name of the red one in small letters: it is read as the red paint, and a condition on the blue
paint holds of red cars, and of no blue ones. -/
theorem enumMember_read_as_other :
    let handle : Handle := ⟨⟨["paint"], by decide, by decide⟩, some (.named "Car")⟩
    paint.NamesApart ∧ paint.Has blue ∧
    ∃ raw f p, blue.written = .ok raw ∧ schema.coerce raw (.named "Paint") .eq = .ok red ∧
      handle.test .eq blue = .ok f ∧
      compileFilter schema .usual Predicate.usualRegistry (.named "Car") [f] = .ok p ∧
      p.holds schema (car red) = .ok true ∧ p.holds schema (car blue) = .ok false := by
  intro handle
  have hapart : paint.NamesApart := by decide
  exact ⟨hapart, has_blue, _, _, _, rfl, rfl, rfl, rfl, rfl, rfl⟩

end RecordQuery
