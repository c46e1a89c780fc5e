import RecordQuery.Predicate
import RecordQuery.Proofs.Casting.Outline
import RecordQuery.Proofs.Casting.Renaming
import RecordQuery.Proofs.Coercion

/-!
# Renamed copies

A renamed copy of a record has the values of its members under the new names, and copies of its
records there. What is no record is its own copy.

* `Renaming.Copy` — the copies of a value, as its type sees it. A copy of a record is whatever gives
  copies when it is read by the new names, so it may be a mapping or an instance.
* `Renaming.copy_map`, `Renaming.copy_instance`, `Renaming.copy_collection` — the usual
  copies: mappings with renamed keys, instances with renamed members, and collections of copies.
* `Renaming.Copy.matched_read` — what is read at a renamed column is a copy, or there is nothing to
  read on either side, for the same reason.
* `Renaming.Copy.usualHolds_eq` — conditions do not tell a value from its copy. Where the type
  mentions renamed types, they compare with single values, which do not look into records.
-/

namespace RecordQuery

namespace Renaming

/-- The renamed copies of values of a type. -/
inductive Copy (ρ : Renaming) (s d : Schema) : TypeExpr → Value → Value → Prop
  /-- Values of types that mention no renamed type stay as they are. -/
  | same {t : TypeExpr} (v : Value) (unmentioned : ¬ρ.Mentions t) : Copy ρ s d t v v
  | null (t : TypeExpr) : Copy ρ s d t .null .null
  /-- Members are read under the new names as under the old ones. -/
  | record {n : String} {v v' : Value} (covered : ρ.covers n) (outline : v.outline = v'.outline)
      (fails : ∀ ms, s.members? (.named n) = .ok (some ms) → ∀ m ∈ ms,
        FailAlike (s.readMember v m.name) (d.readMember v' (ρ.member n m.name)))
      (reads : ∀ ms, s.members? (.named n) = .ok (some ms) → ∀ m ∈ ms, ∀ w w',
        s.readMember v m.name = .ok w → d.readMember v' (ρ.member n m.name) = .ok w' →
          Copy ρ s d m.type w w') :
      Copy ρ s d (.named n) v v'
  /-- The elements of a collection are copied one by one. -/
  | collection {t e : TypeExpr} {v v' : Value} (element : t.element? = some e)
      (mentions : ρ.Mentions e) (outline : v.outline = v'.outline)
      (lengths : (Predicate.elementsOf v).map List.length =
        (Predicate.elementsOf v').map List.length)
      (each : ∀ vs vs', Predicate.elementsOf v = .ok vs → Predicate.elementsOf v' = .ok vs' →
        ∀ (i : Nat) (hi : i < vs.length) (hi' : i < vs'.length), Copy ρ s d e vs[i] vs'[i]) :
      Copy ρ s d t v v'
  /-- Records within other values, such as the values of a mapping, are reached by no column. -/
  | unreached {t : TypeExpr} {v v' : Value} (mentions : ρ.Mentions t)
      (unnamed : ∀ n, t ≠ .named n) (elements : ∀ e, t.element? = some e → ¬ρ.Mentions e)
      (outline : v.outline = v'.outline) : Copy ρ s d t v v'

variable {ρ : Renaming} {s d : Schema} {t : TypeExpr} {v v' : Value}

theorem Mentions.mono {e : TypeExpr} (h : ρ.Mentions e) (hsub : e.names ⊆ t.names) :
    ρ.Mentions t := by
  obtain ⟨n, hn, hcovers⟩ := h
  exact ⟨n, hsub hn, hcovers⟩

theorem mentions_named {n : String} : ρ.Mentions (.named n) ↔ ρ.covers n := by
  rw [Mentions, TypeExpr.names]
  simp

namespace Copy

/-- A copy differs inside records only. -/
theorem outline_eq (h : ρ.Copy s d t v v') : v.outline = v'.outline := by
  cases h with
  | same => rfl
  | null => rfl
  | record _ houtline => exact houtline
  | collection _ _ houtline => exact houtline
  | unreached _ _ _ houtline => exact houtline

theorem eq_null_iff (h : ρ.Copy s d t v v') : v = .null ↔ v' = .null := by
  rw [← Value.outline_eq_null_iff, h.outline_eq, Value.outline_eq_null_iff]

theorem eq_of_unmentioned (h : ρ.Copy s d t v v') (ht : ¬ρ.Mentions t) : v' = v := by
  cases h with
  | same => rfl
  | null => rfl
  | record covered => exact absurd (mentions_named.mpr covered) ht
  | collection element mentions => exact absurd (mentions.mono (TypeExpr.names_element element)) ht
  | unreached mentions => exact absurd mentions ht

/-- What stands for a member that cannot be reached is its own copy. -/
theorem defaultOf (ρ : Renaming) (s d : Schema) (t : TypeExpr) (nullable : Bool) :
    ρ.Copy s d t (Value.defaultOf t nullable) (Value.defaultOf t nullable) := by
  cases t with
  | scalar u =>
    refine .same _ ?_
    rintro ⟨n, hn, -⟩
    cases hn
  | _ => cases nullable <;> exact .null _

/-- **Members** of a copy are copies. -/
theorem matched_readMember {n : String} {ms : List Member} {m : Member}
    (h : ρ.Copy s d (.named n) v v') (hcovers : ρ.covers n)
    (hms : s.members? (.named n) = .ok (some ms)) (hm : m ∈ ms) :
    Matched (ρ.Copy s d m.type) (s.readMember v m.name)
      (d.readMember v' (ρ.member n m.name)) := by
  cases h with
  | same _ unmentioned => exact absurd (mentions_named.mpr hcovers) unmentioned
  | null =>
    -- null has no members in any schema
    exact ⟨rfl, fun w w' hw _ => nomatch hw⟩
  | record _ _ fails reads => exact ⟨fails ms hms m hm, reads ms hms m hm⟩
  | collection element => cases element
  | unreached _ unnamed => exact absurd rfl (unnamed n)

/-- **Elements** of a copy are copies, in the same order. -/
theorem matched_elementsOf {e : TypeExpr} (h : ρ.Copy s d t v v') (he : t.element? = some e)
    (hmentions : ρ.Mentions e) :
    Matched (List.Forall₂ (ρ.Copy s d e)) (Predicate.elementsOf v) (Predicate.elementsOf v') := by
  cases h with
  | same _ unmentioned =>
    exact absurd (hmentions.mono (TypeExpr.names_element he)) unmentioned
  | null => exact .ok .nil
  | record => cases he
  | collection element _ _ lengths each =>
    rw [he] at element
    cases element
    -- both can be gone through, for as many elements, or neither can
    refine ⟨failAlike_of_map_eq lengths, fun vs vs' hvs hvs' => ?_⟩
    have hlength : vs.length = vs'.length := by
      rw [hvs, hvs'] at lengths
      exact Except.ok.inj lengths
    exact List.forall₂_iff_get.mpr ⟨hlength, each vs vs' hvs hvs'⟩
  | unreached _ _ elements => exact absurd hmentions (elements e he)

end Copy

/-! ### Copies of some kinds -/

/-- Where names are renamed one by one and no other one is renamed like the key, the key's new name
is looked up with the same success. -/
private theorem lookup_renamed {β γ : Type} {R : β → γ → Prop} {rename : String → String}
    {key : String} {entries : List (String × β)} {entries' : List (String × γ)}
    (h : List.Forall₂ (fun e e' => e'.1 = rename e.1 ∧ (e.1 = key → R e.2 e'.2)) entries entries')
    (hinj : ∀ e ∈ entries, rename e.1 = rename key → e.1 = key) :
    Option.Rel R (entries.lookup key) (entries'.lookup (rename key)) := by
  induction h with
  | nil => exact .none
  | @cons e e' entries entries' hfirst _ ih =>
    rw [List.forall_mem_cons] at hinj
    obtain ⟨name, value⟩ := e
    obtain ⟨name', value'⟩ := e'
    obtain ⟨rfl, hvalue⟩ := hfirst
    by_cases hname : name = key
    · subst hname
      rw [List.lookup_cons_self, List.lookup_cons_self]
      exact .some (hvalue rfl)
    · -- another name does not become the new key, so both lookups go on
      have hname' : rename name ≠ rename key := fun heq => hname (hinj.1 heq)
      rw [List.lookup_cons, List.lookup_cons, beq_false_of_ne (Ne.symm hname),
        beq_false_of_ne (Ne.symm hname')]
      exact ih hinj.2

/-- The entries of a mapping, or the members of an instance, with new names and with copies of the
values of members. No other entry gets the name of a member. -/
structure RenamedEntries (ρ : Renaming) (s d : Schema) (n : String) (ms : List Member)
    (entries entries' : List (String × Value)) : Prop where
  renamed : List.Forall₂ (fun e e' => e'.1 = ρ.member n e.1 ∧
    ∀ m ∈ ms, e.1 = m.name → ρ.Copy s d m.type e.2 e'.2) entries entries'
  separate : ∀ m ∈ ms, ∀ e ∈ entries, ρ.member n e.1 = ρ.member n m.name → e.1 = m.name

variable {n : String} {ms : List Member} {entries entries' : List (String × Value)}

theorem RenamedEntries.lookup (h : ρ.RenamedEntries s d n ms entries entries') {m : Member}
    (hm : m ∈ ms) : Option.Rel (ρ.Copy s d m.type) (entries.lookup m.name)
      (entries'.lookup (ρ.member n m.name)) :=
  lookup_renamed (h.renamed.imp fun _ _ he => ⟨he.1, he.2 m hm⟩) (h.separate m hm)

/-- A record whose members are read as copies is a copy. -/
theorem copy_of_matched (hcovers : ρ.covers n) (hms : s.members? (.named n) = .ok (some ms))
    (houtline : v.outline = v'.outline)
    (h : ∀ m ∈ ms, Matched (ρ.Copy s d m.type) (s.readMember v m.name)
      (d.readMember v' (ρ.member n m.name))) : ρ.Copy s d (.named n) v v' := by
  refine .record hcovers houtline (fun ms' hms' m hm => ?_) fun ms' hms' m hm => ?_
  · cases hms.symm.trans hms'
    exact (h m hm).1
  · cases hms.symm.trans hms'
    exact (h m hm).2

/-- **Mappings** with renamed keys are copies. -/
theorem copy_map (hcovers : ρ.covers n) (hms : s.members? (.named n) = .ok (some ms))
    (h : ρ.RenamedEntries s d n ms entries entries') :
    ρ.Copy s d (.named n) (.map entries) (.map entries') := by
  refine copy_of_matched hcovers hms rfl fun m hm => ?_
  have hrel := h.lookup hm
  rw [Schema.readMember, Schema.readMember]
  generalize entries.lookup m.name = found at hrel ⊢
  generalize entries'.lookup (ρ.member n m.name) = found' at hrel ⊢
  cases hrel with
  | none => exact ⟨rfl, fun _ _ hw => nomatch hw⟩
  | some hcopy => exact .ok hcopy

/-- The stored members of an instance that has all of some values. -/
def storing (entries : List (String × Value)) : List (String × Option Value) :=
  entries.map fun e => (e.1, some e.2)

private theorem lookup_storing (key : String) : ∀ entries : List (String × Value),
    ((storing entries).lookup key).bind id = entries.lookup key
  | [] => rfl
  | (name, v) :: entries => by
    rw [storing, List.map_cons, List.lookup_cons, List.lookup_cons]
    cases key == name with
    | true => rfl
    | false => exact lookup_storing key entries

/-- Without properties, what is stored under a name is what is read. -/
private theorem readMember_storing {s : Schema} {tag : RecordTag} {key : String}
    (hproperties : s.propertiesOf tag.owner = []) (h : entries.lookup key = some v) :
    s.readMember (.record tag (storing entries)) key = .ok v := by
  rw [Schema.readMember, Schema.readInstance, hproperties]
  simp only [Schema.readComputed, List.find?_nil]
  rw [Schema.readStored, lookup_storing, h]

/-- **Instances** with renamed members are copies, where all members are stored and the types have
no properties. -/
theorem copy_instance {tag tag' : RecordTag} (hcovers : ρ.covers n)
    (hms : s.members? (.named n) = .ok (some ms))
    (h : ρ.RenamedEntries s d n ms entries entries')
    (hstored : ∀ m ∈ ms, (entries.lookup m.name).isSome)
    (hproperties : s.propertiesOf tag.owner = []) (hproperties' : d.propertiesOf tag'.owner = []) :
    ρ.Copy s d (.named n) (.record tag (storing entries)) (.record tag' (storing entries')) := by
  refine copy_of_matched hcovers hms rfl fun m hm => ?_
  have hrel := h.lookup hm
  obtain ⟨w, hw⟩ := Option.isSome_iff_exists.mp (hstored m hm)
  rw [hw] at hrel
  -- a member that is stored is stored in the copy as well
  cases hw' : entries'.lookup (ρ.member n m.name) with
  | none =>
    rw [hw'] at hrel
    cases hrel
  | some w' =>
    rw [hw'] at hrel
    rw [readMember_storing hproperties hw, readMember_storing hproperties' hw']
    cases hrel with
    | some hcopy => exact .ok hcopy

/-- **Collections** of copies are copies, if both are lists, or tuples, or sets of one kind. -/
theorem copy_collection {make : List Value → Value} {e : TypeExpr} {vs vs' : List Value}
    (houtline : ∀ us, (make us).outline = make (Value.outlineAll us))
    (helements : ∀ us, Predicate.elementsOf (make us) = .ok us) (he : t.element? = some e)
    (hmentions : ρ.Mentions e) (h : List.Forall₂ (ρ.Copy s d e) vs vs') :
    ρ.Copy s d t (make vs) (make vs') := by
  -- a test outside the elements sees their outlines only
  have hall : Value.outlineAll vs = Value.outlineAll vs' := by
    induction h with
    | nil => rfl
    | cons hfirst _ ih => rw [Value.outlineAll, Value.outlineAll, hfirst.outline_eq, ih]
  obtain ⟨hlength, heach⟩ := List.forall₂_iff_get.mp h
  refine .collection he hmentions (by rw [houtline, houtline, hall]) ?_ fun us us' hus hus' => ?_
  · rw [helements, helements]
    exact congrArg Except.ok hlength
  · cases (helements vs).symm.trans hus
    cases (helements vs').symm.trans hus'
    exact heach

/-! ### Columns -/

/-- A chain of members leads from a copy to a copy. Where it meets null, so does the other one. -/
theorem Alongside.matched_readFrom {owner : TypeExpr} {hops hops' : List Hop}
    {onNull : Option Value} (h : ρ.Alongside s d owner hops hops' t)
    (hnull : ∀ w ∈ onNull, ρ.Copy s d t w w) (hcopy : ρ.Copy s d owner v v') :
    Matched (ρ.Copy s d t) (s.readFrom onNull hops v) (d.readFrom onNull hops' v') := by
  induction h generalizing v v' with
  | nil owner => exact .ok hcopy
  | @cons n ms m m' hops hops' t covered members mem name _ ih =>
    have hmember : Matched (ρ.Copy s d t)
        (s.readMember v m.name >>= s.readFrom onNull hops)
        (d.readMember v' m'.name >>= d.readFrom onNull hops') := by
      rw [name]
      exact (hcopy.matched_readMember covered members mem).bind fun _ _ hread => ih hnull hread
    -- a guarded chain stops at null, on both sides at the same hop
    by_cases hv : v = .null
    · obtain rfl := hv
      obtain rfl := hcopy.eq_null_iff.mp rfl
      cases onNull with
      | none => exact hmember
      | some w => exact .ok (hnull w rfl)
    · rw [Schema.readFrom_cons s hv, Schema.readFrom_cons d (mt hcopy.eq_null_iff.mpr hv)]
      exact hmember

/-- **Columns of copies.** The value of a renamed column in a copy is a copy of the column's value,
and where a column cannot be read, the renamed one cannot be read either. -/
theorem Copy.matched_read {owner : TypeExpr} {column column' : ResolvedColumn}
    (hcolumn : ρ.Renamed s d owner column column') (nullGuard : Bool)
    (hcopy : ρ.Copy s d owner v v') :
    Matched (ρ.Copy s d column.type) (s.read nullGuard column v)
      (d.read nullGuard column' v') := by
  -- what a guarded chain gives for null depends on the kind of the last type
  have hdefault : Value.defaultOf column'.type column'.terminal.nullable =
      Value.defaultOf column.type column.terminal.nullable := by
    rw [hcolumn.type, hcolumn.nullable]
    cases column.type <;> rfl
  rw [Schema.read, Schema.read, hdefault]
  refine hcolumn.hops.matched_readFrom (fun w hw => ?_) hcopy
  split at hw
  · cases hw
    exact Copy.defaultOf ρ s d _ _
  · cases hw

/-! ### Conditions -/

/-- What a text is read as for a type that mentions a renamed type, or for its elements, is a single
value. -/
theorem isComposite_of_reads (halike : ρ.ReadsAlike s d) (hmentions : ρ.Mentions t) {u : TypeExpr}
    (hpart : u = t.present.1 ∨ t.element? = some u) {w : Value} (h : s.Reads u w) :
    w.isComposite = false := by
  cases h with
  | atom _ h => cases h <;> rfl
  | null | textMember | member => rfl
  | adapted raw _ hread => exact halike.single hmentions hpart hread

/-- Conditions on such a type compare with a single value or with a list of single values. -/
theorem single_or_list_of_coerce (halike : ρ.ReadsAlike s d) (hmentions : ρ.Mentions t)
    {raw : RawText} {o : Operator} {w : Value} (h : s.coerce raw t o = .ok w) :
    w.isComposite = false ∨ ∃ ws, w = .list ws ∧ ∀ u ∈ ws, u.isComposite = false := by
  obtain ⟨u, hpart, hone | hseveral⟩ := Schema.coerce_cases s t o
  · rw [hone] at h
    exact .inl (isComposite_of_reads halike hmentions hpart (Schema.reads_of_coerceScalar h))
  · rw [hseveral] at h
    obtain ⟨ws, rfl, hws⟩ := Schema.reads_of_coerceList h
    exact .inr ⟨ws, rfl, fun x hx => isComposite_of_reads halike hmentions hpart (hws x hx)⟩

/-- Nothing but null is read for a record type. -/
theorem eq_null_of_coerceScalar (halike : ρ.ReadsAlike s d) {n : String} {raw : RawText} {w : Value}
    (hcovers : ρ.covers n) (henum : s.enum? n = none)
    (h : s.coerceScalar raw (.named n) = .ok w) : w = .null := by
  rw [Schema.coerceScalar] at h
  simp only [TypeExpr.present, TypeExpr.isText, Bool.false_eq_true, if_false] at h
  split at h
  · cases h
    rfl
  · rw [Schema.coerceText] at h
    simp only [henum] at h
    exact absurd (Schema.adapt_eq_ok_iff.mp h) (halike.unread hcovers raw w)

theorem isText_eq_false (h : ρ.Mentions t) : t.isText = false := by
  obtain ⟨n, hn, -⟩ := h
  cases t with
  | scalar | anything | object => cases hn
  | _ => rfl

/-- The only types with an order that mention a renamed type are the renamed types. -/
theorem eq_named_of_isOrderable (h : ρ.Mentions t) (horder : s.isOrderable t = true) :
    ∃ n, t = .named n ∧ ρ.covers n := by
  cases t with
  | named n => exact ⟨n, rfl, mentions_named.mp h⟩
  | scalar | anything | object | bare =>
    obtain ⟨n, hn, -⟩ := h
    cases hn
  | _ => cases horder

theorem usualHolds_ordering {o : Operator} (ho : o.isOrdering = true) (v : Value) :
    Strategy.usualHolds o v .null = .ok false := by
  have hnull : ∀ test, v.ordersAligned test .null = .ok false := by
    intro test
    exact if_pos (Bool.or_eq_true_iff.mpr (.inr rfl))
  cases o <;> first | contradiction | exact hnull _

/-- **Conditions on copies.** A condition that fits a type gives the same answer for a value and its
copy. -/
theorem Copy.usualHolds_eq {column : ResolvedColumn} {o : Operator} {raw : RawText} {w : Value}
    (halike : ρ.ReadsAlike s d) (hcopy : ρ.Copy s d column.type v v')
    (hsuits : ρ.Suits s d column.type) (hoperator : s.checkOperator column o = .ok ())
    (hw : s.coerce raw column.type o = .ok w) :
    Strategy.usualHolds o v' w = Strategy.usualHolds o v w := by
  by_cases hmentions : ρ.Mentions column.type
  · obtain ⟨htextual, hordering, -⟩ := Schema.checkOperator_eq_ok_iff.mp hoperator
    have hequals : ∀ u : Value, u.isComposite = false → v'.equals u = v.equals u := by
      intro u hu
      rw [← Value.equals_outline hu, ← hcopy.outline_eq, Value.equals_outline hu]
    have hcontains : v'.contains w = v.contains w := by
      obtain hsingle | ⟨ws, rfl, hws⟩ := single_or_list_of_coerce halike hmentions hw
      · rw [← Value.contains_outline hsingle, ← hcopy.outline_eq, Value.contains_outline hsingle]
      · rw [← Value.contains_outline_list hws, ← hcopy.outline_eq, Value.contains_outline_list hws]
    -- operators other than containment read the text as the type of the column
    have hown : ∀ {u : Value}, s.Reads column.type.present.1.present.1 u → u.isComposite = false :=
      isComposite_of_reads halike hmentions (.inl (TypeExpr.present_present column.type))
    cases o with
    | eq => exact hequals w (hown (Schema.reads_of_coerceScalar hw))
    | neq => exact congrArg (Except.map not) (hequals w (hown (Schema.reads_of_coerceScalar hw)))
    | gt | gte | lt | lte =>
      -- a record type may have an order, but only null is read for it, which no order test accepts
      obtain ⟨n, hn, hcovers⟩ := eq_named_of_isOrderable hmentions (hordering rfl).2
      have henum := (hsuits n (hn ▸ List.mem_singleton_self n)).no_enum hcovers
      rw [hn] at hw
      obtain rfl := eq_null_of_coerceScalar halike hcovers henum hw
      rw [usualHolds_ordering rfl, usualHolds_ordering rfl]
    | ct => exact hcontains
    | nct => exact congrArg (Except.map not) hcontains
    | sw | ew =>
      -- the forms of records would tell their names, but these operators ask for a text
      have htext := htextual rfl
      rw [isText_eq_false hmentions] at htext
      cases htext
    | isIn =>
      obtain ⟨ws, rfl, hws⟩ := Schema.reads_of_coerceList hw
      exact Value.anyOk_congr fun u hu => hequals u (hown (hws u hu))
  · -- without renamed types in its type, the value is its own copy
    rw [hcopy.eq_of_unmentioned hmentions]

end Renaming
end RecordQuery
