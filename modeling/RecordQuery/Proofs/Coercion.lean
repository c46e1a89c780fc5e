import RecordQuery.Coercion
import RecordQuery.Fingerprint
import RecordQuery.Proofs.Display.Basic
import RecordQuery.Proofs.Number.ReadBack
import RecordQuery.Proofs.Outcome

/-!
# Values read from text

What a text of a column's type is read as can be told from its canonical form: the name of its type
and its display form. Most values are known from these alone. A member of an enumeration is known
because the column's type names the enumeration, and the names of its members differ. What the
adapter reads is known only if the adapter tells its values apart by their displays, which not
every adapter does.

* `Schema.Reads` are the values that can be read for a type; `Schema.reads_of_coerceScalar`.
* `Schema.Legible` — the conditions on the adapter and on the values of enumerations.
* `Schema.Reads.ext` — one canonical form, one value, in a legible schema.
* `Schema.checkOperator_eq_ok_iff` — which operators fit a column.
* `Schema.coerce_injective`, `Schema.exists_canonical` — the same for whole conditions, where a
  value may be a list of such values.
-/

namespace RecordQuery

open Text Numeral

/-! ### Values without parts -/

namespace Value

/-- The values without parts that can be read from text. Numbers are in normal form, and an integer
is short enough to be written. -/
inductive IsAtom : Value → Prop where
  | null : IsAtom null
  | bool (b : Bool) : IsAtom (bool b)
  | int {n : Int} : isTooLong n = false → IsAtom (int n)
  | float {x : Binary64} : x.IsNormal → IsAtom (float x)
  | decimal (d : Decimal) : IsAtom (decimal d)
  | text (s : String) : IsAtom (text s)
  | bytes (bs : List UInt8) : IsAtom (bytes bs)
  | dateTime (m : DateTime) : IsAtom (dateTime m)
  | date (d : Date) : IsAtom (date d)
  | time (t : Time) : IsAtom (time t)
  | duration (d : Duration) : IsAtom (duration d)
  | uuid (u : Uuid) : IsAtom (uuid u)

variable {v w : Value}

theorem IsAtom.displayFault? (h : v.IsAtom) : v.displayFault? = none := by
  cases h with
  | int hshort => rw [Value.displayFault?, hshort]; rfl
  | _ => rfl

/-- What stands between two fixed texts is known from the whole. -/
theorem enclosed_inj {opening closing : String} {cs ds : List Char}
    (h : opening ++ String.ofList cs ++ closing = opening ++ String.ofList ds ++ closing) :
    cs = ds := by
  have hchars := congrArg String.toList h
  simp only [String.toList_append, String.toList_ofList] at hchars
  exact List.append_cancel_left (List.append_cancel_right hchars)

/-- **Values without parts** are known from the names of their types and their displays. -/
theorem IsAtom.ext (hv : v.IsAtom) (hw : w.IsAtom)
    (htype : v.qualifiedTypeName = w.qualifiedTypeName) (h : v.display = w.display) : v = w := by
  cases hv with
  | null =>
    -- values of two kinds differ in the names of their types, values of one kind in their displays
    cases hw with
    | null => rfl
    | _ => simp [qualifiedTypeName, typeName] at htype
  | bool b =>
    cases hw with
    | bool b' =>
      cases b <;> cases b' <;> first | rfl | exact absurd h (by decide)
    | _ => simp [qualifiedTypeName, typeName] at htype
  | int hn =>
    cases hw with
    | int hm => rw [signed_inj (String.ofList_injective h)]
    | _ => simp [qualifiedTypeName, typeName] at htype
  | float hx =>
    cases hw with
    | float hy => rw [Binary64.render_inj hx hy (String.ofList_injective h)]
    | _ => simp [qualifiedTypeName, typeName] at htype
  | decimal d =>
    cases hw with
    | decimal e => rw [Decimal.render_inj (enclosed_inj h)]
    | _ => simp [qualifiedTypeName, typeName] at htype
  | text s =>
    cases hw with
    | text t => rw [quoted_inj h]
    | _ => simp [qualifiedTypeName, typeName] at htype
  | bytes bs =>
    cases hw with
    | bytes cs => rw [quoteBytes_inj (String.ofList_injective h)]
    | _ => simp [qualifiedTypeName, typeName] at htype
  | dateTime m =>
    cases hw with
    | dateTime n => rw [DateTime.display_inj h]
    | _ => simp [qualifiedTypeName, typeName] at htype
  | date d =>
    cases hw with
    | date e => rw [Date.display_inj h]
    | _ => simp [qualifiedTypeName, typeName] at htype
  | time t =>
    cases hw with
    | time u => rw [Time.display_inj h]
    | _ => simp [qualifiedTypeName, typeName] at htype
  | duration d =>
    cases hw with
    | duration e => rw [Duration.display_inj h]
    | _ => simp [qualifiedTypeName, typeName] at htype
  | uuid u =>
    cases hw with
    | uuid u' => rw [Uuid.render_inj (enclosed_inj h)]
    | _ => simp [qualifiedTypeName, typeName] at htype

end Value

/-! ### Values that are read -/

/-- An integer that is read is short enough to be written. -/
theorem isTooLong_of_readInteger? {cs : List Char} {n : Int} (h : readInteger? cs = some n) :
    Value.isTooLong n = false := by
  obtain ⟨plain, -, h⟩ := Option.bind_eq_some_iff.mp h
  obtain ⟨ds, hds, h⟩ := Option.bind_eq_some_iff.mp h
  -- every digit is below ten, so the number is below a power of ten with as many digits
  have hsmall : ∀ {es : List Nat} (ps : List Char), ps.mapM (digitIn? 10) = some es →
      ∀ d ∈ es, d < 10 := by
    intro es ps
    induction ps generalizing es with
    | nil =>
      intro hread
      cases hread
      exact List.forall_mem_nil _
    | cons p ps ih =>
      intro hread
      rw [List.mapM_cons] at hread
      obtain ⟨d, hd, hread⟩ := Option.bind_eq_some_iff.mp hread
      obtain ⟨rest, hrest, hread⟩ := Option.bind_eq_some_iff.mp hread
      cases hread
      rw [List.forall_mem_cons]
      exact ⟨of_decide_eq_true (Option.filter_eq_some_iff.mp hd).2, ih hrest⟩
  have hlt : natOfDigits 10 ds < 10 ^ ds.length := by
    unfold readDigits? at hds
    split at hds
    · cases hds
    · exact natOfDigits_lt (hsmall plain hds)
  -- a text with more digits than the limit is not read at all
  split at h
  · cases h
  · next hlength =>
    have habs : n.natAbs = natOfDigits 10 ds := by
      cases h
      split <;> omega
    have hlimit : natOfDigits 10 ds < 10 ^ digitLimit :=
      Nat.lt_of_lt_of_le hlt (Nat.pow_le_pow_right (by decide) (Nat.le_of_not_lt hlength))
    rw [Value.isTooLong, habs, decide_eq_false_iff_not, Nat.not_lt]
    exact (Nat.length_toDigits_le_iff (by decide) (by decide)).mpr hlimit

namespace EnumType

variable {e : EnumType}

/-- A declared value stands for a member, the first one if it is repeated. -/
theorem exists_memberOf {m : String × Value} (hm : m ∈ e.members) :
    ∃ n ∈ e.members, e.memberOf m.1 m.2 = .member e.base e.name n.1 n.2 := by
  unfold memberOf
  split
  · next hfirst => exact ⟨_, List.mem_of_find?_eq_some hfirst, rfl⟩
  · exact ⟨m, hm, rfl⟩

/-- The search among the values finds the first one with the text, if those before it have texts. -/
theorem findValue_eq_some_iff {key : List Char} {ms : List (String × Value)}
    {m : String × Value} : findValue key ms = .ok (some m) ↔ ∃ before after,
      ms = before ++ m :: after ∧
      (∀ n ∈ before, ∃ t, n.2.plainShown = .ok t ∧ fold t.toList ≠ key) ∧
      ∃ t, m.2.plainShown = .ok t ∧ fold t.toList = key := by
  constructor
  · intro h
    induction ms with
    | nil => cases h
    | cons n ms ih =>
      obtain ⟨t, ht, h⟩ := bind_eq_ok_iff.mp h
      split at h
      · next hkey =>
        cases h
        exact ⟨[], ms, rfl, List.forall_mem_nil _, t, ht, eq_of_beq hkey⟩
      · next hkey =>
        obtain ⟨before, after, rfl, hbefore, hshown⟩ := ih h
        have hother : fold t.toList ≠ key := fun hsame => hkey (beq_iff_eq.mpr hsame)
        exact ⟨n :: before, after, rfl, List.forall_mem_cons.mpr ⟨⟨t, ht, hother⟩, hbefore⟩, hshown⟩
  · rintro ⟨before, after, rfl, hbefore, t, ht, hkey⟩
    -- the values before are passed by, having other texts
    induction before with
    | nil =>
      rw [List.nil_append, findValue, ht, ok_bind, if_pos (beq_iff_eq.mpr hkey)]
    | cons n before ih =>
      obtain ⟨⟨u, hu, hother⟩, hbefore⟩ := List.forall_mem_cons.mp hbefore
      rw [List.cons_append, findValue, hu, ok_bind, if_neg (fun h => hother (eq_of_beq h))]
      exact ih hbefore

/-- A text is read as what some declaration denotes, found by its name or else by its value. -/
theorem exists_memberOf_of_read {cs : List Char} {v : Value} (h : e.read cs = .ok (some v)) :
    ∃ m ∈ e.members, v = e.memberOf m.1 m.2 := by
  unfold read at h
  simp only at h
  split at h
  · next m hm =>
    cases h
    exact ⟨m, List.mem_of_find?_eq_some hm, rfl⟩
  · obtain ⟨found, hfound, h⟩ := map_eq_ok_iff.mp h
    obtain ⟨m, rfl, rfl⟩ := Option.map_eq_some_iff.mp h
    obtain ⟨before, after, hdistinct, -⟩ := findValue_eq_some_iff.mp hfound
    have hm : m ∈ e.distinct := hdistinct ▸ List.mem_append_right before List.mem_cons_self
    exact ⟨m, (List.mem_filter.mp hm).1, rfl⟩

theorem exists_of_read {cs : List Char} {v : Value} (h : e.read cs = .ok (some v)) :
    ∃ m ∈ e.members, v = .member e.base e.name m.1 m.2 := by
  obtain ⟨m, hm, rfl⟩ := exists_memberOf_of_read h
  exact exists_memberOf hm

end EnumType

namespace Schema

variable {s : Schema} {t : TypeExpr} {v w : Value}

/-- The types of single values that texts are converted to: all scalars but bytes, and
enumerations. -/
def hasConversion (s : Schema) : TypeExpr → Bool
  | .scalar u => u != .bytes && u != .byteArray
  | .named name => (s.enum? name).isSome
  | _ => false

/-- Whether the values of a type come from texts without the adapter. -/
def converts (s : Schema) (t : TypeExpr) : Bool := t.isText || s.hasConversion t

theorem converts_of_isText (h : t.isText = true) : s.converts t = true :=
  Bool.or_eq_true_iff.mpr (.inl h)

/-- The values that a text can be read as, by type: null, and, where the type has a conversion of
its own, a value without parts, a member of the enumeration that is the type, or, where text is the
type, a member of any enumeration that is also a text. For other types they are what the adapter
reads. -/
inductive Reads (s : Schema) : TypeExpr → Value → Prop where
  | null {t : TypeExpr} : Reads s t .null
  | atom {t : TypeExpr} {v : Value} : s.converts t = true → v.IsAtom → Reads s t v
  | textMember {t : TypeExpr} (owner name text : String) : t.isText = true →
      Reads s t (.member .text owner name (.text text))
  | member {name : String} {e : EnumType} {m : String × Value} : s.enum? name = some e →
      m ∈ e.members → Reads s (.named name) (.member e.base e.name m.1 m.2)
  | adapted {t : TypeExpr} {v : Value} (raw : RawText) : s.converts t = false →
      s.adapter.read raw t = .ok v → Reads s t v

theorem reads_raw (h : t.isText = true) : ∀ raw : RawText, s.Reads t raw.value
  | .plain text => .atom (converts_of_isText h) (.text text)
  | .member owner name text => .textMember owner name text h

/-- The adapter is the only source of values of a type without a conversion of its own. -/
theorem adapt_eq_ok_iff {raw : RawText} : s.adapt raw t = .ok v ↔ s.adapter.read raw t = .ok v := by
  unfold adapt
  split <;> simp_all

/-- The conversions of scalar types give values without parts. -/
theorem isAtom_of_read? {u : ScalarType} {cs : List Char} (h : u.read? cs = some v) : v.IsAtom := by
  cases u with
  | integer =>
    obtain ⟨n, hn, rfl⟩ := Option.map_eq_some_iff.mp h
    -- the one conversion whose results may be too long to be written
    exact .int (isTooLong_of_readInteger? hn)
  | float =>
    obtain ⟨x, hx, rfl⟩ := Option.map_eq_some_iff.mp h
    exact .float (Binary64.isNormal_of_read? hx)
  | decimal =>
    obtain ⟨d, -, rfl⟩ := Option.map_eq_some_iff.mp h
    exact .decimal d
  | uuid =>
    obtain ⟨u, -, rfl⟩ := Option.map_eq_some_iff.mp h
    exact .uuid u
  | dateTime =>
    obtain ⟨m, -, rfl⟩ := Option.map_eq_some_iff.mp h
    exact .dateTime m
  | date =>
    obtain ⟨d, -, rfl⟩ := Option.map_eq_some_iff.mp h
    exact .date d
  | time =>
    obtain ⟨u, -, rfl⟩ := Option.map_eq_some_iff.mp h
    exact .time u
  | _ => cases h

theorem reads_of_coerceText {raw : RawText} {cs : List Char} (htext : t.isText = false)
    (h : s.coerceText raw cs t = .ok v) : s.Reads t v := by
  unfold coerceText at h
  split at h
  · split at h
    · cases h
      exact .atom rfl (.bool _)
    · cases h
  · split at h
    · cases h
      exact .atom rfl (.duration _)
    · cases h
  · cases htext
  · exact .adapted raw rfl (adapt_eq_ok_iff.mp h)
  · exact .adapted raw rfl (adapt_eq_ok_iff.mp h)
  · split at h
    · -- the scalars with a reader are among those with a conversion
      next hread =>
      cases h
      have hconverts : ∀ {u : ScalarType}, u.read? cs = some v → s.converts (.scalar u) = true := by
        intro u hu
        cases u <;> first | rfl | cases hu
      exact .atom (hconverts hread) (isAtom_of_read? hread)
    · cases h
  · split at h
    · next e he =>
      obtain ⟨found, hfound, h⟩ := bind_eq_ok_iff.mp h
      split at h
      · cases h
        obtain ⟨m, hm, rfl⟩ := EnumType.exists_of_read (liftFault_eq_ok_iff.mp hfound)
        exact .member he hm
      · cases h
    · next he =>
      refine .adapted raw ?_ (adapt_eq_ok_iff.mp h)
      rw [converts, htext, hasConversion, he]
      rfl
  · next hscalar hnamed =>
    refine .adapted raw ?_ (adapt_eq_ok_iff.mp h)
    cases t with
    | scalar u => exact (hscalar u rfl).elim
    | named name => exact (hnamed name rfl).elim
    | anything | object => cases htext
    | _ => rfl

/-- **What a text is read as** is one of the values of the column's type. -/
theorem reads_of_coerceScalar {raw : RawText} {type : TypeExpr}
    (h : s.coerceScalar raw type = .ok v) : s.Reads type.present.1 v := by
  unfold coerceScalar at h
  simp only at h
  split at h
  · next htext =>
    cases h
    exact reads_raw htext raw
  · split at h
    · cases h
      exact .null
    · next htext _ => exact reads_of_coerceText (Bool.eq_false_iff.mpr htext) h

/-! ### Canonical forms -/

end Schema

/-- An adapter whose values are told apart by their displays: each of them has a display and is no
list, and no two that are read for one type have types of one name and the same display. Only null
is of the type of null. -/
structure Adapter.Legible (a : Adapter) : Prop where
  displayFault? {raw : RawText} {t : TypeExpr} {v : Value} : a.read raw t = .ok v →
    v.displayFault? = none
  ne_list {raw : RawText} {t : TypeExpr} {v : Value} : a.read raw t = .ok v → ∀ vs, v ≠ .list vs
  eq_null {raw : RawText} {t : TypeExpr} {v : Value} : a.read raw t = .ok v →
    v.qualifiedTypeName = Value.null.qualifiedTypeName → v = .null
  ext {raw raw' : RawText} {t : TypeExpr} {v w : Value} : a.read raw t = .ok v →
    a.read raw' t = .ok w → v.qualifiedTypeName = w.qualifiedTypeName → v.display = w.display →
    v = w

theorem Adapter.absent_legible : Adapter.absent.Legible where
  displayFault? h := by cases h
  ne_list h := by cases h
  eq_null h := by cases h
  ext h := by cases h

/-- An enumeration of values that have a display, and one in which a name ends where it should. -/
def EnumType.Legible (e : EnumType) : Prop := ∀ m ∈ e.members, m.2.isBasic = true

instance (e : EnumType) : Decidable e.Legible :=
  inferInstanceAs (Decidable (∀ m ∈ e.members, m.2.isBasic = true))

namespace Schema

variable {s : Schema} {t : TypeExpr} {v w : Value}

/-- A schema whose values are told apart by their displays: those of the adapter are, and those of
the enumerations are basic. -/
structure Legible (s : Schema) : Prop where
  adapter : s.adapter.Legible
  enums {name : String} {e : EnumType} : s.enum? name = some e → e.Legible

theorem legible_of_absent (hadapter : s.adapter = .absent) (henums : s.enums = []) :
    s.Legible where
  adapter := hadapter ▸ Adapter.absent_legible
  enums h := by
    rw [enum?, henums] at h
    cases h

theorem Reads.displayFault? (hs : s.Legible) (h : s.Reads t v) : v.displayFault? = none := by
  cases h with
  | null => rfl
  | atom _ h => exact h.displayFault?
  | textMember owner name text _ => rfl
  | @member name e m he hm =>
    rw [Value.displayFault?]
    exact Value.displayFault?_of_isBasic m.2 (hs.enums he m hm)
  | adapted raw _ hread => exact hs.adapter.displayFault? hread

theorem Reads.pairOf_eq (hs : s.Legible) (h : s.Reads t v) :
    CanonicalValue.pairOf v = .ok (v.qualifiedTypeName, v.display) := by
  rw [CanonicalValue.pairOf, Value.shown, h.displayFault? hs]
  rfl

theorem qualifiedTypeName_ne (h : v.IsAtom) (owner : String) :
    v.qualifiedTypeName ≠ TypeExpr.schemaHome ++ "." ++ owner := by
  intro heq
  have hhome : (TypeExpr.schemaHome ++ "." ++ owner).toList.head? = some 'r' := by
    simp [TypeExpr.schemaHome]
  rw [← heq] at hhome
  cases h <;> simp [Value.qualifiedTypeName, Value.typeName] at hhome

theorem qualifiedTypeName_inj {owner owner' : String}
    (h : TypeExpr.schemaHome ++ "." ++ owner = TypeExpr.schemaHome ++ "." ++ owner') :
    owner = owner' := by
  have hchars := congrArg String.toList h
  simp only [String.toList_append] at hchars
  exact String.toList_inj.mp (List.append_cancel_left hchars)

/-- Only null is of the type of null. -/
theorem Reads.eq_null (hs : s.Legible) (h : s.Reads t v)
    (htype : v.qualifiedTypeName = Value.null.qualifiedTypeName) : v = .null := by
  cases h with
  | null => rfl
  | atom _ hatom =>
    cases hatom <;> first | rfl | simp [Value.qualifiedTypeName, Value.typeName] at htype
  | textMember owner => exact absurd htype.symm (qualifiedTypeName_ne .null owner)
  | @member _ e => exact absurd htype.symm (qualifiedTypeName_ne .null e.name)
  | adapted raw _ hread => exact hs.adapter.eq_null hread htype

/-- A type has values of its own conversion or of the adapter, but never of both. -/
theorem converts_of_isSome {name : String} {e : EnumType} (h : s.enum? name = some e) :
    s.converts (.named name) = true := by
  rw [converts, hasConversion, h]
  rfl

/-- **One canonical form, one value**, among the values that can be read for a type. -/
theorem Reads.ext (hs : s.Legible) (hv : s.Reads t v) (hw : s.Reads t w)
    (htype : v.qualifiedTypeName = w.qualifiedTypeName) (h : v.display = w.display) : v = w := by
  cases hv with
  | null => exact (hw.eq_null hs htype.symm).symm
  | atom hown hatom =>
    cases hw with
    | null => exact Reads.eq_null hs (.atom hown hatom) htype
    | atom _ hatom' => exact hatom.ext hatom' htype h
    | textMember owner name text _ => exact absurd htype (qualifiedTypeName_ne hatom owner)
    | @member name e m _ _ => exact absurd htype (qualifiedTypeName_ne hatom e.name)
    | adapted raw hadapted _ => exact absurd hown (Bool.eq_false_iff.mp hadapted)
  | textMember owner name text htext =>
    -- the display of a member has its name and its value in it, each in a known place
    cases hw with
    | null => exact absurd htype.symm (qualifiedTypeName_ne .null owner)
    | atom _ hatom => exact absurd htype.symm (qualifiedTypeName_ne hatom owner)
    | textMember owner' name' text' _ =>
      obtain rfl := qualifiedTypeName_inj htype
      obtain ⟨rfl, hvalue⟩ := Value.display_member_inj rfl rfl h
      rw [quoted_inj hvalue]
    | member _ _ => cases htext
    | adapted raw hadapted _ =>
      exact absurd (converts_of_isText htext) (Bool.eq_false_iff.mp hadapted)
  | @member name e m he hm =>
    cases hw with
    | null => exact absurd htype.symm (qualifiedTypeName_ne .null e.name)
    | atom _ hatom => exact absurd htype.symm (qualifiedTypeName_ne hatom e.name)
    | textMember owner name text htext => cases htext
    | @member _ e' m' he' hm' =>
      -- the column's type names one enumeration, and so the name fixes the member
      cases he.symm.trans he'
      have hbasic := hs.enums he
      obtain ⟨hname, -⟩ := Value.display_member_inj (hbasic m hm) (hbasic m' hm') h
      rw [List.inj_on_of_nodup_map e.distinct_names hm hm' hname]
    | adapted raw hadapted _ =>
      exact absurd (converts_of_isSome he) (Bool.eq_false_iff.mp hadapted)
  | adapted raw hadapted hread =>
    cases hw with
    | null => exact hs.adapter.eq_null hread htype
    | atom hown _ => exact absurd hown (Bool.eq_false_iff.mp hadapted)
    | textMember _ _ _ htext =>
      exact absurd (converts_of_isText htext) (Bool.eq_false_iff.mp hadapted)
    | member he _ => exact absurd (converts_of_isSome he) (Bool.eq_false_iff.mp hadapted)
    | adapted raw' _ hread' => exact hs.adapter.ext hread hread' htype h

end Schema

/-! ### Conditions -/

namespace TypeExpr

mutual

/-- Nothing is taken off a type twice. -/
theorem present_present : ∀ t : TypeExpr, t.present.1.present.1 = t.present.1
  | .annotated t => present_present t
  | .union form parts => by
    rw [present]
    split
    · next t hparts =>
      -- the only part that is left is none that may be absent itself
      have hmem : t ∈ presentParts parts := hparts ▸ List.mem_cons_self
      exact present_of_mem_presentParts parts t hmem
    · next hparts =>
      rw [present]
      split
      · next t hsingle => exact absurd hsingle (hparts t)
      · rfl
  | .nothing | .nullType | .scalar _ | .anything | .object | .bare _ | .unspecified _
  | .applied _ _ | .row _ | .literal _ | .named _ | .forward _ | .quoted _ | .ellipsis
  | .constant _ _ => rfl

theorem present_of_mem_presentParts : ∀ (ts : List TypeExpr) (t : TypeExpr),
    t ∈ presentParts ts → t.present.1 = t
  | [], _, h => nomatch h
  | u :: us, t, h => by
    rw [presentParts] at h
    split at h
    · exact present_of_mem_presentParts us t h
    · obtain rfl | h := List.mem_cons.mp h
      · exact present_present u
      · exact present_of_mem_presentParts us t h

end

/-- The type of elements is without annotation and without the absent value. -/
theorem present_element {t e : TypeExpr} (h : t.element? = some e) : e.present.1 = e := by
  rw [element?] at h
  split at h
  · split at h
    · cases h
      rfl
    · cases h
  · split at h
    · cases h
      rfl
    · cases h
  · cases h
    exact present_present _
  · split at h
    · split at h
      · cases h
        rfl
      · cases h
        exact present_present _
      · cases h
        rfl
    · cases h
  · cases h

end TypeExpr

namespace Schema

variable {s : Schema} {t : TypeExpr} {v w : Value}

/-- An operator fits a column: tests of texts are of texts, an order is that of the column's type,
and equality is that of single values. -/
theorem checkOperator_eq_ok_iff {column : ResolvedColumn} {o : Operator} :
    s.checkOperator column o = .ok () ↔
      (o.isTextual = true → column.type.isText = true) ∧
      (o.isOrdering = true → column.isCollection = false ∧ s.isOrderable column.type = true) ∧
      (o = .eq ∨ o = .neq ∨ o = .isIn → column.isCollection = false) := by
  cases o <;> simp [checkOperator, Operator.isTextual, Operator.isOrdering]

/-- An operator and a type fix whether a text is read as one value or as a list, and as values of
which type: of the type itself or of that of its elements. -/
theorem coerce_cases (s : Schema) (type : TypeExpr) (o : Operator) : ∃ t,
    (t.present.1 = type.present.1 ∨ type.element? = some t.present.1) ∧
      ((∀ raw, s.coerce raw type o = s.coerceScalar raw t) ∨
        ∀ raw, s.coerce raw type o = s.coerceList raw t) := by
  have hself := TypeExpr.present_present type
  unfold coerce
  simp only
  split
  · exact ⟨_, .inl hself, .inr fun _ => rfl⟩
  · split
    · split
      · -- what a collection contains is read as one of its elements
        next e he =>
        rw [TypeExpr.element?, hself, ← TypeExpr.element?] at he
        exact ⟨e, .inr (he.trans (congrArg some (TypeExpr.present_element he).symm)),
          .inl fun _ => rfl⟩
      · split
        · exact ⟨_, .inl hself, .inl fun _ => rfl⟩
        · exact ⟨_, .inl hself, .inr fun _ => rfl⟩
    · exact ⟨_, .inl hself, .inl fun _ => rfl⟩

/-- A text is read as a list piece by piece. -/
theorem exists_of_coerceList {raw : RawText} {type : TypeExpr}
    (h : s.coerceList raw type = .ok v) :
    ∃ vs, v = .list vs ∧ ∀ x ∈ vs, ∃ p, s.coerceScalar (.plain p) type = .ok x := by
  unfold coerceList at h
  split at h
  · cases h
    exact ⟨[], rfl, List.forall_mem_nil _⟩
  · obtain ⟨vs, hvs, h⟩ := bind_eq_ok_iff.mp h
    cases h
    refine ⟨vs, rfl, fun x hx => ?_⟩
    obtain ⟨p, -, hp⟩ := exists_of_mem_mapM hvs hx
    exact ⟨_, hp⟩

theorem reads_of_coerceList {raw : RawText} {type : TypeExpr}
    (h : s.coerceList raw type = .ok v) :
    ∃ vs, v = .list vs ∧ ∀ x ∈ vs, s.Reads type.present.1 x := by
  obtain ⟨vs, rfl, hvs⟩ := exists_of_coerceList h
  refine ⟨vs, rfl, fun x hx => ?_⟩
  obtain ⟨p, hp⟩ := hvs x hx
  exact reads_of_coerceScalar hp

/-- The name of a value's type, and the value's display. -/
def canonicalPair (v : Value) : String × String := (v.qualifiedTypeName, v.display)

theorem of_scalar (hs : s.Legible) (h : s.Reads t v) :
    CanonicalValue.of v = .ok (.single v.qualifiedTypeName v.display) := by
  -- no text is read as a list here, so the canonical form is a single pair
  have hscalar : ∀ xs, v ≠ .list xs := by
    rintro xs rfl
    cases h with
    | atom _ h => cases h
    | adapted raw _ hread => exact hs.adapter.ne_list hread xs rfl
  have hsingle : CanonicalValue.of v =
      (CanonicalValue.pairOf v).map fun p => .single p.1 p.2 := by
    cases v <;> first | rfl | exact absurd rfl (hscalar _)
  rw [hsingle, h.pairOf_eq hs]
  rfl

theorem of_list (hs : s.Legible) {vs : List Value} (h : ∀ x ∈ vs, s.Reads t x) :
    CanonicalValue.of (.list vs) = .ok (.several (vs.map canonicalPair)) := by
  have hpairs : vs.mapM CanonicalValue.pairOf = .ok (vs.map canonicalPair) := by
    rw [mapM_eq_ok_iff, List.forall₂_map_right_iff, List.forall₂_same]
    exact fun x hx => (h x hx).pairOf_eq hs
  rw [CanonicalValue.of, hpairs]
  rfl

theorem Reads.map_ext (hs : s.Legible) : ∀ {vs ws : List Value}, (∀ x ∈ vs, s.Reads t x) →
    (∀ x ∈ ws, s.Reads t x) → vs.map canonicalPair = ws.map canonicalPair → vs = ws
  | [], [], _, _, _ => rfl
  | [], _ :: _, _, _, h => by cases h
  | _ :: _, [], _, _, h => by cases h
  | v :: vs, w :: ws, hvs, hws, h => by
    obtain ⟨hfirst, hrest⟩ := List.cons_eq_cons.mp h
    obtain ⟨htype, hdisplay⟩ := Prod.mk.inj hfirst
    -- type and display tell the values apart
    have hsame : v = w :=
      (hvs v List.mem_cons_self).ext hs (hws w List.mem_cons_self) htype hdisplay
    rw [hsame, map_ext hs (fun x hx => hvs x (List.mem_cons_of_mem v hx))
      (fun x hx => hws x (List.mem_cons_of_mem w hx)) hrest]

/-- Every value that a condition is compared with has a canonical form. -/
theorem exists_canonical (hs : s.Legible) {type : TypeExpr} {o : Operator} {raw : RawText}
    (hv : s.coerce raw type o = .ok v) : ∃ c, CanonicalValue.of v = .ok c := by
  obtain ⟨t, -, hone | hseveral⟩ := coerce_cases s type o
  · rw [hone] at hv
    exact ⟨_, of_scalar hs (reads_of_coerceScalar hv)⟩
  · rw [hseveral] at hv
    obtain ⟨vs, rfl, hvs⟩ := reads_of_coerceList hv
    exact ⟨_, of_list hs hvs⟩

/-- **The canonical form fixes the value** that a condition on a column of a type is compared
with. -/
theorem coerce_injective (hs : s.Legible) {type : TypeExpr} {o : Operator} {raw raw' : RawText}
    {c : CanonicalValue} (hv : s.coerce raw type o = .ok v) (hw : s.coerce raw' type o = .ok w)
    (hc : CanonicalValue.of v = .ok c) (hc' : CanonicalValue.of w = .ok c) : v = w := by
  obtain ⟨t, -, hone | hseveral⟩ := coerce_cases s type o
  · -- the operator and the type fix the shape, hence the two values are both single or both lists
    rw [hone] at hv hw
    have hreads := reads_of_coerceScalar hv
    have hreads' := reads_of_coerceScalar hw
    rw [of_scalar hs hreads] at hc
    rw [of_scalar hs hreads', ← hc] at hc'
    obtain ⟨htype, hdisplay⟩ := CanonicalValue.single.inj (Except.ok.inj hc')
    exact hreads.ext hs hreads' htype.symm hdisplay.symm
  · rw [hseveral] at hv hw
    obtain ⟨vs, rfl, hvs⟩ := reads_of_coerceList hv
    obtain ⟨ws, rfl, hws⟩ := reads_of_coerceList hw
    rw [of_list hs hvs] at hc
    rw [of_list hs hws, ← hc] at hc'
    have hpairs := CanonicalValue.several.inj (Except.ok.inj hc')
    rw [Reads.map_ext hs hvs hws hpairs.symm]

end Schema
end RecordQuery
