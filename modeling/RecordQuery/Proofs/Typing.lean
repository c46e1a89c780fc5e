import RecordQuery.Proofs.Coercion
import RecordQuery.Proofs.Members
import RecordQuery.Schema.Data

/-!
# Values of a type

What a record has to be for its columns to hold values of their declared types, and which values a
condition on a column meets: those that the column holds, and those that its texts are read as.

* `Schema.Conforms` — a value is null or exactly of a type, and so is everything that is read from
  it. `exists_read` — under the guard against null, every resolved column of a conforming record can
  be read, and conforms in turn.
* `Schema.Typed` — the values that meet in a test of a single value. `typed_of_conforms` is one
  source of them, `typed_of_coerceScalar` the other, for all types that have a conversion.
* `EnumType.IsDeclared` — an enumeration is made by a declaration, and so its members are what its
  base says. `enumsDeclared_of_define` — there are no others in a schema that is built from data.

A column holds texts only, but a text may be compared with a member of an enumeration that is also a
text; this is the one difference between the two sources.
-/

namespace RecordQuery

/-! ### Types -/

/-- The types whose values are described one by one: single values, named types, and lists. -/
def TypeExpr.isDescribed : TypeExpr → Bool
  | .scalar _ | .named _ | .applied .list [_] => true
  | _ => false

namespace Schema

/-- The types of single values that conditions are about: texts, integers, truth values, moments,
days, durations, identifiers, and members of an enumeration. -/
def isSingle (s : Schema) : TypeExpr → Bool
  | .scalar u => [ScalarType.text, .integer, .boolean, .dateTime, .date, .duration, .uuid].contains u
  | .named name => (s.enum? name).isSome
  | _ => false

/-- The types of columns that conditions test: single values, and lists of them. -/
def isTestable (s : Schema) : TypeExpr → Bool
  | .applied .list [e] => s.isSingle e.present.1
  | t => s.isSingle t

/-- The types of values without parts: all scalars, and enumerations. -/
def isValued (s : Schema) : TypeExpr → Bool
  | .scalar _ => true
  | .named name => (s.enum? name).isSome
  | _ => false

variable {s : Schema} {t : TypeExpr}

theorem isValued_of_isSingle (h : s.isSingle t = true) : s.isValued t = true := by
  cases t with
  | scalar u => rfl
  | named name => exact h
  | _ => cases h

theorem hasConversion_of_isSingle (h : s.isSingle t = true) : s.hasConversion t = true := by
  cases t with
  | scalar u => cases u <;> first | rfl | cases h
  | named name => exact h
  | _ => cases h

theorem present_of_hasConversion (h : s.hasConversion t = true) : t.present.1 = t := by
  cases t <;> first | rfl | cases h

theorem element?_of_hasConversion (h : s.hasConversion t = true) : t.element? = none := by
  cases t <;> first | rfl | cases h

theorem eq_text_of_hasConversion (h : s.hasConversion t = true) (htext : t.isText = true) :
    t = .scalar .text := by
  cases t with
  | scalar u => cases u <;> first | rfl | cases htext
  | anything | object => cases h
  | _ => cases htext

theorem isTestable_cases (h : s.isTestable t = true) :
    s.isSingle t = true ∨ ∃ e, t = .applied .list [e] ∧ s.isSingle e.present.1 = true := by
  unfold isTestable at h
  split at h
  · next e => exact .inr ⟨e, rfl, h⟩
  · exact .inl h

end Schema

/-! ### Values -/

/-- The values that are exactly of a scalar type. -/
inductive ScalarType.Holds : ScalarType → Value → Prop
  | text (s : String) : Holds .text (.text s)
  | integer (n : Int) : Holds .integer (.int n)
  | float (x : Binary64) : Holds .float (.float x)
  | boolean (b : Bool) : Holds .boolean (.bool b)
  | bytes (bs : List UInt8) : Holds .bytes (.bytes bs)
  | decimal (d : Decimal) : Holds .decimal (.decimal d)
  | uuid (u : Uuid) : Holds .uuid (.uuid u)
  | dateTime (m : DateTime) : Holds .dateTime (.dateTime m)
  | date (d : Date) : Holds .date (.date d)
  | time (t : Time) : Holds .time (.time t)
  | duration (d : Duration) : Holds .duration (.duration d)

theorem ScalarType.holds_of_read? {u : ScalarType} {cs : List Char} {v : Value}
    (h : u.read? cs = some v) : u.Holds v := by
  cases u with
  | text | boolean | bytes | byteArray | duration => cases h
  | _ =>
    obtain ⟨a, -, rfl⟩ := Option.map_eq_some_iff.mp h
    constructor

namespace Schema

/-- A value is null or exactly of a type. A record is known by its members: all can be read, and
their values conform to their types. Elements of lists conform as well. Nothing is said about other
types. -/
inductive Conforms (s : Schema) : TypeExpr → Value → Prop
  | null (t : TypeExpr) : Conforms s t .null
  | scalar {u : ScalarType} {v : Value} (exact : u.Holds v) : Conforms s (.scalar u) v
  | named {name : String} {v : Value}
      (member : ∀ e, s.enum? name = some e →
        ∃ m ∈ e.members, v = .member e.base e.name m.1 m.2)
      (readable : ∀ ms, s.members? (.named name) = .ok (some ms) →
        ∀ m ∈ ms, ∃ w, s.readMember v m.name = .ok w)
      (members : ∀ ms, s.members? (.named name) = .ok (some ms) →
        ∀ m ∈ ms, ∀ w, s.readMember v m.name = .ok w → Conforms s m.type w) :
      Conforms s (.named name) v
  | list {e : TypeExpr} {items : List Value} (elements : ∀ x ∈ items, Conforms s e.present.1 x) :
      Conforms s (.applied .list [e]) (.list items)
  | other {t : TypeExpr} {v : Value} (undescribed : t.isDescribed = false) : Conforms s t v

/-- The values that meet in tests of a single value of a type. A text may also be that of a member
of an enumeration. -/
inductive Typed (s : Schema) : TypeExpr → Value → Prop
  | null (t : TypeExpr) : Typed s t .null
  | scalar {u : ScalarType} {v : Value} (exact : u.Holds v) : Typed s (.scalar u) v
  | textMember (owner name text : String) :
      Typed s (.scalar .text) (.member .text owner name (.text text))
  | member {name : String} {e : EnumType} {m : String × Value} (found : s.enum? name = some e)
      (mem : m ∈ e.members) : Typed s (.named name) (.member e.base e.name m.1 m.2)

variable {s : Schema} {t : TypeExpr} {v : Value}

/-- A record conforms if each of its members does. -/
theorem conforms_record {name : String} {ms : List Member} (henum : s.enum? name = none)
    (hms : s.members? (.named name) = .ok (some ms))
    (h : ∀ m ∈ ms, ∃ w, s.readMember v m.name = .ok w ∧ s.Conforms m.type w) :
    s.Conforms (.named name) v := by
  refine .named (fun e he => ?_) (fun ms' hms' m hm => ?_) fun ms' hms' m hm w hw => ?_
  · cases henum.symm.trans he
  · cases hms.symm.trans hms'
    obtain ⟨w, hread, -⟩ := h m hm
    exact ⟨w, hread⟩
  · cases hms.symm.trans hms'
    obtain ⟨w', hread, hw'⟩ := h m hm
    cases hread.symm.trans hw
    exact hw'

/-- A member conforms to its enumeration, which is no record type. -/
theorem conforms_member {name : String} {e : EnumType} (found : s.enum? name = some e)
    (hrecord : s.record? name = none) {m : String × Value} (hm : m ∈ e.members) :
    s.Conforms (.named name) (.member e.base e.name m.1 m.2) := by
  have hnone : s.members? (.named name) = .ok none := by rw [members?, hrecord]
  refine .named (fun e' he' => ?_) (fun ms hms => ?_) fun ms hms => ?_
  · cases found.symm.trans he'
    exact ⟨m, hm, rfl⟩
  · cases hnone.symm.trans hms
  · cases hnone.symm.trans hms

/-- **What a column holds.** -/
theorem typed_of_conforms_valued (ht : s.isValued t = true) (h : s.Conforms t v) : s.Typed t v := by
  cases h with
  | null => exact .null t
  | scalar exact => exact .scalar exact
  | named member =>
    obtain ⟨e, he⟩ := Option.isSome_iff_exists.mp ht
    obtain ⟨m, hm, rfl⟩ := member e he
    exact .member he hm
  -- collections, and types that are not described, have no values to compare
  | list => cases ht
  | other undescribed =>
    cases t with
    | scalar u => cases undescribed
    | named name => cases undescribed
    | _ => cases ht

theorem typed_of_conforms (ht : s.isSingle t = true) (h : s.Conforms t v) : s.Typed t v :=
  typed_of_conforms_valued (isValued_of_isSingle ht) h

/-! ### What texts are read as -/

theorem typed_raw : ∀ raw : RawText, s.Typed (.scalar .text) raw.value
  | .plain text => .scalar (.text text)
  | .member owner name text => .textMember owner name text

theorem typed_of_coerceText (ht : s.hasConversion t = true) {raw : RawText} {cs : List Char}
    (h : s.coerceText raw cs t = .ok v) : s.Typed t v := by
  unfold coerceText at h
  split at h
  · split at h
    · cases h
      exact .scalar (.boolean _)
    · cases h
  · split at h
    · cases h
      exact .scalar (.duration _)
    · cases h
  · cases h
    exact typed_raw raw
  · cases ht
  · cases ht
  · split at h
    · next hread =>
      cases h
      exact .scalar (ScalarType.holds_of_read? hread)
    · cases h
  · obtain ⟨e, he⟩ := Option.isSome_iff_exists.mp ht
    rw [he] at h
    obtain ⟨found, hfound, h⟩ := bind_eq_ok_iff.mp h
    split at h
    · cases h
      obtain ⟨m, hm, rfl⟩ := EnumType.exists_of_read (liftFault_eq_ok_iff.mp hfound)
      exact .member he hm
    · cases h
  · next hscalar hnamed =>
    -- a type with a conversion is a scalar or a name
    cases t with
    | scalar u => exact absurd rfl (hscalar u)
    | named name => exact absurd rfl (hnamed name)
    | _ => cases ht

/-- **What a text is read as.** -/
theorem typed_of_coerceScalar (ht : s.hasConversion t = true) {raw : RawText}
    (h : s.coerceScalar raw t = .ok v) : s.Typed t v := by
  unfold coerceScalar at h
  rw [present_of_hasConversion ht] at h
  simp only at h
  split at h
  · next htext =>
    cases h
    obtain rfl := eq_text_of_hasConversion ht htext
    exact typed_raw raw
  · split at h
    · cases h
      exact .null t
    · exact typed_of_coerceText ht h

theorem typed_of_coerceList (ht : s.hasConversion t = true) {raw : RawText}
    (h : s.coerceList raw t = .ok v) : ∃ vs, v = .list vs ∧ ∀ x ∈ vs, s.Typed t x := by
  obtain ⟨vs, rfl, hvs⟩ := exists_of_coerceList h
  refine ⟨vs, rfl, fun x hx => ?_⟩
  obtain ⟨p, hp⟩ := hvs x hx
  exact typed_of_coerceScalar ht hp

/-! ### Reading -/

theorem exists_name_of_mem {ms : List Member} (h : s.members? t = .ok (some ms)) {m : Member}
    (hm : m ∈ ms) : ∃ name, t = .named name := by
  unfold members? at h
  split at h
  · next name => exact ⟨name, rfl⟩
  · cases h
    cases hm
  · cases h

/-- The value in place of one that cannot be reached is of the type. -/
theorem conforms_defaultOf (t : TypeExpr) (nullable : Bool) :
    s.Conforms t (Value.defaultOf t nullable) := by
  unfold Value.defaultOf
  split
  · exact .null t
  · split
    · exact .scalar (.integer 0)
    · exact .scalar (.float _)
    · exact .scalar (.decimal _)
    · exact .scalar (.boolean false)
    · exact .null t

/-- One step from a conforming value that is not null. -/
theorem Conforms.exists_readMember {owner : TypeExpr} {hop : Hop} {hops : List Hop}
    (h : s.Conforms owner v) (hchain : s.Chained owner (hop :: hops)) :
    v = .null ∨ ∃ w, s.readMember v hop.name = .ok w ∧ s.Conforms hop.type w := by
  cases hchain with
  | cons members mem _ =>
    obtain ⟨name, rfl⟩ := exists_name_of_mem members mem
    cases h with
    | null => exact .inl rfl
    | named _ readable typed =>
      obtain ⟨w, hw⟩ := readable _ members _ mem
      exact .inr ⟨w, hw, typed _ members _ mem w hw⟩
    -- a type with members is described
    | other undescribed => cases undescribed

/-- One hop of a column, guarded against null. -/
theorem exists_readFrom_cons {owner : TypeExpr} {hop : Hop} {hops : List Hop} {d : Value}
    (hchain : s.Chained owner (hop :: hops)) (hd : s.Conforms t d) (hv : s.Conforms owner v)
    (next : ∀ w, s.Conforms hop.type w →
      ∃ x, s.readFrom (some d) hops w = .ok x ∧ s.Conforms t x) :
    ∃ x, s.readFrom (some d) (hop :: hops) v = .ok x ∧ s.Conforms t x := by
  -- a missing owner gives the default, and nothing more is read
  by_cases hnull : v = .null
  · subst hnull
    exact ⟨d, rfl, hd⟩
  · obtain ⟨w, hread, hw⟩ := (hv.exists_readMember hchain).resolve_left hnull
    obtain ⟨x, hrest, hx⟩ := next w hw
    refine ⟨x, ?_, hx⟩
    rw [readFrom_cons s hnull, hread]
    exact hrest

/-- Members are read one after the other, up to the first null. -/
theorem exists_readFrom {terminal : Hop} {d : Value} (hd : s.Conforms terminal.type d) :
    ∀ {leading : List Hop} {owner : TypeExpr} {v : Value},
      s.Chained owner (leading ++ [terminal]) → s.Conforms owner v →
      ∃ x, s.readFrom (some d) (leading ++ [terminal]) v = .ok x ∧ s.Conforms terminal.type x
  | [], _, _, hchain, hv => exists_readFrom_cons hchain hd hv fun w hw => ⟨w, rfl, hw⟩
  | _ :: _, _, _, hchain, hv => exists_readFrom_cons hchain hd hv fun _ hw => by
    cases hchain with
    | cons _ _ rest => exact exists_readFrom hd rest hw

/-- **Reading is total** on conforming records, under the guard against null, and gives conforming
values. -/
theorem exists_read {owner : TypeExpr} {c : ResolvedColumn} (hchain : s.Chained owner c.hops)
    (hv : s.Conforms owner v) : ∃ w, s.read true c v = .ok w ∧ s.Conforms c.type w :=
  exists_readFrom (conforms_defaultOf c.type c.terminal.nullable) hchain hv

/-! ### Elements -/

theorem Conforms.exists_elements {e : TypeExpr} (h : s.Conforms (.applied .list [e]) v) :
    ∃ items, (v = .null ∧ items = [] ∨ v = .list items) ∧
      ∀ x ∈ items, s.Conforms e.present.1 x := by
  cases h with
  | null => exact ⟨[], .inl ⟨rfl, rfl⟩, List.forall_mem_nil _⟩
  | @list _ items elements => exact ⟨items, .inr rfl, elements⟩
  | other undescribed => cases undescribed

end Schema

/-! ### Declared enumerations -/

namespace EnumType

variable {e : EnumType}

/-- The enumeration is made by a declaration. -/
def IsDeclared (e : EnumType) : Prop := ∃ base name members, declare base name members = .ok e

/-- The values of the members are converted by the base. -/
theorem IsDeclared.exists_convert (h : e.IsDeclared) {m : String × Value} (hm : m ∈ e.members) :
    ∃ v, e.base.convert v = .ok m.2 := by
  obtain ⟨base, name, members, h⟩ := h
  obtain ⟨-, -, h⟩ := bind_eq_ok_iff.mp h
  split at h
  · cases h
  · obtain ⟨kept, hkept, h⟩ := bind_eq_ok_iff.mp h
    unfold make? at h
    split at h
    · next e' hmake =>
      cases h
      split at hmake
      · cases hmake
        -- the members that are kept are the converted ones, in their order
        obtain ⟨d, -, hd⟩ := exists_of_mem_mapM hkept hm
        obtain ⟨v, hv, rfl⟩ := map_eq_ok_iff.mp hd
        exact ⟨d.2, hv⟩
      · cases hmake
    · cases h

theorem IsDeclared.exists_int (h : e.IsDeclared) (hbase : e.base = .integer)
    {m : String × Value} (hm : m ∈ e.members) : ∃ n, m.2 = .int n := by
  obtain ⟨v, hv⟩ := h.exists_convert hm
  rw [hbase] at hv
  obtain ⟨n, -, hn⟩ := map_eq_ok_iff.mp hv
  exact ⟨n, hn.symm⟩

theorem IsDeclared.exists_text (h : e.IsDeclared) (hbase : e.base = .text)
    {m : String × Value} (hm : m ∈ e.members) : ∃ t, m.2 = .text t := by
  obtain ⟨v, hv⟩ := h.exists_convert hm
  rw [hbase] at hv
  obtain ⟨t, -, ht⟩ := map_eq_ok_iff.mp hv
  exact ⟨t, ht.symm⟩

end EnumType

namespace Schema

variable {s s' : Schema}

/-- All enumerations of a schema are made by declarations. -/
def EnumsDeclared (s : Schema) : Prop := ∀ e ∈ s.enums, e.IsDeclared

theorem EnumsDeclared.isDeclared (h : s.EnumsDeclared) {name : String} {e : EnumType}
    (found : s.enum? name = some e) : e.IsDeclared :=
  h e (List.mem_of_find?_eq_some found)

theorem enumsDeclared_empty : empty.EnumsDeclared := List.forall_mem_nil _

/-- A definition adds one enumeration, by a declaration, or none. -/
theorem EnumsDeclared.define (h : s.EnumsDeclared) {d : Value} (hd : s.define d = .ok s') :
    s'.EnumsDeclared := by
  unfold Schema.define at hd
  split at hd
  · obtain ⟨e, he, rfl⟩ := map_eq_ok_iff.mp hd
    exact List.forall_mem_cons.mpr ⟨⟨_, _, _, he⟩, h⟩
  · -- a record type leaves the enumerations as they are
    obtain ⟨r, -, hd⟩ := bind_eq_ok_iff.mp hd
    unfold defineRecord at hd
    simp only at hd
    split at hd
    · cases hd
    · obtain ⟨-, -, hd⟩ := bind_eq_ok_iff.mp hd
      obtain ⟨r', -, rfl⟩ := map_eq_ok_iff.mp hd
      exact h

/-- **Schemas that are built from data** have declared enumerations only. -/
theorem enumsDeclared_of_define {ds : List Value} (h : ds.foldlM Schema.define empty = .ok s) :
    s.EnumsDeclared := by
  -- every definition adds to what is known already
  have hfold : ∀ (ds : List Value) (known : Schema), known.EnumsDeclared →
      ds.foldlM Schema.define known = .ok s → s.EnumsDeclared := by
    intro ds
    induction ds with
    | nil =>
      rintro known hknown h
      cases h
      exact hknown
    | cons d ds ih =>
      intro known hknown h
      obtain ⟨next, hnext, h⟩ := bind_eq_ok_iff.mp h
      exact ih next (hknown.define hnext) h
  exact hfold ds empty enumsDeclared_empty h

end Schema
end RecordQuery
