import RecordQuery.Proofs.Calendar.Ordinal
import RecordQuery.Proofs.Calendar.Written
import RecordQuery.Proofs.Number.Written
import RecordQuery.Proofs.Outcome
import RecordQuery.Coercion
import RecordQuery.Value.Written

/-!
# Values that read back

`Value.written` gives the text of a value in a filter, and `Schema.coerce` reads a text as a value
of a type. Each type has a writer and a reader of its own, which the modules on numbers and on the
calendar compare. What is common to all types is stated here as `IsWrittenAs`: the text is solid,
so that no blank is trimmed from it and no comma cuts it, and the reader of the type restores the
value.

* `IsItem` — the texts that are read unchanged as items of a list; `listItems_join` and
  `Schema.coerceList_join`.
* `Value.HasText` — the values of a type that have a text which says all of them.
* `Value.Restores` — the value itself, or for a moment with an offset the same instant at offset
  zero.
* `Schema.coerce_written` — single values and lists of values read back.

The offset of a moment is the one that its zone has for it. A zone may have other offsets at other
times, or two for one reading of the clock, and a comparison of the moment with one in another zone
may ask for them. So for moments with an offset nothing is claimed but the instant.
-/

namespace RecordQuery

open Text

/-! ### Items of a list -/

/-- The texts that a text lists: its parts between commas, without the blanks at their ends. A blank
text lists none. -/
def listItems (text : String) : List String :=
  if isBlankText text then []
  else (pieces ',' text.toList).map fun part => String.ofList (trim part)

/-- A text that can be an item of a list: no blank is trimmed from it, and no comma cuts it. -/
structure IsItem (text : String) : Prop where
  trim_eq : trim text.toList = text.toList
  comma_notMem : ',' ∉ text.toList

instance (text : String) : Decidable (IsItem text) :=
  decidable_of_iff (trim text.toList = text.toList ∧ ',' ∉ text.toList)
    ⟨fun h => ⟨h.1, h.2⟩, fun h => ⟨h.1, h.2⟩⟩

section

variable {texts : List String}

/-- No comma stands in an item, so the items are what is found between the commas. -/
theorem pieces_join (h : ∀ text ∈ texts, IsItem text) (hne : texts ≠ []) :
    pieces ',' (join "," texts).toList = texts.map String.toList := by
  have hcomma : ",".toList = [','] := rfl
  have hnone : ∀ cs ∈ texts.map String.toList, ',' ∉ cs :=
    List.forall_mem_map.mpr fun text htext => (h text htext).comma_notMem
  rw [join, String.toList_ofList, hcomma, pieces_eq_splitOn]
  exact List.splitOn_intercalate ',' hnone (List.map_eq_nil_iff.not.mpr hne)

/-- A list is blank only where the empty text is its one item. -/
theorem isBlankText_join (h : ∀ text ∈ texts, IsItem text) (hne : texts ≠ [])
    (hone : texts ≠ [""]) : isBlankText (join "," texts) = false := by
  by_contra hblank
  rw [Bool.not_eq_false, isBlankText, List.all_eq_true] at hblank
  match texts, hne with
  | [text], _ =>
    have hsame : (join "," [text]).toList = text.toList := by simp [join]
    rw [hsame] at hblank
    -- all of a blank text is trimmed from it
    have hempty : text.toList = [] :=
      (h text List.mem_cons_self).trim_eq.symm.trans (trim_eq_nil hblank)
    exact hone (congrArg (fun text => [text]) (String.toList_eq_nil_iff.mp hempty))
  | text :: next :: rest, _ =>
    have hcomma : ',' ∈ (join "," (text :: next :: rest)).toList := by simp [join]
    exact Bool.false_ne_true (hblank ',' hcomma)

/-- Items that are joined are listed again. -/
theorem listItems_join (h : ∀ text ∈ texts, IsItem text) (hone : texts ≠ [""]) :
    listItems (join "," texts) = texts := by
  by_cases hne : texts = []
  · subst hne
    rfl
  · unfold listItems
    rw [isBlankText_join h hne hone, if_neg Bool.false_ne_true, pieces_join h hne, List.map_map]
    refine (List.map_congr_left fun text htext => ?_).trans (List.map_id texts)
    show String.ofList (trim text.toList) = text
    rw [(h text htext).trim_eq, String.ofList_toList]

theorem Schema.coerceList_eq (s : Schema) (t : TypeExpr) (raw : RawText) : s.coerceList raw t =
    ((listItems raw.text).mapM fun text => s.coerceScalar (.plain text) t).map .list := by
  unfold coerceList listItems
  by_cases hblank : isBlankText raw.text = true
  · rw [if_pos hblank, if_pos hblank]
    rfl
  · rw [if_neg hblank, if_neg hblank, List.mapM_map]
    rfl

/-- **Items are read one by one.** The empty text alone is read as no items, and is excluded. -/
theorem Schema.coerceList_join (s : Schema) (t : TypeExpr) (h : ∀ text ∈ texts, IsItem text)
    (hone : texts ≠ [""]) : s.coerceList (.plain (join "," texts)) t =
      (texts.mapM fun text => s.coerceScalar (.plain text) t).map .list := by
  rw [coerceList_eq, RawText.text, listItems_join h hone]

/-- An item by itself is a list of one. -/
theorem Schema.coerceList_of_isItem (s : Schema) (t : TypeExpr) {text : String} (h : IsItem text)
    (hne : text ≠ "") : s.coerceList (.plain text) t =
      (s.coerceScalar (.plain text) t).map fun w => .list [w] := by
  have hjoin : join "," [text] = text := by simp [join]
  have hone : [text] ≠ [""] := fun hsame => hne (List.cons.inj hsame).1
  have hread := s.coerceList_join t (List.forall_mem_singleton.mpr h) hone
  rw [hjoin] at hread
  rw [hread, List.mapM_cons, List.mapM_nil]
  cases s.coerceScalar (.plain text) t <;> rfl

end

/-! ### Solid texts -/

/-- A visible character of ASCII other than the comma. -/
def isSolid (c : Char) : Bool := 0x21 ≤ c.toNat && c.toNat ≤ 0x7E && c != ','

/-- A text of such characters. -/
def Solid (cs : List Char) : Prop := ∀ c ∈ cs, isSolid c = true

namespace Solid

variable {cs : List Char}

instance : Decidable (Solid cs) := decidable_of_iff (cs.all isSolid = true) List.all_eq_true

/-- Whether a text is solid is decided on the alphabet that it is drawn from. -/
theorem of_subset {alphabet : List Char} (h : cs ⊆ alphabet)
    (hall : ∀ c ∈ alphabet, isSolid c = true) : Solid cs := fun c hc => hall c (h hc)

theorem isBlank_eq_false (h : Solid cs) : ∀ c ∈ cs, isBlank c = false := by
  intro c hc
  have hsolid := h c hc
  unfold isSolid at hsolid
  unfold isBlank
  simp only [Bool.and_eq_true, decide_eq_true_eq] at hsolid
  simp only [Bool.or_eq_false_iff, Bool.and_eq_false_iff, decide_eq_false_iff_not,
    beq_eq_false_iff_ne]
  omega

theorem trim_eq_self (h : Solid cs) : trim cs = cs :=
  (Trimmed.of_forall h.isBlank_eq_false).trim_eq_self

theorem comma_notMem (h : Solid cs) : ',' ∉ cs := fun hc => Bool.false_ne_true (h ',' hc)

theorem isItem (h : Solid cs) : IsItem (String.ofList cs) := by
  constructor
  · rw [String.toList_ofList, h.trim_eq_self]
  · rw [String.toList_ofList]
    exact h.comma_notMem

end Solid

/-! ### Values with a text -/

namespace DateTime

/-- Whether a moment can be moved to offset zero by whole minutes: it has no offset, or one of whole
minutes such that its instant lies within the calendar at offset zero. -/
def IsMovable (m : DateTime) : Prop :=
  ∀ o, m.offset = some o → o.IsWholeMinutes ∧ InCalendar (m.localMicros - o.micros)

theorem IsMovable.hasWholeMinutes {m : DateTime} (h : m.IsMovable) :
    Time.HasWholeMinutes ⟨m.clock, m.offset⟩ := fun o ho => (h o ho).1

end DateTime

namespace Value

/-- The values of a scalar type that have a text which says all of them: integers that are short
enough to be written, decimal numbers other than those that are no number, times and moments with
offsets of whole minutes, and all truth values, identifiers and days. -/
inductive HasText : ScalarType → Value → Prop where
  | integer {n : Int} : isTooLong n = false → HasText .integer (.int n)
  | boolean (b : Bool) : HasText .boolean (.bool b)
  | decimal {d : Decimal} : d.IsRepresentable → HasText .decimal (.decimal d)
  | uuid (u : Uuid) : HasText .uuid (.uuid u)
  | date (d : Date) : HasText .date (.date d)
  | time {t : Time} : t.HasWholeMinutes → HasText .time (.time t)
  | dateTime {m : DateTime} : m.IsMovable → HasText .dateTime (.dateTime m)

/-- What a reader gives for the text of a value: the value itself, and for a moment with an offset
the same instant at offset zero. -/
inductive Restores : Value → Value → Prop where
  | same (v : Value) : Restores v v
  | moved {m n : DateTime} {o : Offset} : m.offset = some o → n.offset = some Offset.universal →
      n.localMicros = m.localMicros - o.micros → Restores (.dateTime n) (.dateTime m)

/-- A value is a moment with an offset. -/
def IsZoned (v : Value) : Prop := ∃ m o, v = .dateTime m ∧ m.offset = some o

/-- All other values are restored themselves. -/
theorem Restores.eq_of_not_isZoned {v w : Value} (hw : w.Restores v) (hzone : ¬ v.IsZoned) :
    w = v := by
  cases hw with
  | same => rfl
  | moved hoffset _ _ => exact absurd ⟨_, _, rfl, hoffset⟩ hzone

end Value

/-! ### Equality -/

theorem Decimal.compare?_self {d : Decimal} (h : d.IsRepresentable) :
    d.compare? d = some .eq := by
  -- a number has the magnitude of itself, and no other thing is representable
  have habs : d.compareAbs d = .eq := by
    cases d with
    | finite negative c e =>
      show comparePositive c e c e = .eq
      unfold comparePositive
      simp
    | infinite negative => rfl
    | nan negative signaling payload => exact h.elim
  unfold compare?
  simp [h.isNumber, habs]

theorem Time.compare?_self (t : Time) : t.compare? t = some .eq := by
  unfold compare?
  cases t.offset <;> simp

theorem DateTime.compare?_self (m : DateTime) : m.compare? m = some .eq := by
  unfold compare?
  cases m.offset <;> simp

namespace Value

variable {t : ScalarType} {v w : Value}

theorem HasText.eq_self (h : v.HasText t) : v.eq v = .ok true := by
  -- of all values with a text, none signals, which equality would report
  cases h with
  | @integer n _ =>
    show Except.ok (n == n) = .ok true
    rw [beq_self_eq_true]
  | boolean b =>
    show Except.ok (b == b) = .ok true
    rw [beq_self_eq_true]
  | @decimal d hd =>
    have hsignaling : d.isSignaling = false := by
      cases d with
      | nan negative signaling payload => exact hd.elim
      | _ => rfl
    show (if d.isSignaling || d.isSignaling then _ else _) = Except.ok true
    rw [hsignaling, Decimal.compare?_self hd]
    rfl
  | uuid u =>
    show Except.ok (u == u) = .ok true
    rw [beq_self_eq_true]
  | date d =>
    show Except.ok (d == d) = .ok true
    rw [beq_self_eq_true]
  | @time t _ =>
    show Except.ok (t.compare? t == some .eq) = .ok true
    rw [Time.compare?_self]
    rfl
  | @dateTime m _ =>
    show Except.ok (m.compare? m == some .eq) = .ok true
    rw [DateTime.compare?_self]
    rfl

end Value

/-! ### Single values -/

section

variable {s : Schema} {t : ScalarType} {v : Value}

/-- A value of a type is written as a solid text that is not empty, from which the reader of the
type restores the value. -/
structure IsWrittenAs (s : Schema) (t : ScalarType) (v : Value) (cs : List Char) : Prop where
  written : v.written = .ok (.plain (String.ofList cs))
  solid : Solid cs
  ne_nil : cs ≠ []
  isText : (TypeExpr.scalar t).isText = false
  exists_read : ∃ w, s.coerceText (.plain (String.ofList cs)) cs (.scalar t) = .ok w ∧ w.Restores v

/-- Types with a reader of their own take what it gives. -/
theorem coerceText_of_read? {cs : List Char} {w : Value} (h : t.read? cs = some w)
    (raw : RawText) : s.coerceText raw cs (.scalar t) = .ok w := by
  unfold Schema.coerceText
  cases t with
  | integer | float | decimal | uuid | dateTime | date | time => simp only [h]
  | _ => cases h

theorem read?_nil : t.read? [] = none := by
  cases t <;> rfl

theorem ne_nil_of_read? {cs : List Char} {w : Value} (h : t.read? cs = some w) : cs ≠ [] := by
  rintro rfl
  rw [read?_nil] at h
  cases h

theorem isText_of_read? {cs : List Char} {w : Value} (h : t.read? cs = some w) :
    (TypeExpr.scalar t).isText = false := by
  cases t with
  | text => cases h
  | _ => rfl

/-- Outside of texts, a trimmed text that is not empty is read by the reader of its type. -/
theorem coerceScalar_eq_coerceText {cs : List Char} (htext : (TypeExpr.scalar t).isText = false)
    (htrim : trim cs = cs) (hne : cs ≠ []) :
    s.coerceScalar (.plain (String.ofList cs)) (.scalar t) =
      s.coerceText (.plain (String.ofList cs)) cs (.scalar t) := by
  have htrim : trim (RawText.plain (String.ofList cs)).text.toList = cs := by
    show trim (String.ofList cs).toList = cs
    rw [String.toList_ofList, htrim]
  have hpresent : (TypeExpr.scalar t).present.1 = .scalar t := rfl
  unfold Schema.coerceScalar
  simp only [hpresent, htext, htrim, List.isEmpty_eq_false_iff.mpr hne, Bool.false_eq_true,
    if_false]

theorem coerceScalar_of_read? {text : String} {w : Value}
    (htrim : trim text.toList = text.toList) (hread : t.read? text.toList = some w) :
    s.coerceScalar (.plain text) (.scalar t) = .ok w := by
  have hcoerce := coerceScalar_eq_coerceText (s := s) (isText_of_read? hread) htrim
    (ne_nil_of_read? hread)
  rw [String.ofList_toList] at hcoerce
  rw [hcoerce, coerceText_of_read? hread]

theorem IsWrittenAs.of_read? {cs : List Char} {w : Value}
    (hwritten : v.written = .ok (.plain (String.ofList cs))) (hsolid : Solid cs)
    (hread : t.read? cs = some w) (hw : w.Restores v) : IsWrittenAs s t v cs :=
  ⟨hwritten, hsolid, ne_nil_of_read? hread, isText_of_read? hread, w,
    coerceText_of_read? hread _, hw⟩

/-- A moment is read as the same instant at offset zero. -/
theorem DateTime.exists_readMoment? {m : DateTime} (h : m.IsMovable) :
    ∃ n, readMoment? m.render = some n ∧ (Value.dateTime n).Restores (.dateTime m) := by
  unfold readMoment?
  rw [read?_render h.hasWholeMinutes, Option.bind_some]
  cases hoffset : m.offset with
  | none =>
    refine ⟨m, ?_, .same _⟩
    unfold toUniversal?
    rw [hoffset]
  | some o =>
    obtain ⟨n, hn, hinstant, huniversal⟩ := exists_toUniversal? hoffset (h o hoffset).2
    exact ⟨n, hn, .moved hoffset huniversal hinstant⟩

/-- **Single values.** Every value with a text is written so that it reads back. -/
theorem Value.HasText.exists_isWrittenAs (h : v.HasText t) : ∃ cs, IsWrittenAs s t v cs := by
  have hnumber : ∀ c ∈ Numeral.alphabet, isSolid c = true := List.all_eq_true.mp rfl
  have hstamp : ∀ c ∈ Iso.charset, isSolid c = true := List.all_eq_true.mp rfl
  cases h with
  | @integer n hn =>
    -- an integer alone may be too long to be written
    have hwritten : (Value.int n).written = .ok (.plain (String.ofList (Numeral.signed n))) := by
      show ((unlessFault (if isTooLong n then _ else _) _).map RawText.plain) = _
      rw [hn]
      rfl
    have hread : ScalarType.integer.read? (Numeral.signed n) = some (.int n) := by
      rw [ScalarType.read?, Numeral.readInteger?_signed hn, Option.map_some]
    exact ⟨_, .of_read? hwritten (.of_subset (Numeral.signed_subset n) hnumber) hread (.same _)⟩
  | boolean b =>
    cases b with
    | true => exact ⟨"true".toList, rfl, by decide, by decide, rfl, .bool true, rfl, .same _⟩
    | false => exact ⟨"false".toList, rfl, by decide, by decide, rfl, .bool false, rfl, .same _⟩
  | @decimal d hd =>
    have hread : ScalarType.decimal.read? d.render = some (.decimal d) := by
      rw [ScalarType.read?, (Decimal.read?_render_iff hd.isNumber).mpr hd, Option.map_some]
    exact ⟨_, .of_read? rfl (.of_subset d.render_subset hnumber) hread (.same _)⟩
  | uuid u =>
    have hread : ScalarType.uuid.read? u.render = some (.uuid u) := by
      rw [ScalarType.read?, Uuid.read?_render, Option.map_some]
    exact ⟨_, .of_read? rfl (.of_subset u.render_subset (List.all_eq_true.mp rfl)) hread (.same _)⟩
  | date d =>
    have hread : ScalarType.date.read? d.render = some (.date d) := by
      rw [ScalarType.read?, Date.read?_render, Option.map_some]
    exact ⟨_, .of_read? rfl (.of_subset d.render_subset hstamp) hread (.same _)⟩
  | @time t ht =>
    have hread : ScalarType.time.read? t.render = some (.time t) := by
      rw [ScalarType.read?, Time.read?_render ht, Option.map_some]
    exact ⟨_, .of_read? rfl (.of_subset (Time.render_subset ht) hstamp) hread (.same _)⟩
  | @dateTime m hm =>
    obtain ⟨n, hn, hrestores⟩ := DateTime.exists_readMoment? hm
    have hread : ScalarType.dateTime.read? m.render = some (.dateTime n) := by
      rw [ScalarType.read?, hn, Option.map_some]
    have hsolid := Solid.of_subset (DateTime.render_subset hm.hasWholeMinutes) hstamp
    exact ⟨_, .of_read? rfl hsolid hread hrestores⟩

theorem IsWrittenAs.exists_coerceScalar {cs : List Char} (h : IsWrittenAs s t v cs) :
    ∃ w, s.coerceScalar (.plain (String.ofList cs)) (.scalar t) = .ok w ∧ w.Restores v := by
  obtain ⟨w, hw, hrestores⟩ := h.exists_read
  have hcoerce := coerceScalar_eq_coerceText (s := s) h.isText h.solid.trim_eq_self h.ne_nil
  exact ⟨w, hcoerce.trans hw, hrestores⟩

/-! ### Lists -/

variable {vs : List Value} {text : Value → List Char}

theorem writtenAll_eq (h : ∀ v ∈ vs, IsWrittenAs s t v (text v)) :
    Value.writtenAll vs = .ok ((vs.map text).map String.ofList) := by
  induction vs with
  | nil => rfl
  | cons v vs ih =>
    rw [List.forall_mem_cons] at h
    rw [Value.writtenAll, h.1.written, ih h.2]
    rfl

/-- What is written of several values is read as the list of what each of them is read as. -/
theorem coerceList_written {value : Value → Value} (h : ∀ v ∈ vs, IsWrittenAs s t v (text v))
    (hread : ∀ v ∈ vs,
      s.coerceScalar (.plain (String.ofList (text v))) (.scalar t) = .ok (value v)) :
    s.coerceList (.plain (join "," ((vs.map text).map String.ofList))) (.scalar t) =
      .ok (.list (vs.map value)) := by
  cases vs with
  | nil => rfl
  | cons v vs =>
    rw [List.map_map]
    have hitems : ∀ item ∈ (v :: vs).map (String.ofList ∘ text), IsItem item :=
      List.forall_mem_map.mpr fun x hx => (h x hx).solid.isItem
    -- no value is written as the empty text, which would stand for no list
    have hone : (v :: vs).map (String.ofList ∘ text) ≠ [""] := by
      intro hsame
      have hfirst : String.ofList (text v) = "" := (List.cons.inj hsame).1
      exact (h v List.mem_cons_self).ne_nil (String.ofList_injective hfirst)
    have hall : (((v :: vs).map (String.ofList ∘ text)).mapM fun item =>
        s.coerceScalar (.plain item) (.scalar t)) = .ok ((v :: vs).map value) := by
      rw [mapM_eq_ok_iff, List.forall₂_map_left_iff, List.forall₂_map_right_iff, List.forall₂_same]
      exact hread
    rw [Schema.coerceList_join s _ hitems hone, hall]
    rfl

theorem eqAll_self (h : ∀ v ∈ vs, v.HasText t) : Value.eqAll vs vs = .ok true := by
  induction vs with
  | nil => rfl
  | cons v vs ih =>
    rw [List.forall_mem_cons] at h
    rw [Value.eqAll, h.1.eq_self]
    exact ih h.2

end

/-- **Values read back.** Of every value with a text the reader of its type restores an equal one:
the value itself, but for a moment with an offset only the same instant. So it does of every element
of a list of such values, which is read as a list. -/
theorem Schema.coerce_written (s : Schema) (t : ScalarType) :
    (∀ v : Value, v.HasText t → ∃ raw w, v.written = .ok raw ∧
      s.coerce raw (.scalar t) .eq = .ok w ∧ w.Restores v ∧
      (¬ v.IsZoned → w.eq v = .ok true)) ∧
    ∀ vs : List Value, (∀ v ∈ vs, v.HasText t) → ∃ raw ws, (Value.list vs).written = .ok raw ∧
      s.coerce raw (.scalar t) .isIn = .ok (.list ws) ∧ List.Forall₂ Value.Restores ws vs ∧
      ((∀ v ∈ vs, ¬ v.IsZoned) → (Value.list ws).eq (.list vs) = .ok true) := by
  -- each value has a text, and each text a value that it is read as
  have htext : ∀ v : Value, v.HasText t → ∃ cs, IsWrittenAs s t v cs := fun v hv =>
    hv.exists_isWrittenAs
  choose! text htext using htext
  have hvalue : ∀ v : Value, v.HasText t → ∃ w,
      s.coerceScalar (.plain (String.ofList (text v))) (.scalar t) = .ok w ∧ w.Restores v :=
    fun v hv => (htext v hv).exists_coerceScalar
  choose! value hread hrestores using hvalue
  refine ⟨fun v hv => ?_, fun vs hvs => ?_⟩
  · refine ⟨_, value v, (htext v hv).written, hread v hv, hrestores v hv, fun hzone => ?_⟩
    rw [(hrestores v hv).eq_of_not_isZoned hzone]
    exact hv.eq_self
  · have hwritten : (Value.list vs).written =
        .ok (.plain (join "," ((vs.map text).map String.ofList))) := by
      rw [Value.written, writtenAll_eq fun v hv => htext v (hvs v hv)]
      rfl
    refine ⟨_, vs.map value, hwritten, ?_, ?_, fun hzones => ?_⟩
    · exact coerceList_written (fun v hv => htext v (hvs v hv)) fun v hv => hread v (hvs v hv)
    · rw [List.forall₂_map_left_iff, List.forall₂_same]
      exact fun v hv => hrestores v (hvs v hv)
    · have hsame : vs.map value = vs := (List.map_congr_left fun v hv =>
        (hrestores v (hvs v hv)).eq_of_not_isZoned (hzones v hv)).trans (List.map_id vs)
      rw [hsame, Value.eq, if_pos rfl]
      exact eqAll_self hvs

/-- Half past midnight in a zone that is two hours ahead, on a day after a leap day. -/
def departure : DateTime :=
  ⟨⟨2024, 3, 1, by decide⟩, ⟨0, 30, 0, 0, by decide⟩, some ⟨7200000000, by decide⟩⟩

theorem departure_isMovable : departure.IsMovable := by
  intro o ho
  cases ho
  exact ⟨rfl, by decide, by decide⟩

example : (Value.dateTime departure).written = .ok (.plain "2024-03-01T00:30:00+02:00") := rfl

/-- A moment before midnight in universal time, and decimal numbers that are written in three
ways. -/
theorem Schema.coerce_written_of_departure :
    ((Value.dateTime departure).HasText .dateTime ∧
      ∃ raw w, (Value.dateTime departure).written = .ok raw ∧
        Schema.empty.coerce raw (.scalar .dateTime) .eq = .ok w ∧
        w.Restores (.dateTime departure)) ∧
    let prices := [.decimal (.finite false 150 (-2)), .decimal (.finite true 0 3),
      .decimal (.infinite true)]
    (∀ v ∈ prices, v.HasText .decimal) ∧
      ∃ raw ws, (Value.list prices).written = .ok raw ∧
        Schema.empty.coerce raw (.scalar .decimal) .isIn = .ok (.list ws) ∧
        List.Forall₂ Value.Restores ws prices ∧ (Value.list ws).eq (.list prices) = .ok true := by
  have hdeparture : (Value.dateTime departure).HasText .dateTime := .dateTime departure_isMovable
  obtain ⟨raw, w, hraw, hread, hrestores, -⟩ :=
    (Schema.coerce_written .empty .dateTime).1 _ hdeparture
  refine ⟨⟨hdeparture, raw, w, hraw, hread, hrestores⟩, ?_⟩
  intro prices
  have hprices : ∀ v ∈ prices, v.HasText .decimal := by
    rw [List.forall_mem_cons, List.forall_mem_cons, List.forall_mem_cons]
    exact ⟨.decimal (by decide), .decimal (by decide), .decimal trivial, List.forall_mem_nil _⟩
  -- no decimal number is a moment
  have hzones : ∀ v ∈ prices, ¬ v.IsZoned := by
    rintro v hv ⟨m, o, rfl, -⟩
    cases hprices _ hv
  obtain ⟨raw, ws, hraw, hread, hrestores, heq⟩ :=
    (Schema.coerce_written .empty .decimal).2 prices hprices
  exact ⟨hprices, raw, ws, hraw, hread, hrestores, heq hzones⟩

end RecordQuery
