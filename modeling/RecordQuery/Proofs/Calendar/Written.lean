import Mathlib.Tactic.SplitIfs
import RecordQuery.Calendar.Iso
import RecordQuery.Proofs.Number.Layout
import RecordQuery.Proofs.Words

/-!
# Reading what is written: days, times and moments

The readers of ISO 8601 take several forms, and tell them apart by lengths and by characters at
certain places. A written day, time or moment consists of fields of fixed width, each of which
`Iso.number?_padded` takes off, and of the marks between them, which show the form.

* `Date.read?_render` — all days are read as what was written.
* `Time.read?_render` — so are times of day without an offset or with one of whole minutes.
* `DateTime.read?_render` — so are moments.
-/

namespace RecordQuery

open Numeral

namespace Iso

/-! ### Fields -/

theorem digit?_digitChar : ∀ d < 10, digit? d.digitChar = some d := by decide

/-- Digits are read one after the other, as `Text.natOfDigits` adds them up. -/
theorem fixed?_chars (rest : List Char) : ∀ {ds : List Nat} (n : Nat), (∀ d ∈ ds, d < 10) →
    fixed? ds.length n (chars ds ++ rest) = some (ds.foldl (fun n d => n * 10 + d) n, rest)
  | [], n, _ => by
    show fixed? 0 n rest = _
    unfold fixed?
    rfl
  | d :: ds, n, hds => by
    rw [List.forall_mem_cons] at hds
    rw [chars_cons, List.cons_append, List.length_cons, fixed?, digit?_digitChar d hds.1]
    exact fixed?_chars rest (n * 10 + d) hds.2

/-- **Fields.** A number in fixed width is taken off the beginning of a text. -/
theorem number?_padded {w n : Nat} (hw : 0 < w) (h : n < 10 ^ w) (rest : List Char) :
    number? w (padded w n ++ rest) = some (n, rest) := by
  obtain ⟨ds, hds, hlength, hlt, hvalue⟩ := exists_padded (by decide) hw h
  have hread := fixed?_chars rest 0 hlt
  rw [hlength] at hread
  rw [padded, hds, number?, hread]
  exact congrArg (fun k => some (k, rest)) hvalue

theorem length_padded {w n : Nat} (hw : 0 < w) (h : n < 10 ^ w) : (padded w n).length = w := by
  obtain ⟨ds, hds, hlength, -, -⟩ := exists_padded (by decide) hw h
  rw [padded, hds, length_chars, hlength]

theorem padded_append_ne_nil {w n : Nat} (hw : 0 < w) (h : n < 10 ^ w) (rest : List Char) :
    padded w n ++ rest ≠ [] := by
  intro hnil
  have hlength := length_padded hw h
  rw [(List.append_eq_nil_iff.mp hnil).1] at hlength
  exact absurd hlength (Nat.ne_of_lt hw)

/-- A field does not begin with a character that is no digit. -/
theorem head_padded_append {w n : Nat} (hw : 0 < w) (h : n < 10 ^ w) {c : Char}
    (hc : c ∉ digits 10) (rest : List Char) : (padded w n ++ rest).head? ≠ some c := by
  have hlength := length_padded hw h
  intro hhead
  -- a field is not empty, and its first character is a digit
  cases hfield : padded w n with
  | nil =>
    rw [hfield] at hlength
    exact absurd hlength (Nat.ne_of_lt hw)
  | cons d ds =>
    rw [hfield] at hhead
    have hmem : d ∈ padded w n := by
      rw [hfield]
      exact List.mem_cons_self
    exact hc (Option.some.inj hhead ▸ padded_subset w n hmem)

/-! ### Characters -/

/-- What days, times and moments are written with. -/
def charset : List Char := digits 10 ++ ['-', ':', '.', '+', 'T']

theorem padded_subset_charset (w n : Nat) : padded w n ⊆ charset :=
  List.Subset.trans (padded_subset w n) (List.subset_append_left _ _)

/-- Every character of these is a single byte. -/
theorem octets_eq_length {cs : List Char} (h : cs ⊆ charset) : octets cs = cs.length := by
  -- all characters of a moment are of one octet
  have hclass : charset.all (fun c => c.utf8Size == 1) = true := rfl
  have hsize : ∀ c ∈ charset, c.utf8Size = 1 := fun c hc =>
    beq_iff_eq.mp (List.all_eq_true.mp hclass c hc)
  have hsum : ∀ {ds : List Char} (n : Nat), ds ⊆ charset →
      ds.foldl (fun k c => k + c.utf8Size) n = n + ds.length := by
    intro ds
    induction ds with
    | nil => exact fun _ _ => rfl
    | cons d ds ih =>
      intro n hds
      rw [List.cons_subset] at hds
      rw [List.foldl_cons, hsize d hds.1, ih (n + 1) hds.2, List.length_cons]
      omega
  exact (hsum 0 h).trans (Nat.zero_add _)

end Iso

open Iso

/-! ### Days -/

namespace Date

theorem daysInMonth_le (year month : Nat) : daysInMonth year month ≤ 31 := by
  unfold daysInMonth
  split_ifs <;> omega

theorem fits_fields (d : Date) : d.year < 10 ^ 4 ∧ d.month < 10 ^ 2 ∧ d.day < 10 ^ 2 := by
  have hlength := daysInMonth_le d.year d.month
  have hvalid := d.valid
  simp only [isDate, Bool.and_eq_true, decide_eq_true_eq] at hvalid
  omega

theorem render_subset (d : Date) : d.render ⊆ charset := by
  unfold render
  simp only [List.append_subset, List.cons_subset, padded_subset_charset, true_and, and_true]
  decide

theorem length_render (d : Date) : d.render.length = 10 := by
  obtain ⟨hyear, hmonth, hday⟩ := d.fits_fields
  simp only [render, List.length_append, List.length_cons, length_padded (by decide) hyear,
    length_padded (by decide) hmonth, length_padded (by decide) hday]

theorem render_append (d : Date) (rest : List Char) :
    d.render ++ rest =
      padded 4 d.year ++ '-' :: (padded 2 d.month ++ '-' :: (padded 2 d.day ++ rest)) := by
  unfold render
  simp only [List.append_assoc, List.cons_append]

/-- A written day is read where it stands before other text. -/
theorem day?_render_append (d : Date) (rest : List Char) :
    day? 10 (d.render ++ rest) = some d := by
  obtain ⟨hyear, hmonth, hday⟩ := d.fits_fields
  have hweek : ((padded 2 d.month ++ '-' :: (padded 2 d.day ++ rest)).head? == some 'W') = false :=
    beq_eq_false_iff_ne.mpr (head_padded_append (by decide) hmonth (by decide) _)
  unfold day?
  rw [render_append, number?_padded (by decide) hyear]
  -- the dash after the year says that dashes are everywhere
  simp only [Option.bind_eq_bind, Option.bind_some, List.head?_cons, beq_self_eq_true, if_true,
    List.drop_one, List.tail_cons, hweek, Bool.false_eq_true, if_false,
    number?_padded (by decide) hmonth, expect?, number?_padded (by decide) hday, make?,
    dif_pos d.valid]

/-- **Days read back.** -/
theorem read?_render (d : Date) : read? d.render = some d := by
  have hday := day?_render_append d []
  rw [List.append_nil] at hday
  unfold read?
  rw [octets_eq_length d.render_subset, length_render]
  exact hday

end Date

/-! ### Clock readings -/

namespace Iso

theorem fields?_colon {left n : Nat} (hn : n < 10 ^ 2) {more : List Char} (hne : more ≠ []) :
    fields? true (left + 1) (padded 2 n ++ ':' :: more) =
      (fields? true left more).map fun f => (n :: f.1, f.2) := by
  -- the first colon decides that there are colons, and the others agree with it
  obtain ⟨c, cs, rfl⟩ := List.exists_cons_of_ne_nil hne
  rw [fields?, number?_padded (by decide) hn, Option.bind_eq_bind, Option.bind_some]
  simp

theorem fields?_last {left n : Nat} (hn : n < 10 ^ 2) :
    fields? true (left + 1) (padded 2 n) = some ([n], 0, true) := by
  have hread := number?_padded (by decide) hn []
  rw [List.append_nil] at hread
  unfold fields?
  rw [hread]
  rfl

/-- All six places of a fraction of microseconds. -/
theorem fraction?_padded {micro : Nat} (h : micro < 10 ^ 6) :
    fraction? (padded 6 micro) = some (micro, true) := by
  have hread := number?_padded (by decide) h []
  rw [List.append_nil] at hread
  have hwidth : min 6 (padded 6 micro).length = 6 := by
    rw [length_padded (by decide) h, Nat.min_self]
  unfold fraction?
  simp only [hwidth, hread, Option.bind_eq_bind, Option.bind_some]
  show some (micro * 1, true) = some (micro, true)
  rw [Nat.mul_one]

/-- The last field before a fraction. -/
theorem fields?_fraction {n micro : Nat} (hn : n < 10 ^ 2) (hmicro : micro < 10 ^ 6) :
    fields? true 1 (padded 2 n ++ '.' :: padded 6 micro) = some ([n], micro, true) := by
  have hpos : 0 < (padded 6 micro).length := by
    rw [length_padded (by decide) hmicro]
    decide
  have hfraction := fraction?_padded hmicro
  obtain ⟨c, cs, hcs⟩ := List.exists_cons_of_length_pos hpos
  rw [fields?, number?_padded (by decide) hn, Option.bind_eq_bind, Option.bind_some]
  rw [hcs] at hfraction ⊢
  simp [hfraction]

theorem fields?_renderMicros {n micro : Nat} (hn : n < 10 ^ 2) (hmicro : micro < 10 ^ 6) :
    fields? true 1 (padded 2 n ++ Duration.renderMicros micro) = some ([n], micro, true) := by
  unfold Duration.renderMicros
  by_cases hzero : micro = 0
  · rw [if_pos hzero, List.append_nil, hzero]
    exact fields?_last hn
  · rw [if_neg hzero]
    exact fields?_fraction hn hmicro

theorem reading?_minutes {hours minutes : Nat} (hhours : hours < 10 ^ 2)
    (hminutes : minutes < 10 ^ 2) :
    reading? (padded 2 hours ++ ':' :: padded 2 minutes) = some ⟨hours, minutes, 0, 0, true⟩ := by
  have hne := padded_append_ne_nil (by decide) hminutes []
  rw [List.append_nil] at hne
  rw [reading?, fields?_colon hhours hne, fields?_last hminutes]
  rfl

end Iso

theorem Clock.fits_fields (c : Clock) :
    c.hour < 10 ^ 2 ∧ c.minute < 10 ^ 2 ∧ c.second < 10 ^ 2 ∧ c.micro < 10 ^ 6 := by
  have hvalid := c.valid
  simp only [isClock, Bool.and_eq_true, decide_eq_true_eq] at hvalid
  omega

/-- What clock readings are written with: no sign is among it, so an offset can be told from the
reading before it. -/
theorem Clock.render_subset (c : Clock) : c.render ⊆ digits 10 ++ [':', '.'] := by
  have hfield : ∀ w n, padded w n ⊆ digits 10 ++ [':', '.'] := fun w n =>
    List.Subset.trans (padded_subset w n) (List.subset_append_left _ _)
  -- the fraction is left out if it is zero
  have hmicros : Duration.renderMicros c.micro ⊆ digits 10 ++ [':', '.'] := by
    unfold Duration.renderMicros
    split
    · exact List.nil_subset _
    · rw [List.cons_subset]
      exact ⟨by decide, hfield 6 c.micro⟩
  unfold render
  simp only [List.append_subset, List.cons_subset, hfield, hmicros, true_and, and_true]
  decide

/-- A written clock reading is read with all its parts, to its end. -/
theorem Clock.reading?_render (c : Clock) :
    reading? c.render = some ⟨c.hour, c.minute, c.second, c.micro, true⟩ := by
  obtain ⟨hhour, hminute, hsecond, hmicro⟩ := c.fits_fields
  have hrender : c.render = padded 2 c.hour ++ ':' :: (padded 2 c.minute ++
      ':' :: (padded 2 c.second ++ Duration.renderMicros c.micro)) := by
    unfold render
    simp only [List.append_assoc, List.cons_append]
  rw [reading?, hrender, fields?_colon hhour (padded_append_ne_nil (by decide) hminute _),
    fields?_colon hminute (padded_append_ne_nil (by decide) hsecond _),
    fields?_renderMicros hsecond hmicro]
  rfl

/-! ### Offsets -/

namespace Offset

/-- Whether an offset has no seconds and no microseconds. -/
def IsWholeMinutes (o : Offset) : Prop := o.micros % 60000000 = 0

/-- The hours and the minutes of an offset of whole minutes, in microseconds. -/
theorem IsWholeMinutes.exists_parts {o : Offset} (h : o.IsWholeMinutes) :
    ∃ hours minutes, hours < 10 ^ 2 ∧ minutes < 10 ^ 2 ∧
      (o.micros.natAbs : Int) = (hours * 3600 + minutes * 60 : Nat) * 1000000 ∧
      o.render = (if o.micros < 0 then '-' else '+') ::
        (padded 2 hours ++ ':' :: padded 2 minutes) := by
  have hvalid := o.valid
  unfold IsWholeMinutes at h
  unfold isOffset at hvalid
  rw [Bool.and_eq_true, decide_eq_true_eq, decide_eq_true_eq,
    show (microsPerDay : Int) = 86400000000 from rfl] at hvalid
  -- there is nothing left for seconds, so that they are not written
  have hwhole : o.micros.natAbs / 1000000 % 60 = 0 ∧ o.micros.natAbs % 1000000 = 0 := by omega
  refine ⟨o.micros.natAbs / 1000000 / 3600, o.micros.natAbs / 1000000 / 60 % 60, by omega, by omega,
    by omega, ?_⟩
  unfold render
  simp only [hwhole, and_self, if_true, List.append_nil]
  rfl

theorem render_subset {o : Offset} (h : o.IsWholeMinutes) : o.render ⊆ charset := by
  obtain ⟨hours, minutes, -, -, -, hrender⟩ := h.exists_parts
  rw [hrender, List.cons_subset, List.append_subset, List.cons_subset]
  refine ⟨?_, padded_subset_charset 2 hours, by decide, padded_subset_charset 2 minutes⟩
  split <;> decide

/-- A written offset of whole minutes opens with its sign, and is read behind it. -/
theorem IsWholeMinutes.exists_sign {o : Offset} (h : o.IsWholeMinutes) :
    ∃ sign rest, o.render = sign :: rest ∧ opensOffset sign = true ∧
      offset? sign rest = some o := by
  obtain ⟨hours, minutes, hhours, hminutes, hsum, hrender⟩ := h.exists_parts
  have hminus : (if o.micros < 0 then '-' else '+') = '-' ↔ o.micros < 0 := by
    split <;> simp [*]
  refine ⟨_, _, hrender, by split <;> rfl, ?_⟩
  unfold offset?
  rw [if_neg (by split <;> decide), reading?_minutes hhours hminutes]
  simp only [Option.bind_eq_bind, Option.bind_some, Bool.not_true, Bool.false_eq_true, if_false,
    hminus]
  by_cases hzero : hours * 3600 + minutes * 60 + 0 = 0
  · -- no minutes at all are universal time
    rw [if_pos hzero]
    have hmicros : o.micros = 0 := by omega
    cases o
    cases hmicros
    rfl
  · rw [if_neg hzero]
    have hmicros : (if o.micros < 0 then
        -(((hours * 3600 + minutes * 60 + 0 : Nat) : Int) * 1000000 + (0 : Nat))
      else ((hours * 3600 + minutes * 60 + 0 : Nat) : Int) * 1000000 + (0 : Nat)) = o.micros := by
      split <;> omega
    rw [hmicros]
    exact dif_pos o.valid

end Offset

/-! ### Times of day -/

namespace Time

/-- Whether a time has no offset or one of whole minutes. -/
def HasWholeMinutes (t : Time) : Prop := ∀ o, t.offset = some o → o.IsWholeMinutes

theorem render_subset {t : Time} (h : t.HasWholeMinutes) : t.render ⊆ charset := by
  unfold render
  rw [List.append_subset]
  refine ⟨List.Subset.trans t.clock.render_subset (by decide), ?_⟩
  cases hoffset : t.offset with
  | none => exact List.nil_subset _
  | some o => exact Offset.render_subset (h o hoffset)

/-- A written time is read, up to an offset and behind its sign. -/
theorem time?_render {t : Time} (h : t.HasWholeMinutes) : time? t.render = some t := by
  obtain ⟨clock, offset⟩ := t
  have hclock : ∀ c ∈ clock.render, (!opensOffset c) = true := by
    have hclass : (digits 10 ++ [':', '.']).all (fun c => !opensOffset c) = true := rfl
    exact fun c hc => List.all_eq_true.mp hclass c (clock.render_subset hc)
  have hmake : Clock.make? clock.hour clock.minute clock.second clock.micro = some clock :=
    dif_pos clock.valid
  -- no character of the clock opens an offset, so the text is cut where the offset begins
  unfold time? render
  cases offset with
  | none =>
    have hspan : (clock.render ++ []).span (fun c => !opensOffset c) = (clock.render, []) :=
      span_append hclock fun d es hd => by cases hd
    simp only [hspan, clock.reading?_render, Option.bind_eq_bind, Option.bind_some, if_true, hmake]
  | some o =>
    obtain ⟨sign, rest, hrender, hopens, hread⟩ := (h o rfl).exists_sign
    have hspan : (clock.render ++ o.render).span (fun c => !opensOffset c) =
        (clock.render, sign :: rest) := by
      rw [hrender]
      refine span_append hclock fun d es hd => ?_
      cases hd
      rw [hopens]
      rfl
    simp only [hspan, clock.reading?_render, Option.bind_eq_bind, Option.bind_some, hread,
      Option.map_some, hmake]

/-- **Times of day read back.** -/
theorem read?_render {t : Time} (h : t.HasWholeMinutes) : read? t.render = some t := by
  have htime := time?_render h
  unfold read?
  split
  · next rest heq =>
    -- the time begins with a digit, so no letter is passed over
    have hhour : t.render.head? ≠ some 'T' := by
      unfold render Clock.render
      simp only [List.append_assoc]
      exact head_padded_append (by decide) t.clock.fits_fields.1 (by decide) _
    rw [heq] at hhour
    exact absurd rfl hhour
  · exact htime

end Time

/-! ### Moments -/

namespace DateTime

theorem render_subset {m : DateTime} (h : Time.HasWholeMinutes ⟨m.clock, m.offset⟩) :
    m.render ⊆ charset := by
  unfold render renderWith
  rw [List.append_subset, List.cons_subset]
  exact ⟨m.date.render_subset, by decide, Time.render_subset h⟩

/-- The dashes of a written day show its length. -/
theorem dayLength?_append {d : Date} {rest : List Char} (h : rest ⊆ charset) :
    dayLength? (d.render ++ rest) = some 10 := by
  obtain ⟨hyear, hmonth, hday⟩ := d.fits_fields
  have hoctets : octets (d.render ++ rest) = 10 + rest.length := by
    rw [octets_eq_length (List.append_subset.mpr ⟨d.render_subset, h⟩), List.length_append,
      d.length_render]
  have hwidth : (padded 4 d.year).length = 4 := length_padded (by decide) hyear
  -- the fifth character is the dash after the year, and the sixth a digit of the month
  have hfour : (d.render ++ rest)[4]? = some '-' := by
    rw [d.render_append, List.getElem?_append_right (Nat.le_of_eq hwidth), hwidth]
    rfl
  have hfive : (d.render ++ rest)[5]? ≠ some 'W' := by
    rw [d.render_append, List.getElem?_append_right (by omega), hwidth]
    have hhead := head_padded_append (by decide) hmonth (c := 'W') (by decide)
      ('-' :: (padded 2 d.day ++ rest))
    rw [List.head?_eq_getElem?] at hhead
    exact hhead
  unfold dayLength?
  simp only [hoctets, hfour, beq_self_eq_true, if_true, beq_eq_false_iff_ne.mpr hfive,
    Bool.false_eq_true, if_false]
  rw [if_neg (by omega)]

/-- **Moments read back.** -/
theorem read?_render {m : DateTime} (h : Time.HasWholeMinutes ⟨m.clock, m.offset⟩) :
    read? m.render = some m := by
  have hcharset := render_subset h
  -- no `Z` stands in it that would be replaced
  have hreplaced : (m.render.flatMap fun c => if c = 'Z' then "+00:00".toList else [c]) =
      m.render := by
    have hzulu : ∀ c ∈ m.render, c ≠ 'Z' := by
      rintro c hc rfl
      exact absurd (hcharset hc) (by decide)
    calc (m.render.flatMap fun c => if c = 'Z' then "+00:00".toList else [c])
        = m.render.flatMap fun c => [c] :=
          List.flatMap_congr fun c hc => if_neg (hzulu c hc)
      _ = m.render := List.flatMap_singleton' m.render
  have hrest : 'T' :: (Time.render ⟨m.clock, m.offset⟩) ⊆ charset :=
    List.cons_subset.mpr ⟨by decide, Time.render_subset h⟩
  -- a time follows the day
  have hoctets : ¬ octets m.render ≤ 10 := by
    rw [octets_eq_length hcharset]
    unfold render renderWith
    rw [List.length_append, m.date.length_render, List.length_cons]
    omega
  have hdrop : m.render.drop (10 + 1) = Time.render ⟨m.clock, m.offset⟩ := by
    unfold render renderWith
    rw [← m.date.length_render, ← List.drop_drop, List.drop_left, List.drop_one, List.tail_cons]
  have hlength : dayLength? m.render = some 10 := dayLength?_append hrest
  have hday : day? 10 m.render = some m.date := Date.day?_render_append m.date _
  unfold read?
  rw [hreplaced]
  unfold moment?
  simp only [hlength, hday, Option.bind_eq_bind, Option.bind_some, if_neg hoctets, hdrop,
    Time.time?_render h]

end DateTime
end RecordQuery
