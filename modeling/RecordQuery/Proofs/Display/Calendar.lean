import Mathlib.Data.List.Basic
import RecordQuery.Proofs.Number.Digits
import RecordQuery.Value.Text

/-!
# Displayed dates, times and identifiers

Dates and times are displayed as calls with numbers between commas, an offset as a last argument,
and durations as calls with named numbers. The numbers end where a character is no digit, so they
can be told from what follows.

* `digits_append_inj` — a number is known from a text that begins with its digits.
* `Date.display_inj`, `Time.display_inj`, `DateTime.display_inj`, `Duration.display_inj`,
  `Offset.display_inj`, `Uuid.render_inj` — different values are displayed differently.
-/

namespace RecordQuery

open Text Numeral

/-! ### Numbers between commas -/

/-- A number ends where no digit follows. -/
theorem digits_append_inj {m n : Nat} {cs ds : List Char} (hcs : NoDigit cs) (hds : NoDigit ds)
    (h : Nat.toDigits 10 m ++ cs = Nat.toDigits 10 n ++ ds) : m = n ∧ cs = ds := by
  obtain ⟨us, hus, hlt, rfl⟩ := exists_digits (b := 10) (by decide) m
  obtain ⟨vs, hvs, hlt', rfl⟩ := exists_digits (b := 10) (by decide) n
  rw [hus, hvs] at h
  -- both numbers are the digits with which the common text begins
  have hread := spanDigits_chars hcs hlt
  rw [h, spanDigits_chars hds hlt'] at hread
  obtain ⟨rfl, rfl⟩ := Prod.mk.inj hread
  exact ⟨rfl, rfl⟩

/-- A number has at least one digit. -/
theorem not_noDigit_digits (n : Nat) (cs : List Char) : ¬ NoDigit (Nat.toDigits 10 n ++ cs) := by
  obtain ⟨ds, hds, hlt, -⟩ := exists_digits (b := 10) (by decide) n
  cases ds with
  | nil => exact absurd hds Nat.toDigits_ne_nil
  | cons d ds =>
    intro h
    rw [hds] at h
    have hnone := h d.digitChar rfl
    rw [digitValue?_digitChar (hlt d List.mem_cons_self)] at hnone
    cases hnone

/-- Numbers, each of them after a comma. -/
def furtherNumbers (ns : List Nat) : List Char :=
  ns.flatMap fun n => ',' :: ' ' :: Nat.toDigits 10 n

/-- What can stand after numbers: neither a digit nor a comma with a further number. -/
structure EndsNumbers (cs : List Char) : Prop where
  noDigit : NoDigit cs
  noNumber (ds : List Char) : cs = ',' :: ' ' :: ds → NoDigit ds

theorem noDigit_furtherNumbers (ns : List Nat) {cs : List Char} (h : NoDigit cs) :
    NoDigit (furtherNumbers ns ++ cs) := by
  cases ns with
  | nil => exact h
  | cons n ns => exact noDigit_cons rfl

theorem furtherNumbers_cons_append (n : Nat) (ns : List Nat) (cs : List Char) :
    furtherNumbers (n :: ns) ++ cs =
      ',' :: ' ' :: (Nat.toDigits 10 n ++ (furtherNumbers ns ++ cs)) := by
  simp [furtherNumbers]

/-- Numbers after commas are known from a text that begins with them. -/
theorem furtherNumbers_append_inj {cs ds : List Char} (hcs : EndsNumbers cs)
    (hds : EndsNumbers ds) :
    ∀ {ms ns : List Nat}, furtherNumbers ms ++ cs = furtherNumbers ns ++ ds → ms = ns ∧ cs = ds
  | [], [], h => ⟨rfl, h⟩
  | [], n :: ns, h => by
    -- a further number cannot be taken for the end, which begins with none
    rw [furtherNumbers_cons_append] at h
    exact absurd (hcs.noNumber _ h) (not_noDigit_digits n _)
  | m :: ms, [], h => by
    rw [furtherNumbers_cons_append] at h
    exact absurd (hds.noNumber _ h.symm) (not_noDigit_digits m _)
  | m :: ms, n :: ns, h => by
    rw [furtherNumbers_cons_append, furtherNumbers_cons_append] at h
    simp only [List.cons.injEq, true_and] at h
    obtain ⟨hfirst, hrest⟩ := digits_append_inj (noDigit_furtherNumbers ms hcs.noDigit)
      (noDigit_furtherNumbers ns hds.noDigit) h
    obtain ⟨htail, hend⟩ := furtherNumbers_append_inj hcs hds hrest
    exact ⟨by rw [hfirst, htail], hend⟩

theorem toList_join_cons (p : String) (ps : List String) :
    (join ", " (p :: ps)).toList = p.toList ++ ps.flatMap fun q => ',' :: ' ' :: q.toList := by
  have hcomma : ", ".toList = [',', ' '] := String.toList_ofList
  rw [join, String.toList_ofList, hcomma]
  induction ps generalizing p with
  | nil => simp
  | cons q qs ih =>
    have hrest := ih q
    rw [List.map_cons] at hrest
    rw [List.map_cons, List.map_cons, List.intercalate_cons_cons, hrest]
    simp

theorem toList_toString (n : Nat) : (toString n).toList = Nat.toDigits 10 n := by
  show (Nat.repr n).toList = _
  rw [Nat.repr_eq_ofList_toDigits, String.toList_ofList]

theorem bracketed_inj {opening closing : String} {ps qs : List String}
    (h : bracketed opening ps closing = bracketed opening qs closing) :
    join ", " ps = join ", " qs := by
  have hchars := congrArg String.toList h
  simp only [bracketed, String.toList_append, List.append_assoc] at hchars
  exact String.toList_inj.mp (List.append_cancel_right (List.append_cancel_left hchars))

/-! ### Durations -/

/-- Parts without commas are known from the text that they make up. -/
theorem join_inj : ∀ {ps qs : List String}, (∀ p ∈ ps, ',' ∉ p.toList) →
    (∀ q ∈ qs, ',' ∉ q.toList) → ps ≠ [] → qs ≠ [] → join ", " ps = join ", " qs → ps = qs
  | [], _, _, _, hne, _, _ => absurd rfl hne
  | _, [], _, _, _, hne, _ => absurd rfl hne
  | p :: ps, q :: qs, hps, hqs, _, _, h => by
    have hchars := congrArg String.toList h
    rw [toList_join_cons, toList_join_cons] at hchars
    -- the first part is what stands before a comma
    have hfirst : ∀ {r : String} (rs : List String), ',' ∉ r.toList →
        (r.toList ++ rs.flatMap fun t => ',' :: ' ' :: t.toList).takeWhile (· != ',') = r.toList := by
      intro r rs hr
      have hall : ∀ c ∈ r.toList, (c != ',') = true := by
        intro c hc
        rw [bne_iff_ne]
        rintro rfl
        exact hr hc
      rw [List.takeWhile_append_of_pos hall]
      cases rs <;> simp
    have hsame : p = q := by
      have htake := congrArg (List.takeWhile (· != ',')) hchars
      rw [hfirst ps (hps p List.mem_cons_self), hfirst qs (hqs q List.mem_cons_self)] at htake
      exact String.toList_inj.mp htake
    rw [hsame] at hchars
    have hrest := List.append_cancel_left hchars
    rw [hsame]
    congr 1
    cases ps with
    | nil =>
      cases qs with
      | nil => rfl
      | cons r rs => cases hrest
    | cons r rs =>
      cases qs with
      | nil => cases hrest
      | cons t ts =>
        refine join_inj (fun u hu => hps u (List.mem_cons_of_mem p hu))
          (fun u hu => hqs u (List.mem_cons_of_mem q hu)) (List.cons_ne_nil r rs)
          (List.cons_ne_nil t ts) (String.toList_inj.mp ?_)
        rw [toList_join_cons, toList_join_cons]
        simpa using hrest

/-- Two texts that are cut at the last place of a character. -/
theorem append_cons_inj_of_not_mem {α : Type} {c : α} {xs ys zs ws : List α} (hzs : c ∉ zs)
    (hws : c ∉ ws) (h : xs ++ c :: zs = ys ++ c :: ws) : xs = ys ∧ zs = ws := by
  obtain ⟨us, rfl, hrest⟩ | ⟨us, rfl, hrest⟩ := List.append_eq_append_iff.mp h
  · -- one first half is the longer one; then the other second half has the character in it
    cases us with
    | nil => exact ⟨(List.append_nil xs).symm, (List.cons_eq_cons.mp hrest).2⟩
    | cons u us =>
      rw [(List.cons_eq_cons.mp hrest).2] at hzs
      exact absurd (List.mem_append_right us List.mem_cons_self) hzs
  · cases us with
    | nil => exact ⟨List.append_nil ys, (List.cons_eq_cons.mp hrest).2.symm⟩
    | cons u us =>
      rw [(List.cons_eq_cons.mp hrest).2] at hws
      exact absurd (List.mem_append_right us List.mem_cons_self) hws

/-- A number has no comma and no equals sign. -/
theorem not_mem_signed {c : Char} (hdigit : c.isDigit = false) (hminus : c ≠ '-') (n : Int) :
    c ∉ signed n := by
  intro hc
  obtain hc | hc := List.mem_append.mp hc
  · split at hc
    · exact hminus (List.mem_singleton.mp hc)
    · cases hc
  · have hmem := Nat.isDigit_of_mem_toDigits (by decide) (Nat.le_refl 10) hc
    rw [hdigit] at hmem
    cases hmem

namespace Duration

/-- The named numbers of a duration that are not zero. -/
def amounts (d : Duration) : List (String × Int) :=
  [("days", d.days), ("seconds", (d.seconds : Int)), ("microseconds", (d.microseconds : Int))].filter
    fun a => a.2 != 0

/-- A named number. -/
def amountText (a : String × Int) : String := a.1 ++ "=" ++ String.ofList (signed a.2)

/-- The parts of a displayed duration. -/
def displayParts (d : Duration) : List String :=
  if d.amounts.isEmpty then ["0"] else d.amounts.map amountText

theorem display_eq (d : Duration) :
    d.display = bracketed "datetime.timedelta(" d.displayParts ")" := by
  -- a part is written unless it is zero
  have hpart : ∀ (name : String) (n : Int),
      (if n = 0 then [] else [name ++ "=" ++ String.ofList (signed n)]) =
        ([(name, n)].filter fun a => a.2 != 0).map amountText := by
    intro name n
    by_cases hn : n = 0
    · simp [hn]
    · simp [hn, amountText]
  unfold display
  simp only [hpart, ← List.map_append, ← List.filter_append, List.isEmpty_map]
  rfl

theorem name_of_mem_amounts {d : Duration} {a : String × Int} (ha : a ∈ d.amounts) :
    a.1 ∈ ["days", "seconds", "microseconds"] := by
  have hmem := (List.mem_filter.mp ha).1
  simp only [List.mem_cons, List.not_mem_nil, or_false] at hmem
  obtain rfl | rfl | rfl := hmem <;> simp

/-- A duration is the sum of its days, seconds and microseconds. -/
theorem ext_of_parts {d e : Duration} (hdays : d.days = e.days) (hseconds : d.seconds = e.seconds)
    (hmicros : d.microseconds = e.microseconds) : d = e := by
  -- the three parts are the digits of the number of microseconds, in mixed bases
  have hsame : d.micros = e.micros := by
    simp only [days, seconds, microseconds, microsPerDay, microsPerSecond] at *
    omega
  cases d
  cases e
  congr

theorem amounts_inj {d e : Duration} (h : d.amounts = e.amounts) : d = e := by
  -- an amount that is missing is zero
  have hlookup : ∀ f : Duration, (f.amounts.lookup "days").getD 0 = f.days ∧
      (f.amounts.lookup "seconds").getD 0 = f.seconds ∧
      (f.amounts.lookup "microseconds").getD 0 = f.microseconds := by
    intro f
    unfold amounts
    generalize (f.seconds : Int) = seconds
    generalize (f.microseconds : Int) = micros
    by_cases hdays : f.days = 0 <;> by_cases hseconds : seconds = 0 <;>
      by_cases hmicros : micros = 0 <;>
        simp [List.lookup_cons, hdays, hseconds, hmicros]
  obtain ⟨hdays, hseconds, hmicros⟩ := hlookup d
  obtain ⟨hdays', hseconds', hmicros'⟩ := hlookup e
  rw [h] at hdays hseconds hmicros
  refine ext_of_parts (hdays.symm.trans hdays') ?_ ?_
  · exact Int.ofNat_inj.mp (hseconds.symm.trans hseconds')
  · exact Int.ofNat_inj.mp (hmicros.symm.trans hmicros')

theorem amountText_inj : Function.Injective amountText := by
  intro a b h
  have hequals : "=".toList = ['='] := String.toList_ofList
  have hchars := congrArg String.toList h
  simp only [amountText, String.toList_append, hequals, String.toList_ofList, List.append_assoc,
    List.singleton_append] at hchars
  obtain ⟨hname, hnumber⟩ := append_cons_inj_of_not_mem (not_mem_signed rfl (by decide) a.2)
    (not_mem_signed rfl (by decide) b.2) hchars
  rw [Prod.ext_iff]
  exact ⟨String.toList_inj.mp hname, signed_inj hnumber⟩

theorem displayParts_spec (d : Duration) :
    d.displayParts ≠ [] ∧ ∀ p ∈ d.displayParts, ',' ∉ p.toList := by
  unfold displayParts
  split
  · exact ⟨List.cons_ne_nil _ _, by decide⟩
  · next hne =>
    refine ⟨fun hnil => hne (List.isEmpty_iff.mpr (List.map_eq_nil_iff.mp hnil)), fun p hp => ?_⟩
    obtain ⟨a, ha, rfl⟩ := List.mem_map.mp hp
    have hname : ∀ name ∈ ["days", "seconds", "microseconds"], ',' ∉ name.toList := by decide
    simp only [amountText, String.toList_append, String.toList_ofList, List.mem_append, not_or]
    exact ⟨⟨hname a.1 (name_of_mem_amounts ha), by decide⟩, not_mem_signed rfl (by decide) a.2⟩

/-- **Durations are displayed differently.** -/
theorem display_inj {d e : Duration} (h : d.display = e.display) : d = e := by
  rw [display_eq, display_eq] at h
  obtain ⟨hne, hcomma⟩ := d.displayParts_spec
  obtain ⟨hne', hcomma'⟩ := e.displayParts_spec
  have hparts := join_inj hcomma hcomma' hne hne' (bracketed_inj h)
  -- a duration of zero has a part that looks like no amount
  have hzero : ∀ a : String × Int, amountText a ≠ "0" := by
    intro a ha
    have hmem : '=' ∈ (amountText a).toList := by simp [amountText]
    rw [ha] at hmem
    exact absurd hmem (by decide)
  unfold displayParts at hparts
  apply amounts_inj
  split at hparts <;> split at hparts
  · next hd he => rw [List.isEmpty_iff.mp hd, List.isEmpty_iff.mp he]
  · obtain ⟨a, -, ha⟩ := List.mem_map.mp (hparts ▸ List.mem_singleton_self "0")
    exact absurd ha (hzero a)
  · obtain ⟨a, -, ha⟩ := List.mem_map.mp (hparts.symm ▸ List.mem_singleton_self "0")
    exact absurd ha (hzero a)
  · exact List.map_injective_iff.mpr amountText_inj hparts

end Duration

/-! ### Times of day and moments -/

/-- **Offsets are displayed differently.** -/
theorem Offset.display_inj {o u : Offset} (h : o.display = u.display) : o = u := by
  -- an offset is less than a day, so it is a duration too
  have hduration : ∀ o : Offset, ∃ d, Duration.ofMicroseconds? o.micros = some d ∧
      d.micros = o.micros := by
    intro o
    have hvalid : isDuration o.micros = true := by
      obtain ⟨hlower, hupper⟩ := Bool.and_eq_true_iff.mp o.valid
      have hlower := of_decide_eq_true hlower
      have hupper := of_decide_eq_true hupper
      simp only [microsPerDay, microsPerSecond] at hlower hupper
      rw [isDuration, Bool.and_eq_true]
      simp only [dayLimit, microsPerDay, microsPerSecond]
      exact ⟨decide_eq_true (by omega), decide_eq_true (by omega)⟩
    exact ⟨⟨o.micros, hvalid⟩, dif_pos hvalid, rfl⟩
  -- the name of the zero offset is no call
  have hutc : ∀ d : Duration,
      "datetime.timezone(" ++ d.display ++ ")" ≠ "datetime.timezone.utc" := by
    intro d hd
    have hclosing : ")".toList = [')'] := String.toList_ofList
    have hlast := congrArg (fun s : String => s.toList.getLast?) hd
    simp only [String.toList_append, hclosing, List.getLast?_concat] at hlast
    exact absurd hlast (by decide)
  have hsame : o.micros = u.micros := by
    obtain ⟨d, hd, hmicros⟩ := hduration o
    obtain ⟨e, he, hmicros'⟩ := hduration u
    simp only [display, hd, he] at h
    split at h <;> split at h
    · omega
    · exact absurd h.symm (hutc e)
    · exact absurd h (hutc d)
    · have hchars := congrArg String.toList h
      simp only [String.toList_append] at hchars
      have hshown := String.toList_inj.mp
        (List.append_cancel_left (List.append_cancel_right hchars))
      rw [← hmicros, ← hmicros', Duration.display_inj hshown]
  cases o
  cases u
  congr

/-- An offset after further numbers. -/
def offsetTail (o : Option Offset) : List Char :=
  (displayOffset o).flatMap fun p => ',' :: ' ' :: p.toList

theorem endsNumbers_offsetTail (o : Option Offset) : EndsNumbers (offsetTail o ++ [')']) := by
  -- the offset has a name before it, which begins with a letter
  have hword : "tzinfo=".toList = ['t', 'z', 'i', 'n', 'f', 'o', '='] := String.toList_ofList
  cases o with
  | none => exact ⟨noDigit_cons rfl, fun _ h => by cases h⟩
  | some o =>
    refine ⟨noDigit_cons rfl, fun ds h => ?_⟩
    simp only [offsetTail, displayOffset, List.flatMap_cons, List.flatMap_nil, List.append_nil,
      List.cons_append, String.toList_append, hword, List.cons.injEq, true_and] at h
    rw [← h]
    exact noDigit_cons rfl

theorem offsetTail_inj {o u : Option Offset} (h : offsetTail o = offsetTail u) : o = u := by
  cases o with
  | none =>
    cases u with
    | none => rfl
    | some u => cases h
  | some o =>
    cases u with
    | none => cases h
    | some u =>
      simp only [offsetTail, displayOffset, List.flatMap_cons, List.flatMap_nil, List.append_nil,
        String.toList_append, List.cons.injEq, true_and] at h
      rw [Offset.display_inj (String.toList_inj.mp (List.append_cancel_left h))]

/-- **Calls with numbers** and possibly an offset are known from their text. -/
theorem call_inj {opening : String} {m n : Nat} {ms ns : List Nat} {o u : Option Offset}
    (h : bracketed opening ((m :: ms).map toString ++ displayOffset o) ")" =
      bracketed opening ((n :: ns).map toString ++ displayOffset u) ")") :
    m :: ms = n :: ns ∧ o = u := by
  have hjoin : ∀ (k : Nat) (ks : List Nat) (v : Option Offset),
      (join ", " ((k :: ks).map toString ++ displayOffset v)).toList =
        Nat.toDigits 10 k ++ (furtherNumbers ks ++ offsetTail v) := by
    intro k ks v
    rw [List.map_cons, List.cons_append, toList_join_cons, toList_toString, List.flatMap_append]
    congr 2
    rw [furtherNumbers, List.flatMap_map]
    simp only [toList_toString]
  have hchars := congrArg (fun s : String => s.toList ++ [')']) (bracketed_inj h)
  simp only [hjoin, List.append_assoc] at hchars
  -- no number runs on into what follows it
  obtain ⟨hfirst, hrest⟩ := digits_append_inj
    (noDigit_furtherNumbers ms (endsNumbers_offsetTail o).noDigit)
    (noDigit_furtherNumbers ns (endsNumbers_offsetTail u).noDigit) hchars
  obtain ⟨hnumbers, hoffset⟩ := furtherNumbers_append_inj (endsNumbers_offsetTail o)
    (endsNumbers_offsetTail u) hrest
  exact ⟨by rw [hfirst, hnumbers], offsetTail_inj (List.append_cancel_right hoffset)⟩

theorem Clock.displayParts_inj {c d : Clock} (h : c.displayParts = d.displayParts) : c = d := by
  have hparts : c.hour = d.hour ∧ c.minute = d.minute ∧ c.second = d.second ∧ c.micro = d.micro := by
    unfold displayParts at h
    -- trailing zeros are left out, so the number of parts tells which parts they are
    by_cases hsecond : c.second = 0 <;> by_cases hmicro : c.micro = 0 <;>
      by_cases hsecond' : d.second = 0 <;> by_cases hmicro' : d.micro = 0 <;>
        simp_all
  obtain ⟨hhour, hminute, hsecond, hmicro⟩ := hparts
  cases c
  cases d
  congr

/-- **Times of day are displayed differently.** -/
theorem Time.display_inj {t u : Time} (h : t.display = u.display) : t = u := by
  obtain ⟨clock, offset⟩ := t
  obtain ⟨clock', offset'⟩ := u
  obtain ⟨hnumbers, hoffset⟩ := call_inj h
  have hclock : clock = clock' := Clock.displayParts_inj hnumbers
  rw [hclock, show offset = offset' from hoffset]

theorem Date.ext_of_parts {d e : Date} (hyear : d.year = e.year) (hmonth : d.month = e.month)
    (hday : d.day = e.day) : d = e := by
  cases d
  cases e
  congr

theorem Date.display_eq (d : Date) : d.display =
    bracketed "datetime.date(" ([d.year, d.month, d.day].map toString ++ displayOffset none) ")" := by
  rw [displayOffset, List.append_nil]
  rfl

/-- **Days are displayed differently.** -/
theorem Date.display_inj {d e : Date} (h : d.display = e.display) : d = e := by
  rw [display_eq, display_eq] at h
  obtain ⟨hnumbers, -⟩ := call_inj h
  simp only [List.cons.injEq, and_true] at hnumbers
  obtain ⟨hyear, hmonth, hday⟩ := hnumbers
  exact ext_of_parts hyear hmonth hday

/-- **Moments are displayed differently.** -/
theorem DateTime.display_inj {m n : DateTime} (h : m.display = n.display) : m = n := by
  obtain ⟨date, clock, offset⟩ := m
  obtain ⟨date', clock', offset'⟩ := n
  obtain ⟨hnumbers, hoffset⟩ := call_inj h
  obtain ⟨hyear, hnumbers⟩ := List.cons_eq_cons.mp hnumbers
  obtain ⟨hmonth, hnumbers⟩ := List.cons_eq_cons.mp hnumbers
  obtain ⟨hday, hnumbers⟩ := List.cons_eq_cons.mp hnumbers
  have hclock : clock = clock' := Clock.displayParts_inj hnumbers
  have hdate : date = date' := Date.ext_of_parts hyear hmonth hday
  rw [hdate, hclock, show offset = offset' from hoffset]

/-! ### Identifiers -/

/-- The digits are what is left of an identifier without its dashes. -/
theorem Uuid.filter_render (u : Uuid) : u.render.filter (· != '-') = u.hexDigits := by
  -- no digit is a dash
  have hdash : ∀ cs : List Char, (∀ c ∈ cs, c ∈ u.hexDigits) → cs.filter (· != '-') = cs := by
    intro cs hcs
    refine List.filter_eq_self.mpr fun c hc => ?_
    have hdigit := isSome_digitIn? (b := 16) (by decide) (Nat.le_refl 16) (hcs c hc)
    rw [bne_iff_ne]
    rintro rfl
    cases hdigit
  have htake : ∀ i j, ((u.hexDigits.drop i).take j).filter (· != '-') =
      (u.hexDigits.drop i).take j := fun i j =>
    hdash _ fun c hc => List.mem_of_mem_drop (List.mem_of_mem_take hc)
  have hfirst := htake 0 8
  have hlast := hdash (u.hexDigits.drop 20) fun c hc => List.mem_of_mem_drop hc
  rw [List.drop_zero] at hfirst
  simp only [render, List.filter_append, List.filter_cons, hfirst, htake, hlast, bne_self_eq_false,
    Bool.false_eq_true, if_false]
  -- the five groups follow one another
  have hgroup : ∀ i j, (u.hexDigits.drop i).take j ++ u.hexDigits.drop (i + j) =
      u.hexDigits.drop i := by
    intro i j
    rw [← List.drop_drop]
    exact List.take_append_drop j _
  rw [List.append_assoc, List.append_assoc, List.append_assoc, hgroup 16 4, hgroup 12 4, hgroup 8 4]
  exact List.take_append_drop 8 u.hexDigits

/-- **Identifiers are displayed differently.** -/
theorem Uuid.render_inj {u v : Uuid} (h : u.render = v.render) : u = v := by
  have hdigits : u.hexDigits = v.hexDigits := by
    rw [← filter_render, ← filter_render, h]
  have hbits := BitVec.eq_of_toNat_eq (padded_inj (by decide) (Nat.le_refl 16) hdigits)
  cases u
  cases v
  congr

end RecordQuery
