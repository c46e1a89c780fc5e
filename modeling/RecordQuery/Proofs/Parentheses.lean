import RecordQuery.Filter.Grammar
import RecordQuery.Proofs.Outcome

/-!
# Parentheses

The scanners of the query grammar count parentheses while they walk over a text. Here each of them
is matched with a property of the text that mentions no walk, only how many parentheses of either
kind stand before a place:

* `Closes depth cs` — no prefix of `cs` closes more than the `depth` parentheses open before it and
  those it opens itself, and at the end of `cs` none is open;
* `Guarded depth cs` — every comma of `cs` stands inside parentheses;
* `Parts body parts` — the texts `parts` are what the commas of `body` outside parentheses leave.

`closing_eq_some_iff`, `splitFrom_eq_ok_iff` and `imbalanceFrom_eq_none_iff` are the bridges. All of
them go by the first character, so both properties come with one lemma for each kind of first
character.
-/

namespace RecordQuery

/-! ### Closing what is open -/

/-- The text closes all its parentheses and the `depth` ones that are open where it begins, and
never closes more than are open. -/
def Closes (depth : Nat) (cs : List Char) : Prop :=
  (∀ p, p <+: cs → p.count ')' ≤ depth + p.count '(') ∧ cs.count ')' = depth + cs.count '('

/-- The parentheses of the text balance. -/
abbrev Balanced (cs : List Char) : Prop := Closes 0 cs

@[simp] theorem closes_nil_iff (depth : Nat) : Closes depth [] ↔ depth = 0 := by
  simp [Closes, List.prefix_nil, eq_comm]

/-- A prefix of a text with a first character is empty, or that character and a prefix of the
rest. -/
private theorem forall_prefix_cons {c : Char} {cs : List Char} {P : List Char → Prop} :
    (∀ p, p <+: c :: cs → P p) ↔ P [] ∧ ∀ p, p <+: cs → P (c :: p) := by
  constructor
  · intro h
    exact ⟨h [] (List.nil_prefix), fun p hp => h (c :: p) (List.cons_prefix_cons.mpr ⟨rfl, hp⟩)⟩
  · rintro ⟨hnil, hcons⟩ p hp
    rcases List.prefix_cons_iff.mp hp with rfl | ⟨q, rfl, hq⟩
    · exact hnil
    · exact hcons q hq

@[simp] theorem closes_open_iff (depth : Nat) (cs : List Char) :
    Closes depth ('(' :: cs) ↔ Closes (depth + 1) cs := by
  simp only [Closes, forall_prefix_cons, List.count_nil, List.count_cons]
  simp [Nat.add_assoc, Nat.add_comm 1]

@[simp] theorem not_closes_zero_close (cs : List Char) : ¬ Closes 0 (')' :: cs) := by
  rintro ⟨h, -⟩
  have := h [')'] (by simp)
  simp at this

@[simp] theorem closes_succ_close_iff (depth : Nat) (cs : List Char) :
    Closes (depth + 1) (')' :: cs) ↔ Closes depth cs := by
  simp only [Closes, forall_prefix_cons, List.count_nil, List.count_cons]
  simp [Nat.add_right_comm]

theorem closes_other_iff {c : Char} (hopen : c ≠ '(') (hclose : c ≠ ')') (depth : Nat)
    (cs : List Char) : Closes depth (c :: cs) ↔ Closes depth cs := by
  simp [Closes, forall_prefix_cons, List.count_cons_of_ne hopen, List.count_cons_of_ne hclose]

/-- After a text that closes `depth` parentheses, only those open before them are left. -/
theorem Closes.append_iff {depth : Nat} {cs : List Char} (h : Closes depth cs) (more : Nat)
    (ds : List Char) : Closes (depth + more) (cs ++ ds) ↔ Closes more ds := by
  induction cs generalizing depth with
  | nil =>
    rw [closes_nil_iff] at h
    subst h
    simp
  | cons c cs ih =>
    by_cases hopen : c = '('
    · subst hopen
      rw [closes_open_iff] at h
      rw [List.cons_append, closes_open_iff, ← ih h, Nat.add_right_comm]
    by_cases hclose : c = ')'
    · subst hclose
      cases depth with
      -- nothing is left to be closed here
      | zero => exact absurd h (not_closes_zero_close cs)
      | succ depth =>
        rw [closes_succ_close_iff] at h
        rw [List.cons_append, Nat.add_right_comm, closes_succ_close_iff, ih h]
    · rw [closes_other_iff hopen hclose] at h
      rw [List.cons_append, closes_other_iff hopen hclose, ih h]

theorem Balanced.append_iff {cs : List Char} (h : Balanced cs) (depth : Nat) (ds : List Char) :
    Closes depth (cs ++ ds) ↔ Closes depth ds := by
  have := Closes.append_iff h depth ds
  rwa [Nat.zero_add] at this

theorem Balanced.append {cs ds : List Char} (hc : Balanced cs) (hd : Balanced ds) :
    Balanced (cs ++ ds) :=
  (hc.append_iff 0 ds).mpr hd

theorem Balanced.enclosed {cs : List Char} (h : Balanced cs) : Balanced ('(' :: cs ++ [')']) := by
  show Closes 0 ('(' :: (cs ++ [')']))
  rw [closes_open_iff, h.append_iff]
  simp

theorem balanced_of_forall {cs : List Char} (h : ∀ c ∈ cs, c ≠ '(' ∧ c ≠ ')') : Balanced cs := by
  induction cs with
  | nil => simp
  | cons c cs ih =>
    obtain ⟨hopen, hclose⟩ := h c List.mem_cons_self
    rw [Balanced, closes_other_iff hopen hclose]
    exact ih fun d hd => h d (List.mem_cons_of_mem c hd)

/-- A text without parentheses leaves open what is open before it. -/
theorem closes_append_of_forall {ds : List Char} (h : ∀ d ∈ ds, d ≠ '(' ∧ d ≠ ')') (depth : Nat)
    (cs : List Char) : Closes depth (cs ++ ds) ↔ Closes depth cs := by
  induction cs generalizing depth with
  | nil =>
    rw [List.nil_append, closes_nil_iff]
    -- what has no parentheses is balanced, so it closes as much as nothing does
    have hend := Closes.append_iff (balanced_of_forall h) depth []
    rwa [Nat.zero_add, List.append_nil, closes_nil_iff] at hend
  | cons c cs ih =>
    rw [List.cons_append]
    by_cases hopen : c = '('
    · rw [hopen, closes_open_iff, closes_open_iff, ih]
    by_cases hclose : c = ')'
    · subst hclose
      cases depth with
      | zero => simp
      | succ depth => rw [closes_succ_close_iff, closes_succ_close_iff, ih]
    · rw [closes_other_iff hopen hclose, closes_other_iff hopen hclose, ih]

/-! ### Commas inside parentheses -/

/-- Every comma of the text stands inside parentheses, its own or one of the `depth` ones that are
open where it begins. -/
def Guarded (depth : Nat) (cs : List Char) : Prop :=
  ∀ p q, cs = p ++ ',' :: q → p.count ')' < depth + p.count '('

@[simp] theorem guarded_nil (depth : Nat) : Guarded depth [] := by
  intro p q h
  simp at h

/-- A comma of a text with a first character is that character, or a comma of the rest. -/
private theorem guarded_cons_iff (depth : Nat) (c : Char) (cs : List Char) :
    Guarded depth (c :: cs) ↔
      (c = ',' → 0 < depth) ∧
        ∀ p q, cs = p ++ ',' :: q → (c :: p).count ')' < depth + (c :: p).count '(' := by
  constructor
  · intro h
    refine ⟨fun hc => ?_, fun p q hpq => h (c :: p) q (by rw [hpq, List.cons_append])⟩
    have := h [] cs (by rw [hc, List.nil_append])
    simpa using this
  · rintro ⟨hfirst, hrest⟩ p q hpq
    cases p with
    | nil =>
      rw [List.nil_append, List.cons.injEq] at hpq
      simpa using hfirst hpq.1
    | cons d p =>
      rw [List.cons_append, List.cons.injEq] at hpq
      obtain ⟨rfl, hpq⟩ := hpq
      exact hrest p q hpq

@[simp] theorem guarded_open_iff (depth : Nat) (cs : List Char) :
    Guarded depth ('(' :: cs) ↔ Guarded (depth + 1) cs := by
  rw [guarded_cons_iff]
  simp [Guarded, Nat.add_assoc, Nat.add_comm 1]

@[simp] theorem guarded_succ_close_iff (depth : Nat) (cs : List Char) :
    Guarded (depth + 1) (')' :: cs) ↔ Guarded depth cs := by
  rw [guarded_cons_iff]
  simp [Guarded, Nat.add_right_comm]

@[simp] theorem guarded_comma_iff (depth : Nat) (cs : List Char) :
    Guarded depth (',' :: cs) ↔ 0 < depth ∧ Guarded depth cs := by
  rw [guarded_cons_iff]
  simp [Guarded]

theorem guarded_other_iff {c : Char} (hopen : c ≠ '(') (hclose : c ≠ ')') (hcomma : c ≠ ',')
    (depth : Nat) (cs : List Char) : Guarded depth (c :: cs) ↔ Guarded depth cs := by
  rw [guarded_cons_iff]
  simp [Guarded, List.count_cons_of_ne hopen, List.count_cons_of_ne hclose, hcomma]

theorem guarded_of_notMem {cs : List Char} (h : ',' ∉ cs) (depth : Nat) : Guarded depth cs := by
  intro p q hpq
  exact absurd (by simp [hpq]) h

/-- Behind a balanced text, commas stand inside parentheses as they do at the place before it. -/
theorem Guarded.append {cs ds : List Char} (hc : Balanced cs) (hg : Guarded 0 cs) {depth : Nat}
    (hd : Guarded depth ds) : Guarded depth (cs ++ ds) := by
  intro p q hpq
  rcases List.append_eq_append_iff.mp hpq with ⟨r, rfl, hr⟩ | ⟨r, rfl, hr⟩
  · -- the comma stands in `ds`, and `cs` opens as much as it closes
    have hlast := hd r q hr
    have hall := hc.2
    simp only [List.count_append]
    omega
  · cases r with
    | nil =>
      have hlast := hd [] q (by simpa using hr.symm)
      have hall := hc.2
      simp only [List.append_nil, List.count_nil] at hlast hall
      omega
    | cons d r =>
      rw [List.cons_append, List.cons.injEq] at hr
      obtain ⟨rfl, -⟩ := hr
      have hlast := hg p r rfl
      omega

/-- Between parentheses every comma is guarded. -/
theorem Balanced.guarded_enclosed {cs : List Char} (h : Balanced cs) (depth : Nat) :
    Guarded depth ('(' :: cs ++ [')']) := by
  rw [List.cons_append, guarded_open_iff]
  intro p q hpq
  rcases List.append_eq_append_iff.mp hpq with ⟨r, rfl, hr⟩ | ⟨r, rfl, hr⟩
  · cases r with
    | nil => simp at hr
    | cons d r => simp at hr
  · have := h.1 p (List.prefix_append p r)
    omega

/-! ### The scanners -/

/-- **The closing parenthesis.** It is found exactly where the text before it closes what was open
and no more. -/
theorem closing_eq_some_iff (depth : Nat) (cs body rest : List Char) :
    closing depth cs = some (body, rest) ↔ cs = body ++ ')' :: rest ∧ Closes depth body := by
  induction cs generalizing depth body with
  | nil => simp [closing]
  | cons c cs ih =>
    unfold closing
    by_cases hclose : c = ')'
    · subst hclose
      cases depth with
      | zero =>
        -- the scan stops here, and no longer body can begin with this parenthesis
        cases body with
        | nil => simp [eq_comm]
        | cons d body =>
          simp only [if_true, Option.some.injEq, Prod.mk.injEq, List.cons_append,
            List.cons.injEq, reduceCtorEq, false_and, false_iff, not_and]
          rintro ⟨rfl, -⟩
          exact not_closes_zero_close body
      | succ depth =>
        cases body with
        | nil => simp
        | cons d body =>
          by_cases hd : d = ')'
          · subst hd
            simp [ih]
          · simp [Ne.symm hd]
    · cases body with
      | nil => simp [hclose]
      | cons d body =>
        by_cases hd : c = d
        · subst hd
          by_cases hopen : c = '('
          · subst hopen
            simp [ih]
          · simp [hclose, hopen, ih, closes_other_iff hopen hclose]
        · simp [hclose, hd]

/-- **The balance of a value.** The scan finds no fault exactly when all that is open is closed. -/
theorem imbalanceFrom_eq_none_iff (depth index : Nat) (cs : List Char) :
    imbalanceFrom depth index cs = none ↔ Closes depth cs := by
  induction cs generalizing depth index with
  | nil => simp [imbalanceFrom]
  | cons c cs ih =>
    rw [imbalanceFrom]
    by_cases hopen : c = '('
    · subst hopen
      simp [ih]
    by_cases hclose : c = ')'
    · subst hclose
      cases depth with
      -- here the scanner stops, and nothing can be closed
      | zero => simp
      | succ depth => simp [ih]
    · simp [hopen, hclose, ih, closes_other_iff hopen hclose]

/-! ### Arguments -/

/-- The parts that the commas of a text outside parentheses leave: at least one, and none with a
parenthesis that another part closes. -/
structure Parts (body : List Char) (parts : List (List Char)) : Prop where
  nonempty : parts ≠ []
  joined : [','].intercalate parts = body
  balanced : ∀ p ∈ parts, Balanced p
  guarded : ∀ p ∈ parts, Guarded 0 p

/-- What stands before the first of some parts, put in front of it character by character. -/
private theorem foldr_consFirst (cs p : List Char) (ps : List (List Char)) :
    cs.foldr consFirst (p :: ps) = (cs ++ p) :: ps := by
  induction cs with
  | nil => rfl
  | cons c cs ih => rw [List.foldr_cons, ih, consFirst, List.cons_append]

/-- Walking over a text that closes what is open and guards its commas cuts nothing. -/
private theorem splitFrom_append {depth : Nat} {cs : List Char} (hc : Closes depth cs)
    (hg : Guarded depth cs) (index : Nat) (ds : List Char) :
    splitFrom depth index (cs ++ ds) =
      (splitFrom 0 (index + cs.length) ds).map fun ps => cs.foldr consFirst ps := by
  induction cs generalizing depth index with
  | nil =>
    rw [closes_nil_iff] at hc
    subst hc
    rw [List.nil_append, List.length_nil, Nat.add_zero]
    cases splitFrom 0 index ds <;> rfl
  | cons c cs ih =>
    have hlength : index + (c :: cs).length = index + 1 + cs.length := by
      rw [List.length_cons]
      omega
    -- in every case the walk goes on, and puts the character in front of what it gets
    have hcons : ∀ x : Except Nat (List (List Char)),
        (x.map fun ps => cs.foldr consFirst ps).map (consFirst c) =
          x.map fun ps => (c :: cs).foldr consFirst ps := by
      intro x
      cases x <;> rfl
    rw [List.cons_append, splitFrom, hlength]
    by_cases hopen : c = '('
    · subst hopen
      rw [closes_open_iff] at hc
      rw [guarded_open_iff] at hg
      rw [if_pos rfl, ih hc hg, hcons]
    by_cases hclose : c = ')'
    · subst hclose
      cases depth with
      | zero => exact absurd hc (not_closes_zero_close cs)
      | succ depth =>
        rw [closes_succ_close_iff] at hc
        rw [guarded_succ_close_iff] at hg
        rw [if_neg (by decide), if_pos rfl, if_neg (by omega), Nat.add_sub_cancel, ih hc hg, hcons]
    rw [closes_other_iff hopen hclose] at hc
    by_cases hcomma : c = ','
    · -- a guarded comma stands inside parentheses, where nothing is cut
      subst hcomma
      rw [guarded_comma_iff] at hg
      obtain ⟨hdepth, hg⟩ := hg
      rw [if_neg hopen, if_neg hclose, if_neg (by omega), ih hc hg, hcons]
    · rw [guarded_other_iff hopen hclose hcomma] at hg
      rw [if_neg hopen, if_neg hclose, if_neg (by simp [hcomma]), ih hc hg, hcons]

/-- Parts that are joined by commas are cut apart again. -/
private theorem splitFrom_intercalate {parts : List (List Char)} (hne : parts ≠ [])
    (hb : ∀ p ∈ parts, Balanced p) (hg : ∀ p ∈ parts, Guarded 0 p) (index : Nat) :
    splitFrom 0 index ([','].intercalate parts) = .ok parts := by
  induction parts generalizing index with
  | nil => exact absurd rfl hne
  | cons p ps ih =>
    have hfirst := splitFrom_append (hb p List.mem_cons_self) (hg p List.mem_cons_self) index
    cases ps with
    | nil =>
      have hend := hfirst []
      rw [List.append_nil] at hend
      rw [List.intercalate_singleton, hend]
      simp [splitFrom, Except.map, foldr_consFirst]
    | cons q qs =>
      -- the first part ends at a comma that is outside of parentheses
      have hrest := ih (List.cons_ne_nil q qs) (fun r hr => hb r (List.mem_cons_of_mem p hr))
        (fun r hr => hg r (List.mem_cons_of_mem p hr)) (index + p.length + 1)
      rw [List.intercalate_cons_cons, List.append_assoc, hfirst, List.singleton_append,
        splitFrom, if_neg (by decide), if_neg (by decide), if_pos ⟨rfl, rfl⟩, hrest]
      simp [Except.map, foldr_consFirst]

/-- A text that begins inside `depth` parentheses is cut into a part that closes them and parts that
balance, at commas of which the parts have none outside parentheses. -/
private structure CutInto (depth : Nat) (cs p : List Char) (ps : List (List Char)) : Prop where
  join : [','].intercalate (p :: ps) = cs
  closes : Closes depth p
  guarded : Guarded depth p
  rest : ∀ q ∈ ps, Balanced q ∧ Guarded 0 q

/-- A character in front of a text comes before the first part, at the depth before it. -/
private theorem CutInto.cons {d depth : Nat} {c : Char} {cs p : List Char} {ps : List (List Char)}
    (h : CutInto d cs p ps) (closes : Closes d p → Closes depth (c :: p))
    (guarded : Guarded d p → Guarded depth (c :: p)) : CutInto depth (c :: cs) (c :: p) ps where
  join := by simp [← h.join]
  closes := closes h.closes
  guarded := guarded h.guarded
  rest := h.rest

/-- A comma outside parentheses ends an empty part. -/
private theorem CutInto.comma {cs p : List Char} {ps : List (List Char)} (h : CutInto 0 cs p ps) :
    CutInto 0 (',' :: cs) [] (p :: ps) where
  join := by simp [← h.join]
  closes := (closes_nil_iff 0).mpr rfl
  guarded := guarded_nil 0
  rest := List.forall_mem_cons.mpr ⟨⟨h.closes, h.guarded⟩, h.rest⟩

/-- The parts that are cut are those between the commas; the first begins at the given depth. The
induction follows the walk, which looks at the kind of each character. -/
private theorem splitFrom_sound {depth index : Nat} {cs : List Char} {parts : List (List Char)}
    (h : splitFrom depth index cs = .ok parts) :
    ∃ p ps, parts = p :: ps ∧ CutInto depth cs p ps := by
  induction cs generalizing depth index parts with
  | nil =>
    rw [splitFrom] at h
    split at h
    · next hdepth =>
      cases h
      exact ⟨[], [], rfl, rfl, (closes_nil_iff depth).mpr hdepth, guarded_nil depth,
        List.forall_mem_nil _⟩
    · cases h
  | cons c cs ih =>
    rw [splitFrom] at h
    by_cases hopen : c = '('
    · subst hopen
      rw [if_pos rfl] at h
      obtain ⟨found, hfound, rfl⟩ := map_eq_ok_iff.mp h
      obtain ⟨p, ps, rfl, hcut⟩ := ih hfound
      exact ⟨_, ps, rfl, hcut.cons (closes_open_iff depth p).mpr (guarded_open_iff depth p).mpr⟩
    by_cases hclose : c = ')'
    · subst hclose
      rw [if_neg hopen, if_pos rfl] at h
      cases depth with
      | zero => cases h
      | succ depth =>
        -- the walk has not failed, so the parenthesis closes one that is open
        rw [if_neg (Nat.succ_ne_zero depth), Nat.add_sub_cancel] at h
        obtain ⟨found, hfound, rfl⟩ := map_eq_ok_iff.mp h
        obtain ⟨p, ps, rfl, hcut⟩ := ih hfound
        exact ⟨_, ps, rfl, hcut.cons (closes_succ_close_iff depth p).mpr
          (guarded_succ_close_iff depth p).mpr⟩
    rw [if_neg hopen, if_neg hclose] at h
    by_cases hcut : c = ',' ∧ depth = 0
    · obtain ⟨rfl, rfl⟩ := hcut
      rw [if_pos ⟨rfl, rfl⟩] at h
      obtain ⟨found, hfound, rfl⟩ := map_eq_ok_iff.mp h
      obtain ⟨p, ps, rfl, hcut⟩ := ih hfound
      exact ⟨[], p :: ps, rfl, hcut.comma⟩
    · rw [if_neg hcut] at h
      obtain ⟨found, hfound, rfl⟩ := map_eq_ok_iff.mp h
      obtain ⟨p, ps, rfl, hrest⟩ := ih hfound
      refine ⟨_, ps, rfl, hrest.cons (closes_other_iff hopen hclose depth p).mpr fun hg => ?_⟩
      by_cases hcomma : c = ','
      · -- a comma that does not cut stands inside parentheses
        subst hcomma
        have hdepth : 0 < depth := Nat.pos_of_ne_zero fun hzero => hcut ⟨rfl, hzero⟩
        exact (guarded_comma_iff depth p).mpr ⟨hdepth, hg⟩
      · exact (guarded_other_iff hopen hclose hcomma depth p).mpr hg

/-- **The arguments of a text.** The scan succeeds exactly on the texts that have parts. -/
theorem splitFrom_eq_ok_iff (index : Nat) (cs : List Char) (parts : List (List Char)) :
    splitFrom 0 index cs = .ok parts ↔ Parts cs parts := by
  constructor
  · intro h
    obtain ⟨p, ps, rfl, hcut⟩ := splitFrom_sound h
    exact ⟨List.cons_ne_nil p ps, hcut.join,
      List.forall_mem_cons.mpr ⟨hcut.closes, fun q hq => (hcut.rest q hq).1⟩,
      List.forall_mem_cons.mpr ⟨hcut.guarded, fun q hq => (hcut.rest q hq).2⟩⟩
  · rintro ⟨hne, rfl, hb, hg⟩
    exact splitFrom_intercalate hne hb hg index

/-- A text that has parts balances. -/
theorem Parts.balanced_body {body : List Char} {parts : List (List Char)} (h : Parts body parts) :
    Balanced body := by
  obtain ⟨-, rfl, hb, -⟩ := h
  induction parts with
  | nil => simp
  | cons p ps ih =>
    have hp := hb p List.mem_cons_self
    have hps := ih fun q hq => hb q (List.mem_cons_of_mem p hq)
    cases ps with
    | nil => simpa using hp
    | cons q qs =>
      rw [List.intercalate_cons_cons, List.append_assoc]
      -- the comma between is no parenthesis
      refine hp.append ?_
      rw [List.singleton_append, Balanced, closes_other_iff (by decide) (by decide)]
      exact hps

/-- A part of a text stands in it. -/
theorem Parts.isInfix {body : List Char} {parts : List (List Char)} (h : Parts body parts) :
    ∀ p ∈ parts, p <:+: body := by
  obtain ⟨-, rfl, -, -⟩ := h
  induction parts with
  | nil => simp
  | cons q qs ih =>
    cases qs with
    | nil => simp
    | cons r rs =>
      intro p hp
      rw [List.intercalate_cons_cons]
      rcases List.mem_cons.mp hp with rfl | hp
      · rw [List.append_assoc]
        exact (List.prefix_append p _).isInfix
      · exact (ih p hp).trans (List.suffix_append _ _).isInfix

end RecordQuery
