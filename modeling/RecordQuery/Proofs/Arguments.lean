import Mathlib.Data.Nat.Find
import Mathlib.Order.Bounds.Basic
import RecordQuery.Proofs.Stability

/-!
# Commas and loose parentheses

Two scanners of the query grammar count parentheses while they walk over a text: one cuts it at its
commas, the other checks a value. Here is what they answer on every text, in terms of which
parenthesis closes which, and of no walk.

A parenthesis closes one that was opened before it if what stands between the two balances. The
first one that closes nothing is easier to find than any other: it stands behind a text that
balances, and this is where both scanners stop.

* `strays`, `FaultAt` — the parentheses that close nothing, and the place of the fault.
* `imbalanceFrom_eq_some_iff`, `splitFrom_eq_error_iff` — both scanners report this place.
* `outerCommas`, `cutAt` — the commas outside parentheses, and the texts between them.
* `splitArguments_exact` — the arguments of every text.
* `checkValue_reads_back` — a value passes the check exactly if it is read back from a call.
-/

namespace RecordQuery

open Text

/-! ### Parentheses that close nothing -/

/-- A closing parenthesis behind this text closes none of those that are opened in it: what stands
behind each of them does not balance. -/
def ClosesNothing (before : List Char) : Prop := ∀ p q, before = p ++ '(' :: q → ¬ Balanced q

/-- The places of the parentheses that close nothing. -/
def strays (cs : List Char) : Set Nat :=
  {i | ∃ before after, cs = before ++ ')' :: after ∧ before.length = i ∧ ClosesNothing before}

/-- The place of the fault in a text whose parentheses do not balance: that of the first parenthesis
that closes nothing or, if there is none, the end of the text. -/
def FaultAt (cs : List Char) (i : Nat) : Prop :=
  IsLeast (strays cs) i ∨ strays cs = ∅ ∧ i = cs.length

theorem FaultAt.unique {cs : List Char} {i j : Nat} (hi : FaultAt cs i) (hj : FaultAt cs j) :
    i = j := by
  obtain hi | ⟨hnone, rfl⟩ := hi
  · obtain hj | ⟨hnone, -⟩ := hj
    · exact hi.unique hj
    · exact absurd hi.1 (by simp [hnone])
  · obtain hj | ⟨-, rfl⟩ := hj
    · exact absurd hj.1 (by simp [hnone])
    · rfl

/-- Where more is opened than closed, some parenthesis is open, and what stands behind it
balances. -/
theorem exists_open_of_count_lt {cs : List Char} (h : ∀ p, p <+: cs → p.count ')' ≤ p.count '(')
    (hlt : cs.count ')' < cs.count '(') : ∃ p q, cs = p ++ '(' :: q ∧ Balanced q := by
  induction hn : cs.length using Nat.strong_induction_on generalizing cs with
  | _ n ih =>
    obtain rfl | ⟨ds, c, rfl⟩ := List.eq_nil_or_concat' cs
    · simp at hlt
    have hprefix : ∀ p, p <+: ds → p.count ')' ≤ p.count '(' :=
      fun p hp => h p (hp.trans (List.prefix_append ds [c]))
    rw [List.length_append, List.length_singleton] at hn
    rw [List.count_append, List.count_append] at hlt
    by_cases hopen : c = '('
    · exact ⟨ds, [], by rw [hopen], by simp⟩
    by_cases hclose : c = ')'
    · -- the last parenthesis closes one, and the one that is open stands before that
      subst hclose
      have hds : ds.count ')' + 1 < ds.count '(' := by simpa using hlt
      obtain ⟨p, q, rfl, hq⟩ := ih ds.length (by omega) hprefix (by omega) rfl
      have hp : p.count ')' < p.count '(' := by
        have hbalance := hq.2
        simp only [List.count_append, List.count_cons_self, List.count_cons_of_ne,
          ne_eq, Char.reduceEq, not_false_eq_true] at hds
        omega
      obtain ⟨p', q', rfl, hq'⟩ := ih p.length (by simp at hn; omega)
        (fun r hr => hprefix r (hr.trans (List.prefix_append p _))) hp rfl
      exact ⟨p', q' ++ ('(' :: q ++ [')']), by simp, hq'.append hq.enclosed⟩
    · have hds : ds.count ')' < ds.count '(' := by
        simpa [List.count_singleton, hopen, hclose] using hlt
      obtain ⟨p, q, rfl, hq⟩ := ih ds.length (by omega) hprefix hds rfl
      exact ⟨p, q ++ [c], by simp,
        (closes_append_of_forall (by simpa using ⟨hopen, hclose⟩) 0 q).mpr hq⟩

/-- Where every parenthesis closes something, never more is closed than opened. -/
theorem count_le_of_closes {cs : List Char} (h : ∀ p q, cs = p ++ ')' :: q → ¬ ClosesNothing p)
    {p : List Char} (hp : p <+: cs) : p.count ')' ≤ p.count '(' := by
  induction hn : p.length using Nat.strong_induction_on generalizing p with
  | _ n ih =>
    obtain rfl | ⟨ds, c, rfl⟩ := List.eq_nil_or_concat' p
    · simp
    have hds : ds <+: cs := (List.prefix_append ds [c]).trans hp
    rw [List.length_append, List.length_singleton] at hn
    rw [List.count_append, List.count_append]
    -- only a closing parenthesis as the last character could upset the balance
    by_cases hclose : c = ')'
    · subst hclose
      obtain ⟨after, hafter⟩ := hp
      have hcloses := h ds after (by rw [← hafter]; simp)
      unfold ClosesNothing at hcloses
      push Not at hcloses
      -- it closes the one before a balanced text, and the bound holds before that
      obtain ⟨r, q, rfl, hq⟩ := hcloses
      have hr := ih r.length (by simp at hn; omega) ((List.prefix_append r _).trans hds) rfl
      have hbalance := hq.2
      simp only [List.count_append, List.count_cons_self, List.count_cons_of_ne, List.count_nil,
        ne_eq, Char.reduceEq, not_false_eq_true]
      omega
    · have hle := ih ds.length (by omega) hds rfl
      rw [List.count_singleton, if_neg (by simpa using hclose)]
      omega

theorem Balanced.closesNothing {cs : List Char} (h : Balanced cs) : ClosesNothing cs := by
  rintro p q rfl hq
  have hp := h.1 p (List.prefix_append p _)
  have hall := h.2
  have hrest := hq.2
  simp only [List.count_append, List.count_cons_self, List.count_cons_of_ne,
    ne_eq, Char.reduceEq, not_false_eq_true] at hall
  omega

/-- In a balanced text every parenthesis closes something. -/
theorem Balanced.closes {cs p q : List Char} (h : Balanced cs) (hcs : cs = p ++ ')' :: q) :
    ¬ ClosesNothing p := by
  have hprefix : ∀ r, r <+: p → r.count ')' ≤ r.count '(' := by
    intro r hr
    have hclosed := h.1 r (hr.trans (hcs ▸ List.prefix_append p _))
    rwa [Nat.zero_add] at hclosed
  -- with this parenthesis there are at most as many closed as opened
  have hlt : p.count ')' < p.count '(' := by
    have hclosed := h.1 (p ++ [')']) ⟨q, by rw [hcs]; simp⟩
    simp only [List.count_append, List.count_cons_self, List.count_cons_of_ne, List.count_nil,
      ne_eq, Char.reduceEq, not_false_eq_true] at hclosed
    omega
  obtain ⟨r, t, hp, ht⟩ := exists_open_of_count_lt hprefix hlt
  exact fun hnothing => hnothing r t hp ht

/-- **The first stray parenthesis** stands behind a balanced text. -/
theorem isLeast_strays_iff {cs : List Char} {i : Nat} : IsLeast (strays cs) i ↔
    ∃ before after, cs = before ++ ')' :: after ∧ before.length = i ∧ Balanced before := by
  constructor
  · rintro ⟨⟨before, after, rfl, rfl, hnothing⟩, hleast⟩
    have hcloses : ∀ p q, before = p ++ ')' :: q → ¬ ClosesNothing p := by
      rintro p q rfl hp
      have hle := hleast ⟨p, _, by rw [List.append_assoc, List.cons_append], rfl, hp⟩
      rw [List.length_append, List.length_cons] at hle
      omega
    have hprefix : ∀ p, p <+: before → p.count ')' ≤ p.count '(' :=
      fun p hp => count_le_of_closes hcloses hp
    refine ⟨before, after, rfl, rfl, fun p hp => ?_, ?_⟩
    · rw [Nat.zero_add]
      exact hprefix p hp
    · by_contra hne
      have hle := hprefix before (List.prefix_refl before)
      obtain ⟨p, q, hbefore, hq⟩ := exists_open_of_count_lt hprefix (by omega)
      exact hnothing p q hbefore hq
  · rintro ⟨before, after, rfl, rfl, hbalanced⟩
    refine ⟨⟨before, after, rfl, rfl, hbalanced.closesNothing⟩, ?_⟩
    rintro j ⟨p, q, hcs, rfl, hnothing⟩
    by_contra hlt
    rw [not_le] at hlt
    -- an earlier parenthesis stands in the balanced text
    obtain ⟨r, hr, -⟩ | ⟨r, hr, hrest⟩ := List.append_eq_append_iff.mp hcs
    · rw [hr, List.length_append] at hlt
      omega
    · cases r with
      | nil =>
        rw [hr, List.append_nil] at hlt
        exact lt_irrefl _ hlt
      | cons c r =>
        rw [List.cons_append, List.cons.injEq] at hrest
        rw [← hrest.1] at hr
        exact hbalanced.closes hr hnothing

/-- Where no balanced text stands before a parenthesis, none is stray. -/
theorem strays_eq_empty_iff {cs : List Char} : strays cs = ∅ ↔
    ∀ before after, cs = before ++ ')' :: after → ¬ Balanced before := by
  constructor
  · intro hempty before after hcs hbalanced
    have hmem := (isLeast_strays_iff.mpr ⟨before, after, hcs, rfl, hbalanced⟩).1
    rw [hempty] at hmem
    exact hmem
  · intro h
    by_contra hne
    classical
    obtain hsome : ∃ i, i ∈ strays cs := Set.nonempty_iff_ne_empty.mpr hne
    -- the first stray parenthesis stands behind balanced text
    have hleast : IsLeast (strays cs) (Nat.find hsome) :=
      ⟨Nat.find_spec hsome, fun j hj => Nat.find_min' hsome hj⟩
    obtain ⟨before, after, hcs, -, hbalanced⟩ := isLeast_strays_iff.mp hleast
    exact h before after hcs hbalanced

/-! ### The scanners -/

section

variable {depth : Nat} {cs : List Char}

/-- The check of a value stops where the body of a call would end. -/
theorem imbalanceFrom_of_closing {body rest : List Char} (h : closing depth cs = some (body, rest))
    (index : Nat) : imbalanceFrom depth index cs = some (index + body.length) := by
  induction cs generalizing depth index body with
  | nil => cases h
  | cons c cs ih =>
    unfold closing at h
    rw [imbalanceFrom]
    by_cases hclose : c = ')'
    · subst hclose
      -- the scanners stop at the same closing parenthesis, the one that closes nothing
      cases depth with
      | zero =>
        cases h
        rfl
      | succ depth =>
        obtain ⟨⟨found, after⟩, hfound, ⟨⟩⟩ := Option.map_eq_some_iff.mp h
        rw [if_neg (by decide), if_pos rfl, if_neg (Nat.succ_ne_zero depth), Nat.add_sub_cancel,
          ih hfound, List.length_cons, Nat.add_right_comm, Nat.add_assoc]
    · rw [if_neg hclose] at h
      obtain ⟨⟨found, after⟩, hfound, ⟨⟩⟩ := Option.map_eq_some_iff.mp h
      rw [List.length_cons, Nat.add_comm found.length, ← Nat.add_assoc]
      by_cases hopen : c = '('
      · rw [if_pos hopen] at hfound ⊢
        exact ih hfound _
      · rw [if_neg hopen] at hfound
        rw [if_neg hopen, if_neg hclose]
        exact ih hfound _

/-- Otherwise it goes to the end of the text. -/
theorem imbalanceFrom_of_closing_eq_none (h : closing depth cs = none) {index i : Nat}
    (hi : imbalanceFrom depth index cs = some i) : i = index + cs.length := by
  induction cs generalizing depth index with
  | nil =>
    rw [imbalanceFrom] at hi
    split at hi <;> cases hi
    rfl
  | cons c cs ih =>
    unfold closing at h
    rw [imbalanceFrom] at hi
    rw [List.length_cons, Nat.add_comm cs.length, ← Nat.add_assoc]
    by_cases hclose : c = ')'
    · subst hclose
      cases depth with
      -- a parenthesis that closes nothing would be found by the other scanner
      | zero => cases h
      | succ depth =>
        rw [if_neg (by decide), if_pos rfl, if_neg (Nat.succ_ne_zero depth)] at hi
        exact ih (Option.map_eq_none_iff.mp h) hi
    · rw [if_neg hclose] at h
      by_cases hopen : c = '('
      · rw [if_pos hopen] at h hi
        exact ih (Option.map_eq_none_iff.mp h) hi
      · rw [if_neg hopen] at h
        rw [if_neg hopen, if_neg hclose] at hi
        exact ih (Option.map_eq_none_iff.mp h) hi

/-- **The check of a value** reports the fault of a text that does not balance. -/
theorem imbalanceFrom_eq_some_iff {i : Nat} :
    imbalanceFrom 0 0 cs = some i ↔ ¬ Balanced cs ∧ FaultAt cs i := by
  -- the scanner stops at a stray parenthesis, or there is none and it reaches the end
  have hsound : ∀ j, imbalanceFrom 0 0 cs = some j → FaultAt cs j := by
    intro j hj
    cases hclosing : closing 0 cs with
    | some p =>
      obtain ⟨body, rest⟩ := p
      obtain ⟨hcs, hbody⟩ := (closing_eq_some_iff 0 cs body rest).mp hclosing
      rw [imbalanceFrom_of_closing hclosing, Option.some.injEq, Nat.zero_add] at hj
      exact .inl (isLeast_strays_iff.mpr ⟨body, rest, hcs, hj, hbody⟩)
    | none =>
      refine .inr ⟨strays_eq_empty_iff.mpr fun before after hcs hbefore => ?_, ?_⟩
      · have hfound := (closing_eq_some_iff 0 cs before after).mpr ⟨hcs, hbefore⟩
        cases hclosing.symm.trans hfound
      · rw [imbalanceFrom_of_closing_eq_none hclosing hj, Nat.zero_add]
  have hbalanced : imbalanceFrom 0 0 cs = none ↔ Balanced cs := imbalanceFrom_eq_none_iff 0 0 cs
  rw [← hbalanced]
  constructor
  · intro hi
    exact ⟨by rw [hi]; nofun, hsound i hi⟩
  · rintro ⟨hne, hfault⟩
    obtain ⟨j, hj⟩ := Option.ne_none_iff_exists'.mp hne
    rw [hj, (hsound j hj).unique hfault]

/-- **The cutting of arguments** reports the same fault as the check of a value. -/
theorem splitFrom_eq_error_iff {index i : Nat} :
    splitFrom depth index cs = .error i ↔ imbalanceFrom depth index cs = some i := by
  have hmap : ∀ {x : Except Nat (List (List Char))} {f : List (List Char) → List (List Char)},
      x.map f = .error i ↔ x = .error i := by
    intro x f
    cases x with
    | ok parts => simp [Except.map]
    | error j => rfl
  -- the two walks take the same branches, and differ in what they collect only
  induction cs generalizing depth index with
  | nil =>
    rw [splitFrom, imbalanceFrom]
    split
    · simp
    · rw [Except.error.injEq, Option.some.injEq]
  | cons c cs ih =>
    rw [splitFrom, imbalanceFrom]
    by_cases hopen : c = '('
    · rw [if_pos hopen, if_pos hopen]
      exact hmap.trans ih
    by_cases hclose : c = ')'
    · rw [if_neg hopen, if_neg hopen, if_pos hclose, if_pos hclose]
      split
      · rw [Except.error.injEq, Option.some.injEq]
      · exact hmap.trans ih
    · rw [if_neg hopen, if_neg hopen, if_neg hclose, if_neg hclose]
      split
      · next hcomma =>
        obtain ⟨-, rfl⟩ := hcomma
        exact hmap.trans ih
      · exact hmap.trans ih

end

/-! ### Commas outside parentheses -/

/-- The places of the commas outside parentheses: as many are closed before them as are opened. -/
def outerCommas (cs : List Char) : List Nat :=
  (List.range cs.length).filter fun i =>
    cs[i]? = some ',' ∧ (cs.take i).count '(' = (cs.take i).count ')'

/-- The texts that are left when a text is cut at some places from a start on: before the first of
them, between neighbours, and after the last. The characters at these places are in none. -/
def cutAt (cs : List Char) : Nat → List Nat → List (List Char)
  | start, [] => [cs.drop start]
  | start, i :: is => (cs.take i).drop start :: cutAt cs (i + 1) is

theorem length_cutAt (cs : List Char) (start : Nat) (is : List Nat) :
    (cutAt cs start is).length = is.length + 1 := by
  induction is generalizing start with
  | nil => rfl
  | cons i is ih => rw [cutAt, List.length_cons, ih, List.length_cons]

/-- What stands before the start does not matter. -/
theorem cutAt_append (before cs : List Char) (start : Nat) (is : List Nat) :
    cutAt (before ++ cs) (before.length + start) (is.map (before.length + ·)) =
      cutAt cs start is := by
  induction is generalizing start with
  | nil => rw [List.map_nil, cutAt, cutAt, List.drop_length_add_append]
  | cons i is ih =>
    rw [List.map_cons, cutAt, cutAt, List.take_length_add_append, List.drop_length_add_append,
      Nat.add_assoc, ih]

variable {cs : List Char}

theorem mem_outerCommas {i : Nat} : i ∈ outerCommas cs ↔
    ∃ p q, cs = p ++ ',' :: q ∧ p.length = i ∧ p.count '(' = p.count ')' := by
  rw [outerCommas, List.mem_filter, List.mem_range, decide_eq_true_eq]
  constructor
  · rintro ⟨hi, hcomma, hcount⟩
    refine ⟨cs.take i, cs.drop (i + 1), ?_, by simp [hi.le], hcount⟩
    rw [List.getElem?_eq_getElem hi, Option.some.injEq] at hcomma
    rw [← hcomma, List.getElem_cons_drop, List.take_append_drop]
  · rintro ⟨p, q, rfl, rfl, hcount⟩
    simpa using hcount

/-- In a balanced text, the commas stand inside parentheses if none stands outside. -/
theorem Balanced.guarded_iff (h : Balanced cs) : Guarded 0 cs ↔ outerCommas cs = [] := by
  rw [List.eq_nil_iff_forall_not_mem]
  constructor
  · intro hguarded i hi
    obtain ⟨p, q, hcs, -, hcount⟩ := mem_outerCommas.mp hi
    have hlt := hguarded p q hcs
    omega
  · intro hnone p q hcs
    have hle := h.1 p (hcs ▸ List.prefix_append p _)
    -- a comma outside would stand where as many are opened as closed
    have hne : p.count '(' ≠ p.count ')' := fun hcount =>
      hnone p.length (mem_outerCommas.mpr ⟨p, q, hcs, rfl, hcount⟩)
    omega

/-- The first comma outside parentheses stands behind a part, and all others behind that. -/
theorem outerCommas_append {p rest : List Char} (hp : Balanced p) (hg : Guarded 0 p) :
    outerCommas (p ++ ',' :: rest) =
      p.length :: (outerCommas rest).map (p.length + 1 + ·) := by
  have hlength : (p ++ ',' :: rest).length = p.length + 1 + rest.length := by
    rw [List.length_append, List.length_cons]
    omega
  have hcount := hp.2
  rw [Nat.zero_add] at hcount
  unfold outerCommas
  rw [hlength, List.range_add, List.range_succ, List.filter_append, List.filter_append,
    List.filter_map, List.append_assoc]
  -- no comma of the first part stands outside, the one behind it does, and the rest is shifted
  have hfirst : (List.range p.length).filter (fun i => (p ++ ',' :: rest)[i]? = some ',' ∧
      ((p ++ ',' :: rest).take i).count '(' = ((p ++ ',' :: rest).take i).count ')') = [] := by
    rw [← hp.guarded_iff.mp hg, outerCommas]
    refine List.filter_congr fun i hi => ?_
    have hi := List.mem_range.mp hi
    rw [List.getElem?_append_left hi, List.take_append_of_le_length hi.le]
  have hlast : [p.length].filter (fun i => (p ++ ',' :: rest)[i]? = some ',' ∧
      ((p ++ ',' :: rest).take i).count '(' = ((p ++ ',' :: rest).take i).count ')') =
      [p.length] := by
    simp [hcount]
  rw [hfirst, hlast, List.nil_append, List.singleton_append]
  congr 2
  refine List.filter_congr fun i _ => ?_
  have htake : (p ++ ',' :: rest).take (p.length + 1 + i) = p ++ ',' :: rest.take i := by
    rw [Nat.add_assoc, List.take_length_add_append, Nat.add_comm 1, List.take_succ_cons]
  have hget : (p ++ ',' :: rest)[p.length + 1 + i]? = rest[i]? := by
    rw [List.getElem?_append_right (by omega)]
    have hsub : p.length + 1 + i - p.length = i + 1 := by omega
    rw [hsub, List.getElem?_cons_succ]
  simp [htake, hget, List.count_append, hcount]

/-- **The parts of a text** are cut out of it at its commas outside parentheses. -/
theorem Parts.eq_cutAt {parts : List (List Char)} (h : Parts cs parts) :
    parts = cutAt cs 0 (outerCommas cs) := by
  obtain ⟨hne, rfl, hb, hg⟩ := h
  induction parts with
  | nil => exact absurd rfl hne
  | cons p ps ih =>
    rw [List.forall_mem_cons] at hb hg
    cases ps with
    | nil =>
      rw [List.intercalate_singleton, hb.1.guarded_iff.mp hg.1]
      rfl
    | cons q qs =>
      have hrest := ih (List.cons_ne_nil q qs) hb.2 hg.2
      rw [List.intercalate_cons_cons, List.append_assoc, List.singleton_append,
        outerCommas_append hb.1 hg.1, cutAt, List.drop_zero, List.take_left]
      -- the outer commas of the rest are counted from behind the first one on
      have hshift := cutAt_append (p ++ [',']) ([','].intercalate (q :: qs)) 0
        (outerCommas ([','].intercalate (q :: qs)))
      rw [List.length_append, List.length_singleton, List.append_assoc, List.singleton_append,
        Nat.add_zero] at hshift
      rw [hshift, ← hrest]

/-! ### Arguments -/

/-- A text is cut exactly if it balances. -/
theorem splitFrom_eq_ok_iff_cutAt {parts : List (List Char)} :
    splitFrom 0 0 cs = .ok parts ↔ Balanced cs ∧ parts = cutAt cs 0 (outerCommas cs) := by
  constructor
  · intro h
    have hparts := (splitFrom_eq_ok_iff 0 cs parts).mp h
    exact ⟨hparts.balanced_body, hparts.eq_cutAt⟩
  · rintro ⟨hbalanced, rfl⟩
    cases h : splitFrom 0 0 cs with
    | ok found => rw [((splitFrom_eq_ok_iff 0 cs found).mp h).eq_cutAt]
    | error i =>
      -- balanced text has no fault
      have hfault := imbalanceFrom_eq_some_iff.mp (splitFrom_eq_error_iff.mp h)
      exact absurd hbalanced hfault.1

/-- **The arguments of a text.** The cutting of a text fails exactly if its parentheses do not
balance, with the place of the fault, and gives otherwise the trimmed texts between the commas
outside parentheses. Each of these balances and has no such comma, and texts like that are cut apart
again when they are joined. -/
theorem splitArguments_exact (cs : List Char) :
    (∀ e, splitArguments cs = .error e ↔ ¬ Balanced cs ∧ ∃ i, FaultAt cs i ∧
        e = .grammar .unbalanced (some (.plain (String.ofList cs))) (some i)) ∧
      (∀ args, splitArguments cs = .ok args ↔
        Balanced cs ∧ args = (cutAt cs 0 (outerCommas cs)).map trim) ∧
      (∀ args, splitArguments cs = .ok args → args.length = (outerCommas cs).length + 1 ∧
        ∀ arg ∈ args, Balanced arg ∧ outerCommas arg = []) ∧
      ∀ args : List (List Char), args ≠ [] →
        (∀ arg ∈ args, trim arg = arg ∧ Balanced arg ∧ outerCommas arg = []) →
        splitArguments (argumentSeparator.toList.intercalate args) = .ok args := by
  -- the cutting succeeds on balanced texts, and cuts at the outer commas
  have hok : ∀ args, splitArguments cs = .ok args ↔
      Balanced cs ∧ args = (cutAt cs 0 (outerCommas cs)).map trim := by
    intro args
    unfold splitArguments
    cases h : splitFrom 0 0 cs with
    | ok found =>
      obtain ⟨hbalanced, rfl⟩ := splitFrom_eq_ok_iff_cutAt.mp h
      simp only [Except.ok.injEq, hbalanced, true_and, eq_comm]
    | error i =>
      have hbalanced := (imbalanceFrom_eq_some_iff.mp (splitFrom_eq_error_iff.mp h)).1
      exact iff_of_false nofun fun hargs => hbalanced hargs.1
  refine ⟨fun e => ?_, hok, fun args hargs => ?_, fun args hne hargs => ?_⟩
  · unfold splitArguments
    cases h : splitFrom 0 0 cs with
    | ok found =>
      have hbalanced := (splitFrom_eq_ok_iff_cutAt.mp h).1
      exact iff_of_false nofun fun he => he.1 hbalanced
    | error i =>
      obtain ⟨hbalanced, hfault⟩ := imbalanceFrom_eq_some_iff.mp (splitFrom_eq_error_iff.mp h)
      constructor
      · rintro ⟨⟩
        exact ⟨hbalanced, i, hfault, rfl⟩
      · rintro ⟨-, j, hj, rfl⟩
        rw [hfault.unique hj]
  · obtain ⟨hbalanced, rfl⟩ := (hok args).mp hargs
    have hparts := (splitFrom_eq_ok_iff 0 cs _).mp (splitFrom_eq_ok_iff_cutAt.mpr ⟨hbalanced, rfl⟩)
    refine ⟨by rw [List.length_map, length_cutAt], fun arg harg => ?_⟩
    obtain ⟨part, hpart, rfl⟩ := List.mem_map.mp harg
    have htrim := (balanced_trim_iff part).mpr (hparts.balanced part hpart)
    exact ⟨htrim, htrim.guarded_iff.mp (guarded_trim (hparts.guarded part hpart))⟩
  · -- each separator ends in a blank, which stands before the next part and is trimmed again
    have hparts : Parts (argumentSeparator.toList.intercalate args) (spaced args) :=
      parts_spaced hne (fun arg harg => (hargs arg harg).2.1) fun arg harg =>
        (hargs arg harg).2.1.guarded_iff.mpr (hargs arg harg).2.2
    have htrim : args.map trim = args :=
      (List.map_congr_left fun arg harg => (hargs arg harg).1).trans args.map_id
    unfold splitArguments
    rw [(splitFrom_eq_ok_iff 0 _ _).mpr hparts]
    simp only [map_trim_spaced, htrim]

/-- A call with a comma of its own before an empty argument, and a parenthesis that closes nothing
before one that is not closed. -/
theorem splitArguments_exact_of_call :
    splitArguments "or(a, b), ".toList = .ok ["or(a, b)".toList, []] ∧
      splitArguments "a), (b".toList =
        .error (.grammar .unbalanced (some (.plain "a), (b")) (some 1)) := by
  have hcall : Balanced "or(a, b)".toList :=
    (imbalanceFrom_eq_none_iff 0 0 _).mp (by decide +kernel)
  have hloose : ¬ Balanced "a), (b".toList := by
    rw [Balanced, ← imbalanceFrom_eq_none_iff 0 0]
    decide +kernel
  -- the first parenthesis of the second text closes nothing
  have hfault : FaultAt "a), (b".toList 1 :=
    .inl (isLeast_strays_iff.mpr ⟨['a'], ", (b".toList, by decide, rfl,
      balanced_of_forall (List.forall_mem_singleton.mpr ⟨by decide, by decide⟩)⟩)
  constructor
  · refine (splitArguments_exact []).2.2.2 ["or(a, b)".toList, []] (List.cons_ne_nil _ _) ?_
    rw [List.forall_mem_cons, List.forall_mem_singleton]
    exact ⟨⟨by decide +kernel, hcall, by decide +kernel⟩, rfl, (closes_nil_iff 0).mpr rfl, rfl⟩
  · exact ((splitArguments_exact "a), (b".toList).1 _).mpr ⟨hloose, 1, hfault, rfl⟩

/-! ### Values -/

/-- **The check of a value** accepts exactly the values that are read back: those for which a call
with the value between its parentheses is read as the leaf with this value. What is refused, with
the place of the fault, is not read at all, so no value is read back as another one. -/
theorem checkValue_reads_back (raw : RawText) (o : Operator) :
    let call := "a:" ++ o.word ++ "(" ++ raw.text ++ ")"
    let leaf := Filter.leaf ⟨["a"], by decide, by decide⟩ o (.plain raw.text)
    (∀ r, checkValue raw = .ok r ↔ r = raw ∧ Filter.parse call = .ok leaf) ∧
      (∀ e, checkValue raw = .error e ↔ (∀ f, Filter.parse call ≠ .ok f) ∧
        ∃ i, FaultAt raw.text.toList i ∧ e = .grammar .unbalancedValue (some raw) (some i)) ∧
      ∀ f, Filter.parse call = .ok f → f = leaf := by
  intro call leaf
  have hplain : ColumnPath.Plain ⟨["a"], by decide, by decide⟩ :=
    List.forall_mem_singleton.mpr ⟨by decide, List.forall_mem_nil _⟩
  -- the call is read exactly if its value balances, and then as the leaf
  have hparse : ∀ f, Filter.parse call = .ok f ↔ Balanced raw.text.toList ∧ f = leaf :=
    fun f => Filter.parse_call_eq_ok_iff hplain o raw.text f
  unfold checkValue
  cases h : imbalanceFrom 0 0 raw.text.toList with
  | none =>
    have hbalanced := (imbalanceFrom_eq_none_iff 0 0 _).mp h
    refine ⟨fun r => ?_, fun e => ?_, fun f hf => ((hparse f).mp hf).2⟩
    · rw [hparse, Except.ok.injEq, eq_comm]
      exact (and_iff_left ⟨hbalanced, rfl⟩).symm
    · exact iff_of_false nofun fun he => he.1 leaf ((hparse leaf).mpr ⟨hbalanced, rfl⟩)
  | some i =>
    obtain ⟨hbalanced, hfault⟩ := imbalanceFrom_eq_some_iff.mp h
    have hnone : ∀ f, Filter.parse call ≠ .ok f := fun f hf => hbalanced ((hparse f).mp hf).1
    refine ⟨fun r => iff_of_false nofun fun hr => hnone leaf hr.2, fun e => ?_,
      fun f hf => absurd hf (hnone f)⟩
    constructor
    · rintro ⟨⟩
      exact ⟨hnone, i, hfault, rfl⟩
    · rintro ⟨-, j, hj, rfl⟩
      rw [hfault.unique hj]

end RecordQuery
