import RecordQuery.Proofs.Display.Quoted

/-!
# Nested text

A displayed value is nested text: what stands between quotes or brackets is closed again, and
outside of brackets and quotes it has no colon. So where a name, a colon and a displayed value
follow one another, the name can be told from the value, whatever the name consists of.

* `Place` is the state of a scan from left to right, `Place.run` the scan.
* `Nested` is nested text, with or without colons of its own.
* `Nested.append_colon_inj` — the last colon outside of quotes and brackets separates the name.

The scan goes on from any place in a name, inside quotes or not. `Steady` texts keep two scans
apart, so the value is only scanned from the beginning to the end of the text where nothing is open.
-/

namespace RecordQuery.Text

open Numeral

/-! ### Scanning -/

/-- Where a scan of a text is: in which quotes, in how many brackets, and whether it is behind a
backslash. -/
structure Place where
  mark : Option Char
  depth : Int
  escaped : Bool

instance : DecidablePred IsMark := fun c =>
  inferInstanceAs (Decidable (c = apostrophe ∨ c = quotationMark))

/-- Whether a character opens a bracket. -/
def opens (c : Char) : Bool := c == '(' || c == '[' || c == '\x7b'

/-- Whether a character closes a bracket. -/
def closes (c : Char) : Bool := c == ')' || c == ']' || c == '\x7d'

/-- By how much a character changes the number of open brackets. -/
def shift (c : Char) : Int := if opens c then 1 else if closes c then -1 else 0

theorem opens_spec {c : Char} (h : opens c = true) :
    c ≠ '\\' ∧ c ≠ ':' ∧ ¬ IsMark c ∧ shift c = 1 := by
  simp only [opens, Bool.or_eq_true, beq_iff_eq] at h
  obtain (rfl | rfl) | rfl := h <;> decide

theorem closes_spec {c : Char} (h : closes c = true) :
    c ≠ '\\' ∧ c ≠ ':' ∧ ¬ IsMark c ∧ shift c = -1 := by
  simp only [closes, Bool.or_eq_true, beq_iff_eq] at h
  obtain (rfl | rfl) | rfl := h <;> decide

/-- The quotes that are open after a mark: it opens some, closes those that it opened, and stands
for itself inside of others. -/
def toggle (c : Char) : Option Char → Option Char
  | none => some c
  | some m => if c = m then none else some m

theorem toggle_toggle (c : Char) (m : Option Char) : toggle c (toggle c m) = m := by
  cases m with
  | none => exact if_pos rfl
  | some m =>
    by_cases h : c = m
    · rw [toggle, if_pos h, toggle, h]
    · rw [toggle, if_neg h, toggle, if_neg h]

namespace Place

variable {p q : Place} {c : Char} {cs ds : List Char}

/-- The place after one more character. -/
def move (p : Place) (c : Char) : Place :=
  if p.escaped then { p with escaped := false }
  else if c = '\\' then { p with escaped := true }
  else if IsMark c then { p with mark := toggle c p.mark }
  else if p.mark = none then { p with depth := p.depth + shift c }
  else p

/-- The place after a text. -/
def run (p : Place) (cs : List Char) : Place := cs.foldl move p

@[simp] theorem run_nil (p : Place) : p.run [] = p := rfl

@[simp] theorem run_cons (p : Place) (c : Char) (cs : List Char) :
    p.run (c :: cs) = (p.move c).run cs := rfl

@[simp] theorem run_append (p : Place) (cs ds : List Char) :
    p.run (cs ++ ds) = (p.run cs).run ds := List.foldl_append

theorem move_escaped (h : p.escaped = true) (c : Char) : p.move c = { p with escaped := false } :=
  if_pos h

theorem move_backslash (h : p.escaped = false) : p.move '\\' = { p with escaped := true } := by
  rw [move, if_neg (by simp [h]), if_pos rfl]

theorem move_mark (h : p.escaped = false) (hc : IsMark c) :
    p.move c = { p with mark := toggle c p.mark } := by
  have hslash : c ≠ '\\' := by
    rintro rfl
    exact absurd hc (by decide)
  rw [move, if_neg (by simp [h]), if_neg hslash, if_pos hc]

theorem move_other (h : p.escaped = false) (hslash : c ≠ '\\') (hc : ¬ IsMark c) :
    p.move c = { p with depth := if p.mark = none then p.depth + shift c else p.depth } := by
  rw [move, if_neg (by simp [h]), if_neg hslash, if_neg hc]
  split <;> rfl

theorem move_neutral (h : p.escaped = false) (hslash : c ≠ '\\') (hc : ¬ IsMark c)
    (hshift : shift c = 0) : p.move c = p := by
  rw [move_other h hslash hc, hshift, Int.add_zero, ite_self]

theorem move_pair (h : p.escaped = false) (c : Char) : (p.move '\\').move c = p := by
  rw [move_backslash h, move_escaped rfl, ← h]

end Place

/-! ### Texts that keep scans apart -/

/-- Two scans that go on from different places behind no backslash end in different places, behind
no backslash again. -/
def Steady (cs : List Char) : Prop :=
  ∀ p q : Place, p.escaped = false → q.escaped = false →
    (p.run cs).escaped = false ∧ (p.run cs = q.run cs → p = q)

namespace Steady

variable {cs ds : List Char}

theorem nil : Steady [] := fun _ _ hp _ => ⟨hp, id⟩

theorem append (h : Steady cs) (h' : Steady ds) : Steady (cs ++ ds) := by
  intro p q hp hq
  obtain ⟨hrest, hinj⟩ := h p q hp hq
  obtain ⟨hend, hinj'⟩ := h' _ _ hrest (h q p hq hp).1
  rw [Place.run_append, Place.run_append]
  exact ⟨hend, fun heq => hinj (hinj' heq)⟩

theorem single {c : Char} (hc : c ≠ '\\') : Steady [c] := by
  intro p q hp hq
  simp only [Place.run_cons, Place.run_nil]
  by_cases hmark : IsMark c
  · rw [Place.move_mark hp hmark, Place.move_mark hq hmark]
    refine ⟨hp, fun h => ?_⟩
    obtain ⟨hsame, hdepth, -⟩ := Place.mk.inj h
    -- a mark changes the open quotes in a way that can be undone
    have hopen : p.mark = q.mark := by
      rw [← toggle_toggle c p.mark, hsame, toggle_toggle]
    cases p
    cases q
    congr
    exact hp.trans hq.symm
  · rw [Place.move_other hp hc hmark, Place.move_other hq hc hmark]
    refine ⟨hp, fun h => ?_⟩
    obtain ⟨hopen, hdepth, -⟩ := Place.mk.inj h
    -- both depths change by the same amount, or neither does
    have hsame : p.depth = q.depth := by
      rw [hopen] at hdepth
      split at hdepth <;> omega
    cases p
    cases q
    congr
    exact hp.trans hq.symm

theorem pair (c : Char) : Steady ['\\', c] := by
  intro p q hp hq
  simp only [Place.run_cons, Place.run_nil, Place.move_pair hp, Place.move_pair hq]
  exact ⟨hp, id⟩

theorem of_enclosed {mark : Char} (h : Enclosed mark cs) : Steady cs := by
  induction h with
  | nil => exact nil
  | plain _ hslash _ ih => exact (single hslash).append ih
  | escaped c _ ih => exact (pair c).append ih

end Steady

/-! ### Nested text -/

/-- The characters that begin or end something. -/
def special : List Char :=
  ['\\', ':', apostrophe, quotationMark, '(', '[', '\x7b', ')', ']', '\x7d']

/-- Whether a character is none of them. -/
def isPlain (c : Char) : Bool := !special.contains c

theorem isPlain_spec {c : Char} (h : isPlain c = true) :
    c ≠ '\\' ∧ c ≠ ':' ∧ ¬ IsMark c ∧ shift c = 0 := by
  have hne : ∀ d ∈ special, c ≠ d := by
    rintro d hd rfl
    rw [isPlain, List.contains_iff_mem.mpr hd] at h
    cases h
  simp only [special, List.forall_mem_cons] at hne
  obtain ⟨hslash, hcolon, hsingle, hdouble, hopen, hopen', hopen'', hclose, hclose', hclose'', -⟩ :=
    hne
  refine ⟨hslash, hcolon, fun hmark => hmark.elim hsingle hdouble, ?_⟩
  -- a plain character is none of the six brackets
  have hopens : opens c = false := by
    rw [opens, beq_eq_false_iff_ne.mpr hopen, beq_eq_false_iff_ne.mpr hopen',
      beq_eq_false_iff_ne.mpr hopen'']
    rfl
  have hcloses : closes c = false := by
    rw [closes, beq_eq_false_iff_ne.mpr hclose, beq_eq_false_iff_ne.mpr hclose',
      beq_eq_false_iff_ne.mpr hclose'']
    rfl
  rw [shift, hopens, hcloses]
  rfl

/-- Nested text. Colons stand in it only if they are allowed; inside of brackets they are. -/
inductive Nested : Bool → List Char → Prop where
  | nil {colons : Bool} : Nested colons []
  | plain {colons : Bool} {c : Char} {cs : List Char} : isPlain c = true → Nested colons cs →
      Nested colons (c :: cs)
  | colon {cs : List Char} : Nested true cs → Nested true (':' :: cs)
  | quotes {colons : Bool} {mark : Char} {inner cs : List Char} : IsMark mark →
      Enclosed mark inner → Nested colons cs → Nested colons (mark :: (inner ++ mark :: cs))
  | brackets {colons : Bool} {opening closing : Char} {inner cs : List Char} :
      opens opening = true → closes closing = true → Nested true inner → Nested colons cs →
      Nested colons (opening :: (inner ++ closing :: cs))

namespace Nested

variable {colons : Bool} {cs ds : List Char}

theorem append (h : Nested colons cs) (h' : Nested colons ds) : Nested colons (cs ++ ds) := by
  induction h with
  | nil => exact h'
  | plain hc _ ih => exact .plain hc (ih h')
  | colon _ ih => exact .colon (ih h')
  | quotes hmark hinner _ ih =>
    rw [List.cons_append, List.append_assoc]
    exact .quotes hmark hinner (ih h')
  | brackets hopen hclose hinner _ _ ih =>
    rw [List.cons_append, List.append_assoc]
    exact .brackets hopen hclose hinner (ih h')

theorem of_plain : ∀ {cs : List Char}, (∀ c ∈ cs, isPlain c = true) → Nested colons cs
  | [], _ => .nil
  | c :: _, h =>
    .plain (h c List.mem_cons_self) (of_plain fun d hd => h d (List.mem_cons_of_mem c hd))

theorem steady (h : Nested colons cs) : Steady cs := by
  -- no piece ends in a slash, so that each can be followed by any other
  have hmark : ∀ {c : Char}, IsMark c → c ≠ '\\' := by
    rintro c hc rfl
    exact absurd hc (by decide)
  induction h with
  | nil => exact .nil
  | plain hc _ ih => exact (Steady.single (isPlain_spec hc).1).append ih
  | colon _ ih => exact (Steady.single (by decide)).append ih
  | quotes hquote hinner _ ih =>
    exact (Steady.single (hmark hquote)).append
      ((Steady.of_enclosed hinner).append ((Steady.single (hmark hquote)).append ih))
  | brackets hopen hclose _ _ ihinner ih =>
    exact (Steady.single (opens_spec hopen).1).append
      (ihinner.append ((Steady.single (closes_spec hclose).1).append ih))

theorem of_all (h : cs.all isPlain = true) : Nested colons cs := of_plain (List.all_eq_true.mp h)

end Nested

/-! ### Where colons stand -/

/-- Every colon stands inside of quotes, or inside of more brackets than a given number. -/
def Guarded (base : Int) : Place → List Char → Prop
  | _, [] => True
  | p, c :: cs => (c = ':' → p.mark ≠ none ∨ base < p.depth) ∧ Guarded base (p.move c) cs

theorem guarded_append {base : Int} {ds : List Char} : ∀ {cs : List Char} {p : Place},
    Guarded base p (cs ++ ds) ↔ Guarded base p cs ∧ Guarded base (p.run cs) ds
  | [], _ => (iff_of_eq (true_and _)).symm
  | c :: cs, p => by
    rw [List.cons_append, Guarded, Guarded, guarded_append, Place.run_cons, and_assoc]

/-- A scan inside of quotes stays inside. -/
theorem Enclosed.run {mark : Char} {cs : List Char} (h : Enclosed mark cs) (base : Int) {p : Place}
    (hopen : p.mark = some mark) (hp : p.escaped = false) :
    p.run cs = p ∧ Guarded base p cs := by
  have hquoted : p.mark ≠ none := by
    rw [hopen]
    exact Option.some_ne_none mark
  induction h with
  | nil => exact ⟨rfl, trivial⟩
  | @plain c cs hother hslash _ ih =>
    -- inside of quotes neither brackets nor other marks count
    have hmove : p.move c = p := by
      by_cases hc : IsMark c
      · rw [Place.move_mark hp hc, hopen, toggle, if_neg hother, ← hopen]
      · rw [Place.move_other hp hslash hc, if_neg hquoted]
    rw [Place.run_cons, Guarded, hmove]
    exact ⟨ih.1, fun _ => .inl hquoted, ih.2⟩
  | @escaped cs c _ ih =>
    rw [Place.run_cons, Place.run_cons, Guarded, Guarded, Place.move_pair hp]
    refine ⟨ih.1, fun _ => .inl hquoted, fun _ => .inl ?_, ih.2⟩
    rw [Place.move_backslash hp]
    exact hquoted

/-- **A scan of nested text** returns to its place, and meets no colon outside of quotes and
brackets. -/
theorem Nested.run {colons : Bool} {cs : List Char} (h : Nested colons cs) {base : Int} {p : Place}
    (hopen : p.mark = none) (hp : p.escaped = false) (hbase : base ≤ p.depth)
    (hcolons : colons = true → base < p.depth) : p.run cs = p ∧ Guarded base p cs := by
  induction h generalizing p with
  | nil => exact ⟨rfl, trivial⟩
  | @plain colons c cs hc _ ih =>
    obtain ⟨hslash, hcolon, hmark, hshift⟩ := isPlain_spec hc
    rw [Place.run_cons, Guarded, Place.move_neutral hp hslash hmark hshift]
    exact ⟨(ih hopen hp hbase hcolons).1, fun h => absurd h hcolon, (ih hopen hp hbase hcolons).2⟩
  | @colon cs _ ih =>
    rw [Place.run_cons, Guarded, Place.move_neutral hp (by decide) (by decide) rfl]
    exact ⟨(ih hopen hp hbase hcolons).1, fun _ => .inr (hcolons rfl),
      (ih hopen hp hbase hcolons).2⟩
  | @quotes colons mark inner cs hmark hinner _ ih =>
    have hbegin : p.move mark = { p with mark := some mark } := by
      rw [Place.move_mark hp hmark, hopen]
      rfl
    have hend : Place.move ⟨some mark, p.depth, p.escaped⟩ mark = p := by
      rw [Place.move_mark (p := ⟨some mark, p.depth, p.escaped⟩) hp hmark]
      simp only [toggle, if_true, ← hopen]
    have hcolon : mark ≠ ':' := by
      rintro rfl
      exact absurd hmark (by decide)
    -- the scan goes into the quotes, stays there, and comes back at the second mark
    obtain ⟨hrun, hguarded⟩ := hinner.run base (p := ⟨some mark, p.depth, p.escaped⟩) rfl hp
    obtain ⟨hrest, hguarded'⟩ := ih hopen hp hbase hcolons
    rw [Place.run_cons, Place.run_append, Place.run_cons, Guarded, guarded_append, Guarded, hbegin,
      hrun, hend]
    exact ⟨hrest, fun h => absurd h hcolon, hguarded, fun h => absurd h hcolon, hguarded'⟩
  | @brackets colons opening closing inner cs hopening hclosing _ _ ihinner ih =>
    obtain ⟨hslash, hcolon, hmark, hshift⟩ := opens_spec hopening
    obtain ⟨hslash', hcolon', hmark', hshift'⟩ := closes_spec hclosing
    have hbegin : p.move opening = ⟨none, p.depth + 1, p.escaped⟩ := by
      rw [Place.move_other hp hslash hmark, if_pos hopen, hshift, ← hopen]
    have hend : Place.move ⟨none, p.depth + 1, p.escaped⟩ closing = p := by
      rw [Place.move_other (p := ⟨none, p.depth + 1, p.escaped⟩) hp hslash' hmark', if_pos rfl,
        hshift', ← hopen]
      exact congrArg (fun d => { p with depth := d }) (Int.add_neg_cancel_right p.depth 1)
    -- inside of the brackets one more is open, so that colons are guarded there
    obtain ⟨hrun, hguarded⟩ := ihinner (p := ⟨none, p.depth + 1, p.escaped⟩) rfl hp
      (by simp only; omega) fun _ => by simp only; omega
    obtain ⟨hrest, hguarded'⟩ := ih hopen hp hbase hcolons
    rw [Place.run_cons, Place.run_append, Place.run_cons, Guarded, guarded_append, Guarded, hbegin,
      hrun, hend]
    exact ⟨hrest, fun h => absurd h hcolon, hguarded, fun h => absurd h hcolon', hguarded'⟩

/-- The end of a nested text without colons is no colon with such a text after it. -/
theorem Nested.ne_append_colon {cs ds : List Char} (h : Nested false cs) (h' : Nested false ds)
    (us : List Char) : cs ≠ us ++ ':' :: ' ' :: ds := by
  intro heq
  have hbase : (0 : Int) ≤ 0 := Int.le_refl 0
  obtain ⟨hrun, hguarded⟩ := h.run (p := ⟨none, 0, false⟩) rfl rfl hbase nofun
  obtain ⟨hrun', -⟩ := h'.run (p := ⟨none, 0, false⟩) rfl rfl hbase nofun
  rw [heq] at hrun hguarded
  obtain ⟨-, hcolon, -⟩ := guarded_append.mp hguarded
  rw [Place.run_append, Place.run_cons, Place.run_cons] at hrun
  -- the scan of the second text ends where nothing is open, so it has begun there
  have hblank : ∀ q : Place, (q.move ':').move ' ' = { q with escaped := false } := by
    intro q
    cases hq : q.escaped with
    | true =>
      rw [Place.move_escaped hq]
      exact Place.move_neutral rfl (by decide) (by decide) rfl
    | false =>
      rw [Place.move_neutral hq (by decide) (by decide) rfl,
        Place.move_neutral hq (by decide) (by decide) rfl, ← hq]
  rw [hblank] at hrun
  have hsame := (h'.steady _ ⟨none, 0, false⟩ rfl rfl).2 (hrun.trans hrun'.symm)
  obtain ⟨hmark, hdepth, -⟩ := Place.mk.inj hsame
  obtain hquoted | hnested := hcolon rfl
  · exact hquoted hmark
  · omega

/-- **A name before a nested text.** The last colon outside of quotes and brackets separates a name
from a nested text. -/
theorem Nested.append_colon_inj {cs ds us vs : List Char} (h : Nested false cs)
    (h' : Nested false ds) (heq : us ++ ':' :: ' ' :: cs = vs ++ ':' :: ' ' :: ds) :
    us = vs ∧ cs = ds := by
  -- a colon cannot stand further on in nested text, so neither side is the longer one
  have hlater : ∀ {cs ds ws : List Char}, Nested false cs → Nested false ds →
      ':' :: ' ' :: cs = ws ++ ':' :: ' ' :: ds → ws = [] := by
    intro cs ds ws h h' heq
    match ws with
    | [] => rfl
    | [w] => cases heq
    | w :: x :: ws =>
      simp only [List.cons_append, List.cons.injEq] at heq
      exact absurd heq.2.2 (h.ne_append_colon h' ws)
  obtain ⟨ws, rfl, hrest⟩ | ⟨ws, rfl, hrest⟩ := List.append_eq_append_iff.mp heq
  · obtain rfl := hlater h h' hrest
    simp only [List.nil_append, List.cons.injEq, true_and] at hrest
    exact ⟨(List.append_nil us).symm, hrest⟩
  · obtain rfl := hlater h' h hrest
    simp only [List.nil_append, List.cons.injEq, true_and] at hrest
    exact ⟨List.append_nil vs, hrest.symm⟩

end RecordQuery.Text
