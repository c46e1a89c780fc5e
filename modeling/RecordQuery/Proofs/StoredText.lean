import RecordQuery.Proofs.LetterCase
import RecordQuery.Proofs.Stability
import RecordQuery.Proofs.Stored

/-!
# The text of stored filters

A filter that was loaded from data can be written as text, but the text may say something else, or
nothing. Data may hold combinators without conditions, for which the grammar has no text, and below
a quantifier it may spell the quantifier's column in another letter case. The printer leaves that
column out, and the reader puts it back as the quantifier spells it.

* `Filter.AlongSurface` — induction on how a tree and its surface form go together. What the text
  keeps of a tree is shown by it: the values (`legible_along`), whether there is a text for all
  combinators (`printable_along`), and the columns up to letter case (`respelt_along`,
  `under_eq_along`).
* `Surface.Legible.parse_iff` — the text of a legible form is read exactly if the form is printable,
  and then as the form's tree.
* `texts_ofData` — the text of filters and criteria from data, with values that balance: whether it
  is read, and what it is read as.
* `texts_ofData_not_read` — the text of an empty group, and of a condition in another letter case.
-/

namespace RecordQuery

open Text

/-! ### Texts that are read -/

theorem Parts.unique {body : List Char} {parts parts' : List (List Char)} (h : Parts body parts)
    (h' : Parts body parts') : parts = parts' := by
  have heq := (splitFrom_eq_ok_iff 0 body parts).mpr h
  rw [(splitFrom_eq_ok_iff 0 body parts').mpr h'] at heq
  exact (Except.ok.inj heq).symm

/-- A text is among the spaced texts as it is, or with a blank before it. -/
private theorem mem_spaced {t : List Char} {ts : List (List Char)} (h : t ∈ ts) :
    t ∈ spaced ts ∨ ' ' :: t ∈ spaced ts := by
  cases ts with
  | nil => cases h
  | cons t' ts =>
    rw [spaced, List.mem_cons, List.mem_cons]
    rcases List.mem_cons.mp h with rfl | h
    · exact .inl (.inl rfl)
    · exact .inr (.inr (List.mem_map_of_mem h))

private theorem word_ne (o : Operator) (q : Quantifier) : o.word ≠ q.word := by
  cases o <;> cases q <;> decide

namespace Surface

theorem legibleAll_iff {us : List Surface} : LegibleAll us ↔ ∀ u ∈ us, u.Legible := by
  induction us with
  | nil => simp [LegibleAll]
  | cons u us ih => rw [LegibleAll, ih, List.forall_mem_cons]

/-- Arguments that are read are there, and each of them is read. -/
private theorem derives_of_arguments {us us' : List Surface} {parts : List (List Char)}
    (hus : LegibleAll us)
    (arguments : Parts (argumentSeparator.toList.intercalate (charsAll us)) parts)
    (children : List.Forall₂ Derives parts us') :
    us ≠ [] ∧ ∀ u ∈ us, ∃ u', Derives u.chars u' := by
  have hparts : ∀ p ∈ parts, ∃ u', Derives p u' := fun p hp => by
    obtain ⟨u', -, hu'⟩ := exists_of_mem_forall₂ children.flip hp
    exact ⟨u', hu'⟩
  have hne : us ≠ [] := by
    rintro rfl
    -- nothing is cut into one empty part, which is not read
    have hempty : Parts [] [[]] := ⟨List.cons_ne_nil _ _, rfl, by simp, by simp⟩
    obtain ⟨u', hu'⟩ := hparts [] (by simp [arguments.unique hempty])
    exact hu'.trim_ne_nil rfl
  refine ⟨hne, fun u hu => ?_⟩
  rw [arguments.unique (parts_of_framed hne (framedAll us hus))] at hparts
  have hmem : u.chars ∈ charsAll us := by
    rw [charsAll_eq_map]
    exact List.mem_map_of_mem hu
  rcases mem_spaced hmem with hmem | hmem
  · exact hparts _ hmem
  · obtain ⟨u', hu'⟩ := hparts _ hmem
    exact ⟨u', hu'.of_trim (trim_blank_cons u.chars)⟩

mutual

/-- A legible form whose text is read, as whatever, is printable. -/
theorem printable_of_derives_chars : ∀ (u : Surface), u.Legible → ∀ {u' : Surface},
    Derives u.chars u' → u.Printable
  | leaf _ _ _, h, _, _ => h
  | group k us, h, u', hu => by
    rw [chars] at hu
    obtain ⟨parts, us', arguments, children⟩ := hu.group_cases
    obtain ⟨hne, hus⟩ := derives_of_arguments h arguments children
    exact ⟨hne, printableAll_of_derives_chars us h hus⟩
  | quantified q c us, ⟨hc, h⟩, u', hu => by
    rw [chars] at hu
    have named := spells_word q.word_plain
    obtain ⟨o, ho, -⟩ | ⟨-, parts, us', -, arguments, children⟩ :=
      Derives.call_cases hc q.word_plain (.inr ⟨q, named⟩) hu
    · -- the word of a quantifier spells no operator
      rw [Spells, named] at ho
      exact absurd (String.toList_inj.mp ho).symm (word_ne o q)
    · obtain ⟨hne, hus⟩ := derives_of_arguments h arguments children
      exact ⟨hc, hne, printableAll_of_derives_chars us h hus⟩

theorem printableAll_of_derives_chars : ∀ (us : List Surface), LegibleAll us →
    (∀ u ∈ us, ∃ u', Derives u.chars u') → PrintableAll us
  | [], _, _ => trivial
  | u :: us, ⟨hu, hus⟩, hread => by
    obtain ⟨⟨u', hu'⟩, hrest⟩ := List.forall_mem_cons.mp hread
    exact ⟨printable_of_derives_chars u hu hu', printableAll_of_derives_chars us hus hrest⟩

end

/-- **The text of a legible form** is read exactly if the form is printable, and then as its
tree. -/
theorem Legible.parse_iff {u : Surface} (h : u.Legible) (g : Filter) :
    Filter.parse (String.ofList u.chars) = .ok g ↔ u.Printable ∧ g = u.tree := by
  -- what is printable reads back, and nothing else is read at all
  have hread : ∀ hu : u.Printable, Filter.parse (String.ofList u.chars) = .ok u.tree := by
    intro hu
    obtain ⟨text, htext, hparse⟩ := hu.parse_format
    rwa [Except.ok.inj (htext.symm.trans (formatIn_under none u))] at hparse
  constructor
  · intro hg
    obtain ⟨u', hu', -⟩ := (Filter.parse_eq_ok_iff_derives _ g).mp hg
    rw [String.toList_ofList] at hu'
    have hu := printable_of_derives_chars u h hu'
    exact ⟨hu, Except.ok.inj (hg.symm.trans (hread hu))⟩
  · rintro ⟨hu, rfl⟩
    exact hread hu

theorem close_mem_chars (u : Surface) : ')' ∈ u.chars := by
  cases u <;> simp [chars]

/-- The text of a list of legible forms is read exactly if all of them are printable. -/
theorem LegibleAll.parseAll_iff {us : List Surface} (h : LegibleAll us) (gs : List Filter) :
    Filter.parseAll (join argumentSeparator ((charsAll us).map String.ofList)) = .ok gs ↔
      PrintableAll us ∧ gs = trees us := by
  have hread : ∀ hus : PrintableAll us, Filter.parseAll
      (join argumentSeparator ((charsAll us).map String.ofList)) = .ok (trees us) := by
    intro hus
    obtain ⟨text, htext, hparse⟩ := hus.parse_format
    rw [Filter.formatAll, trees, formatAllIn_underAll] at htext
    cases htext
    exact hparse
  constructor
  · intro hg
    have hus : PrintableAll us := by
      obtain ⟨us', hus', -⟩ := (Filter.parseAll_eq_ok_iff _ gs).mp hg
      have htext : (join argumentSeparator ((charsAll us).map String.ofList)).toList =
          argumentSeparator.toList.intercalate (charsAll us) := by
        simp [join, Function.comp_def]
      rw [htext] at hus'
      cases hus' with
      | blank hblank =>
        cases us with
        | nil => trivial
        | cons u us =>
          -- a form has a parenthesis, so the text is not blank
          have hparts := parts_of_framed (List.cons_ne_nil u us) (framedAll _ h)
          have hmem := (hparts.isInfix u.chars List.mem_cons_self).mem u.close_mem_chars
          exact absurd ((trim_eq_nil_iff _).mp hblank _ hmem) (by decide)
      | parts arguments children =>
        exact printableAll_of_derives_chars us h (derives_of_arguments h arguments children).2
    exact ⟨hus, Except.ok.inj (hg.symm.trans (hread hus))⟩
  · rintro ⟨hus, rfl⟩
    exact hread hus

end Surface

/-! ### Trees and their surface forms -/

namespace Filter

/-- A property of trees and their surface forms, below a scope, that leaves have and that combinators
have when their conditions do. -/
structure AlongSurface (P : Option ColumnPath → Filter → Surface → Prop) : Prop where
  leaf {scope : Option ColumnPath} {c column : ColumnPath} {o : Operator} {v : RawText}
    (h : c.within scope = .ok column) : P scope (.leaf c o v) (.leaf column o v)
  group {scope : Option ColumnPath} {k : Connective} {fs : List Filter} {us : List Surface}
    (h : List.Forall₂ (P scope) fs us) : P scope (.group k fs) (.group k us)
  quantified {scope : Option ColumnPath} {q : Quantifier} {c column : ColumnPath}
    {fs : List Filter} {us : List Surface} (hcolumn : c.within scope = .ok column)
    (h : List.Forall₂ (P (some c)) fs us) : P scope (.quantified q c fs) (.quantified q column us)

namespace AlongSurface

variable {P : Option ColumnPath → Filter → Surface → Prop}

mutual

/-- **Induction on surface forms**, by the steps in which they are taken off a tree. -/
theorem of_surface (hP : AlongSurface P) : ∀ (f : Filter) {scope : Option ColumnPath} {u : Surface},
    surface scope f = .ok u → P scope f u
  | .leaf c o v, scope, u, h => by
    obtain ⟨column, hcolumn, h⟩ := bind_eq_ok_iff.mp h
    cases h
    exact hP.leaf hcolumn
  | .group k fs, scope, u, h => by
    obtain ⟨us, hus, h⟩ := bind_eq_ok_iff.mp h
    cases h
    exact hP.group (of_surfaceAll hP fs hus)
  | .quantified q c fs, scope, u, h => by
    obtain ⟨column, hcolumn, h⟩ := bind_eq_ok_iff.mp h
    obtain ⟨us, hus, h⟩ := bind_eq_ok_iff.mp h
    cases h
    exact hP.quantified hcolumn (of_surfaceAll hP fs hus)

theorem of_surfaceAll (hP : AlongSurface P) : ∀ (fs : List Filter) {scope : Option ColumnPath}
    {us : List Surface}, surfaceAll scope fs = .ok us → List.Forall₂ (P scope) fs us
  | [], scope, us, h => by
    cases h
    exact .nil
  | f :: fs, scope, us, h => by
    obtain ⟨u, hu, h⟩ := bind_eq_ok_iff.mp h
    obtain ⟨rest, hrest, h⟩ := bind_eq_ok_iff.mp h
    cases h
    exact .cons (of_surface hP f hu) (of_surfaceAll hP fs hrest)

end

end AlongSurface

end Filter

/-! ### Legible and printable forms -/

/-- What is taken off a plain path leaves a plain one. -/
theorem ColumnPath.Plain.within {p q : ColumnPath} {scope : Option ColumnPath} (hp : p.Plain)
    (h : p.within scope = .ok q) : q.Plain := by
  cases scope with
  | none =>
    cases h
    exact hp
  | some c =>
    obtain ⟨-, hq⟩ := relativeTo_eq_ok_iff.mp h
    rw [Plain, hq]
    exact fun s hs => hp s (List.mem_of_mem_drop hs)

namespace Filter

/-- The surface form of a textual tree with balanced values is legible. -/
theorem legible_along : AlongSurface fun _ f u => f.IsTextual →
    (∀ l ∈ f.leaves, Balanced l.2.2.text.toList) → u.Legible := by
  -- a column that was read from a text is without line breaks, below its scope as well
  refine ⟨fun hcolumn textual balanced => ?_, fun h textual balanced => ?_,
    fun hcolumn h textual balanced => ?_⟩
  · obtain ⟨hp, s, rfl⟩ := isTextual_leaf.mp textual
    have hplain := ColumnPath.exists_parse_iff.mp hp
    exact ⟨ColumnPath.Plain.within hplain hcolumn, s, rfl, balanced _ List.mem_cons_self⟩
  · refine Surface.legibleAll_iff.mpr fun u hu => ?_
    obtain ⟨f, hf, hfu⟩ := exists_of_mem_forall₂ h hu
    exact hfu (isTextual_group.mp textual f hf) fun l hl =>
      balanced l (mem_leavesAll.mpr ⟨f, hf, hl⟩)
  · obtain ⟨hc, hfs⟩ := isTextual_quantified.mp textual
    have hplain := ColumnPath.exists_parse_iff.mp hc
    refine ⟨ColumnPath.Plain.within hplain hcolumn, Surface.legibleAll_iff.mpr fun u hu => ?_⟩
    obtain ⟨f, hf, hfu⟩ := exists_of_mem_forall₂ h hu
    exact hfu (hfs f hf) fun l hl => balanced l (mem_leavesAll.mpr ⟨f, hf, hl⟩)

/-- Conditions are printable if they are legible and no combinator in them is empty. -/
private theorem printableAll_iff {fs : List Filter} {us : List Surface}
    (h : List.Forall₂ (fun f u => Surface.Printable u ↔ u.Legible ∧ NoneEmpty f) fs us) :
    Surface.PrintableAll us ↔ Surface.LegibleAll us ∧ ∀ f ∈ fs, f.NoneEmpty := by
  induction h with
  | nil => simp [Surface.PrintableAll, Surface.LegibleAll]
  | cons hfirst _ ih =>
    rw [Surface.PrintableAll, Surface.LegibleAll, hfirst, ih, List.forall_mem_cons]
    exact and_and_and_comm

/-- **What the grammar has no text for**: a legible form is printable exactly if no combinator in
the tree is without conditions. -/
theorem printable_along : AlongSurface fun _ f u => u.Printable ↔ u.Legible ∧ f.NoneEmpty := by
  have hne : ∀ {fs : List Filter} {us : List Surface} {R : Filter → Surface → Prop},
      List.Forall₂ R fs us → (us ≠ [] ↔ fs ≠ []) := fun h => by cases h <;> simp
  refine ⟨fun _ => ?_, fun h => ?_, fun _ h => ?_⟩
  · exact (and_iff_left (noneEmpty_leaf _ _ _)).symm
  · rw [Surface.Printable, Surface.Legible, hne h, printableAll_iff h, noneEmpty_group]
    exact and_left_comm
  · rw [Surface.Printable, Surface.Legible, hne h, printableAll_iff h, noneEmpty_quantified,
      and_assoc]
    exact and_congr_right fun _ => and_left_comm

end Filter

/-! ### Letters -/

theorem forall₂_sameLetters_iff {as bs : List String} : List.Forall₂ SameLetters as bs ↔
    as.map (fun s => s.toList.map Char.toLower) = bs.map fun s => s.toList.map Char.toLower := by
  rw [← List.forall₂_eq_eq_eq, List.forall₂_map_left_iff, List.forall₂_map_right_iff]
  rfl

namespace ColumnPath

/-- The path begins with the segments of another one, letter by letter. -/
def Repeats (p c : ColumnPath) : Prop := c.segments <+: p.segments

/-- A path that continues another one begins with its segments up to letter case. -/
private theorem sameLetters_of_beginsWith : ∀ {ss ts : List String}, ss.all isSegment = true →
    ts.all isSegment = true → beginsWith ss ts = true →
      List.Forall₂ SameLetters (ts.take ss.length) ss
  | [], _, _, _, _ => .nil
  | s :: ss, t :: ts, hss, hts, h => by
    rw [List.all_cons, Bool.and_eq_true] at hss hts
    rw [beginsWith, Bool.and_eq_true, beq_iff_eq] at h
    exact .cons (sameLetters_of_foldKey hts.1 hss.1 h.1.symm)
      (sameLetters_of_beginsWith hss.2 hts.2 h.2)

variable {p q : ColumnPath} {scope scope' : Option ColumnPath}

/-- What is taken off a path, and put in front again in another letter case, leaves its letters. -/
theorem respelt_under (h : p.within scope = .ok q)
    (alike : Option.Rel (Respelt SameLetters) scope scope') :
    p.Respelt SameLetters (q.under scope') := by
  cases alike with
  | none =>
    cases h
    exact List.forall₂_same.mpr fun _ _ => rfl
  | @some c c' hc =>
    obtain ⟨hbelow, hq⟩ := relativeTo_eq_ok_iff.mp h
    have htake := sameLetters_of_beginsWith c.valid p.valid (isBelow_iff.mp hbelow).2
    rw [Respelt, forall₂_sameLetters_iff] at hc ⊢
    rw [forall₂_sameLetters_iff, hc] at htake
    -- the segments before the cut have the letters of the scope, and those after it stay
    show _ = (c'.segments ++ q.segments).map _
    rw [List.map_append, hq, ← htake, ← List.map_append]
    exact congrArg _ (List.take_append_drop _ _).symm

/-- A path is put together again exactly if it repeats its scope. -/
theorem under_eq_iff (h : p.within scope = .ok q) :
    q.under scope = p ↔ ∀ c ∈ scope, p.Repeats c := by
  cases scope with
  | none =>
    cases h
    simp [under]
  | some c =>
    -- the rest is what stands behind as many segments as the column has, whatever their letters
    obtain ⟨-, hq⟩ := relativeTo_eq_ok_iff.mp h
    simp only [Option.mem_some_iff, forall_eq', Repeats]
    constructor
    · rintro rfl
      exact List.prefix_append _ _
    · intro hprefix
      ext1
      show c.segments ++ q.segments = p.segments
      rw [hq]
      exact List.prefix_append_drop hprefix |>.symm

theorem Repeats.trans {p c d : ColumnPath} (h : p.Repeats c) (h' : c.Repeats d) : p.Repeats d :=
  List.IsPrefix.trans h' h

end ColumnPath

namespace Filter

private theorem respeltAll_underAll {scope scope' : Option ColumnPath} {fs : List Filter}
    {us : List Surface} (alike : Option.Rel (ColumnPath.Respelt SameLetters) scope scope')
    (h : List.Forall₂ (fun f u => ∀ scope',
      Option.Rel (ColumnPath.Respelt SameLetters) scope scope' →
        Respelt SameLetters f (Surface.under scope' u)) fs us) :
    RespeltAll SameLetters fs (Surface.underAll scope' us) := by
  induction h with
  | nil => exact .nil
  | cons hfirst _ ih => exact .cons (hfirst _ alike) ih

/-- The tree of the surface form, below a scope in another letter case, differs in letter case
only. -/
theorem respelt_along : AlongSurface fun scope f u => ∀ scope',
    Option.Rel (ColumnPath.Respelt SameLetters) scope scope' →
      f.Respelt SameLetters (u.under scope') := by
  refine ⟨fun hcolumn scope' alike => ?_, fun h scope' alike => ?_,
    fun hcolumn h scope' alike => ?_⟩
  · exact .leaf (ColumnPath.respelt_under hcolumn alike) _ _
  · exact .group _ (respeltAll_underAll alike h)
  · -- the column itself is the scope of what is below it
    have hpath := ColumnPath.respelt_under hcolumn alike
    exact .quantified _ hpath (respeltAll_underAll (.some hpath) h)

/-- Conditions are put together again exactly if each of them is. -/
private theorem underAll_eq_iff {scope : Option ColumnPath} {A : Filter → Prop} {fs : List Filter}
    {us : List Surface} (h : List.Forall₂ (fun f u => Surface.under scope u = f ↔ A f) fs us) :
    Surface.underAll scope us = fs ↔ ∀ f ∈ fs, A f := by
  induction h with
  | nil => simp [Surface.underAll]
  | cons hfirst _ ih =>
    rw [Surface.underAll, List.cons.injEq, hfirst, ih, List.forall_mem_cons]

/-- What holds of the columns of conditions holds of those of each condition. -/
private theorem forall_and_columns_iff {A : Filter → Prop} {B : ColumnPath → ColumnPath → Prop}
    {scope : Option ColumnPath} {fs : List Filter} :
    (∀ f ∈ fs, A f ∧ ∀ c ∈ scope, ∀ p ∈ f.columns, B p c) ↔
      (∀ f ∈ fs, A f) ∧ ∀ c ∈ scope, ∀ p ∈ columnsAll fs, B p c := by
  constructor
  · refine fun h => ⟨fun f hf => (h f hf).1, fun c hc p hp => ?_⟩
    obtain ⟨f, hf, hp⟩ := mem_columnsAll.mp hp
    exact (h f hf).2 c hc p hp
  · exact fun h f hf =>
      ⟨h.1 f hf, fun c hc p hp => h.2 c hc p (mem_columnsAll.mpr ⟨f, hf, hp⟩)⟩

/-- **Letter case.** The tree of the surface form is the tree itself exactly if every column below a
quantifier repeats the quantifier's column. -/
theorem under_eq_along : AlongSurface fun scope f u => u.under scope = f ↔
    f.Scoped ColumnPath.Repeats ∧ ∀ c ∈ scope, ∀ p ∈ f.columns, p.Repeats c := by
  refine ⟨fun hcolumn => ?_, fun h => ?_, fun hcolumn h => ?_⟩
  · rw [Surface.under, Filter.leaf.injEq, ColumnPath.under_eq_iff hcolumn]
    simp [scoped_leaf, columns]
  · rw [Surface.under, Filter.group.injEq, underAll_eq_iff h, forall_and_columns_iff, scoped_group]
    exact and_iff_right rfl
  · next scope q c column fs us =>
    have hparts : column.under scope = c ∧ Surface.underAll (some (column.under scope)) us = fs ↔
        column.under scope = c ∧ Surface.underAll (some c) us = fs :=
      and_congr_right fun hc => by rw [hc]
    rw [Surface.under, Filter.quantified.injEq, hparts, ColumnPath.under_eq_iff hcolumn,
      underAll_eq_iff h, forall_and_columns_iff, scoped_quantified]
    simp only [true_and, Option.mem_some_iff, forall_eq', columns, List.forall_mem_cons]
    constructor
    · -- what repeats the column repeats all scopes around it
      exact fun ⟨hc, hfs, hcolumns⟩ => ⟨⟨hcolumns, hfs⟩,
        fun d hd => ⟨hc d hd, fun p hp => (hcolumns p hp).trans (hc d hd)⟩⟩
    · exact fun ⟨⟨hcolumns, hfs⟩, hscope⟩ => ⟨fun d hd => (hscope d hd).1, hfs, hcolumns⟩

end Filter

/-! ### Filters and criteria from data -/

theorem balanced_of_checkValue {v : RawText} (h : checkValue v = .ok v) :
    Balanced v.text.toList := by
  rw [checkValue] at h
  split at h
  · next hbalance => exact (imbalanceFrom_eq_none_iff 0 0 _).mp hbalance
  · cases h

namespace Filter

variable {fs : List Filter}

/-- The text of filters that are qualified and textual, and have balanced values: what it is read
as, and when it is read. -/
theorem formatAll_spec (qualified : ∀ f ∈ fs, f.Qualified) (textual : ∀ f ∈ fs, f.IsTextual)
    (values : ∀ p o v, (p, o, v) ∈ leavesAll fs → checkValue v = .ok v) :
    ∃ text us, formatAll fs = .ok text ∧ surfaceAll none fs = .ok us ∧
      RespeltAll SameLetters fs (Surface.trees us) ∧
      (∀ gs, parseAll text = .ok gs ↔ (∀ f ∈ fs, f.NoneEmpty) ∧ gs = Surface.trees us) ∧
      (Surface.trees us = fs ↔ ∀ f ∈ fs, f.Scoped ColumnPath.Repeats) := by
  obtain ⟨us, hus⟩ := exists_surfaceAll fs none qualified (by simp)
  -- a value is legible if it is balanced, which is what checking it looks at
  have hlegible : Surface.LegibleAll us := by
    refine Surface.legibleAll_iff.mpr fun u hu => ?_
    obtain ⟨f, hf, hfu⟩ := exists_of_mem_forall₂ (legible_along.of_surfaceAll fs hus) hu
    exact hfu (textual f hf) fun l hl =>
      balanced_of_checkValue (values l.1 l.2.1 l.2.2 (mem_leavesAll.mpr ⟨f, hf, hl⟩))
  refine ⟨_, us, by rw [formatAll, formatAllIn_eq, hus]; rfl, hus,
    respeltAll_underAll .none (respelt_along.of_surfaceAll fs hus), fun gs => ?_, ?_⟩
  · rw [hlegible.parseAll_iff, printableAll_iff (printable_along.of_surfaceAll fs hus),
      and_iff_right hlegible]
  · rw [Surface.trees, underAll_eq_iff (under_eq_along.of_surfaceAll fs hus)]
    simp

/-- The same for one filter. -/
theorem format_spec {f : Filter} (qualified : f.Qualified) (textual : f.IsTextual)
    (values : ∀ p o v, (p, o, v) ∈ f.leaves → checkValue v = .ok v) :
    ∃ text u, f.format = .ok text ∧ f.surface none = .ok u ∧ f.Respelt SameLetters u.tree ∧
      (∀ g, parse text = .ok g ↔ f.NoneEmpty ∧ g = u.tree) ∧
      (u.tree = f ↔ f.Scoped ColumnPath.Repeats) := by
  obtain ⟨u, hu⟩ := exists_surface f none qualified (by simp)
  -- a value is legible if it is balanced, which is what checking it looks at
  have hlegible := legible_along.of_surface f hu textual fun l hl =>
    balanced_of_checkValue (values l.1 l.2.1 l.2.2 hl)
  refine ⟨_, u, by rw [format, formatIn_eq, hu]; rfl, hu,
    respelt_along.of_surface f hu none .none, fun g => ?_, ?_⟩
  · rw [hlegible.parse_iff, printable_along.of_surface f hu, and_iff_right hlegible]
  · rw [Surface.tree, under_eq_along.of_surface f hu]
    simp

end Filter

namespace Criteria

/-- The filters of criteria from data are filters from data. -/
theorem exists_ofData_of_mem {d : Value} {c : Criteria} (h : ofData d = .ok c) :
    ∀ f ∈ c.filters, ∃ v, Filter.ofData v = .ok f := by
  cases d with
  | map entries =>
    obtain ⟨items, -, h⟩ := bind_eq_ok_iff.mp h
    obtain ⟨fs, hfs, h⟩ := bind_eq_ok_iff.mp h
    obtain ⟨sortItems, -, h⟩ := bind_eq_ok_iff.mp h
    obtain ⟨sorting, -, h⟩ := bind_eq_ok_iff.mp h
    cases h
    intro f hf
    -- the filters are loaded one by one
    obtain ⟨v, -, hv⟩ := exists_of_mem_mapM hfs hf
    exact ⟨v, hv⟩
  | _ => cases h

end Criteria

/-- **Filters from data, as text.** If the values of such a filter can stand between parentheses, it
has a text. The text is read exactly if no combinator in the filter is without conditions, and then
as the filter that spells every column below a quantifier as the quantifier does. This is the filter
itself exactly if it spells them so already, and differs from it in the letter case of columns only.
The filter text of criteria from data is read in the same way. -/
theorem texts_ofData :
    (∀ d f, Filter.ofData d = .ok f →
      (∀ p o v, (p, o, v) ∈ f.leaves → checkValue v = .ok v) →
      ∃ text u, f.format = .ok text ∧ f.surface none = .ok u ∧ f.Respelt SameLetters u.tree ∧
        (∀ g, Filter.parse text = .ok g ↔ f.NoneEmpty ∧ g = u.tree) ∧
        (u.tree = f ↔ f.Scoped ColumnPath.Repeats)) ∧
    (∀ d c, Criteria.ofData d = .ok c →
      (∀ p o v, (p, o, v) ∈ Filter.leavesAll c.filters → checkValue v = .ok v) →
      ∃ text us, c.filterText = .ok text ∧ Filter.surfaceAll none c.filters = .ok us ∧
        Filter.RespeltAll SameLetters c.filters (Surface.trees us) ∧
        (∀ gs, Criteria.parseFilters (some text) = .ok gs ↔
          (∀ f ∈ c.filters, f.NoneEmpty) ∧ gs = Surface.trees us) ∧
        (Surface.trees us = c.filters ↔ ∀ f ∈ c.filters, f.Scoped ColumnPath.Repeats)) := by
  refine ⟨fun d f loaded => ?_, fun d c loaded => ?_⟩
  · exact Filter.format_spec (Filter.qualified_ofData d loaded) (Filter.isTextual_ofData d loaded)
  · -- each filter of the criteria was loaded from data of its own
    refine Filter.formatAll_spec (fun f hf => ?_) fun f hf => ?_
    · obtain ⟨v, hv⟩ := Criteria.exists_ofData_of_mem loaded f hf
      exact Filter.qualified_ofData v hv
    · obtain ⟨v, hv⟩ := Criteria.exists_ofData_of_mem loaded f hf
      exact Filter.isTextual_ofData v hv

/-- A condition on `ROLES.name` below a quantifier over `roles`, alone and beside an empty group. -/
theorem texts_ofData_of_roles :
    let roles : ColumnPath := ⟨["roles"], by decide, by decide⟩
    let name : ColumnPath := ⟨["ROLES", "name"], by decide, by decide⟩
    let f : Filter := .quantified .any roles [.leaf name .eq (.plain "x")]
    let c : Criteria := ⟨[.group .or [], f], []⟩
    (∃ text u, f.format = .ok text ∧ f.surface none = .ok u ∧ f.Respelt SameLetters u.tree ∧
      (∀ g, Filter.parse text = .ok g ↔ f.NoneEmpty ∧ g = u.tree) ∧
      (u.tree = f ↔ f.Scoped ColumnPath.Repeats)) ∧
    ∃ text us, c.filterText = .ok text ∧ Filter.surfaceAll none c.filters = .ok us ∧
      Filter.RespeltAll SameLetters c.filters (Surface.trees us) ∧
      (∀ gs, Criteria.parseFilters (some text) = .ok gs ↔
        (∀ f ∈ c.filters, f.NoneEmpty) ∧ gs = Surface.trees us) ∧
      (Surface.trees us = c.filters ↔ ∀ f ∈ c.filters, f.Scoped ColumnPath.Repeats) := by
  intro roles name f c
  have values : ∀ p o v, (p, o, v) ∈ f.leaves → checkValue v = .ok v := by
    intro p o v h
    cases List.mem_singleton.mp h
    decide +kernel
  exact ⟨texts_ofData.1 f.toData f (by decide +kernel) values,
    texts_ofData.2 c.toData c (by decide +kernel) values⟩

/-- **The text of data need not say what the data says.** An empty group is written as `and()`,
which is refused, and the condition on `ROLES.name` is read as one on `roles.name`. -/
theorem texts_ofData_not_read :
    let roles : ColumnPath := ⟨["roles"], by decide, by decide⟩
    let f : Filter :=
      .quantified .any roles [.leaf ⟨["ROLES", "name"], by decide, by decide⟩ .eq (.plain "x")]
    let g : Filter :=
      .quantified .any roles [.leaf ⟨["roles", "name"], by decide, by decide⟩ .eq (.plain "x")]
    (Filter.ofData (.map [("op", .text "and"), ("conditions", .list [])]) = .ok (.group .and []) ∧
      (Filter.group .and []).format = .ok "and()" ∧ ∀ g, Filter.parse "and()" ≠ .ok g) ∧
    (Filter.ofData (.map [("op", .text "any"), ("column", .text "roles"), ("conditions", .list
        [.map [("op", .text "eq"), ("column", .text "ROLES.name"), ("value", .text "x")]])]) =
        .ok f ∧ f.format = .ok "roles:any(name:eq(x))" ∧
      Filter.parse "roles:any(name:eq(x))" = .ok g ∧ g ≠ f) := by
  intro roles f g
  have hrefused : Filter.parse "and()" = .error (.inText .noArguments "and()") := by decide +kernel
  refine ⟨⟨by decide +kernel, by decide +kernel, fun g hg => ?_⟩, by decide +kernel,
    by decide +kernel, by decide +kernel, by decide +kernel⟩
  rw [hrefused] at hg
  cases hg

end RecordQuery
