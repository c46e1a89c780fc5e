import RecordQuery.Builder.Handle
import RecordQuery.Proofs.Grammar

/-!
# Filters that survive their text

A filter that is built in code from column handles can be written out and read back: the reader
gives the same tree. The proof goes through the surface form, which is what stands in the text.

* `Surface.Printable` — what makes the text readable: plain identifiers, plain and balanced values,
  and no combinator without conditions. Such a text derives its form (`Surface.readable`).
* `Surface.Legible` — the same without the last condition; the text is still one call
  (`Surface.framed`), though it may not be read.
* `Built` — the trees that handles, leaf methods and combinators make; `Built.exists_surface` finds
  a printable form for each of them.

A value may hold anything, commas, colons, blanks at its ends and whole calls included. All that
counts is that its parentheses balance, and the leaf methods check that.
-/

namespace RecordQuery

open Text

/-! ### Readable texts -/

/-- All segments of a path are identifiers without a line break at the end. -/
def ColumnPath.Plain (p : ColumnPath) : Prop := ∀ s ∈ p.segments, IsIdentifier s.toList

namespace Surface

mutual

/-- What makes the text of a surface form readable. -/
def Printable : Surface → Prop
  | leaf c _ v => c.Plain ∧ ∃ s, v = .plain s ∧ Balanced s.toList
  | group _ us => us ≠ [] ∧ PrintableAll us
  | quantified _ c us => c.Plain ∧ us ≠ [] ∧ PrintableAll us
termination_by structural u => u

/-- What makes the texts of several surface forms readable. -/
def PrintableAll : List Surface → Prop
  | [] => True
  | u :: us => Printable u ∧ PrintableAll us
termination_by structural us => us

end

mutual

/-- Plain identifiers, and plain and balanced values. A form may be legible and not printable, as a
combinator may be without conditions. -/
def Legible : Surface → Prop
  | leaf c _ v => c.Plain ∧ ∃ s, v = .plain s ∧ Balanced s.toList
  | group _ us => LegibleAll us
  | quantified _ c us => c.Plain ∧ LegibleAll us
termination_by structural u => u

/-- All forms are legible. -/
def LegibleAll : List Surface → Prop
  | [] => True
  | u :: us => Legible u ∧ LegibleAll us
termination_by structural us => us

end

mutual

theorem Printable.legible : ∀ {u : Surface}, u.Printable → u.Legible
  | leaf _ _ _, h => h
  | group _ _, h => PrintableAll.legible h.2
  | quantified _ _ _, h => ⟨h.1, PrintableAll.legible h.2.2⟩

theorem PrintableAll.legible : ∀ {us : List Surface}, PrintableAll us → LegibleAll us
  | [], _ => trivial
  | _ :: _, h => ⟨Printable.legible h.1, PrintableAll.legible h.2⟩

end

end Surface

theorem isIdentifier_trimmed {cs : List Char} (h : IsIdentifier cs) : Trimmed cs :=
  .of_forall fun c hc => (continuesIdentifier_ne (continuesIdentifier_of_mem h c hc)).1

/-- The written form of a plain path is read as this path. -/
theorem ColumnPath.Plain.isColumn_text {p : ColumnPath} (h : p.Plain) :
    IsColumn p.text.toList p := by
  refine ⟨p.segments.map String.toList, ?_, ?_, ?_, ?_⟩
  · simpa using p.nonempty
  · simp [ColumnPath.text, join]
  · intro q hq
    obtain ⟨s, hs, rfl⟩ := List.mem_map.mp hq
    rw [(isIdentifier_trimmed (h s hs)).trim_eq_self]
    exact h s hs
  · -- an identifier has no blanks around it
    have htrim : ∀ s ∈ p.segments, String.ofList (trim s.toList) = s := by
      intro s hs
      rw [(isIdentifier_trimmed (h s hs)).trim_eq_self, String.ofList_toList]
    rw [List.map_map]
    exact (List.map_id _).symm.trans (List.map_congr_left fun s hs => (htrim s hs).symm)

/-- The written form of a plain path begins with a letter or an underscore. -/
theorem ColumnPath.Plain.first_text {p : ColumnPath} (h : p.Plain) :
    ∃ c cs, p.text.toList = c :: cs ∧ isBlank c = false := by
  cases hsegments : p.segments with
  | nil => exact absurd hsegments p.nonempty
  | cons s ss =>
    have hs := h s (by simp [hsegments])
    -- a segment has a first character, which is no blank
    cases hcs : s.toList with
    | nil => simp [hcs, IsIdentifier] at hs
    | cons c cs =>
      have hc := continuesIdentifier_of_mem hs c (by simp [hcs])
      refine ⟨c, ['.'].intercalate (cs :: ss.map String.toList), ?_, (continuesIdentifier_ne hc).1⟩
      simp [ColumnPath.text, join, hsegments, hcs]

/-! ### Calls -/

theorem Balanced.call {head body : List Char} (hopen : '(' ∉ head) (hclose : ')' ∉ head)
    (hcomma : ',' ∉ head) (h : Balanced body) :
    Balanced (head ++ '(' :: (body ++ [')'])) ∧ Guarded 0 (head ++ '(' :: (body ++ [')'])) := by
  have hhead : Balanced head := balanced_of_forall fun c hc =>
    ⟨fun heq => hopen (heq ▸ hc), fun heq => hclose (heq ▸ hc)⟩
  exact ⟨hhead.append h.enclosed,
    Guarded.append hhead (guarded_of_notMem hcomma 0) (h.guarded_enclosed 0)⟩

theorem trimmed_call {c : Char} {cs : List Char} (hc : isBlank c = false) (body : List Char) :
    Trimmed (c :: cs ++ '(' :: (body ++ [')'])) := by
  have hend : c :: (cs ++ '(' :: (body ++ [')'])) = (c :: cs ++ '(' :: body) ++ [')'] := by simp
  exact Trimmed.of_ends hc (by decide) hend

theorem trimmed_group (k : Connective) (body : List Char) :
    Trimmed (k.word.toList ++ '(' :: (body ++ [')'])) := by
  cases k
  · exact trimmed_call (by decide) body
  · exact trimmed_call (by decide) body

/-- A keyword spells itself. -/
theorem spells_word {word : String} (hplain : ∀ c ∈ word.toList, isPlainLower c = true) :
    Spells word word.toList := by
  have hblank : ∀ c ∈ word.toList, isBlank c = false := by
    intro c hc
    have hbounds := hplain c hc
    simp only [isPlainLower, Bool.and_eq_true, decide_eq_true_eq] at hbounds
    simp only [isBlank, Bool.or_eq_false_iff, Bool.and_eq_false_iff, decide_eq_false_iff_not,
      beq_eq_false_iff_ne]
    omega
  rw [Spells, (Trimmed.of_forall hblank).trim_eq_self, map_toLower_eq_self hplain]

theorem notMem_word {word : String} (hplain : ∀ c ∈ word.toList, isPlainLower c = true) :
    '(' ∉ word.toList ∧ ')' ∉ word.toList ∧ ',' ∉ word.toList := by
  refine ⟨?_, ?_, ?_⟩ <;> exact fun hc => absurd (hplain _ hc) (by decide)

/-! ### Arguments as they are printed -/

/-- The texts with a blank before each of them but the first. -/
def spaced : List (List Char) → List (List Char)
  | [] => []
  | t :: ts => t :: ts.map (' ' :: ·)

/-- The blank of a separator may count as the beginning of the text behind it. -/
private theorem intercalate_spaced (texts : List (List Char)) :
    [','].intercalate (spaced texts) = argumentSeparator.toList.intercalate texts := by
  -- behind the first text, each one has its blank in front of it
  have hblanks : ∀ ts : List (List Char), ts ≠ [] → [','].intercalate (ts.map (' ' :: ·)) =
      ' ' :: argumentSeparator.toList.intercalate ts := by
    intro ts hne
    induction ts with
    | nil => exact absurd rfl hne
    | cons t ts ih =>
      cases ts with
      | nil => simp
      | cons t' ts =>
        rw [List.map_cons, List.map_cons, List.intercalate_cons_cons, ← List.map_cons, ih (by simp),
          List.intercalate_cons_cons]
        simp [argumentSeparator]
  cases texts with
  | nil => rfl
  | cons t ts =>
    cases ts with
    | nil => simp [spaced]
    | cons t' ts =>
      rw [spaced, List.map_cons, List.intercalate_cons_cons, ← List.map_cons, hblanks _ (by simp),
        List.intercalate_cons_cons]
      simp [argumentSeparator]

/-- **Printed arguments are cut apart again**, if each of them balances and guards its commas. -/
theorem parts_spaced {texts : List (List Char)} (hne : texts ≠ [])
    (balanced : ∀ t ∈ texts, Balanced t) (guarded : ∀ t ∈ texts, Guarded 0 t) :
    Parts (argumentSeparator.toList.intercalate texts) (spaced texts) := by
  cases texts with
  | nil => exact absurd rfl hne
  | cons t ts =>
    rw [List.forall_mem_cons] at balanced guarded
    -- the blank behind a comma goes to the next part
    refine ⟨List.cons_ne_nil _ _, intercalate_spaced _, ?_, ?_⟩
    · rw [spaced, List.forall_mem_cons, List.forall_mem_map]
      refine ⟨balanced.1, fun p hp => ?_⟩
      exact (closes_other_iff (by decide) (by decide) 0 p).mpr (balanced.2 p hp)
    · rw [spaced, List.forall_mem_cons, List.forall_mem_map]
      refine ⟨guarded.1, fun p hp => ?_⟩
      exact (guarded_other_iff (by decide) (by decide) (by decide) 0 p).mpr (guarded.2 p hp)

theorem map_trim_spaced (texts : List (List Char)) : (spaced texts).map trim = texts.map trim := by
  cases texts with
  | nil => rfl
  | cons t ts => simp [spaced, trim_blank_cons]

/-! ### What the texts derive -/

namespace Surface

/-- The text of a legible form is a call: it balances, guards its commas, and has no blank at its
ends. -/
structure Framed (u : Surface) : Prop where
  balanced : Balanced u.chars
  guarded : Guarded 0 u.chars
  trimmed : Trimmed u.chars

/-- The text of a readable form is such a call, and it derives the form. -/
structure Readable (u : Surface) : Prop extends Framed u where
  derives : Derives u.chars u

theorem charsAll_eq_map (us : List Surface) : charsAll us = us.map chars := by
  induction us with
  | nil => rfl
  | cons u us ih => rw [charsAll, ih, List.map_cons]

/-- The arguments of a call, as the printer joins them, are cut apart again. -/
theorem parts_of_framed {us : List Surface} (hne : us ≠ []) (h : ∀ u ∈ us, Framed u) :
    Parts (argumentSeparator.toList.intercalate (charsAll us)) (spaced (charsAll us)) := by
  rw [charsAll_eq_map]
  refine parts_spaced (by simpa using hne) ?_ ?_
  · exact List.forall_mem_map.mpr fun u hu => (h u hu).balanced
  · exact List.forall_mem_map.mpr fun u hu => (h u hu).guarded

private theorem balanced_arguments {us : List Surface} (h : ∀ u ∈ us, Framed u) :
    Balanced (argumentSeparator.toList.intercalate (charsAll us)) := by
  cases us with
  | nil => simp [charsAll]
  | cons u us => exact (parts_of_framed (List.cons_ne_nil u us) h).balanced_body

/-- The arguments of a call, as the printer joins them, derive what their texts derive. -/
private theorem parts_of_readable {us : List Surface} (hne : us ≠ [])
    (h : ∀ u ∈ us, Readable u) :
    ∃ parts, Parts (argumentSeparator.toList.intercalate (charsAll us)) parts ∧
      List.Forall₂ Derives parts us := by
  refine ⟨spaced (charsAll us), parts_of_framed hne fun u hu => (h u hu).toFramed, ?_⟩
  cases us with
  | nil => exact .nil
  | cons u us =>
    rw [List.forall_mem_cons] at h
    refine .cons h.1.derives ?_
    rw [charsAll_eq_map, List.map_map, List.forall₂_map_left_iff, List.forall₂_same]
    -- the blank behind a comma belongs to the next argument, which derives the same with it
    exact fun v hv => (h.2 v hv).derives.of_trim (trim_blank_cons v.chars).symm

/-- A call behind a column: what holds of it whatever it calls. -/
private theorem column_call {c : ColumnPath} (hc : c.Plain) {word : String}
    (hplain : ∀ d ∈ word.toList, isPlainLower d = true) {body : List Char} (h : Balanced body) :
    Balanced (c.text.toList ++ ':' :: (word.toList ++ '(' :: (body ++ [')']))) ∧
      Guarded 0 (c.text.toList ++ ':' :: (word.toList ++ '(' :: (body ++ [')']))) ∧
      Trimmed (c.text.toList ++ ':' :: (word.toList ++ '(' :: (body ++ [')']))) := by
  obtain ⟨-, hopen, hclose, hcomma⟩ := hc.isColumn_text.notMem
  -- neither the column nor the word has a mark of the grammar, apart from the colon between them
  obtain ⟨hopen', hclose', hcomma'⟩ := notMem_word hplain
  have hhead : ∀ ds : List Char, c.text.toList ++ ':' :: (word.toList ++ ds) =
      (c.text.toList ++ ':' :: word.toList) ++ ds := by simp
  rw [hhead]
  have hheadOpen : '(' ∉ c.text.toList ++ ':' :: word.toList := by simp [hopen, hopen']
  have hheadClose : ')' ∉ c.text.toList ++ ':' :: word.toList := by simp [hclose, hclose']
  have hheadComma : ',' ∉ c.text.toList ++ ':' :: word.toList := by simp [hcomma, hcomma']
  have hcall := h.call hheadOpen hheadClose hheadComma
  refine ⟨hcall.1, hcall.2, ?_⟩
  obtain ⟨d, ds, htext, hd⟩ := hc.first_text
  rw [htext]
  exact trimmed_call hd body

mutual

/-- The text of a legible form is a call, whatever it says. -/
theorem framed : ∀ u : Surface, Legible u → Framed u
  | leaf c o v, h => by
    obtain ⟨hc, s, rfl, hs⟩ := h
    obtain ⟨hbalanced, hguarded, htrimmed⟩ := column_call hc o.word_plain hs
    constructor <;> rwa [chars, RawText.formText_plain]
  | group k us, h => by
    have hbody := balanced_arguments (framedAll us h)
    obtain ⟨hopen, hclose, hcomma⟩ := notMem_word k.word_plain
    -- a group is its word around its arguments, a condition has a column before
    have hcall := hbody.call hopen hclose hcomma
    have htrimmed := trimmed_group k (argumentSeparator.toList.intercalate (charsAll us))
    constructor <;> rw [chars]
    · exact hcall.1
    · exact hcall.2
    · exact htrimmed
  | quantified q c us, h => by
    obtain ⟨hc, hus⟩ := h
    have hbody := balanced_arguments (framedAll us hus)
    obtain ⟨hbalanced, hguarded, htrimmed⟩ := column_call hc q.word_plain hbody
    constructor <;> rwa [chars]

theorem framedAll : ∀ us : List Surface, LegibleAll us → ∀ u ∈ us, Framed u
  | [], _ => List.forall_mem_nil _
  | u :: us, h => List.forall_mem_cons.mpr ⟨framed u h.1, framedAll us h.2⟩

end

mutual

/-- **Readable texts.** The text of a printable form derives the form. -/
theorem readable : ∀ u : Surface, Printable u → Readable u
  | leaf c o v, h => by
    have hframed := framed (leaf c o v) h.legible
    obtain ⟨hc, s, rfl, hs⟩ := h
    refine ⟨hframed, ?_⟩
    have hchars : (leaf c o (.plain s)).chars =
        c.text.toList ++ ':' :: (o.word.toList ++ '(' :: (s.toList ++ [')'])) := by
      rw [chars, RawText.formText_plain]
    -- the value is printed as it is, and taken as it stands
    have hcall := Derives.call (hframed.trimmed.trim_eq_self.trans hchars) hc.isColumn_text
      (spells_word o.word_plain) hs
    rwa [String.ofList_toList] at hcall
  | group k us, h => by
    have hframed := framed (group k us) h.legible
    obtain ⟨hne, hus⟩ := h
    obtain ⟨parts, hparts, hderives⟩ := parts_of_readable hne (readableAll us hus)
    exact ⟨hframed, .group (hframed.trimmed.trim_eq_self.trans (by rw [chars]))
      (spells_word k.word_plain) hparts hderives⟩
  | quantified q c us, h => by
    have hframed := framed (quantified q c us) h.legible
    obtain ⟨hc, hne, hus⟩ := h
    obtain ⟨parts, hparts, hderives⟩ := parts_of_readable hne (readableAll us hus)
    exact ⟨hframed, .quantified (hframed.trimmed.trim_eq_self.trans (by rw [chars]))
      hc.isColumn_text (spells_word q.word_plain) hparts hderives⟩

theorem readableAll : ∀ us : List Surface, PrintableAll us → ∀ u ∈ us, Readable u
  | [], _ => by simp
  | u :: us, h => by
    rintro w (_ | ⟨_, hw⟩)
    · exact readable u h.1
    · exact readableAll us h.2 w hw

end

end Surface

/-! ### Trees that are built in code -/

/-- Handles whose paths were given as text: a column of a type or of no type, and a column below
another one. -/
inductive Handle.FromText (s : Schema) : Handle → Prop
  | root {name : String} {path : ColumnPath} {type : Option TypeExpr} {h : Handle}
      (parsed : ColumnPath.parse name = .ok path) (made : Handle.ofPath s type path = .ok h) :
      FromText s h
  | child {name : String} {h below : Handle} (parent : FromText s h)
      (made : h.child s name = .ok below) : FromText s below

/-- Trees that are built from handles. The leaf methods are the tests of the operators, and the
membership test of several values or of one collection of them. -/
inductive Built (s : Schema) : Filter → Prop
  | test {h : Handle} {o : Operator} {v : Value} {text : String} {t : Filter}
      (handle : h.FromText s) (rendered : v.written = .ok (.plain text))
      (made : h.test o v = .ok t) : Built s t
  | among {h : Handle} {vs : List Value} {text : String} {t : Filter} (handle : h.FromText s)
      (rendered : (Value.list (Handle.spread vs)).written = .ok (.plain text))
      (made : h.among vs = .ok t) : Built s t
  /-- `and_` and `or_` -/
  | group {k : Connective} {ts : List Filter} {t : Filter} (children : ∀ f ∈ ts, Built s f)
      (made : composeAll (.connective k) (ts.map .node) none = .ok t) : Built s t
  /-- `&` and `|` -/
  | combine {k : Connective} {f g t : Filter} (left : Built s f) (right : Built s g)
      (made : NodePart.combine k (.node f) (.node g) = .ok (.node t)) : Built s t
  /-- `any` and `all` -/
  | quantify {h : Handle} {q : Quantifier} {ts : List Filter} {t : Filter} (handle : h.FromText s)
      (children : ∀ f ∈ ts, Built s f) (made : h.quantify q (ts.map .node) = .ok t) : Built s t

theorem Handle.ofPath_path {s : Schema} {type : Option TypeExpr} {path : ColumnPath} {h : Handle}
    (made : Handle.ofPath s type path = .ok h) : h.path = path := by
  cases type with
  | none =>
    cases made
    rfl
  | some t =>
    obtain ⟨-, -, hh⟩ := bind_eq_ok_iff.mp made
    cases hh
    rfl

/-- A path that was given as text is plain, since the blanks around its segments are gone. -/
theorem ColumnPath.plain_of_parse {name : String} {path : ColumnPath}
    (h : ColumnPath.parse name = .ok path) : path.Plain := by
  rw [← String.ofList_toList (s := name), ColumnPath.parse_eq_ok_iff] at h
  obtain ⟨parts, -, -, hid, hsegments⟩ := h
  intro s hs
  rw [hsegments] at hs
  obtain ⟨q, hq, rfl⟩ := List.mem_map.mp hs
  rw [String.toList_ofList]
  exact hid q hq

theorem Handle.FromText.plain {s : Schema} {h : Handle} (hh : h.FromText s) : h.path.Plain := by
  induction hh with
  | root parsed made =>
    rw [Handle.ofPath_path made]
    exact ColumnPath.plain_of_parse parsed
  | child parent made ih =>
    obtain ⟨path, hpath, made⟩ := bind_eq_ok_iff.mp made
    rw [Handle.ofPath_path made]
    intro t ht
    rw [ColumnPath.segments_append, List.mem_append] at ht
    -- the segments of the parent, and those of the text that was given
    rcases ht with ht | ht
    · exact ih t ht
    · exact ColumnPath.plain_of_parse hpath t ht

/-- Trees of surface forms, one by one, are those of a list of surface forms. -/
theorem Surface.exists_trees {P : Surface → Prop} {ts : List Filter}
    (h : ∀ f ∈ ts, ∃ u : Surface, P u ∧ u.tree = f) :
    ∃ us, (∀ u ∈ us, P u) ∧ Surface.trees us = ts := by
  induction ts with
  | nil => exact ⟨[], List.forall_mem_nil _, rfl⟩
  | cons t ts ih =>
    obtain ⟨u, hu, rfl⟩ := h t List.mem_cons_self
    obtain ⟨us, hus, rfl⟩ := ih fun f hf => h f (List.mem_cons_of_mem _ hf)
    exact ⟨u :: us, List.forall_mem_cons.mpr ⟨hu, hus⟩, rfl⟩

/-- A combinator that the interface makes of trees is the tree of a group, or of a quantified form
over the column that it was given, and has conditions. -/
theorem Surface.exists_of_composeAll {operator : Combinator} {column : Option ColumnPath}
    {us : List Surface} {t : Filter}
    (made : composeAll operator ((Surface.trees us).map .node) column = .ok t) :
    us ≠ [] ∧ ((∃ k, operator = .connective k ∧ column = none ∧ t = (group k us).tree) ∨
      ∃ q c, operator = .quantifier q ∧ column = some c ∧ t = (quantified q c us).tree) := by
  rw [composeAll] at made
  split at made
  · cases made
  · next hne =>
    rw [NodePart.filters_map_node, ok_bind] at made
    -- the interface refuses a combinator of nothing
    have hus : us ≠ [] := by
      rintro rfl
      exact hne rfl
    refine ⟨hus, ?_⟩
    cases operator with
    | connective k =>
      cases column with
      | none =>
        rw [(Surface.compose_trees us).1] at made
        exact .inl ⟨k, rfl, rfl, (Except.ok.inj made).symm⟩
      | some c => cases made
    | quantifier q =>
      cases column with
      | none => cases made
      | some c =>
        rw [(Surface.compose_trees us).2] at made
        exact .inr ⟨q, c, rfl, rfl, (Except.ok.inj made).symm⟩

theorem Surface.printableAll_of_forall : ∀ {us : List Surface}, (∀ u ∈ us, u.Printable) →
    Surface.PrintableAll us
  | [], _ => trivial
  | _ :: _, h =>
    ⟨h _ List.mem_cons_self, printableAll_of_forall fun u hu => h u (List.mem_cons_of_mem _ hu)⟩

private theorem exists_surfaces {ts : List Filter}
    (h : ∀ f ∈ ts, ∃ u : Surface, u.Printable ∧ u.tree = f) :
    ∃ us, Surface.PrintableAll us ∧ Surface.trees us = ts := by
  obtain ⟨us, hus, rfl⟩ := Surface.exists_trees h
  exact ⟨us, Surface.printableAll_of_forall hus, rfl⟩

/-- A condition that is built from a value is a leaf with the text of the value, whose parentheses
balance. -/
theorem Handle.eq_leaf_of_test {h : Handle} {o : Operator} {v : Value} {raw : RawText} {t : Filter}
    (written : v.written = .ok raw) (made : h.test o v = .ok t) :
    t = .leaf h.path o raw ∧ imbalanceFrom 0 0 raw.text.toList = none := by
  obtain ⟨checked, hchecked, rfl⟩ := map_eq_ok_iff.mp made
  rw [Handle.rawOf, written] at hchecked
  simp only [checkValue] at hchecked
  split at hchecked
  · next hbalance =>
    cases hchecked
    exact ⟨rfl, hbalance⟩
  · cases hchecked

private theorem exists_surface_of_test {h : Handle} (hh : h.path.Plain) {o : Operator} {v : Value}
    {text : String} {t : Filter} (rendered : v.written = .ok (.plain text))
    (made : h.test o v = .ok t) : ∃ u : Surface, u.Printable ∧ u.tree = t := by
  obtain ⟨rfl, hbalance⟩ := Handle.eq_leaf_of_test rendered made
  have hbalanced := (imbalanceFrom_eq_none_iff 0 0 _).mp hbalance
  exact ⟨.leaf h.path o (.plain text), ⟨hh, text, rfl, hbalanced⟩, rfl⟩

/-- A combinator of printable forms, made by the interface. -/
private theorem exists_surface_of_composeAll {operator : Combinator} {column : Option ColumnPath}
    {ts : List Filter} {t : Filter} (hcolumn : ∀ p, column = some p → p.Plain)
    (h : ∀ f ∈ ts, ∃ u : Surface, u.Printable ∧ u.tree = f)
    (made : composeAll operator (ts.map .node) column = .ok t) :
    ∃ u : Surface, u.Printable ∧ u.tree = t := by
  obtain ⟨us, hus, rfl⟩ := exists_surfaces h
  obtain ⟨hne, ⟨k, -, -, rfl⟩ | ⟨q, c, -, hc, rfl⟩⟩ := Surface.exists_of_composeAll made
  · exact ⟨.group k us, ⟨hne, hus⟩, rfl⟩
  · exact ⟨.quantified q c us, ⟨hcolumn c hc, hne, hus⟩, rfl⟩

/-- **Built trees are printable.** Each of them is the tree of a printable surface form. -/
theorem Built.exists_surface {s : Schema} {t : Filter} (h : Built s t) :
    ∃ u : Surface, u.Printable ∧ u.tree = t := by
  induction h with
  | test handle rendered made => exact exists_surface_of_test handle.plain rendered made
  | among handle rendered made => exact exists_surface_of_test handle.plain rendered made
  | group _ made ih => exact exists_surface_of_composeAll (by simp) ih made
  | @combine k f g t _ _ made ihf ihg =>
    -- two filters under an operator are a group of two, whatever they are themselves
    obtain ⟨u, hu, rfl⟩ := ihf
    obtain ⟨v, hv, rfl⟩ := ihg
    cases made
    exact ⟨.group k [u, v], ⟨by simp, hu, hv, trivial⟩, rfl⟩
  | @quantify h q ts t handle _ made ih =>
    refine exists_surface_of_composeAll (fun p hp => ?_) ih made
    rw [← Option.some.inj hp]
    exact handle.plain

/-! ### The round trip -/

/-- The text of a printable form is read as its tree. -/
theorem Surface.Printable.parse_format {u : Surface} (h : u.Printable) :
    ∃ text, u.tree.format = .ok text ∧ Filter.parse text = .ok u.tree := by
  refine ⟨String.ofList u.chars, Surface.formatIn_under none u, ?_⟩
  rw [Filter.parse, String.toList_ofList]
  exact (Filter.read_eq_ok_iff _ _).mpr ⟨u, (Surface.readable u h).derives, rfl⟩

/-- The text of a list of printable forms is read as their trees. -/
theorem Surface.PrintableAll.parse_format {us : List Surface} (h : Surface.PrintableAll us) :
    ∃ text, Filter.formatAll (Surface.trees us) = .ok text ∧
      Filter.parseAll text = .ok (Surface.trees us) := by
  refine ⟨join argumentSeparator ((Surface.charsAll us).map String.ofList), ?_, ?_⟩
  · rw [Filter.formatAll, Surface.trees, Surface.formatAllIn_underAll]
    rfl
  · rw [Filter.parseAll_eq_ok_iff]
    have htext : (join argumentSeparator ((Surface.charsAll us).map String.ofList)).toList =
        argumentSeparator.toList.intercalate (Surface.charsAll us) := by
      simp [join, Function.comp_def]
    rw [htext]
    -- no filters are written as a blank text, which has no parts
    cases us with
    | nil => exact ⟨[], .blank rfl, rfl⟩
    | cons u us =>
      obtain ⟨parts, hparts, hderives⟩ :=
        Surface.parts_of_readable (by simp) (Surface.readableAll (u :: us) h)
      exact ⟨u :: us, .parts hparts hderives, rfl⟩

/-- **Built trees survive their text.** A tree that is built from handles has a text, and the text
is read as the same tree; and so for a list of such trees. -/
theorem Built.parse_format_self (s : Schema) :
    (∀ t, Built s t → ∃ text, t.format = .ok text ∧ Filter.parse text = .ok t) ∧
      ∀ ts, (∀ t ∈ ts, Built s t) →
        ∃ text, Filter.formatAll ts = .ok text ∧ Filter.parseAll text = .ok ts := by
  refine ⟨fun t ht => ?_, fun ts hts => ?_⟩
  · obtain ⟨u, hu, rfl⟩ := ht.exists_surface
    exact hu.parse_format
  · obtain ⟨us, hus, rfl⟩ := exists_surfaces fun t ht => (hts t ht).exists_surface
    exact hus.parse_format

/-- The round trip of a condition below a quantifier, with a comma, blanks and a call in its
value. -/
theorem Built.parse_format_self_of_call :
    ∃ t, Built .empty t ∧ ∃ text, t.format = .ok text ∧ Filter.parse text = .ok t := by
  have hroles : ColumnPath.parse "roles" = .ok ⟨["roles"], by decide, by decide⟩ := by rfl
  have hname : ColumnPath.parse "name" = .ok ⟨["name"], by decide, by decide⟩ := by rfl
  have hroot : ∀ {name path}, ColumnPath.parse name = .ok path →
      Handle.FromText .empty ⟨path, none⟩ :=
    fun parsed => .root parsed (show Handle.ofPath .empty none _ = .ok _ from rfl)
  -- the value has blanks, a comma and what looks like a call
  have hleaf : Built .empty (.leaf ⟨["name"], by decide, by decide⟩ .eq (.plain " a, or(b:1) ")) :=
    Built.test (o := .eq) (v := .text " a, or(b:1) ") (hroot hname) rfl rfl
  have htree : Built .empty (.quantified .any ⟨["roles"], by decide, by decide⟩
      [.leaf ⟨["roles", "name"], by decide, by decide⟩ .eq (.plain " a, or(b:1) ")]) :=
    Built.quantify (q := .any) (hroot hroles) (List.forall_mem_singleton.mpr hleaf) rfl
  exact ⟨_, htree, (Built.parse_format_self .empty).1 _ htree⟩

end RecordQuery
