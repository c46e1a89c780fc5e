import RecordQuery.Proofs.Outcome
import RecordQuery.Proofs.Parentheses
import RecordQuery.Proofs.Surface
import RecordQuery.Proofs.Words

/-!
# The grammar of filters

What a text means as a filter, said by rules instead of by the steps of the reader, and the proof
that the reader follows the rules.

* `Derives cs u` — the text `cs` derives the surface form `u`. There is one rule for a group, for a
  quantified filter, for a call of an operator and for a bare value.
* `Filter.parse_eq_ok_iff_derives` — the reader gives a tree exactly when the text derives it.

The reader commits itself as it goes: once a keyword and a parenthesis are met, nothing but a call
is tried. The rules have no order, so the two agree only because no text begins in the way of two
rules: the word of a group cannot end in a column (`connectiveCall?_eq_none`), and the rule of a
bare value excludes what looks like a call (`NamesCall`).

Children are read from trimmed arguments. This is why every rule speaks about the trimmed text, and
why a text and its trimmed text derive the same (`Derives.of_trim`).
-/

namespace RecordQuery

open Text

/-! ### The rules -/

/-- The text begins with the name of an operator or a quantifier and a parenthesis, with nothing but
blanks around the name. -/
def NamesCall (cs : List Char) : Prop :=
  ∃ word tail, cs = word ++ '(' :: tail ∧
    ((∃ o : Operator, Spells o.word word) ∨ ∃ q : Quantifier, Spells q.word word)

/-- A text derives a surface form. -/
inductive Derives : List Char → Surface → Prop
  /-- `and` or `or`, and one or more filters between parentheses that end the text. -/
  | group {cs word body : List Char} {parts : List (List Char)} {k : Connective}
      {us : List Surface} (text : trim cs = word ++ '(' :: (body ++ [')']))
      (keyword : Spells k.word word) (arguments : Parts body parts)
      (children : List.Forall₂ Derives parts us) : Derives cs (.group k us)
  /-- A column, `any` or `all`, and one or more filters between parentheses. -/
  | quantified {cs before word body : List Char} {parts : List (List Char)} {q : Quantifier}
      {p : ColumnPath} {us : List Surface}
      (text : trim cs = before ++ ':' :: (word ++ '(' :: (body ++ [')'])))
      (column : IsColumn before p) (keyword : Spells q.word word) (arguments : Parts body parts)
      (children : List.Forall₂ Derives parts us) : Derives cs (.quantified q p us)
  /-- A column, an operator, and a balanced value between parentheses, taken as it stands. -/
  | call {cs before word body : List Char} {o : Operator} {p : ColumnPath}
      (text : trim cs = before ++ ':' :: (word ++ '(' :: (body ++ [')'])))
      (column : IsColumn before p) (keyword : Spells o.word word) (value : Balanced body) :
      Derives cs (.leaf p o (.plain (String.ofList body)))
  /-- A column and a value that is not blank and does not look like a call. -/
  | bare {cs before rest : List Char} {p : ColumnPath} (text : trim cs = before ++ ':' :: rest)
      (column : IsColumn before p) (nonblank : trim rest ≠ []) (noCall : ¬ NamesCall rest) :
      Derives cs (.leaf p .eq (.plain (String.ofList (trim rest))))

theorem ne_nil_of_derives {body : List Char} {parts : List (List Char)}
    {us : List Surface} (arguments : Parts body parts) (children : List.Forall₂ Derives parts us) :
    us ≠ [] := by
  rintro rfl
  exact arguments.nonempty (List.forall₂_nil_right_iff.mp children)

/-- A text and its trimmed text derive the same. -/
theorem Derives.of_trim {cs ds : List Char} (h : trim cs = trim ds) {u : Surface}
    (hd : Derives cs u) : Derives ds u := by
  cases hd with
  | group text keyword arguments children =>
    exact .group (h ▸ text) keyword arguments children
  | quantified text column keyword arguments children =>
    exact .quantified (h ▸ text) column keyword arguments children
  | call text column keyword value => exact .call (h ▸ text) column keyword value
  | bare text column nonblank noCall => exact .bare (h ▸ text) column nonblank noCall

theorem Derives.trim_ne_nil {cs : List Char} {u : Surface} (h : Derives cs u) : trim cs ≠ [] := by
  cases h with
  | group text => simp [text]
  | quantified text => simp [text]
  | call text => simp [text]
  | bare text => simp [text]

/-! ### Marks in words and columns -/

/-- A mark of the grammar stands in no keyword: it is no blank and the lower case of no letter. -/
theorem notMem_of_spells {word : String} (hword : ∀ c ∈ word.toList, isPlainLower c = true)
    {cs : List Char} (h : Spells word cs) {c : Char} (hblank : isBlank c = false)
    (hplain : isPlainLower c.toLower = false) : c ∉ cs := by
  intro hc
  obtain ⟨before, after, hcs, hbefore, hafter, -⟩ := exists_trim cs
  rw [hcs, List.mem_append, List.mem_append] at hc
  -- among the blanks around the word, or in the word itself
  rcases hc with (hc | hc) | hc
  · simp [hbefore c hc] at hblank
  · have := hword c.toLower (by
      rw [← h]
      exact List.mem_map_of_mem hc)
    simp [hplain] at this
  · simp [hafter c hc] at hblank

/-! ### The steps of the reader -/

theorem cut_eq_some_iff (sep : Char) (cs before after : List Char) :
    cut sep cs = some (before, after) ↔ cs = before ++ sep :: after ∧ sep ∉ before := by
  induction cs generalizing before with
  | nil => simp [cut]
  | cons c cs ih =>
    rw [cut]
    cases before with
    | nil =>
      by_cases hc : c = sep
      · simp [hc, eq_comm]
      · simp [hc]
    | cons d before =>
      -- the first separator is here, or else in the rest
      by_cases hc : c = sep
      · rw [if_pos hc]
        refine iff_of_false (by simp) ?_
        rintro ⟨h, hnot⟩
        rw [List.cons_append, List.cons.injEq] at h
        exact hnot (by rw [← hc, h.1]; exact List.mem_cons_self)
      · rw [if_neg hc, Option.map_eq_some_iff]
        constructor
        · rintro ⟨⟨b, a⟩, hcut, h⟩
          obtain ⟨rfl, hnot⟩ := (ih b).mp (by
            rw [hcut]
            simp only [Prod.mk.injEq] at h
            rw [h.2])
          simp only [Prod.mk.injEq, List.cons.injEq] at h
          obtain ⟨⟨rfl, rfl⟩, -⟩ := h
          exact ⟨rfl, by simpa [Ne.symm hc] using hnot⟩
        · rintro ⟨h, hnot⟩
          rw [List.cons_append, List.cons.injEq] at h
          rw [List.mem_cons, not_or] at hnot
          exact ⟨(before, after), (ih before).mpr ⟨h.2, hnot.2⟩, by rw [h.1]⟩

theorem cut_unique {sep : Char} {before before' after after' : List Char}
    (h : before ++ sep :: after = before' ++ sep :: after') (hnot : sep ∉ before)
    (hnot' : sep ∉ before') : before = before' ∧ after = after' := by
  have hcut := (cut_eq_some_iff sep _ before after).mpr ⟨rfl, hnot⟩
  rw [h, (cut_eq_some_iff sep _ before' after').mpr ⟨rfl, hnot'⟩] at hcut
  simpa [eq_comm] using hcut

/-- **The call of a connective.** The reader finds it exactly where a text begins with a word that
spells a connective, and a parenthesis. -/
theorem connectiveCall?_eq_some_iff (cs : List Char) (k : Connective) (index : Nat) :
    connectiveCall? cs = some (k, index) ↔
      ∃ word rest, cs = word ++ '(' :: rest ∧ Spells k.word word ∧ word.length = index := by
  constructor
  · intro h
    have hparts : cs.takeWhile (· != '(') ++ cs.dropWhile (· != '(') = cs :=
      List.takeWhile_append_dropWhile
    rw [connectiveCall?, List.span_eq_takeWhile_dropWhile] at h
    cases hrest : cs.dropWhile (· != '(') with
    | nil => simp [hrest] at h
    | cons d rest =>
      -- the first part ends at the first parenthesis
      have hd : d = '(' := by
        have := List.head_dropWhile_not (· != '(') (l := cs) (by simp [hrest])
        simpa [hrest] using this
      simp only [hrest] at h
      split at h
      · cases h
      · rw [Option.map_eq_some_iff] at h
        obtain ⟨k', hk, h⟩ := h
        rw [Prod.mk.injEq] at h
        obtain ⟨rfl, hindex⟩ := h
        refine ⟨cs.takeWhile (· != '('), rest, ?_, ?_, hindex⟩
        · subst hd
          rw [← hrest, hparts]
        · exact (Connective.ofToken?_eq_some_iff _ _).mp hk
  · rintro ⟨word, rest, rfl, hspells, rfl⟩
    have hparen : '(' ∉ word := notMem_of_spells k.word_plain hspells (by decide) (by decide)
    have hcolon : ':' ∉ word := notMem_of_spells k.word_plain hspells (by decide) (by decide)
    have hword : ∀ c ∈ word, (c != '(') = true := by
      intro c hc
      rw [bne_iff_ne]
      rintro rfl
      exact hparen hc
    rw [connectiveCall?, span_append hword (by
      intro d es h
      rw [List.cons.injEq] at h
      simp [← h.1])]
    simp only [List.contains_eq_mem, decide_eq_true_eq, if_neg hcolon]
    rw [(Connective.ofToken?_eq_some_iff word k).mpr hspells]
    rfl

/-- A text that begins with a column is no call of a connective: its first colon stands before its
first parenthesis. -/
theorem connectiveCall?_eq_none {before rest : List Char} {p : ColumnPath}
    (h : IsColumn before p) : connectiveCall? (before ++ ':' :: rest) = none := by
  by_contra hne
  obtain ⟨⟨k, index⟩, hsome⟩ := Option.ne_none_iff_exists'.mp hne
  obtain ⟨word, tail, htext, hspells, -⟩ := (connectiveCall?_eq_some_iff _ _ _).mp hsome
  have hcolon : ':' ∉ word := notMem_of_spells k.word_plain hspells (by decide) (by decide)
  -- either the word runs past the colon, or the column has the parenthesis
  rcases List.append_eq_append_iff.mp htext with ⟨r, rfl, hr⟩ | ⟨r, rfl, hr⟩
  · cases r with
    | nil => simp at hr
    | cons d r =>
      rw [List.cons_append, List.cons.injEq] at hr
      rw [← hr.1] at hcolon
      exact hcolon (by simp)
  · cases r with
    | nil => simp at hr
    | cons d r =>
      rw [List.cons_append, List.cons.injEq] at hr
      have hparen := h.notMem.2.1
      rw [← hr.1] at hparen
      exact hparen (by simp)

private theorem isAlpha_of_toLower {c : Char} (h : isPlainLower c.toLower = true) :
    c.isAlpha = true := by
  rw [isAlpha_iff]
  by_cases hupper : 65 ≤ c.toNat ∧ c.toNat ≤ 90
  · exact .inl hupper
  · rw [toLower_eq_self hupper] at h
    simp only [isPlainLower, Bool.and_eq_true, decide_eq_true_eq] at h
    exact .inr h.1

private theorem isBlank_of_isAlpha {c : Char} (h : c.isAlpha = true) : isBlank c = false := by
  have hc : continuesIdentifier c = true := by
    simp [continuesIdentifier, Char.isAlphanum, h]
  exact (continuesIdentifier_ne hc).1

/-- What is found as a call is a word of letters, with blanks around it, and a parenthesis. -/
private theorem call?_sound {cs : List Char} {name : String} {index : Nat}
    (h : call? cs = some (name, index)) :
    ∃ word tail, cs = word ++ '(' :: tail ∧ trim word = name.toList ∧ name.toList ≠ [] ∧
      (∀ c ∈ name.toList, c.isAlpha = true) ∧ word.length = index := by
  have h₁ : cs.takeWhile isBlank ++ cs.dropWhile isBlank = cs := List.takeWhile_append_dropWhile
  -- the text falls into blanks, letters, blanks and a rest, which are taken off in turn
  rw [call?] at h
  simp only [List.span_eq_takeWhile_dropWhile] at h
  generalize cs.dropWhile isBlank = cs₁ at h h₁
  have h₂ : cs₁.takeWhile Char.isAlpha ++ cs₁.dropWhile Char.isAlpha = cs₁ :=
    List.takeWhile_append_dropWhile
  have hletters : ∀ c ∈ cs₁.takeWhile Char.isAlpha, c.isAlpha = true :=
    fun c hc => List.mem_takeWhile_imp hc
  generalize cs₁.takeWhile Char.isAlpha = word at h h₂ hletters
  generalize cs₁.dropWhile Char.isAlpha = cs₂ at h h₂
  have h₃ : cs₂.takeWhile isBlank ++ cs₂.dropWhile isBlank = cs₂ :=
    List.takeWhile_append_dropWhile
  generalize cs₂.dropWhile isBlank = cs₃ at h h₃
  split at h
  · next c ds tail =>
    simp only [Option.some.injEq, Prod.mk.injEq] at h
    obtain ⟨rfl, hindex⟩ := h
    rw [String.toList_ofList]
    refine ⟨cs.takeWhile isBlank ++ (c :: ds) ++ cs₂.takeWhile isBlank, tail, ?_, ?_, by simp,
      hletters, ?_⟩
    · conv_lhs => rw [← h₁, ← h₂, ← h₃]
      simp only [List.append_assoc]
    · exact trim_eq (fun d hd => List.mem_takeWhile_imp hd)
        (fun d hd => List.mem_takeWhile_imp hd)
        (Trimmed.of_forall fun d hd => isBlank_of_isAlpha (hletters d hd))
    · rw [← hindex, List.length_append, List.length_append]
  · cases h

private theorem call?_complete {word tail : List Char} {name : String}
    (hname : trim word = name.toList) (hne : name.toList ≠ [])
    (hletters : ∀ c ∈ name.toList, c.isAlpha = true) :
    call? (word ++ '(' :: tail) = some (name, word.length) := by
  obtain ⟨before, after, hword, hbefore, hafter, -⟩ := exists_trim word
  rw [hname] at hword
  -- blanks, letters and blanks: each run ends where the next one begins
  have hfirst : ∀ d es, name.toList ++ (after ++ '(' :: tail) = d :: es → isBlank d = false := by
    intro d es h
    cases hcs : name.toList with
    | nil => exact absurd hcs hne
    | cons c ds =>
      rw [hcs, List.cons_append, List.cons.injEq] at h
      rw [← h.1]
      exact isBlank_of_isAlpha (hletters c (by simp [hcs]))
  have hsecond : ∀ d es, after ++ '(' :: tail = d :: es → d.isAlpha = false := by
    intro d es h
    cases after with
    | nil =>
      rw [List.nil_append, List.cons.injEq] at h
      rw [← h.1]
      decide
    | cons a as =>
      rw [List.cons_append, List.cons.injEq] at h
      rw [← h.1]
      by_contra halpha
      rw [Bool.not_eq_false] at halpha
      have hblank := hafter a List.mem_cons_self
      rw [isBlank_of_isAlpha halpha] at hblank
      cases hblank
  have hthird : ∀ d es, '(' :: tail = d :: es → isBlank d = false := by
    intro d es h
    rw [List.cons.injEq] at h
    rw [← h.1]
    decide
  have htext : word ++ '(' :: tail = before ++ (name.toList ++ (after ++ '(' :: tail)) := by
    conv_lhs => rw [hword]
    simp only [List.append_assoc]
  rw [call?, htext, span_append hbefore hfirst]
  simp only [span_append hletters hsecond, span_append hafter hthird]
  cases hcs : name.toList with
  | nil => exact absurd hcs hne
  | cons c ds =>
    have hlength : word.length = before.length + (c :: ds).length + after.length := by
      rw [hword, hcs, List.length_append, List.length_append]
    have hofList : String.ofList (c :: ds) = name := by rw [← hcs, String.ofList_toList]
    simp only [hofList, hlength]

/-- **The call of an operator.** The reader finds it exactly where a text begins with a word of
letters, with blanks around it, and a parenthesis. -/
theorem call?_eq_some_iff (cs : List Char) (name : String) (index : Nat) :
    call? cs = some (name, index) ↔
      ∃ word tail, cs = word ++ '(' :: tail ∧ trim word = name.toList ∧ name.toList ≠ [] ∧
        (∀ c ∈ name.toList, c.isAlpha = true) ∧ word.length = index := by
  refine ⟨call?_sound, ?_⟩
  rintro ⟨word, tail, rfl, hname, hne, hletters, rfl⟩
  exact call?_complete hname hne hletters

/-- A word that spells a keyword is found as a call, by its letters alone. -/
private theorem call?_of_spells {keyword : String}
    (hplain : ∀ c ∈ keyword.toList, isPlainLower c = true) (hne : keyword.toList ≠ [])
    {word : List Char} (h : Spells keyword word) (tail : List Char) :
    call? (word ++ '(' :: tail) = some (String.ofList (trim word), word.length) := by
  refine call?_complete ?_ ?_ ?_
  · rw [String.toList_ofList]
  · rw [String.toList_ofList]
    intro hnil
    rw [Spells, hnil] at h
    exact hne h.symm
  · intro c hc
    rw [String.toList_ofList] at hc
    -- a letter whose small form is plain is a letter of the alphabet
    have hlower := hplain c.toLower (by
      rw [← h]
      exact List.mem_map_of_mem hc)
    exact isAlpha_of_toLower hlower

/-- What looks like a call to the rules is what the reader takes for one. -/
theorem namesCall_iff (cs : List Char) :
    NamesCall cs ↔ ∃ name index, call? cs = some (name, index) ∧
      ((∃ q, Quantifier.ofToken? name = some q) ∨ ∃ o, Operator.ofToken? name = some o) := by
  constructor
  · rintro ⟨word, tail, rfl, ⟨o, ho⟩ | ⟨q, hq⟩⟩
    · refine ⟨_, _, call?_of_spells o.word_plain (by cases o <;> decide) ho tail, .inr ⟨o, ?_⟩⟩
      rwa [Operator.ofToken?_eq_some_iff, spells_trim_iff]
    · refine ⟨_, _, call?_of_spells q.word_plain (by cases q <;> decide) hq tail, .inl ⟨q, ?_⟩⟩
      rwa [Quantifier.ofToken?_eq_some_iff, spells_trim_iff]
  · rintro ⟨name, index, hcall, htoken⟩
    obtain ⟨word, tail, rfl, hname, -, -, -⟩ := (call?_eq_some_iff _ _ _).mp hcall
    refine ⟨word, tail, rfl, ?_⟩
    -- the token is the trimmed word
    have hofList : String.ofList (trim word) = name := by rw [hname, String.ofList_toList]
    rw [← hofList] at htoken
    rcases htoken with ⟨q, hq⟩ | ⟨o, ho⟩
    · rw [Quantifier.ofToken?_eq_some_iff, spells_trim_iff] at hq
      exact .inr ⟨q, hq⟩
    · rw [Operator.ofToken?_eq_some_iff, spells_trim_iff] at ho
      exact .inl ⟨o, ho⟩

/-- **The body of a call.** In a text that ends in no blank, it reaches to the last character. -/
theorem callBody_eq_ok_iff {rest : List Char}
    (hlast : ∀ ds c, rest = ds ++ [c] → isBlank c = false) (word body : List Char) :
    callBody (word ++ '(' :: rest) word.length = .ok body ↔
      rest = body ++ [')'] ∧ Balanced body := by
  have hdrop : (word ++ '(' :: rest).drop (word.length + 1) = rest := by simp
  rw [callBody, hdrop]
  constructor
  · intro h
    split at h
    · cases h
    · next found after hfound =>
      obtain ⟨hrest, hcloses⟩ := (closing_eq_some_iff _ _ _ _).mp hfound
      split at h
      · next hblank =>
        cases h
        refine ⟨?_, hcloses⟩
        -- what follows the call is blank, but the last character of the text is not
        rcases List.eq_nil_or_concat after with rfl | ⟨ds, c, rfl⟩
        · exact hrest
        · have hc := hlast (body ++ ')' :: ds) c (by rw [hrest]; simp)
          rw [List.all_eq_true] at hblank
          have := hblank c (by simp)
          rw [hc] at this
          cases this
      · cases h
  · rintro ⟨rfl, hbalanced⟩
    rw [(closing_eq_some_iff 0 _ body []).mpr ⟨rfl, hbalanced⟩]
    rfl

/-- **The arguments of a combinator** are its trimmed parts, none of them blank. -/
theorem combinatorArguments_eq_ok_iff (body text : List Char) (args : List (List Char)) :
    combinatorArguments body text = .ok args ↔
      ∃ parts, Parts body parts ∧ (∀ p ∈ parts, trim p ≠ []) ∧ args = parts.map trim := by
  rw [combinatorArguments, bind_eq_ok_iff]
  constructor
  · rintro ⟨found, hfound, h⟩
    rw [splitArguments] at hfound
    split at hfound
    · next parts hparts =>
      cases hfound
      split at h
      · cases h
      · split at h
        · cases h
        · next hblank =>
          cases h
          refine ⟨parts, (splitFrom_eq_ok_iff 0 _ _).mp hparts, ?_, rfl⟩
          intro p hp hnil
          exact hblank (List.any_eq_true.mpr ⟨trim p, List.mem_map_of_mem hp, by simp [hnil]⟩)
    · cases hfound
  · rintro ⟨parts, hparts, hnonblank, rfl⟩
    refine ⟨parts.map trim, ?_, ?_⟩
    · rw [splitArguments, (splitFrom_eq_ok_iff 0 _ _).mpr hparts]
    · rw [if_neg, if_neg]
      · rw [List.any_eq_true]
        rintro ⟨q, hq, hempty⟩
        obtain ⟨p, hp, rfl⟩ := List.mem_map.mp hq
        exact hnonblank p hp (List.isEmpty_iff.mp hempty)
      · -- one blank argument is refused as a missing one
        intro h
        have hmem : [] ∈ parts.map trim := h ▸ List.mem_singleton_self []
        obtain ⟨p, hp, hnil⟩ := List.mem_map.mp hmem
        exact hnonblank p hp hnil

/-! ### The reader follows the rules -/

/-- What is read from the arguments of a call, if each argument is read by the rules, has a surface
form that the parts derive. -/
private theorem derives_of_mapM {read : List Char → Except Error Filter}
    (hread : ∀ cs t, read cs = .ok t → ∃ u, Derives cs u ∧ u.tree = t)
    {parts : List (List Char)} {ts : List Filter} (h : (parts.map trim).mapM read = .ok ts) :
    ∃ us, List.Forall₂ Derives parts us ∧ Surface.trees us = ts := by
  rw [mapM_eq_ok_iff, List.forall₂_map_left_iff] at h
  induction h with
  | nil => exact ⟨[], .nil, rfl⟩
  | cons hp _ ih =>
    obtain ⟨u, hu, rfl⟩ := hread _ _ hp
    obtain ⟨us, hus, rfl⟩ := ih
    exact ⟨u :: us, .cons (hu.of_trim (trim_trim _)) hus, rfl⟩

/-- The other way round: the arguments are read when the parts derive surface forms. -/
private theorem mapM_of_derives {read : List Char → Except Error Filter}
    {parts : List (List Char)} {us : List Surface} (h : List.Forall₂ Derives parts us)
    (hread : ∀ p ∈ parts, ∀ u, Derives p u → read (trim p) = .ok u.tree) :
    (parts.map trim).mapM read = .ok (Surface.trees us) := by
  rw [mapM_eq_ok_iff, List.forall₂_map_left_iff]
  induction h with
  | nil => exact .nil
  | cons hp _ ih =>
    refine .cons (hread _ List.mem_cons_self _ hp) (ih fun q hq => ?_)
    exact hread q (List.mem_cons_of_mem _ hq)

private theorem nonblank_of_derives {parts : List (List Char)} {us : List Surface}
    (h : List.Forall₂ Derives parts us) : ∀ p ∈ parts, trim p ≠ [] := by
  induction h with
  | nil => simp
  | cons hp _ ih =>
    rintro q (_ | ⟨_, hq⟩)
    · exact hp.trim_ne_nil
    · exact ih q hq

/-- The body of a combinator is read when its parts are. What is read has surface forms that the
parts derive. -/
private theorem combinator_sound {read : List Char → Except Error Filter}
    (hread : ∀ cs t, read cs = .ok t → ∃ u, Derives cs u ∧ u.tree = t)
    {rest : List Char} (hlast : ∀ ds c, rest = ds ++ [c] → isBlank c = false)
    {word text : List Char} {make : List Filter → Filter} {t : Filter}
    (h : (do
      let body ← callBody (word ++ '(' :: rest) word.length
      let args ← combinatorArguments body text
      let children ← args.mapM read
      .ok (make children)) = .ok t) :
    ∃ body parts us, rest = body ++ [')'] ∧ Parts body parts ∧ List.Forall₂ Derives parts us ∧
      t = make (Surface.trees us) := by
  obtain ⟨body, hbody, h⟩ := bind_eq_ok_iff.mp h
  obtain ⟨args, hargs, h⟩ := bind_eq_ok_iff.mp h
  obtain ⟨ts, hts, h⟩ := bind_eq_ok_iff.mp h
  cases h
  -- the body ends at the last parenthesis, and the arguments are its parts
  obtain ⟨hrest, -⟩ := (callBody_eq_ok_iff hlast word body).mp hbody
  obtain ⟨parts, hparts, -, rfl⟩ := (combinatorArguments_eq_ok_iff _ _ _).mp hargs
  obtain ⟨us, hus, rfl⟩ := derives_of_mapM hread hts
  exact ⟨body, parts, us, hrest, hparts, hus, rfl⟩

/-- A text that a parenthesis closes ends in no blank. -/
private theorem last_close (body ds : List Char) (c : Char) (h : body ++ [')'] = ds ++ [c]) :
    isBlank c = false := by
  rw [← (List.append_singleton_inj.mp h).2]
  decide

private theorem combinator_complete {read : List Char → Except Error Filter}
    {body : List Char} {parts : List (List Char)} {us : List Surface} (hparts : Parts body parts)
    (hus : List.Forall₂ Derives parts us)
    (hread : ∀ p ∈ parts, ∀ u, Derives p u → read (trim p) = .ok u.tree)
    (word text : List Char) (make : List Filter → Filter) :
    (do
      let body ← callBody (word ++ '(' :: (body ++ [')'])) word.length
      let args ← combinatorArguments body text
      let children ← args.mapM read
      .ok (make children)) = .ok (make (Surface.trees us)) := by
  have hbody := (callBody_eq_ok_iff (last_close body) word body).mpr ⟨rfl, hparts.balanced_body⟩
  have hargs := (combinatorArguments_eq_ok_iff body text _).mpr
    ⟨parts, hparts, nonblank_of_derives hus, rfl⟩
  -- each step undoes one of the grammar
  rw [hbody, ok_bind, hargs, ok_bind, mapM_of_derives hus hread]
  rfl

private theorem Trimmed.last_of_append {before rest : List Char} {c : Char}
    (h : Trimmed (before ++ c :: rest)) (ds : List Char) (d : Char) (hrest : rest = ds ++ [d]) :
    isBlank d = false :=
  h.last (before ++ c :: ds) d (by simp [hrest])

/-- What stands behind the colon of a column, read as a call or else as a bare value. -/
def Filter.readBehind (read : List Char → Except Error Filter) (p : ColumnPath)
    (text after : List Char) : Except Error Filter :=
  match call? after with
  | none => .ok (.leaf p .eq (.plain (String.ofList (trim after))))
  | some (word, index) =>
    match Quantifier.ofToken? word, Operator.ofToken? word with
    | some q, _ => do
      let body ← callBody after index
      let args ← combinatorArguments body text
      let children ← args.mapM read
      .ok (.quantified q p (qualifyAll p children))
    | none, some o => do
      let body ← callBody after index
      .ok (.leaf p o (.plain (String.ofList body)))
    | none, none => .ok (.leaf p .eq (.plain (String.ofList (trim after))))

private theorem Filter.readBehind_sound {read : List Char → Except Error Filter}
    (hread : ∀ cs t, read cs = .ok t → ∃ u, Derives cs u ∧ u.tree = t)
    {cs before after text : List Char} {p : ColumnPath} {t : Filter}
    (htext : trim cs = before ++ ':' :: after) (hcolumn : IsColumn before p)
    (hafter : trim after ≠ []) (h : readBehind read p text after = .ok t) :
    ∃ u, Derives cs u ∧ u.tree = t := by
  have htrimmed := trimmed_trim cs
  rw [htext] at htrimmed
  unfold readBehind at h
  split at h
  · -- a bare value that begins with no word and parenthesis
    next hnone =>
    cases h
    refine ⟨_, .bare htext hcolumn hafter ?_, rfl⟩
    rw [namesCall_iff]
    rintro ⟨name, index, hsome, -⟩
    rw [hnone] at hsome
    cases hsome
  next name index hcall =>
  obtain ⟨word, tail, rfl, hname, -, -, rfl⟩ := (call?_eq_some_iff _ _ _).mp hcall
  have hofList : String.ofList (trim word) = name := by rw [hname, String.ofList_toList]
  -- the tail is the end of the trimmed text
  have hlast : ∀ ds c, tail = ds ++ [c] → isBlank c = false := by
    intro ds c htail
    exact htrimmed.last_of_append (word ++ '(' :: ds) c (by rw [htail]; simp)
  split at h
  · -- a quantified filter
    next q hq =>
    rw [← hofList, Quantifier.ofToken?_eq_some_iff, spells_trim_iff] at hq
    obtain ⟨body, parts, us, rfl, hparts, hus, rfl⟩ := combinator_sound hread hlast h
    refine ⟨.quantified q p us, .quantified htext hcolumn hq hparts hus, ?_⟩
    rw [Surface.qualifyAll_trees]
    rfl
  · -- the call of an operator
    next o ho =>
    rw [← hofList, Operator.ofToken?_eq_some_iff, spells_trim_iff] at ho
    obtain ⟨body, hbody, h⟩ := bind_eq_ok_iff.mp h
    cases h
    obtain ⟨rfl, hbalanced⟩ := (callBody_eq_ok_iff hlast word body).mp hbody
    exact ⟨_, .call htext hcolumn ho hbalanced, rfl⟩
  · -- a bare value that begins with some other word and a parenthesis
    next hq ho =>
    cases h
    refine ⟨_, .bare htext hcolumn hafter ?_, rfl⟩
    rw [namesCall_iff]
    rintro ⟨name', index', hsome, htoken⟩
    rw [hcall] at hsome
    cases hsome
    rcases htoken with ⟨q, hq'⟩ | ⟨o, ho'⟩
    · rw [hq] at hq'
      cases hq'
    · rw [ho] at ho'
      cases ho'

/-- **Soundness.** A tree that is read is that of a surface form which the text derives. -/
theorem Filter.readNested_sound (depth : Nat) (cs : List Char) (t : Filter)
    (h : readNested depth cs = .ok t) : ∃ u, Derives cs u ∧ u.tree = t := by
  induction depth generalizing cs t with
  | zero => cases h
  | succ depth ih =>
    have htrimmed := trimmed_trim cs
    simp only [readNested] at h
    split at h
    · cases h
    split at h
    · -- a group
      next k index hcall =>
      obtain ⟨word, rest, htext, hspells, rfl⟩ := (connectiveCall?_eq_some_iff _ _ _).mp hcall
      rw [htext] at h htrimmed
      obtain ⟨body, parts, us, rfl, hparts, hus, rfl⟩ :=
        combinator_sound ih htrimmed.last_of_append h
      exact ⟨.group k us, .group htext hspells hparts hus, rfl⟩
    split at h
    · cases h
    next before after hcut =>
    obtain ⟨htext, -⟩ := (cut_eq_some_iff _ _ _ _).mp hcut
    rw [htext] at htrimmed
    obtain ⟨column, hcolumn, h⟩ := bind_eq_ok_iff.mp h
    rw [ColumnPath.parse_eq_ok_iff] at hcolumn
    split at h
    · cases h
    next hnonblank =>
    have hafter : trim after ≠ [] := by
      rw [Ne, trim_eq_nil_iff, ← List.all_eq_true]
      exact hnonblank
    exact readBehind_sound ih htext hcolumn hafter h

private theorem isEmpty_trim_eq_false {cs : List Char} (h : trim cs ≠ []) :
    (trim cs).isEmpty = false :=
  List.isEmpty_eq_false_iff.mpr h

private theorem trim_call_ne_nil (word body : List Char) :
    trim (word ++ '(' :: (body ++ [')'])) ≠ [] := by
  rw [Ne, trim_eq_nil_iff]
  intro hblank
  exact absurd (hblank ')' (by simp)) (by decide)

private theorem ofToken?_eq_none_of_spells {o : Operator} {word : List Char}
    (h : Spells o.word word) : Quantifier.ofToken? (String.ofList (trim word)) = none := by
  by_contra hne
  obtain ⟨q, hq⟩ := Option.ne_none_iff_exists'.mp hne
  rw [Quantifier.ofToken?_eq_some_iff, spells_trim_iff, Spells, h] at hq
  revert hq
  cases o <;> cases q <;> decide

/-- The reader on a text that begins with a column: it goes on with what stands behind the colon. -/
private theorem readNested_column {depth : Nat} {cs before after : List Char} {p : ColumnPath}
    (htext : trim cs = before ++ ':' :: after) (hcolumn : IsColumn before p)
    (hafter : trim after ≠ []) :
    Filter.readNested (depth + 1) cs =
      Filter.readBehind (Filter.readNested depth) p (before ++ ':' :: after) after := by
  have hnonempty : (trim cs).isEmpty = false := isEmpty_trim_eq_false (by simp [htext])
  have hcut := (cut_eq_some_iff ':' _ before after).mpr ⟨rfl, hcolumn.notMem.1⟩
  have hparse := (ColumnPath.parse_eq_ok_iff before p).mpr hcolumn
  have hblank : after.all isBlank = false := by
    rw [← Bool.not_eq_true, List.all_eq_true, ← trim_eq_nil_iff]
    exact hafter
  rw [Filter.readNested]
  simp only [hnonempty, Bool.false_eq_true, if_false]
  rw [htext]
  -- no connective stands before the colon, and something stands behind it
  simp only [connectiveCall?_eq_none hcolumn, hcut, hparse, hblank, Bool.false_eq_true, if_false,
    ok_bind]
  all_goals rfl

private theorem Filter.readBehind_quantified {read : List Char → Except Error Filter}
    {word body : List Char} {parts : List (List Char)} {q : Quantifier} {us : List Surface}
    (keyword : Spells q.word word) (hparts : Parts body parts)
    (hus : List.Forall₂ Derives parts us)
    (hread : ∀ p ∈ parts, ∀ u, Derives p u → read (trim p) = .ok u.tree) (p : ColumnPath)
    (text : List Char) :
    readBehind read p text (word ++ '(' :: (body ++ [')'])) =
      .ok (.quantified q p (qualifyAll p (Surface.trees us))) := by
  -- the word before the parenthesis names the quantifier
  have hq : Quantifier.ofToken? (String.ofList (trim word)) = some q := by
    rwa [Quantifier.ofToken?_eq_some_iff, spells_trim_iff]
  rw [readBehind, call?_of_spells q.word_plain (by cases q <;> decide) keyword]
  simp only [hq]
  exact combinator_complete hparts hus hread word text
    fun children => .quantified q p (qualifyAll p children)

private theorem Filter.readBehind_call (read : List Char → Except Error Filter)
    {word body : List Char} {o : Operator} (keyword : Spells o.word word) (value : Balanced body)
    (p : ColumnPath) (text : List Char) :
    readBehind read p text (word ++ '(' :: (body ++ [')'])) =
      .ok (.leaf p o (.plain (String.ofList body))) := by
  have ho : Operator.ofToken? (String.ofList (trim word)) = some o := by
    rwa [Operator.ofToken?_eq_some_iff, spells_trim_iff]
  have hbody := (callBody_eq_ok_iff (last_close body) word body).mpr ⟨rfl, value⟩
  rw [readBehind, call?_of_spells o.word_plain (by cases o <;> decide) keyword]
  simp only [ofToken?_eq_none_of_spells keyword, ho, hbody, ok_bind]

private theorem Filter.readBehind_bare (read : List Char → Except Error Filter)
    {rest : List Char} (noCall : ¬ NamesCall rest) (p : ColumnPath) (text : List Char) :
    readBehind read p text rest = .ok (.leaf p .eq (.plain (String.ofList (trim rest)))) := by
  rw [namesCall_iff] at noCall
  rw [readBehind]
  cases hcall : call? rest with
  | none => rfl
  | some found =>
    obtain ⟨name, index⟩ := found
    -- the rule excludes both kinds of names
    have hq : Quantifier.ofToken? name = none := by
      by_contra hne
      obtain ⟨q, hq⟩ := Option.ne_none_iff_exists'.mp hne
      exact noCall ⟨name, index, hcall, .inl ⟨q, hq⟩⟩
    have ho : Operator.ofToken? name = none := by
      by_contra hne
      obtain ⟨o, ho⟩ := Option.ne_none_iff_exists'.mp hne
      exact noCall ⟨name, index, hcall, .inr ⟨o, ho⟩⟩
    simp only [hq, ho]

/-- **Completeness.** What a text derives is read, when the bound on the depth exceeds the length of
the text: every part of a body is shorter than the text around it. -/
theorem Filter.readNested_complete (depth : Nat) (cs : List Char) (u : Surface)
    (hdepth : cs.length < depth) (h : Derives cs u) : readNested depth cs = .ok u.tree := by
  induction depth generalizing cs u with
  | zero => omega
  | succ depth ih =>
    have hlength : (trim cs).length ≤ cs.length := trim_length_le cs
    -- a body is shorter than the text by the parentheses around it, and each part is no longer than
    -- the body, so the bound suffices for the parts
    have hchildren : ∀ {body : List Char} {parts : List (List Char)},
        body.length + 2 ≤ (trim cs).length → Parts body parts →
          ∀ p ∈ parts, ∀ u, Derives p u → readNested depth (trim p) = .ok u.tree := by
      intro body parts hbody hparts p hp u hu
      have hpart : p.length ≤ body.length := (hparts.isInfix p hp).length_le
      have htrim : (trim p).length ≤ p.length := trim_length_le p
      exact ih (trim p) u (by omega) (hu.of_trim (trim_trim p).symm)
    cases h with
    | @group _ word body parts k us htext hspells hparts hus =>
      have hnonempty : (trim cs).isEmpty = false := isEmpty_trim_eq_false (by simp [htext])
      have hcall := (connectiveCall?_eq_some_iff (trim cs) k word.length).mpr
        ⟨word, _, htext, hspells, rfl⟩
      rw [readNested]
      simp only [hnonempty, Bool.false_eq_true, if_false, hcall]
      rw [htext]
      exact combinator_complete hparts hus (hchildren (by simp [htext]) hparts) word _ (.group k)
    | @quantified _ before word body parts q p us htext hcolumn hspells hparts hus =>
      have hread := hchildren (by simp [htext]; omega) hparts
      rw [readNested_column htext hcolumn (trim_call_ne_nil word body),
        readBehind_quantified hspells hparts hus hread, Surface.qualifyAll_trees]
      rfl
    | @call _ before word body o p htext hcolumn hspells hbalanced =>
      rw [readNested_column htext hcolumn (trim_call_ne_nil word body),
        readBehind_call _ hspells hbalanced]
      rfl
    | bare htext hcolumn hnonblank hnoCall =>
      rw [readNested_column htext hcolumn hnonblank, readBehind_bare _ hnoCall]
      rfl

theorem Filter.read_eq_ok_iff (cs : List Char) (t : Filter) :
    read cs = .ok t ↔ ∃ u, Derives cs u ∧ u.tree = t := by
  rw [read]
  constructor
  · exact readNested_sound _ _ _
  · rintro ⟨u, hu, rfl⟩
    exact readNested_complete _ _ u (Nat.lt_succ_self _) hu

/-- **The reader accepts exactly its grammar.** It gives a tree for a text exactly when the text
derives the surface form of the tree. -/
theorem Filter.parse_eq_ok_iff_derives (text : String) (t : Filter) :
    parse text = .ok t ↔ ∃ u, Derives text.toList u ∧ u.tree = t := by
  rw [parse]
  exact read_eq_ok_iff text.toList t

/-! ### Lists of filters -/

/-- A text derives a list of surface forms: none if it is blank, else one from each part. -/
inductive DerivesAll (cs : List Char) : List Surface → Prop
  | blank (h : trim cs = []) : DerivesAll cs []
  | parts {parts : List (List Char)} {us : List Surface} (arguments : Parts cs parts)
      (children : List.Forall₂ Derives parts us) : DerivesAll cs us

/-- The reader of lists follows the rule for lists. -/
theorem Filter.parseAll_eq_ok_iff (text : String) (ts : List Filter) :
    parseAll text = .ok ts ↔ ∃ us, DerivesAll text.toList us ∧ Surface.trees us = ts := by
  have hblank : isBlankText text = true ↔ trim text.toList = [] := by
    rw [isBlankText, List.all_eq_true, trim_eq_nil_iff]
  have hread : ∀ cs t, read cs = .ok t → ∃ u, Derives cs u ∧ u.tree = t :=
    fun cs t => (read_eq_ok_iff cs t).mp
  rw [parseAll]
  constructor
  · intro h
    split at h
    · next hb =>
      cases h
      exact ⟨[], .blank (hblank.mp hb), rfl⟩
    · obtain ⟨args, hargs, h⟩ := bind_eq_ok_iff.mp h
      rw [splitArguments] at hargs
      split at hargs
      · next parts hparts =>
        cases hargs
        split at h
        · cases h
        · obtain ⟨us, hus, rfl⟩ := derives_of_mapM hread h
          exact ⟨us, .parts ((splitFrom_eq_ok_iff 0 _ _).mp hparts) hus, rfl⟩
      · cases hargs
  · rintro ⟨us, hus, rfl⟩
    cases hus with
    | blank h =>
      rw [if_pos (hblank.mpr h)]
      rfl
    | @parts parts _ hparts hus =>
      have hnonblank := nonblank_of_derives hus
      have hargs : splitArguments text.toList = .ok (parts.map trim) := by
        rw [splitArguments, (splitFrom_eq_ok_iff 0 _ _).mpr hparts]
      have hall : (parts.map trim).any List.isEmpty = false := by
        rw [← Bool.not_eq_true, List.any_eq_true]
        rintro ⟨q, hq, hempty⟩
        obtain ⟨p, hp, rfl⟩ := List.mem_map.mp hq
        exact hnonblank p hp (List.isEmpty_iff.mp hempty)
      have hts := mapM_of_derives hus fun p _ u hu =>
        (read_eq_ok_iff (trim p) u.tree).mpr ⟨u, hu.of_trim (trim_trim p).symm, rfl⟩
      rw [if_neg, hargs, ok_bind, hall]
      · exact hts
      · -- a blank text has no part that derives anything
        rw [hblank]
        intro hnil
        obtain ⟨p, hp⟩ := List.exists_mem_of_ne_nil parts hparts.nonempty
        refine hnonblank p hp ((trim_eq_nil_iff p).mpr fun c hc => ?_)
        exact (trim_eq_nil_iff _).mp hnil c ((hparts.isInfix p hp).mem hc)

end RecordQuery
