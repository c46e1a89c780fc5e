import RecordQuery.Proofs.Display.Calendar
import RecordQuery.Proofs.Number.Layout
import RecordQuery.Proofs.Words

/-!
# Reading what is written: numbers and identifiers

The readers of numbers and identifiers allow for more than what is written: signs, underscores,
words in either case, schemes, braces and marks. None of this occurs in a written number, as the
alphabet of written numbers shows, and what is left of a reader looks at the digits alone.

* `Numeral.readInteger?_signed` — integers within the limit of digits are read as what was written;
* `Decimal.read?_render_iff` — so are decimal numbers, exactly if they are within the bounds of
  exponents;
* `Binary64.read?_render` — so are all finite floating point numbers;
* `Uuid.read?_render` — and all identifiers.
-/

namespace RecordQuery

open Text Numeral

namespace Numeral

/-! ### Reading digits -/

/-- Where no sign stands, none is split off. -/
theorem spanSign_mark (negative : Bool) {cs : List Char} (hminus : cs.head? ≠ some '-')
    (hplus : cs.head? ≠ some '+') :
    spanSign ((if negative then ['-'] else []) ++ cs) = (negative, cs) := by
  cases negative with
  | true => rfl
  | false =>
    show spanSign cs = (false, cs)
    -- without a mark the first character must not be taken for one
    cases cs with
    | nil => rfl
    | cons c cs =>
      rw [spanSign, if_neg fun h => hminus (congrArg some h),
        if_neg fun h => hplus (congrArg some h)]

theorem ungroupAfter_eq_self {digit : Char → Bool} {cs : List Char} (h : '_' ∉ cs) :
    ∀ before, ungroupAfter digit before cs = some cs := by
  induction cs with
  | nil => exact fun _ => rfl
  | cons c cs ih =>
    intro before
    rw [List.mem_cons, not_or] at h
    unfold ungroupAfter
    rw [if_neg (Ne.symm h.1), ih h.2, Option.map_some]

theorem readDigits?_chars {b : Nat} (hb : b ≤ 16) {ds : List Nat} (hds : ∀ d ∈ ds, d < b)
    (hne : ds ≠ []) : readDigits? b (chars ds) = some ds := by
  have hread : (chars ds).mapM (digitIn? b) = some ds := by
    -- the rest may have no digits, so the induction goes without this
    clear hne
    induction ds with
    | nil => rfl
    | cons d ds ih =>
      rw [List.forall_mem_cons] at hds
      rw [chars_cons, List.mapM_cons, digitIn?_digitChar hb hds.1, ih hds.2]
      rfl
  rw [readDigits?, hread, if_neg]
  intro hempty
  exact hne (List.map_eq_nil_iff.mp (List.isEmpty_iff.mp hempty))

theorem head_ne_of_notMem {cs : List Char} {c : Char} (h : c ∉ cs) : cs.head? ≠ some c :=
  fun hhead => h (List.mem_of_head? hhead)

theorem spanSign_signed (n : Int) :
    spanSign (signed n) = (decide (n < 0), Nat.toDigits 10 n.natAbs) := by
  have hnotMem : ∀ c, c ∉ digits 10 → c ∉ Nat.toDigits 10 n.natAbs := fun c hc hmem =>
    hc (toDigits_subset (by decide) _ hmem)
  have hmark := spanSign_mark (decide (n < 0))
    (head_ne_of_notMem (hnotMem '-' (by decide))) (head_ne_of_notMem (hnotMem '+' (by decide)))
  simp only [decide_eq_true_eq] at hmark
  exact hmark

/-- **Integers read back,** if they are short enough to be written. -/
theorem readInteger?_signed {n : Int} (h : Value.isTooLong n = false) :
    readInteger? (signed n) = some n := by
  obtain ⟨ds, hds, hlt, hvalue⟩ := exists_digits (b := 10) (by decide) n.natAbs
  have hne : ds ≠ [] := by
    rintro rfl
    exact Nat.toDigits_ne_nil hds
  have hsign := spanSign_signed n
  rw [hds] at hsign
  -- there are no underscores to take out
  have hplain : ungroup? isDigit (chars ds) = some (chars ds) :=
    ungroupAfter_eq_self (fun hmem => absurd (chars_subset hlt hmem) (by decide)) false
  have hlength : ¬ digitLimit < ds.length := by
    unfold Value.isTooLong at h
    rw [hds, length_chars] at h
    exact of_decide_eq_false h
  unfold readInteger?
  simp only [hsign, hplain, readDigits?_chars (by decide) hlt hne, Option.bind_eq_bind,
    Option.bind_some, if_neg hlength, hvalue, decide_eq_true_eq]
  congr 1
  split <;> omega

theorem dropHexMark_eq_self {cs : List Char} (hsmall : 'x' ∉ cs) (hcapital : 'X' ∉ cs) :
    dropHexMark cs = cs := by
  unfold dropHexMark
  split
  · next x rest =>
    -- no mark stands behind the zero
    have hx : (decide (x = 'x') || decide (x = 'X')) = false := by
      rw [Bool.or_eq_false_iff, decide_eq_false_iff_not, decide_eq_false_iff_not]
      refine ⟨?_, ?_⟩
      · rintro rfl
        exact hsmall (by simp)
      · rintro rfl
        exact hcapital (by simp)
    rw [if_neg (by rw [hx]; decide)]
  · rfl

/-- Digits of base sixteen alone are read as the number that they denote: they have neither sign nor
mark nor underscores. -/
theorem readHex?_chars {ds : List Nat} (hds : ∀ d ∈ ds, d < 16) (hne : ds ≠ []) :
    readHex? (chars ds) = some (natOfDigits 16 ds : Int) := by
  -- there is no sign, no mark and no underscore among the digits
  have hnotMem : ∀ c, c ∉ digits 16 → c ∉ chars ds := fun c hc hmem =>
    hc (chars_subset hds hmem)
  have hsign : spanSign (chars ds) = (false, chars ds) :=
    spanSign_mark false (head_ne_of_notMem (hnotMem '-' (by decide)))
      (head_ne_of_notMem (hnotMem '+' (by decide)))
  have hmark : dropHexMark (chars ds) = chars ds :=
    dropHexMark_eq_self (hnotMem 'x' (by decide)) (hnotMem 'X' (by decide))
  unfold readHex?
  simp only [hsign, hmark, ungroup?, ungroupAfter_eq_self (hnotMem '_' (by decide)),
    readDigits?_chars (Nat.le_refl 16) hds hne, Option.bind_eq_bind, Option.bind_some,
    Bool.false_eq_true, if_false]

/-- A text that begins with a letter is no numeral, in either case of the letter. -/
theorem readDecimal?_eq_none_of_letter {l : Char} (hl : 'a' ≤ l ∧ l ≤ 'z') {word rest : List Char}
    (h : (l :: word).isPrefixOf (rest.map Char.toLower) = true) : readDecimal? rest = none := by
  cases rest with
  | nil => cases h
  | cons c rest =>
    rw [List.map_cons, List.isPrefixOf, Bool.and_eq_true, beq_iff_eq] at h
    have hbounds : 65 ≤ c.toNat ∧ c.toNat ≤ 122 := by
      by_cases hupper : 65 ≤ c.toNat ∧ c.toNat ≤ 90
      · omega
      · -- what is no capital letter is its own small letter
        have hlower : 97 ≤ c.toLower.toNat ∧ c.toLower.toNat ≤ 122 := by
          rw [← h.1]
          exact hl
        rw [toLower_eq_self hupper] at hlower
        omega
    refine readDecimal?_eq_none ?_ ?_ rest
    · unfold digitValue?
      simp only
      rw [if_pos (by omega), if_neg (by omega)]
    · rintro rfl
      exact absurd hbounds (by decide)

/-- A numeral spells no word. -/
theorem spells_eq_false {word : String} {l : Char} {ls : List Char} (hword : word.toList = l :: ls)
    (hl : 'a' ≤ l ∧ l ≤ 'z') {cs : List Char} {r : Nat × Int} (h : readDecimal? cs = some r) :
    spells word cs = false := by
  refine beq_eq_false_iff_ne.mpr fun heq => ?_
  have hprefix : (l :: ls).isPrefixOf (cs.map Char.toLower) = true := by
    rw [heq, hword]
    exact List.isPrefixOf_iff_prefix.mpr (List.prefix_refl _)
  rw [readDecimal?_eq_none_of_letter hl hprefix] at h
  cases h

/-- The digits of a natural number are a numeral without an exponent. -/
theorem readDecimal?_toDigits (n : Nat) : readDecimal? (Nat.toDigits 10 n) = some (n, 0) := by
  obtain ⟨ds, hds, hlt, rfl⟩ := exists_digits (b := 10) (by decide) n
  have hne : ds ≠ [] := by
    rintro rfl
    exact Nat.toDigits_ne_nil hds
  have hread := readDecimal?_whole [] hlt hne noDigit_nil nofun
  rw [List.append_nil] at hread
  rw [hds, hread]
  rfl

end Numeral

/-! ### Decimal numbers -/

namespace Decimal

/-- Whether a value is a number whose exponent and first digit lie within the bounds, or an
infinity: the values that are no `nan` and that arithmetic can represent. -/
def IsRepresentable : Decimal → Prop
  | finite _ c e => leastExponent ≤ e ∧ e + digitCount c - 1 ≤ greatestPlace
  | infinite _ => True
  | nan _ _ _ => False

instance : DecidablePred IsRepresentable
  | finite _ c e =>
    inferInstanceAs (Decidable (leastExponent ≤ e ∧ e + digitCount c - 1 ≤ greatestPlace))
  | infinite _ => isTrue trivial
  | nan _ _ _ => isFalse id

/-- What is read as a decimal numeral is read as the number, if this is representable. -/
theorem read?_of_readDecimal? {cs rest : List Char} {negative : Bool} {c : Nat} {e : Int}
    (hplain : '_' ∉ cs) (hsign : spanSign cs = (negative, rest))
    (h : readDecimal? rest = some (c, e)) : read? cs = bounded? negative c e := by
  have hfilter : cs.filter (· != '_') = cs := by
    refine List.filter_eq_self.mpr fun d hd => bne_iff_ne.mpr ?_
    rintro rfl
    exact hplain hd
  -- none of the words begins like a numeral
  have hword : ∀ (l : Char) (word : List Char), 'a' ≤ l ∧ l ≤ 'z' →
      ¬ (l :: word).isPrefixOf (rest.map Char.toLower) = true := by
    intro l word hl hprefix
    rw [readDecimal?_eq_none_of_letter hl hprefix] at h
    cases h
  have hinf : spells "inf" rest = false := spells_eq_false rfl (by decide) h
  have hinfinity : spells "infinity" rest = false := spells_eq_false rfl (by decide) h
  have hnan : ¬ "nan".toList.isPrefixOf (rest.map Char.toLower) = true :=
    hword 'n' ['a', 'n'] (by decide)
  have hsnan : ¬ "snan".toList.isPrefixOf (rest.map Char.toLower) = true :=
    hword 's' ['n', 'a', 'n'] (by decide)
  unfold read?
  simp only [hfilter, hsign, hinf, hinfinity, Bool.or_false, Bool.false_eq_true, if_false]
  rw [if_neg hnan, if_neg hsnan, h]
  rfl

theorem underscore_notMem_render (d : Decimal) : '_' ∉ d.render := fun h =>
  absurd (d.render_subset h) (by decide)

/-- **Decimal numbers read back** with their sign, their digits and their exponent, exactly if they
are representable. -/
theorem read?_render_iff {d : Decimal} (h : d.isNumber = true) :
    read? d.render = some d ↔ d.IsRepresentable := by
  have hsign : spanSign d.render = (d.hasMinus, d.renderUnsigned) := by
    rw [render_eq]
    exact spanSign_mark _ (head_renderUnsigned d (.inl rfl)) (head_renderUnsigned d (.inr rfl))
  cases d with
  | finite negative c e =>
    rw [read?_of_readDecimal? (underscore_notMem_render _) hsign
      (readDecimal?_finite negative c e)]
    unfold bounded?
    -- the text is always a number; its bounds decide whether it is kept
    constructor
    · intro hread
      split at hread
      · next hbounds => exact hbounds
      · cases hread
    · exact fun hbounds => if_pos hbounds
  | infinite negative => cases negative <;> exact ⟨fun _ => trivial, fun _ => rfl⟩
  | nan negative signaling payload => cases h

theorem IsRepresentable.isNumber {d : Decimal} (h : d.IsRepresentable) : d.isNumber = true := by
  cases d with
  | nan negative signaling payload => exact h.elim
  | _ => rfl

end Decimal

/-! ### Floating point numbers -/

namespace Binary64

/-- What is read as a decimal numeral is read as the number nearest to it. -/
theorem read?_of_readDecimal? {cs rest : List Char} {negative : Bool} {c : Nat} {p : Int}
    (hplain : '_' ∉ rest) (hsign : spanSign cs = (negative, rest))
    (h : readDecimal? rest = some (c, p)) : read? cs = some (ofDecimal negative c p) := by
  have hinf : spells "inf" rest = false := spells_eq_false rfl (by decide) h
  have hinfinity : spells "infinity" rest = false := spells_eq_false rfl (by decide) h
  have hnan : spells "nan" rest = false := spells_eq_false rfl (by decide) h
  unfold read?
  simp only [hsign, hinf, hinfinity, hnan, Bool.or_false, Bool.false_eq_true, if_false, ungroup?,
    ungroupAfter_eq_self hplain, h, Option.bind_eq_bind, Option.bind_some]

/-- **Floating point numbers read back**, with their sign. -/
theorem read?_render {m : Nat} {e : Int} (h : Canonical m e) (negative : Bool) :
    read? (finite negative m e).render = some (finite negative m e) := by
  obtain ⟨c, p, hread, hround⟩ := exists_decimal h negative
  have hsign : spanSign (finite negative m e).render =
      (negative, (finite negative m e).renderUnsigned) := by
    rw [render_eq]
    exact spanSign_mark _ (head_ne_of_readDecimal? hread rfl (by decide))
      (head_ne_of_readDecimal? hread rfl (by decide))
  have hplain : '_' ∉ (finite negative m e).renderUnsigned := by
    intro hmem
    have hfigure := render_finite_subset negative m e
    rw [render_eq] at hfigure
    exact absurd (hfigure (List.mem_append_right _ hmem)) (by decide)
  rw [read?_of_readDecimal? hplain hsign hread, ofDecimal_sign hround]

theorem read?_signed (n : Int) :
    read? (signed n) = some (ofDecimal (decide (n < 0)) n.natAbs 0) := by
  have hplain : '_' ∉ Nat.toDigits 10 n.natAbs := fun hmem =>
    absurd (toDigits_subset_figures _ hmem) (by decide)
  exact read?_of_readDecimal? hplain (spanSign_signed n) (readDecimal?_toDigits n.natAbs)

end Binary64

/-! ### Identifiers -/

namespace Text

/-- A word is not taken out of a text in which its first character does not stand. -/
theorem removeAll_eq_self {c : Char} {word cs : List Char} (h : c ∉ cs) :
    removeAll (c :: word) cs = cs := by
  unfold removeAll
  induction cs with
  | nil => rfl
  | cons d cs ih =>
    rw [List.mem_cons, not_or] at h
    have hprefix : (c :: word).isPrefixOf (d :: cs) = false := by
      rw [List.isPrefixOf, beq_eq_false_iff_ne.mpr h.1]
      rfl
    rw [removeFrom, hprefix, if_neg Bool.false_ne_true, ih h.2]

end Text

namespace Uuid

theorem dropEnds_eq_self {p : Char → Bool} {cs : List Char} (h : ∀ c ∈ cs, p c = false) :
    dropEnds p cs = cs := by
  have hdrop : ∀ ds : List Char, (∀ c ∈ ds, p c = false) → ds.dropWhile p = ds := by
    intro ds hds
    cases ds with
    | nil => rfl
    | cons d ds => exact List.dropWhile_cons_of_neg (by simp [hds d List.mem_cons_self])
  unfold dropEnds
  rw [hdrop cs h, hdrop cs.reverse fun c hc => h c (List.mem_reverse.mp hc), List.reverse_reverse]

/-- **Identifiers read back.** -/
theorem read?_render (u : Uuid) : read? u.render = some u := by
  obtain ⟨ds, hds, hlength, hlt, hvalue⟩ :=
    exists_padded (b := 16) (w := 32) (by decide) (by decide) u.bits.isLt
  have hdigits : u.hexDigits = chars ds := hds
  have hne : ds ≠ [] := by
    rintro rfl
    cases hlength
  -- neither schemes nor braces nor spaces are there, and the dashes are taken out
  have hletter : 'u' ∉ u.render := fun hmem => absurd (u.render_subset hmem) (by decide)
  have hbare : removeAll "uuid:".toList (removeAll "urn:".toList u.render) = u.render := by
    rw [show "urn:".toList = 'u' :: ['r', 'n', ':'] from rfl, removeAll_eq_self hletter]
    exact removeAll_eq_self hletter
  have hbraces : dropEnds (fun c => c == '\x7b' || c == '\x7d') u.render = u.render := by
    have hclass : ('-' :: digits 16).all (fun d => !(d == '\x7b' || d == '\x7d')) = true := rfl
    refine dropEnds_eq_self fun c hc => ?_
    exact (Bool.not_eq_true' _).mp (List.all_eq_true.mp hclass c (u.render_subset hc))
  have hspaces : dropEnds isSpace (chars ds) = chars ds := by
    have hclass : (digits 16).all (fun d => !isSpace d) = true := rfl
    refine dropEnds_eq_self fun c hc => ?_
    exact (Bool.not_eq_true' _).mp (List.all_eq_true.mp hclass c (chars_subset hlt hc))
  have hread := readHex?_chars hlt hne
  rw [hvalue] at hread
  unfold read?
  simp only [hbare, hbraces, filter_render, hdigits, length_chars, hlength, if_true, hspaces, hread,
    Int.natCast_nonneg, Int.toNat_natCast, BitVec.ofNat_toNat, BitVec.setWidth_eq]

end Uuid
end RecordQuery
