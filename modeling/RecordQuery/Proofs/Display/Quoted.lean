import RecordQuery.Proofs.Number.Digits
import RecordQuery.Text.Quoted

/-!
# Quoted text reads back

What is written for a character between quotes can be read again: a backslash is followed by the
character itself, by a letter that stands for a control character, or by the number of the
character in a fixed number of digits. No such text begins with the mark that ends the quotation,
so a quotation has one reading, also with further text after it.

* `Text.unescape?` reads one character; `unescape?_escapeChar` and `unescape?_escapeByte` are the
  reading of what is written.
* `Text.quote_append_inj` — quotations end where their mark stands.
* `Text.quoted_inj`, `Text.quoteBytes_inj` — different texts are quoted differently.
-/

namespace RecordQuery.Text

open Numeral

/-- The characters in which texts are enclosed. -/
def IsMark (c : Char) : Prop := c = apostrophe ∨ c = quotationMark

theorem isMark_quoteFor (cs : List Char) : IsMark (quoteFor cs) := by
  unfold quoteFor
  split
  · exact .inr rfl
  · exact .inl rfl

/-! ### Hexadecimal digits -/

section

variable {k n : Nat}

/-- The number that hexadecimal digits denote. -/
def hexValue (cs : List Char) : Nat := natOfDigits 16 (cs.map fun c => (digitIn? 16 c).getD 0)

/-- The digits of a number in a width that suffices for it. -/
theorem exists_hexDigits (hk : 0 < k) (hn : n < 16 ^ k) :
    ∃ ds, hexDigits k n = chars ds ∧ (∀ d ∈ ds, d < 16) ∧ ds.length = k ∧
      natOfDigits 16 ds = n := by
  obtain ⟨ds, hds, hlt, hvalue⟩ := exists_digits (b := 16) (by decide) n
  have hlength : ds.length ≤ k := by
    rw [← length_chars, ← hds]
    exact (Nat.length_toDigits_le_iff (by decide) hk).mpr hn
  -- zeros fill the width
  refine ⟨List.replicate (k - ds.length) 0 ++ ds, ?_, ?_, ?_, ?_⟩
  · rw [hexDigits, hds, length_chars, chars_append, chars_zeros]
  · intro d hd
    obtain hd | hd := List.mem_append.mp hd
    · rw [List.eq_of_mem_replicate hd]
      exact Nat.zero_lt_succ 15
    · exact hlt d hd
  · rw [List.length_append, List.length_replicate]
    exact Nat.sub_add_cancel hlength
  · rw [natOfDigits_append, natOfDigits_zeros, Nat.zero_mul, Nat.zero_add, hvalue]

theorem length_hexDigits (hk : 0 < k) (hn : n < 16 ^ k) : (hexDigits k n).length = k := by
  obtain ⟨ds, hds, -, hlength, -⟩ := exists_hexDigits hk hn
  rw [hds, length_chars, hlength]

theorem hexValue_hexDigits (hk : 0 < k) (hn : n < 16 ^ k) : hexValue (hexDigits k n) = n := by
  obtain ⟨ds, hds, hlt, -, rfl⟩ := exists_hexDigits hk hn
  have hread : (chars ds).map (fun c => (digitIn? 16 c).getD 0) = ds := by
    rw [chars, List.map_map]
    refine (List.map_congr_left fun d hd => ?_).trans (List.map_id ds)
    show (digitIn? 16 d.digitChar).getD 0 = d
    rw [digitIn?_digitChar (Nat.le_refl 16) (hlt d hd)]
    rfl
  rw [hds, hexValue, hread]

end

/-! ### Characters between quotes -/

/-- The character that a text between quotes begins with, and the text after it. -/
def unescape? : List Char → Option (Char × List Char)
  | [] => none
  | '\\' :: 'n' :: cs => some ('\n', cs)
  | '\\' :: 'r' :: cs => some ('\r', cs)
  | '\\' :: 't' :: cs => some ('\t', cs)
  | '\\' :: 'x' :: cs => some (Char.ofNat (hexValue (cs.take 2)), cs.drop 2)
  | '\\' :: 'u' :: cs => some (Char.ofNat (hexValue (cs.take 4)), cs.drop 4)
  | '\\' :: 'U' :: cs => some (Char.ofNat (hexValue (cs.take 8)), cs.drop 8)
  | '\\' :: c :: cs => some (c, cs)
  | c :: cs => some (c, cs)

theorem unescape?_cons {c : Char} (h : c ≠ '\\') (cs : List Char) :
    unescape? (c :: cs) = some (c, cs) := by
  unfold unescape?
  split <;> simp_all

/-- A mark or a backslash after a backslash stands for itself. -/
theorem unescape?_escaped {c : Char} (h : IsMark c ∨ c = '\\') (cs : List Char) :
    unescape? ('\\' :: c :: cs) = some (c, cs) := by
  obtain (rfl | rfl) | rfl := h <;> rfl

theorem unescape?_hexDigits {k n : Nat} (hk : 0 < k) (hn : n < 16 ^ k) (cs : List Char) :
    some (Char.ofNat (hexValue ((hexDigits k n ++ cs).take k)), (hexDigits k n ++ cs).drop k) =
      some (Char.ofNat n, cs) := by
  have hlength := length_hexDigits hk hn
  rw [List.take_left' hlength, List.drop_left' hlength, hexValue_hexDigits hk hn]

section

variable {mark : Char}

/-- **What is written for a character** between quotes is read as the character. -/
theorem unescape?_escapeChar (hmark : IsMark mark) (c : Char) (cs : List Char) :
    unescape? (escapeChar mark c ++ cs) = some (c, cs) := by
  have hnumber : ∀ k, 0 < k → c.toNat < 16 ^ k →
      some (Char.ofNat (hexValue ((hexDigits k c.toNat ++ cs).take k)),
        (hexDigits k c.toNat ++ cs).drop k) = some (c, cs) := by
    intro k hk hc
    rw [unescape?_hexDigits hk hc, Char.ofNat_toNat]
  unfold escapeChar
  split
  · next hc =>
    refine unescape?_escaped ?_ cs
    -- the mark itself or a backslash: it follows a backslash
    obtain rfl | hc := Bool.or_eq_true_iff.mp hc |>.imp of_decide_eq_true of_decide_eq_true
    · exact .inl hmark
    · exact .inr hc
  · next hc =>
    have hslash : c ≠ '\\' := fun h => hc (by simp [h])
    split
    · next hline => rw [hline]; rfl
    · split
      · next hreturn => rw [hreturn]; rfl
      · split
        · next htab => rw [htab]; rfl
        · split
          · exact unescape?_cons hslash cs
          · -- what is not printable is written by its number, in the least of three widths
            split
            · next h => exact hnumber 2 (by omega) (by omega)
            · split
              · next h => exact hnumber 4 (by omega) (by omega)
              · have hvalid : c.toNat < 0x110000 := by
                  have hchar := c.valid
                  simp only [UInt32.isValidChar, Nat.isValidChar] at hchar
                  simp only [Char.toNat]
                  omega
                exact hnumber 8 (by omega) (by omega)

theorem toNat_ofNat_byte (b : UInt8) : (Char.ofNat b.toNat).toNat = b.toNat := by
  have hlt := b.toNat_lt
  have hvalid : b.toNat.isValidChar := .inl (by omega)
  -- a byte is the number of some character, so no replacement takes place
  have hchar : Char.ofNat b.toNat = Char.ofNatAux b.toNat hvalid := dif_pos hvalid
  exact congrArg Char.toNat hchar

/-- **What is written for a byte** between quotes is read as the character of its number. -/
theorem unescape?_escapeByte (hmark : IsMark mark) (b : UInt8) (cs : List Char) :
    unescape? (escapeByte mark b ++ cs) = some (Char.ofNat b.toNat, cs) := by
  unfold escapeByte
  simp only
  split
  · next hc =>
    refine unescape?_escaped ?_ cs
    obtain hc | hc := Bool.or_eq_true_iff.mp hc |>.imp of_decide_eq_true of_decide_eq_true
    · exact .inl (hc ▸ hmark)
    · exact .inr hc
  · next hc =>
    -- all that follows is written without a slash, or with one and a letter
    have hslash : Char.ofNat b.toNat ≠ '\\' := fun h => hc (by simp [h])
    split
    · next hline => rw [hline]; rfl
    · split
      · next hreturn => rw [hreturn]; rfl
      · split
        · next htab => rw [htab]; rfl
        · split
          · exact unescape?_cons hslash cs
          · exact unescape?_hexDigits (by decide) b.toNat_lt cs

end

/-! ### Quotations -/

/-- A text between two marks: a backslash stands with the character after it, and the mark does not
stand by itself. -/
inductive Enclosed (mark : Char) : List Char → Prop where
  | nil : Enclosed mark []
  | plain {c : Char} {cs : List Char} : c ≠ mark → c ≠ '\\' → Enclosed mark cs →
      Enclosed mark (c :: cs)
  | escaped {cs : List Char} (c : Char) : Enclosed mark cs → Enclosed mark ('\\' :: c :: cs)

namespace Enclosed

variable {mark : Char} {cs ds : List Char}

theorem append (h : Enclosed mark cs) (h' : Enclosed mark ds) : Enclosed mark (cs ++ ds) := by
  induction h with
  | nil => exact h'
  | plain hmark hslash _ ih => exact .plain hmark hslash ih
  | escaped c _ ih => exact .escaped c ih

theorem of_forall : ∀ {cs : List Char}, (∀ c ∈ cs, c ≠ mark ∧ c ≠ '\\') → Enclosed mark cs
  | [], _ => .nil
  | c :: cs, h => by
    obtain ⟨hmark, hslash⟩ := h c List.mem_cons_self
    exact .plain hmark hslash (of_forall fun d hd => h d (List.mem_cons_of_mem c hd))

theorem flatMap {α : Type} {f : α → List Char} (h : ∀ x, Enclosed mark (f x)) (xs : List α) :
    Enclosed mark (xs.flatMap f) := by
  induction xs with
  | nil => exact .nil
  | cons x xs ih => exact (h x).append ih

theorem ne_cons (hmark : IsMark mark) (h : Enclosed mark cs) (hne : cs ≠ []) (ds es : List Char) :
    cs ++ ds ≠ mark :: es := by
  intro heq
  cases h with
  | nil => exact hne rfl
  | plain hother _ _ => exact hother (List.cons_eq_cons.mp heq).1
  | escaped c _ =>
    -- a backslash comes first, and it is no mark
    rw [← (List.cons_eq_cons.mp heq).1] at hmark
    obtain h | h := hmark <;> exact absurd h (by decide)

/-- Digits are no marks. -/
theorem of_hexDigits (hmark : IsMark mark) (k n : Nat) : Enclosed mark (hexDigits k n) := by
  refine of_forall fun c hc => ?_
  have hdigit := isSome_digitIn? (b := 16) (by decide) (Nat.le_refl 16) hc
  constructor
  · rintro rfl
    obtain h | h := hmark <;> rw [h] at hdigit <;> cases hdigit
  · intro h
    rw [h] at hdigit
    cases hdigit

theorem of_escapeChar (hmark : IsMark mark) (c : Char) : Enclosed mark (escapeChar mark c) := by
  unfold escapeChar
  split
  · exact .escaped c .nil
  · next hc =>
    obtain ⟨hother, hslash⟩ : c ≠ mark ∧ c ≠ '\\' := by simpa using hc
    -- three control characters, a printable one, and numbers of three widths
    repeat' split
    · exact .escaped 'n' .nil
    · exact .escaped 'r' .nil
    · exact .escaped 't' .nil
    · exact .plain hother hslash .nil
    · exact .escaped 'x' (of_hexDigits hmark 2 _)
    · exact .escaped 'u' (of_hexDigits hmark 4 _)
    · exact .escaped 'U' (of_hexDigits hmark 8 _)

theorem of_escapeByte (hmark : IsMark mark) (b : UInt8) : Enclosed mark (escapeByte mark b) := by
  unfold escapeByte
  simp only
  split
  · exact .escaped _ .nil
  · next hc =>
    obtain ⟨hother, hslash⟩ : Char.ofNat b.toNat ≠ mark ∧ Char.ofNat b.toNat ≠ '\\' := by
      simpa using hc
    -- line break, return, tab, a plain character, or two digits
    repeat' split
    · exact .escaped 'n' .nil
    · exact .escaped 'r' .nil
    · exact .escaped 't' .nil
    · exact .plain hother hslash .nil
    · exact .escaped 'x' (of_hexDigits hmark 2 _)

end Enclosed

/-- Parts that can be read one by one, up to a mark with which none of them begins. -/
theorem flatMap_append_inj {α : Type} {f : α → List Char} {mark : Char}
    (read : List Char → Option (α × List Char)) (hread : ∀ x cs, read (f x ++ cs) = some (x, cs))
    (hstart : ∀ x cs ds, f x ++ cs ≠ mark :: ds) {xs ys : List α} {cs ds : List Char}
    (h : xs.flatMap f ++ mark :: cs = ys.flatMap f ++ mark :: ds) : xs = ys ∧ cs = ds := by
  induction xs generalizing ys with
  | nil =>
    cases ys with
    | nil => exact ⟨rfl, (List.cons_eq_cons.mp h).2⟩
    | cons y ys =>
      rw [List.flatMap_cons, List.append_assoc] at h
      exact absurd h.symm (hstart y _ cs)
  | cons x xs ih =>
    cases ys with
    | nil =>
      -- one text ends where the other one has a further part
      rw [List.flatMap_cons, List.append_assoc] at h
      exact absurd h (hstart x _ ds)
    | cons y ys =>
      rw [List.flatMap_cons, List.flatMap_cons, List.append_assoc, List.append_assoc] at h
      -- reading the common text gives both first parts
      have hfirst := hread x (xs.flatMap f ++ mark :: cs)
      rw [h, hread] at hfirst
      obtain ⟨rfl, hrest⟩ := Prod.mk.inj (Option.some.inj hfirst)
      obtain ⟨rfl, rfl⟩ := ih hrest.symm
      exact ⟨rfl, rfl⟩

/-- **Quotations end where their mark stands**: a quoted text is known from what begins with it. -/
theorem quote_append_inj {cs ds xs ys : List Char} (h : quote cs ++ xs = quote ds ++ ys) :
    cs = ds ∧ xs = ys := by
  unfold quote at h
  simp only [List.cons_append, List.append_assoc, List.nil_append] at h
  obtain ⟨hmark, h⟩ := List.cons_eq_cons.mp h
  rw [hmark] at h
  -- the marks agree, as the first characters do, so both texts are escaped alike
  have hquote := isMark_quoteFor ds
  refine flatMap_append_inj unescape? (unescape?_escapeChar hquote) (fun c es fs => ?_) h
  refine (Enclosed.of_escapeChar hquote c).ne_cons hquote (fun hnil => ?_) es fs
  have hread := unescape?_escapeChar hquote c []
  rw [hnil] at hread
  cases hread

theorem quoted_inj {s t : String} (h : quoted s = quoted t) : s = t := by
  have hquote : quote s.toList ++ [] = quote t.toList ++ [] :=
    congrArg (· ++ []) (String.ofList_injective h)
  exact String.toList_inj.mp (quote_append_inj hquote).1

theorem quoteBytes_inj {bs cs : List UInt8} (h : quoteBytes bs = quoteBytes cs) : bs = cs := by
  unfold quoteBytes at h
  simp only [List.cons_append] at h
  obtain ⟨-, h⟩ := List.cons_eq_cons.mp h
  obtain ⟨hsame, h⟩ := List.cons_eq_cons.mp h
  rw [hsame] at h
  generalize hquote : quoteFor (cs.map fun b => Char.ofNat b.toNat) = mark at h
  have hmark : IsMark mark := hquote ▸ isMark_quoteFor _
  -- a byte is read as its character and turned back into the byte
  let read (es : List Char) := (unescape? es).map fun p => (UInt8.ofNat p.1.toNat, p.2)
  have hread : ∀ b es, read (escapeByte mark b ++ es) = some (b, es) := by
    intro b es
    show (unescape? (escapeByte mark b ++ es)).map _ = some (b, es)
    rw [unescape?_escapeByte hmark, Option.map_some, toNat_ofNat_byte, UInt8.ofNat_toNat]
  refine (flatMap_append_inj read hread (fun b es fs => ?_) h).1
  refine (Enclosed.of_escapeByte hmark b).ne_cons hmark (fun hnil => ?_) es fs
  have hnone := hread b []
  rw [hnil] at hnone
  cases hnone

end RecordQuery.Text
