import RecordQuery.Number.Uuid
import RecordQuery.Proofs.Number.ReadBack

/-!
# Characters of written numbers

Written numbers and identifiers are drawn from small alphabets. What is claimed of every written
number and holds character by character, such as that no comma stands in it, is then decided on the
alphabet.

* `Numeral.exists_padded` — the digits of a number in fixed width.
* `Decimal.render_subset`, `Binary64.render_subset`, `Uuid.render_subset` — the alphabets suffice.
-/

namespace RecordQuery

namespace Numeral

open Text

/-! ### Digits -/

/-- The digits of a base. -/
def digits (b : Nat) : List Char := chars (List.range b)

theorem chars_subset {b : Nat} {ds : List Nat} (hds : ∀ d ∈ ds, d < b) : chars ds ⊆ digits b :=
  List.map_subset _ fun d hd => List.mem_range.mpr (hds d hd)

theorem toDigits_subset {b : Nat} (hb : 1 < b) (n : Nat) : Nat.toDigits b n ⊆ digits b := by
  obtain ⟨ds, hds, hlt, -⟩ := exists_digits hb n
  rw [hds]
  exact chars_subset hlt

theorem zeros_subset {b : Nat} (hb : 1 < b) (k : Nat) : List.replicate k '0' ⊆ digits b := by
  intro c hc
  rw [List.eq_of_mem_replicate hc]
  exact List.mem_map.mpr ⟨0, List.mem_range.mpr (Nat.lt_trans Nat.one_pos hb), rfl⟩

/-- **Fixed width.** A number that is less than a power of the base is written with as many digits
as the exponent says, zeros in front included. -/
theorem exists_padded {b w n : Nat} (hb : 1 < b) (hw : 0 < w) (h : n < b ^ w) :
    ∃ ds, List.replicate (w - (Nat.toDigits b n).length) '0' ++ Nat.toDigits b n = chars ds ∧
      ds.length = w ∧ (∀ d ∈ ds, d < b) ∧ natOfDigits b ds = n := by
  obtain ⟨ds, hds, hlt, hvalue⟩ := exists_digits hb n
  have hlength : ds.length ≤ w := by
    rw [← length_chars, ← hds]
    exact (Nat.length_toDigits_le_iff hb hw).mpr h
  -- zeros in front are digits too, and add nothing to the value
  refine ⟨List.replicate (w - ds.length) 0 ++ ds, ?_, ?_, ?_, ?_⟩
  · rw [hds, length_chars, chars_append, chars_zeros]
  · rw [List.length_append, List.length_replicate]
    omega
  · intro d hd
    obtain hd | hd := List.mem_append.mp hd
    · rw [List.eq_of_mem_replicate hd]
      omega
    · exact hlt d hd
  · rw [natOfDigits_append, natOfDigits_zeros, Nat.zero_mul, Nat.zero_add, hvalue]

theorem padded_subset (w n : Nat) : padded w n ⊆ digits 10 :=
  List.append_subset.mpr ⟨zeros_subset (by decide) _, toDigits_subset (by decide) n⟩

/-! ### Layouts -/

/-- What finite numbers are written with: digits, a point, signs and the marks of an exponent. -/
def figures : List Char := digits 10 ++ ['.', '-', '+', 'E', 'e']

/-- What numbers are written with: digits, a point, signs, the marks of an exponent, and the
letters of the words for what is no finite number. -/
def alphabet : List Char :=
  digits 10 ++ ['.', '-', '+', 'E', 'e', 'I', 'n', 'f', 'i', 't', 'y', 'N', 'a', 's']

section

variable {ds : List Char}

theorem figures_subset_alphabet : figures ⊆ alphabet := by decide

theorem toDigits_subset_figures (n : Nat) : Nat.toDigits 10 n ⊆ figures :=
  List.Subset.trans (toDigits_subset (by decide) n) (List.subset_append_left _ _)

theorem zeros_subset_figures (k : Nat) : List.replicate k '0' ⊆ figures :=
  List.Subset.trans (zeros_subset (by decide) k) (List.subset_append_left _ _)

theorem minus_subset (p : Prop) [Decidable p] : (if p then ['-'] else []) ⊆ figures := by
  split <;> decide

theorem sign_mem (p : Prop) [Decidable p] : (if p then '-' else '+') ∈ figures := by
  split <;> decide

theorem signed_subset_figures (n : Int) : signed n ⊆ figures :=
  List.append_subset.mpr ⟨minus_subset _, toDigits_subset_figures _⟩

theorem toDigits_subset_alphabet (n : Nat) : Nat.toDigits 10 n ⊆ alphabet :=
  List.Subset.trans (toDigits_subset_figures n) figures_subset_alphabet

theorem signed_subset (n : Int) : signed n ⊆ alphabet :=
  List.Subset.trans (signed_subset_figures n) figures_subset_alphabet

/-- The layouts of a number put digits, points and letters together. -/
theorem split_subset (hds : ds ⊆ figures) (k : Nat) :
    ds.take k ++ '.' :: ds.drop k ⊆ figures := by
  rw [List.append_subset, List.cons_subset]
  exact ⟨List.Subset.trans (List.take_subset k ds) hds, by decide,
    List.Subset.trans (List.drop_subset k ds) hds⟩

theorem small_subset (hds : ds ⊆ figures) (k : Nat) :
    '0' :: '.' :: List.replicate k '0' ++ ds ⊆ figures := by
  rw [List.append_subset, List.cons_subset, List.cons_subset]
  exact ⟨⟨by decide, by decide, zeros_subset_figures k⟩, hds⟩

theorem fraction_subset : ds ⊆ figures →
    (match ds with
      | d :: e :: rest => d :: '.' :: e :: rest
      | _ => ds) ⊆ figures := by
  intro hds
  split
  · next d e rest =>
    rw [List.cons_subset] at hds
    rw [List.cons_subset, List.cons_subset]
    exact ⟨hds.1, by decide, hds.2⟩
  · exact hds

end

end Numeral

open Numeral

theorem Decimal.renderDigits_subset {ds : List Char} (hds : ds ⊆ figures) (e : Int) :
    renderDigits ds e ⊆ figures := by
  unfold renderDigits
  simp only
  split
  · split
    · exact hds
    · split
      · exact small_subset hds _
      · exact split_subset hds _
  · rw [List.append_subset, List.cons_subset, List.cons_subset]
    exact ⟨fraction_subset hds, by decide, sign_mem _, toDigits_subset_figures _⟩

/-- What decimal numbers are written with. -/
theorem Decimal.render_subset (d : Decimal) : d.render ⊆ alphabet := by
  rw [render_eq]
  refine List.append_subset.mpr ⟨List.Subset.trans (minus_subset _) figures_subset_alphabet, ?_⟩
  cases d with
  | finite negative c e =>
    exact List.Subset.trans (renderDigits_subset (toDigits_subset_figures c) e)
      figures_subset_alphabet
  | infinite negative =>
    rw [renderUnsigned]
    decide
  | nan negative signaling payload =>
    rw [renderUnsigned, List.append_subset, List.append_subset]
    refine ⟨?_, by decide, ?_⟩
    · cases signaling <;> decide
    · -- a payload is written only if there is one
      split
      · exact List.nil_subset _
      · exact toDigits_subset_alphabet payload

namespace Binary64

theorem positional_subset {ds : List Char} (hds : ds ⊆ figures) (point : Int) :
    positional ds point ⊆ figures := by
  unfold positional
  split
  · exact small_subset hds _
  · simp only
    split
    · rw [List.append_subset, List.append_subset]
      exact ⟨⟨hds, zeros_subset_figures _⟩, by decide⟩
    · exact split_subset hds _

theorem scientific_subset {ds : List Char} (hds : ds ⊆ figures) (e : Int) :
    scientific ds e ⊆ figures := by
  unfold scientific
  simp only
  rw [List.append_subset, List.cons_subset, List.cons_subset]
  refine ⟨fraction_subset hds, by decide, sign_mem _, ?_⟩
  split
  · rw [List.cons_subset]
    exact ⟨by decide, toDigits_subset_figures _⟩
  · exact toDigits_subset_figures _

/-- What finite floating point numbers are written with. -/
theorem render_finite_subset (negative : Bool) (m : Nat) (e : Int) :
    (finite negative m e).render ⊆ figures := by
  -- zeros at the end are left out, and no other digit comes in
  have hdigits : (digitsOf m e).1 ⊆ figures := by
    intro c hc
    refine toDigits_subset_figures (shortest m e).1 ?_
    exact List.mem_reverse.mp (List.dropWhile_sublist _ |>.mem (List.mem_reverse.mp hc))
  unfold render
  simp only
  split
  · rw [List.append_subset]
    exact ⟨minus_subset _, by decide⟩
  · rw [List.append_subset]
    refine ⟨minus_subset _, ?_⟩
    split
    · exact positional_subset hdigits _
    · exact scientific_subset hdigits _

/-- What floating point numbers are written with. -/
theorem render_subset (x : Binary64) : x.render ⊆ alphabet := by
  cases x with
  | nan =>
    rw [render]
    decide
  | infinite negative =>
    rw [render, List.append_subset]
    exact ⟨List.Subset.trans (minus_subset _) figures_subset_alphabet, by decide⟩
  | finite negative m e =>
    exact List.Subset.trans (render_finite_subset negative m e) figures_subset_alphabet

end Binary64

/-- What identifiers are written with. -/
theorem Uuid.render_subset (u : Uuid) : u.render ⊆ '-' :: digits 16 := by
  have hdigits : u.hexDigits ⊆ '-' :: digits 16 := by
    refine List.Subset.trans ?_ (List.subset_cons_self _ _)
    exact List.append_subset.mpr ⟨zeros_subset (by decide) _, toDigits_subset (by decide) _⟩
  have hdrop : ∀ i, u.hexDigits.drop i ⊆ '-' :: digits 16 := fun i =>
    List.Subset.trans (List.drop_subset i _) hdigits
  have hgroup : ∀ i j, (u.hexDigits.drop i).take j ⊆ '-' :: digits 16 := fun i j =>
    List.Subset.trans (List.take_subset j _) (hdrop i)
  unfold render
  simp only [List.append_subset, List.cons_subset, List.mem_cons_self, true_and]
  exact ⟨⟨⟨⟨hgroup 0 8, hgroup 8 4⟩, hgroup 12 4⟩, hgroup 16 4⟩, hdrop 20⟩

end RecordQuery
