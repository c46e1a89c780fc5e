import RecordQuery.Number.Decimal
import RecordQuery.Proofs.Number.Shortest

/-!
# Numbers that read back

The written forms of decimal and floating point numbers are laid out by the place of the point, and
`Numeral.readDecimal?` recovers digits and exponent from every layout. A decimal number keeps its
coefficient and exponent; a floating point number comes back by rounding, from the shortest decimal
that `Binary64.shortest_spec` is about.

* `Decimal.readDecimal?_renderDigits` — every layout of a decimal number denotes its digits.
* `Binary64.exists_decimal` — the written form of a positive number denotes a decimal that is
  rounded to it.
* `Decimal.render_inj`, `Binary64.render_inj` — different numbers are written differently.
-/

namespace RecordQuery

open Text Numeral

/-! ### Layouts -/

section

variable {us : List Nat}

theorem forall_zeros_append {k : Nat} (hus : ∀ d ∈ us, d < 10) :
    ∀ d ∈ List.replicate k 0 ++ us, d < 10 := by
  intro d hd
  obtain hd | hd := List.mem_append.mp hd
  · rw [List.eq_of_mem_replicate hd]
    decide
  · exact hus d hd

theorem natOfDigits_zeros_append (k : Nat) (us : List Nat) :
    natOfDigits 10 (List.replicate k 0 ++ us) = natOfDigits 10 us := by
  rw [natOfDigits_append, natOfDigits_zeros, Nat.zero_mul, Nat.zero_add]

theorem natOfDigits_append_zeros (us : List Nat) (k : Nat) :
    natOfDigits 10 (us ++ List.replicate k 0) = natOfDigits 10 us * 10 ^ k := by
  rw [natOfDigits_append, natOfDigits_zeros, List.length_replicate, Nat.add_zero]

/-- Digits behind a point and some zeros. -/
theorem readDecimal?_small (hus : ∀ d ∈ us, d < 10) (k : Nat) :
    readDecimal? ('0' :: '.' :: List.replicate k '0' ++ chars us) =
      some (natOfDigits 10 us, -(k + us.length : Int)) := by
  have hread := readDecimal?_point [0] (List.replicate k 0 ++ us) []
    (by simp) (forall_zeros_append hus) (List.cons_ne_nil 0 []) noDigit_nil
  rw [chars_append, chars_zeros, List.append_nil] at hread
  refine hread.trans ?_
  -- the zero before the point counts like the zeros after it
  have hvalue : natOfDigits 10 ([0] ++ (List.replicate k 0 ++ us)) = natOfDigits 10 us :=
    natOfDigits_zeros_append (k + 1) us
  rw [exponentTail?, Option.map_some, hvalue, List.length_append, List.length_replicate,
    Int.add_zero]
  rfl

/-- Digits with a point after the first `k` of them. -/
theorem readDecimal?_split (hus : ∀ d ∈ us, d < 10) {k : Nat} (hk : 0 < k) (hle : k ≤ us.length) :
    readDecimal? ((chars us).take k ++ '.' :: (chars us).drop k) =
      some (natOfDigits 10 us, -(us.length - k : Int)) := by
  -- at least one digit stands before the point
  have htake : us.take k ≠ [] := by
    intro hnil
    have hlength := congrArg List.length hnil
    rw [List.length_take, List.length_nil] at hlength
    omega
  have hread := readDecimal?_point (us.take k) (us.drop k) []
    (fun d hd => hus d (List.mem_of_mem_take hd)) (fun d hd => hus d (List.mem_of_mem_drop hd))
    htake noDigit_nil
  rw [List.append_nil, List.take_append_drop, exponentTail?, Option.map_some, Int.add_zero,
    List.length_drop, Int.ofNat_sub hle] at hread
  rw [← hread]
  simp only [chars, List.map_take, List.map_drop]

/-- Digits in scientific notation, with the point after the first digit. -/
theorem readDecimal?_scientific (hus : ∀ d ∈ us, d < 10) (hne : us ≠ []) {tail : List Char}
    {e : Int} (htail : exponentTail? tail = some e) (hdigit : NoDigit tail)
    (hpoint : tail.head? ≠ some '.') :
    readDecimal? ((match chars us with
      | d :: e :: rest => d :: '.' :: e :: rest
      | _ => chars us) ++ tail) = some (natOfDigits 10 us, e - (us.length - 1 : Int)) := by
  -- the point stands behind the first digit, if there are more
  match us, hne with
  | [d], hne =>
    have hread := readDecimal?_whole tail hus hne hdigit hpoint
    rw [htail, Option.map_some] at hread
    refine hread.trans ?_
    simp
  | d :: f :: fs, _ =>
    have hread := readDecimal?_point [d] (f :: fs) tail
      (fun x hx => hus x (List.mem_append_left (f :: fs) hx))
      (fun x hx => hus x (List.mem_cons_of_mem d hx)) (List.cons_ne_nil d []) hdigit
    rw [htail, Option.map_some] at hread
    refine hread.trans ?_
    simp only [List.singleton_append, List.length_cons]
    congr 2
    push_cast
    ring

/-- A mark of an exponent, its sign and its digits. -/
theorem exponentTail?_spec (mark : Char) (hmark : mark = 'e' ∨ mark = 'E') (power : Int)
    (k : Nat) :
    let tail := mark :: (if power < 0 then '-' else '+') ::
      (List.replicate k '0' ++ Nat.toDigits 10 power.natAbs)
    exponentTail? tail = some power ∧ NoDigit tail ∧ tail.head? ≠ some '.' := by
  intro tail
  obtain ⟨es, hes, hlt, hvalue⟩ := exists_digits (b := 10) (by decide) power.natAbs
  have hne : List.replicate k 0 ++ es ≠ [] := by
    intro hnil
    have hnil' := (List.append_eq_nil_iff.mp hnil).2
    rw [hnil'] at hes
    exact Nat.toDigits_ne_nil hes
  -- zeros in front do not change the number that the digits state
  have htail := exponentTail?_signed hmark (forall_zeros_append (k := k) hlt) hne (power < 0)
  rw [natOfDigits_zeros_append, hvalue, chars_append, chars_zeros, ← hes] at htail
  simp only [decide_eq_true_eq] at htail
  refine ⟨htail.trans ?_, ?_, ?_⟩
  · congr 1
    split <;> omega
  · obtain rfl | rfl := hmark
    · exact noDigit_cons rfl
    · exact noDigit_cons rfl
  · obtain rfl | rfl := hmark
    · exact fun h => by cases h
    · exact fun h => by cases h

end

/-! ### Signs -/

/-- A mark that may stand in front of texts which do not begin with it can be told from them. -/
theorem mark_append_inj {c : Char} {b b' : Bool} {cs cs' : List Char} (hcs : cs.head? ≠ some c)
    (hcs' : cs'.head? ≠ some c)
    (h : (if b then [c] else []) ++ cs = (if b' then [c] else []) ++ cs') : b = b' ∧ cs = cs' := by
  -- a mark on one side only would be the first character of the other
  cases b with
  | true =>
    cases b' with
    | true => exact ⟨rfl, (List.cons_eq_cons.mp h).2⟩
    | false => exact absurd (congrArg List.head? h).symm hcs'
  | false =>
    cases b' with
    | true => exact absurd (congrArg List.head? h) hcs
    | false => exact ⟨rfl, h⟩

/-- A text that begins with neither a digit nor a point is no numeral. -/
theorem readDecimal?_eq_none {c : Char} (hdigit : digitValue? c = none) (hpoint : c ≠ '.')
    (cs : List Char) : readDecimal? (c :: cs) = none := by
  have hspan : spanDigits (c :: cs) = ([], c :: cs) := by rw [spanDigits, hdigit]
  have hfraction : spanFraction (c :: cs) = ([], c :: cs) :=
    spanFraction_of_ne fun h => hpoint (Option.some.inj h)
  unfold readDecimal?
  rw [hspan]
  simp only [hfraction]
  rfl

theorem head_ne_of_readDecimal? {cs : List Char} {r : Nat × Int} (h : readDecimal? cs = some r)
    {c : Char} (hdigit : digitValue? c = none) (hpoint : c ≠ '.') : cs.head? ≠ some c := by
  intro hhead
  obtain ⟨rest, rfl⟩ := List.head?_eq_some_iff.mp hhead
  rw [readDecimal?_eq_none hdigit hpoint] at h
  cases h

/-! ### Decimal numbers -/

namespace Decimal

/-- Every layout of a decimal number denotes its digits and its exponent. -/
theorem readDecimal?_renderDigits {us : List Nat} (hus : ∀ d ∈ us, d < 10) (hne : us ≠ [])
    (e : Int) :
    readDecimal? (renderDigits (chars us) e) = some (natOfDigits 10 us, e) := by
  have hpos := List.length_pos_iff.mpr hne
  unfold renderDigits
  simp only [length_chars]
  split
  · split
    · next hzero =>
      have hread := readDecimal?_whole [] hus hne noDigit_nil nofun
      rw [List.append_nil] at hread
      rw [hread, hzero]
      rfl
    · split
      · -- all digits stand behind the point
        next hsmall =>
        rw [readDecimal?_small hus]
        congr 2
        omega
      · -- the point stands among the digits
        next hplaced _ _ =>
        rw [readDecimal?_split hus (by omega) (by omega)]
        congr 2
        omega
  · obtain ⟨htail, hdigit, hpoint⟩ :=
      exponentTail?_spec 'E' (.inr rfl) ((us.length : Int) + e - 1) 0
    refine (readDecimal?_scientific hus hne htail hdigit hpoint).trans ?_
    congr 2
    ring

/-- A value without its sign. -/
def renderUnsigned : Decimal → List Char
  | .finite _ c e => renderDigits (Nat.toDigits 10 c) e
  | .infinite _ => ['I', 'n', 'f', 'i', 'n', 'i', 't', 'y']
  | .nan _ signaling payload =>
    (if signaling then ['s'] else []) ++
      (['N', 'a', 'N'] ++ if payload = 0 then [] else Nat.toDigits 10 payload)

/-- Whether a value has a minus sign. -/
def hasMinus : Decimal → Bool
  | .finite negative _ _ | .infinite negative | .nan negative _ _ => negative

theorem render_eq (d : Decimal) :
    d.render = (if d.hasMinus then ['-'] else []) ++ d.renderUnsigned := by
  cases d with
  | finite negative c e => rfl
  | infinite negative => exact congrArg _ String.toList_ofList
  | nan negative signaling payload =>
    have hword : "NaN".toList = ['N', 'a', 'N'] := String.toList_ofList
    rw [render, hword, List.append_assoc, List.append_assoc]
    rfl

theorem readDecimal?_finite (negative : Bool) (c : Nat) (e : Int) :
    readDecimal? (finite negative c e).renderUnsigned = some (c, e) := by
  obtain ⟨us, hus, hlt, rfl⟩ := exists_digits (b := 10) (by decide) c
  have hne : us ≠ [] := by
    rintro rfl
    exact Nat.toDigits_ne_nil hus
  rw [renderUnsigned, hus]
  exact readDecimal?_renderDigits hlt hne e

theorem readDecimal?_word {d : Decimal} (h : ∀ negative c e, d ≠ .finite negative c e) :
    readDecimal? d.renderUnsigned = none := by
  cases d with
  | finite negative c e => exact absurd rfl (h negative c e)
  | infinite negative =>
    rw [renderUnsigned]
    exact readDecimal?_eq_none rfl (by decide) _
  | nan negative signaling payload =>
    rw [renderUnsigned]
    cases signaling with
    | true => exact readDecimal?_eq_none rfl (by decide) _
    | false => exact readDecimal?_eq_none rfl (by decide) _

/-- No sign stands at the beginning of a value without its sign. -/
theorem head_renderUnsigned (d : Decimal) {c : Char} (hc : c = '-' ∨ c = '+') :
    d.renderUnsigned.head? ≠ some c := by
  have hsign : digitValue? c = none ∧ c ≠ '.' ∧ c ≠ 'I' ∧ c ≠ 's' ∧ c ≠ 'N' := by
    obtain rfl | rfl := hc <;> decide
  obtain ⟨hdigit, hpoint, hI, hs, hN⟩ := hsign
  cases d with
  | finite negative k e =>
    exact head_ne_of_readDecimal? (readDecimal?_finite negative k e) hdigit hpoint
  | infinite negative =>
    rw [renderUnsigned]
    exact fun h => hI (Option.some.inj h).symm
  | nan negative signaling payload =>
    rw [renderUnsigned]
    cases signaling with
    | true => exact fun h => hs (Option.some.inj h).symm
    | false => exact fun h => hN (Option.some.inj h).symm

/-- **Decimal numbers are written differently** unless they have the same sign, coefficient and
exponent; so are the other values. -/
theorem render_inj {x y : Decimal} (h : x.render = y.render) : x = y := by
  rw [render_eq, render_eq] at h
  -- the sign is known, and a finite number is known from what it is read as
  obtain ⟨hsign, h⟩ := mark_append_inj (head_renderUnsigned x (.inl rfl))
    (head_renderUnsigned y (.inl rfl)) h
  cases x with
  | finite negative c e =>
    have hread := readDecimal?_finite negative c e
    cases y with
    | finite negative' c' e' =>
      rw [h, readDecimal?_finite negative' c' e'] at hread
      cases hread
      rw [show negative = negative' from hsign]
    | infinite negative' =>
      rw [h, readDecimal?_word fun _ _ _ => Decimal.noConfusion] at hread
      cases hread
    | nan negative' signaling payload =>
      rw [h, readDecimal?_word fun _ _ _ => Decimal.noConfusion] at hread
      cases hread
  | infinite negative =>
    cases y with
    | finite negative' c' e' =>
      have hread := readDecimal?_finite negative' c' e'
      rw [← h, readDecimal?_word fun _ _ _ => Decimal.noConfusion] at hread
      cases hread
    | infinite negative' => rw [show negative = negative' from hsign]
    | nan negative' signaling payload =>
      cases signaling <;> cases h
  | nan negative signaling payload =>
    cases y with
    | finite negative' c' e' =>
      have hread := readDecimal?_finite negative' c' e'
      rw [← h, readDecimal?_word fun _ _ _ => Decimal.noConfusion] at hread
      cases hread
    | infinite negative' =>
      cases signaling <;> cases h
    | nan negative' signaling' payload' =>
      -- an optional letter, the word, and an optional payload
      obtain ⟨hsignaling, h⟩ := mark_append_inj (fun h => by cases h) (fun h => by cases h) h
      have hpayload := List.append_cancel_left h
      have hsame : payload = payload' := by
        split at hpayload <;> split at hpayload
        · omega
        · exact absurd hpayload.symm Nat.toDigits_ne_nil
        · exact absurd hpayload Nat.toDigits_ne_nil
        · exact toDigits_inj (by decide) (by decide) hpayload
      rw [show negative = negative' from hsign, hsignaling, hsame]

end Decimal

/-! ### Floating point numbers -/

namespace Binary64

/-- Leading zeros that are dropped, as digit values. -/
theorem exists_dropZeros : ∀ us : List Nat, ∃ k vs, us = List.replicate k 0 ++ vs ∧
    (chars us).dropWhile (· == '0') = chars vs
  | [] => ⟨0, [], rfl, rfl⟩
  | d :: ds => by
    -- zeros at the front are counted, the first other digit ends them
    by_cases hd : d = 0
    · obtain ⟨k, vs, hds, hdrop⟩ := exists_dropZeros ds
      refine ⟨k + 1, vs, ?_, ?_⟩
      · rw [hd, hds, List.replicate_succ, List.cons_append]
      · rw [chars_cons, List.dropWhile_cons_of_pos, hdrop]
        rw [hd]
        rfl
    · refine ⟨0, d :: ds, rfl, ?_⟩
      rw [chars_cons, List.dropWhile_cons_of_neg]
      simpa using hd

/-- Digits without the zeros at their end. -/
theorem exists_dropTrailingZeros (us : List Nat) : ∃ vs k, us = vs ++ List.replicate k 0 ∧
    dropTrailingZeros (chars us) = chars vs := by
  obtain ⟨k, vs, hus, hdrop⟩ := exists_dropZeros us.reverse
  refine ⟨vs.reverse, k, ?_, ?_⟩
  · rw [← List.reverse_reverse us, hus, List.reverse_append, List.reverse_replicate]
  · have hreverse : ∀ xs : List Nat, (chars xs).reverse = chars xs.reverse := fun xs =>
      List.map_reverse.symm
    rw [dropTrailingZeros, hreverse, hdrop, hreverse]

/-- The positional form denotes the digits, possibly with zeros after them. -/
theorem readDecimal?_positional {vs : List Nat} (hvs : ∀ d ∈ vs, d < 10) (hne : vs ≠ [])
    (point : Int) : ∃ j : Nat, readDecimal? (positional (chars vs) point) =
      some (natOfDigits 10 vs * 10 ^ j, point - vs.length - j) := by
  have hpos := List.length_pos_iff.mpr hne
  unfold positional
  simp only [length_chars]
  split
  · next hpoint =>
    refine ⟨0, ?_⟩
    rw [readDecimal?_small hvs, pow_zero, Nat.mul_one]
    congr 2
    omega
  · next hpoint =>
    split
    · next hlong =>
      -- an integer: the digits are filled up to the point, and one zero follows it
      refine ⟨point.toNat - vs.length + 1, ?_⟩
      have hfilled : ∀ d ∈ vs ++ List.replicate (point.toNat - vs.length) 0, d < 10 := by
        intro d hd
        obtain hd | hd := List.mem_append.mp hd
        · exact hvs d hd
        · rw [List.eq_of_mem_replicate hd]
          decide
      have hread := readDecimal?_point _ [0] [] hfilled (by simp)
        (List.append_ne_nil_of_left_ne_nil hne _) noDigit_nil
      rw [exponentTail?, Option.map_some, chars_append, chars_zeros] at hread
      refine hread.trans ?_
      have hvalue : natOfDigits 10 (vs ++ List.replicate (point.toNat - vs.length) 0 ++ [0]) =
          natOfDigits 10 vs * 10 ^ (point.toNat - vs.length + 1) := by
        rw [List.append_assoc, ← List.replicate_succ', natOfDigits_append_zeros]
      rw [hvalue]
      congr 2
      simp only [List.length_singleton]
      omega
    · next hshort =>
      refine ⟨0, ?_⟩
      rw [readDecimal?_split hvs (by omega) (by omega), pow_zero, Nat.mul_one]
      congr 2
      omega

/-- The scientific form denotes the digits. -/
theorem readDecimal?_scientific' {vs : List Nat} (hvs : ∀ d ∈ vs, d < 10) (hne : vs ≠ [])
    (point : Int) : readDecimal? (scientific (chars vs) (point - 1)) =
      some (natOfDigits 10 vs, point - vs.length) := by
  -- an exponent has at least two digits, so that a zero may stand before it
  have hpadded : ∀ ds : List Char, ∃ k : Nat,
      (if ds.length < 2 then '0' :: ds else ds) = List.replicate k '0' ++ ds := by
    intro ds
    split
    · exact ⟨1, rfl⟩
    · exact ⟨0, rfl⟩
  obtain ⟨k, hk⟩ := hpadded (Nat.toDigits 10 (point - 1).natAbs)
  obtain ⟨htail, hdigit, hdot⟩ := exponentTail?_spec 'e' (.inl rfl) (point - 1) k
  unfold scientific
  simp only [hk]
  refine (readDecimal?_scientific hvs hne htail hdigit hdot).trans ?_
  congr 2
  ring

/-- A number without its sign. -/
def renderUnsigned : Binary64 → List Char
  | .nan => ['n', 'a', 'n']
  | .infinite _ => ['i', 'n', 'f']
  | .finite _ m e =>
    if m = 0 then ['0', '.', '0']
    else
      if -4 < (digitsOf m e).2 ∧ (digitsOf m e).2 ≤ 16 then
        positional (digitsOf m e).1 (digitsOf m e).2
      else scientific (digitsOf m e).1 ((digitsOf m e).2 - 1)

theorem render_eq (x : Binary64) :
    x.render = (if x.isNegative then ['-'] else []) ++ x.renderUnsigned := by
  cases x with
  | nan => rfl
  | infinite negative => rfl
  | finite negative m e =>
    unfold render renderUnsigned
    simp only [isNegative]
    split <;> rfl

/-- **The written form of a finite number** denotes a decimal that is rounded to the number. -/
theorem exists_decimal {m : Nat} {e : Int} (h : Canonical m e) (negative : Bool) :
    ∃ c p, readDecimal? (finite negative m e).renderUnsigned = some (c, p) ∧
      ofDecimal false c p = .finite false m e := by
  obtain rfl | hm := Nat.eq_zero_or_pos m
  · -- zero is written with a fixed text, and has the least exponent
    refine ⟨0, -1, rfl, ?_⟩
    have hleast : e = leastExponent := h.normal.resolve_left (by decide)
    rw [hleast]
    rfl
  · have hspec := shortest_spec h hm
    rcases hshortest : shortest m e with ⟨c, power⟩
    rw [hshortest] at hspec
    obtain ⟨us, hus, hlt, hvalue⟩ := exists_digits (b := 10) (by decide) c
    obtain ⟨vs, k, rfl, hdrop⟩ := exists_dropTrailingZeros us
    rw [natOfDigits_append_zeros] at hvalue
    have hvs : ∀ d ∈ vs, d < 10 := fun d hd => hlt d (List.mem_append_left _ hd)
    -- not all digits are dropped, since the number is positive
    have hne : vs ≠ [] := by
      rintro rfl
      rw [natOfDigits_nil, Nat.zero_mul] at hvalue
      rw [← hvalue] at hspec
      obtain ⟨-, hzero, -⟩ := Binary64.finite.inj hspec
      omega
    have hdigits : digitsOf m e = (chars vs, (vs.length + k : Nat) + power) := by
      unfold digitsOf
      rw [hshortest]
      simp only [hus, hdrop, length_chars, List.length_append, List.length_replicate]
    -- all layouts denote the digits that are left, with a matching exponent
    have hread : ∃ j : Nat, readDecimal? (finite negative m e).renderUnsigned =
        some (natOfDigits 10 vs * 10 ^ j, power + k - j) := by
      rw [renderUnsigned, if_neg hm.ne', hdigits]
      have hpoint : ∀ j : Nat, ((vs.length + k : Nat) + power - vs.length - j : Int) =
          power + k - j := by
        intro j
        push_cast
        ring
      split
      · obtain ⟨j, hj⟩ := readDecimal?_positional hvs hne ((vs.length + k : Nat) + power)
        exact ⟨j, by rw [hj, hpoint]⟩
      · refine ⟨0, ?_⟩
        rw [readDecimal?_scientific' hvs hne, pow_zero, Nat.mul_one, ← hpoint 0]
        congr 2
        simp
    obtain ⟨j, hj⟩ := hread
    refine ⟨_, _, hj, ?_⟩
    -- zeros that are moved between digits and exponent do not change the rounded number
    have hpower : power = power + k - k := by ring
    rw [ofDecimal_mul_pow, ← hspec, ← hvalue]
    conv_rhs => rw [hpower]
    exact (ofDecimal_mul_pow false (natOfDigits 10 vs) (power + k) k).symm

/-- The numbers in normal form; all but the finite ones have only one form. -/
def IsNormal : Binary64 → Prop
  | .finite _ m e => Canonical m e
  | _ => True

/-- The words for values that are no finite numbers are no numerals. -/
theorem readDecimal?_word {x : Binary64} (h : ∀ negative m e, x ≠ .finite negative m e) :
    readDecimal? x.renderUnsigned = none := by
  cases x with
  | finite negative m e => exact absurd rfl (h negative m e)
  | infinite negative => exact readDecimal?_eq_none rfl (by decide) _
  | nan => exact readDecimal?_eq_none rfl (by decide) _

theorem head_renderUnsigned {x : Binary64} (h : x.IsNormal) :
    x.renderUnsigned.head? ≠ some '-' := by
  cases x with
  | finite negative m e =>
    obtain ⟨c, p, hread, -⟩ := exists_decimal h negative
    exact head_ne_of_readDecimal? hread rfl (by decide)
  | infinite negative => exact fun h => by cases h
  | nan => exact fun h => by cases h

/-- **Floating point numbers are written differently**: what is written for a finite number is
read as the number. -/
theorem render_inj {x y : Binary64} (hx : x.IsNormal) (hy : y.IsNormal) (h : x.render = y.render) :
    x = y := by
  rw [render_eq, render_eq] at h
  obtain ⟨hsign, h⟩ := mark_append_inj (head_renderUnsigned hx) (head_renderUnsigned hy) h
  cases x with
  | finite negative m e =>
    -- both texts denote one decimal, which is rounded to both numbers
    obtain ⟨c, p, hread, hround⟩ := exists_decimal hx negative
    cases y with
    | finite negative' m' e' =>
      obtain ⟨c', p', hread', hround'⟩ := exists_decimal hy negative'
      rw [h, hread'] at hread
      cases hread
      rw [hround] at hround'
      cases hround'
      rw [show negative = negative' from hsign]
    | infinite negative' =>
      rw [h, readDecimal?_word fun _ _ _ => Binary64.noConfusion] at hread
      cases hread
    | nan =>
      rw [h, readDecimal?_word fun _ _ _ => Binary64.noConfusion] at hread
      cases hread
  | infinite negative =>
    cases y with
    | finite negative' m' e' =>
      obtain ⟨c, p, hread, -⟩ := exists_decimal hy negative'
      rw [← h, readDecimal?_word fun _ _ _ => Binary64.noConfusion] at hread
      cases hread
    | infinite negative' => rw [show negative = negative' from hsign]
    | nan => cases h
  | nan =>
    cases y with
    | finite negative' m' e' =>
      obtain ⟨c, p, hread, -⟩ := exists_decimal hy negative'
      rw [← h, readDecimal?_word fun _ _ _ => Binary64.noConfusion] at hread
      cases hread
    | infinite negative' => cases h
    | nan => rfl

/-- What is read from a text is in normal form. -/
theorem isNormal_ofDecimal (negative : Bool) (c : Nat) (p : Int) :
    (ofDecimal negative c p).IsNormal := by
  have hzero : (zero negative).IsNormal := ⟨by decide, by decide, by decide, .inr rfl⟩
  -- zero, infinite, zero again where it is too small, and else what is nearest
  by_cases hc : c = 0
  · rw [hc]
    exact hzero
  · rw [ofDecimal_eq hc]
    split
    · trivial
    · split
      · exact hzero
      · cases hnearest : nearest negative (decimalRatio c p).1 (decimalRatio c p).2 with
        | finite sign m e => exact canonical_of_nearest (decimalRatio_spec c p).1 hnearest
        | infinite sign => trivial
        | nan => trivial

theorem isNormal_of_read? {cs : List Char} {x : Binary64} (h : read? cs = some x) : x.IsNormal := by
  unfold read? at h
  simp only at h
  split at h
  · cases h
    trivial
  · split at h
    · cases h
      trivial
    · -- a numeral: the result is rounded, hence normal
      obtain ⟨plain, -, h⟩ := Option.bind_eq_some_iff.mp h
      obtain ⟨⟨c, p⟩, -, h⟩ := Option.bind_eq_some_iff.mp h
      cases h
      exact isNormal_ofDecimal _ c p

end Binary64

end RecordQuery
