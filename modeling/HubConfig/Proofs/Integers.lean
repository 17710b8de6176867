/-
**Integers as they are spelled.**

A number that is an integer of 64 bits has only one spelling: its digits, with no zero in front, and
a minus sign if it is negative.  So what is read as an integer is what would be written for it.

Main definitions:

* `Tree.IsInteger`: integers of 64 bits as they are written.

Main results:

* `toDigits_digitsValue`: digits without a zero in front are those of their number;
* `Number.eq_ofInt_of_integer?`: **a number that is an integer is spelled as it is written**;
* `Tree.exists_int64?_iff`: which values are read as an integer of 64 bits.
-/

import HubConfig.Json.Document

set_option autoImplicit false

namespace HubConfig

open HubConfig.Text

namespace Text

/-! ### Digits -/

theorem digitValue_lt {c : Char} (h : c.isDigit = true) : digitValue c < 10 := by
  have hnine : c.toNat ≤ 57 := (Char.isDigit_iff_toNat.1 h).2
  rw [digitValue]
  omega

theorem digitChar_digitValue {c : Char} (h : c.isDigit = true) :
    Nat.digitChar (digitValue c) = c := by
  have hzero : 48 ≤ c.toNat := (Char.isDigit_iff_toNat.1 h).1
  apply Char.toNat_inj.1
  rw [Nat.toNat_digitChar_of_lt_ten (digitValue_lt h), digitValue]
  omega

/-- Digits read on from a number are written behind it. -/
theorem toDigits_digitsFrom {n : Nat} (hn : 0 < n) {ds : List Char}
    (hds : ∀ d ∈ ds, d.isDigit = true) :
    Nat.toDigits 10 (digitsFrom n ds) = Nat.toDigits 10 n ++ ds := by
  induction ds generalizing n with
  | nil => rw [List.append_nil]; rfl
  | cons d ds ih =>
    have hd := hds d List.mem_cons_self
    have hlt := digitValue_lt hd
    have hdigit : Nat.toDigits 10 (10 * n + digitValue d) = Nat.toDigits 10 n ++ [d] := by
      rw [← Nat.toDigits_append_toDigits (by decide) hn hlt, Nat.toDigits_of_lt_base hlt,
        digitChar_digitValue hd]
    have hrest := ih (n := 10 * n + digitValue d) (by omega)
      fun c hc => hds c (List.mem_cons_of_mem d hc)
    rw [hdigit, List.append_assoc, List.singleton_append] at hrest
    exact hrest

/-- **Digits without a zero in front are those of their number.** -/
theorem toDigits_digitsValue {ds : List Char} (hds : ∀ d ∈ ds, d.isDigit = true) (hne : ds ≠ [])
    (hzero : ds.head? = some '0' → ds = ['0']) : Nat.toDigits 10 (digitsValue ds) = ds := by
  cases ds with
  | nil => exact absurd rfl hne
  | cons d ds =>
    have hd := hds d List.mem_cons_self
    by_cases h0 : digitValue d = 0
    · have hchar := digitChar_digitValue hd
      rw [h0] at hchar
      obtain rfl : '0' = d := hchar
      obtain ⟨-, rfl⟩ := List.cons.inj (hzero rfl)
      decide
    · have hrest := toDigits_digitsFrom (Nat.pos_of_ne_zero h0)
        fun c hc => hds c (List.mem_cons_of_mem d hc)
      rw [Nat.toDigits_of_lt_base (digitValue_lt hd), digitChar_digitValue hd] at hrest
      have hvalue : digitsValue (d :: ds) = digitsFrom (digitValue d) ds := by
        simp [digitsValue, digitsFrom]
      rw [hvalue, hrest, List.singleton_append]

end Text

namespace Json

/-! ### Numbers -/

theorem eq_nil_of_exponent {cs : List Char} (h : Exponent.ofLexeme? cs = some none) : cs = [] := by
  unfold Exponent.ofLexeme? at h
  repeat' split at h
  all_goals first | rfl | simp at h

/-- A number without a sign, a point or an exponent is its digits. -/
theorem toDigits_of_ofUnsigned? {negative : Bool} {cs : List Char} {p : Numeral}
    (h : Numeral.ofUnsigned? negative cs = some p) (hfraction : p.fraction = [])
    (hexponent : p.exponent = none) :
    p.negative = negative ∧ Nat.toDigits 10 (digitsValue p.whole) = cs := by
  rw [Numeral.ofUnsigned?] at h
  split at h
  · cases h
  · next hwhole =>
    rw [not_or, not_and, Classical.not_not] at hwhole
    have hcs := List.takeWhile_append_dropWhile (p := Char.isDigit) (l := cs)
    split at h
    · dsimp only at h
      split at h
      · cases h
      · next hne =>
        obtain ⟨exponent, -, rfl⟩ := Option.map_eq_some_iff.1 h
        exact absurd hfraction hne
    · next rest hrest =>
      obtain ⟨exponent, hread, rfl⟩ := Option.map_eq_some_iff.1 h
      obtain rfl : exponent = none := hexponent
      rw [eq_nil_of_exponent hread, List.append_nil] at hcs
      refine ⟨rfl, ?_⟩
      have hdigits := toDigits_digitsValue (List.all_eq_true.1 List.all_takeWhile) hwhole.1 hwhole.2
      exact hdigits.trans hcs

/-- **A number that is an integer is spelled as it is written.** -/
theorem Number.eq_ofInt_of_integer? {n : Number} {i : Int} (h : n.integer? = some i) :
    n = Number.ofInt i := by
  have hread : Numeral.ofLexeme? n.lexeme = some n.numeral := (Option.some_get _).symm
  suffices hlexeme : n.lexeme = decimal i by
    cases n
    simp only [Number.ofInt, Number.mk.injEq]
    exact hlexeme
  rw [Number.integer?, Numeral.integer?] at h
  split at h
  · next hplain =>
    unfold Numeral.ofLexeme? at hread
    split at hread
    · next cs hcs =>
      obtain ⟨hnegative, hdigits⟩ := toDigits_of_ofUnsigned? hread hplain.1 hplain.2
      rw [if_pos hnegative] at h
      split at h
      · next hbounds =>
        obtain ⟨m, hm⟩ := Nat.exists_eq_add_of_le' hbounds.1
        have hi : i = .negSucc m := by
          rw [← Option.some.inj h, hm]
          rfl
        rw [hcs, hi, decimal, ← hdigits, hm]
      · cases h
    · obtain ⟨hnegative, hdigits⟩ := toDigits_of_ofUnsigned? hread hplain.1 hplain.2
      rw [if_neg (by rw [hnegative]; exact Bool.false_ne_true)] at h
      split at h
      · obtain rfl := Option.some.inj h
        exact hdigits.symm
      · cases h
  · cases h

/-! ### Values -/

/-- An integer of 64 bits as it is written, the only way to spell it without a point or an
exponent. -/
def Tree.IsInteger (t : Tree .value) : Prop :=
  ∃ i : Int, -0x8000000000000000 ≤ i ∧ i < 0x8000000000000000 ∧ t = .number (Number.ofInt i)

/-- **Which values are read as an integer of 64 bits.** -/
theorem Tree.exists_int64?_iff {t : Tree .value} : (∃ j, t.int64? = some j) ↔ t.IsInteger := by
  constructor
  · rintro ⟨j, h⟩
    cases t with
    | number n =>
      obtain ⟨i, hi, h⟩ := Option.bind_eq_some_iff.1 h
      split at h
      · next hbounds => exact ⟨i, hbounds.1, hbounds.2, by rw [Number.eq_ofInt_of_integer? hi]⟩
      · cases h
    | _ => cases h
  · rintro ⟨i, hlow, hhigh, rfl⟩
    refine ⟨Int64.ofInt i, ?_⟩
    rw [int64?, Number.integer?_ofInt hlow (by omega), Option.bind_some, if_pos ⟨hlow, hhigh⟩]

end Json

end HubConfig
