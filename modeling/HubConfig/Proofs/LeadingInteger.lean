/-
**The integer that a text begins with.**

A text is cut into white space, one sign at most, digits, and whatever is behind them, each as long
as it can be.  The digits are read one by one, away from zero on the side of the sign, and reading
stops as soon as thirty-two bits do not hold what is read.  As digits only lead further away, it
stops exactly if thirty-two bits do not hold all of them.

Main definitions:

* `IsCut`: the parts of a text;
* `signedNumber`: the integer that a sign and digits stand for;
* `checkedDigits?`, `readInt32?`: digits read one by one, within bounds;
* `slicedPriority?`: the priority of a text by slices that might fail.

Main results:

* `exists_isCut`, `IsCut.unique`: every text has its parts, and no others;
* `checkedDigits?_eq`: **digits stay within bounds exactly if their number does**;
* `toInt_priorityOfText`: **the priority of a text by its parts**;
* `slicedPriority?_eq`: **no slice fails**.
-/

import HubConfig.Configuration.Decode
import HubConfig.Proofs.Slices
import Mathlib.Data.List.Induction
import Mathlib.Data.Nat.Digits.Defs

set_option autoImplicit false

namespace HubConfig

open HubConfig.Text

/-! ### The parts of a text -/

/-- A text cut into white space, a sign, digits, and what is behind them, each as long as can be. -/
structure IsCut (cs blank sign digits rest : List Char) : Prop where
  parts : cs = blank ++ (sign ++ (digits ++ rest))
  isBlank : IsBlank blank
  isSign : sign = [] ∨ sign = ['+'] ∨ sign = ['-']
  isDigits : ∀ c ∈ digits, c.isDigit = true
  noBlank : ∀ c ∈ (sign ++ (digits ++ rest)).head?, isWhiteSpace c = false
  noSign : sign = [] → ∀ c ∈ (digits ++ rest).head?, c ≠ '+' ∧ c ≠ '-'
  noDigit : ∀ c ∈ rest.head?, c.isDigit = false

/-- The integer that a sign and digits stand for. -/
def signedNumber (sign digits : List Char) : Int :=
  let n : Nat := Nat.ofDigits 10 (digits.map digitValue).reverse
  if sign = ['-'] then -(n : Int) else n

/-- What is left behind the longest run of a kind does not begin with one of it. -/
theorem head?_dropWhile_eq_false {p : Char → Bool} {cs : List Char} :
    ∀ c ∈ (cs.dropWhile p).head?, p c = false := by
  intro c hc
  have hnot := List.head?_dropWhile_not p cs
  rw [Option.mem_def.1 hc] at hnot
  exact Bool.eq_false_iff.2 (by simpa using hnot)

/-- Every text has its parts. -/
theorem exists_isCut (cs : List Char) :
    ∃ blank sign digits rest, IsCut cs blank sign digits rest := by
  obtain ⟨blank, hblank, hcs⟩ := exists_isBlank_append_trimStart cs
  have hstart : ∀ c ∈ (trimStart cs).head?, isWhiteSpace c = false := head?_dropWhile_eq_false
  generalize trimStart cs = text at hcs hstart
  -- What is behind the sign begins with its digits.
  have hdigits : ∀ behind : List Char, ∃ digits rest, behind = digits ++ rest ∧
      (∀ c ∈ digits, c.isDigit = true) ∧ ∀ c ∈ rest.head?, c.isDigit = false := fun behind =>
    ⟨_, _, List.takeWhile_append_dropWhile.symm, List.all_eq_true.1 List.all_takeWhile,
      head?_dropWhile_eq_false⟩
  by_cases hsign : text.head? = some '+' ∨ text.head? = some '-'
  · obtain ⟨c, behind, rfl, hc⟩ : ∃ c behind, text = c :: behind ∧ (c = '+' ∨ c = '-') := by
      cases text with
      | nil => rcases hsign with h | h <;> cases h
      | cons c behind => exact ⟨c, behind, rfl, hsign.imp Option.some.inj Option.some.inj⟩
    obtain ⟨digits, rest, rfl, hall, hrest⟩ := hdigits behind
    refine ⟨blank, [c], digits, rest, hcs, hblank, Or.inr ?_, hall, hstart, nofun, hrest⟩
    rcases hc with rfl | rfl
    · exact Or.inl rfl
    · exact Or.inr rfl
  · rw [not_or] at hsign
    obtain ⟨digits, rest, rfl, hall, hrest⟩ := hdigits text
    refine ⟨blank, [], digits, rest, hcs, hblank, Or.inl rfl, hall, hstart, ?_, hrest⟩
    intro _ c hc
    refine ⟨?_, ?_⟩
    · rintro rfl
      exact hsign.1 hc
    · rintro rfl
      exact hsign.2 hc

/-! ### Digits -/

/-- Digits read on from a number only lead further. -/
theorem le_digitsFrom (n : Nat) (ds : List Char) : n ≤ digitsFrom n ds := by
  induction ds generalizing n with
  | nil => exact Nat.le_refl n
  | cons d ds ih =>
    have hrest := ih (10 * n + digitValue d)
    exact Nat.le_trans (by omega) hrest

theorem digitsValue_eq_ofDigits (ds : List Char) :
    digitsValue ds = Nat.ofDigits 10 (ds.map digitValue).reverse := by
  induction ds using List.reverseRecOn with
  | nil => rfl
  | append_singleton ds d ih =>
    have hlast : digitsValue (ds ++ [d]) = 10 * digitsValue ds + digitValue d := by
      rw [digitsValue, digitsFrom, List.foldl_append]
      rfl
    rw [hlast, ih, List.map_append, List.reverse_append, List.map_singleton,
      List.reverse_singleton, List.singleton_append, Nat.ofDigits_cons, Nat.add_comm]

/-- A number on the side of a sign. -/
def onSide (negative : Bool) (n : Nat) : Int := if negative then -(n : Int) else n

/-- An integer, if thirty-two bits hold it. -/
def checked? (i : Int) : Option Int := if -0x80000000 ≤ i ∧ i < 0x80000000 then some i else none

/-- Digits read on from an integer, away from zero, as long as thirty-two bits hold it. -/
def checkedDigits? (negative : Bool) : Int → List Char → Option Int
  | i, [] => some i
  | i, c :: cs =>
      if c.isDigit then
        (checked? (i * 10)).bind fun i =>
          (checked? (if negative then i - digitValue c else i + digitValue c)).bind fun i =>
            checkedDigits? negative i cs
      else none

/-- The integer of thirty-two bits that is all of a text. -/
def readInt32? : List Char → Option Int
  | [] => none
  | ['+'] => none
  | ['-'] => none
  | '+' :: cs => checkedDigits? false 0 cs
  | '-' :: cs => checkedDigits? true 0 cs
  | cs => checkedDigits? false 0 cs

section

variable {negative : Bool} {n m : Nat}

theorem onSide_step (c : Char) :
    (if negative then onSide negative n * 10 - digitValue c
      else onSide negative n * 10 + digitValue c) = onSide negative (10 * n + digitValue c) := by
  cases negative
  · simp only [onSide, Bool.false_eq_true, if_false]
    omega
  · simp only [onSide, if_true]
    omega

/-- What thirty-two bits do not hold, they hold no further away either. -/
theorem checked?_onSide_of_le (h : n ≤ m) (hn : checked? (onSide negative n) = none) :
    checked? (onSide negative m) = none := by
  cases negative <;> simp only [checked?, onSide, Bool.false_eq_true, if_false, if_true] at hn ⊢
  all_goals
    split at hn
    · cases hn
    · exact if_neg (by omega)

theorem checked?_eq_some {i j : Int} (h : checked? i = some j) : j = i := by
  rw [checked?] at h
  split at h
  · exact (Option.some.inj h).symm
  · cases h

/-- **Digits stay within bounds exactly if their number does.** -/
theorem checkedDigits?_eq (negative : Bool) (n : Nat) {ds : List Char}
    (hds : ∀ c ∈ ds, c.isDigit = true)
    (hn : checked? (onSide negative n) = some (onSide negative n)) :
    checkedDigits? negative (onSide negative n) ds =
      checked? (onSide negative (digitsFrom n ds)) := by
  induction ds generalizing n with
  | nil => exact hn.symm
  | cons d ds ih =>
    have hd := hds d List.mem_cons_self
    have hrest : 10 * n + digitValue d ≤ digitsFrom n (d :: ds) := le_digitsFrom _ ds
    have hten : onSide negative n * 10 = onSide negative (10 * n) := by
      cases negative <;> simp only [onSide, Bool.false_eq_true, if_false, if_true] <;> omega
    rw [checkedDigits?, if_pos hd]
    cases h : checked? (onSide negative n * 10) with
    | none =>
      rw [hten] at h
      rw [checked?_onSide_of_le (by omega) h, Option.bind_none]
    | some i =>
      obtain rfl := checked?_eq_some h
      rw [Option.bind_some, onSide_step]
      cases h' : checked? (onSide negative (10 * n + digitValue d)) with
      | none => rw [checked?_onSide_of_le hrest h', Option.bind_none]
      | some i =>
        obtain rfl := checked?_eq_some h'
        rw [Option.bind_some]
        exact ih _ (fun c hc => hds c (List.mem_cons_of_mem d hc)) h'

end

/-! ### The priority of a text -/

/-- The priority that a text begins with, by slices at byte offsets that might fail. -/
def slicedPriority? (cs : List Char) : Option Int32 := do
  let text := trimStart cs
  let sign := if text.head? = some '-' ∨ text.head? = some '+' then 1 else 0
  let behind ← dropBytes? sign text
  let stop := ((findOffset? (fun c => !c.isDigit) behind).map (sign + ·)).getD (utf8Length text)
  let front ← takeBytes? stop text
  some (((readInt32? front).map Int32.ofInt).getD 0)

section

variable {cs blank sign digits rest : List Char}

namespace IsCut

theorem trimStart_eq (h : IsCut cs blank sign digits rest) :
    trimStart cs = sign ++ (digits ++ rest) := by
  rw [h.parts, trimStart_append_of_isBlank h.isBlank, trimStart_of_head? h.noBlank]

theorem splitSign_eq (h : IsCut cs blank sign digits rest) :
    splitSign (sign ++ (digits ++ rest)) = (sign == ['-'], digits ++ rest) := by
  rcases h.isSign with rfl | rfl | rfl
  · have hfirst := h.noSign rfl
    rw [List.nil_append]
    generalize digits ++ rest = text at hfirst
    rw [splitSign.eq_def]
    split
    · exact absurd rfl (hfirst '-' rfl).2
    · exact absurd rfl (hfirst '+' rfl).1
    · rfl
  · rfl
  · rfl

theorem takeWhile_eq (h : IsCut cs blank sign digits rest) :
    (digits ++ rest).takeWhile Char.isDigit = digits := by
  rw [List.takeWhile_append_of_pos h.isDigits]
  cases rest with
  | nil => rw [List.takeWhile_nil, List.append_nil]
  | cons c rest =>
    have hc := h.noDigit c rfl
    rw [List.takeWhile_cons_of_neg (by simp [hc]), List.append_nil]

/-- The parts of a text are its only ones. -/
theorem unique {blank' sign' digits' rest' : List Char} (h : IsCut cs blank sign digits rest)
    (h' : IsCut cs blank' sign' digits' rest') :
    blank = blank' ∧ sign = sign' ∧ digits = digits' ∧ rest = rest' := by
  have htext := h.trimStart_eq.symm.trans h'.trimStart_eq
  have hsplit := congrArg splitSign htext
  rw [h.splitSign_eq, h'.splitSign_eq, Prod.mk.injEq] at hsplit
  have hbehind := hsplit.2
  have hdigits := congrArg (List.takeWhile Char.isDigit) hbehind
  rw [h.takeWhile_eq, h'.takeWhile_eq] at hdigits
  have hblank := h.parts.symm.trans h'.parts
  rw [htext] at hblank
  rw [hbehind] at htext
  refine ⟨List.append_cancel_right hblank, List.append_cancel_right htext, hdigits, ?_⟩
  rw [hdigits] at hbehind
  exact List.append_cancel_left hbehind

end IsCut

theorem signedNumber_eq (sign digits : List Char) :
    signedNumber sign digits = onSide (sign == ['-']) (digitsValue digits) := by
  simp only [signedNumber, onSide, digitsValue_eq_ofDigits, beq_iff_eq]

theorem priorityOfText_eq {s : String} (h : IsCut s.toList blank sign digits rest) :
    priorityOfText s = boundedInt32 (signedNumber sign digits) := by
  rw [priorityOfText, h.trimStart_eq, h.splitSign_eq, signedNumber_eq, onSide]
  simp only [h.takeWhile_eq]

/-- **The priority of a text by its parts.** -/
theorem toInt_priorityOfText {s : String} (h : IsCut s.toList blank sign digits rest) :
    (priorityOfText s).toInt =
      if digits ≠ [] ∧ -2 ^ 31 ≤ signedNumber sign digits ∧ signedNumber sign digits < 2 ^ 31
      then signedNumber sign digits else 0 := by
  rw [priorityOfText_eq h]
  split
  · next hbounds => exact boundedInt32_of_mem hbounds.2.1 hbounds.2.2
  · next hbounds =>
    by_cases hdigits : digits = []
    · have hzero : signedNumber sign digits = 0 := by
        rw [hdigits, signedNumber]
        simp
      rw [hzero]
      decide
    · have hout : ¬(-0x80000000 ≤ signedNumber sign digits ∧
          signedNumber sign digits < 0x80000000) := fun hin => hbounds ⟨hdigits, hin⟩
      rw [boundedInt32, if_neg hout]
      decide

/-! ### Slices -/

theorem boundedInt32_eq (i : Int) : ((checked? i).map Int32.ofInt).getD 0 = boundedInt32 i := by
  rw [checked?, boundedInt32]
  split <;> rfl

theorem signedNumber_nil (sign : List Char) : signedNumber sign [] = 0 := by
  rw [signedNumber_eq]
  cases sign == ['-'] <;> rfl

/-- A text that is a sign and digits is read as the integer that these stand for. -/
theorem readInt32?_eq (hsign : sign = [] ∨ sign = ['+'] ∨ sign = ['-'])
    (hdigits : ∀ c ∈ digits, c.isDigit = true) :
    ((readInt32? (sign ++ digits)).map Int32.ofInt).getD 0 =
      boundedInt32 (signedNumber sign digits) := by
  cases digits with
  | nil =>
    rw [signedNumber_nil]
    rcases hsign with rfl | rfl | rfl <;> rfl
  | cons d ds =>
    have hread (negative : Bool) : checkedDigits? negative 0 (d :: ds) =
        checked? (onSide negative (digitsValue (d :: ds))) := by
      cases negative
      · exact checkedDigits?_eq false 0 hdigits rfl
      · exact checkedDigits?_eq true 0 hdigits rfl
    have hd := hdigits d List.mem_cons_self
    have hbehind : readInt32? (sign ++ d :: ds) = checkedDigits? (sign == ['-']) 0 (d :: ds) := by
      rcases hsign with rfl | rfl | rfl
      · -- A digit is no sign, so that all of the text is digits.
        rw [List.nil_append, readInt32?.eq_def]
        split
        · next heq => cases heq
        · next heq =>
          cases heq
          exact absurd hd (by decide)
        · next heq =>
          cases heq
          exact absurd hd (by decide)
        · next heq =>
          cases heq
          exact absurd hd (by decide)
        · next heq =>
          cases heq
          exact absurd hd (by decide)
        · rfl
      · rfl
      · rfl
    rw [hbehind, hread, boundedInt32_eq, signedNumber_eq]

/-- **No slice fails**, and what is read of them is the priority of the text. -/
theorem slicedPriority?_eq (s : String) : slicedPriority? s.toList = some (priorityOfText s) := by
  obtain ⟨blank, sign, digits, rest, h⟩ := exists_isCut s.toList
  have hsign : (if (sign ++ (digits ++ rest)).head? = some '-' ∨
      (sign ++ (digits ++ rest)).head? = some '+' then 1 else 0) = utf8Length sign := by
    rcases h.isSign with rfl | rfl | rfl
    · refine if_neg fun hhead => ?_
      rcases hhead with hhead | hhead
      · exact (h.noSign rfl '-' hhead).2 rfl
      · exact (h.noSign rfl '+' hhead).1 rfl
    · rfl
    · rfl
  have hstop : ((findOffset? (fun c => !c.isDigit) (digits ++ rest)).map
      (utf8Length sign + ·)).getD (utf8Length (sign ++ (digits ++ rest))) =
        utf8Length (sign ++ digits) := by
    rw [findOffset?_append (fun c hc => by rw [h.isDigits c hc]; rfl)
      (fun c hc => by rw [h.noDigit c hc]; rfl)]
    split
    · next hrest =>
      rw [hrest, List.append_nil]
      rfl
    · rw [Option.map_some, Option.getD_some, utf8Length_append]
  rw [slicedPriority?, h.trimStart_eq]
  dsimp only
  rw [hsign, dropBytes?_append, Option.bind_eq_bind, Option.bind_some, hstop, ← List.append_assoc,
    takeBytes?_append, Option.bind_some, readInt32?_eq h.isSign h.isDigits, priorityOfText_eq h]

end

end HubConfig
