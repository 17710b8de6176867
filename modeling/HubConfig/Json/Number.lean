/-
**Numbers of a JSON text.**

A number is kept as it is spelled.  One that is spelled as an integer and fits in 64 bits is one.

Main definitions:

* `Numeral`: the parts of a spelling;
* `Number`: a spelling that has them;
* `Number.read`: the longest run of number characters at the front of a text, if it is a number;
* `Number.integer?`: the integer, signed or unsigned of 64 bits;
* `Number.ofInt`: an integer as it is written.

Main results:

* `Number.read_print_append`, `Number.eq_print_of_read`: reading is the inverse of printing;
* `Number.integer?_ofInt`: a written integer reads back.
-/

import HubConfig.Text.Digits
import HubConfig.Text.Utf8

set_option autoImplicit false

namespace HubConfig.Json

open HubConfig.Text

/-! ### The grammar -/

/-- The power of ten at the end of a number. -/
structure Exponent where
  /-- Whether it has a minus sign. -/
  negative : Bool
  /-- Its digits. -/
  digits : List Char
  deriving DecidableEq, Repr

/-- The parts of a number. -/
structure Numeral where
  /-- Whether it has a minus sign. -/
  negative : Bool
  /-- The digits before the point. -/
  whole : List Char
  /-- The digits after the point, none if there is no point. -/
  fraction : List Char
  /-- The exponent, if there is one. -/
  exponent : Option Exponent
  deriving DecidableEq, Repr

/-- The exponent that is all of a text. -/
def Exponent.ofDigits? (negative : Bool) (ds : List Char) : Option Exponent :=
  if ds ≠ [] ∧ ds.all Char.isDigit = true then some ⟨negative, ds⟩ else none

/-- The exponent, or the lack of one, that is all of a text. -/
def Exponent.ofLexeme? : List Char → Option (Option Exponent)
  | [] => some none
  | e :: ds =>
      if e = 'e' ∨ e = 'E' then
        match ds with
        | '-' :: ds => (Exponent.ofDigits? true ds).map some
        | '+' :: ds => (Exponent.ofDigits? false ds).map some
        | ds => (Exponent.ofDigits? false ds).map some
      else none

/-- The number without a sign that is all of a text.  It begins with zero only if that is its whole
part. -/
def Numeral.ofUnsigned? (negative : Bool) (cs : List Char) : Option Numeral :=
  let whole := cs.takeWhile Char.isDigit
  if whole = [] ∨ (whole.head? = some '0' ∧ whole ≠ ['0']) then none
  else
    match cs.dropWhile Char.isDigit with
    | '.' :: rest =>
        let fraction := rest.takeWhile Char.isDigit
        if fraction = [] then none
        else (Exponent.ofLexeme? (rest.dropWhile Char.isDigit)).map
          fun exponent => ⟨negative, whole, fraction, exponent⟩
    | rest => (Exponent.ofLexeme? rest).map fun exponent => ⟨negative, whole, [], exponent⟩

/-- The number that is all of a text. -/
def Numeral.ofLexeme? : List Char → Option Numeral
  | '-' :: cs => Numeral.ofUnsigned? true cs
  | cs => Numeral.ofUnsigned? false cs

/-- A number as it is spelled. -/
structure Number where
  /-- The spelling. -/
  lexeme : List Char
  /-- It is a number. -/
  isNumber : (Numeral.ofLexeme? lexeme).isSome = true
  deriving DecidableEq

/-- The parts of a number. -/
def Number.numeral (n : Number) : Numeral := (Numeral.ofLexeme? n.lexeme).get n.isNumber

/-- The glyphs of a number. -/
def Number.print (n : Number) : List Glyph := n.lexeme.map some

/-! ### Reading -/

/-- Characters that a number may hold. -/
def isNumberChar (c : Char) : Bool :=
  c.isDigit || c == '-' || c == '+' || c == '.' || c == 'e' || c == 'E'

/-- The longest run of number characters at the front, and what follows it. -/
def spanNumber : List Glyph → List Char × List Glyph
  | [] => ([], [])
  | none :: gs => ([], none :: gs)
  | some c :: gs =>
      if isNumberChar c then (c :: (spanNumber gs).1, (spanNumber gs).2) else ([], some c :: gs)

/-- The number at the front of a text, and what follows it.  No number is followed by a character
that a number may hold. -/
def Number.read (gs : List Glyph) : Option (Number × List Glyph) :=
  let run := spanNumber gs
  if h : (Numeral.ofLexeme? run.1).isSome = true then some (⟨run.1, h⟩, run.2) else none

theorem spanNumber_append (gs : List Glyph) :
    (spanNumber gs).1.map some ++ (spanNumber gs).2 = gs := by
  fun_induction spanNumber gs with
  | case1 => rfl
  | case2 => rfl
  | case3 c gs hc ih => simp [ih]
  | case4 => rfl

/-- Whether a text does not begin with a character that a number may hold. -/
def EndsNumber : List Glyph → Prop
  | some c :: _ => isNumberChar c = false
  | _ => True

theorem spanNumber_map_append {cs : List Char} (hcs : ∀ c ∈ cs, isNumberChar c = true)
    {gs : List Glyph} (hgs : EndsNumber gs) : spanNumber (cs.map some ++ gs) = (cs, gs) := by
  induction cs with
  | nil =>
    match gs, hgs with
    | [], _ => rfl
    | none :: _, _ => rfl
    | some c :: gs, h => simp [spanNumber, show isNumberChar c = false from h]
  | cons c cs ih =>
    have := ih fun d hd => hcs d (by simp [hd])
    simp [spanNumber, hcs c (by simp), this]

theorem Number.eq_print_of_read {gs rest : List Glyph} {n : Number}
    (h : Number.read gs = some (n, rest)) : gs = n.print ++ rest := by
  rw [Number.read] at h
  split at h
  · cases h
    exact (spanNumber_append gs).symm
  · cases h

theorem mem_takeWhile_isNumberChar {cs : List Char} :
    ∀ c ∈ cs.takeWhile Char.isDigit, isNumberChar c = true := by
  intro c hc
  have : c.isDigit = true := by
    have := List.all_takeWhile (p := Char.isDigit) (l := cs)
    exact List.all_eq_true.1 this c hc
  simp [isNumberChar, this]

theorem Exponent.isNumberChar_of_ofDigits? {negative : Bool} {ds : List Char}
    (h : (Exponent.ofDigits? negative ds).isSome = true) :
    ∀ c ∈ ds, isNumberChar c = true := by
  intro c hc
  rw [Exponent.ofDigits?] at h
  split at h
  · next hds => simp [isNumberChar, List.all_eq_true.1 hds.2 c hc]
  · cases h

theorem Exponent.isNumberChar_of_ofLexeme? {cs : List Char}
    (h : (Exponent.ofLexeme? cs).isSome = true) : ∀ c ∈ cs, isNumberChar c = true := by
  unfold Exponent.ofLexeme? at h
  split at h
  · simp
  · next e ds =>
    split at h
    · next he =>
      have head : isNumberChar e = true := by rcases he with rfl | rfl <;> decide
      split at h
      · have := isNumberChar_of_ofDigits? (Option.isSome_map .. ▸ h)
        simpa [head, show isNumberChar '-' = true by decide] using this
      · have := isNumberChar_of_ofDigits? (Option.isSome_map .. ▸ h)
        simpa [head, show isNumberChar '+' = true by decide] using this
      · have := isNumberChar_of_ofDigits? (Option.isSome_map .. ▸ h)
        simpa [head] using this
    · cases h

theorem Numeral.isNumberChar_of_ofUnsigned? {negative : Bool} {cs : List Char}
    (h : (Numeral.ofUnsigned? negative cs).isSome = true) :
    ∀ c ∈ cs, isNumberChar c = true := by
  have split_digits : ∀ ds : List Char, (∀ c ∈ ds.dropWhile Char.isDigit, isNumberChar c = true) →
      ∀ c ∈ ds, isNumberChar c = true := by
    intro ds hds c hc
    rw [← List.takeWhile_append_dropWhile (p := Char.isDigit) (l := ds)] at hc
    rcases List.mem_append.1 hc with hc | hc
    · exact mem_takeWhile_isNumberChar c hc
    · exact hds c hc
  refine split_digits cs ?_
  rw [Numeral.ofUnsigned?] at h
  split at h
  · cases h
  · split at h
    · next rest hrest =>
      dsimp only at h
      split at h
      · cases h
      · rw [hrest]
        have := split_digits rest
          (Exponent.isNumberChar_of_ofLexeme? (Option.isSome_map .. ▸ h))
        simpa [show isNumberChar '.' = true by decide] using this
    · exact Exponent.isNumberChar_of_ofLexeme? (Option.isSome_map .. ▸ h)

theorem Number.isNumberChar_of_mem {n : Number} {c : Char} (hc : c ∈ n.lexeme) :
    isNumberChar c = true := by
  have h := n.isNumber
  unfold Numeral.ofLexeme? at h
  split at h
  · next cs hcs =>
    rw [hcs, List.mem_cons] at hc
    rcases hc with rfl | hc
    · decide
    · exact Numeral.isNumberChar_of_ofUnsigned? h c hc
  · exact Numeral.isNumberChar_of_ofUnsigned? h c hc

/-- A printed number reads back, up to the first glyph that no number holds. -/
theorem Number.read_print_append (n : Number) {gs : List Glyph} (h : EndsNumber gs) :
    Number.read (n.print ++ gs) = some (n, gs) := by
  have := spanNumber_map_append (fun c hc => n.isNumberChar_of_mem hc) h
  simp [Number.read, Number.print, this, n.isNumber]

/-! ### Integers -/

/-- The integer that a number is, if it is spelled without a point or an exponent and is either
below `2 ^ 64`, or negative and at least `-2 ^ 63`.  Minus zero is no integer. -/
def Numeral.integer? (n : Numeral) : Option Int :=
  let m := digitsValue n.whole
  if n.fraction = [] ∧ n.exponent = none then
    if n.negative then
      if 1 ≤ m ∧ m ≤ 0x8000000000000000 then some (-(m : Int)) else none
    else if m < 0x10000000000000000 then some (m : Int) else none
  else none

/-- The integer that a number is. -/
def Number.integer? (n : Number) : Option Int := n.numeral.integer?

/-! ### Writing an integer -/

theorem Numeral.ofUnsigned?_toDigits (negative : Bool) (n : Nat) :
    Numeral.ofUnsigned? negative (Nat.toDigits 10 n) =
      some ⟨negative, Nat.toDigits 10 n, [], none⟩ := by
  have leading : ¬ ((Nat.toDigits 10 n).head? = some '0' ∧ Nat.toDigits 10 n ≠ ['0']) := by
    rintro ⟨h0, h1⟩
    by_cases h : 0 < n
    · exact head?_toDigits_ne_zero h h0
    · obtain rfl : n = 0 := by omega
      exact h1 (Nat.toDigits_of_lt_base (by decide))
  simp [Numeral.ofUnsigned?, takeWhile_toDigits, dropWhile_toDigits, Nat.toDigits_ne_nil, leading,
    Exponent.ofLexeme?]

theorem Numeral.ofLexeme?_toDigits (n : Nat) :
    Numeral.ofLexeme? (Nat.toDigits 10 n) = some ⟨false, Nat.toDigits 10 n, [], none⟩ := by
  unfold Numeral.ofLexeme?
  split
  · next cs h =>
    exact absurd h (ne_minus_of_toDigits n cs)
  · exact Numeral.ofUnsigned?_toDigits false n

theorem Numeral.ofLexeme?_decimal (i : Int) : (Numeral.ofLexeme? (decimal i)).isSome = true := by
  cases i with
  | ofNat n => rw [decimal, Numeral.ofLexeme?_toDigits]; rfl
  | negSucc n => rw [decimal, Numeral.ofLexeme?, Numeral.ofUnsigned?_toDigits]; rfl

/-- An integer as it is written. -/
def Number.ofInt (i : Int) : Number := ⟨decimal i, Numeral.ofLexeme?_decimal i⟩

/-- A written integer reads back, if it has at most 64 bits. -/
theorem Number.integer?_ofInt {i : Int} (h : -0x8000000000000000 ≤ i)
    (h' : i < 0x10000000000000000) :
    (Number.ofInt i).integer? = some i := by
  cases i with
  | ofNat n =>
    have hn : (Number.ofInt (.ofNat n)).numeral = ⟨false, Nat.toDigits 10 n, [], none⟩ := by
      simp [Number.ofInt, decimal, Number.numeral, Numeral.ofLexeme?_toDigits]
    have hlt : n < 0x10000000000000000 := by
      have : (n : Int) < 0x10000000000000000 := h'
      omega
    rw [Number.integer?, hn]
    simp only [Numeral.integer?, digitsValue_toDigits, and_self, if_true, Bool.false_eq_true,
      if_false]
    exact if_pos hlt
  | negSucc n =>
    have hn : (Number.ofInt (.negSucc n)).numeral =
        ⟨true, Nat.toDigits 10 (n + 1), [], none⟩ := by
      simp [Number.ofInt, decimal, Number.numeral, Numeral.ofLexeme?,
        Numeral.ofUnsigned?_toDigits]
    have : n + 1 ≤ 0x8000000000000000 := by omega
    simp [Number.integer?, hn, Numeral.integer?, digitsValue_toDigits]
    omega

end HubConfig.Json
