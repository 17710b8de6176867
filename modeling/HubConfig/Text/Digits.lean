/-
**Digits.**

Main definitions:

* `digitsValue`: the number that decimal digits stand for;
* `decimal`: an integer in digits, with a minus sign if it is negative;
* `lowerHexDigit`, `upperHexDigit`: the hexadecimal digit for a number below sixteen;
* `hexDigitValue?`: the number a hexadecimal digit of either case stands for;
* `lowerHex`: a number in lower case hexadecimal digits without leading zeros.

Main results:

* `digitsValue_toDigits`: a number in digits reads back;
* `head?_toDigits_ne_zero`: only zero itself begins with a zero;
* `decimal_injective`: integers in digits differ;
* `hexDigitValue?_lowerHexDigit`, `hexDigitValue?_upperHexDigit`: hexadecimal digits read back.
-/

set_option autoImplicit false

namespace HubConfig.Text

/-! ### Decimal digits that are read -/

/-- The number that a digit stands for. -/
def digitValue (c : Char) : Nat := c.toNat - 0x30

/-- The number that digits stand for, read on from `n`. -/
def digitsFrom (n : Nat) (ds : List Char) : Nat := ds.foldl (fun n d => 10 * n + digitValue d) n

/-- The number that digits stand for. -/
def digitsValue (ds : List Char) : Nat := digitsFrom 0 ds

theorem digitValue_digitChar : ∀ n < 10, digitValue (Nat.digitChar n) = n := by decide

/-- A number in digits reads back. -/
theorem digitsValue_toDigits (n : Nat) : digitsValue (Nat.toDigits 10 n) = n := by
  induction n using Nat.strongRecOn with
  | ind n ih =>
    by_cases h : n < 10
    · rw [Nat.toDigits_of_lt_base h]
      simp [digitsValue, digitsFrom, digitValue_digitChar n h]
    · rw [Nat.toDigits_of_base_le (by decide) (Nat.le_of_not_lt h)]
      have := ih (n / 10) (by omega)
      rw [digitsValue, digitsFrom] at this
      rw [digitsValue, digitsFrom, List.foldl_append, this]
      simp only [List.foldl_cons, List.foldl_nil]
      rw [digitValue_digitChar _ (Nat.mod_lt _ (by decide))]
      omega

/-! ### Decimal digits that are written -/

/-- Only zero itself begins with a zero. -/
theorem head?_toDigits_ne_zero {n : Nat} (h : 0 < n) :
    (Nat.toDigits 10 n).head? ≠ some '0' := by
  induction n using Nat.strongRecOn with
  | ind n ih =>
    by_cases hn : n < 10
    · rw [Nat.toDigits_of_lt_base hn]
      have : ∀ m < 10, 0 < m → Nat.digitChar m ≠ '0' := by decide
      simpa using this n hn h
    · rw [Nat.toDigits_of_base_le (by decide) (Nat.le_of_not_lt hn)]
      have := ih (n / 10) (by omega) (by omega)
      cases hds : Nat.toDigits 10 (n / 10) with
      | nil => exact absurd hds Nat.toDigits_ne_nil
      | cons d ds => simpa [hds] using this

theorem isDigit_of_mem_toDigits {n : Nat} : ∀ c ∈ Nat.toDigits 10 n, c.isDigit = true :=
  fun _ hc => Nat.isDigit_of_mem_toDigits (by decide) (by decide) hc

theorem takeWhile_toDigits (n : Nat) :
    (Nat.toDigits 10 n).takeWhile Char.isDigit = Nat.toDigits 10 n := by
  have : ∀ ds : List Char, (∀ c ∈ ds, c.isDigit = true) → ds.takeWhile Char.isDigit = ds := by
    intro ds hds
    induction ds <;> simp_all
  exact this _ isDigit_of_mem_toDigits

theorem dropWhile_toDigits (n : Nat) : (Nat.toDigits 10 n).dropWhile Char.isDigit = [] := by
  have : ∀ ds : List Char, (∀ c ∈ ds, c.isDigit = true) → ds.dropWhile Char.isDigit = [] := by
    intro ds hds
    induction ds <;> simp_all
  exact this _ isDigit_of_mem_toDigits

/-- An integer in digits. -/
def decimal : Int → List Char
  | .ofNat n => Nat.toDigits 10 n
  | .negSucc n => '-' :: Nat.toDigits 10 (n + 1)

theorem isDigit_or_minus_of_mem_decimal {i : Int} {c : Char} (h : c ∈ decimal i) :
    c.isDigit = true ∨ c = '-' := by
  cases i with
  | ofNat n => exact .inl (isDigit_of_mem_toDigits c h)
  | negSucc n =>
    rcases List.mem_cons.1 h with rfl | h
    · exact .inr rfl
    · exact .inl (isDigit_of_mem_toDigits c h)

theorem ne_minus_of_toDigits (n : Nat) (ds : List Char) : Nat.toDigits 10 n ≠ '-' :: ds := by
  intro h
  have := isDigit_of_mem_toDigits (n := n) '-' (by simp [h])
  revert this
  decide

theorem toDigits_injective {n m : Nat} (h : Nat.toDigits 10 n = Nat.toDigits 10 m) : n = m := by
  rw [← digitsValue_toDigits n, h, digitsValue_toDigits]

/-- Integers in digits differ. -/
theorem decimal_injective {i j : Int} (h : decimal i = decimal j) : i = j := by
  cases i with
  | ofNat n =>
    cases j with
    | ofNat m => rw [toDigits_injective h]
    | negSucc m => exact absurd h (ne_minus_of_toDigits n _)
  | negSucc n =>
    cases j with
    | ofNat m => exact absurd h.symm (ne_minus_of_toDigits m _)
    | negSucc m =>
      have := toDigits_injective (List.cons.inj h).2
      rw [Nat.succ.inj this]

/-! ### Hexadecimal digits -/

/-- The lower case digit for `n`, which is below sixteen. -/
def lowerHexDigit (n : Nat) : Char := Nat.digitChar n

/-- The upper case digit for `n`, which is below sixteen. -/
def upperHexDigit (n : Nat) : Char :=
  if n < 10 then Char.ofNat (0x30 + n) else Char.ofNat (0x37 + n)

/-- The number that a hexadecimal digit stands for. -/
def hexDigitValue? (c : Char) : Option Nat :=
  let n := c.toNat
  if 0x30 ≤ n ∧ n ≤ 0x39 then some (n - 0x30)
  else if 0x41 ≤ n ∧ n ≤ 0x46 then some (n - 0x37)
  else if 0x61 ≤ n ∧ n ≤ 0x66 then some (n - 0x57)
  else none

/-- A number in lower case digits, without leading zeros. -/
def lowerHex (n : Nat) : List Char := Nat.toDigits 16 n

theorem hexDigitValue?_lowerHexDigit :
    ∀ n < 16, hexDigitValue? (lowerHexDigit n) = some n := by decide

theorem hexDigitValue?_upperHexDigit :
    ∀ n < 16, hexDigitValue? (upperHexDigit n) = some n := by decide

end HubConfig.Text
