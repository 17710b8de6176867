/-
**Base64.**

Three bytes are written as four characters of six bits each.  One or two bytes at the end are
filled up with zero bits and the text with `=`.  Reading accepts this form only: the fill must be
there, and the bits it fills up must be zero.  So bytes and the texts that stand for them
correspond: a text is read at all only if it is what its bytes are written as.

Main definitions:

* `Base64.encode`, `Base64.decode?`.

Main results:

* `Base64.sextet?_digit`, `Base64.sextet?_eq_some`: characters and six-bit numbers correspond;
* `Base64.decode?_encode`: written bytes read back;
* `Base64.eq_encode_of_decode?`: what is read is written the same again;
* `Base64.decode?_eq_some_iff`: **texts and bytes correspond**.
-/

import HubConfig.Text.Utf8

set_option autoImplicit false

namespace HubConfig.Base64

/-! ### Characters and six-bit numbers -/

/-- The character for a number below sixty-four. -/
def digit (n : Nat) : Char :=
  if n < 26 then Char.ofNat (0x41 + n)
  else if n < 52 then Char.ofNat (0x61 + (n - 26))
  else if n < 62 then Char.ofNat (0x30 + (n - 52))
  else if n = 62 then '+'
  else '/'

/-- The number that a character stands for. -/
def sextet? (c : Char) : Option Nat :=
  let n := c.toNat
  if 0x41 ≤ n ∧ n ≤ 0x5A then some (n - 0x41)
  else if 0x61 ≤ n ∧ n ≤ 0x7A then some (n - 0x61 + 26)
  else if 0x30 ≤ n ∧ n ≤ 0x39 then some (n - 0x30 + 52)
  else if c = '+' then some 62
  else if c = '/' then some 63
  else none

theorem sextet?_digit : ∀ n < 64, sextet? (digit n) = some n := by decide

/-- A character that stands for a number is the one it is written as. -/
theorem sextet?_eq_some {c : Char} {n : Nat} (h : sextet? c = some n) : n < 64 ∧ c = digit n := by
  have hc : Char.ofNat c.toNat = c := Char.ofNat_toNat c
  revert h
  fun_cases sextet? c with
  | case1 k hupper =>
    rintro ⟨⟩
    refine ⟨by omega, ?_⟩
    rw [digit, if_pos (by omega), show 0x41 + (k - 0x41) = k by omega, hc]
  | case2 k hupper hlower =>
    rintro ⟨⟩
    refine ⟨by omega, ?_⟩
    rw [digit, if_neg (by omega), if_pos (by omega), show 0x61 + (k - 0x61 + 26 - 26) = k by omega,
      hc]
  | case3 k hupper hlower hdigit =>
    rintro ⟨⟩
    refine ⟨by omega, ?_⟩
    rw [digit, if_neg (by omega), if_neg (by omega), if_pos (by omega),
      show 0x30 + (k - 0x30 + 52 - 52) = k by omega, hc]
  | case4 k _ _ _ hsign | case5 k _ _ _ _ hsign =>
    rintro ⟨⟩
    rw [hsign]
    decide
  | case6 => rintro ⟨⟩

theorem sextet?_lt {c : Char} {n : Nat} (h : sextet? c = some n) : n < 64 :=
  (sextet?_eq_some h).1

theorem eq_digit_of_sextet? {c : Char} {n : Nat} (h : sextet? c = some n) : c = digit n :=
  (sextet?_eq_some h).2

/-! ### Bytes -/

/-- The text for a list of bytes. -/
def encode : Bytes → List Char
  | [] => []
  | [a] => [digit (a.toNat / 4), digit (a.toNat % 4 * 16), '=', '=']
  | [a, b] =>
      [digit (a.toNat / 4), digit (a.toNat % 4 * 16 + b.toNat / 16), digit (b.toNat % 16 * 4), '=']
  | a :: b :: c :: rest =>
      digit (a.toNat / 4) :: digit (a.toNat % 4 * 16 + b.toNat / 16) ::
        digit (b.toNat % 16 * 4 + c.toNat / 64) :: digit (c.toNat % 64) :: encode rest

/-- The last byte, written as two characters. -/
def lastByte? (p q : Char) : Option Bytes := do
  let p ← sextet? p
  let q ← sextet? q
  if q % 16 = 0 then some [UInt8.ofNat (p * 4 + q / 16)] else none

/-- The last two bytes, written as three characters. -/
def lastTwoBytes? (p q r : Char) : Option Bytes := do
  let p ← sextet? p
  let q ← sextet? q
  let r ← sextet? r
  if r % 4 = 0 then
    some [UInt8.ofNat (p * 4 + q / 16), UInt8.ofNat (q % 16 * 16 + r / 4)]
  else none

/-- Three bytes, written as four characters. -/
def threeBytes? (p q r s : Char) : Option Bytes := do
  let p ← sextet? p
  let q ← sextet? q
  let r ← sextet? r
  let s ← sextet? s
  some [UInt8.ofNat (p * 4 + q / 16), UInt8.ofNat (q % 16 * 16 + r / 4),
    UInt8.ofNat (r % 4 * 64 + s)]

/-- The bytes that a text stands for. -/
def decode? : List Char → Option Bytes
  | [] => some []
  | p :: q :: r :: s :: rest =>
      if s = '=' then
        -- The fill is the end of the text.
        if rest ≠ [] then none
        else if r = '=' then lastByte? p q
        else lastTwoBytes? p q r
      else do
        let bytes ← threeBytes? p q r s
        let rest ← decode? rest
        some (bytes ++ rest)
  | _ => none

/-! ### Groups of characters -/

theorem digit_ne_fill {n : Nat} (h : n < 64) : digit n ≠ '=' := by
  intro he
  have hn := sextet?_digit n h
  have hfill : sextet? '=' = none := by decide
  rw [he, hfill] at hn
  cases hn

theorem byte_of_toNat {n : Nat} {b : UInt8} (h : n = b.toNat) : UInt8.ofNat n = b := by
  rw [h, UInt8.ofNat_toNat]

theorem toNat_byte {n : Nat} (h : n < 256) : (UInt8.ofNat n).toNat = n :=
  UInt8.toNat_ofNat_of_lt h

theorem lastByte?_digits (a : UInt8) :
    lastByte? (digit (a.toNat / 4)) (digit (a.toNat % 4 * 16)) = some [a] := by
  have ha : a.toNat < 256 := a.toNat_lt
  rw [lastByte?, sextet?_digit _ (by omega), sextet?_digit _ (by omega)]
  have hfill : a.toNat % 4 * 16 % 16 = 0 := by omega
  have hbyte : UInt8.ofNat (a.toNat / 4 * 4 + a.toNat % 4 * 16 / 16) = a :=
    byte_of_toNat (by omega)
  simp only [Option.bind_eq_bind, Option.bind_some, hfill, if_true, hbyte]

theorem lastTwoBytes?_digits (a b : UInt8) :
    lastTwoBytes? (digit (a.toNat / 4)) (digit (a.toNat % 4 * 16 + b.toNat / 16))
      (digit (b.toNat % 16 * 4)) = some [a, b] := by
  have ha : a.toNat < 256 := a.toNat_lt
  have hb : b.toNat < 256 := b.toNat_lt
  rw [lastTwoBytes?, sextet?_digit _ (by omega), sextet?_digit _ (by omega),
    sextet?_digit _ (by omega)]
  have hfill : b.toNat % 16 * 4 % 4 = 0 := by omega
  have hfirst : UInt8.ofNat (a.toNat / 4 * 4 + (a.toNat % 4 * 16 + b.toNat / 16) / 16) = a :=
    byte_of_toNat (by omega)
  have hsecond :
      UInt8.ofNat ((a.toNat % 4 * 16 + b.toNat / 16) % 16 * 16 + b.toNat % 16 * 4 / 4) = b :=
    byte_of_toNat (by omega)
  simp only [Option.bind_eq_bind, Option.bind_some, hfill, if_true, hfirst, hsecond]

theorem threeBytes?_digits (a b c : UInt8) :
    threeBytes? (digit (a.toNat / 4)) (digit (a.toNat % 4 * 16 + b.toNat / 16))
      (digit (b.toNat % 16 * 4 + c.toNat / 64)) (digit (c.toNat % 64)) = some [a, b, c] := by
  have ha : a.toNat < 256 := a.toNat_lt
  have hb : b.toNat < 256 := b.toNat_lt
  have hc : c.toNat < 256 := c.toNat_lt
  rw [threeBytes?, sextet?_digit _ (by omega), sextet?_digit _ (by omega),
    sextet?_digit _ (by omega), sextet?_digit _ (by omega)]
  have hfirst : UInt8.ofNat (a.toNat / 4 * 4 + (a.toNat % 4 * 16 + b.toNat / 16) / 16) = a :=
    byte_of_toNat (by omega)
  have hsecond : UInt8.ofNat ((a.toNat % 4 * 16 + b.toNat / 16) % 16 * 16 +
      (b.toNat % 16 * 4 + c.toNat / 64) / 4) = b := byte_of_toNat (by omega)
  have hthird :
      UInt8.ofNat ((b.toNat % 16 * 4 + c.toNat / 64) % 4 * 64 + c.toNat % 64) = c :=
    byte_of_toNat (by omega)
  simp only [Option.bind_eq_bind, Option.bind_some, hfirst, hsecond, hthird]

theorem lastByte?_eq_some {p q : Char} {bs : Bytes} (h : lastByte? p q = some bs) :
    [p, q, '=', '='] = encode bs := by
  simp only [lastByte?, Option.bind_eq_bind, Option.bind_eq_some_iff] at h
  obtain ⟨x, hx, y, hy, h⟩ := h
  have hxlt := sextet?_lt hx
  have hylt := sextet?_lt hy
  split at h
  · next hfill =>
    cases h
    have hbyte := toNat_byte (n := x * 4 + y / 16) (by omega)
    rw [encode, hbyte, eq_digit_of_sextet? hx, eq_digit_of_sextet? hy,
      show (x * 4 + y / 16) / 4 = x by omega, show (x * 4 + y / 16) % 4 * 16 = y by omega]
  · cases h

theorem lastTwoBytes?_eq_some {p q r : Char} {bs : Bytes} (h : lastTwoBytes? p q r = some bs) :
    [p, q, r, '='] = encode bs := by
  simp only [lastTwoBytes?, Option.bind_eq_bind, Option.bind_eq_some_iff] at h
  obtain ⟨x, hx, y, hy, z, hz, h⟩ := h
  have hxlt := sextet?_lt hx
  have hylt := sextet?_lt hy
  have hzlt := sextet?_lt hz
  split at h
  · next hfill =>
    cases h
    have hfirst := toNat_byte (n := x * 4 + y / 16) (by omega)
    have hsecond := toNat_byte (n := y % 16 * 16 + z / 4) (by omega)
    rw [encode, hfirst, hsecond, eq_digit_of_sextet? hx, eq_digit_of_sextet? hy,
      eq_digit_of_sextet? hz, show (x * 4 + y / 16) / 4 = x by omega,
      show (x * 4 + y / 16) % 4 * 16 + (y % 16 * 16 + z / 4) / 16 = y by omega,
      show (y % 16 * 16 + z / 4) % 16 * 4 = z by omega]
  · cases h

theorem threeBytes?_eq_some {p q r s : Char} {bs : Bytes} (h : threeBytes? p q r s = some bs) :
    ∀ rest, p :: q :: r :: s :: encode rest = encode (bs ++ rest) := by
  intro rest
  simp only [threeBytes?, Option.bind_eq_bind, Option.bind_eq_some_iff, Option.some.injEq] at h
  obtain ⟨x, hx, y, hy, z, hz, w, hw, rfl⟩ := h
  have hxlt := sextet?_lt hx
  have hylt := sextet?_lt hy
  have hzlt := sextet?_lt hz
  have hwlt := sextet?_lt hw
  have hfirst := toNat_byte (n := x * 4 + y / 16) (by omega)
  have hsecond := toNat_byte (n := y % 16 * 16 + z / 4) (by omega)
  have hthird := toNat_byte (n := z % 4 * 64 + w) (by omega)
  simp only [List.cons_append, List.nil_append]
  rw [encode, hfirst, hsecond, hthird, eq_digit_of_sextet? hx, eq_digit_of_sextet? hy,
    eq_digit_of_sextet? hz, eq_digit_of_sextet? hw, show (x * 4 + y / 16) / 4 = x by omega,
    show (x * 4 + y / 16) % 4 * 16 + (y % 16 * 16 + z / 4) / 16 = y by omega,
    show (y % 16 * 16 + z / 4) % 16 * 4 + (z % 4 * 64 + w) / 64 = z by omega,
    show (z % 4 * 64 + w) % 64 = w by omega]

/-! ### Whole texts -/

/-- Written bytes read back. -/
theorem decode?_encode (bs : Bytes) : decode? (encode bs) = some bs := by
  induction bs using encode.induct with
  | case1 => rfl
  | case2 a => simp [encode, decode?, lastByte?_digits]
  | case3 a b =>
    have hb : b.toNat < 256 := b.toNat_lt
    have hfill : digit (b.toNat % 16 * 4) ≠ '=' := digit_ne_fill (by omega)
    simp [encode, decode?, hfill, lastTwoBytes?_digits]
  | case4 a b c rest ih =>
    have hfill : digit (c.toNat % 64) ≠ '=' := digit_ne_fill (by omega)
    simp [encode, decode?, hfill, threeBytes?_digits, ih]

/-- What is read is written the same again. -/
theorem eq_encode_of_decode? {cs : List Char} {bs : Bytes} (h : decode? cs = some bs) :
    cs = encode bs := by
  induction cs using decode?.induct generalizing bs with
  | case1 =>
    cases h
    rfl
  | case2 p q r rest hrest => simp [decode?, hrest] at h
  | case3 p q rest hrest =>
    obtain rfl : rest = [] := Decidable.not_not.1 hrest
    exact lastByte?_eq_some (by simpa [decode?] using h)
  | case4 p q r rest hrest hr =>
    obtain rfl : rest = [] := Decidable.not_not.1 hrest
    exact lastTwoBytes?_eq_some (by simpa [decode?, hr] using h)
  | case5 p q r s rest hs ih =>
    simp only [decode?, hs, if_false, Option.bind_eq_bind, Option.bind_eq_some_iff,
      Option.some.injEq] at h
    obtain ⟨front, hfront, back, hback, rfl⟩ := h
    rw [ih hback]
    exact threeBytes?_eq_some hfront back
  | case6 cs h1 h2 =>
    rw [decode?.eq_def] at h
    split at h
    · exact absurd rfl h1
    · exact absurd rfl (h2 _ _ _ _ _)
    · cases h

/-- **Texts and bytes correspond.** -/
theorem decode?_eq_some_iff {cs : List Char} {bs : Bytes} :
    decode? cs = some bs ↔ cs = encode bs := by
  constructor
  · exact eq_encode_of_decode?
  · rintro rfl
    exact decode?_encode bs

end HubConfig.Base64
