/-
**The keys that sign.**

A key is handed out as a text, and the bytes that the text stands for do the signing.  Which bytes
these are is a rule apart from reading and writing: letters and bytes are the digits of the same
number, in base 64 and in base 256, but for two zero bits behind the bytes for each fill.  Digits of
a given count are determined by their number.  Bytes therefore have one spelling, and no other text
is a key that signs with them.

Main definitions:

* `Base64.alphabet`, `Base64.letter`: the letters in the order of their numbers;
* `Base64.number`: the number that digits stand for;
* `Base64.spelled`, `Base64.IsSpelling`: letters and fills as a text, and **the rule** for them.

Main results:

* `Base64.IsSpelling.append`, `Base64.exists_isSpelling_encode`: what is written follows the rule;
* `Base64.IsSpelling.unique`: **bytes have one spelling**;
* `Base64.decode?_eq_some_iff_isSpelling`: what is read follows the rule;
* `SharedAccessSignature.make_eq_ok_iff_encode`: which keys sign, and with which bytes;
* `SharedAccessSignature.canonical_keys`: **keys and the bytes they sign with correspond**.
-/

import HubConfig.Hash.Base64
import HubConfig.SharedAccessSignature
import Mathlib.Data.Nat.Digits.Defs

set_option autoImplicit false

namespace HubConfig

namespace Base64

/-! ### Digits and their number -/

/-- The number that digits stand for, the first one counting most. -/
def number (base : Nat) (digits : List Nat) : Nat := Nat.ofDigits base digits.reverse

@[simp] theorem number_nil (base : Nat) : number base [] = 0 := rfl

theorem number_append (base : Nat) (front back : List Nat) :
    number base (front ++ back) =
      number base front * base ^ back.length + number base back := by
  rw [number, List.reverse_append, Nat.ofDigits_append, List.length_reverse, Nat.add_comm,
    Nat.mul_comm]
  rfl

theorem number_cons (base digit : Nat) (digits : List Nat) :
    number base (digit :: digits) = digit * base ^ digits.length + number base digits :=
  number_append base [digit] digits

theorem eq_of_number_eq {base : Nat} {xs ys : List Nat} (hbase : 1 < base)
    (hlength : xs.length = ys.length) (hxs : ∀ x ∈ xs, x < base) (hys : ∀ y ∈ ys, y < base)
    (h : number base xs = number base ys) : xs = ys := by
  refine List.reverse_inj.1 (Nat.ofDigits_inj_of_len_eq hbase ?_ ?_ ?_ h)
  · rw [List.length_reverse, List.length_reverse, hlength]
  · intro x hx
    exact hxs x (List.mem_reverse.1 hx)
  · intro y hy
    exact hys y (List.mem_reverse.1 hy)

/-! ### The rule -/

/-- The letters in the order of their numbers. -/
def alphabet : List Char :=
  "ABCDEFGHIJKLMNOPQRSTUVWXYZabcdefghijklmnopqrstuvwxyz0123456789+/".toList

theorem length_alphabet : alphabet.length = 64 := by decide

/-- The letter for six bits. -/
def letter (n : Fin 64) : Char := alphabet.get (n.cast length_alphabet.symm)

theorem letter_eq_digit : ∀ n : Fin 64, letter n = digit n := by decide

/-- Letters with fills behind them, as a text. -/
def spelled (letters : List (Fin 64)) (fills : Nat) : List Char :=
  letters.map letter ++ List.replicate fills '='

theorem spelled_append (front back : List (Fin 64)) (fills : Nat) :
    spelled (front ++ back) fills = spelled front 0 ++ spelled back fills := by
  simp [spelled]

/-- **The rule** for the letters and fills that spell bytes. -/
structure IsSpelling (bs : Bytes) (letters : List (Fin 64)) (fills : Nat) : Prop where
  fills_le : fills ≤ 2
  /-- Three bytes have four letters, and each fill stands for one of either. -/
  grouped : ∃ groups, letters.length + fills = 4 * groups ∧ bs.length + fills = 3 * groups
  /-- The bits are those of the bytes and two zeros for each fill. -/
  number_eq : number 64 (letters.map Fin.val) = number 256 (bs.map UInt8.toNat) * 4 ^ fills

variable {bs : Bytes} {letters : List (Fin 64)} {fills : Nat}

/-- There are as many bits on either side. -/
theorem IsSpelling.pow_length (h : IsSpelling bs letters fills) :
    64 ^ letters.length = 256 ^ bs.length * 4 ^ fills := by
  obtain ⟨groups, hletters, hbytes⟩ := h.grouped
  calc 64 ^ letters.length = 2 ^ (6 * letters.length) := by rw [Nat.pow_mul]
    _ = 2 ^ (8 * bs.length + 2 * fills) := congrArg _ (by omega)
    _ = 256 ^ bs.length * 4 ^ fills := by rw [Nat.pow_add, Nat.pow_mul, Nat.pow_mul]

/-- Whole groups in front are spelled on their own. -/
theorem IsSpelling.append {front : Bytes} {frontLetters : List (Fin 64)}
    (hfront : IsSpelling front frontLetters 0) (hback : IsSpelling bs letters fills) :
    IsSpelling (front ++ bs) (frontLetters ++ letters) fills where
  fills_le := hback.fills_le
  grouped := by
    obtain ⟨m, hm, hm'⟩ := hfront.grouped
    obtain ⟨n, hn, hn'⟩ := hback.grouped
    refine ⟨m + n, ?_, ?_⟩
    · rw [List.length_append]
      omega
    · rw [List.length_append]
      omega
  number_eq := by
    rw [List.map_append, List.map_append, number_append, number_append, hfront.number_eq,
      hback.number_eq, List.length_map, List.length_map, hback.pow_length, Nat.pow_zero,
      Nat.mul_one, Nat.add_mul, Nat.mul_assoc]

/-- **Bytes have one spelling.** -/
theorem IsSpelling.unique {letters' : List (Fin 64)} {fills' : Nat}
    (h : IsSpelling bs letters fills) (h' : IsSpelling bs letters' fills') :
    letters = letters' ∧ fills = fills' := by
  obtain ⟨m, hm, hbytes⟩ := h.grouped
  obtain ⟨n, hn, hbytes'⟩ := h'.grouped
  have hfills := h.fills_le
  have hfills' := h'.fills_le
  -- Fewer than three fills complete the bytes, so their count decides the groups and the fills.
  obtain rfl : fills = fills' := by omega
  have hlength : letters.length = letters'.length := by omega
  have hnumber : number 64 (letters.map Fin.val) = number 64 (letters'.map Fin.val) := by
    rw [h.number_eq, h'.number_eq]
  have hlt : ∀ ns : List (Fin 64), ∀ x ∈ ns.map Fin.val, x < 64 := by
    intro ns x hx
    obtain ⟨n, -, rfl⟩ := List.mem_map.1 hx
    exact n.isLt
  have hvalues := eq_of_number_eq (by decide) (by simpa using hlength) (hlt _) (hlt _) hnumber
  exact ⟨(List.map_inj_right fun _ _ => Fin.eq_of_val_eq).1 hvalues, rfl⟩

/-! ### Reading and writing follow the rule -/

/-- Numbers below sixty-four are letters. -/
theorem exists_isSpelling (bs : Bytes) (fills : Nat) {sextets : List Nat}
    (hlt : ∀ n ∈ sextets, n < 64) (hfills : fills ≤ 2)
    (hgrouped : ∃ groups, sextets.length + fills = 4 * groups ∧ bs.length + fills = 3 * groups)
    (hnumber : number 64 sextets = number 256 (bs.map UInt8.toNat) * 4 ^ fills) :
    ∃ letters, sextets.map digit ++ List.replicate fills '=' = spelled letters fills ∧
      IsSpelling bs letters fills := by
  have hvalues : (sextets.pmap Fin.mk hlt).map Fin.val = sextets := by
    simp [List.map_pmap]
  have hletters : (sextets.pmap Fin.mk hlt).map letter = sextets.map digit := by
    have hdigit : letter = digit ∘ Fin.val := funext letter_eq_digit
    rw [hdigit, ← List.map_map, hvalues]
  refine ⟨sextets.pmap Fin.mk hlt, ?_, hfills, ?_, ?_⟩
  · rw [spelled, hletters]
  · rwa [List.length_pmap]
  · rw [hvalues, hnumber]

theorem exists_isSpelling_byte (a : UInt8) :
    ∃ letters, encode [a] = spelled letters 2 ∧ IsSpelling [a] letters 2 := by
  have ha : a.toNat < 256 := a.toNat_lt
  have hlt : ∀ n ∈ [a.toNat / 4, a.toNat % 4 * 16], n < 64 := by
    simp only [List.mem_cons, List.not_mem_nil, or_false, forall_eq_or_imp, forall_eq]
    omega
  refine exists_isSpelling [a] 2 hlt (by decide) ⟨1, rfl, rfl⟩ ?_
  simp only [List.map_cons, List.map_nil, number_cons, number_nil, List.length_cons,
    List.length_nil]
  omega

theorem exists_isSpelling_twoBytes (a b : UInt8) :
    ∃ letters, encode [a, b] = spelled letters 1 ∧ IsSpelling [a, b] letters 1 := by
  have ha : a.toNat < 256 := a.toNat_lt
  have hb : b.toNat < 256 := b.toNat_lt
  have hlt : ∀ n ∈ [a.toNat / 4, a.toNat % 4 * 16 + b.toNat / 16, b.toNat % 16 * 4], n < 64 := by
    simp only [List.mem_cons, List.not_mem_nil, or_false, forall_eq_or_imp, forall_eq]
    omega
  refine exists_isSpelling [a, b] 1 hlt (by decide) ⟨1, rfl, rfl⟩ ?_
  simp only [List.map_cons, List.map_nil, number_cons, number_nil, List.length_cons,
    List.length_nil]
  omega

theorem exists_isSpelling_threeBytes (a b c : UInt8) :
    ∃ letters, encode [a, b, c] = spelled letters 0 ∧ IsSpelling [a, b, c] letters 0 := by
  have ha : a.toNat < 256 := a.toNat_lt
  have hb : b.toNat < 256 := b.toNat_lt
  have hc : c.toNat < 256 := c.toNat_lt
  have hlt : ∀ n ∈ [a.toNat / 4, a.toNat % 4 * 16 + b.toNat / 16, b.toNat % 16 * 4 + c.toNat / 64,
      c.toNat % 64], n < 64 := by
    simp only [List.mem_cons, List.not_mem_nil, or_false, forall_eq_or_imp, forall_eq]
    omega
  refine exists_isSpelling [a, b, c] 0 hlt (by decide) ⟨1, rfl, rfl⟩ ?_
  simp only [List.map_cons, List.map_nil, number_cons, number_nil, List.length_cons,
    List.length_nil]
  omega

/-- What is written follows the rule. -/
theorem exists_isSpelling_encode (bs : Bytes) :
    ∃ letters fills, encode bs = spelled letters fills ∧ IsSpelling bs letters fills := by
  induction bs using encode.induct with
  | case1 => exact ⟨[], 0, rfl, by decide, ⟨0, rfl, rfl⟩, rfl⟩
  | case2 a =>
    obtain ⟨letters, htext, h⟩ := exists_isSpelling_byte a
    exact ⟨letters, 2, htext, h⟩
  | case3 a b =>
    obtain ⟨letters, htext, h⟩ := exists_isSpelling_twoBytes a b
    exact ⟨letters, 1, htext, h⟩
  | case4 a b c rest ih =>
    obtain ⟨front, hfront, hgroup⟩ := exists_isSpelling_threeBytes a b c
    obtain ⟨back, fills, hback, hrest⟩ := ih
    refine ⟨front ++ back, fills, ?_, hgroup.append hrest⟩
    rw [spelled_append, ← hfront, ← hback]
    rfl

/-- **What is read follows the rule.** -/
theorem decode?_eq_some_iff_isSpelling {cs : List Char} :
    decode? cs = some bs ↔
      ∃ letters fills, cs = spelled letters fills ∧ IsSpelling bs letters fills := by
  rw [decode?_eq_some_iff]
  constructor
  · rintro rfl
    exact exists_isSpelling_encode bs
  · rintro ⟨letters, fills, rfl, h⟩
    obtain ⟨letters', fills', htext, h'⟩ := exists_isSpelling_encode bs
    obtain ⟨rfl, rfl⟩ := h.unique h'
    exact htext.symm

/-- Fills that are missing, too many or too early, bits where they stand, blanks, other letters. -/
example : ["aw", "aw=", "aw===", "a=w=", "aw==aw==", "ax==", "YWJ=", "a w=", "aw==\n", "-_8="].all
    (fun text => decode? text.toList == none) = true := by decide

end Base64

/-! ### Keys -/

/-- A key stands for bytes if it is what they are written as. -/
theorem decodeKey_eq_ok_iff_encode {key : String} {bs : Bytes} :
    decodeKey key = .ok bs ↔ key = String.ofList (Base64.encode bs) := by
  rw [decodeKey_eq_ok_iff, Base64.decode?_eq_some_iff]
  constructor
  · intro h
    rw [← h, String.ofList_toList]
  · rintro rfl
    exact String.toList_ofList

namespace SharedAccessSignature

variable {key resource keyName : String} {expiry : Instant}

/-- Which keys sign, and with which bytes. -/
theorem make_eq_ok_iff_encode {s : SharedAccessSignature} :
    make key resource keyName expiry = .ok s ↔
      (key ≠ "" ∧ resource ≠ "" ∧ keyName ≠ "") ∧ key = String.ofList (Base64.encode s.key) ∧
        s.resource = resource ∧ s.keyName = keyName ∧ s.expiry = expiry := by
  rw [make_eq_ok_iff, ← decodeKey_eq_ok_iff, decodeKey_eq_ok_iff_encode]

/-- A key signs if it is what some bytes are written as. -/
theorem exists_make_iff (hkey : key ≠ "") (hresource : resource ≠ "") (hkeyName : keyName ≠ "") :
    (∃ s, make key resource keyName expiry = .ok s) ↔
      ∃ bs, key = String.ofList (Base64.encode bs) := by
  constructor
  · rintro ⟨s, hs⟩
    obtain ⟨-, hencode, -⟩ := make_eq_ok_iff_encode.1 hs
    exact ⟨s.key, hencode⟩
  · rintro ⟨bs, hencode⟩
    exact ⟨⟨bs, resource, keyName, expiry⟩,
      make_eq_ok_iff_encode.2 ⟨⟨hkey, hresource, hkeyName⟩, hencode, rfl, rfl, rfl⟩⟩

theorem decodeKey_of_make {s : SharedAccessSignature}
    (h : make key resource keyName expiry = .ok s) : decodeKey key = .ok s.key :=
  decodeKey_eq_ok_iff_encode.2 (make_eq_ok_iff_encode.1 h).2.1

/-- **Keys and the bytes they sign with correspond.**  A key stands for bytes if it is what they are
written as, which is the one text that the rule allows; it makes a signature for a resource and a
name if it stands for any bytes at all, and these are then the bytes that sign; and no other key
signs with them. -/
theorem canonical_keys :
    (∀ (key : String) (bs : Bytes),
      decodeKey key = .ok bs ↔ key = String.ofList (Base64.encode bs)) ∧
    (∀ (key : String) (bs : Bytes),
      decodeKey key = .ok bs ↔ ∃ letters fills,
        key.toList = Base64.spelled letters fills ∧ Base64.IsSpelling bs letters fills) ∧
    (∀ (key resource keyName : String) (expiry : Instant),
      key ≠ "" → resource ≠ "" → keyName ≠ "" →
        ((∃ s, make key resource keyName expiry = .ok s) ↔
          ∃ bs, key = String.ofList (Base64.encode bs))) ∧
    (∀ (key resource keyName : String) (expiry : Instant) (s : SharedAccessSignature),
      make key resource keyName expiry = .ok s → decodeKey key = .ok s.key) ∧
    ∀ (key key' resource resource' keyName keyName' : String) (expiry expiry' : Instant)
      (s s' : SharedAccessSignature), make key resource keyName expiry = .ok s →
        make key' resource' keyName' expiry' = .ok s' → key ≠ key' → s.key ≠ s'.key := by
  refine ⟨fun _ _ => decodeKey_eq_ok_iff_encode, ?_, ?_, fun _ _ _ _ _ => decodeKey_of_make, ?_⟩
  · intro key bs
    rw [decodeKey_eq_ok_iff, Base64.decode?_eq_some_iff_isSpelling]
  · intro key resource keyName expiry hkey hresource hkeyName
    exact exists_make_iff hkey hresource hkeyName
  · intro key key' resource resource' keyName keyName' expiry expiry' s s' hs hs' hne hsame
    have hkey := decodeKey_eq_ok_iff_encode.1 (decodeKey_of_make hs)
    have hkey' := decodeKey_eq_ok_iff_encode.1 (decodeKey_of_make hs')
    exact hne (by rw [hkey, hkey', hsame])

/-- Three bytes, one byte, and one byte with bits where the fill is. -/
theorem canonical_keys_sample :
    decodeKey "a2V5" = .ok [0x6B, 0x65, 0x79] ∧
      (∃ s, make "a2V5" "hub.example" "owner" ⟨0, 0⟩ = .ok s) ∧
      (¬∃ s, make "ax==" "hub.example" "owner" ⟨0, 0⟩ = .ok s) ∧
      ∃ s s', make "a2V5" "hub.example" "owner" ⟨0, 0⟩ = .ok s ∧
        make "aw==" "hub.example" "device" ⟨60, 0⟩ = .ok s' ∧
        decodeKey "aw==" = .ok s'.key ∧ s.key ≠ s'.key := by
  obtain ⟨hwritten, -, haccepted, hbytes, hdiffer⟩ := canonical_keys
  have hkey : "a2V5" = String.ofList (Base64.encode [0x6B, 0x65, 0x79]) := by decide
  have hother : "aw==" = String.ofList (Base64.encode [0x6B]) := by decide
  have hrefused : ¬∃ bs, "ax==" = String.ofList (Base64.encode bs) := by
    rintro ⟨bs, hbs⟩
    have hnone : Base64.decode? "ax==".toList = none := by decide
    have hsome := decodeKey_eq_ok_iff.1 ((hwritten _ _).2 hbs)
    rw [hnone] at hsome
    cases hsome
  obtain ⟨s, hs⟩ := (haccepted "a2V5" "hub.example" "owner" ⟨0, 0⟩ (by decide) (by decide)
    (by decide)).2 ⟨_, hkey⟩
  obtain ⟨s', hs'⟩ := (haccepted "aw==" "hub.example" "device" ⟨60, 0⟩ (by decide) (by decide)
    (by decide)).2 ⟨_, hother⟩
  refine ⟨(hwritten _ _).2 hkey, ⟨s, hs⟩, ?_, s, s', hs, hs', hbytes _ _ _ _ _ hs',
    hdiffer _ _ _ _ _ _ _ _ _ _ hs hs' (by decide)⟩
  rwa [haccepted _ _ _ _ (by decide) (by decide) (by decide)]

end SharedAccessSignature

end HubConfig
