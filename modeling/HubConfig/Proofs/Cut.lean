/-
**Messages cut into parts.**

Glyphs stand one behind another, so a message can be cut between any two of them, and each part
reads as the glyphs it had in the whole.  Two messages cannot always be put together again, because
stray bytes at the end of the first may become a character with the bytes that follow; but they can
wherever the second begins with an ASCII byte, since no longer encoding holds one.

Main results:

* `leadingChar?_eq_some_iff`: the character at the front is the one whose bytes stand there;
* `bytes_induction`: induction over the glyphs of a message;
* `Glyph.exists_cut`: **a message can be cut between any two glyphs**;
* `Glyph.ofBytes_append`: **messages are put together before an ASCII byte**;
* `isBlankBody_of_print`: a body that is a JSON text is not blank;
* `readBody_eq_ok_iff`, `exists_print_of_readBody`: what is read is the value of a JSON text.
-/

import HubConfig.Proofs.Source

set_option autoImplicit false

namespace HubConfig

open HubConfig.Text HubConfig.Json

/-! ### One glyph -/

/-- The character at the front is the one whose bytes stand there. -/
theorem leadingChar?_eq_some_iff {bs : Bytes} {c : Char} :
    leadingChar? bs = some c ↔ String.utf8EncodeChar c <+: bs := by
  constructor
  · intro h
    rw [leadingChar?] at h
    split at h
    · next hp =>
      cases h
      exact List.isPrefixOf_iff_prefix.1 hp
    · cases h
  · rintro ⟨rest, rfl⟩
    exact leadingChar?_utf8EncodeChar_append c rest

theorem Glyph.ofBytes_stray {b : UInt8} {bs : Bytes} (h : leadingChar? (b :: bs) = none) :
    Glyph.ofBytes (b :: bs) = none :: Glyph.ofBytes bs := by
  rw [Glyph.ofBytes, Glyph.ofBytesAfter, h]
  rfl

/-- Induction over the glyphs of a message: a character in front, or a stray byte. -/
theorem bytes_induction {motive : Bytes → Prop} (nil : motive [])
    (char : ∀ (c : Char) (rest : Bytes), motive rest → motive (String.utf8EncodeChar c ++ rest))
    (stray : ∀ (b : UInt8) (rest : Bytes), leadingChar? (b :: rest) = none → motive rest →
      motive (b :: rest)) (bs : Bytes) : motive bs := by
  -- A glyph takes at least one byte, so the rest is shorter.
  induction hn : bs.length using Nat.strongRecOn generalizing bs with
  | ind n ih =>
    cases bs with
    | nil => exact nil
    | cons b bs =>
      cases hc : leadingChar? (b :: bs) with
      | none => exact stray b bs hc (ih bs.length (by rw [← hn]; exact Nat.lt_succ_self _) bs rfl)
      | some c =>
        obtain ⟨rest, hrest⟩ := leadingChar?_eq_some_iff.1 hc
        have hpos : 0 < (String.utf8EncodeChar c).length :=
          List.length_pos_iff.2 String.utf8EncodeChar_ne_nil
        have hlen : rest.length < n := by
          rw [← hn, ← hrest, List.length_append]
          omega
        rw [← hrest]
        exact char c rest (ih _ hlen rest rfl)

/-- A message that reads as characters is made of their bytes. -/
theorem eq_utf8Bytes_of_ofBytes {bs : Bytes} {cs : List Char}
    (h : Glyph.ofBytes bs = cs.map some) : bs = utf8Bytes cs := by
  induction bs using bytes_induction generalizing cs with
  | nil =>
    obtain rfl : cs = [] := List.map_eq_nil_iff.1 h.symm
    rfl
  | char c rest ih =>
    rw [Glyph.ofBytes_utf8EncodeChar_append] at h
    obtain ⟨d, ds, rfl, hd, hds⟩ := List.map_eq_cons_iff.1 h.symm
    cases hd
    rw [utf8Bytes_cons, ih hds.symm]
  | stray b rest hb ih =>
    rw [Glyph.ofBytes_stray hb] at h
    obtain ⟨d, ds, rfl, hd, -⟩ := List.map_eq_cons_iff.1 h.symm
    cases hd

/-! ### Cutting -/

/-- **A message can be cut between any two glyphs**, and each part reads as it did in the whole. -/
theorem Glyph.exists_cut {bs : Bytes} {gs hs : List Glyph} (h : Glyph.ofBytes bs = gs ++ hs) :
    ∃ front back, bs = front ++ back ∧ Glyph.ofBytes front = gs ∧ Glyph.ofBytes back = hs := by
  induction bs using bytes_induction generalizing gs with
  | nil =>
    obtain ⟨rfl, rfl⟩ := List.append_eq_nil_iff.1 h.symm
    exact ⟨[], [], rfl, rfl, rfl⟩
  | char c rest ih =>
    cases gs with
    | nil => exact ⟨[], _, rfl, rfl, h⟩
    | cons g gs =>
      rw [Glyph.ofBytes_utf8EncodeChar_append, List.cons_append] at h
      obtain ⟨rfl, htail⟩ := List.cons.inj h
      obtain ⟨front, back, rfl, hfront, hback⟩ := ih htail
      refine ⟨String.utf8EncodeChar c ++ front, back, by rw [List.append_assoc], ?_, hback⟩
      rw [Glyph.ofBytes_utf8EncodeChar_append, hfront]
  | stray b rest hb ih =>
    cases gs with
    | nil => exact ⟨[], _, rfl, rfl, h⟩
    | cons g gs =>
      rw [Glyph.ofBytes_stray hb, List.cons_append] at h
      obtain ⟨rfl, htail⟩ := List.cons.inj h
      obtain ⟨front, back, rfl, hfront, hback⟩ := ih htail
      -- A character in front of fewer bytes would be in front of all of them.
      have hnone : leadingChar? (b :: front) = none := by
        cases hc : leadingChar? (b :: front) with
        | none => rfl
        | some c =>
          have hp := (leadingChar?_eq_some_iff.1 hc).trans (List.prefix_append _ back)
          rw [← List.cons_append, leadingChar?_eq_some_iff.2 hp] at hb
          cases hb
      exact ⟨b :: front, back, rfl, by rw [Glyph.ofBytes_stray hnone, hfront], hback⟩

/-! ### Putting together -/

/-- Whether a message is empty or begins with an ASCII byte. -/
def BeginsAscii (bs : Bytes) : Prop := ∀ b ∈ bs.head?, b.toNat < 0x80

/-- The bytes of an encoding behind its first are no ASCII bytes. -/
theorem le_toNat_of_mem_tail {c : Char} {b : UInt8} (h : b ∈ (String.utf8EncodeChar c).tail) :
    0x80 ≤ b.toNat := by
  revert h
  -- One case for each length of an encoding.
  fun_cases String.utf8EncodeChar c with
  | case1 => simp
  | case2 =>
    intro h
    simp only [List.tail_cons, List.mem_singleton] at h
    rw [h, UInt8.toNat_ofNat']
    omega
  | case3 =>
    intro h
    simp only [List.tail_cons, List.mem_cons, List.not_mem_nil, or_false] at h
    rcases h with rfl | rfl <;> rw [UInt8.toNat_ofNat'] <;> omega
  | case4 =>
    intro h
    simp only [List.tail_cons, List.mem_cons, List.not_mem_nil, or_false] at h
    rcases h with rfl | rfl | rfl <;> rw [UInt8.toNat_ofNat'] <;> omega

/-- What begins with an ASCII byte completes no character. -/
theorem leadingChar?_append_of_none {b : UInt8} {bs rest : Bytes}
    (h : leadingChar? (b :: bs) = none) (hrest : BeginsAscii rest) :
    leadingChar? (b :: bs ++ rest) = none := by
  cases hc : leadingChar? (b :: bs ++ rest) with
  | none => rfl
  | some c =>
    rcases List.prefix_or_prefix_of_prefix (leadingChar?_eq_some_iff.1 hc)
      (List.prefix_append (b :: bs) rest) with hp | ⟨more, hmore⟩
    · rw [leadingChar?_eq_some_iff.2 hp] at h
      cases h
    · obtain ⟨end', hend⟩ := leadingChar?_eq_some_iff.1 hc
      rw [← hmore, List.append_assoc, List.append_cancel_left_eq] at hend
      cases more with
      | nil =>
        rw [List.append_nil] at hmore
        rw [leadingChar?_eq_some_iff.2 ⟨[], by rw [List.append_nil, hmore]⟩] at h
        cases h
      | cons d more =>
        -- The first byte of the rest would stand inside the encoding.
        have hd : d ∈ (String.utf8EncodeChar c).tail := by rw [← hmore]; simp
        have hge := le_toNat_of_mem_tail hd
        have hlt := hrest d (by rw [← hend]; rfl)
        omega

/-- **Messages are put together before an ASCII byte.** -/
theorem Glyph.ofBytes_append {bs rest : Bytes} (h : BeginsAscii rest) :
    Glyph.ofBytes (bs ++ rest) = Glyph.ofBytes bs ++ Glyph.ofBytes rest := by
  induction bs using bytes_induction with
  | nil => rfl
  | char c bs ih =>
    rw [List.append_assoc, Glyph.ofBytes_utf8EncodeChar_append,
      Glyph.ofBytes_utf8EncodeChar_append, ih, List.cons_append]
  | stray b bs hb ih =>
    have := leadingChar?_append_of_none hb h
    rw [List.cons_append] at this ⊢
    rw [Glyph.ofBytes_stray this, Glyph.ofBytes_stray hb, ih, List.cons_append]

/-- The byte of an ASCII character. -/
theorem utf8EncodeChar_ofNat :
    ∀ n < 0x80, String.utf8EncodeChar (Char.ofNat n) = [UInt8.ofNat n] := by decide

theorem Glyph.ofBytes_ascii_cons {b : UInt8} (h : b.toNat < 0x80) (bs : Bytes) :
    Glyph.ofBytes (b :: bs) = some (Char.ofNat b.toNat) :: Glyph.ofBytes bs := by
  have henc := utf8EncodeChar_ofNat b.toNat h
  rw [UInt8.ofNat_toNat] at henc
  rw [← Glyph.ofBytes_utf8EncodeChar_append, henc, List.singleton_append]

/-! ### Blank bodies -/

/-- A blank body reads as white space. -/
theorem isWhiteSpace_of_mem_ofBytes {body : Bytes} (h : isBlankBody body = true) :
    ∀ g ∈ Glyph.ofBytes body, ∃ c, g = some c ∧ isWhiteSpace c = true := by
  induction body with
  | nil => simp [Glyph.ofBytes, Glyph.ofBytesAfter]
  | cons b body ih =>
    rw [isBlankBody, List.all_cons, Bool.and_eq_true] at h
    rw [Glyph.ofBytes_ascii_cons (toNat_lt_of_isAsciiBlank h.1)]
    intro g hg
    rcases List.mem_cons.1 hg with rfl | hg
    · exact ⟨_, rfl, isWhiteSpace_of_isAsciiBlank h.1⟩
    · exact ih h.2 g hg

/-- A body that is a JSON text is not blank. -/
theorem isBlankBody_of_print {body : Bytes} {d : Document} (h : Glyph.ofBytes body = d.print) :
    isBlankBody body = false := by
  refine Bool.eq_false_iff.2 fun hblank => ?_
  obtain ⟨c, gs, hc, hw⟩ := d.value.isWhiteSpace_head
  have hmem : some c ∈ Glyph.ofBytes body := by
    rw [h, Document.print, hc]
    simp
  obtain ⟨c', he, hw'⟩ := isWhiteSpace_of_mem_ofBytes hblank _ hmem
  cases he
  rw [hw] at hw'
  cases hw'

/-! ### Bodies that are read -/

section

variable {α : Type} {read : Tree .value → Option α} {complaint : String} {body : Bytes} {a : α}

theorem readBody_eq_ok_iff {d : Document} (h : Glyph.ofBytes body = d.print) :
    readBody read complaint body = .ok a ↔ read d.value = some a := by
  rw [readBody, Document.parse?_eq_some_iff.2 h, Option.bind_some]
  cases read d.value <;> simp

/-- Only a JSON text is read. -/
theorem exists_print_of_readBody (h : readBody read complaint body = .ok a) :
    ∃ d : Document, Glyph.ofBytes body = d.print ∧ read d.value = some a := by
  rw [readBody] at h
  split at h
  · next b hb =>
    obtain ⟨d, hd, hread⟩ := Option.bind_eq_some_iff.1 hb
    cases h
    exact ⟨d, Document.eq_print_of_parse? hd, hread⟩
  · cases h

theorem error_of_readBody {e : Error} (h : readBody read complaint body = .error e) :
    e = ⟨.json, complaint, [.foreign]⟩ := by
  rw [readBody] at h
  split at h
  · cases h
  · cases h
    rfl

end

end HubConfig
