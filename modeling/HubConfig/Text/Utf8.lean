/-
**Bytes and characters.**

A message body arrives as bytes.  Structure (brackets, quotes, digits) is ASCII, while the text
between may hold any character, and a part nobody reads may even hold bytes that spell none.  So
bytes are read once, at the entrance, into *glyphs*: a glyph is a character, or a stray byte that
belongs to no well-formed character.

The encoding of a character is self-delimiting: its first byte says how many follow, and the code
point that the bytes spell is the one that was written.  So a text written in bytes comes back
glyph by glyph, with no stray byte in it, whatever it is followed by.

Main definitions:

* `Bytes`, `Glyph`: the two alphabets;
* `utf8Bytes`: the bytes of a list of characters;
* `Glyph.ofBytes`: the glyphs of a list of bytes, one stray glyph for each byte out of place;
* `Glyph.characters?`, `utf8Text?`: the text itself, when no byte is stray.

Main results:

* `utf8Length_toList`: the bytes of a text are as many as the standard library counts;
* `Glyph.characters?_eq_some_iff`: glyphs are a text exactly if no byte is stray;
* `leadingCode_utf8EncodeChar_append`: the bytes of a character spell its code point;
* `leadingChar?_utf8EncodeChar_append`: the character at the front is the one written there;
* `Glyph.ofBytes_utf8Bytes`: **a text written in bytes reads back**.
-/

set_option autoImplicit false

namespace HubConfig

/-- A message as the wire carries it. -/
abbrev Bytes := List UInt8

/-- A character, or `none` for a byte that belongs to no well-formed character. -/
abbrev Glyph := Option Char

/-! ### From characters to bytes -/

/-- The bytes of a list of characters in UTF-8. -/
def utf8Bytes (cs : List Char) : Bytes := cs.flatMap String.utf8EncodeChar

@[simp] theorem utf8Bytes_nil : utf8Bytes [] = [] := rfl

@[simp] theorem utf8Bytes_cons (c : Char) (cs : List Char) :
    utf8Bytes (c :: cs) = String.utf8EncodeChar c ++ utf8Bytes cs := rfl

/-- The number of bytes a list of characters takes. -/
def utf8Length : List Char → Nat
  | [] => 0
  | c :: cs => c.utf8Size + utf8Length cs

theorem utf8ByteSize_ofList (cs : List Char) : (String.ofList cs).utf8ByteSize = utf8Length cs := by
  induction cs with
  | nil => rfl
  | cons c cs ih =>
    have hcons : String.ofList (c :: cs) = String.singleton c ++ String.ofList cs :=
      String.toList_inj.1 (by simp)
    rw [hcons, String.utf8ByteSize_append, String.utf8ByteSize_singleton, ih, utf8Length]

theorem utf8Length_toList (s : String) : utf8Length s.toList = s.utf8ByteSize := by
  rw [← utf8ByteSize_ofList, String.ofList_toList]

/-! ### From bytes to glyphs -/

/-- The six payload bits of the byte at offset `k`, zero past the end. -/
def payload (bs : Bytes) (k : Nat) : Nat := (bs.getD k 0).toNat % 64

/-- The code point that the bytes at the front spell, if they are well formed at all.  The first
byte says how many follow it. -/
def leadingCode (bs : Bytes) : Nat :=
  let a := (bs.getD 0 0).toNat
  if a < 0x80 then a
  else if a < 0xE0 then a % 32 * 64 + payload bs 1
  else if a < 0xF0 then (a % 16 * 64 + payload bs 1) * 64 + payload bs 2
  else ((a % 8 * 64 + payload bs 1) * 64 + payload bs 2) * 64 + payload bs 3

/-- The character at the front.  The bytes are well formed exactly if they are the encoding of the
character they spell, which rules out overlong forms, surrogates and missing bytes alike. -/
def leadingChar? (bs : Bytes) : Option Char :=
  let c := Char.ofNat (leadingCode bs)
  if (String.utf8EncodeChar c).isPrefixOf bs then some c else none

/-- Reads glyphs after passing over `pending` bytes of a character already read. -/
def Glyph.ofBytesAfter : (pending : Nat) → Bytes → List Glyph
  | _, [] => []
  | pending + 1, _ :: bs => ofBytesAfter pending bs
  | 0, b :: bs =>
      match leadingChar? (b :: bs) with
      | some c => some c :: ofBytesAfter (c.utf8Size - 1) bs
      | none => none :: ofBytesAfter 0 bs

/-- **The glyphs of a message.** -/
def Glyph.ofBytes (bs : Bytes) : List Glyph := ofBytesAfter 0 bs

/-! ### From glyphs to text -/

/-- The characters of a list of glyphs without stray bytes. -/
def Glyph.characters? : List Glyph → Option (List Char)
  | [] => some []
  | none :: _ => none
  | some c :: gs => (characters? gs).map (c :: ·)

theorem Glyph.characters?_map_some (cs : List Char) :
    Glyph.characters? (cs.map some) = some cs := by
  induction cs with
  | nil => rfl
  | cons c cs ih => simp [Glyph.characters?, ih]

theorem Glyph.characters?_eq_some_iff {gs : List Glyph} {cs : List Char} :
    Glyph.characters? gs = some cs ↔ gs = cs.map some := by
  constructor
  · intro h
    induction gs generalizing cs with
    | nil => simp_all [Glyph.characters?]
    | cons g gs ih =>
      cases g with
      | none => simp [Glyph.characters?] at h
      | some c =>
        obtain ⟨ds, hds, rfl⟩ := Option.map_eq_some_iff.1 h
        simp [ih hds]
  · rintro rfl
    exact Glyph.characters?_map_some cs

/-- The text that the bytes spell, if they are all well formed. -/
def utf8Text? (bs : Bytes) : Option String :=
  (Glyph.characters? (Glyph.ofBytes bs)).map String.ofList

/-! ### One character reads back -/

/-- The bytes of a character spell its code point. -/
theorem leadingCode_utf8EncodeChar_append (c : Char) (rest : Bytes) :
    leadingCode (String.utf8EncodeChar c ++ rest) = c.toNat := by
  have hv : c.toNat = c.val.toNat := rfl
  have hmax : c.val.toNat < 0x110000 := by
    rcases c.valid with h | ⟨-, h⟩
    · exact Nat.lt_trans h (by decide)
    · exact h
  -- One case for each length of an encoding.
  fun_cases String.utf8EncodeChar c with
  | case1 v h1 =>
    have h0 : v % 256 = v := by omega
    simp only [leadingCode, List.cons_append, List.getD_cons_zero, UInt8.toNat_ofNat', h0]
    rw [if_pos (by omega), hv]
  | case2 v h1 h2 =>
    simp only [leadingCode, payload, List.cons_append, List.nil_append, List.getD_cons_zero,
      List.getD_cons_succ, UInt8.toNat_ofNat']
    rw [if_neg (by omega), if_pos (by omega), hv]
    omega
  | case3 v h1 h2 h3 =>
    simp only [leadingCode, payload, List.cons_append, List.nil_append, List.getD_cons_zero,
      List.getD_cons_succ, UInt8.toNat_ofNat']
    rw [if_neg (by omega), if_neg (by omega), if_pos (by omega), hv]
    omega
  | case4 v h1 h2 h3 =>
    simp only [leadingCode, payload, List.cons_append, List.nil_append, List.getD_cons_zero,
      List.getD_cons_succ, UInt8.toNat_ofNat']
    rw [if_neg (by omega), if_neg (by omega), if_neg (by omega), hv]
    omega

/-- The character at the front is the one written there. -/
theorem leadingChar?_utf8EncodeChar_append (c : Char) (rest : Bytes) :
    leadingChar? (String.utf8EncodeChar c ++ rest) = some c := by
  have hc : Char.ofNat (leadingCode (String.utf8EncodeChar c ++ rest)) = c := by
    rw [leadingCode_utf8EncodeChar_append, Char.ofNat_toNat]
  have hp : (String.utf8EncodeChar c).isPrefixOf (String.utf8EncodeChar c ++ rest) = true :=
    List.isPrefixOf_iff_prefix.2 (List.prefix_append _ _)
  simp only [leadingChar?, hc, hp, if_true]

/-! ### Texts read back -/

/-- The bytes of a character that was read are passed over. -/
theorem Glyph.ofBytesAfter_append {pending : Nat} {bs : Bytes} (h : bs.length = pending)
    (rest : Bytes) : Glyph.ofBytesAfter pending (bs ++ rest) = Glyph.ofBytes rest := by
  induction bs generalizing pending with
  | nil =>
    obtain rfl : pending = 0 := h.symm
    rfl
  | cons b bs ih =>
    obtain ⟨n, rfl⟩ : ∃ n, pending = n + 1 := ⟨bs.length, h.symm⟩
    exact ih (Nat.succ.inj h)

theorem Glyph.ofBytes_utf8EncodeChar_append (c : Char) (rest : Bytes) :
    Glyph.ofBytes (String.utf8EncodeChar c ++ rest) = some c :: Glyph.ofBytes rest := by
  have hlen := String.length_utf8EncodeChar c
  have hread := leadingChar?_utf8EncodeChar_append c rest
  cases hbs : String.utf8EncodeChar c with
  | nil => exact absurd hbs String.utf8EncodeChar_ne_nil
  | cons b bs =>
    rw [hbs, List.cons_append] at hread
    rw [hbs, List.length_cons] at hlen
    rw [List.cons_append, Glyph.ofBytes, Glyph.ofBytesAfter, hread]
    exact congrArg _ (Glyph.ofBytesAfter_append (by omega) rest)

/-- **A text written in bytes reads back.** -/
theorem Glyph.ofBytes_utf8Bytes (cs : List Char) : Glyph.ofBytes (utf8Bytes cs) = cs.map some := by
  induction cs with
  | nil => rfl
  | cons c cs ih => rw [utf8Bytes_cons, Glyph.ofBytes_utf8EncodeChar_append, ih, List.map_cons]

theorem utf8Text?_utf8Bytes (s : String) : utf8Text? (utf8Bytes s.toList) = some s := by
  rw [utf8Text?, Glyph.ofBytes_utf8Bytes, Glyph.characters?_map_some, Option.map_some,
    String.ofList_toList]

end HubConfig
