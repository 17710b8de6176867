/-
**String literals of a JSON text.**

A literal is kept the way it is spelled: plain glyphs, one-letter escapes and `\u` escapes with the
case of their digits.  What it spells is a second question, with an answer only if every byte
belongs to a character and the surrogates come in pairs.

Main definitions:

* `Piece`, `Literal`: the parts of a spelling, and a spelling between its quotes;
* `Literal.print`, `Literal.read`: the glyphs of a spelling with its closing quote, and back;
* `Literal.text?`: the text that a literal spells;
* `Literal.ofText`: the spelling this library writes, which escapes only what it must.

Main results:

* `Literal.read_print_append`, `Literal.eq_print_of_read`: reading is the inverse of printing;
* `Literal.text?_ofText`: a written text reads back.
-/

import HubConfig.Text.Digits
import HubConfig.Text.Utf8

set_option autoImplicit false

namespace HubConfig.Json

open HubConfig.Text

/-! ### One-letter escapes -/

/-- The escapes that are a backslash and one letter. -/
inductive Escape
  | quote
  | backslash
  | slash
  | backspace
  | formFeed
  | lineFeed
  | carriageReturn
  | tab
  deriving DecidableEq, Repr

/-- The letter after the backslash. -/
def Escape.letter : Escape → Char
  | .quote => '"'
  | .backslash => '\\'
  | .slash => '/'
  | .backspace => 'b'
  | .formFeed => 'f'
  | .lineFeed => 'n'
  | .carriageReturn => 'r'
  | .tab => 't'

/-- The character an escape stands for. -/
def Escape.char : Escape → Char
  | .quote => '"'
  | .backslash => '\\'
  | .slash => '/'
  | .backspace => '\x08'
  | .formFeed => '\x0C'
  | .lineFeed => '\n'
  | .carriageReturn => '\r'
  | .tab => '\t'

/-- The escape with a given letter. -/
def Escape.ofLetter? : Glyph → Option Escape
  | some '"' => some .quote
  | some '\\' => some .backslash
  | some '/' => some .slash
  | some 'b' => some .backspace
  | some 'f' => some .formFeed
  | some 'n' => some .lineFeed
  | some 'r' => some .carriageReturn
  | some 't' => some .tab
  | _ => none

@[simp] theorem Escape.ofLetter?_letter (e : Escape) :
    Escape.ofLetter? (some e.letter) = some e := by
  cases e <;> rfl

theorem Escape.eq_of_ofLetter? {g : Glyph} {e : Escape} (h : Escape.ofLetter? g = some e) :
    g = some e.letter := by
  unfold Escape.ofLetter? at h
  split at h <;> simp_all <;> subst h <;> rfl

theorem Escape.letter_ne_u (e : Escape) : e.letter ≠ 'u' := by cases e <;> decide

/-! ### Hexadecimal escapes -/

/-- A digit of a `\u` escape, in either case. -/
structure HexDigit where
  /-- The digit as it is spelled. -/
  char : Char
  /-- It is one. -/
  isHex : (hexDigitValue? char).isSome = true
  deriving DecidableEq

/-- The number a digit stands for. -/
def HexDigit.value (d : HexDigit) : Nat := (hexDigitValue? d.char).get d.isHex

/-- The digit that a glyph is, if it is one. -/
def HexDigit.ofGlyph? : Glyph → Option HexDigit
  | none => none
  | some c => if h : (hexDigitValue? c).isSome = true then some ⟨c, h⟩ else none

@[simp] theorem HexDigit.ofGlyph?_char (d : HexDigit) :
    HexDigit.ofGlyph? (some d.char) = some d := by
  simp [HexDigit.ofGlyph?, d.isHex]

theorem HexDigit.eq_of_ofGlyph? {g : Glyph} {d : HexDigit} (h : HexDigit.ofGlyph? g = some d) :
    g = some d.char := by
  cases g with
  | none => simp [HexDigit.ofGlyph?] at h
  | some c =>
    rw [HexDigit.ofGlyph?] at h
    split at h
    · cases h; rfl
    · cases h

/-- The lower case digit for a number, modulo sixteen. -/
def HexDigit.ofNat (n : Nat) : HexDigit where
  char := lowerHexDigit (n % 16)
  isHex := by rw [hexDigitValue?_lowerHexDigit _ (Nat.mod_lt _ (by decide))]; rfl

@[simp] theorem HexDigit.value_ofNat (n : Nat) : (HexDigit.ofNat n).value = n % 16 := by
  simp [HexDigit.value, HexDigit.ofNat,
    hexDigitValue?_lowerHexDigit _ (Nat.mod_lt n (by decide : 0 < 16))]

/-- The number that four digits stand for. -/
def unitValue (a b c d : HexDigit) : Nat :=
  ((a.value * 16 + b.value) * 16 + c.value) * 16 + d.value

/-! ### Pieces -/

/-- Whether a glyph may stand in a literal as itself: it is not a quote, a backslash or a
control. -/
def isPlain : Glyph → Bool
  | none => true
  | some c => c != '"' && c != '\\' && decide (0x20 ≤ c.toNat)

/-- A part of a spelling. -/
inductive Piece
  | plain (g : Glyph) (isPlain : isPlain g = true)
  | escape (e : Escape)
  | unit (a b c d : HexDigit)
  deriving DecidableEq

/-- A string literal, without its quotes. -/
abbrev Literal := List Piece

/-- The glyphs of a piece. -/
def Piece.print : Piece → List Glyph
  | .plain g _ => [g]
  | .escape e => [some '\\', some e.letter]
  | .unit a b c d => [some '\\', some 'u', some a.char, some b.char, some c.char, some d.char]

/-- The glyphs of a literal, closed by its quote. -/
def Literal.print : Literal → List Glyph
  | [] => [some '"']
  | p :: ps => p.print ++ Literal.print ps

@[simp] theorem Literal.print_nil : Literal.print [] = [some '"'] := rfl

@[simp] theorem Literal.print_cons (p : Piece) (ps : Literal) :
    Literal.print (p :: ps) = p.print ++ Literal.print ps := rfl

/-- The literal at the front of a text that follows an opening quote, and what follows its closing
quote. -/
def Literal.read : List Glyph → Option (Literal × List Glyph)
  | [] => none
  | g :: gs =>
      if g = some '"' then some ([], gs)
      else if g = some '\\' then
        match gs with
        | [] => none
        | l :: gs =>
            if l = some 'u' then
              match gs with
              | a :: b :: c :: d :: gs =>
                  match HexDigit.ofGlyph? a, HexDigit.ofGlyph? b, HexDigit.ofGlyph? c,
                      HexDigit.ofGlyph? d with
                  | some a, some b, some c, some d =>
                      (Literal.read gs).map fun r => (.unit a b c d :: r.1, r.2)
                  | _, _, _, _ => none
              | _ => none
            else
              match Escape.ofLetter? l with
              | some e => (Literal.read gs).map fun r => (.escape e :: r.1, r.2)
              | none => none
      else if h : isPlain g = true then
        (Literal.read gs).map fun r => (.plain g h :: r.1, r.2)
      else none

theorem Literal.read_piece_append (p : Piece) (gs : List Glyph) :
    Literal.read (p.print ++ gs) = (Literal.read gs).map fun r => (p :: r.1, r.2) := by
  cases p with
  | plain g h =>
    have hq : g ≠ some '"' := by rintro rfl; simp [isPlain] at h
    have hb : g ≠ some '\\' := by rintro rfl; simp [isPlain] at h
    rw [Piece.print, List.singleton_append, Literal.read.eq_def]
    simp [hq, hb, h]
  | escape e =>
    rw [Literal.read.eq_def]
    simp [Piece.print, e.letter_ne_u]
  | unit a b c d =>
    rw [Literal.read.eq_def]
    simp [Piece.print]

/-- A printed literal reads back, whatever follows it. -/
theorem Literal.read_print_append (ps : Literal) (gs : List Glyph) :
    Literal.read (Literal.print ps ++ gs) = some (ps, gs) := by
  induction ps with
  | nil =>
    rw [Literal.read.eq_def]
    simp
  | cons p ps ih =>
    rw [Literal.print_cons, List.append_assoc, Literal.read_piece_append, ih]
    rfl

/-- A literal that was read is the one that stands there. -/
theorem Literal.eq_print_of_read {gs rest : List Glyph} {ps : Literal}
    (h : Literal.read gs = some (ps, rest)) : gs = Literal.print ps ++ rest := by
  fun_induction Literal.read gs generalizing ps with
  | case1 => cases h
  | case2 => cases h; rfl
  | case3 => cases h
  | case4 a b c d gs a' b' c' d' hd hc hb ha _ ih =>
    obtain ⟨⟨qs, r⟩, hr, he⟩ := Option.map_eq_some_iff.1 h
    cases he
    simp [Piece.print, ← ih hr, HexDigit.eq_of_ofGlyph? ha, HexDigit.eq_of_ofGlyph? hb,
      HexDigit.eq_of_ofGlyph? hc, HexDigit.eq_of_ofGlyph? hd]
  | case5 => cases h
  | case6 => cases h
  | case7 l gs _ e he _ ih =>
    obtain ⟨⟨qs, r⟩, hr, hq⟩ := Option.map_eq_some_iff.1 h
    cases hq
    simp [Piece.print, ← ih hr, Escape.eq_of_ofLetter? he]
  | case8 => cases h
  | case9 g gs _ _ _ ih =>
    obtain ⟨⟨qs, r⟩, hr, hq⟩ := Option.map_eq_some_iff.1 h
    cases hq
    simp [Piece.print, ← ih hr]
  | case10 => cases h

/-! ### The text a literal spells -/

/-- The first half of a pair of escapes that spells a character beyond `U+FFFF`. -/
def isHighSurrogate (n : Nat) : Bool := 0xD800 ≤ n && n ≤ 0xDBFF

/-- The second half of such a pair. -/
def isLowSurrogate (n : Nat) : Bool := 0xDC00 ≤ n && n ≤ 0xDFFF

/-- The character that a pair of surrogates spells. -/
def joinSurrogates (high low : Nat) : Char :=
  Char.ofNat (0x10000 + (high - 0xD800) * 0x400 + (low - 0xDC00))

/-- The characters that a literal spells.  A stray byte and a surrogate without its partner spell
nothing. -/
def Literal.characters? : Literal → Option (List Char)
  | [] => some []
  | .plain none _ :: _ => none
  | .plain (some c) _ :: ps => (characters? ps).map (c :: ·)
  | .escape e :: ps => (characters? ps).map (e.char :: ·)
  | .unit a b c d :: ps =>
      let n := unitValue a b c d
      if isHighSurrogate n then
        match ps with
        | .unit a' b' c' d' :: qs =>
            let m := unitValue a' b' c' d'
            if isLowSurrogate m then (characters? qs).map (joinSurrogates n m :: ·) else none
        | _ => none
      else if isLowSurrogate n then none
      else (characters? ps).map (Char.ofNat n :: ·)

/-- The text that a literal spells. -/
def Literal.text? (ps : Literal) : Option String := (characters? ps).map String.ofList

/-! ### Writing a text -/

/-- The one-letter escape for a character that must be escaped. -/
def Escape.ofChar? (c : Char) : Option Escape :=
  if c = '"' then some .quote
  else if c = '\\' then some .backslash
  else if c = '\x08' then some .backspace
  else if c = '\x0C' then some .formFeed
  else if c = '\n' then some .lineFeed
  else if c = '\r' then some .carriageReturn
  else if c = '\t' then some .tab
  else none

/-- How one character is written: as itself if it may be, else with the shortest escape. -/
def Piece.ofChar (c : Char) : Piece :=
  if h : isPlain (some c) = true then .plain (some c) h
  else
    match Escape.ofChar? c with
    | some e => .escape e
    | none => .unit (.ofNat 0) (.ofNat 0) (.ofNat (c.toNat / 16)) (.ofNat c.toNat)

/-- How a list of characters is written. -/
def Literal.ofCharacters (cs : List Char) : Literal := cs.map Piece.ofChar

/-- How a text is written. -/
def Literal.ofText (s : String) : Literal := Literal.ofCharacters s.toList

theorem Escape.char_of_ofChar? {c : Char} {e : Escape} (h : Escape.ofChar? c = some e) :
    e.char = c := by
  unfold Escape.ofChar? at h
  repeat' split at h
  all_goals first | (cases h; simp_all [Escape.char]) | cases h

/-- A character that is neither plain nor escaped by a letter is a control. -/
theorem toNat_lt_of_not_isPlain {c : Char} (h : ¬ isPlain (some c) = true)
    (he : Escape.ofChar? c = none) : c.toNat < 0x20 := by
  simp only [isPlain, Bool.and_eq_true, bne_iff_ne, decide_eq_true_eq, not_and] at h
  unfold Escape.ofChar? at he
  repeat' split at he
  all_goals simp_all

theorem Literal.characters?_ofChar_cons (c : Char) (ps : Literal) :
    Literal.characters? (Piece.ofChar c :: ps) = (Literal.characters? ps).map (c :: ·) := by
  rw [Piece.ofChar]
  split
  · rfl
  · next h =>
    split
    · next e he => rw [Literal.characters?, Escape.char_of_ofChar? he]
    · next he =>
      have hlt := toNat_lt_of_not_isPlain h he
      have hn : unitValue (.ofNat 0) (.ofNat 0) (.ofNat (c.toNat / 16)) (.ofNat c.toNat)
          = c.toNat := by
        simp only [unitValue, HexDigit.value_ofNat]
        omega
      have hh : isHighSurrogate c.toNat = false := by
        simp only [isHighSurrogate, Bool.and_eq_false_iff, decide_eq_false_iff_not]
        omega
      have hl : isLowSurrogate c.toNat = false := by
        simp only [isLowSurrogate, Bool.and_eq_false_iff, decide_eq_false_iff_not]
        omega
      rw [Literal.characters?.eq_def]
      simp [hn, hh, hl]

theorem Literal.characters?_ofCharacters (cs : List Char) :
    Literal.characters? (Literal.ofCharacters cs) = some cs := by
  induction cs with
  | nil => rfl
  | cons c cs ih =>
    rw [Literal.ofCharacters, List.map_cons, Literal.characters?_ofChar_cons]
    rw [Literal.ofCharacters] at ih
    rw [ih]
    rfl

/-- A written text reads back. -/
theorem Literal.text?_ofText (s : String) : Literal.text? (Literal.ofText s) = some s := by
  simp [Literal.text?, Literal.ofText, Literal.characters?_ofCharacters]

end HubConfig.Json
