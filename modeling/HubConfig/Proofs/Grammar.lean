/-
**The grammar of JSON texts.**

What a JSON text is can be said on its characters alone, without the trees that texts are read
into: numbers and strings are spelled in a certain way, values are built of them with brackets,
commas and colons, and blanks may stand between the parts.  Nothing bounds the depth of a value or
the size of a number, and surrogates need no partners.

Main definitions:

* `IsNumber`, `IsString`: the spellings of numbers and of strings;
* `Spells`: the spellings of values, of items and of members;
* `IsJsonText`: a value with blanks around it.

Main results:

* `isSome_ofLexeme?_iff`: a text is read as a number exactly if it spells one;
* `spells_iff`: **a text spells a value exactly if it is the print of a tree**;
* `exists_ofText?_iff`: **the texts that are read as documents are the JSON texts**.
-/

import HubConfig.Proofs.Source

set_option autoImplicit false

namespace HubConfig.Json

open HubConfig.Text

/-! ### Numbers -/

/-- A run of digits, which is not empty. -/
def IsDigits (cs : List Char) : Prop := cs ≠ [] ∧ ∀ c ∈ cs, c.isDigit = true

/-- The part before the point: digits, of which the first is a zero only if it is the only one. -/
def IsWhole (cs : List Char) : Prop := IsDigits cs ∧ (cs.head? = some '0' → cs = ['0'])

/-- The part from the point on, which may be missing. -/
def IsFraction (cs : List Char) : Prop := cs = [] ∨ ∃ ds, IsDigits ds ∧ cs = '.' :: ds

/-- The part from the letter on, which may be missing. -/
def IsExponent (cs : List Char) : Prop :=
  cs = [] ∨ ∃ e sign ds, (e = 'e' ∨ e = 'E') ∧ (sign = [] ∨ sign = ['+'] ∨ sign = ['-']) ∧
    IsDigits ds ∧ cs = e :: (sign ++ ds)

/-- The spelling of a number. -/
def IsNumber (cs : List Char) : Prop :=
  ∃ sign whole fraction exponent, (sign = [] ∨ sign = ['-']) ∧ IsWhole whole ∧
    IsFraction fraction ∧ IsExponent exponent ∧ cs = sign ++ (whole ++ (fraction ++ exponent))

/-! ### Strings -/

/-- A character that stands for itself, an escape by a letter, or an escape by four digits. -/
inductive IsPiece : List Char → Prop
  | plain (c : Char) : c ≠ '"' → c ≠ '\\' → 0x20 ≤ c.toNat → IsPiece [c]
  | letter (c : Char) : c ∈ ['"', '\\', '/', 'b', 'f', 'n', 'r', 't'] → IsPiece ['\\', c]
  | digits (a b c d : Char) : (∀ e ∈ [a, b, c, d], (hexDigitValue? e).isSome = true) →
      IsPiece ['\\', 'u', a, b, c, d]

/-- What stands between the quotes of a string. -/
inductive IsInner : List Char → Prop
  | nil : IsInner []
  | cons {piece cs : List Char} : IsPiece piece → IsInner cs → IsInner (piece ++ cs)

/-- The spelling of a string. -/
def IsString (cs : List Char) : Prop := ∃ inner, IsInner inner ∧ cs = '"' :: (inner ++ ['"'])

/-! ### Values -/

/-- Nothing but blanks of the grammar. -/
def IsGap (cs : List Char) : Prop := ∀ c ∈ cs, isBlankChar c = true

/-- The name of a member with blanks around it, up to the colon. -/
def IsKey (cs : List Char) : Prop :=
  ∃ before name after, IsGap before ∧ IsString name ∧ IsGap after ∧
    cs = before ++ name ++ after ++ [':']

/-- The spellings of values, of the items of an array and of the members of an object.  There is at
least one item, and at least one member. -/
inductive Spells : Shape → List Char → Prop
  | null : Spells .value ['n', 'u', 'l', 'l']
  | true : Spells .value ['t', 'r', 'u', 'e']
  | false : Spells .value ['f', 'a', 'l', 's', 'e']
  | number {cs : List Char} : IsNumber cs → Spells .value cs
  | string {cs : List Char} : IsString cs → Spells .value cs
  | emptyArray {gap : List Char} : IsGap gap → Spells .value ('[' :: (gap ++ [']']))
  | array {items : List Char} : Spells .items items → Spells .value ('[' :: (items ++ [']']))
  | emptyObject {gap : List Char} : IsGap gap → Spells .value ('{' :: (gap ++ ['}']))
  | object {members : List Char} : Spells .members members →
      Spells .value ('{' :: (members ++ ['}']))
  | lastItem {before value after : List Char} : IsGap before → Spells .value value →
      IsGap after → Spells .items (before ++ value ++ after)
  | item {before value after rest : List Char} : IsGap before → Spells .value value →
      IsGap after → Spells .items rest → Spells .items (before ++ value ++ after ++ ',' :: rest)
  | lastMember {key before value after : List Char} : IsKey key → IsGap before →
      Spells .value value → IsGap after → Spells .members (key ++ before ++ value ++ after)
  | member {key before value after rest : List Char} : IsKey key → IsGap before →
      Spells .value value → IsGap after → Spells .members rest →
      Spells .members (key ++ before ++ value ++ after ++ ',' :: rest)

/-- One value with blanks around it, and nothing else. -/
def IsJsonText (cs : List Char) : Prop :=
  ∃ before value after, IsGap before ∧ Spells .value value ∧ IsGap after ∧
    cs = before ++ value ++ after

/-! ### Numbers that are read -/

theorem isSome_ofDigits?_iff {negative : Bool} {ds : List Char} :
    (Exponent.ofDigits? negative ds).isSome = true ↔ IsDigits ds := by
  rw [Exponent.ofDigits?, IsDigits]
  split <;> simp_all

/-- A run of digits begins with no sign. -/
theorem IsDigits.exists_cons {ds : List Char} (h : IsDigits ds) :
    ∃ d rest, ds = d :: rest ∧ d.isDigit = true := by
  obtain ⟨d, rest, rfl⟩ := List.exists_cons_of_ne_nil h.1
  exact ⟨d, rest, rfl, h.2 d (by simp)⟩

theorem isSome_exponent_iff {cs : List Char} :
    (Exponent.ofLexeme? cs).isSome = true ↔ IsExponent cs := by
  constructor
  · intro h
    unfold Exponent.ofLexeme? at h
    split at h
    · exact Or.inl rfl
    · next e ds =>
      split at h
      · next he =>
        refine Or.inr ?_
        split at h
        · next ds =>
          exact ⟨e, ['-'], ds, he, by simp, isSome_ofDigits?_iff.1 (Option.isSome_map .. ▸ h), rfl⟩
        · next ds =>
          exact ⟨e, ['+'], ds, he, by simp, isSome_ofDigits?_iff.1 (Option.isSome_map .. ▸ h), rfl⟩
        · exact ⟨e, [], ds, he, by simp, isSome_ofDigits?_iff.1 (Option.isSome_map .. ▸ h), rfl⟩
      · cases h
  · rintro (rfl | ⟨e, sign, ds, he, hsign, hds, rfl⟩)
    · rfl
    · have hread : ∀ negative, (Exponent.ofDigits? negative ds).isSome = true :=
        fun negative => isSome_ofDigits?_iff.2 hds
      -- Without a sign the digits follow at once, and no digit is a sign.
      rcases hsign with rfl | rfl | rfl
      · obtain ⟨d, rest, rfl, hd⟩ := hds.exists_cons
        have hminus : d ≠ '-' := by rintro rfl; revert hd; decide
        have hplus : d ≠ '+' := by rintro rfl; revert hd; decide
        unfold Exponent.ofLexeme?
        rw [List.nil_append]
        dsimp only
        rw [if_pos he]
        split
        · next h => exact absurd (List.cons.inj h).1 hminus
        · next h => exact absurd (List.cons.inj h).1 hplus
        · rw [Option.isSome_map, hread]
      · rw [List.singleton_append, Exponent.ofLexeme?, if_pos he, Option.isSome_map, hread]
      · rw [List.singleton_append, Exponent.ofLexeme?, if_pos he, Option.isSome_map, hread]

/-- What follows a run of digits and does not go on with it. -/
theorem takeWhile_isDigit_append {ds rest : List Char} (hds : ∀ d ∈ ds, d.isDigit = true)
    (hrest : ∀ c ∈ rest.head?, c.isDigit = false) : (ds ++ rest).takeWhile Char.isDigit = ds := by
  rw [List.takeWhile_append_of_pos hds]
  cases rest with
  | nil => simp
  | cons c rest => simp [hrest c rfl]

theorem IsExponent.isDigit_head {cs : List Char} (h : IsExponent cs) :
    ∀ c ∈ cs.head?, c.isDigit = false := by
  rcases h with rfl | ⟨e, sign, ds, he, -, -, rfl⟩
  · simp
  · intro c hc
    cases hc
    rcases he with rfl | rfl <;> decide

theorem not_isExponent_point (cs : List Char) : ¬ IsExponent ('.' :: cs) := by
  rintro (h | ⟨e, sign, ds, he, -, -, h⟩)
  · cases h
  · rcases he with rfl | rfl <;> cases h

theorem IsFraction.isDigit_head {cs ds : List Char} (h : IsFraction cs) (hds : IsExponent ds) :
    ∀ c ∈ (cs ++ ds).head?, c.isDigit = false := by
  rcases h with rfl | ⟨fs, -, rfl⟩
  · exact hds.isDigit_head
  · simp

/-- The parts of a number without its sign. -/
theorem isSome_ofUnsigned?_iff {negative : Bool} {cs : List Char} :
    (Numeral.ofUnsigned? negative cs).isSome = true ↔
      ∃ whole fraction exponent, IsWhole whole ∧ IsFraction fraction ∧ IsExponent exponent ∧
        cs = whole ++ (fraction ++ exponent) := by
  have digits_all : ∀ ds : List Char, ∀ d ∈ ds.takeWhile Char.isDigit, d.isDigit = true :=
    fun ds => List.all_eq_true.1 List.all_takeWhile
  constructor
  · intro h
    rw [Numeral.ofUnsigned?] at h
    split at h
    · cases h
    · next hwhole =>
      rw [not_or, not_and, Classical.not_not] at hwhole
      have hw : IsWhole (cs.takeWhile Char.isDigit) := ⟨⟨hwhole.1, digits_all cs⟩, hwhole.2⟩
      have hcs := List.takeWhile_append_dropWhile (p := Char.isDigit) (l := cs)
      split at h
      · next rest hrest =>
        dsimp only at h
        split at h
        · cases h
        · next hne =>
          have he := isSome_exponent_iff.1 (Option.isSome_map .. ▸ h)
          refine ⟨_, '.' :: rest.takeWhile Char.isDigit, _, hw,
            Or.inr ⟨_, ⟨hne, digits_all rest⟩, rfl⟩, he, ?_⟩
          rw [List.cons_append, List.takeWhile_append_dropWhile, ← hrest, hcs]
      · exact ⟨_, [], _, hw, Or.inl rfl, isSome_exponent_iff.1 (Option.isSome_map .. ▸ h), hcs.symm⟩
  · rintro ⟨whole, fraction, exponent, hw, hf, he, rfl⟩
    have hhead := hf.isDigit_head he
    have htake : (whole ++ (fraction ++ exponent)).takeWhile Char.isDigit = whole :=
      takeWhile_isDigit_append hw.1.2 hhead
    have hdrop : (whole ++ (fraction ++ exponent)).dropWhile Char.isDigit =
        fraction ++ exponent := dropWhile_append_of_all hw.1.2 hhead
    have hread := isSome_exponent_iff.2 he
    have hne : ¬ (whole = [] ∨ (whole.head? = some '0' ∧ whole ≠ ['0'])) := by
      rw [not_or, not_and, Classical.not_not]
      exact ⟨hw.1.1, hw.2⟩
    simp only [Numeral.ofUnsigned?, htake, hdrop, if_neg hne]
    rcases hf with rfl | ⟨ds, hds, rfl⟩
    · rw [List.nil_append]
      split
      · next rest => exact absurd he (not_isExponent_point rest)
      · rw [Option.isSome_map, hread]
    · simp only [List.cons_append, takeWhile_isDigit_append hds.2 he.isDigit_head,
        dropWhile_append_of_all hds.2 he.isDigit_head, if_neg hds.1, Option.isSome_map, hread]

/-- A text is read as a number exactly if it spells one. -/
theorem isSome_ofLexeme?_iff {cs : List Char} :
    (Numeral.ofLexeme? cs).isSome = true ↔ IsNumber cs := by
  constructor
  · intro h
    unfold Numeral.ofLexeme? at h
    split at h
    · next cs =>
      obtain ⟨whole, fraction, exponent, hw, hf, he, rfl⟩ := isSome_ofUnsigned?_iff.1 h
      exact ⟨['-'], whole, fraction, exponent, by simp, hw, hf, he, rfl⟩
    · obtain ⟨whole, fraction, exponent, hw, hf, he, rfl⟩ := isSome_ofUnsigned?_iff.1 h
      exact ⟨[], whole, fraction, exponent, by simp, hw, hf, he, rfl⟩
  · rintro ⟨sign, whole, fraction, exponent, hsign, hw, hf, he, rfl⟩
    have hread : ∀ negative,
        (Numeral.ofUnsigned? negative (whole ++ (fraction ++ exponent))).isSome = true :=
      fun negative => isSome_ofUnsigned?_iff.2 ⟨whole, fraction, exponent, hw, hf, he, rfl⟩
    rcases hsign with rfl | rfl
    · obtain ⟨d, rest, rfl, hd⟩ := hw.1.exists_cons
      rw [List.nil_append]
      unfold Numeral.ofLexeme?
      split
      · next h =>
        obtain rfl : d = '-' := (List.cons.inj h).1
        exact absurd hd (by decide)
      · exact hread false
    · exact hread true

/-! ### From trees to spellings -/

/-- The characters among glyphs. -/
def characters (gs : List Glyph) : List Char := gs.filterMap fun g => g

@[simp] theorem characters_nil : characters [] = [] := rfl

@[simp] theorem characters_some_cons (c : Char) (gs : List Glyph) :
    characters (some c :: gs) = c :: characters gs := rfl

@[simp] theorem characters_append (gs hs : List Glyph) :
    characters (gs ++ hs) = characters gs ++ characters hs := List.filterMap_append

@[simp] theorem characters_map_some (cs : List Char) : characters (cs.map some) = cs := by
  rw [characters, List.filterMap_map]
  exact List.filterMap_some

theorem Gap.isGap_characters (gap : Gap) : IsGap (characters (Gap.print gap)) := by
  obtain ⟨cs, hcs, hblank⟩ := gap.exists_print_eq_map
  rwa [hcs, characters_map_some]

theorem HexDigit.isPiece (a b c d : HexDigit) :
    IsPiece ['\\', 'u', a.char, b.char, c.char, d.char] := by
  refine .digits a.char b.char c.char d.char ?_
  simp [a.isHex, b.isHex, c.isHex, d.isHex]

theorem Piece.isPiece_characters {p : Piece} (h : none ∉ p.print) :
    IsPiece (characters p.print) := by
  cases p with
  | plain g hg =>
    cases g with
    | none => exact absurd (List.mem_singleton.2 rfl) h
    | some c =>
      simp only [isPlain, Bool.and_eq_true, bne_iff_ne, decide_eq_true_eq] at hg
      exact .plain c hg.1.1 hg.1.2 hg.2
  | escape e => exact .letter e.letter (by cases e <;> decide)
  | unit a b c d => exact HexDigit.isPiece a b c d

theorem Literal.exists_isInner {ps : Literal} (h : none ∉ Literal.print ps) :
    ∃ inner, IsInner inner ∧ characters (Literal.print ps) = inner ++ ['"'] := by
  induction ps with
  | nil => exact ⟨[], .nil, rfl⟩
  | cons p ps ih =>
    rw [Literal.print_cons, List.mem_append, not_or] at h
    obtain ⟨inner, hinner, heq⟩ := ih h.2
    refine ⟨_, .cons (Piece.isPiece_characters h.1) hinner, ?_⟩
    rw [Literal.print_cons, characters_append, heq, List.append_assoc]

theorem Literal.isString_characters {ps : Literal} (h : none ∉ Literal.print ps) :
    IsString ('"' :: characters (Literal.print ps)) := by
  obtain ⟨inner, hinner, heq⟩ := Literal.exists_isInner h
  exact ⟨inner, hinner, congrArg _ heq⟩

theorem Number.isNumber_characters (n : Number) : IsNumber (characters n.print) := by
  rw [Number.print, characters_map_some]
  exact isSome_ofLexeme?_iff.1 n.isNumber

theorem Key.isKey_characters {key : Key} (h : none ∉ key.print) :
    IsKey (characters key.print) := by
  simp only [Key.print, List.mem_append, List.mem_cons, reduceCtorEq, List.not_mem_nil, or_false,
    false_or, not_or] at h
  refine ⟨_, _, _, key.before.isGap_characters, Literal.isString_characters h.1.2,
    key.after.isGap_characters, ?_⟩
  simp [Key.print]

/-- A tree without stray bytes spells what it is a tree of. -/
theorem Tree.spells_characters {s : Shape} {t : Tree s} (h : t.IsText) :
    Spells s (characters t.print) := by
  induction t with
  | null => exact .null
  | bool b =>
    cases b with
    | true => exact .true
    | false => exact .false
  | number n => exact .number n.isNumber_characters
  | string s =>
    simp only [Tree.IsText, Tree.print, List.mem_cons, reduceCtorEq, false_or] at h
    exact .string (Literal.isString_characters h)
  | emptyArray gap => simpa [Tree.print] using Spells.emptyArray gap.isGap_characters
  | array items ih =>
    simp only [Tree.IsText, Tree.print, List.cons_append, List.mem_cons, List.mem_append,
      reduceCtorEq, List.not_mem_nil, or_false, false_or] at h
    simpa [Tree.print] using Spells.array (ih h)
  | emptyObject gap => simpa [Tree.print] using Spells.emptyObject gap.isGap_characters
  | object members ih =>
    simp only [Tree.IsText, Tree.print, List.cons_append, List.mem_cons, List.mem_append,
      reduceCtorEq, List.not_mem_nil, or_false, false_or] at h
    simpa [Tree.print] using Spells.object (ih h)
  | lastItem before v after ih =>
    simp only [Tree.IsText, Tree.print, List.mem_append, not_or] at h
    simpa [Tree.print] using
      Spells.lastItem before.isGap_characters (ih h.1.2) after.isGap_characters
  | item before v after rest ihv ihr =>
    simp only [Tree.IsText, Tree.print, List.mem_append, List.mem_cons, reduceCtorEq, false_or,
      not_or] at h
    simpa [Tree.print] using
      Spells.item before.isGap_characters (ihv h.1.1.2) after.isGap_characters (ihr h.2)
  | lastMember key before v after ih =>
    simp only [Tree.IsText, Tree.print, List.mem_append, not_or] at h
    simpa [Tree.print] using Spells.lastMember (Key.isKey_characters h.1.1.1)
      before.isGap_characters (ih h.1.2) after.isGap_characters
  | member key before v after rest ihv ihr =>
    simp only [Tree.IsText, Tree.print, List.mem_append, List.mem_cons, reduceCtorEq, false_or,
      not_or] at h
    simpa [Tree.print] using Spells.member (Key.isKey_characters h.1.1.1.1)
      before.isGap_characters (ihv h.1.1.2) after.isGap_characters (ihr h.2)

/-! ### From spellings to trees -/

theorem IsGap.exists_gap {cs : List Char} (h : IsGap cs) :
    ∃ gap : Gap, gap.print = cs.map some := by
  induction cs with
  | nil => exact ⟨[], rfl⟩
  | cons c cs ih =>
    obtain ⟨gap, hgap⟩ := ih fun d hd => h d (List.mem_cons_of_mem c hd)
    have hc := h c (by simp)
    simp only [isBlankChar, Bool.or_eq_true, beq_iff_eq] at hc
    obtain ⟨s, rfl⟩ : ∃ s : Space, s.char = c := by
      rcases hc with ((rfl | rfl) | rfl) | rfl
      · exact ⟨.space, rfl⟩
      · exact ⟨.tab, rfl⟩
      · exact ⟨.lineFeed, rfl⟩
      · exact ⟨.carriageReturn, rfl⟩
    exact ⟨s :: gap, by rw [Gap.print_cons, hgap, List.map_cons]⟩

theorem exists_letter_of_mem {c : Char} (h : c ∈ ['"', '\\', '/', 'b', 'f', 'n', 'r', 't']) :
    ∃ e : Escape, e.letter = c := by
  simp only [List.mem_cons, List.not_mem_nil, or_false] at h
  rcases h with rfl | rfl | rfl | rfl | rfl | rfl | rfl | rfl
  · exact ⟨.quote, rfl⟩
  · exact ⟨.backslash, rfl⟩
  · exact ⟨.slash, rfl⟩
  · exact ⟨.backspace, rfl⟩
  · exact ⟨.formFeed, rfl⟩
  · exact ⟨.lineFeed, rfl⟩
  · exact ⟨.carriageReturn, rfl⟩
  · exact ⟨.tab, rfl⟩

theorem IsPiece.exists_piece {cs : List Char} (h : IsPiece cs) :
    ∃ p : Piece, p.print = cs.map some := by
  cases h with
  | plain c hquote hslash hplain =>
    exact ⟨.plain (some c) (by simp [isPlain, hquote, hslash, hplain]), rfl⟩
  | letter c hc =>
    obtain ⟨e, rfl⟩ := exists_letter_of_mem hc
    exact ⟨.escape e, rfl⟩
  | digits a b c d h =>
    exact ⟨.unit ⟨a, h a (by simp)⟩ ⟨b, h b (by simp)⟩ ⟨c, h c (by simp)⟩ ⟨d, h d (by simp)⟩, rfl⟩

theorem IsString.exists_literal {cs : List Char} (h : IsString cs) :
    ∃ ps : Literal, some '"' :: Literal.print ps = cs.map some := by
  obtain ⟨inner, hinner, rfl⟩ := h
  induction hinner with
  | nil => exact ⟨[], rfl⟩
  | @cons piece inner hpiece _ ih =>
    obtain ⟨ps, hps⟩ := ih
    obtain ⟨p, hp⟩ := hpiece.exists_piece
    refine ⟨p :: ps, ?_⟩
    rw [Literal.print_cons, hp, (List.cons.inj hps).2, ← List.map_append, List.append_assoc]
    rfl

theorem IsKey.exists_key {cs : List Char} (h : IsKey cs) :
    ∃ key : Key, key.print = cs.map some := by
  obtain ⟨before, name, after, hbefore, hname, hafter, rfl⟩ := h
  obtain ⟨b, hb⟩ := hbefore.exists_gap
  obtain ⟨ps, hps⟩ := hname.exists_literal
  obtain ⟨a, ha⟩ := hafter.exists_gap
  exact ⟨⟨b, ps, a⟩, by simp [Key.print, hb, ha, ← hps]⟩

/-- What is spelled is the print of a tree. -/
theorem Spells.exists_tree {s : Shape} {cs : List Char} (h : Spells s cs) :
    ∃ t : Tree s, t.print = cs.map some := by
  induction h with
  | null => exact ⟨.null, rfl⟩
  | true => exact ⟨.bool Bool.true, rfl⟩
  | false => exact ⟨.bool Bool.false, rfl⟩
  | number h => exact ⟨.number ⟨_, isSome_ofLexeme?_iff.2 h⟩, rfl⟩
  | string h =>
    obtain ⟨ps, hps⟩ := h.exists_literal
    exact ⟨.string ps, hps⟩
  | emptyArray h =>
    obtain ⟨gap, hgap⟩ := h.exists_gap
    exact ⟨.emptyArray gap, by simp [Tree.print, hgap]⟩
  | array _ ih =>
    obtain ⟨items, hitems⟩ := ih
    exact ⟨.array items, by simp [Tree.print, hitems]⟩
  | emptyObject h =>
    obtain ⟨gap, hgap⟩ := h.exists_gap
    exact ⟨.emptyObject gap, by simp [Tree.print, hgap]⟩
  | object _ ih =>
    obtain ⟨members, hmembers⟩ := ih
    exact ⟨.object members, by simp [Tree.print, hmembers]⟩
  | lastItem hbefore _ hafter ih =>
    obtain ⟨b, hb⟩ := hbefore.exists_gap
    obtain ⟨v, hv⟩ := ih
    obtain ⟨a, ha⟩ := hafter.exists_gap
    exact ⟨.lastItem b v a, by simp [Tree.print, hb, hv, ha]⟩
  | item hbefore _ hafter _ ihv ihr =>
    obtain ⟨b, hb⟩ := hbefore.exists_gap
    obtain ⟨v, hv⟩ := ihv
    obtain ⟨a, ha⟩ := hafter.exists_gap
    obtain ⟨rest, hrest⟩ := ihr
    exact ⟨.item b v a rest, by simp [Tree.print, hb, hv, ha, hrest]⟩
  | lastMember hkey hbefore _ hafter ih =>
    obtain ⟨key, hkey⟩ := hkey.exists_key
    obtain ⟨b, hb⟩ := hbefore.exists_gap
    obtain ⟨v, hv⟩ := ih
    obtain ⟨a, ha⟩ := hafter.exists_gap
    exact ⟨.lastMember key b v a, by simp [Tree.print, hkey, hb, hv, ha]⟩
  | member hkey hbefore _ hafter _ ihv ihr =>
    obtain ⟨key, hkey⟩ := hkey.exists_key
    obtain ⟨b, hb⟩ := hbefore.exists_gap
    obtain ⟨v, hv⟩ := ihv
    obtain ⟨a, ha⟩ := hafter.exists_gap
    obtain ⟨rest, hrest⟩ := ihr
    exact ⟨.member key b v a rest, by simp [Tree.print, hkey, hb, hv, ha, hrest]⟩

/-! ### Texts -/

/-- **A text spells what it is the print of a tree of.** -/
theorem spells_iff {s : Shape} {cs : List Char} :
    Spells s cs ↔ ∃ t : Tree s, t.print = cs.map some := by
  constructor
  · exact Spells.exists_tree
  · rintro ⟨t, ht⟩
    have htext : t.IsText := by rw [Tree.IsText, ht]; exact none_not_mem_map_some cs
    have := Tree.spells_characters htext
    rwa [ht, characters_map_some] at this

/-- **The texts that are read as documents are the JSON texts.** -/
theorem exists_ofText?_iff {text : String} :
    (∃ d, Document.ofText? text = some d) ↔ IsJsonText text.toList := by
  constructor
  · rintro ⟨d, hd⟩
    have hprint := Document.print_of_ofText? hd
    have hvalue := Tree.spells_characters (Document.isText_of_ofText? hd)
    refine ⟨_, _, _, d.before.isGap_characters, hvalue, d.after.isGap_characters, ?_⟩
    rw [← characters_append, ← characters_append, ← Document.print, ← hprint, characters_map_some]
  · rintro ⟨before, value, after, hbefore, hvalue, hafter, heq⟩
    obtain ⟨b, hb⟩ := hbefore.exists_gap
    obtain ⟨v, hv⟩ := hvalue.exists_tree
    obtain ⟨a, ha⟩ := hafter.exists_gap
    refine ⟨⟨b, v, a⟩, Document.parse?_eq_some_iff.2 ?_⟩
    rw [heq, List.map_append, List.map_append, Document.print, hb, hv, ha]

end HubConfig.Json
