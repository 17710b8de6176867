/-
**Trees and their source texts.**

A tree in which no stray byte stands has a text, and the text determines the tree: it begins and
ends with a character that is no blank, so a document that holds the tree is its text with blanks
around it.

Main definitions:

* `Tree.IsText`: no stray byte stands in a tree;
* `strip`: a text without the blanks of the grammar around it.

Main results:

* `Document.ofText?_text`: **the text of a tree is a document that holds this tree alone**;
* `Tree.text_eq_strip`: the text of the value of a document is the text without its blanks;
* `Tree.isWhiteSpace_head`: no value begins with white space.
-/

import HubConfig.Configuration.Decode
import HubConfig.Configuration.Encode

set_option autoImplicit false

namespace HubConfig.Json

open HubConfig.Text

/-! ### Glyphs that are characters -/

theorem map_some_filterMap {gs : List Glyph} (h : none ∉ gs) :
    (gs.filterMap fun g => g).map some = gs := by
  induction gs with
  | nil => rfl
  | cons g gs ih =>
    rw [List.mem_cons, not_or] at h
    cases g with
    | none => exact absurd rfl h.1
    | some c =>
      change some c :: (gs.filterMap fun g => g).map some = some c :: gs
      rw [ih h.2]

theorem none_not_mem_map_some (cs : List Char) : none ∉ cs.map some := by simp

/-- No stray byte stands in a text written in bytes. -/
theorem none_not_mem_ofBytes_utf8Bytes (cs : List Char) : none ∉ Glyph.ofBytes (utf8Bytes cs) := by
  rw [Glyph.ofBytes_utf8Bytes]
  exact none_not_mem_map_some cs

/-- No stray byte stands in a tree. -/
def Tree.IsText {s : Shape} (t : Tree s) : Prop := none ∉ t.print

theorem Tree.map_some_text {t : Tree .value} (h : t.IsText) : t.text.toList.map some = t.print := by
  rw [Tree.text, String.toList_ofList]
  exact map_some_filterMap h

theorem Tree.source?_eq_some_iff {t : Tree .value} {s : String} :
    t.source? = some s ↔ t.IsText ∧ s = t.text := by
  constructor
  · intro h
    obtain ⟨cs, hcs, rfl⟩ := Option.map_eq_some_iff.1 h
    have hp : t.print = cs.map some := Glyph.characters?_eq_some_iff.1 hcs
    have ht : t.IsText := by rw [Tree.IsText, hp]; exact none_not_mem_map_some cs
    refine ⟨ht, ?_⟩
    have hcs : (cs.map some).filterMap (fun g => g) = cs := by
      rw [List.filterMap_map]
      exact List.filterMap_some
    rw [Tree.text, hp, hcs]
  · rintro ⟨h, rfl⟩
    rw [Tree.source?, ← Tree.map_some_text h, Glyph.characters?_map_some, Option.map_some,
      String.ofList_toList]

theorem Tree.source?_of_isText {t : Tree .value} (h : t.IsText) : t.source? = some t.text :=
  Tree.source?_eq_some_iff.2 ⟨h, rfl⟩

/-! ### The first and the last character -/

theorem isWhiteSpace_of_isNumberChar {c : Char} (h : isNumberChar c = true) :
    isWhiteSpace c = false := by
  simp only [isNumberChar, Bool.or_eq_true, beq_iff_eq] at h
  rcases h with ((((h | rfl) | rfl) | rfl) | rfl) | rfl
  · simp only [Char.isDigit, Bool.and_eq_true, decide_eq_true_eq, UInt32.le_iff_toNat_le] at h
    have hn : c.toNat = c.val.toNat := rfl
    simp only [isWhiteSpace, Bool.or_eq_false_iff, Bool.and_eq_false_iff, beq_eq_false_iff_ne,
      decide_eq_false_iff_not, hn]
    simp at h
    omega
  all_goals decide

/-- **No value begins with white space** of any kind. -/
theorem Tree.isWhiteSpace_head (t : Tree .value) :
    ∃ c gs, t.print = some c :: gs ∧ isWhiteSpace c = false := by
  cases t with
  | null => exact ⟨'n', _, rfl, by decide⟩
  | bool b => cases b <;> exact ⟨_, _, rfl, by decide⟩
  | number n =>
    obtain ⟨c, gs, hc, h⟩ := n.exists_print_eq_cons
    exact ⟨c, gs, h, isWhiteSpace_of_isNumberChar hc⟩
  | string s => exact ⟨'"', _, rfl, by decide⟩
  | emptyArray gap => exact ⟨'[', _, rfl, by decide⟩
  | array items => exact ⟨'[', _, rfl, by decide⟩
  | emptyObject gap => exact ⟨'{', _, rfl, by decide⟩
  | object members => exact ⟨'{', _, rfl, by decide⟩

theorem Literal.exists_print_eq_concat (ps : Literal) :
    ∃ gs, Literal.print ps = gs ++ [some '"'] := by
  induction ps with
  | nil => exact ⟨[], rfl⟩
  | cons p ps ih =>
    obtain ⟨gs, h⟩ := ih
    exact ⟨p.print ++ gs, by rw [Literal.print_cons, h, List.append_assoc]⟩

theorem Number.exists_print_eq_concat (n : Number) :
    ∃ c gs, isNumberChar c = true ∧ n.print = gs ++ [some c] := by
  have hne : n.lexeme ≠ [] := fun h => n.print_ne_nil (by rw [Number.print, h]; rfl)
  have hsplit := List.dropLast_concat_getLast hne
  refine ⟨n.lexeme.getLast hne, n.lexeme.dropLast.map some,
    n.isNumberChar_of_mem (List.getLast_mem hne), ?_⟩
  rw [Number.print, ← List.map_singleton, ← List.map_append, hsplit]

/-- A value ends with a character that is no white space. -/
theorem Tree.isWhiteSpace_last (t : Tree .value) :
    ∃ c gs, t.print = gs ++ [some c] ∧ isWhiteSpace c = false := by
  cases t with
  | null => exact ⟨'l', [some 'n', some 'u', some 'l'], rfl, by decide⟩
  | bool b =>
    cases b with
    | true => exact ⟨'e', [some 't', some 'r', some 'u'], rfl, by decide⟩
    | false => exact ⟨'e', [some 'f', some 'a', some 'l', some 's'], rfl, by decide⟩
  | number n =>
    obtain ⟨c, gs, hc, h⟩ := n.exists_print_eq_concat
    exact ⟨c, gs, h, isWhiteSpace_of_isNumberChar hc⟩
  | string s =>
    obtain ⟨gs, h⟩ := Literal.exists_print_eq_concat s
    exact ⟨'"', some '"' :: gs, by rw [Tree.print, h]; rfl, by decide⟩
  | emptyArray gap => exact ⟨']', some '[' :: Gap.print gap, rfl, by decide⟩
  | array items => exact ⟨']', some '[' :: items.print, rfl, by decide⟩
  | emptyObject gap => exact ⟨'}', some '{' :: Gap.print gap, rfl, by decide⟩
  | object members => exact ⟨'}', some '{' :: members.print, rfl, by decide⟩

/-! ### Documents that hold a tree -/

/-- A document that holds nothing but a tree. -/
def Document.ofTree (t : Tree .value) : Document := ⟨[], t, []⟩

@[simp] theorem Document.print_ofTree (t : Tree .value) : (Document.ofTree t).print = t.print := by
  simp [Document.ofTree, Document.print]

theorem Document.parse?_print_tree (t : Tree .value) :
    Document.parse? t.print = some (Document.ofTree t) := by
  rw [← Document.print_ofTree, Document.parse?_print]

/-- **The text of a tree is a document that holds this tree alone.** -/
theorem Document.ofText?_text {t : Tree .value} (h : t.IsText) :
    Document.ofText? t.text = some (Document.ofTree t) := by
  rw [Document.ofText?, Tree.map_some_text h, Document.parse?_print_tree]

/-- A value is determined by its glyphs. -/
theorem Tree.print_injective {t u : Tree .value} (h : t.print = u.print) : t = u := by
  have ht := Document.parse?_print_tree t
  rw [h, Document.parse?_print_tree] at ht
  exact (congrArg Document.value (Option.some.inj ht)).symm

theorem Document.print_of_ofText? {s : String} {d : Document} (h : Document.ofText? s = some d) :
    s.toList.map some = d.print :=
  Document.eq_print_of_parse? h

theorem Document.isText_of_ofText? {s : String} {d : Document}
    (h : Document.ofText? s = some d) : d.value.IsText := by
  have hp := Document.print_of_ofText? h
  intro hmem
  refine none_not_mem_map_some s.toList ?_
  rw [hp, Document.print]
  exact List.mem_append_left _ (List.mem_append_right _ hmem)

/-! ### Texts without the blanks around them -/

/-- A blank of the grammar. -/
def isBlankChar (c : Char) : Bool := c == ' ' || c == '\t' || c == '\n' || c == '\r'

/-- A text without the blanks of the grammar around it. -/
def strip (s : String) : String :=
  String.ofList (((s.toList.dropWhile isBlankChar).reverse.dropWhile isBlankChar).reverse)

theorem isWhiteSpace_of_isBlankChar {c : Char} (h : isBlankChar c = true) :
    isWhiteSpace c = true := by
  simp only [isBlankChar, Bool.or_eq_true, beq_iff_eq] at h
  rcases h with ((rfl | rfl) | rfl) | rfl <;> decide

theorem Space.isBlankChar_char (s : Space) : isBlankChar s.char = true := by cases s <;> decide

/-- The characters of a gap. -/
theorem Gap.exists_print_eq_map (gap : Gap) :
    ∃ cs : List Char, Gap.print gap = cs.map some ∧ ∀ c ∈ cs, isBlankChar c = true := by
  refine ⟨gap.map Space.char, by simp [Gap.print], ?_⟩
  intro c hc
  obtain ⟨s, -, rfl⟩ := List.mem_map.1 hc
  exact s.isBlankChar_char

theorem dropWhile_append_of_all {p : Char → Bool} {bs cs : List Char}
    (hb : ∀ c ∈ bs, p c = true) (hc : ∀ c ∈ cs.head?, p c = false) :
    (bs ++ cs).dropWhile p = cs := by
  induction bs with
  | nil =>
    cases cs with
    | nil => rfl
    | cons c cs => simp [hc c rfl]
  | cons b bs ih =>
    rw [List.cons_append, List.dropWhile_cons_of_pos (hb b (by simp))]
    exact ih fun c h => hb c (by simp [h])

/-- Stripping takes away exactly the blanks around what begins and ends with none. -/
theorem strip_eq {s : String} {before cs after : List Char}
    (hs : s.toList = before ++ cs ++ after) (hb : ∀ c ∈ before, isBlankChar c = true)
    (ha : ∀ c ∈ after, isBlankChar c = true) (hhead : ∀ c ∈ cs.head?, isBlankChar c = false)
    (hlast : ∀ c ∈ cs.getLast?, isBlankChar c = false) (hne : cs ≠ []) :
    strip s = String.ofList cs := by
  have h1 : s.toList.dropWhile isBlankChar = cs ++ after := by
    rw [hs, List.append_assoc]
    refine dropWhile_append_of_all hb ?_
    rw [List.head?_append, List.head?_eq_some_head hne, Option.some_or,
      ← List.head?_eq_some_head hne]
    exact hhead
  have h2 : (cs ++ after).reverse.dropWhile isBlankChar = cs.reverse := by
    rw [List.reverse_append]
    refine dropWhile_append_of_all (fun c h => ha c (List.mem_reverse.1 h)) ?_
    rw [List.head?_reverse]
    exact hlast
  rw [strip, h1, h2, List.reverse_reverse]

/-- The text of the value of a document is the document's text without its blanks. -/
theorem Tree.text_eq_strip {s : String} {d : Document} (h : Document.ofText? s = some d) :
    d.value.text = strip s := by
  have ht := Tree.map_some_text (Document.isText_of_ofText? h)
  have hs := Document.print_of_ofText? h
  obtain ⟨before, hb, hbs⟩ := Gap.exists_print_eq_map d.before
  obtain ⟨after, ha, has⟩ := Gap.exists_print_eq_map d.after
  obtain ⟨c, gs, hc, hcw⟩ := d.value.isWhiteSpace_head
  obtain ⟨e, gs', he, hew⟩ := d.value.isWhiteSpace_last
  have solid : ∀ c : Char, isWhiteSpace c = false → isBlankChar c = false := by
    intro c hw
    refine Bool.eq_false_iff.2 fun hblank => ?_
    rw [isWhiteSpace_of_isBlankChar hblank] at hw
    cases hw
  have hlist : s.toList = before ++ d.value.text.toList ++ after := by
    refine (List.map_inj_right fun _ _ => Option.some.inj).1 ?_
    rw [List.map_append, List.map_append, ht, ← hb, ← ha]
    exact hs
  have hhead : ∀ a ∈ d.value.text.toList.head?, isBlankChar a = false := by
    intro a ha
    have hm : (d.value.text.toList.map some).head? = some (some a) := by
      rw [List.head?_map, ha]
      rfl
    rw [ht, hc] at hm
    cases hm
    exact solid _ hcw
  have hlast : ∀ a ∈ d.value.text.toList.getLast?, isBlankChar a = false := by
    intro a ha
    have hm : (d.value.text.toList.map some).getLast? = some (some a) := by
      rw [List.getLast?_map, ha]
      rfl
    rw [ht, he, List.getLast?_concat] at hm
    cases hm
    exact solid _ hew
  have hne : d.value.text.toList ≠ [] := by
    intro hnil
    rw [hnil, hc] at ht
    cases ht
  rw [strip_eq hlist hbs has hhead hlast hne, String.ofList_toList]

end HubConfig.Json
