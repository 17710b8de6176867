/-
**Documents that this library writes.**

A document is written as a tree without gaps, whose names and texts are spelled with as few escapes
as may be.  Such a tree holds no stray byte, and it is read as the fields, the map, the number or
the text that it was made of.

Main results:

* `Tree.isText_ofMembers`: an object is free of stray bytes if its parts are;
* `Tree.fields?_ofMembers`: **a written record has the fields it was made of**;
* `Tree.keyMap?_ofKeyMap`, `labelsOfValue_textValues`: a written map reads back, entry by entry and
  as labels;
* `Tree.value?_ofKeyMap`: its value, unless its first key is the reserved name;
* `KeyMap.toList_ofList`: entries in order are a map's own.
-/

import HubConfig.Proofs.Source

set_option autoImplicit false

namespace HubConfig

/-! ### Maps in order -/

namespace KeyMap

/-- The least key of a map. -/
def firstKey? {α : Type} (m : KeyMap α) : Option String := m.toList.head?.map Prod.fst

/-- Entries in order are a map's own. -/
theorem toList_ofList {α : Type} {es : List (String × α)}
    (h : es.Pairwise fun a b => a.1 < b.1) : (ofList es).toList = es :=
  toList_foldl_insert ∅ h

end KeyMap

namespace Json

open HubConfig.Text

/-! ### No stray bytes -/

theorem Piece.none_not_mem_print_ofChar (c : Char) : none ∉ (Piece.ofChar c).print := by
  rw [Piece.ofChar]
  split
  · simp [Piece.print]
  · split <;> simp [Piece.print]

theorem Literal.none_not_mem_print_ofText (s : String) : none ∉ Literal.print (ofText s) := by
  have key : ∀ cs : List Char, none ∉ Literal.print (Literal.ofCharacters cs) := by
    intro cs
    induction cs with
    | nil => simp [Literal.ofCharacters]
    | cons c cs ih =>
      intro h
      rcases List.mem_append.1 h with h | h
      · exact Piece.none_not_mem_print_ofChar c h
      · exact ih h
  exact key s.toList

theorem Tree.isText_ofText (s : String) : (Tree.ofText s).IsText := by
  intro h
  rcases List.mem_cons.1 h with h | h
  · cases h
  · exact Literal.none_not_mem_print_ofText s h

theorem Tree.isText_ofInt (i : Int) : (Tree.ofInt i).IsText :=
  none_not_mem_map_some (decimal i)

theorem Key.none_not_mem_print (name : String) :
    none ∉ Key.print ⟨[], Literal.ofText name, []⟩ := by
  have := Literal.none_not_mem_print_ofText name
  simp [Key.print, this]

theorem Tree.isText_membersOf (name : String) {v : Tree .value} {ms : List Field}
    (hv : v.IsText) (hms : ∀ m ∈ ms, m.2.IsText) : (Tree.membersOf name v ms).IsText := by
  induction ms generalizing name v with
  | nil =>
    have hk := Key.none_not_mem_print name
    rw [Tree.IsText] at hv ⊢
    simp [Tree.membersOf, Tree.print, hk, hv]
  | cons m ms ih =>
    have hk := Key.none_not_mem_print name
    have hrest := ih m.1 (hms m (by simp)) fun n hn => hms n (by simp [hn])
    rw [Tree.IsText] at hv hrest ⊢
    simp [Tree.membersOf, Tree.print, hk, hv, hrest]

/-- An object is free of stray bytes if its parts are. -/
theorem Tree.isText_ofMembers {ms : List Field} (h : ∀ m ∈ ms, m.2.IsText) :
    (Tree.ofMembers ms).IsText := by
  cases ms with
  | nil => simp [Tree.IsText, Tree.ofMembers, Tree.print]
  | cons m ms =>
    have hrest : ∀ n ∈ ms, n.2.IsText := fun n hn => h n (List.mem_cons_of_mem m hn)
    have hm := Tree.isText_membersOf m.1 (h m (by simp)) hrest
    rw [Tree.IsText] at hm ⊢
    simp [Tree.ofMembers, Tree.print, hm]

theorem Tree.isText_ofKeyMap (m : KeyMap String) : (Tree.ofKeyMap m).IsText := by
  refine Tree.isText_ofMembers fun f hf => ?_
  obtain ⟨e, -, rfl⟩ := List.mem_map.1 hf
  exact Tree.isText_ofText e.2

/-! ### Records -/

theorem Tree.named?_membersOf (name : String) (v : Tree .value) (ms : List Field) :
    (Tree.membersOf name v ms).named? = some ((name, v) :: ms) := by
  induction ms generalizing name v with
  | nil => simp [Tree.membersOf, Tree.named?, Literal.text?_ofText]
  | cons m ms ih => simp [Tree.membersOf, Tree.named?, Literal.text?_ofText, ih]

theorem Tree.entries?_ofMembers (ms : List Field) : (Tree.ofMembers ms).entries? = some ms := by
  cases ms with
  | nil => rfl
  | cons m ms => exact Tree.named?_membersOf m.1 m.2 ms

/-- **A written record has the fields it was made of**, if they are known and differ. -/
theorem Tree.fields?_ofMembers {known : List String} {ms : List Field}
    (hknown : ∀ m ∈ ms, m.1 ∈ known) (hdistinct : distinctNames ms = true) :
    (Tree.ofMembers ms).fields? known = some ms := by
  cases ms with
  | nil => rfl
  | cons m ms =>
    have hall : (m :: ms).filter (fun f => known.contains f.1) = m :: ms := by
      refine List.filter_eq_self.2 fun f hf => ?_
      exact List.contains_iff_mem.2 (hknown f hf)
    have hnamed := Tree.named?_membersOf m.1 m.2 ms
    simp only [Tree.ofMembers, Tree.fields?, hnamed, Option.bind_eq_bind, Option.bind_some, hall,
      hdistinct, if_true]

theorem Tree.optional?_ofMembers {α : Type} (read : Tree .value → Option α) (ms : List Field) :
    (Tree.ofMembers ms).optional? read = (read (Tree.ofMembers ms)).map some := by
  cases ms <;> rfl

/-! ### Maps -/

/-- Entries whose values are texts, as they are written. -/
def textFields (es : List (String × String)) : List Field := es.map fun e => (e.1, Tree.ofText e.2)

/-- Entries whose values are texts, as values. -/
def textValues (es : List (String × String)) : List (String × Value) :=
  es.map fun e => (e.1, Value.string e.2)

theorem Tree.text?_ofText (s : String) : (Tree.ofText s).text? = some s := Literal.text?_ofText s

theorem readEntries?_textFields (es : List (String × String)) :
    readEntries? Tree.text? (textFields es) = some es := by
  induction es with
  | nil => rfl
  | cons e es ih =>
    rw [textFields] at ih
    simp only [textFields, List.map_cons, readEntries?, Tree.text?_ofText, ih,
      Option.bind_eq_bind, Option.bind_some]

/-- A written map reads back. -/
theorem Tree.keyMap?_ofKeyMap (m : KeyMap String) :
    (Tree.ofKeyMap m).keyMap? Tree.text? = some m := by
  have hentries := Tree.entries?_ofMembers (textFields m.toList)
  rw [textFields] at hentries
  have hread := readEntries?_textFields m.toList
  rw [textFields] at hread
  simp only [Tree.keyMap?, Tree.ofKeyMap, hentries, hread, Option.bind_eq_bind, Option.bind_some,
    KeyMap.ofList_toList]

theorem Tree.valueWith_membersOf (embedded : String → Option Value) (nesting : Nat)
    (name text : String) (es : List (String × String)) :
    (Tree.membersOf name (.ofText text) (textFields es)).valueWith embedded nesting =
      some ((name, .string text) :: textValues es) := by
  induction es generalizing name text with
  | nil =>
    simp [textFields, textValues, Tree.membersOf, Tree.valueWith, Tree.ofText,
      Literal.text?_ofText]
  | cons e es ih =>
    have ih := ih e.1 e.2
    simp only [textFields, Tree.ofText] at ih
    simp [textFields, textValues, Tree.membersOf, Tree.valueWith, Tree.ofText,
      Literal.text?_ofText, ih]

theorem Tree.firstName_membersOf (name : String) (v : Tree .value) (ms : List Field) :
    (Tree.membersOf name v ms).firstName = Literal.ofText name := by
  cases ms <;> rfl

/-- The value of a written map, unless its first key is the reserved name. -/
theorem Tree.value?_ofKeyMap {m : KeyMap String} {nesting : Nat}
    (h : m.firstKey? ≠ some embeddingName) :
    (Tree.ofKeyMap m).value? (nesting + 1) = some (.object (textValues m.toList)) := by
  rw [Tree.value?]
  generalize (Tree.ofKeyMap m).print.length = levels
  rw [Tree.ofKeyMap]
  cases hes : m.toList with
  | nil => rfl
  | cons e es =>
    have hfirst : ¬ (Literal.ofText e.1).text? = some embeddingName := by
      rw [Literal.text?_ofText]
      rwa [KeyMap.firstKey?, hes] at h
    have hrest := Tree.valueWith_membersOf (embeddedValue? levels) nesting e.1 e.2 es
    rw [textFields] at hrest
    simp only [List.map_cons, Tree.ofMembers, Tree.valueWith, Tree.firstName_membersOf,
      if_neg hfirst, hrest, Option.map_some, textValues]

/-- The labels that a written map carries are its entries. -/
theorem labelsOfValue_textValues (m : KeyMap String) :
    labelsOfValue (.object (textValues m.toList)) = m := by
  have hsorted : (textValues m.toList).Pairwise fun a b => a.1 < b.1 := by
    rw [textValues, List.pairwise_map]
    exact m.sorted
  refine KeyMap.toList_inj.1 ?_
  rw [labelsOfValue, KeyMap.toList_filterMap, KeyMap.toList_ofList hsorted, textValues,
    List.filterMap_map]
  have hid : ((fun e : String × Value => (textOfValue? e.2).map (e.1, ·)) ∘
      fun e : String × String => (e.1, Value.string e.2)) = some := rfl
  rw [hid, List.filterMap_some]

/-! ### Numbers -/

/-- The value of a written number of thirty-two bits. -/
theorem Tree.value?_ofInt (nesting : Nat) (i : Int32) :
    (Tree.ofInt i.toInt).value? nesting = some (.number (Number.ofInt i.toInt)) := by
  have h1 := i.le_toInt
  have h2 := i.toInt_lt
  have hq := Number.quantity?_ofInt (i := i.toInt) (by omega) (by omega)
  simp [Tree.value?, Tree.ofInt, Tree.valueWith, hq]

/-- A written priority reads back. -/
theorem priorityOfValue_ofInt (i : Int32) :
    priorityOfValue (.number (Number.ofInt i.toInt)) = i := by
  have h1 := i.le_toInt
  have h2 := i.toInt_lt
  rw [priorityOfValue, Number.integer?_ofInt (by omega) (by omega), Option.map_some,
    Option.getD_some]
  exact Int32.toInt_inj.1 (boundedInt32_of_mem (by omega) (by omega))

end Json

end HubConfig
