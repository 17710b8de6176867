/-
**Slices of a text.**

A text is sliced at byte offsets, and there is a slice only where the offset stands between two
characters.  A character takes one byte to four, so what is cut at an offset depends on no more
characters than there are bytes before it.

Main definitions:

* `IsBoundary`: an offset between two characters, or at an end;
* `dropBytes?`: the characters behind a number of bytes;
* `findOffset?`: the offset of the first character of a kind.

Main results:

* `takeBytes?_eq_some_iff`, `dropBytes?_eq_some_iff`: **what a slice is**;
* `takeBytes?_take`: a slice of `n` bytes sees `n` characters at most;
* `dropBytes?_sub`: a slice at the end is one at the front of the text read backwards;
* `findOffset?_append`: the offset where a front ends.
-/

import HubConfig.Settings

set_option autoImplicit false

namespace HubConfig

/-! ### The length in bytes -/

theorem utf8Length_append (cs ds : List Char) :
    utf8Length (cs ++ ds) = utf8Length cs + utf8Length ds := by
  induction cs with
  | nil => rw [List.nil_append, utf8Length, Nat.zero_add]
  | cons c cs ih => rw [List.cons_append, utf8Length, utf8Length, ih, Nat.add_assoc]

theorem utf8Length_reverse (cs : List Char) : utf8Length cs.reverse = utf8Length cs := by
  induction cs with
  | nil => rfl
  | cons c cs ih =>
    rw [List.reverse_cons, utf8Length_append, ih, utf8Length, utf8Length, utf8Length, Nat.add_zero,
      Nat.add_comm]

/-- A text takes at least one byte for each character. -/
theorem length_le_utf8Length (cs : List Char) : cs.length ≤ utf8Length cs := by
  induction cs with
  | nil => exact Nat.zero_le _
  | cons c cs ih =>
    have hc := c.utf8Size_pos
    rw [List.length_cons, utf8Length]
    omega

theorem utf8Length_eq_zero_iff {cs : List Char} : utf8Length cs = 0 ↔ cs = [] := by
  constructor
  · intro h
    have hlen := length_le_utf8Length cs
    exact List.eq_nil_of_length_eq_zero (by omega)
  · rintro rfl
    rfl

/-! ### Slices at the front -/

section

variable {cs front back : List Char} {n : Nat}

@[simp] theorem takeBytes?_zero (cs : List Char) : takeBytes? 0 cs = some [] := by
  cases cs <;> rfl

theorem takeBytes?_append (front back : List Char) :
    takeBytes? (utf8Length front) (front ++ back) = some front := by
  induction front with
  | nil => exact takeBytes?_zero back
  | cons c front ih =>
    obtain ⟨m, hm⟩ := Nat.exists_eq_add_of_lt c.utf8Size_pos
    have hlen : utf8Length (c :: front) = m + utf8Length front + 1 := by
      rw [utf8Length]
      omega
    have hrest : m + utf8Length front + 1 - c.utf8Size = utf8Length front := by omega
    rw [List.cons_append, hlen, takeBytes?, if_pos (by omega), hrest, ih, Option.map_some]

/-- **A slice at the front is a prefix of so many bytes.** -/
theorem takeBytes?_eq_some_iff :
    takeBytes? n cs = some front ↔ front <+: cs ∧ utf8Length front = n := by
  constructor
  · intro h
    refine ⟨?_, utf8Length_of_takeBytes? h⟩
    induction cs generalizing n front with
    | nil => cases n <;> simp_all [takeBytes?]
    | cons c cs ih =>
      cases n with
      | zero =>
        cases h
        exact List.nil_prefix
      | succ n =>
        rw [takeBytes?] at h
        split at h
        · obtain ⟨rest, hrest, rfl⟩ := Option.map_eq_some_iff.1 h
          exact (List.prefix_cons_inj c).2 (ih hrest)
        · cases h
  · rintro ⟨⟨back, rfl⟩, rfl⟩
    exact takeBytes?_append front back

/-- A slice of `n` bytes sees `n` characters at most. -/
theorem takeBytes?_take {m : Nat} (h : n ≤ m) (cs : List Char) :
    takeBytes? n (cs.take m) = takeBytes? n cs := by
  induction cs generalizing n m with
  | nil => rw [List.take_nil]
  | cons c cs ih =>
    cases n with
    | zero => rw [takeBytes?_zero, takeBytes?_zero]
    | succ n =>
      obtain ⟨m, rfl⟩ : ∃ k, m = k + 1 := ⟨m - 1, by omega⟩
      have hc := c.utf8Size_pos
      rw [List.take_succ_cons, takeBytes?, takeBytes?, ih (by omega)]

/-! ### Boundaries -/

/-- An offset between two characters, or at an end. -/
def IsBoundary (cs : List Char) (n : Nat) : Prop :=
  ∃ front, front <+: cs ∧ utf8Length front = n

theorem isBoundary_iff : IsBoundary cs n ↔ (takeBytes? n cs).isSome = true := by
  simp only [IsBoundary, Option.isSome_iff_exists, takeBytes?_eq_some_iff]

instance (cs : List Char) (n : Nat) : Decidable (IsBoundary cs n) :=
  decidable_of_iff _ isBoundary_iff.symm

/-! ### Slices behind an offset -/

/-- The characters behind exactly `n` bytes. -/
def dropBytes? (n : Nat) (cs : List Char) : Option (List Char) :=
  (takeBytes? n cs).map fun front => cs.drop front.length

/-- **A slice behind an offset is what is left of the text.** -/
theorem dropBytes?_eq_some_iff :
    dropBytes? n cs = some back ↔ ∃ front, cs = front ++ back ∧ utf8Length front = n := by
  simp only [dropBytes?, Option.map_eq_some_iff, takeBytes?_eq_some_iff]
  constructor
  · rintro ⟨front, ⟨⟨rest, rfl⟩, hlen⟩, rfl⟩
    exact ⟨front, by rw [List.drop_left], hlen⟩
  · rintro ⟨front, rfl, hlen⟩
    exact ⟨front, ⟨List.prefix_append front back, hlen⟩, List.drop_left⟩

theorem dropBytes?_append (front back : List Char) :
    dropBytes? (utf8Length front) (front ++ back) = some back :=
  dropBytes?_eq_some_iff.2 ⟨front, rfl, rfl⟩

/-- A slice at the end is one at the front of the text read backwards. -/
theorem dropBytes?_sub (h : n ≤ utf8Length cs) :
    dropBytes? (utf8Length cs - n) cs = (takeBytes? n cs.reverse).map List.reverse := by
  refine Option.ext fun back => ?_
  simp only [dropBytes?_eq_some_iff, Option.map_eq_some_iff, takeBytes?_eq_some_iff]
  constructor
  · rintro ⟨front, rfl, hlen⟩
    rw [utf8Length_append] at h hlen
    refine ⟨back.reverse, ⟨?_, ?_⟩, List.reverse_reverse back⟩
    · rw [List.reverse_append]
      exact List.prefix_append _ _
    · rw [utf8Length_reverse]
      omega
  · rintro ⟨last, ⟨hpre, rfl⟩, rfl⟩
    obtain ⟨front, hcs⟩ := List.reverse_suffix.2 hpre
    rw [List.reverse_reverse] at hcs
    subst hcs
    refine ⟨front, rfl, ?_⟩
    rw [utf8Length_append, utf8Length_reverse]
    omega

end

/-! ### Offsets of characters -/

/-- The offset of the first character of a kind. -/
def findOffset? (p : Char → Bool) (cs : List Char) : Option Nat :=
  if cs.any p then some (utf8Length (cs.takeWhile fun c => !p c)) else none

/-- Behind a front without a character of the kind, one stands at the cut or nowhere. -/
theorem findOffset?_append {p : Char → Bool} {front back : List Char}
    (hfront : ∀ c ∈ front, p c = false) (hback : ∀ c ∈ back.head?, p c = true) :
    findOffset? p (front ++ back) = if back = [] then none else some (utf8Length front) := by
  cases back with
  | nil =>
    have hnone : front.any p = false :=
      List.any_eq_false.2 fun c hc => Bool.eq_false_iff.1 (hfront c hc)
    rw [findOffset?, List.append_nil, hnone]
    rfl
  | cons c back =>
    have hc := hback c rfl
    have hsome : (front ++ c :: back).any p = true :=
      List.any_eq_true.2 ⟨c, List.mem_append_right front List.mem_cons_self, hc⟩
    have htake : (front ++ c :: back).takeWhile (fun c => !p c) = front := by
      rw [List.takeWhile_append_of_pos fun c hc => by simp [hfront c hc],
        List.takeWhile_cons_of_neg (by simp [hc]), List.append_nil]
    rw [findOffset?, if_pos hsome, htake]
    rfl

end HubConfig
