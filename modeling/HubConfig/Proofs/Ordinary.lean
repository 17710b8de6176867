/-
**Values within the limits.**

Where a value is read for its meaning, three things can stand in the way beside its depth: a number
beyond all doubles, a literal that spells no text, and an object that begins with the reserved name.
A value without any of them is what it looks like.

Main definitions:

* `Tree.IsOrdinary`: values with none of the three;
* `Kind`: what a value looks like.

Main results:

* `Tree.exists_valueWith`: **what is ordinary and no deeper than allowed has a value**;
* `Tree.kind_of_value?`: and it is of its own kind.
-/

import HubConfig.Proofs.KnownFields

set_option autoImplicit false

namespace HubConfig.Json

/-! ### Values within the limits -/

/-- Numbers are in the range of doubles, literals spell texts, and no object begins with the name
that is reserved. -/
def Tree.IsOrdinary : {s : Shape} → Tree s → Prop
  | _, .number n => n.quantity?.isSome = true
  | _, .string s => s.text?.isSome = true
  | _, .array items => items.IsOrdinary
  | _, .object members => members.firstName.text? ≠ some embeddingName ∧ members.IsOrdinary
  | _, .lastItem _ v _ => v.IsOrdinary
  | _, .item _ v _ rest => v.IsOrdinary ∧ rest.IsOrdinary
  | _, .lastMember key _ v _ => key.name.text?.isSome = true ∧ v.IsOrdinary
  | _, .member key _ v _ rest => key.name.text?.isSome = true ∧ v.IsOrdinary ∧ rest.IsOrdinary
  | _, _ => True

/-- An integer as it is written is ordinary. -/
theorem Tree.isOrdinary_ofInt {i : Int} (hlow : -0x8000000000000000 ≤ i)
    (hhigh : i < 0x10000000000000000) : (Tree.ofInt i).IsOrdinary := by
  rw [ofInt, IsOrdinary, Number.quantity?_ofInt hlow hhigh]
  rfl

/-- **What is ordinary and no deeper than allowed has a value.** -/
theorem Tree.exists_valueWith {embedded : String → Option Value} {s : Shape} {t : Tree s}
    {nesting : Nat} (h : t.IsOrdinary) (hdepth : t.depth ≤ nesting) :
    ∃ v, t.valueWith embedded nesting = some v := by
  induction t generalizing nesting with
  | null => exact ⟨.null, by rw [valueWith]⟩
  | bool b => exact ⟨.bool b, by rw [valueWith]⟩
  | number n => exact ⟨.number n, by rw [valueWith]; exact if_pos h⟩
  | string s =>
    obtain ⟨text, htext⟩ := Option.isSome_iff_exists.1 h
    exact ⟨.string text, by rw [valueWith, htext]; rfl⟩
  | emptyArray gap =>
    obtain ⟨n, rfl⟩ := Nat.exists_eq_add_of_le' hdepth
    exact ⟨.array [], rfl⟩
  | array items ih =>
    obtain ⟨n, rfl⟩ := Nat.exists_eq_add_of_le' (Nat.le_trans (Nat.le_add_left 1 _) hdepth)
    obtain ⟨vs, hvs⟩ := ih h (Nat.le_of_succ_le_succ hdepth)
    exact ⟨.array vs, by rw [valueWith, hvs]; rfl⟩
  | emptyObject gap =>
    obtain ⟨n, rfl⟩ := Nat.exists_eq_add_of_le' hdepth
    exact ⟨.object [], rfl⟩
  | object members ih =>
    obtain ⟨n, rfl⟩ := Nat.exists_eq_add_of_le' (Nat.le_trans (Nat.le_add_left 1 _) hdepth)
    obtain ⟨vs, hvs⟩ := ih h.2 (Nat.le_of_succ_le_succ hdepth)
    exact ⟨.object vs, by rw [valueWith, if_neg h.1, hvs]; rfl⟩
  | lastItem before t after ih =>
    obtain ⟨v, hv⟩ := ih h hdepth
    exact ⟨[v], by rw [valueWith, hv]; rfl⟩
  | item before t after rest iht ihr =>
    obtain ⟨hd, hd'⟩ := Nat.max_le.1 hdepth
    obtain ⟨v, hv⟩ := iht h.1 hd
    obtain ⟨vs, hvs⟩ := ihr h.2 hd'
    exact ⟨v :: vs, by rw [valueWith, hv, hvs]; rfl⟩
  | lastMember key before t after ih =>
    obtain ⟨name, hname⟩ := Option.isSome_iff_exists.1 h.1
    obtain ⟨v, hv⟩ := ih h.2 hdepth
    exact ⟨[(name, v)], by rw [valueWith, hname, hv]; rfl⟩
  | member key before t after rest iht ihr =>
    obtain ⟨name, hname⟩ := Option.isSome_iff_exists.1 h.1
    obtain ⟨hd, hd'⟩ := Nat.max_le.1 hdepth
    obtain ⟨v, hv⟩ := iht h.2.1 hd
    obtain ⟨vs, hvs⟩ := ihr h.2.2 hd'
    exact ⟨(name, v) :: vs, by rw [valueWith, hname, hv, hvs]; rfl⟩

/-- The names of an ordinary object are texts, and its values are ordinary. -/
theorem Tree.isOrdinary_pairs : (t : Tree .members) → t.IsOrdinary →
    ∀ m ∈ t.pairs, (∃ name, m.1.text? = some name) ∧ m.2.IsOrdinary
  | .lastMember key before v after, h => by
    intro m hm
    rw [pairs, List.mem_singleton] at hm
    subst hm
    exact ⟨Option.isSome_iff_exists.1 h.1, h.2⟩
  | .member key before v after rest, h => by
    intro m hm
    rcases List.mem_cons.1 hm with rfl | hm
    · exact ⟨Option.isSome_iff_exists.1 h.1, h.2.1⟩
    · exact rest.isOrdinary_pairs h.2.2 m hm

theorem Tree.IsOrdinary.of_members? {t : Tree .value} {ms : List Member} (h : t.IsOrdinary)
    (hms : t.members? = some ms) :
    ∀ m ∈ ms, (∃ name, m.1.text? = some name) ∧ m.2.IsOrdinary := by
  cases t with
  | emptyObject gap =>
    cases hms
    exact nofun
  | object members =>
    cases hms
    exact members.isOrdinary_pairs h.2
  | _ => cases hms

/-! ### Kinds of values -/

/-- What kind of value a tree is. -/
inductive Kind
  | null
  | bool
  | number
  | string
  | array
  | object
  deriving DecidableEq

/-- The kind of a tree. -/
def Tree.kind : Tree .value → Kind
  | .null => .null
  | .bool _ => .bool
  | .number _ => .number
  | .string _ => .string
  | .emptyArray _ => .array
  | .array _ => .array
  | .emptyObject _ => .object
  | .object _ => .object

/-- The kind of a value. -/
def Value.kind : Value → Kind
  | .null => .null
  | .bool _ => .bool
  | .number _ => .number
  | .string _ => .string
  | .array _ => .array
  | .object _ => .object

/-- What is ordinary has a value of its own kind. -/
theorem Tree.kind_of_value? {nesting : Nat} {t : Tree .value} {v : Value} (h : t.IsOrdinary)
    (hv : t.value? nesting = some v) : v.kind = t.kind := by
  rw [value?] at hv
  cases t with
  | null | bool b =>
    rw [valueWith] at hv
    cases hv
    rfl
  | number n =>
    rw [valueWith] at hv
    split at hv
    · cases hv
      rfl
    · cases hv
  | string s =>
    rw [valueWith] at hv
    obtain ⟨_, -, rfl⟩ := Option.map_eq_some_iff.1 hv
    rfl
  | emptyArray gap | emptyObject gap =>
    cases nesting with
    | zero => cases hv
    | succ n =>
      cases hv
      rfl
  | array items =>
    cases nesting with
    | zero => cases hv
    | succ n =>
      obtain ⟨_, -, rfl⟩ := Option.map_eq_some_iff.1 hv
      rfl
  | object members =>
    cases nesting with
    | zero => cases hv
    | succ n =>
      -- The reserved name would make it a value of any kind.
      rw [valueWith, if_neg h.1] at hv
      obtain ⟨_, -, rfl⟩ := Option.map_eq_some_iff.1 hv
      rfl

end HubConfig.Json
