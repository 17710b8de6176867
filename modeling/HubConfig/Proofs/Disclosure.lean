/-
**What a shown secret gives away.**

A secret is measured in bytes.  If it takes twelve of them or more, and its first three and its last
three are whole characters, then these are shown, and nothing else ever is.  A secret of a few
characters that take several bytes each may be among those that are shown.

Main definitions:

* `slicedRedaction?`: a secret as it is shown, by slices that might fail;
* `IsShownInPart`: a secret whose ends are shown.

Main results:

* `isShownInPart_iff`: such a secret by its parts;
* `slicedRedaction?_eq`: **no slice fails**;
* `redactCharacters_eq_of_ends`: **of a long secret only three characters at each end count**;
* `redact_disclosure`: all that is shown of a secret.
-/

import HubConfig.Proofs.Slices
import Mathlib.Data.List.DropRight

set_option autoImplicit false

namespace HubConfig

/-- A secret as it is shown, by slices at byte offsets that might fail. -/
def slicedRedaction? (cs : List Char) : Option (List Char) :=
  let length := utf8Length cs
  if length = 0 then some "EMPTY".toList
  else if length < 12 ∨ ¬IsBoundary cs 3 ∨ ¬IsBoundary cs (length - 3) then some "***".toList
  else do
    let first ← takeBytes? 3 cs
    let last ← dropBytes? (length - 3) cs
    some (first ++ "***".toList ++ last)

/-- A secret whose ends are shown: it is long enough in bytes, and three bytes from either end
stands a boundary. -/
structure IsShownInPart (cs : List Char) : Prop where
  long : 12 ≤ utf8Length cs
  front : IsBoundary cs 3
  back : IsBoundary cs (utf8Length cs - 3)

/-! ### The parts of a secret -/

section

variable {cs ds first middle last : List Char}

/-- Of two fronts of a text the one that takes fewer bytes is a front of the other. -/
theorem prefix_of_utf8Length_lt {front front' : List Char} (h : front <+: cs) (h' : front' <+: cs)
    (hlt : utf8Length front < utf8Length front') : front <+: front' := by
  rcases List.prefix_or_prefix_of_prefix h h' with hpre | ⟨rest, rfl⟩
  · exact hpre
  · rw [utf8Length_append] at hlt
    omega

/-- **A secret whose ends are shown, by its parts.** -/
theorem isShownInPart_iff :
    IsShownInPart cs ↔ 12 ≤ utf8Length cs ∧ ∃ first middle last,
      cs = first ++ middle ++ last ∧ utf8Length first = 3 ∧ utf8Length last = 3 := by
  constructor
  · rintro ⟨hlong, ⟨first, hfirst, hthree⟩, ⟨body, hbody, hlen⟩⟩
    obtain ⟨middle, rfl⟩ := prefix_of_utf8Length_lt hfirst hbody (by omega)
    obtain ⟨last, rfl⟩ := hbody
    refine ⟨hlong, first, middle, last, rfl, hthree, ?_⟩
    simp only [utf8Length_append] at hlong hlen
    omega
  · rintro ⟨hlong, first, middle, last, rfl, hfirst, hlast⟩
    refine ⟨hlong, ⟨first, ?_, hfirst⟩, ⟨first ++ middle, List.prefix_append _ _, ?_⟩⟩
    · rw [List.append_assoc]
      exact List.prefix_append _ _
    · simp only [utf8Length_append, hlast, Nat.add_sub_cancel]

theorem takeBytes?_first (hfirst : utf8Length first = 3) :
    takeBytes? 3 (first ++ middle ++ last) = some first := by
  rw [← hfirst, List.append_assoc]
  exact takeBytes?_append first (middle ++ last)

/-- Of the parts, the first and the last are shown. -/
theorem redactCharacters_of_parts (hlong : 12 ≤ utf8Length (first ++ middle ++ last))
    (hfirst : utf8Length first = 3) (hlast : utf8Length last = 3) :
    redactCharacters (first ++ middle ++ last) = first ++ "***".toList ++ last := by
  have hne : first ++ middle ++ last ≠ [] := by
    intro h
    rw [h, utf8Length] at hlong
    omega
  have hback : takeBytes? 3 (first ++ middle ++ last).reverse = some last.reverse := by
    rw [← hlast, ← utf8Length_reverse last, List.reverse_append]
    exact takeBytes?_append last.reverse (first ++ middle).reverse
  rw [redactCharacters, if_neg hne, if_neg (by omega), takeBytes?_first hfirst, hback]
  simp only [List.reverse_reverse]
  rfl

/-- A secret whose ends are not shown is hidden altogether. -/
theorem redactCharacters_of_not_isShownInPart (hne : cs ≠ []) (h : ¬IsShownInPart cs) :
    redactCharacters cs = "***".toList := by
  rw [redactCharacters, if_neg hne]
  split
  · rfl
  · next hlong =>
    split
    · next first last hfirst hlast =>
      -- Both slices are there, so that both offsets are boundaries.
      have hback : dropBytes? (utf8Length cs - 3) cs =
          (takeBytes? 3 cs.reverse).map List.reverse := dropBytes?_sub (by omega)
      rw [hlast, Option.map_some, dropBytes?_eq_some_iff] at hback
      obtain ⟨body, hcs, hlen⟩ := hback
      refine absurd ⟨by omega, ⟨first, takeBytes?_eq_some_iff.1 hfirst⟩, ⟨body, ?_, hlen⟩⟩ h
      exact ⟨last.reverse, hcs.symm⟩
    · rfl

/-- **No slice fails**, and they make up the secret as it is shown. -/
theorem slicedRedaction?_eq (cs : List Char) :
    slicedRedaction? cs = some (redactCharacters cs) := by
  rw [slicedRedaction?]
  split
  · next hzero =>
    rw [utf8Length_eq_zero_iff.1 hzero]
    rfl
  · next hpos =>
    have hne : cs ≠ [] := mt utf8Length_eq_zero_iff.2 hpos
    split
    · next hguard =>
      rw [redactCharacters_of_not_isShownInPart hne]
      rintro ⟨hlong, hfront, hback⟩
      rcases hguard with hshort | hnot | hnot
      · omega
      · exact hnot hfront
      · exact hnot hback
    · next hguard =>
      simp only [not_or, Nat.not_lt, Classical.not_not] at hguard
      obtain ⟨hlong, first, middle, last, rfl, hfirst, hlast⟩ :=
        isShownInPart_iff.1 ⟨hguard.1, hguard.2.1, hguard.2.2⟩
      have hback : dropBytes? (utf8Length (first ++ middle ++ last) - 3)
          (first ++ middle ++ last) = some last := by
        rw [utf8Length_append, hlast, Nat.add_sub_cancel]
        exact dropBytes?_append (first ++ middle) last
      rw [redactCharacters_of_parts hlong hfirst hlast, takeBytes?_first hfirst, hback]
      rfl

/-- Of a long secret only three characters at each end count. -/
theorem redactCharacters_eq_of_ends (hlong : 12 ≤ cs.length) (hlong' : 12 ≤ ds.length)
    (hfront : cs.take 3 = ds.take 3) (hback : cs.rtake 3 = ds.rtake 3) :
    redactCharacters cs = redactCharacters ds := by
  have hbytes := length_le_utf8Length cs
  have hbytes' := length_le_utf8Length ds
  have hne : cs ≠ [] := List.ne_nil_of_length_pos (by omega)
  have hne' : ds ≠ [] := List.ne_nil_of_length_pos (by omega)
  have hfirst : takeBytes? 3 cs = takeBytes? 3 ds := by
    rw [← takeBytes?_take (Nat.le_refl 3), hfront, takeBytes?_take (Nat.le_refl 3)]
  have hlast : takeBytes? 3 cs.reverse = takeBytes? 3 ds.reverse := by
    rw [List.rtake_eq_reverse_take_reverse, List.rtake_eq_reverse_take_reverse,
      List.reverse_inj] at hback
    rw [← takeBytes?_take (Nat.le_refl 3), hback, takeBytes?_take (Nat.le_refl 3)]
  rw [redactCharacters, redactCharacters, if_neg hne, if_neg hne', if_neg (by omega),
    if_neg (by omega), hfirst, hlast]

end

/-! ### Secrets -/

/-- **All that is shown of a secret.**  No slice fails; an empty secret is named as one; any other
is hidden altogether exactly if its ends are not shown; what is shown of those are at most three
characters at each end; and no others count in a long secret. -/
theorem redact_disclosure (s : String) :
    slicedRedaction? s.toList = some (redact s).toList ∧
      (s = "" → redact s = "EMPTY") ∧
      (s ≠ "" → (redact s = "***" ↔ ¬IsShownInPart s.toList)) ∧
      (IsShownInPart s.toList → ∃ first middle last : List Char,
        s.toList = first ++ middle ++ last ∧ first.length ≤ 3 ∧ last.length ≤ 3 ∧
          (redact s).toList = first ++ "***".toList ++ last) ∧
      ∀ s' : String, 12 ≤ s.length → 12 ≤ s'.length → s.toList.take 3 = s'.toList.take 3 →
        s.toList.rtake 3 = s'.toList.rtake 3 → redact s = redact s' := by
  have hshown : IsShownInPart s.toList → ∃ first middle last : List Char,
      s.toList = first ++ middle ++ last ∧ utf8Length first = 3 ∧ utf8Length last = 3 ∧
        (redact s).toList = first ++ "***".toList ++ last := by
    intro h
    obtain ⟨hlong, first, middle, last, hs, hfirst, hlast⟩ := isShownInPart_iff.1 h
    refine ⟨first, middle, last, hs, hfirst, hlast, ?_⟩
    rw [redact, String.toList_ofList, hs,
      redactCharacters_of_parts (by rw [← hs]; exact hlong) hfirst hlast]
  refine ⟨?_, ?_, ?_, ?_, ?_⟩
  · rw [slicedRedaction?_eq, redact, String.toList_ofList]
  · rintro rfl
    rfl
  · intro hne
    have hchars : s.toList ≠ [] := fun h => hne (String.toList_eq_nil_iff.1 h)
    refine ⟨fun h hpart => ?_, fun hpart => ?_⟩
    · -- Something stands beside the stars.
      obtain ⟨first, middle, last, -, hfirst, hlast, hredact⟩ := hshown hpart
      have hlen := congrArg utf8Length hredact
      rw [h, utf8Length_append, utf8Length_append, hfirst, hlast] at hlen
      revert hlen
      decide
    · rw [redact, redactCharacters_of_not_isShownInPart hchars hpart, String.ofList_toList]
  · intro h
    obtain ⟨first, middle, last, hs, hfirst, hlast, hredact⟩ := hshown h
    have hlen := length_le_utf8Length first
    have hlen' := length_le_utf8Length last
    exact ⟨first, middle, last, hs, by omega, by omega, hredact⟩
  · intro s' hlong hlong' hfront hback
    rw [redact, redact, redactCharacters_eq_of_ends hlong hlong' hfront hback]

theorem redact_disclosure_sample :
    redact "pässwörd123" ≠ "***" ∧ redact "pässchen-mit-tür" = redact "pässe vor der tür" := by
  obtain ⟨-, -, hhidden, -, -⟩ := redact_disclosure "pässwörd123"
  obtain ⟨-, -, -, -, hsame⟩ := redact_disclosure "pässchen-mit-tür"
  have hpart : IsShownInPart "pässwörd123".toList := ⟨by decide, by decide, by decide⟩
  refine ⟨fun h => (hhidden (by decide)).1 h hpart, ?_⟩
  exact hsame "pässe vor der tür" (by decide) (by decide) (by decide) (by decide)

/-- A secret of fewer than twelve characters is not always hidden. -/
theorem short_not_always_hidden :
    ¬∀ s : String, s ≠ "" → s.length < 12 → redact s = "***" := by
  intro h
  have hredact := h "pässwörd123" (by decide) (by decide)
  revert hredact
  decide

end HubConfig
