/-
**Cutting and trimming texts.**

Three different sets of characters count as blank in this library, each where its own rule says so:
the Unicode property `White_Space` for what people write (connection strings, content text), the
four characters of the JSON grammar (`HubConfig.Json.Space`), and the ASCII set for a body that
holds nothing.

Main definitions:

* `splitFirst`: the parts before and after the first separator;
* `splitAll`: all the parts between separators, of which there is always at least one;
* `isWhiteSpace`: the Unicode property;
* `trimStart`, `trimEnd`, `trim`: a text without its outer white space;
* `IsBlank`, `IsTrimmed`: texts of which trimming leaves nothing, and of which it leaves all;
* `isAsciiBlank`: the ASCII set, on bytes.

Main results:

* `splitFirst_eq_some_iff`: the parts found are the text, and the first holds no separator;
* `splitFirst_eq_none_iff`: nothing is found exactly in a text without the separator;
* `splitAll_append_cons`: a separator after a part without one starts a new part;
* `splitAll_eq_splitOn`: these are the parts of the standard library;
* `trim_eq_nil_iff`: trimming leaves nothing exactly of a text that is all white space;
* `trim_surrounded`: white space around a text changes nothing of what trimming leaves;
* `trim_append_cons`: a character that stays cuts the work of trimming in two.
-/

import HubConfig.Text.Utf8

set_option autoImplicit false

namespace HubConfig.Text

/-! ### The first separator -/

/-- The parts of a text before and after its first separator. -/
def splitFirst (separator : Char) : List Char → Option (List Char × List Char)
  | [] => none
  | c :: cs =>
      if c = separator then some ([], cs)
      else (splitFirst separator cs).map fun parts => (c :: parts.1, parts.2)

@[simp] theorem splitFirst_nil (separator : Char) : splitFirst separator [] = none := rfl

theorem splitFirst_eq_some_iff {separator : Char} {cs before after : List Char} :
    splitFirst separator cs = some (before, after) ↔
      cs = before ++ separator :: after ∧ separator ∉ before := by
  induction cs generalizing before with
  | nil => simp
  | cons c cs ih =>
    by_cases hc : c = separator
    · subst hc
      cases before with
      | nil => simp [splitFirst, eq_comm]
      | cons d before => simp only [splitFirst, if_true]; grind
    · cases before with
      | nil => simp [splitFirst, hc]
      | cons d before =>
        simp only [splitFirst, hc, if_false, Option.map_eq_some_iff, Prod.exists, Prod.mk.injEq,
          List.cons.injEq, List.cons_append, List.mem_cons]
        grind

theorem splitFirst_eq_none_iff {separator : Char} {cs : List Char} :
    splitFirst separator cs = none ↔ separator ∉ cs := by
  induction cs with
  | nil => simp
  | cons c cs ih =>
    by_cases hc : c = separator
    · simp [splitFirst, hc]
    · simp [splitFirst, hc, Ne.symm hc, ih]

/-! ### Every separator -/

/-- The parts of a text between its separators. -/
def splitAll (separator : Char) : List Char → List (List Char)
  | [] => [[]]
  | c :: cs =>
      if c = separator then [] :: splitAll separator cs
      else
        match splitAll separator cs with
        | [] => [[c]]
        | part :: parts => (c :: part) :: parts

theorem splitAll_of_not_mem {separator : Char} {cs : List Char} (h : separator ∉ cs) :
    splitAll separator cs = [cs] := by
  induction cs with
  | nil => rfl
  | cons c cs ih => grind [splitAll]

theorem splitAll_append_cons {separator : Char} {part : List Char} (h : separator ∉ part)
    (cs : List Char) :
    splitAll separator (part ++ separator :: cs) = part :: splitAll separator cs := by
  induction part with
  | nil => simp [splitAll]
  | cons c part ih => grind [splitAll]

theorem splitAll_eq_splitOn (separator : Char) (cs : List Char) :
    splitAll separator cs = cs.splitOn separator := by
  induction cs with
  | nil => rfl
  | cons c cs ih =>
    have hcons := List.splitOnP_cons_eq_if_modifyHead (p := (· == separator)) c cs
    rw [splitAll, ih, List.splitOn, List.splitOn, hcons]
    by_cases hc : c = separator
    · simp [hc]
    · cases h : cs.splitOnP (· == separator) with
      | nil => exact absurd h (List.splitOnP_ne_nil _ _)
      | cons part parts => simp [hc]

theorem splitAll_append_separator (separator : Char) (cs ds : List Char) :
    splitAll separator (cs ++ separator :: ds) =
      splitAll separator cs ++ splitAll separator ds := by
  simp only [splitAll_eq_splitOn]
  exact List.splitOnP_append_cons cs ds BEq.rfl

/-! ### The Unicode property -/

/-- Characters with the Unicode property `White_Space`. -/
def isWhiteSpace (c : Char) : Bool :=
  let n := c.toNat
  (0x09 ≤ n && n ≤ 0x0D) || n == 0x20 || n == 0x85 || n == 0xA0 || n == 0x1680 ||
    (0x2000 ≤ n && n ≤ 0x200A) || n == 0x2028 || n == 0x2029 || n == 0x202F || n == 0x205F ||
    n == 0x3000

/-! ### Trimming -/

/-- A text without leading white space. -/
def trimStart (cs : List Char) : List Char := cs.dropWhile isWhiteSpace

/-- A text without trailing white space. -/
def trimEnd (cs : List Char) : List Char := (trimStart cs.reverse).reverse

/-- A text without white space at either end. -/
def trim (cs : List Char) : List Char := trimEnd (trimStart cs)

theorem trimStart_eq_nil_iff {cs : List Char} :
    trimStart cs = [] ↔ ∀ c ∈ cs, isWhiteSpace c = true := by
  induction cs with
  | nil => simp [trimStart]
  | cons c cs ih =>
    rw [trimStart] at ih ⊢
    by_cases h : isWhiteSpace c = true
    · simp [h, ih]
    · simp [h]

theorem trim_eq_nil_iff {cs : List Char} :
    trim cs = [] ↔ ∀ c ∈ cs, isWhiteSpace c = true := by
  rw [trim, trimEnd, List.reverse_eq_nil_iff, trimStart_eq_nil_iff]
  constructor
  · intro h
    induction cs with
    | nil => simp
    | cons c cs ih =>
      by_cases hc : isWhiteSpace c = true
      · simp only [trimStart, List.dropWhile_cons, hc, if_true] at h
        simp only [List.mem_cons, forall_eq_or_imp]
        exact ⟨hc, ih h⟩
      · exact absurd (h c (by simp [trimStart, hc])) hc
  · intro h c hc
    exact h c ((List.dropWhile_sublist _).subset (List.mem_reverse.1 hc))

/-- A text that is all white space. -/
def IsBlank (cs : List Char) : Prop := ∀ c ∈ cs, isWhiteSpace c = true

instance (cs : List Char) : Decidable (IsBlank cs) :=
  decidable_of_decidable_of_iff (List.all_eq_true (p := isWhiteSpace))

/-- A text with no white space at either end. -/
def IsTrimmed (cs : List Char) : Prop :=
  (∀ c ∈ cs.head?, isWhiteSpace c = false) ∧ ∀ c ∈ cs.getLast?, isWhiteSpace c = false

instance (cs : List Char) : Decidable (IsTrimmed cs) :=
  decidable_of_decidable_of_iff (p := cs.head?.all (!isWhiteSpace ·) = true ∧
    cs.getLast?.all (!isWhiteSpace ·) = true) (by simp [IsTrimmed, Option.all_eq_true])

theorem isBlank_nil : IsBlank [] := nofun

theorem IsBlank.filter {cs : List Char} (h : IsBlank cs) (p : Char → Bool) :
    IsBlank (cs.filter p) :=
  fun c hc => h c (List.mem_filter.1 hc).1

/-- What is no white space is in no blank text. -/
theorem IsBlank.not_mem {cs : List Char} (h : IsBlank cs) {c : Char}
    (hc : isWhiteSpace c = false) : c ∉ cs :=
  fun hmem => Bool.false_ne_true (hc.symm.trans (h c hmem))

theorem IsBlank.reverse {cs : List Char} (h : IsBlank cs) : IsBlank cs.reverse :=
  fun c hc => h c (List.mem_reverse.1 hc)

theorem trimStart_append_of_isBlank {front : List Char} (h : IsBlank front) (cs : List Char) :
    trimStart (front ++ cs) = trimStart cs :=
  List.dropWhile_append_of_pos h

theorem trimEnd_append_of_isBlank {back : List Char} (h : IsBlank back) (cs : List Char) :
    trimEnd (cs ++ back) = trimEnd cs := by
  rw [trimEnd, List.reverse_append, trimStart_append_of_isBlank h.reverse, ← trimEnd]

theorem trimStart_append_cons {c : Char} (hc : isWhiteSpace c = false) (cs ds : List Char) :
    trimStart (cs ++ c :: ds) = trimStart cs ++ c :: ds := by
  rw [trimStart, trimStart, List.dropWhile_append]
  split
  · next h => rw [List.isEmpty_iff.1 h, List.dropWhile_cons_of_neg (by simp [hc]), List.nil_append]
  · rfl

theorem trimEnd_append_cons {c : Char} (hc : isWhiteSpace c = false) (cs ds : List Char) :
    trimEnd (cs ++ c :: ds) = cs ++ c :: trimEnd ds := by
  rw [trimEnd, List.reverse_append, List.reverse_cons, List.append_assoc, List.singleton_append,
    trimStart_append_cons hc, List.reverse_append, List.reverse_cons, List.reverse_reverse,
    List.append_assoc, List.singleton_append, ← trimEnd]

/-- A character that stays cuts the work of trimming in two. -/
theorem trim_append_cons {c : Char} (hc : isWhiteSpace c = false) (cs ds : List Char) :
    trim (cs ++ c :: ds) = trimStart cs ++ c :: trimEnd ds := by
  rw [trim, trimStart_append_cons hc, trimEnd_append_cons hc]

/-- White space around a text changes nothing of what trimming leaves. -/
theorem trim_surrounded {front back : List Char} (hfront : IsBlank front) (hback : IsBlank back)
    (cs : List Char) : trim (front ++ cs ++ back) = trim cs := by
  rw [trim, List.append_assoc, trimStart_append_of_isBlank hfront]
  by_cases h : IsBlank cs
  · have hboth : IsBlank (cs ++ back) := fun c hc => (List.mem_append.1 hc).elim (h c) (hback c)
    rw [trimStart_eq_nil_iff.2 hboth, trim_eq_nil_iff.2 h]
    rfl
  · -- Something stays at the front, so that the white space at the end is still at the end.
    have hrest : (cs.dropWhile isWhiteSpace).isEmpty = false :=
      Bool.eq_false_iff.2 fun hempty => h (trimStart_eq_nil_iff.1 (List.isEmpty_iff.1 hempty))
    rw [trimStart, List.dropWhile_append, hrest, if_neg Bool.false_ne_true, ← trimStart,
      trimEnd_append_of_isBlank hback, ← trim]

theorem exists_isBlank_append_trimStart (cs : List Char) :
    ∃ front, IsBlank front ∧ cs = front ++ trimStart cs :=
  ⟨cs.takeWhile isWhiteSpace, List.all_eq_true.1 List.all_takeWhile,
    List.takeWhile_append_dropWhile.symm⟩

theorem exists_trimEnd_append_isBlank (cs : List Char) :
    ∃ back, IsBlank back ∧ cs = trimEnd cs ++ back := by
  obtain ⟨front, hfront, heq⟩ := exists_isBlank_append_trimStart cs.reverse
  refine ⟨front.reverse, hfront.reverse, ?_⟩
  rw [trimEnd, ← List.reverse_append, ← heq, List.reverse_reverse]

/-- A text is what trimming leaves, with white space around it. -/
theorem exists_trim_surrounded (cs : List Char) :
    ∃ front back, IsBlank front ∧ IsBlank back ∧ cs = front ++ trim cs ++ back := by
  obtain ⟨front, hfront, heq⟩ := exists_isBlank_append_trimStart cs
  obtain ⟨back, hback, heq'⟩ := exists_trimEnd_append_isBlank (trimStart cs)
  exact ⟨front, back, hfront, hback, by rw [trim, List.append_assoc, ← heq', ← heq]⟩

/-- What is no white space stays. -/
theorem mem_trim_iff {c : Char} (hc : isWhiteSpace c = false) {cs : List Char} :
    c ∈ trim cs ↔ c ∈ cs := by
  obtain ⟨front, back, hfront, hback, heq⟩ := exists_trim_surrounded cs
  have hmem : c ∈ cs ↔ c ∈ front ++ trim cs ++ back := by rw [← heq]
  rw [hmem, List.mem_append, List.mem_append]
  simp only [hfront.not_mem hc, hback.not_mem hc, false_or, or_false]

@[simp] theorem trim_trimStart (cs : List Char) : trim (trimStart cs) = trim cs := by
  obtain ⟨front, hfront, heq⟩ := exists_isBlank_append_trimStart cs
  have h := trim_surrounded hfront isBlank_nil (trimStart cs)
  rw [List.append_nil, ← heq] at h
  exact h.symm

@[simp] theorem trim_trimEnd (cs : List Char) : trim (trimEnd cs) = trim cs := by
  obtain ⟨back, hback, heq⟩ := exists_trimEnd_append_isBlank cs
  have h := trim_surrounded isBlank_nil hback (trimEnd cs)
  rw [List.nil_append, ← heq] at h
  exact h.symm

theorem trimStart_of_head? {cs : List Char} (h : ∀ c ∈ cs.head?, isWhiteSpace c = false) :
    trimStart cs = cs := by
  cases cs with
  | nil => rfl
  | cons c cs => exact List.dropWhile_cons_of_neg (by simp [h c rfl])

/-- Trimming leaves all of a text with no white space at either end. -/
theorem IsTrimmed.trim_eq {cs : List Char} (h : IsTrimmed cs) : trim cs = cs := by
  rw [trim, trimStart_of_head? h.1, trimEnd, trimStart_of_head? (by simpa using h.2),
    List.reverse_reverse]

/-! ### Bytes -/

/-- Space, tab, line feed, form feed and carriage return. -/
def isAsciiBlank (b : UInt8) : Bool :=
  b == 0x20 || b == 0x09 || b == 0x0A || b == 0x0C || b == 0x0D

/-- A byte that is blank on its own stands for a character that is white space. -/
theorem isWhiteSpace_of_isAsciiBlank {b : UInt8} (h : isAsciiBlank b = true) :
    isWhiteSpace (Char.ofNat b.toNat) = true := by
  simp only [isAsciiBlank, Bool.or_eq_true, beq_iff_eq] at h
  rcases h with (((rfl | rfl) | rfl) | rfl) | rfl <;> decide

/-- A blank byte is below `U+0080`, so no longer encoding begins with it. -/
theorem toNat_lt_of_isAsciiBlank {b : UInt8} (h : isAsciiBlank b = true) :
    b.toNat < 0x80 := by
  simp only [isAsciiBlank, Bool.or_eq_true, beq_iff_eq] at h
  rcases h with (((rfl | rfl) | rfl) | rfl) | rfl <;> decide

end HubConfig.Text
