/-
**Steps of a path.**

In a path a segment of one dot stands for the place it is in, and one of two dots for the place
above.  Who resolves a path takes such segments out, and the path of what was meant may become the
path of something else.  An id is escaped so that it is one segment, but a dot is never escaped: all
ids keep their path but two.

Main definitions:

* `Uri.removeDots`, `Uri.removeDotSegments`: a path without segments that are steps;
* `Uri.pathOf`: the path in front of a query.

Main results:

* `Uri.removeDots_ordinary`: segments that are no steps stay;
* `Uri.removeDotSegments_configuration`: what becomes of the path of a configuration;
* `path_kept_iff`: **an id keeps its path exactly if it is neither one dot nor two**.
-/

import HubConfig.Proofs.Destination

set_option autoImplicit false

namespace HubConfig

open HubConfig.Text

namespace Uri

/-! ### Taking steps out -/

/-- What was written without its last segment and the slash before it. -/
def dropSegment (written : List Char) : List Char :=
  ((written.reverse.dropWhile (· != '/')).drop 1).reverse

/-- A path without the segments that are steps, behind what was written of it before.  One form of
the rest after another is looked for: a step at the front without a slash, one dot, two dots, and
last a segment that is no step and is written as it stands. -/
def removeDots (written : List Char) : List Char → List Char
  | [] => written
  | '.' :: '.' :: '/' :: cs => removeDots written cs
  | '.' :: '/' :: cs => removeDots written cs
  | '/' :: '.' :: '/' :: cs => removeDots written ('/' :: cs)
  | ['/', '.'] => removeDots written ['/']
  | '/' :: '.' :: '.' :: '/' :: cs => removeDots (dropSegment written) ('/' :: cs)
  | ['/', '.', '.'] => removeDots (dropSegment written) ['/']
  | ['.'] => written
  | ['.', '.'] => written
  | c :: cs => removeDots (written ++ c :: cs.takeWhile (· != '/')) (cs.dropWhile (· != '/'))
termination_by cs => cs.length
decreasing_by
  any_goals decreasing_tactic
  exact Nat.lt_succ_of_le (List.dropWhile_sublist _).length_le

/-- **A path without segments that are steps.** -/
def removeDotSegments (path : List Char) : List Char := removeDots [] path

example : removeDotSegments "/a/b/c/./../../g".toList = "/a/g".toList := by decide +kernel

/-- The path in front of a query. -/
def pathOf (target : String) : List Char := target.toList.takeWhile (· != '?')

/-! ### Segments that stay -/

section

variable {seg rest : List Char}

/-- A segment ends where the next slash stands, or where the path ends. -/
theorem takeWhile_segment (hslash : '/' ∉ seg) (hrest : ∀ c ∈ rest.head?, c = '/') :
    (seg ++ rest).takeWhile (· != '/') = seg := by
  have hall : ∀ c ∈ seg, (c != '/') = true := fun c hc => bne_iff_ne.2 fun h => hslash (h ▸ hc)
  rw [List.takeWhile_append_of_pos hall]
  cases rest with
  | nil => rw [List.takeWhile_nil, List.append_nil]
  | cons c rest =>
    obtain rfl : c = '/' := hrest c rfl
    rw [List.takeWhile_cons_of_neg (by simp), List.append_nil]

theorem dropWhile_segment (hslash : '/' ∉ seg) (hrest : ∀ c ∈ rest.head?, c = '/') :
    (seg ++ rest).dropWhile (· != '/') = rest := by
  have hcut := List.takeWhile_append_dropWhile (p := (· != '/')) (l := seg ++ rest)
  rw [takeWhile_segment hslash hrest] at hcut
  exact List.append_cancel_left hcut

/-- A segment that is no step is written as it stands. -/
theorem removeDots_segment (hslash : '/' ∉ seg) (hdot : seg ≠ ['.']) (hdots : seg ≠ ['.', '.'])
    (hrest : ∀ c ∈ rest.head?, c = '/') (written : List Char) :
    removeDots written ('/' :: (seg ++ rest)) = removeDots (written ++ '/' :: seg) rest := by
  have hseg := takeWhile_segment hslash hrest
  -- The segment is what stands before the next slash, so none of the other forms is there.
  have hstep : ∀ cs, seg ++ rest = cs → cs.takeWhile (· != '/') = seg := by
    intro cs hcs
    rw [← hcs, hseg]
  rw [removeDots.eq_def]
  split
  · next heq => cases heq
  · next heq => cases heq
  · next heq => cases heq
  · next heq => exact absurd (hstep _ (List.cons.inj heq).2).symm hdot
  · next heq => exact absurd (hstep _ (List.cons.inj heq).2).symm hdot
  · next heq => exact absurd (hstep _ (List.cons.inj heq).2).symm hdots
  · next heq => exact absurd (hstep _ (List.cons.inj heq).2).symm hdots
  · next heq => cases heq
  · next heq => cases heq
  · next heq =>
    obtain ⟨rfl, rfl⟩ := List.cons.inj heq
    rw [hseg, dropWhile_segment hslash hrest]

end

/-- A path of segments, each behind a slash. -/
def joinSegments (segs : List (List Char)) : List Char := segs.flatMap ('/' :: ·)

/-- Segments that are no steps. -/
def IsOrdinary (seg : List Char) : Prop := '/' ∉ seg ∧ seg ≠ ['.'] ∧ seg ≠ ['.', '.']

theorem head?_joinSegments (segs : List (List Char)) :
    ∀ c ∈ (joinSegments segs).head?, c = '/' := by
  cases segs with
  | nil => exact nofun
  | cons seg segs =>
    intro c hc
    cases hc
    rfl

/-- **Segments that are no steps stay.** -/
theorem removeDots_ordinary {segs : List (List Char)} (h : ∀ seg ∈ segs, IsOrdinary seg)
    (written : List Char) :
    removeDots written (joinSegments segs) = written ++ joinSegments segs := by
  induction segs generalizing written with
  | nil => rw [joinSegments, List.flatMap_nil, removeDots, List.append_nil]
  | cons seg segs ih =>
    obtain ⟨hslash, hdot, hdots⟩ := h seg List.mem_cons_self
    have hrest := ih (fun seg' hseg' => h seg' (List.mem_cons_of_mem seg hseg'))
      (written ++ '/' :: seg)
    have hjoin : joinSegments (seg :: segs) = '/' :: (seg ++ joinSegments segs) := rfl
    rw [hjoin, removeDots_segment hslash hdot hdots (head?_joinSegments segs), hrest,
      List.append_assoc, List.cons_append]

end Uri

/-! ### The paths of configurations -/

theorem IsUpperHex.isAlphanum {c : Char} (h : IsUpperHex c) : c.isAlphanum = true := by
  rcases h with hdigit | hletter
  · rw [Char.isAlphanum, hdigit, Bool.or_true]
  · simp only [List.mem_cons, List.not_mem_nil, or_false] at hletter
    rcases hletter with rfl | rfl | rfl | rfl | rfl | rfl <;> rfl

/-- The characters of a segment are letters, digits, and a few signs. -/
theorem IsSegment.of_mem {cs : List Char} (h : IsSegment cs) :
    ∀ c ∈ cs, c.isAlphanum = true ∨ c ∈ ['-', '.', '_', '~', '%'] := by
  induction h with
  | nil => exact nofun
  | plain hc hcs ih =>
    intro d hd
    rcases List.mem_cons.1 hd with rfl | hd
    · exact hc.imp_right fun hmem => List.mem_append_left ['%'] hmem
    · exact ih d hd
  | triple hx hy hcs ih =>
    intro d hd
    simp only [List.mem_cons] at hd
    rcases hd with rfl | rfl | rfl | hd
    · exact Or.inr (by decide)
    · exact Or.inl hx.isAlphanum
    · exact Or.inl hy.isAlphanum
    · exact ih d hd

theorem slash_not_mem_idSegment (id : String) : '/' ∉ idSegment id := by
  intro hmem
  have hchar := (isSegment_idSegment id).of_mem '/' hmem
  revert hchar
  decide

/-- What stands in front of the first question mark. -/
theorem Uri.pathOf_eq {target : String} {path : List Char} (hmark : '?' ∉ path)
    (h : ∃ query, target.toList = path ++ '?' :: query) : pathOf target = path := by
  obtain ⟨query, h⟩ := h
  have hpath : ∀ c ∈ path, (c != '?') = true := by
    intro c hc
    rw [bne_iff_ne]
    rintro rfl
    exact hmark hc
  rw [pathOf, h, List.takeWhile_append_of_pos hpath, List.takeWhile_cons_of_neg (by simp),
    List.append_nil]

theorem question_not_mem_configurations : '?' ∉ "/configurations/".toList := by decide

theorem pathOf_configurationPath (id : String) :
    Uri.pathOf (configurationPath id) = "/configurations/".toList ++ idSegment id := by
  have hmark : '?' ∉ "/configurations/".toList ++ idSegment id := by
    rw [List.mem_append, not_or]
    exact ⟨question_not_mem_configurations, (isSegment_idSegment id).question_not_mem⟩
  exact Uri.pathOf_eq hmark ⟨_, by rw [toList_configurationPath, List.append_assoc]⟩

theorem pathOf_list {op : Operation} {top : Nat} {path : String}
    (h : relativePath op (.list top) = .ok path) : Uri.pathOf path = "/configurations/".toList := by
  have hfront : "/configurations/?top=".toList =
      "/configurations/".toList ++ '?' :: "top=".toList := by decide
  have hparts : path.toList = "/configurations/".toList ++
      '?' :: ("top=".toList ++ (String.ofList (decimal top) ++ ("&" ++ apiVersion)).toList) := by
    rw [path_of_list h, String.append_assoc, String.append_assoc, String.toList_append, hfront,
      List.append_assoc, List.cons_append]
  exact Uri.pathOf_eq question_not_mem_configurations ⟨_, hparts⟩

/-- The path of a configuration has two segments. -/
theorem joinSegments_configuration (id : String) :
    Uri.joinSegments ["configurations".toList, idSegment id] =
      "/configurations/".toList ++ idSegment id := by
  have hslashes : "/configurations/".toList = '/' :: "configurations".toList ++ ['/'] := by decide
  simp only [hslashes, Uri.joinSegments, List.flatMap_cons, List.flatMap_nil, List.append_nil,
    List.append_assoc, List.cons_append, List.nil_append]

/-- What becomes of the path of a configuration. -/
theorem Uri.removeDotSegments_configuration (id : String) :
    removeDotSegments (pathOf (configurationPath id)) =
      if id = "." then "/configurations/".toList
      else if id = ".." then "/".toList
      else pathOf (configurationPath id) := by
  have hone : idSegment "." = ['.'] := rfl
  have htwo : idSegment ".." = ['.', '.'] := rfl
  have hconf : IsOrdinary "configurations".toList := by
    refine ⟨?_, ?_, ?_⟩ <;> decide
  rw [pathOf_configurationPath]
  split
  · next h =>
    rw [h, hone]
    decide +kernel
  · next hdot =>
    split
    · next h =>
      rw [h, htwo]
      decide +kernel
    · next hdots =>
      have hid : IsOrdinary (idSegment id) := by
        refine ⟨slash_not_mem_idSegment id, ?_, ?_⟩
        · rw [← hone]
          exact fun heq => hdot (idSegment_inj.1 heq)
        · rw [← htwo]
          exact fun heq => hdots (idSegment_inj.1 heq)
      have hall : ∀ seg ∈ ["configurations".toList, idSegment id], IsOrdinary seg := by
        intro seg hseg
        simp only [List.mem_cons, List.not_mem_nil, or_false] at hseg
        rcases hseg with rfl | rfl
        · exact hconf
        · exact hid
      rw [removeDotSegments, ← joinSegments_configuration]
      exact removeDots_ordinary hall []

/-- **An id keeps its path exactly if it is neither one dot nor two.**  One dot leads to the path of
every list, and two dots lead out of the configurations. -/
theorem path_kept_iff {op : Operation} {id : String} (hop : op.isSingle = true) (hid : id ≠ "") :
    ∃ path, relativePath op (.configuration id) = .ok path ∧
      Uri.pathOf path = "/configurations/".toList ++ idSegment id ∧
      percentDecode (idSegment id) = utf8Bytes id.toList ∧
      (Uri.removeDotSegments (Uri.pathOf path) = Uri.pathOf path ↔ id ≠ "." ∧ id ≠ "..") ∧
      (id = "." → ∀ top, ∃ listPath, relativePath .list (.list top) = .ok listPath ∧
        Uri.removeDotSegments (Uri.pathOf path) = Uri.pathOf listPath) ∧
      (id = ".." → Uri.removeDotSegments (Uri.pathOf path) = ['/']) := by
  have hpath := pathOf_configurationPath id
  have hsteps := Uri.removeDotSegments_configuration id
  refine ⟨configurationPath id, relativePath_configuration hop hid, hpath,
    percentDecode_idSegment id, ⟨?_, ?_⟩, ?_, ?_⟩
  · intro hkept
    rw [hkept, hpath] at hsteps
    refine ⟨?_, ?_⟩
    · rintro rfl
      revert hsteps
      decide
    · rintro rfl
      revert hsteps
      decide
  · rintro ⟨hdot, hdots⟩
    rw [hsteps, if_neg hdot, if_neg hdots]
  · rintro rfl top
    obtain ⟨listPath, hlist⟩ : ∃ listPath, relativePath .list (.list top) = .ok listPath :=
      ⟨_, by rw [relativePath, if_pos rfl]⟩
    exact ⟨listPath, hlist, hsteps.trans (pathOf_list hlist).symm⟩
  · rintro rfl
    exact hsteps

theorem path_kept_iff_sample :
    Operation.get.isSingle = true ∧ "a/../ü" ≠ "" ∧
      ∃ path, relativePath .get (.configuration "a/../ü") = .ok path ∧
        Uri.removeDotSegments (Uri.pathOf path) = Uri.pathOf path := by
  have hop : Operation.get.isSingle = true := rfl
  have hid : "a/../ü" ≠ "" := by decide
  obtain ⟨path, hpath, -, -, hkept, -⟩ := path_kept_iff hop hid
  exact ⟨hop, hid, path, hpath, hkept.2 (by decide)⟩

/-- The path of a configuration may be resolved to another: one dot is an id. -/
theorem path_not_always_kept :
    ¬∀ (op : Operation) (id : String), op.isSingle = true → id ≠ "" →
      ∃ path, relativePath op (.configuration id) = .ok path ∧
        Uri.removeDotSegments (Uri.pathOf path) = Uri.pathOf path := by
  intro h
  obtain ⟨path, hpath, hkept⟩ := h .get "." rfl (by decide)
  obtain ⟨-, rfl⟩ := path_of_configuration hpath
  rw [Uri.removeDotSegments_configuration, pathOf_configurationPath, if_pos rfl] at hkept
  revert hkept
  decide

end HubConfig
