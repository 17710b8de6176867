/-
**Where requests go.**

The address of a request is that of the host with a path after it.  Reading it goes the same way as
reading the host alone, and what follows can always be read: so once the host is a URI, only the
length can stop a request.

Main definitions:

* `isTargetChar`: characters that may stand anywhere after an authority;
* `IsTargetText`: texts that begin with a slash and hold nothing else.

Main results:

* `Uri.parse_https_eq_ok_iff`: what makes a text with the usual scheme a URI;
* `isTargetText_of_relativePath`: every path of a request is made of characters of a target;
* `exists_parse_endpoint_append`: **a host that is a URI is one with such a path after it**, if that
  is not too long.
-/

import HubConfig.Client

set_option autoImplicit false

namespace HubConfig

open HubConfig.Text

namespace Uri

/-! ### The scheme and the authority -/

/-- The scheme of every request. -/
def https : List Char := ['h', 't', 't', 'p', 's']

theorem splitScheme_https (rest : List Char) :
    splitScheme (https ++ ':' :: '/' :: '/' :: rest) = .ok (some https, rest) := by
  have htake : (https ++ ':' :: '/' :: '/' :: rest).takeWhile isSchemeChar = https := by
    simp [https, isSchemeChar, isAlphanumericChar]
  have hdrop : (https ++ ':' :: '/' :: '/' :: rest).dropWhile isSchemeChar =
      ':' :: '/' :: '/' :: rest := by
    simp [https, isSchemeChar, isAlphanumericChar]
  have hlower : https.map Char.toLower = ['h', 't', 't', 'p', 's'] := by decide
  rw [splitScheme]
  simp only [htake, hdrop, hlower, or_true, if_true]
  rfl

theorem parse_https (rest : List Char) :
    parse (https ++ ':' :: '/' :: '/' :: rest) =
      if maxLength < utf8Length (https ++ ':' :: '/' :: '/' :: rest) then .error .tooLong
      else parseFull (https ++ ':' :: '/' :: '/' :: rest) := by
  rw [parse.eq_def]
  rfl

/-- **What makes a text with the usual scheme a URI.** -/
theorem parse_https_eq_ok_iff {rest : List Char} {u : Uri} :
    parse (https ++ ':' :: '/' :: '/' :: rest) = .ok u ↔
      utf8Length (https ++ ':' :: '/' :: '/' :: rest) ≤ maxLength ∧
        ∃ authority tail path query, splitAuthority rest = .ok (authority, tail) ∧
          authority ≠ [] ∧ readPath tail = .ok (path, query) ∧
          u = ⟨some https, authority, path, query⟩ := by
  rw [parse_https]
  split
  · next hlong => simp [Nat.not_le_of_lt hlong]
  · next hlong =>
    rw [parseFull, splitScheme_https]
    simp only [reduceCtorEq, if_false]
    cases ha : splitAuthority rest with
    | error fault => simp
    | ok parts =>
      obtain ⟨authority, tail⟩ := parts
      by_cases hempty : authority = []
      · simp [hempty]
      · cases hp : readPath tail with
        | error fault => simp [hempty, hp]
        | ok parts =>
          obtain ⟨path, query⟩ := parts
          simp only [hempty, hp, if_false, Except.ok.injEq]
          constructor
          · rintro rfl
            exact ⟨Nat.le_of_not_lt hlong, authority, tail, path, query, rfl, hempty, hp, rfl⟩
          · rintro ⟨-, _, _, _, _, hparts, -, hread, rfl⟩
            cases hparts
            cases hp.symm.trans hread
            rfl

/-- The characters before the first that ends an authority are the same if one comes later. -/
theorem takeWhile_append_slash (cs ds : List Char) :
    (cs ++ '/' :: ds).takeWhile (fun c => !endsAuthority c) =
      cs.takeWhile fun c => !endsAuthority c := by
  induction cs with
  | nil => rfl
  | cons c cs ih => rw [List.cons_append, List.takeWhile_cons, List.takeWhile_cons, ih]

theorem dropWhile_append_slash (cs ds : List Char) :
    (cs ++ '/' :: ds).dropWhile (fun c => !endsAuthority c) =
      (cs.dropWhile fun c => !endsAuthority c) ++ '/' :: ds := by
  induction cs with
  | nil => rfl
  | cons c cs ih =>
    rw [List.cons_append, List.dropWhile_cons, List.dropWhile_cons, ih]
    split
    · rfl
    · rfl

/-- A slash ends an authority, and all before it is read as before. -/
theorem splitAuthority_append_slash {cs authority tail : List Char}
    (h : splitAuthority cs = .ok (authority, tail)) (ds : List Char) :
    splitAuthority (cs ++ '/' :: ds) = .ok (authority, tail ++ '/' :: ds) := by
  rw [splitAuthority] at h ⊢
  split at h
  · cases h
  · have hne : cs ++ '/' :: ds ≠ [] := by simp
    rw [if_neg hne]
    dsimp only at h ⊢
    rw [takeWhile_append_slash, dropWhile_append_slash]
    split at h
    · cases h
    · next scan hscan =>
      split at h
      · next hcomplete =>
        cases h
        rw [if_pos hcomplete]
      · cases h

/-! ### Paths and queries one after another -/

theorem exists_readQuery_append {cs ds : List Char} (hc : ∃ query, readQuery cs = .ok query)
    (hd : ∃ query, readQuery ds = .ok query) : ∃ query, readQuery (cs ++ ds) = .ok query := by
  induction cs with
  | nil => exact hd
  | cons c cs ih =>
    obtain ⟨query, hc⟩ := hc
    rw [List.cons_append, readQuery]
    rw [readQuery] at hc
    split
    · exact ⟨[], rfl⟩
    · next hhash =>
      rw [if_neg hhash] at hc
      split
      · next hchar =>
        rw [if_pos hchar] at hc
        cases hq : readQuery cs with
        | error fault => rw [hq] at hc; cases hc
        | ok front =>
          obtain ⟨all, hall⟩ := ih ⟨front, hq⟩
          exact ⟨c :: all, by rw [hall]⟩
      · next hchar => rw [if_neg hchar] at hc; cases hc

/-- The rest may end up in the path or in the query, or be dropped with a fragment. -/
theorem exists_readPath_append {cs ds : List Char} (hc : ∃ parts, readPath cs = .ok parts)
    (hp : ∃ parts, readPath ds = .ok parts) (hq : ∃ query, readQuery ds = .ok query) :
    ∃ parts, readPath (cs ++ ds) = .ok parts := by
  induction cs with
  | nil => exact hp
  | cons c cs ih =>
    obtain ⟨parts, hc⟩ := hc
    rw [List.cons_append, readPath]
    rw [readPath] at hc
    split
    · exact ⟨_, rfl⟩
    · next hhash =>
      rw [if_neg hhash] at hc
      split
      · next hmark =>
        rw [if_pos hmark] at hc
        cases hr : readQuery cs with
        | error fault => rw [hr] at hc; cases hc
        | ok front =>
          obtain ⟨all, hall⟩ := exists_readQuery_append ⟨front, hr⟩ hq
          exact ⟨([], some all), by rw [hall]⟩
      · next hmark =>
        rw [if_neg hmark] at hc
        split
        · next hchar =>
          rw [if_pos hchar] at hc
          cases hr : readPath cs with
          | error fault => rw [hr] at hc; cases hc
          | ok front =>
            obtain ⟨all, hall⟩ := ih ⟨front, hr⟩
            exact ⟨(c :: all.1, all.2), by rw [hall]⟩
        · next hchar => rw [if_neg hchar] at hc; cases hc

end Uri

/-! ### Targets -/

/-- Characters that may stand anywhere after an authority. -/
def isTargetChar (c : Char) : Bool := (Uri.isPathChar c || c == '?') && Uri.isQueryChar c

theorem readQuery_of_isTargetChar {cs : List Char} (h : ∀ c ∈ cs, isTargetChar c = true) :
    Uri.readQuery cs = .ok cs := by
  induction cs with
  | nil => rfl
  | cons c cs ih =>
    have hc : isTargetChar c = true := h c List.mem_cons_self
    have hcs := ih fun d hd => h d (List.mem_cons_of_mem c hd)
    have hhash : c ≠ '#' := by
      rintro rfl
      exact absurd hc (by decide)
    rw [isTargetChar, Bool.and_eq_true] at hc
    rw [Uri.readQuery, if_neg hhash, if_pos hc.2, hcs]

theorem exists_readPath_of_isTargetChar {cs : List Char} (h : ∀ c ∈ cs, isTargetChar c = true) :
    ∃ parts, Uri.readPath cs = .ok parts := by
  induction cs with
  | nil => exact ⟨_, rfl⟩
  | cons c cs ih =>
    have hc : isTargetChar c = true := h c List.mem_cons_self
    have hrest : ∀ d ∈ cs, isTargetChar d = true := fun d hd => h d (List.mem_cons_of_mem c hd)
    have hhash : c ≠ '#' := by
      rintro rfl
      exact absurd hc (by decide)
    rw [Uri.readPath, if_neg hhash]
    by_cases hmark : c = '?'
    · rw [if_pos hmark, readQuery_of_isTargetChar hrest]
      exact ⟨_, rfl⟩
    · obtain ⟨parts, hparts⟩ := ih hrest
      have hpath : Uri.isPathChar c = true := by
        simp only [isTargetChar, Bool.and_eq_true, Bool.or_eq_true, beq_iff_eq] at hc
        exact hc.1.resolve_right hmark
      rw [if_neg hmark, if_pos hpath, hparts]
      exact ⟨_, rfl⟩

/-- Texts that begin with a slash and hold nothing but characters of a target. -/
def IsTargetText (s : String) : Prop :=
  (∃ rest, s.toList = '/' :: rest) ∧ s.toList.all isTargetChar = true

theorem all_isTargetChar_percentByte : ∀ b : UInt8, (percentByte b).all isTargetChar = true :=
  forall_byte (by decide +kernel)

theorem isTargetChar_idSegment (id : String) : ∀ c ∈ idSegment id, isTargetChar c = true := by
  intro c hc
  rw [idSegment, percentEncode] at hc
  obtain ⟨b, -, hb⟩ := List.mem_flatMap.1 hc
  exact List.all_eq_true.1 (all_isTargetChar_percentByte b) c hb

theorem isTargetChar_decimal (i : Int) : ∀ c ∈ decimal i, isTargetChar c = true := by
  have digits : ∀ n < 58, 48 ≤ n → isTargetChar (Char.ofNat n) = true := by decide
  intro c hc
  rcases isDigit_or_minus_of_mem_decimal hc with hdigit | rfl
  · have hbounds := Char.isDigit_iff_toNat.1 hdigit
    have hchar := digits c.toNat (Nat.lt_succ_of_le hbounds.2) hbounds.1
    rwa [Char.ofNat_toNat] at hchar
  · decide

theorem IsTargetText.append {s t : String} (hs : IsTargetText s)
    (ht : t.toList.all isTargetChar = true) : IsTargetText (s ++ t) := by
  obtain ⟨⟨rest, hslash⟩, hs⟩ := hs
  refine ⟨⟨rest ++ t.toList, by rw [String.toList_append, hslash, List.cons_append]⟩, ?_⟩
  rw [String.toList_append, List.all_append, hs, ht, Bool.and_self]

theorem IsTargetText.append_ofList {s : String} {cs : List Char} (hs : IsTargetText s)
    (hc : ∀ c ∈ cs, isTargetChar c = true) : IsTargetText (s ++ String.ofList cs) :=
  hs.append (by rw [String.toList_ofList]; exact List.all_eq_true.2 hc)

theorem isTargetText_configurationPath (id : String) : IsTargetText (configurationPath id) := by
  have hfront : IsTargetText "/configurations/" := ⟨⟨_, rfl⟩, by decide⟩
  have hid : IsTargetText ("/configurations/" ++ String.ofList (idSegment id)) :=
    hfront.append_ofList (isTargetChar_idSegment id)
  exact (hid.append (by decide)).append (by decide)

theorem isTargetText_listPath (top : Nat) :
    IsTargetText ("/configurations/?top=" ++ String.ofList (decimal top) ++ "&" ++ apiVersion) := by
  have hfront : IsTargetText "/configurations/?top=" := ⟨⟨_, rfl⟩, by decide⟩
  have htop : IsTargetText ("/configurations/?top=" ++ String.ofList (decimal top)) :=
    hfront.append_ofList (isTargetChar_decimal top)
  exact (htop.append (by decide)).append (by decide)

/-- Every path of a request is made of characters of a target. -/
theorem isTargetText_of_relativePath {op : Operation} {target : Target} {path : String}
    (h : relativePath op target = .ok path) : IsTargetText path := by
  cases target with
  | list top =>
    simp only [relativePath] at h
    split at h
    · cases h
      exact isTargetText_listPath top
    · cases h
  | configuration id =>
    simp only [relativePath] at h
    split at h
    · split at h
      · cases h
      · cases h
        exact isTargetText_configurationPath id
    · cases h
  | testQueries =>
    simp only [relativePath] at h
    split at h
    · cases h
      exact ⟨⟨_, rfl⟩, by decide⟩
    · cases h

/-! ### Whole addresses -/

theorem toList_endpoint (hostname : String) :
    (Client.endpoint hostname).toList = Uri.https ++ ':' :: '/' :: '/' :: hostname.toList := by
  rw [Client.endpoint, String.toList_append]
  rfl

/-- **A host that is a URI is one with a target after it**, if that is not too long. -/
theorem exists_parse_endpoint_append {hostname path : String}
    (h : ∃ u, Uri.parse (Client.endpoint hostname).toList = .ok u) (hpath : IsTargetText path)
    (hlength : utf8Length (Client.endpoint hostname ++ path).toList ≤ Uri.maxLength) :
    ∃ u, Uri.parse (Client.endpoint hostname ++ path).toList = .ok u := by
  obtain ⟨u, h⟩ := h
  obtain ⟨⟨rest, hslash⟩, hall⟩ := hpath
  have hchars := List.all_eq_true.1 hall
  rw [String.toList_append, toList_endpoint, List.append_assoc] at hlength ⊢
  rw [toList_endpoint] at h
  obtain ⟨-, authority, tail, path', query, hauthority, hempty, htail, -⟩ :=
    Uri.parse_https_eq_ok_iff.1 h
  -- The host may hold a path, a query or a fragment of its own, so the target is read as what
  -- follows any of them.
  have hsplit := Uri.splitAuthority_append_slash hauthority rest
  rw [← hslash] at hsplit
  obtain ⟨parts, hparts⟩ := Uri.exists_readPath_append ⟨_, htail⟩
    (exists_readPath_of_isTargetChar hchars) ⟨_, readQuery_of_isTargetChar hchars⟩
  exact ⟨_, Uri.parse_https_eq_ok_iff.2
    ⟨hlength, authority, _, parts.1, parts.2, hsplit, hempty, hparts, rfl⟩⟩

end HubConfig
