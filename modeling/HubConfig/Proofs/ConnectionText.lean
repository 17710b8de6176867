/-
**Connection strings, however they are written.**

A connection string is a list of names with values.  It may be written in many ways: with white
space around its segments, its names and its values, with blank segments anywhere, and spread over
lines at any place.  All these texts carry the same settings, those of the last value of each name
that is known, whatever other names stand between them and in whatever order the names come.

A text is refused exactly for a segment that is neither blank nor has an equals sign.

Main definitions:

* `IsDivided`: a host name and its parts before and after the first dot;
* `ConnectionString.IsEntry`: a name and a value that a connection string can carry;
* `ConnectionString.IsWritten`: the ways of writing entries;
* `ConnectionString.Change`: one change to entries that no setting depends on;
* `ConnectionString.segments`: what stands between the semicolons of a text.

Main results:

* `ConnectionString.fields_eq`: fields are segments, trimmed, without those that are blank;
* `ConnectionString.parse_of_isWritten`: written entries are read back;
* `ConnectionString.parse_eq_error_iff`: which texts are refused, and what is said of them;
* `ConnectionString.parse_exact`: **what a connection string says, and when it says nothing**.
-/

import HubConfig.SettingsEnvironment
import Mathlib.Data.List.Nodup
import Mathlib.Logic.Relation

set_option autoImplicit false

namespace HubConfig

open HubConfig.Text

/-! ### Host names and their parts -/

/-- A host name with its parts before and after the first dot. -/
def IsDivided (hostname name suffix : String) : Prop :=
  hostname = name ++ "." ++ suffix ∧ '.' ∉ name.toList

theorem isDivided_iff_splitFirst {hostname name suffix : String} :
    IsDivided hostname name suffix ↔
      splitFirst '.' hostname.toList = some (name.toList, suffix.toList) := by
  have hdot : ".".toList = ['.'] := rfl
  rw [splitFirst_eq_some_iff, IsDivided, ← String.toList_inj, String.toList_append,
    String.toList_append, hdot, List.append_assoc, List.singleton_append]

/-- A host name has one first dot at most. -/
theorem IsDivided.inj {hostname name suffix name' suffix' : String}
    (h : IsDivided hostname name suffix) (h' : IsDivided hostname name' suffix') :
    name = name' ∧ suffix = suffix' := by
  rw [isDivided_iff_splitFirst] at h h'
  rw [h] at h'
  simpa [String.toList_inj] using h'

namespace ConnectionString

theorem hubParts?_eq_some_iff {hostname name suffix : String} :
    hubParts? hostname.toList = some (name.toList, suffix.toList) ↔
      IsDivided hostname name suffix ∧ name ≠ "" ∧ suffix ≠ "" := by
  rw [isDivided_iff_splitFirst, hubParts?]
  cases splitFirst '.' hostname.toList with
  | none => simp
  | some parts =>
    obtain ⟨before, after⟩ := parts
    simp only [Option.some.injEq, Prod.mk.injEq, Option.ite_none_right_eq_some, ne_eq,
      ← String.toList_eq_nil_iff]
    constructor
    · rintro ⟨hne, rfl, rfl⟩
      exact ⟨⟨rfl, rfl⟩, hne⟩
    · rintro ⟨⟨rfl, rfl⟩, hne⟩
      exact ⟨hne, rfl, rfl⟩

/-! ### Ways of writing entries -/

/-- A value that a connection string can carry: on one line, without semicolons, and with no white
space at either end. -/
structure IsValue (s : String) : Prop where
  noSemicolon : ';' ∉ s.toList
  noLineFeed : '\n' ∉ s.toList
  trimmed : IsTrimmed s.toList

/-- A name and a value that a connection string can carry. -/
structure IsEntry (p : String × String) : Prop where
  name : IsValue p.1
  noEquals : '=' ∉ p.1.toList
  value : IsValue p.2

instance (s : String) : Decidable (IsValue s) :=
  decidable_of_decidable_of_iff (p := ';' ∉ s.toList ∧ '\n' ∉ s.toList ∧ IsTrimmed s.toList)
    ⟨fun h => ⟨h.1, h.2.1, h.2.2⟩, fun h => ⟨h.noSemicolon, h.noLineFeed, h.trimmed⟩⟩

instance (p : String × String) : Decidable (IsEntry p) :=
  decidable_of_decidable_of_iff (p := IsValue p.1 ∧ '=' ∉ p.1.toList ∧ IsValue p.2)
    ⟨fun h => ⟨h.1, h.2.1, h.2.2⟩, fun h => ⟨h.name, h.noEquals, h.value⟩⟩

/-- The segments that spell an entry. -/
inductive Spelled (p : String × String) : List Char → Prop
  | intro {a b c d : List Char} (ha : IsBlank a) (hb : IsBlank b) (hc : IsBlank c)
      (hd : IsBlank d) :
      Spelled p (a ++ p.1.toList ++ b ++ '=' :: (c ++ p.2.toList ++ d))

/-- The segments that spell entries one after the other, with blank ones anywhere. -/
inductive Laid : List (String × String) → List (List Char) → Prop
  | nil : Laid [] []
  | blank {ps : List (String × String)} {segment : List Char} {rest : List (List Char)}
      (h : IsBlank segment) (hrest : Laid ps rest) : Laid ps (segment :: rest)
  | entry {p : String × String} {ps : List (String × String)} {segment : List Char}
      {rest : List (List Char)} (hp : IsEntry p) (h : Spelled p segment) (hrest : Laid ps rest) :
      Laid (p :: ps) (segment :: rest)

/-- The texts that a text becomes when line feeds are put in anywhere. -/
inductive Spread : List Char → List Char → Prop
  | nil : Spread [] []
  | keep {cs ds : List Char} (c : Char) (h : Spread cs ds) : Spread (c :: cs) (c :: ds)
  | feed {cs ds : List Char} (h : Spread cs ds) : Spread cs ('\n' :: ds)

/-- **A way of writing entries**: segments with semicolons between them, spread over lines. -/
def IsWritten (ps : List (String × String)) (text : String) : Prop :=
  ∃ segments, Laid ps segments ∧ Spread ([';'].intercalate segments) text.toList

/-- The value of the last entry with a name. -/
def lastValue (name : String) (ps : List (String × String)) : Option String :=
  ((ps.filter (·.1 = name)).getLast?).map Prod.snd

/-- A text without its line feeds. -/
def oneLine (cs : List Char) : List Char := cs.filter (· != '\n')

@[simp] theorem oneLine_append (cs ds : List Char) :
    oneLine (cs ++ ds) = oneLine cs ++ oneLine ds :=
  List.filter_append _ _

theorem oneLine_cons_of_ne {c : Char} (h : c ≠ '\n') (cs : List Char) :
    oneLine (c :: cs) = c :: oneLine cs :=
  List.filter_cons_of_pos (bne_iff_ne.2 h)

theorem isBlank_oneLine {cs : List Char} (h : IsBlank cs) : IsBlank (oneLine cs) := h.filter _

/-- The segments of a text: what stands between its semicolons, line feeds apart. -/
def segments (text : String) : List (List Char) := (oneLine text.toList).splitOn ';'

/-- The plain way of writing entries. -/
def plainText (ps : List (String × String)) : String :=
  ";".intercalate (ps.map fun p => p.1 ++ "=" ++ p.2)

/-! ### Fields -/

theorem map_trim_splitAll_front {front : List Char} (h : IsBlank front) (cs : List Char) :
    (splitAll ';' (front ++ cs)).map trim = (splitAll ';' cs).map trim := by
  have htrim : ∀ part, trim (front ++ part) = trim part := by
    intro part
    have := trim_surrounded h isBlank_nil part
    rwa [List.append_nil] at this
  have hfront : ';' ∉ front := h.not_mem (by decide)
  by_cases hcs : ';' ∈ cs
  · -- Only the first part has something in front of it.
    obtain ⟨part, rest, rfl, hpart⟩ := List.eq_append_cons_of_mem hcs
    have hjoined : ';' ∉ front ++ part := by simp [hfront, hpart]
    rw [← List.append_assoc, splitAll_append_cons hjoined, splitAll_append_cons hpart,
      List.map_cons, List.map_cons, htrim]
  · have hjoined : ';' ∉ front ++ cs := by simp [hfront, hcs]
    rw [splitAll_of_not_mem hjoined, splitAll_of_not_mem hcs, List.map_singleton,
      List.map_singleton, htrim]

theorem map_trim_splitAll_back {back : List Char} (h : IsBlank back) (cs : List Char) :
    (splitAll ';' (cs ++ back)).map trim = (splitAll ';' cs).map trim := by
  have htrim : ∀ part, trim (part ++ back) = trim part := trim_surrounded isBlank_nil h
  have hback : ';' ∉ back := h.not_mem (by decide)
  by_cases hcs : ';' ∈ cs
  · -- Only the last part, which begins behind the last semicolon, has something behind it.
    obtain ⟨part, rest, hreverse, hpart⟩ := List.eq_append_cons_of_mem (List.mem_reverse.2 hcs)
    have heq : cs = rest.reverse ++ ';' :: part.reverse := by
      rw [← List.reverse_reverse cs, hreverse]
      simp
    have hpart : ';' ∉ part.reverse := mt List.mem_reverse.1 hpart
    have hjoined : ';' ∉ part.reverse ++ back := by
      rw [List.mem_append, not_or]
      exact ⟨hpart, hback⟩
    rw [heq, List.append_assoc, List.cons_append, splitAll_append_separator,
      splitAll_append_separator, splitAll_of_not_mem hjoined, splitAll_of_not_mem hpart,
      List.map_append, List.map_append, List.map_singleton, List.map_singleton, htrim]
  · have hjoined : ';' ∉ cs ++ back := by simp [hback, hcs]
    rw [splitAll_of_not_mem hjoined, splitAll_of_not_mem hcs, List.map_singleton,
      List.map_singleton, htrim]

/-- **Fields are segments, trimmed, without those that are blank.**  That the text as a whole is
trimmed first takes nothing away that is not taken from the outer segments anyway. -/
theorem fields_eq (text : String) :
    fields text.toList = ((segments text).map trim).filter (· != []) := by
  obtain ⟨front, back, hfront, hback, heq⟩ := exists_trim_surrounded text.toList
  have hline := congrArg oneLine heq
  rw [oneLine_append, oneLine_append] at hline
  rw [segments, ← splitAll_eq_splitOn, hline, map_trim_splitAll_back (isBlank_oneLine hback),
    map_trim_splitAll_front (isBlank_oneLine hfront)]
  rfl

/-! ### Written entries -/

theorem IsValue.oneLine_eq {s : String} (h : IsValue s) : oneLine s.toList = s.toList := by
  rw [oneLine, List.filter_eq_self]
  intro c hc
  rw [bne_iff_ne]
  rintro rfl
  exact h.noLineFeed hc

theorem Spread.refl (cs : List Char) : Spread cs cs := by
  induction cs with
  | nil => exact .nil
  | cons c cs ih => exact ih.keep c

theorem Spread.append {as bs cs ds : List Char} (h : Spread as bs) (h' : Spread cs ds) :
    Spread (as ++ cs) (bs ++ ds) := by
  induction h with
  | nil => exact h'
  | keep c _ ih => exact ih.keep c
  | feed _ ih => exact ih.feed

theorem Spread.oneLine_eq {cs ds : List Char} (h : Spread cs ds) : oneLine ds = oneLine cs := by
  induction h with
  | nil => rfl
  | keep c _ ih =>
    rw [oneLine, oneLine, List.filter_cons, List.filter_cons, ← oneLine, ← oneLine, ih]
  | feed _ ih => exact ih

/-- A field is cut at its first equals sign, however it is trimmed. -/
theorem pair_trim {name : List Char} (h : '=' ∉ name) (value : List Char) :
    pair (trim (name ++ '=' :: value)) = .ok (trim name, trim value) := by
  have hname : '=' ∉ trimStart name := fun hmem => h ((List.dropWhile_sublist _).subset hmem)
  rw [pair, trim_append_cons (by decide), splitFirst_eq_some_iff.2 ⟨rfl, hname⟩]
  simp only [trim_trimStart, trim_trimEnd]

theorem semicolon_not_mem_of_laid {ps : List (String × String)} {ss : List (List Char)}
    (h : Laid ps ss) : ∀ s ∈ ss, ';' ∉ s := by
  have hsemicolon : isWhiteSpace ';' = false := by decide
  induction h with
  | nil => nofun
  | blank h _ ih =>
    intro s hs
    rcases List.mem_cons.1 hs with rfl | hs
    · exact h.not_mem hsemicolon
    · exact ih s hs
  | entry hp h _ ih =>
    intro s hs
    rcases List.mem_cons.1 hs with rfl | hs
    · obtain ⟨ha, hb, hc, hd⟩ := h
      simp [ha.not_mem hsemicolon, hb.not_mem hsemicolon, hc.not_mem hsemicolon,
        hd.not_mem hsemicolon, hp.name.noSemicolon, hp.value.noSemicolon]
    · exact ih s hs

/-- The characters of an entry. -/
def characters (p : String × String) : List Char × List Char := (p.1.toList, p.2.toList)

theorem pair_of_spelled {p : String × String} {segment : List Char} (hp : IsEntry p)
    (h : Spelled p segment) : pair (trim (oneLine segment)) = .ok (characters p) := by
  have hequals : isWhiteSpace '=' = false := by decide
  obtain ⟨ha, hb, hc, hd⟩ := h
  next a b c d =>
  have ha' := isBlank_oneLine ha
  have hb' := isBlank_oneLine hb
  have hname : '=' ∉ oneLine a ++ p.1.toList ++ oneLine b := by
    simp only [List.mem_append, not_or]
    exact ⟨⟨ha'.not_mem hequals, hp.noEquals⟩, hb'.not_mem hequals⟩
  rw [oneLine_append, oneLine_append, oneLine_append, oneLine_cons_of_ne (by decide),
    oneLine_append, oneLine_append, hp.name.oneLine_eq, hp.value.oneLine_eq, pair_trim hname,
    trim_surrounded ha' hb', trim_surrounded (isBlank_oneLine hc) (isBlank_oneLine hd),
    hp.name.trimmed.trim_eq, hp.value.trimmed.trim_eq, characters]

theorem pairs_of_laid {ps : List (String × String)} {ss : List (List Char)} (h : Laid ps ss) :
    pairs (((ss.map oneLine).map trim).filter (· != [])) = .ok (ps.map characters) := by
  induction h with
  | nil => rfl
  | blank h _ ih =>
    rw [List.map_cons, List.map_cons, trim_eq_nil_iff.2 (isBlank_oneLine h)]
    exact ih
  | entry hp h _ ih =>
    next p ps segment rest _ =>
    have hpair := pair_of_spelled hp h
    have hne : (trim (oneLine segment) != []) = true := by
      rw [bne_iff_ne]
      intro hnil
      rw [hnil] at hpair
      cases hpair
    rw [List.map_cons, List.map_cons, List.filter_cons, if_pos hne, pairs, hpair, ih]
    rfl

theorem oneLine_intercalate (ss : List (List Char)) :
    oneLine ([';'].intercalate ss) = [';'].intercalate (ss.map oneLine) := by
  induction ss with
  | nil => rfl
  | cons s ss ih =>
    cases ss with
    | nil => simp
    | cons s' ss =>
      rw [List.intercalate_cons_cons, oneLine_append, oneLine_append, ih]
      simp only [List.map_cons, List.intercalate_cons_cons]
      rfl

/-- The segments of a written text, line feeds apart, are those that it was written with. -/
theorem fields_of_laid {ps : List (String × String)} {ss : List (List Char)} {text : String}
    (h : Laid ps ss) (hspread : Spread ([';'].intercalate ss) text.toList) :
    fields text.toList = ((ss.map oneLine).map trim).filter (· != []) := by
  rw [fields_eq, segments, hspread.oneLine_eq, oneLine_intercalate]
  cases ss with
  | nil => rfl
  | cons s ss =>
    rw [List.splitOn_intercalate ';' ?_ (by simp)]
    intro segment hsegment
    obtain ⟨s', hs', rfl⟩ := List.mem_map.1 hsegment
    exact fun hmem => semicolon_not_mem_of_laid h s' hs' (List.mem_filter.1 hmem).1

/-- **Written entries are read back.** -/
theorem parse_of_isWritten {ps : List (String × String)} {text : String}
    (h : IsWritten ps text) : parse text = .ok (settings (ps.map characters)) := by
  obtain ⟨ss, hlaid, hspread⟩ := h
  rw [parse, fields_of_laid hlaid hspread, pairs_of_laid hlaid]
  rfl

theorem laid_plain {ps : List (String × String)} (h : ∀ p ∈ ps, IsEntry p) :
    Laid ps (ps.map fun p => p.1.toList ++ '=' :: p.2.toList) := by
  induction ps with
  | nil => exact .nil
  | cons p ps ih =>
    obtain ⟨hp, hps⟩ := List.forall_mem_cons.1 h
    refine .entry hp ?_ (ih hps)
    have hspelled : Spelled p _ := .intro isBlank_nil isBlank_nil isBlank_nil isBlank_nil
    simpa using hspelled

theorem toList_plainText (ps : List (String × String)) :
    (plainText ps).toList =
      [';'].intercalate (ps.map fun p => p.1.toList ++ '=' :: p.2.toList) := by
  rw [plainText, String.toList_intercalate, List.map_map]
  congr 1
  refine List.map_congr_left fun p _ => ?_
  simp

/-- The plain way is one of the ways. -/
theorem isWritten_plainText {ps : List (String × String)} (h : ∀ p ∈ ps, IsEntry p) :
    IsWritten ps (plainText ps) :=
  ⟨_, laid_plain h, by rw [toList_plainText]; exact Spread.refl _⟩

/-! ### What entries say -/

theorem lastValue_append (name : String) (ps qs : List (String × String)) :
    lastValue name (ps ++ qs) = (lastValue name qs).or (lastValue name ps) := by
  simp only [lastValue, List.filter_append, List.getLast?_append, Option.map_or]

theorem lastValue_cons (name : String) (p : String × String) (ps : List (String × String)) :
    lastValue name (p :: ps) =
      (lastValue name ps).or (if p.1 = name then some p.2 else none) := by
  have hsingle : lastValue name [p] = if p.1 = name then some p.2 else none := by
    by_cases h : p.1 = name
    · simp [lastValue, h]
    · simp [lastValue, h]
  rw [← List.singleton_append, lastValue_append, hsingle]

theorem last?_map_characters (name : String) (ps : List (String × String)) :
    last? name (ps.map characters) = (lastValue name ps).map String.toList := by
  induction ps with
  | nil => rfl
  | cons p ps ih =>
    rw [lastValue_cons, List.map_cons, last?, ih]
    cases lastValue name ps with
    | some value => rfl
    | none =>
      by_cases h : p.1 = name
      · simp [h, characters]
      · simp [h, characters, String.toList_inj]

/-- What entries say of a hub. -/
structure Carries (ps : List (String × String)) (s : Settings) : Prop where
  hostname : s.hostname = lastValue "HostName" ps
  keyName : s.keyName = lastValue "SharedAccessKeyName" ps
  key : s.key = lastValue "SharedAccessKey" ps
  parts : ∀ name suffix, s.hubName = some name ∧ s.hubSuffix = some suffix ↔
    ∃ hostname, s.hostname = some hostname ∧ IsDivided hostname name suffix ∧
      name ≠ "" ∧ suffix ≠ ""
  together : s.hubName.isSome = s.hubSuffix.isSome

/-- The parts of the host name are there together, if neither is empty. -/
theorem settings_parts (ps : List (List Char × List Char)) (name suffix : String) :
    (settings ps).hubName = some name ∧ (settings ps).hubSuffix = some suffix ↔
      ∃ hostname, (settings ps).hostname = some hostname ∧ IsDivided hostname name suffix ∧
        name ≠ "" ∧ suffix ≠ "" := by
  have hiff : ∀ cs : List Char, hubParts? cs = some (name.toList, suffix.toList) ↔
      IsDivided (String.ofList cs) name suffix ∧ name ≠ "" ∧ suffix ≠ "" := by
    intro cs
    rw [← hubParts?_eq_some_iff, String.toList_ofList]
  simp only [settings]
  cases last? "HostName" ps with
  | none => simp
  | some cs =>
    simp only [Option.bind_some, Option.map_some, Option.some.injEq, exists_eq_left', ← hiff,
      Option.map_eq_some_iff, Prod.exists]
    constructor
    · rintro ⟨⟨before, after, h, rfl⟩, before', after', h', rfl⟩
      rw [h] at h'
      cases h'
      rw [h, String.toList_ofList, String.toList_ofList]
    · intro h
      exact ⟨⟨_, _, h, String.ofList_toList⟩, _, _, h, String.ofList_toList⟩

theorem map_ofList_map_toList (o : Option String) :
    (o.map String.toList).map String.ofList = o := by
  simp

theorem carries_settings (ps : List (String × String)) :
    Carries ps (settings (ps.map characters)) where
  hostname := by simp only [settings, last?_map_characters, map_ofList_map_toList]
  keyName := by simp only [settings, last?_map_characters, map_ofList_map_toList]
  key := by simp only [settings, last?_map_characters, map_ofList_map_toList]
  parts := settings_parts _
  together := by simp only [settings, Option.isSome_map]

/-! ### Entries that say the same -/

/-- The names that settings depend on. -/
def settingNames : List String := ["HostName", "SharedAccessKeyName", "SharedAccessKey"]

/-- One change to entries that no setting depends on: a further entry whose name is not known, or
two neighbours of different names the other way round. -/
inductive Change : List (String × String) → List (String × String) → Prop
  | unknown {p : String × String} (front back : List (String × String))
      (h : p.1 ∉ settingNames) : Change (front ++ back) (front ++ p :: back)
  | swap {p q : String × String} (front back : List (String × String)) (h : p.1 ≠ q.1) :
      Change (front ++ p :: q :: back) (front ++ q :: p :: back)

variable {ps qs : List (String × String)}

theorem Change.lastValue_eq (h : Change ps qs) {name : String} (hname : name ∈ settingNames) :
    lastValue name ps = lastValue name qs := by
  cases h with
  | unknown front back hp =>
    have hne : ∀ p : String × String, p.1 ∉ settingNames → p.1 ≠ name := by
      rintro p hp rfl
      exact hp hname
    rw [lastValue_append, lastValue_append, lastValue_cons, if_neg (hne _ hp), Option.or_none]
  | swap front back hpq =>
    next p q =>
    simp only [lastValue_append, lastValue_cons]
    by_cases hp : p.1 = name
    · have hq : q.1 ≠ name := fun hq => hpq (hp.trans hq.symm)
      simp only [if_neg hq, Option.or_none]
    · simp only [if_neg hp, Option.or_none]

theorem settings_congr (h : ∀ name ∈ settingNames, lastValue name ps = lastValue name qs) :
    settings (ps.map characters) = settings (qs.map characters) := by
  simp only [settings, last?_map_characters, h "HostName" (by decide),
    h "SharedAccessKeyName" (by decide), h "SharedAccessKey" (by decide)]

/-- **Any number of changes change nothing.** -/
theorem settings_eq_of_changes (h : Relation.EqvGen Change ps qs) :
    settings (ps.map characters) = settings (qs.map characters) := by
  induction h with
  | rel _ _ h => exact settings_congr fun _ hname => h.lastValue_eq hname
  | refl _ => rfl
  | symm _ _ _ ih => exact ih.symm
  | trans _ _ _ _ _ ih ih' => exact ih.trans ih'

theorem Change.cons (p : String × String) (h : Change ps qs) : Change (p :: ps) (p :: qs) := by
  cases h with
  | unknown front back h => exact .unknown (p :: front) back h
  | swap front back h => exact .swap (p :: front) back h

theorem changes_cons (p : String × String) (h : Relation.EqvGen Change ps qs) :
    Relation.EqvGen Change (p :: ps) (p :: qs) := by
  induction h with
  | rel _ _ h => exact .rel _ _ (h.cons p)
  | refl _ => exact .refl _
  | symm _ _ _ ih => exact .symm _ _ ih
  | trans _ _ _ _ _ ih ih' => exact .trans _ _ _ ih ih'

/-- Entries of different names may come in any order. -/
theorem changes_of_perm (h : ps.Perm qs) (hnames : (ps.map Prod.fst).Nodup) :
    Relation.EqvGen Change ps qs := by
  induction h with
  | nil => exact .refl _
  | cons p _ ih =>
    rw [List.map_cons, List.nodup_cons] at hnames
    exact changes_cons p (ih hnames.2)
  | swap p q ps =>
    simp only [List.map_cons, List.nodup_cons, List.mem_cons, not_or] at hnames
    exact .rel _ _ (.swap [] ps hnames.1.1)
  | trans h _ ih ih' => exact .trans _ _ _ (ih hnames) (ih' ((h.map _).nodup_iff.1 hnames))

/-! ### Texts that are refused -/

/-- Fields are refused for the first one that has no equals sign. -/
theorem pairs_eq_error_iff {fs : List (List Char)} {e : Error} :
    pairs fs = .error e ↔ ∃ f, fs.find? ('=' ∉ ·) = some f ∧ e = missingEquals f := by
  induction fs with
  | nil => simp [pairs]
  | cons f fs ih =>
    rw [pairs]
    by_cases hf : '=' ∈ f
    · rw [List.find?_cons_of_neg (by simpa using hf), ← ih]
      cases hpair : pair f with
      | error e' => exact absurd hf (pair_eq_error_iff.1 hpair).1
      | ok p => cases pairs fs <;> simp
    · rw [pair_eq_error_iff.2 ⟨hf, rfl⟩, List.find?_cons_of_pos (by simpa using hf)]
      simp [eq_comm]

/-- **A text is refused exactly for a segment that is neither blank nor has an equals sign**, and
the first such segment is named. -/
theorem parse_eq_error_iff {text : String} {e : Error} :
    parse text = .error e ↔
      ∃ s, (segments text).find? (fun s => ¬ IsBlank s ∧ '=' ∉ s) = some s ∧
        e = missingEquals (trim s) := by
  have hparse : parse text = .error e ↔ pairs (fields text.toList) = .error e := by
    rw [parse]
    cases pairs (fields text.toList) <;> simp [Except.map]
  have hrefused :
      (fun f : List Char => decide ((f != []) = true ∧ decide ('=' ∉ f) = true)) ∘ trim =
        fun s => decide (¬ IsBlank s ∧ '=' ∉ s) := by
    funext s
    rw [Function.comp_apply, decide_eq_decide, decide_eq_true_eq, mem_trim_iff (by decide),
      bne_iff_ne, ne_eq, trim_eq_nil_iff]
    rfl
  rw [hparse, pairs_eq_error_iff, fields_eq, List.find?_filter, List.find?_map, hrefused]
  simp only [Option.map_eq_some_iff]
  constructor
  · rintro ⟨f, ⟨s, hs, rfl⟩, he⟩
    exact ⟨s, hs, he⟩
  · rintro ⟨s, hs, he⟩
    exact ⟨_, ⟨s, hs, rfl⟩, he⟩

theorem exists_parse_eq_error_iff {text : String} :
    (∃ e, parse text = .error e) ↔ ∃ s ∈ segments text, ¬ IsBlank s ∧ '=' ∉ s := by
  simp only [parse_eq_error_iff]
  constructor
  · rintro ⟨_, s, hs, -⟩
    have hrefused := List.find?_some hs
    rw [decide_eq_true_eq] at hrefused
    exact ⟨s, List.mem_of_find?_eq_some hs, hrefused⟩
  · rintro ⟨s, hs, hrefused⟩
    cases hfound : (segments text).find? (fun s => ¬ IsBlank s ∧ '=' ∉ s) with
    | none => exact absurd hrefused (by simpa using List.find?_eq_none.1 hfound s hs)
    | some s' => exact ⟨_, s', rfl, rfl⟩

theorem kind_of_parse_eq_error {text : String} {e : Error} (h : parse text = .error e) :
    e.kind = .invalidArgument := by
  obtain ⟨s, -, rfl⟩ := parse_eq_error_iff.1 h
  rfl

/-! ### What a connection string says -/

/-- **What a connection string says, and when it says nothing.**  However entries are written, they
are read back, the last value of each name; it does not matter which unknown names stand between
them, nor in which order different names come.  A text is refused, for what it is, only if one of
its segments is neither blank nor has an equals sign. -/
theorem parse_exact :
    (∀ ps text, IsWritten ps text → ∃ s, parse text = .ok s ∧ Carries ps s) ∧
    (∀ ps qs text text', IsWritten ps text → IsWritten qs text' →
      Relation.EqvGen Change ps qs → parse text = parse text') ∧
    (∀ ps qs text text', IsWritten ps text → IsWritten qs text' →
      ps.Perm qs → (ps.map Prod.fst).Nodup → parse text = parse text') ∧
    ∀ text,
      ((∃ e, parse text = .error e) ↔ ∃ s ∈ segments text, ¬ IsBlank s ∧ '=' ∉ s) ∧
      ∀ e, parse text = .error e → e.kind = .invalidArgument := by
  have same : ∀ ps qs text text', IsWritten ps text → IsWritten qs text' →
      Relation.EqvGen Change ps qs → parse text = parse text' := by
    intro ps qs text text' h h' hchanges
    rw [parse_of_isWritten h, parse_of_isWritten h', settings_eq_of_changes hchanges]
  refine ⟨?_, same, ?_, ?_⟩
  · intro ps text h
    exact ⟨_, parse_of_isWritten h, carries_settings ps⟩
  · intro ps qs text text' h h' hperm hnames
    exact same ps qs text text' h h' (changes_of_perm hperm hnames)
  · intro text
    exact ⟨exists_parse_eq_error_iff, fun e he => kind_of_parse_eq_error he⟩

/-- Entries with a name that comes twice, a name that is not known, and equals signs in a value. -/
def sampleEntries : List (String × String) :=
  [("SharedAccessKey", "a2V5=="), ("ü", ""), ("HostName", "old"), ("HostName", "hub.example")]

/-- A way of writing them: with a blank segment, white space of several kinds, and two lines more
than it needs. -/
def sampleText : String :=
  ";\tSharedAccess\nKey\u00a0= a2V5==\r\n;ü=;HostName=old; HostName =hub.exam\nple"

theorem isEntry_of_mem_sampleEntries : ∀ p ∈ sampleEntries, IsEntry p := by
  decide

theorem isWritten_sampleText : IsWritten sampleEntries sampleText := by
  have hentry := isEntry_of_mem_sampleEntries
  have hkey : Spelled ("SharedAccessKey", "a2V5==") "\tSharedAccessKey\u00a0= a2V5==\r\n".toList :=
    .intro (a := ['\t']) (b := ['\u00a0']) (c := [' ']) (d := ['\r', '\n']) (by decide)
      (by decide) (by decide) (by decide)
  have hunknown : Spelled ("ü", "") "ü=".toList :=
    .intro isBlank_nil isBlank_nil isBlank_nil isBlank_nil
  have hold : Spelled ("HostName", "old") "HostName=old".toList :=
    .intro isBlank_nil isBlank_nil isBlank_nil isBlank_nil
  have hhost : Spelled ("HostName", "hub.example") " HostName =hub.example".toList :=
    .intro (a := [' ']) (b := [' ']) (by decide) (by decide) isBlank_nil isBlank_nil
  refine ⟨_, .blank isBlank_nil (.entry (hentry _ (by decide)) hkey (.entry (hentry _ (by decide))
    hunknown (.entry (hentry _ (by decide)) hold (.entry (hentry _ (by decide)) hhost .nil)))), ?_⟩
  -- The text is cut where line feeds were put in.
  let front := ";\tSharedAccess".toList
  let middle := "Key\u00a0= a2V5==\r\n;ü=;HostName=old; HostName =hub.exam".toList
  let back := "ple".toList
  have hspread : Spread (front ++ (middle ++ back)) (front ++ '\n' :: (middle ++ '\n' :: back)) :=
    (Spread.refl front).append ((Spread.refl middle).append (Spread.refl back).feed).feed
  have hjoined : [';'].intercalate [[], "\tSharedAccessKey\u00a0= a2V5==\r\n".toList, "ü=".toList,
      "HostName=old".toList, " HostName =hub.example".toList] = front ++ (middle ++ back) := by
    decide
  have htext : sampleText.toList = front ++ '\n' :: (middle ++ '\n' :: back) := by decide
  rw [hjoined, htext]
  exact hspread

/-- The same in another order, without the name that is not known. -/
def sampleChanged : List (String × String) :=
  [("HostName", "old"), ("HostName", "hub.example"), ("SharedAccessKey", "a2V5==")]

theorem changes_sample : Relation.EqvGen Change sampleEntries sampleChanged := by
  let key := ("SharedAccessKey", "a2V5==")
  let old := ("HostName", "old")
  let host := ("HostName", "hub.example")
  have hunknown : Change [key, old, host] sampleEntries := .unknown [key] _ (by decide)
  have hfirst : Change [key, old, host] [old, key, host] := .swap [] _ (by decide)
  have hsecond : Change [old, key, host] sampleChanged := .swap [old] _ (by decide)
  exact .trans _ _ _ (.symm _ _ (.rel _ _ hunknown))
    (.trans _ _ _ (.rel _ _ hfirst) (.rel _ _ hsecond))

theorem parse_exact_sample :
    IsWritten sampleEntries sampleText ∧
      (∃ s, parse sampleText = .ok s ∧ s.hostname = some "hub.example" ∧ s.keyName = none ∧
        s.key = some "a2V5==" ∧ s.hubName = some "hub" ∧ s.hubSuffix = some "example") ∧
      parse sampleText = parse "HostName=old;HostName=hub.example;SharedAccessKey=a2V5==" ∧
      parse "ü=;HostName=hub.example" = parse "HostName=hub.example;ü=" ∧
      ∃ e, parse "HostName" = .error e ∧ e.kind = .invalidArgument := by
  obtain ⟨hread, hchanged, hordered, hrefused⟩ := parse_exact
  have hplain : ∀ ps : List (String × String), (∀ p ∈ ps, p ∈ sampleEntries) →
      IsWritten ps (plainText ps) :=
    fun ps h => isWritten_plainText fun p hp => isEntry_of_mem_sampleEntries p (h p hp)
  refine ⟨isWritten_sampleText, ?_, ?_, ?_, ?_⟩
  · obtain ⟨s, hs, hcarries⟩ := hread _ _ isWritten_sampleText
    have hhost : s.hostname = some "hub.example" := hcarries.hostname
    have hparts := (hcarries.parts "hub" "example").2
      ⟨_, hhost, ⟨by decide, by decide⟩, by decide, by decide⟩
    exact ⟨s, hs, hhost, hcarries.keyName, hcarries.key, hparts⟩
  · exact hchanged _ _ _ _ isWritten_sampleText (hplain sampleChanged (by decide)) changes_sample
  · have hfront := hplain [("ü", ""), ("HostName", "hub.example")] (by decide)
    have hback := hplain [("HostName", "hub.example"), ("ü", "")] (by decide)
    exact hordered _ _ _ _ hfront hback (.swap _ _ []) (by decide)
  · obtain ⟨hiff, hkind⟩ := hrefused "HostName"
    have hsegment : "HostName".toList ∈ segments "HostName" ∧ ¬IsBlank "HostName".toList ∧
        '=' ∉ "HostName".toList := by decide
    obtain ⟨e, he⟩ := hiff.2 ⟨_, hsegment⟩
    exact ⟨e, he, hkind e he⟩

end ConnectionString

end HubConfig
