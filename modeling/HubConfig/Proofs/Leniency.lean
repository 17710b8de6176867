/-
**Bodies that are read in spite of everything.**

A hub may answer with members of the wrong kind.  Texts, labels, content and a priority that are not
what they should be count for nothing, as if they were not there; only metrics are taken at their
word, and a body is refused for them alone.  Behind this stand the limits on values, and one more
that no member escapes: even the name of a member that nobody asked for must spell a text.

Main definitions:

* `IsTolerable`: members within the limits, of which no known one comes twice;
* `isNegligible`: members that count for nothing.

Main results:

* `hasMember_filter_iff`, `lookup_filter_cases`: what is left without them;
* `Configuration.ofFields?_of_negligible`: members of the wrong kind are as good as none;
* `Configuration.decode_tolerant`: **a body is refused for its metrics alone**.
-/

import HubConfig.Proofs.Edits
import HubConfig.Proofs.MetricsForm
import Mathlib.Control.Monad.Basic

set_option autoImplicit false

namespace HubConfig

open HubConfig.Json

/-! ### Members that count for nothing -/

/-- Whether a value of some kind counts for nothing under a name. -/
def isNegligibleKind (name : String) (kind : Kind) : Bool :=
  if name ∈ textNames then kind != .string
  else if name = "labels" then kind != .object
  else if name = "content" then kind != .array && kind != .object
  else if name = "priority" then kind != .number && kind != .string
  else false

/-- Whether a member counts for nothing. -/
def isNegligible (m : Member) : Bool :=
  match m.1.text? with
  | some name => isNegligibleKind name m.2.kind
  | none => false

theorem hasMember_filter_iff {ms : List Member} {name : String} {t : Tree .value} :
    HasMember (ms.filter fun m => !isNegligible m) name t ↔
      HasMember ms name t ∧ isNegligibleKind name t.kind = false := by
  constructor
  · rintro ⟨key, hkey, hmem⟩
    obtain ⟨hmem, hkeep⟩ := List.mem_filter.1 hmem
    rw [isNegligible, hkey, Bool.not_eq_true'] at hkeep
    exact ⟨⟨key, hkey, hmem⟩, hkeep⟩
  · rintro ⟨⟨key, hkey, hmem⟩, hkeep⟩
    refine ⟨key, hkey, List.mem_filter.2 ⟨hmem, ?_⟩⟩
    rw [isNegligible, hkey, Bool.not_eq_true']
    exact hkeep

/-! ### Without the members that count for nothing -/

/-- Members within the limits: no known name comes twice, what is read for its meaning is ordinary
and no deeper than allowed, the record itself being a level, and metrics are tolerable. -/
structure IsTolerable (ms : List Member) : Prop where
  once : KnownOnce configurationFields ms
  ordinary : ∀ name ∈ valueFields, ∀ t, HasMember ms name t → t.IsOrdinary ∧ t.depth < maxNesting
  metrics : ∀ name ∈ metricsNames, ∀ t, HasMember ms name t → t.IsTolerableMetrics

theorem Json.KnownOnce.filter {known : List String} {ms : List Member} (h : KnownOnce known ms)
    (p : Member → Bool) : KnownOnce known (ms.filter p) :=
  h.sublist List.filter_sublist

theorem Json.NamesAreTexts.filter {ms : List Member} (h : NamesAreTexts ms) (p : Member → Bool) :
    NamesAreTexts (ms.filter p) :=
  fun m hm => h m (List.mem_filter.1 hm).1

/-- What is found without them: the same, or nothing where one of them stood. -/
theorem lookup_filter_cases {ms : List Member} {fields fields' : List Field}
    (h : recordOf? configurationFields ms = some fields)
    (h' : recordOf? configurationFields (ms.filter fun m => !isNegligible m) = some fields')
    {name : String} (hname : name ∈ configurationFields) :
    fields'.lookup name = fields.lookup name ∨
      ∃ t, fields.lookup name = some t ∧ isNegligibleKind name t.kind = true ∧
        fields'.lookup name = none := by
  have hkept : ∀ t, fields'.lookup name = some t ↔
      fields.lookup name = some t ∧ isNegligibleKind name t.kind = false := by
    intro t
    rw [lookup_recordOf?_iff h' hname, hasMember_filter_iff, lookup_recordOf?_iff h hname]
  cases ht : fields.lookup name with
  | none =>
    refine Or.inl (Option.eq_none_iff_forall_ne_some.2 fun t hsome => ?_)
    rw [hkept, ht] at hsome
    cases hsome.1
  | some t =>
    cases hn : isNegligibleKind name t.kind with
    | false => exact Or.inl ((hkept t).2 ⟨ht, hn⟩)
    | true =>
      refine Or.inr ⟨t, rfl, hn, Option.eq_none_iff_forall_ne_some.2 fun u hsome => ?_⟩
      obtain ⟨hu, hkeep⟩ := (hkept u).1 hsome
      rw [ht] at hu
      cases hu
      rw [hn] at hkeep
      cases hkeep

section

variable {n : Nat} {fields fields' : List Field} {name : String}

/-- A reading that makes the same of a negligible value as of `null` does not miss it. -/
theorem map_valueField?_of_negligible {β : Type} {f : Value → β}
    (hf : ∀ v : Value, isNegligibleKind name v.kind = true → f v = f .null)
    (hordinary : ∀ t, fields.lookup name = some t → t.IsOrdinary ∧ t.depth ≤ n)
    (hcases : fields'.lookup name = fields.lookup name ∨
      ∃ t, fields.lookup name = some t ∧ isNegligibleKind name t.kind = true ∧
        fields'.lookup name = none) :
    (valueField? n fields' name).map f = (valueField? n fields name).map f := by
  rcases hcases with heq | ⟨t, ht, hn, hnone⟩
  · rw [valueField?, valueField?, heq]
  · obtain ⟨hord, hdepth⟩ := hordinary t ht
    obtain ⟨v, hv⟩ : ∃ v, t.value? n = some v := Tree.exists_valueWith hord hdepth
    rw [← Tree.kind_of_value? hord hv] at hn
    simp only [valueField?, ht, hnone, hv, Option.map_some, hf v hn]

/-- Metrics never count for nothing. -/
theorem isNegligibleKind_of_mem_metricsNames (hname : name ∈ metricsNames) (kind : Kind) :
    isNegligibleKind name kind = false := by
  simp only [metricsNames, List.mem_cons, List.not_mem_nil, or_false] at hname
  rcases hname with rfl | rfl <;> rfl

theorem textOfValue_of_negligible (hname : name ∈ textNames) {v : Value}
    (h : isNegligibleKind name v.kind = true) : textOfValue v = textOfValue .null := by
  rw [isNegligibleKind, if_pos hname] at h
  cases v with
  | string s => cases h
  | _ => rfl

theorem labelsOfValue_of_negligible {v : Value} (h : isNegligibleKind "labels" v.kind = true) :
    labelsOfValue v = labelsOfValue .null := by
  cases v with
  | object members => cases h
  | _ => rfl

theorem priorityOfValue_of_negligible {v : Value}
    (h : isNegligibleKind "priority" v.kind = true) :
    priorityOfValue v = priorityOfValue .null := by
  cases v with
  | number n => cases h
  | string s => cases h
  | _ => rfl

theorem contentField?_of_negligible
    (htext : ∀ t, fields.lookup "content" = some t → t.IsText)
    (hcases : fields'.lookup "content" = fields.lookup "content" ∨
      ∃ t, fields.lookup "content" = some t ∧ isNegligibleKind "content" t.kind = true ∧
        fields'.lookup "content" = none) :
    contentField? fields' "content" = contentField? fields "content" := by
  rcases hcases with heq | ⟨t, ht, hn, hnone⟩
  · rw [contentField?, contentField?, heq]
  · have hread : Content.ofTree? t = none := by
      cases t with
      | emptyArray gap => cases hn
      | array items => cases hn
      | emptyObject gap => cases hn
      | object members => cases hn
      | _ => rfl
    simp only [contentField?, ht, hnone, Tree.source?_of_isText (htext t ht), hread,
      Option.map_some, Option.getD_none]

/-- **Members that count for nothing are as good as none.** -/
theorem Configuration.ofFields?_of_negligible
    (hordinary : ∀ name ∈ valueFields, ∀ t, fields.lookup name = some t →
      t.IsOrdinary ∧ t.depth ≤ n)
    (htext : ∀ t, fields.lookup "content" = some t → t.IsText)
    (hcases : ∀ name ∈ configurationFields, fields'.lookup name = fields.lookup name ∨
      ∃ t, fields.lookup name = some t ∧ isNegligibleKind name t.kind = true ∧
        fields'.lookup name = none) :
    ofFields? n fields' = ofFields? n fields := by
  refine ofFields?_congr ?_ ?_ (contentField?_of_negligible htext (hcases _ (by decide))) ?_ ?_
  · intro name hname
    have hvalue := mem_valueFields_of_mem_textNames name hname
    exact map_valueField?_of_negligible (fun v => textOfValue_of_negligible hname)
      (hordinary name hvalue) (hcases name (mem_configurationFields_of_mem_valueFields name hvalue))
  · exact map_valueField?_of_negligible (fun v => priorityOfValue_of_negligible)
      (hordinary _ (by decide)) (hcases _ (by decide))
  · exact map_valueField?_of_negligible (fun v => labelsOfValue_of_negligible)
      (hordinary _ (by decide)) (hcases _ (by decide))
  · intro name hname
    rcases hcases name (mem_configurationFields_of_mem_metricsNames name hname) with
      heq | ⟨t, -, hn, -⟩
    · rw [metricsField?, metricsField?, optionalField?, optionalField?, heq]
    · rw [isNegligibleKind_of_mem_metricsNames hname] at hn
      cases hn

end

/-! ### Bodies -/

theorem Json.IsTextMember.of_isBodyOf {body : Bytes} {ms : List Member} (h : IsBodyOf body ms)
    (htext : none ∉ Glyph.ofBytes body) : ∀ m ∈ ms, IsTextMember m := by
  obtain ⟨d, hd, hms⟩ := h
  refine (Tree.isText_iff_of_members? hms).1 fun hmem => htext ?_
  rw [hd, Document.print]
  exact List.mem_append_left _ (List.mem_append_right _ hmem)

section

variable {ms : List Member} {fields : List Field}

theorem IsTolerable.ordinary_lookup (h : IsTolerable ms)
    (hfields : recordOf? configurationFields ms = some fields) {name : String}
    (hname : name ∈ valueFields) {t : Tree .value} (ht : fields.lookup name = some t) :
    t.IsOrdinary ∧ t.depth ≤ maxNesting - 1 := by
  have hknown := mem_configurationFields_of_mem_valueFields name hname
  obtain ⟨hord, hdepth⟩ := h.ordinary name hname t ((lookup_recordOf?_iff hfields hknown).1 ht)
  exact ⟨hord, Nat.le_sub_one_of_lt hdepth⟩

theorem isText_content (hmembers : ∀ m ∈ ms, IsTextMember m)
    (hfields : recordOf? configurationFields ms = some fields) {t : Tree .value}
    (ht : fields.lookup "content" = some t) : t.IsText := by
  obtain ⟨key, -, hmem⟩ := (lookup_recordOf?_iff hfields (by decide)).1 ht
  exact (hmembers _ hmem).2

/-- Members within the limits report a configuration if their metrics are as they should be. -/
theorem Configuration.exists_ofMembers?_iff (hmembers : ∀ m ∈ ms, IsTextMember m)
    (hnames : NamesAreTexts ms) (htol : IsTolerable ms) :
    (∃ c, ofMembers? ms = some c) ↔
      ∀ name ∈ metricsNames, IsOptional Tree.IsMetrics ms name := by
  obtain ⟨fields, hfields⟩ := exists_recordOf? hnames htol.once
  have hread : ∀ name ∈ metricsNames,
      ((∃ metrics, metricsField? fields name = some metrics) ↔
        IsOptional Tree.IsMetrics ms name) := fun name hname =>
    exists_metricsField?_iff hfields (mem_configurationFields_of_mem_metricsNames name hname)
      (htol.metrics name hname)
  have hvalues : ∀ name ∈ valueFields, ∃ v, valueField? (maxNesting - 1) fields name = some v := by
    intro name hname
    rw [valueField?]
    cases ht : fields.lookup name with
    | none => exact ⟨.null, rfl⟩
    | some t =>
      obtain ⟨hord, hdepth⟩ := htol.ordinary_lookup hfields hname ht
      exact Tree.exists_valueWith hord hdepth
  have hcontent : ∃ content, contentField? fields "content" = some content := by
    rw [contentField?]
    cases ht : fields.lookup "content" with
    | none => exact ⟨.empty, rfl⟩
    | some t =>
      have hsource := Tree.source?_of_isText (isText_content hmembers hfields ht)
      exact ⟨(Content.ofTree? t).getD .empty, by simp only [hsource, Option.map_some]⟩
  rw [ofMembers?, hfields, Option.bind_some, exists_ofFields?_iff]
  simp only [hcontent, true_and]
  constructor
  · rintro ⟨-, hmetrics⟩ name hname
    exact (hread name hname).1 (hmetrics name hname)
  · intro hmetrics
    exact ⟨hvalues, fun name hname => (hread name hname).2 (hmetrics name hname)⟩

theorem Configuration.ofMembers?_filter (hmembers : ∀ m ∈ ms, IsTextMember m)
    (hnames : NamesAreTexts ms) (htol : IsTolerable ms) :
    ofMembers? (ms.filter fun m => !isNegligible m) = ofMembers? ms := by
  obtain ⟨fields, hfields⟩ := exists_recordOf? hnames htol.once
  obtain ⟨fields', hfields'⟩ := exists_recordOf? (hnames.filter fun m => !isNegligible m)
    (htol.once.filter fun m => !isNegligible m)
  rw [ofMembers?, ofMembers?, hfields, hfields', Option.bind_some, Option.bind_some]
  exact ofFields?_of_negligible (fun name hname t => htol.ordinary_lookup hfields hname)
    (fun t => isText_content hmembers hfields) fun name => lookup_filter_cases hfields hfields'

end

namespace Configuration

/-- **A body is refused for its metrics alone**, if it is within the limits and all of its names are
texts; and the members that count for nothing may as well be missing. -/
theorem decode_tolerant {body : Bytes} {ms : List Member} (h : IsBodyOf body ms)
    (htext : none ∉ Glyph.ofBytes body) (hnames : NamesAreTexts ms) (htol : IsTolerable ms) :
    (decode body = .error bodyError ↔
      ∃ name ∈ metricsNames, ¬IsOptional Tree.IsMetrics ms name) ∧
    ((∀ name ∈ metricsNames, IsOptional Tree.IsMetrics ms name) →
      ∃ c, decode body = .ok c ∧
        (∃ body', IsBodyOf body' (ms.filter fun m => !isNegligible m)) ∧
        ∀ body', IsBodyOf body' (ms.filter fun m => !isNegligible m) → decode body' = .ok c) := by
  have hmembers := IsTextMember.of_isBodyOf h htext
  have hread := exists_ofMembers?_iff hmembers hnames htol
  refine ⟨?_, fun hmetrics => ?_⟩
  · have hsome : decode body = .error bodyError ↔ ¬∃ c, ofMembers? ms = some c := by
      rw [decode_of_isBodyOf h]
      cases ofMembers? ms <;> simp
    rw [hsome, hread]
    simp only [Classical.not_forall, exists_prop]
  · obtain ⟨c, hc⟩ := hread.2 hmetrics
    refine ⟨c, by rw [decode_of_isBodyOf h, hc], ?_, fun body' h' => ?_⟩
    · exact exists_isBodyOf fun m hm => hmembers m (List.mem_filter.1 hm).1
    · rw [decode_of_isBodyOf h', ofMembers?_filter hmembers hnames htol, hc]

/-- Members with metrics that are none. -/
def sampleBroken : List Member := [(Literal.ofText "metrics", .bool true)]

/-- A count that is negative, by name. -/
def sampleResults : Tree .value := .objectOf [(Literal.ofText "n", .ofInt (-5))]

/-- Metrics with that count. -/
def sampleMetrics : Tree .value := .objectOf [(Literal.ofText "results", sampleResults)]

/-- Members of which the first two are of the wrong kind. -/
def sampleOdd : List Member :=
  [(Literal.ofText "id", .ofInt 7), (Literal.ofText "priority", .null),
    (Literal.ofText "metrics", sampleMetrics), sampleStranger]

theorem isMetrics_sampleMetrics : sampleMetrics.IsMetrics := by
  refine ⟨_, Tree.members?_objectOf _, fun t ht => Or.inr ?_, fun t ht => ?_⟩
  · obtain ⟨-, rfl⟩ := hasMember_singleton_iff.1 ht
    refine ⟨_, Tree.members?_objectOf _, fun m hm => ?_⟩
    rw [List.mem_singleton.1 hm]
    exact ⟨-5, by decide, by decide, rfl⟩
  · obtain ⟨hname, -⟩ := hasMember_singleton_iff.1 ht
    exact absurd hname (by decide)

theorem isTolerableMetrics_sampleMetrics : sampleMetrics.IsTolerableMetrics := by
  have only : ∀ ms, sampleMetrics.members? = some ms →
      ms = [(Literal.ofText "results", sampleResults)] := fun ms h =>
    Option.some.inj (h.symm.trans (Tree.members?_objectOf _))
  refine ⟨by decide, fun ms h => ?_, fun ms h => ?_, fun ms h name _ u hu => ?_⟩
  · obtain rfl := only ms h
    intro m hm
    rw [List.mem_singleton.1 hm]
    exact ⟨_, Literal.text?_ofText _⟩
  · obtain rfl := only ms h
    exact List.pairwise_singleton _ _
  · obtain rfl := only ms h
    obtain ⟨-, rfl⟩ := hasMember_singleton_iff.1 hu
    exact ⟨by decide, by decide, Tree.isOrdinary_ofInt (by decide) (by decide)⟩

theorem members_sampleOdd {name : String} {t : Tree .value} (h : HasMember sampleOdd name t) :
    name = "id" ∧ t = .ofInt 7 ∨ name = "priority" ∧ t = .null ∨
      name = "metrics" ∧ t = sampleMetrics ∨ name = "ü" := by
  rw [sampleOdd, hasMember_cons_iff (Literal.text?_ofText _),
    hasMember_cons_iff (Literal.text?_ofText _), hasMember_cons_iff (Literal.text?_ofText _),
    sampleStranger, hasMember_singleton_iff] at h
  rcases h with h | h | h | h
  · exact Or.inl h
  · exact Or.inr (Or.inl h)
  · exact Or.inr (Or.inr (Or.inl h))
  · exact Or.inr (Or.inr (Or.inr h.1))

theorem isTolerable_sampleOdd : IsTolerable sampleOdd := by
  refine ⟨by rw [KnownOnce]; decide, fun name hname t ht => ?_, fun name hname t ht => ?_⟩
  · rcases members_sampleOdd ht with ⟨rfl, rfl⟩ | ⟨rfl, rfl⟩ | ⟨rfl, -⟩ | rfl
    · exact ⟨Tree.isOrdinary_ofInt (by decide) (by decide), by decide⟩
    · exact ⟨trivial, by decide⟩
    · exact absurd hname (by decide)
    · exact absurd hname (by decide)
  · rcases members_sampleOdd ht with ⟨rfl, -⟩ | ⟨rfl, -⟩ | ⟨rfl, rfl⟩ | rfl
    · exact absurd hname (by decide)
    · exact absurd hname (by decide)
    · exact isTolerableMetrics_sampleMetrics
    · exact absurd hname (by decide)

/-- The others. -/
def sampleEven : List Member := [(Literal.ofText "metrics", sampleMetrics), sampleStranger]

/-- A body of these members. -/
def sampleOddBody : Bytes :=
  utf8Bytes ("\x7b\"id\":7,\"priority\":null,\"metrics\":\x7b\"results\":\x7b\"n\":-5\x7d\x7d," ++
    "\"ü\":[1e999,\"\\ud800\"]\x7d").toList

/-- A body without those of the wrong kind. -/
def sampleEvenBody : Bytes :=
  utf8Bytes ("\x7b\"metrics\":\x7b\"results\":\x7b\"n\":-5\x7d\x7d," ++
    "\"ü\":[1e999,\"\\ud800\"]\x7d").toList

theorem isBodyOf_sampleEvenBody :
    IsBodyOf sampleEvenBody (sampleOdd.filter fun m => !isNegligible m) := by
  have hfilter : (sampleOdd.filter fun m => !isNegligible m) = sampleEven := by
    simp only [sampleOdd, sampleStranger, isNegligible, List.filter, Literal.text?_ofText]
    rfl
  rw [hfilter]
  exact ⟨⟨[], .objectOf sampleEven, []⟩, by decide, Tree.members?_objectOf sampleEven⟩

theorem decode_tolerant_sample :
    (∃ c, decode sampleOddBody = .ok c ∧ decode sampleEvenBody = .ok c) ∧
      decode (utf8Bytes "\x7b\"metrics\":true\x7d".toList) = .error bodyError := by
  refine ⟨?_, ?_⟩
  · have hbody : IsBodyOf sampleOddBody sampleOdd :=
      ⟨⟨[], .objectOf sampleOdd, []⟩, by decide, Tree.members?_objectOf sampleOdd⟩
    have hnames : NamesAreTexts sampleOdd := by
      simp [NamesAreTexts, sampleOdd, sampleStranger, Literal.text?_ofText]
    have hmetrics : ∀ name ∈ metricsNames, IsOptional Tree.IsMetrics sampleOdd name := by
      intro name hname t ht
      rcases members_sampleOdd ht with ⟨rfl, -⟩ | ⟨rfl, -⟩ | ⟨rfl, rfl⟩ | rfl
      · exact absurd hname (by decide)
      · exact absurd hname (by decide)
      · exact Or.inr isMetrics_sampleMetrics
      · exact absurd hname (by decide)
    obtain ⟨c, hc, -, hsame⟩ :=
      (decode_tolerant hbody (none_not_mem_ofBytes_utf8Bytes _) hnames isTolerable_sampleOdd).2
        hmetrics
    exact ⟨c, hc, hsame _ isBodyOf_sampleEvenBody⟩
  · have hbody : IsBodyOf (utf8Bytes "\x7b\"metrics\":true\x7d".toList) sampleBroken :=
      ⟨⟨[], .objectOf sampleBroken, []⟩, by decide, Tree.members?_objectOf sampleBroken⟩
    have hnames : NamesAreTexts sampleBroken := by
      simp [NamesAreTexts, sampleBroken, Literal.text?_ofText]
    have htol : IsTolerable sampleBroken := by
      refine ⟨List.pairwise_singleton _ _, fun name hname t ht => ?_, fun name _ t ht => ?_⟩
      · obtain ⟨rfl, -⟩ := hasMember_singleton_iff.1 ht
        exact absurd hname (by decide)
      · obtain ⟨-, rfl⟩ := hasMember_singleton_iff.1 ht
        exact ⟨by decide, nofun, nofun, nofun⟩
    refine (decode_tolerant hbody (none_not_mem_ofBytes_utf8Bytes _) hnames htol).1.2
      ⟨"metrics", by decide, fun hall => ?_⟩
    rcases hall (.bool true) (hasMember_singleton_iff.2 ⟨rfl, rfl⟩) with heq | ⟨ms, hms, -⟩
    · cases heq
    · cases hms

/-- A member with half a character for a name. -/
def sampleHalf : Member := ([.unit (.ofNat 13) (.ofNat 8) (.ofNat 0) (.ofNat 0)], .bool true)

/-- The body that holds it. -/
def sampleHalfBody : Bytes := utf8Bytes "\x7b\"\\ud800\":true\x7d".toList

theorem not_hasMember_sampleHalf (name : String) (t : Tree .value) :
    ¬HasMember [sampleHalf] name t := by
  rintro ⟨key, hkey, hmem⟩
  cases List.mem_singleton.1 hmem
  cases hkey

/-- A name that is half a character spells no text, and the body is refused for it, though nobody
asked for the member. -/
theorem not_refused_for_metrics_alone :
    ¬∀ (body : Bytes) (ms : List Member), IsBodyOf body ms → none ∉ Glyph.ofBytes body →
      IsTolerable ms →
      (decode body = .error bodyError ↔
        ∃ name ∈ metricsNames, ¬IsOptional Tree.IsMetrics ms name) := by
  intro h
  have hbody : IsBodyOf sampleHalfBody [sampleHalf] :=
    ⟨⟨[], .objectOf [sampleHalf], []⟩, by decide, Tree.members?_objectOf [sampleHalf]⟩
  have htol : IsTolerable [sampleHalf] :=
    ⟨List.pairwise_singleton _ _, fun name _ t ht => absurd ht (not_hasMember_sampleHalf name t),
      fun name _ t ht => absurd ht (not_hasMember_sampleHalf name t)⟩
  have hrefused : decode sampleHalfBody = .error bodyError := by decide +kernel
  obtain ⟨name, -, hname⟩ := (h _ _ hbody (none_not_mem_ofBytes_utf8Bytes _) htol).1 hrefused
  exact hname fun t ht => absurd ht (not_hasMember_sampleHalf name t)

end Configuration

end HubConfig
