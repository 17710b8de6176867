/-
**Configurations that are sent and reported again.**

What a configuration says survives the way over the wire: a hub that keeps a document as it was sent
reports the same id, condition, labels, priority, queries and mark.  Content is the one part that
changes, and only in what does not matter: the blanks around it go, blank content becomes an empty
object, and `null` becomes nothing at all.

Content is also the only part that can keep a configuration from being written.

Main definitions:

* `normalContent`: what is reported of a text that was sent as content;
* `ConfigurationUpdate.asReported`: what is reported of an update that is kept as it was sent;
* `IsContentText`: the texts that can be sent as content;
* `Content.IsWritable`: content made of two of them.

Main results:

* `sourceField_fragment?`: what is sent as content is reported in its normal form;
* `ConfigurationUpdate.decode_encode`: an update reads back;
* `Configuration.round_trip`: **so do new configurations, and content alone**;
* `exists_fragment?_iff`: a text is written as content exactly if it is such a text;
* `ConfigurationUpdate.exists_encode_iff`: **an update is written exactly if its content can be**;
* `ConfigurationUpdate.kind_of_encode`: the error otherwise.
-/

import HubConfig.Proofs.Written
import Mathlib.Control.Monad.Basic

set_option autoImplicit false

namespace HubConfig

open HubConfig.Text HubConfig.Json

/-! ### Content -/

/-- What is reported of a text that was sent as content. -/
def normalContent (text : String) : String :=
  if text.toList.all isWhiteSpace then "\x7b\x7d"
  else if strip text = "null" then ""
  else strip text

/-- What is reported of content that was sent. -/
def Content.normal (c : Content) : Content := ⟨normalContent c.device, normalContent c.modules⟩

theorem sourceField_null {fields : List Field} {name : String}
    (h : fields.lookup name = some .null) : sourceField fields name = "" := by
  rw [sourceField, h]

theorem sourceField_of_ne_null {fields : List Field} {name : String} {t : Tree .value}
    (h : fields.lookup name = some t) (hnull : t ≠ .null) :
    sourceField fields name = t.source?.getD "" := by
  rw [sourceField, h]
  cases t with
  | null => exact absurd rfl hnull
  | _ => rfl

/-- The tree of a text given as content is spelled like the text. -/
theorem isText_of_fragment? {text : String} {t : Tree .value} (h : fragment? text = some t) :
    t.IsText := by
  rw [fragment?] at h
  split at h
  · cases h
    simp [Tree.IsText, Tree.print]
  · obtain ⟨d, hd, rfl⟩ := Option.map_eq_some_iff.1 h
    exact Document.isText_of_ofText? hd

/-- **A text that is sent as content is reported as its normal form.** -/
theorem sourceField_fragment? {fields : List Field} {name text : String} {t : Tree .value}
    (h : fragment? text = some t) (hf : fields.lookup name = some t) :
    sourceField fields name = normalContent text := by
  have htext := isText_of_fragment? h
  rw [fragment?] at h
  rw [normalContent]
  split at h
  · next hblank =>
    cases h
    have hall := List.all_eq_true.2 (trim_eq_nil_iff.1 hblank)
    rw [if_pos hall, sourceField_of_ne_null hf (by nofun)]
    rfl
  · next hblank =>
    obtain ⟨d, hd, rfl⟩ := Option.map_eq_some_iff.1 h
    have hstrip := Tree.text_eq_strip hd
    rw [if_neg fun hall => hblank (trim_eq_nil_iff.2 (List.all_eq_true.1 hall)), ← hstrip]
    by_cases hnull : d.value = .null
    · rw [hnull] at hf ⊢
      rw [sourceField_null hf, if_pos (by decide)]
    · have hne : d.value.text ≠ "null" := by
        intro he
        refine hnull (Tree.print_injective ?_)
        rw [← Tree.map_some_text htext, he]
        rfl
      rw [if_neg hne, sourceField_of_ne_null hf hnull, Tree.source?_of_isText htext]
      rfl

/-- The tree of content is made of the trees of its parts. -/
theorem Content.tree_eq_ok_iff {c : Content} {t : Tree .value} :
    c.tree = .ok t ↔ ∃ device modules, fragment? c.device = some device ∧
      fragment? c.modules = some modules ∧
      t = .ofMembers [("deviceContent", device), ("modulesContent", modules)] := by
  rw [Content.tree, fragment, fragment]
  cases hd : fragment? c.device <;> cases hm : fragment? c.modules <;> simp [eq_comm]

theorem Content.encode_eq_ok_iff {c : Content} {s : String} :
    c.encode = .ok s ↔ ∃ t, c.tree = .ok t ∧ s = t.text := by
  rw [Content.encode]
  cases c.tree <;> simp [Except.map, eq_comm]

theorem Content.isText_of_tree {c : Content} {t : Tree .value} (h : c.tree = .ok t) :
    t.IsText := by
  obtain ⟨device, modules, hd, hm, rfl⟩ := Content.tree_eq_ok_iff.1 h
  refine Tree.isText_ofMembers fun m hmem => ?_
  simp only [List.mem_cons, List.not_mem_nil, or_false] at hmem
  rcases hmem with rfl | rfl
  · exact isText_of_fragment? hd
  · exact isText_of_fragment? hm

/-- Content that was sent is read as its normal form. -/
theorem contentField?_tree {fields : List Field} {name : String} {c : Content} {t : Tree .value}
    (h : c.tree = .ok t) (hf : fields.lookup name = some t) :
    contentField? fields name = some c.normal := by
  have htext := Content.isText_of_tree h
  obtain ⟨device, modules, hd, hm, rfl⟩ := Content.tree_eq_ok_iff.1 h
  have hfields : (Tree.ofMembers [("deviceContent", device), ("modulesContent", modules)]).fields?
      ["deviceContent", "modulesContent"] =
        some [("deviceContent", device), ("modulesContent", modules)] :=
    Tree.fields?_ofMembers (by simp) rfl
  rw [contentField?, hf]
  simp only [Tree.source?_of_isText htext, Option.map_some, Content.ofTree?, hfields,
    Option.getD_some, Content.normal]
  rw [sourceField_fragment? hd rfl, sourceField_fragment? hm rfl]

/-! ### Whole documents -/

/-- A written document is read as the tree it was made of. -/
theorem readBody_text {α : Type} (read : Tree .value → Option α) (complaint : String)
    {t : Tree .value} (h : t.IsText) :
    readBody read complaint (utf8Bytes t.text.toList) =
      match read t with
      | some a => .ok a
      | none => .error (.adopted .json complaint) := by
  rw [readBody, Glyph.ofBytes_utf8Bytes, Tree.map_some_text h, Document.parse?_print_tree]
  rfl

/-- A written document is no blank body. -/
theorem isBlankBody_text {t : Tree .value} (h : t.IsText) :
    isBlankBody (utf8Bytes t.text.toList) = false := by
  obtain ⟨c, gs, hc, hw⟩ := t.isWhiteSpace_head
  have ht := Tree.map_some_text h
  cases hcs : t.text.toList with
  | nil =>
    rw [hcs, hc] at ht
    cases ht
  | cons d ds =>
    rw [hcs, hc, List.map_cons] at ht
    obtain rfl : d = c := Option.some.inj (List.cons.inj ht).1
    exact isBlankBody_utf8Bytes_cons hw ds

/-- A written record of a configuration reports what its fields report. -/
theorem Configuration.decode_ofMembers {fields : List Field} {c : Configuration}
    (htext : ∀ m ∈ fields, m.2.IsText) (hknown : ∀ m ∈ fields, m.1 ∈ configurationFields)
    (hdistinct : distinctNames fields = true)
    (hc : Configuration.ofFields? (maxNesting - 1) fields = some c) :
    Configuration.decode (utf8Bytes (Tree.ofMembers fields).text.toList) = .ok c := by
  have ht := Tree.isText_ofMembers htext
  have hread : Configuration.ofTree? maxNesting (Tree.ofMembers fields) = some c := by
    rw [Configuration.ofTree?, Tree.fields?_ofMembers hknown hdistinct, Option.bind_some, hc]
  rw [Configuration.decode, isBlankBody_text ht, readBody_text _ _ ht, hread]
  rfl

/-! ### Updates -/

/-- The fields of an update as it is sent. -/
def ConfigurationUpdate.fields (u : ConfigurationUpdate) (content : Tree .value) : List Field :=
  u.members content ++ u.etagMembers

/-- What is reported of a new configuration that is kept as it was sent. -/
def ConfigurationDraft.asReported (d : ConfigurationDraft) : Configuration :=
  { Configuration.empty with
    id := d.id
    schemaVersion := "1.0"
    targetCondition := d.targetCondition
    priority := d.priority
    content := d.content.normal
    labels := d.labels
    metrics := ⟨∅, d.queries⟩ }

/-- What is reported of an update that is kept as it was sent. -/
def ConfigurationUpdate.asReported (u : ConfigurationUpdate) : Configuration :=
  { u.toConfigurationDraft.asReported with etag := u.etag }

namespace ConfigurationUpdate

theorem encode_eq_ok_iff {u : ConfigurationUpdate} {s : String} :
    u.encode = .ok s ↔ ∃ t, u.content.tree = .ok t ∧ s = (Tree.ofMembers (u.fields t)).text := by
  rw [encode]
  cases u.content.tree with
  | error e => simp [Except.map]
  | ok t => simp [Except.map, fields, eq_comm]

theorem isText_of_mem_fields {u : ConfigurationUpdate} {t : Tree .value} (ht : t.IsText) :
    ∀ m ∈ u.fields t, m.2.IsText := by
  have hqueries : (Tree.ofMembers [("queries", Tree.ofKeyMap u.queries)]).IsText :=
    Tree.isText_ofMembers (by simp [Tree.isText_ofKeyMap])
  intro m hm
  rcases List.mem_append.1 hm with hm | hm
  · simp only [ConfigurationDraft.members, List.mem_cons, List.not_mem_nil, or_false] at hm
    rcases hm with rfl | rfl | rfl | rfl | rfl | rfl | rfl
    · exact Tree.isText_ofText _
    · exact Tree.isText_ofText _
    · exact Tree.isText_ofKeyMap _
    · exact ht
    · exact Tree.isText_ofText _
    · exact Tree.isText_ofInt _
    · exact hqueries
  · rw [etagMembers] at hm
    split at hm
    · cases hm
    · obtain rfl := List.mem_singleton.1 hm
      exact Tree.isText_ofText _

theorem mem_configurationFields {u : ConfigurationUpdate} {t : Tree .value} :
    ∀ m ∈ u.fields t, m.1 ∈ configurationFields := by
  intro m hm
  rcases List.mem_append.1 hm with hm | hm
  · simp only [ConfigurationDraft.members, List.mem_cons, List.not_mem_nil, or_false] at hm
    rcases hm with rfl | rfl | rfl | rfl | rfl | rfl | rfl <;> simp [configurationFields]
  · rw [etagMembers] at hm
    split at hm
    · cases hm
    · obtain rfl := List.mem_singleton.1 hm
      simp [configurationFields]

theorem distinctNames_fields (u : ConfigurationUpdate) (t : Tree .value) :
    distinctNames (u.fields t) = true := by
  rw [fields, etagMembers]
  split <;> rfl

/-- The mark of the version is the last field, and all others are those of a new configuration. -/
theorem lookup_fields (u : ConfigurationUpdate) (t : Tree .value) {name : String}
    (h : name ≠ "etag") : (u.fields t).lookup name = (u.members t).lookup name := by
  have hnone : u.etagMembers.lookup name = none := by
    rw [etagMembers]
    split
    · rfl
    · rw [KeyMap.lookup_cons, if_neg h]
      rfl
  rw [fields, List.lookup_append, hnone, Option.or_none]

theorem lookup_fields_etag (u : ConfigurationUpdate) (t : Tree .value) :
    (u.fields t).lookup "etag" = u.etagMembers.lookup "etag" := by
  rw [fields, List.lookup_append]
  rfl

theorem valueField?_text {u : ConfigurationUpdate} {t : Tree .value} {name text : String}
    (nesting : Nat) (hname : name ≠ "etag")
    (h : (u.members t).lookup name = some (.ofText text)) :
    valueField? nesting (u.fields t) name = some (.string text) := by
  rw [valueField?, lookup_fields u t hname, h]
  simp [Tree.ofText, Literal.text?_ofText]

theorem valueField?_missing {u : ConfigurationUpdate} {t : Tree .value} {name : String}
    (nesting : Nat) (hname : name ≠ "etag") (h : (u.members t).lookup name = none) :
    valueField? nesting (u.fields t) name = some .null := by
  rw [valueField?, lookup_fields u t hname, h]

theorem valueField?_etag (u : ConfigurationUpdate) (t : Tree .value) (nesting : Nat) :
    ∃ v, valueField? nesting (u.fields t) "etag" = some v ∧ textOfValue v = u.etag := by
  by_cases h : u.etag = ""
  · refine ⟨.null, ?_, h.symm⟩
    rw [valueField?, lookup_fields_etag, etagMembers, if_pos h]
    rfl
  · refine ⟨.string u.etag, ?_, rfl⟩
    rw [valueField?, lookup_fields_etag, etagMembers, if_neg h, KeyMap.lookup_cons, if_pos rfl]
    simp [Tree.ofText, Literal.text?_ofText]

theorem valueField?_priority (u : ConfigurationUpdate) (t : Tree .value) (nesting : Nat) :
    valueField? nesting (u.fields t) "priority" =
      some (.number (Number.ofInt u.priority.toInt)) := by
  have h : (u.members t).lookup "priority" = some (.ofInt u.priority.toInt) := rfl
  rw [valueField?, lookup_fields u t (by decide), h]
  exact Tree.value?_ofInt nesting u.priority

theorem valueField?_labels {u : ConfigurationUpdate} (t : Tree .value) (nesting : Nat)
    (hl : u.labels.firstKey? ≠ some embeddingName) :
    valueField? (nesting + 1) (u.fields t) "labels" =
      some (.object (textValues u.labels.toList)) := by
  have h : (u.members t).lookup "labels" = some (.ofKeyMap u.labels) := rfl
  rw [valueField?, lookup_fields u t (by decide), h]
  exact Tree.value?_ofKeyMap hl

theorem contentField?_fields {u : ConfigurationUpdate} {t : Tree .value}
    (ht : u.content.tree = .ok t) :
    contentField? (u.fields t) "content" = some u.content.normal := by
  have h : (u.members t).lookup "content" = some t := rfl
  refine contentField?_tree ht ?_
  rw [lookup_fields u t (by decide), h]

theorem metricsField?_fields (u : ConfigurationUpdate) (t : Tree .value) :
    metricsField? (u.fields t) "metrics" = some ⟨∅, u.queries⟩ := by
  have h : (u.members t).lookup "metrics" =
      some (.ofMembers [("queries", Tree.ofKeyMap u.queries)]) := rfl
  have hfields : (Tree.ofMembers [("queries", Tree.ofKeyMap u.queries)]).fields?
      ["results", "queries"] = some [("queries", Tree.ofKeyMap u.queries)] :=
    Tree.fields?_ofMembers (by simp) rfl
  have hresults : optionalField? (Tree.keyMap? Tree.int64?) [("queries", Tree.ofKeyMap u.queries)]
      "results" = some none := rfl
  have hqueries : optionalField? (Tree.keyMap? Tree.text?) [("queries", Tree.ofKeyMap u.queries)]
      "queries" = some (some u.queries) := by
    have hlookup : [("queries", Tree.ofKeyMap u.queries)].lookup "queries" =
        some (Tree.ofKeyMap u.queries) := rfl
    have hread := Tree.keyMap?_ofKeyMap u.queries
    rw [Tree.ofKeyMap] at hlookup hread
    rw [optionalField?, Tree.ofKeyMap, hlookup]
    exact (Tree.optional?_ofMembers _ _).trans (by rw [hread]; rfl)
  rw [metricsField?, optionalField?, lookup_fields u t (by decide), h]
  dsimp only
  rw [Tree.optional?_ofMembers, Metrics.ofTree?, hfields]
  simp only [Option.bind_eq_bind, Option.bind_some, hresults, hqueries, Option.map_some,
    Option.getD_some, Option.getD_none]

theorem metricsField?_missing (u : ConfigurationUpdate) (t : Tree .value) :
    metricsField? (u.fields t) "systemMetrics" = some .empty := by
  have h : (u.members t).lookup "systemMetrics" = none := rfl
  rw [metricsField?, optionalField?, lookup_fields u t (by decide), h]
  rfl

/-- The fields of an update report what was written. -/
theorem ofFields?_fields {u : ConfigurationUpdate} {t : Tree .value}
    (ht : u.content.tree = .ok t) (hl : u.labels.firstKey? ≠ some embeddingName) :
    Configuration.ofFields? (maxNesting - 1) (u.fields t) = some u.asReported := by
  have text : ∀ {name text : String}, name ≠ "etag" →
      (u.members t).lookup name = some (.ofText text) →
      valueField? 126 (u.fields t) name = some (.string text) := valueField?_text 126
  have missing : ∀ {name : String}, name ≠ "etag" → (u.members t).lookup name = none →
      valueField? 126 (u.fields t) name = some .null := valueField?_missing 126
  obtain ⟨etag, hetag, hmark⟩ := valueField?_etag u t 126
  have hid : valueField? 126 (u.fields t) "id" = some (.string u.id) := text (by decide) rfl
  have hversion : valueField? 126 (u.fields t) "schemaVersion" = some (.string schemaVersion) :=
    text (by decide) rfl
  have hcondition : valueField? 126 (u.fields t) "targetCondition" =
      some (.string u.targetCondition) := text (by decide) rfl
  have htype : valueField? 126 (u.fields t) "contentType" = some .null := missing (by decide) rfl
  have hmade : valueField? 126 (u.fields t) "createdTimeUtc" = some .null :=
    missing (by decide) rfl
  have hchanged : valueField? 126 (u.fields t) "lastUpdatedTimeUtc" = some .null :=
    missing (by decide) rfl
  rw [show maxNesting - 1 = 126 from rfl, Configuration.ofFields?, hid, hversion, htype, hcondition,
    hmade, hchanged, hetag, valueField?_priority, contentField?_fields ht,
    valueField?_labels t 125 hl, metricsField?_missing, metricsField?_fields]
  simp only [Option.bind_eq_bind, Option.bind_some, labelsOfValue_textValues, priorityOfValue_ofInt,
    hmark]
  rfl

/-- **An update reads back.** -/
theorem decode_encode {u : ConfigurationUpdate} {s : String} (h : u.encode = .ok s)
    (hl : u.labels.firstKey? ≠ some embeddingName) :
    Configuration.decode (utf8Bytes s.toList) = .ok u.asReported := by
  obtain ⟨t, ht, rfl⟩ := encode_eq_ok_iff.1 h
  exact Configuration.decode_ofMembers (isText_of_mem_fields (Content.isText_of_tree ht))
    mem_configurationFields (distinctNames_fields u t) (ofFields?_fields ht hl)

/-- An update can be written if its content can. -/
theorem exists_encode {u : ConfigurationUpdate} (h : ∃ s, u.content.encode = .ok s) :
    ∃ s, u.encode = .ok s := by
  obtain ⟨s, hs⟩ := h
  obtain ⟨t, ht, -⟩ := Content.encode_eq_ok_iff.1 hs
  exact ⟨_, encode_eq_ok_iff.2 ⟨t, ht, rfl⟩⟩

/-- A new configuration is written like an update without a mark. -/
theorem encode_draft (d : ConfigurationDraft) : d.encode = encode ⟨d, ""⟩ := by
  simp [ConfigurationDraft.encode, encode, etagMembers]

end ConfigurationUpdate

/-! ### Content alone -/

/-- The document that holds encoded content is written like any other. -/
theorem Content.document_text (t : Tree .value) :
    Content.document t.text = (Tree.ofMembers [("content", t)]).text := by
  have hkey : Key.print ⟨[], Literal.ofText "content", []⟩ = "\"content\":".toList.map some := rfl
  have hname : ("\"content\":".toList.map some).filterMap (fun g => g) =
      "\"content\":".toList := rfl
  refine String.toList_inj.1 ?_
  simp only [Content.document, Tree.text, Tree.ofMembers, Tree.membersOf, Tree.print, hkey,
    String.toList_append, String.toList_ofList, List.filterMap_append, List.filterMap_cons, hname,
    Gap.print_nil, List.append_nil, List.filterMap_nil]
  rfl

/-- Encoded content reads back. -/
theorem Content.decode_document {c : Content} {s : String} (h : c.encode = .ok s) :
    Configuration.decode (utf8Bytes (Content.document s).toList) =
      .ok { Configuration.empty with content := c.normal } := by
  obtain ⟨t, ht, rfl⟩ := Content.encode_eq_ok_iff.1 h
  have hcontent : contentField? [("content", t)] "content" = some c.normal :=
    contentField?_tree ht rfl
  rw [Content.document_text]
  refine Configuration.decode_ofMembers ?_ ?_ rfl ?_
  · simpa using Content.isText_of_tree ht
  · simp [configurationFields]
  · rw [Configuration.ofFields?, hcontent]
    rfl

/-- **Whole documents read back**: new configurations, updates with or without a mark, and content
alone. -/
theorem Configuration.round_trip :
    (∀ d : ConfigurationDraft, (∃ s, d.content.encode = .ok s) →
      d.labels.firstKey? ≠ some embeddingName →
      ∃ s, d.encode = .ok s ∧ Configuration.decode (utf8Bytes s.toList) = .ok d.asReported) ∧
    (∀ u : ConfigurationUpdate, (∃ s, u.content.encode = .ok s) →
      u.labels.firstKey? ≠ some embeddingName →
      ∃ s, u.encode = .ok s ∧ Configuration.decode (utf8Bytes s.toList) = .ok u.asReported) ∧
    ∀ (c : Content) (s : String), c.encode = .ok s →
      Configuration.decode (utf8Bytes (Content.document s).toList) =
        .ok { Configuration.empty with content := c.normal } := by
  refine ⟨?_, ?_, ?_⟩
  · intro d hd hl
    obtain ⟨s, hs⟩ := ConfigurationUpdate.exists_encode (u := ⟨d, ""⟩) hd
    refine ⟨s, (ConfigurationUpdate.encode_draft d).trans hs, ?_⟩
    exact ConfigurationUpdate.decode_encode hs hl
  · intro u hu hl
    obtain ⟨s, hs⟩ := ConfigurationUpdate.exists_encode hu
    exact ⟨s, hs, ConfigurationUpdate.decode_encode hs hl⟩
  · intro c s h
    exact Content.decode_document h

/-- An update whose texts need escapes, with content between blanks and a part that is `null`. -/
def sampleUpdate : ConfigurationUpdate where
  id := "a\"b\x01"
  targetCondition := "tags.x = 'é'"
  content := ⟨" [1, \x7b\"a\" :-2.50e7\x7d]\n", "null "⟩
  labels := KeyMap.ofList [("b", "2"), ("a", "\\")]
  priority := -5
  queries := KeyMap.ofList [("q", "select")]
  etag := ""

/-- The content of the sample as it is sent. -/
def sampleContent : String :=
  "\x7b\"deviceContent\":[1, \x7b\"a\" :-2.50e7\x7d],\"modulesContent\":null\x7d"

theorem encode_sampleUpdate : sampleUpdate.content.encode = .ok sampleContent := by
  decide +kernel

theorem Configuration.round_trip_sample :
    sampleUpdate.content.encode = .ok sampleContent ∧
      sampleUpdate.labels.firstKey? ≠ some embeddingName ∧
      sampleUpdate.content.normal = ⟨"[1, \x7b\"a\" :-2.50e7\x7d]", ""⟩ ∧
      (∃ s, sampleUpdate.toConfigurationDraft.encode = .ok s ∧
        Configuration.decode (utf8Bytes s.toList) =
          .ok sampleUpdate.toConfigurationDraft.asReported) ∧
      (∃ s, sampleUpdate.encode = .ok s ∧
        Configuration.decode (utf8Bytes s.toList) = .ok sampleUpdate.asReported) ∧
      Configuration.decode (utf8Bytes (Content.document sampleContent).toList) =
        .ok { Configuration.empty with content := sampleUpdate.content.normal } := by
  have hcontent := encode_sampleUpdate
  have hlabels : sampleUpdate.labels.firstKey? ≠ some embeddingName := by decide
  refine ⟨hcontent, hlabels, by decide, ?_, ?_, ?_⟩
  · exact Configuration.round_trip.1 _ ⟨_, hcontent⟩ hlabels
  · exact Configuration.round_trip.2.1 _ ⟨_, hcontent⟩ hlabels
  · exact Configuration.round_trip.2.2 _ _ hcontent

/-! ### Content that can be written -/

/-- A text that can be sent as content: nothing but white space, or a JSON text. -/
def IsContentText (text : String) : Prop :=
  (∀ c ∈ text.toList, isWhiteSpace c = true) ∨ ∃ d : Document, text.toList.map some = d.print

/-- Content that can be sent. -/
def Content.IsWritable (c : Content) : Prop := IsContentText c.device ∧ IsContentText c.modules

theorem exists_fragment?_iff {text : String} :
    (∃ t, fragment? text = some t) ↔ IsContentText text := by
  constructor
  · rintro ⟨t, h⟩
    rw [fragment?] at h
    split at h
    · next hblank => exact Or.inl (trim_eq_nil_iff.1 hblank)
    · obtain ⟨d, hd, -⟩ := Option.map_eq_some_iff.1 h
      exact Or.inr ⟨d, Document.print_of_ofText? hd⟩
  · rintro (hblank | ⟨d, hd⟩)
    · exact ⟨_, fragment?_of_blank hblank⟩
    · rw [fragment?]
      split
      · exact ⟨_, rfl⟩
      · have hparse : Document.ofText? text = some d := Document.parse?_eq_some_iff.2 hd
        exact ⟨d.value, by rw [hparse]; rfl⟩

theorem Content.exists_tree_iff {c : Content} : (∃ t, c.tree = .ok t) ↔ c.IsWritable := by
  simp only [Content.tree_eq_ok_iff, IsWritable, ← exists_fragment?_iff]
  constructor
  · rintro ⟨_, device, modules, hdevice, hmodules, -⟩
    exact ⟨⟨device, hdevice⟩, ⟨modules, hmodules⟩⟩
  · rintro ⟨⟨device, hdevice⟩, ⟨modules, hmodules⟩⟩
    exact ⟨_, device, modules, hdevice, hmodules, rfl⟩

theorem kind_of_fragment {text name : String} {e : Error} (h : fragment text name = .error e) :
    e.kind = .json := by
  rw [fragment] at h
  split at h
  · cases h
  · cases h
    rfl

theorem Content.kind_of_tree {c : Content} {e : Error} (h : c.tree = .error e) :
    e.kind = .json := by
  rw [tree] at h
  split at h
  · next hdevice =>
    cases h
    exact kind_of_fragment hdevice
  · split at h
    · next hmodules =>
      cases h
      exact kind_of_fragment hmodules
    · cases h

/-! ### Configurations that can be written -/

/-- **An update is written exactly if its content can be.** -/
theorem ConfigurationUpdate.exists_encode_iff {u : ConfigurationUpdate} :
    (∃ s, u.encode = .ok s) ↔ u.content.IsWritable := by
  rw [← Content.exists_tree_iff]
  constructor
  · rintro ⟨s, hs⟩
    obtain ⟨t, ht, -⟩ := ConfigurationUpdate.encode_eq_ok_iff.1 hs
    exact ⟨t, ht⟩
  · rintro ⟨t, ht⟩
    exact ⟨_, ConfigurationUpdate.encode_eq_ok_iff.2 ⟨t, ht, rfl⟩⟩

/-- The error of an update that is not written. -/
theorem ConfigurationUpdate.kind_of_encode {u : ConfigurationUpdate} {e : Error}
    (h : u.encode = .error e) : e.kind = .json := by
  rw [encode] at h
  cases ht : u.content.tree with
  | error e' =>
    rw [ht] at h
    cases h
    exact Content.kind_of_tree ht
  | ok t =>
    rw [ht] at h
    cases h

/-- The same of a new configuration. -/
theorem ConfigurationDraft.exists_encode_iff {d : ConfigurationDraft} :
    (∃ s, d.encode = .ok s) ↔ d.content.IsWritable := by
  rw [ConfigurationUpdate.encode_draft]
  exact ConfigurationUpdate.exists_encode_iff

theorem ConfigurationDraft.kind_of_encode {d : ConfigurationDraft} {e : Error}
    (h : d.encode = .error e) : e.kind = .json := by
  rw [ConfigurationUpdate.encode_draft] at h
  exact ConfigurationUpdate.kind_of_encode h

end HubConfig
