/-
**Reading and writing again.**

Whatever body a hub answers with, what is read of it as content is nothing or one value that is not
`null`, without blanks around it.  That invariant of reading makes the update that changes nothing
always writable, and makes a second round of reading and writing the same as the first.

Main definitions:

* `IsReportedText`: the texts that are read as content.

Main results:

* `Configuration.isReportedText_of_decode`: **what is read as content, whatever the body**;
* `Configuration.encode_toUpdate_stable`: **reading and writing again changes nothing**.
-/

import HubConfig.Proofs.KnownFields
import HubConfig.Proofs.RoundTrip

set_option autoImplicit false

namespace HubConfig

open HubConfig.Text HubConfig.Json

/-! ### The texts that are read as content -/

/-- A text that is read as content: none at all, or the source of a value that is not `null`. -/
def IsReportedText (s : String) : Prop :=
  s = "" ∨ ∃ t : Tree .value, t ≠ .null ∧ t.source? = some s

theorem isReportedText_sourceField (fields : List Field) (name : String) :
    IsReportedText (sourceField fields name) := by
  cases hf : fields.lookup name with
  | none => exact Or.inl (by rw [sourceField, hf])
  | some t =>
    by_cases hnull : t = .null
    · subst hnull
      exact Or.inl (sourceField_null hf)
    · rw [sourceField_of_ne_null hf hnull]
      cases hs : t.source? with
      | none => exact Or.inl rfl
      | some s => exact Or.inr ⟨t, hnull, hs⟩

theorem isReportedText_of_contentField? {fields : List Field} {name : String} {c : Content}
    (h : contentField? fields name = some c) :
    IsReportedText c.device ∧ IsReportedText c.modules := by
  rw [contentField?] at h
  split at h
  · cases h
    exact ⟨Or.inl rfl, Or.inl rfl⟩
  · next t _ =>
    obtain ⟨_, -, rfl⟩ := Option.map_eq_some_iff.1 h
    rw [Content.ofTree?]
    cases t.fields? ["deviceContent", "modulesContent"] with
    | none => exact ⟨Or.inl rfl, Or.inl rfl⟩
    | some parts =>
      exact ⟨isReportedText_sourceField parts _, isReportedText_sourceField parts _⟩

/-- **What is read as content, whatever the body.** -/
theorem Configuration.isReportedText_of_decode {body : Bytes} {c : Configuration}
    (h : Configuration.decode body = .ok c) :
    IsReportedText c.content.device ∧ IsReportedText c.content.modules := by
  rw [decode] at h
  split at h
  · cases h
    exact ⟨Or.inl rfl, Or.inl rfl⟩
  · rw [readBody] at h
    split at h
    · next c' hread =>
      cases h
      obtain ⟨d, -, hd⟩ := Option.bind_eq_some_iff.1 hread
      obtain ⟨fields, -, hfields⟩ := Option.bind_eq_some_iff.1 hd
      exact isReportedText_of_contentField? (contentField?_of_ofFields? hfields)
    · cases h

/-! ### Writing them -/

/-- The source of a value is no blank text. -/
theorem Json.Tree.trim_text_ne_nil {t : Tree .value} (h : t.IsText) :
    trim t.text.toList ≠ [] := by
  obtain ⟨c, gs, hc, hw⟩ := t.isWhiteSpace_head
  intro hnil
  have hmem : c ∈ t.text.toList := by
    have : some c ∈ t.text.toList.map some := by
      rw [Tree.map_some_text h, hc]
      exact List.mem_cons_self
    simpa using this
  have hblank := trim_eq_nil_iff.1 hnil c hmem
  rw [hw] at hblank
  cases hblank

/-- The source of a value is written as this value. -/
theorem fragment?_text {t : Tree .value} (h : t.IsText) : fragment? t.text = some t := by
  rw [fragment?, if_neg (Tree.trim_text_ne_nil h), Document.ofText?_text h]
  rfl

theorem normalContent_text {t : Tree .value} (h : t.IsText) (hnull : t ≠ .null) :
    normalContent t.text = t.text := by
  have hf : [("", t)].lookup "" = some t := rfl
  rw [← sourceField_fragment? (fragment?_text h) hf, sourceField_of_ne_null hf hnull,
    Tree.source?_of_isText h]
  rfl

theorem fragment?_empty : fragment? "" = some (.emptyObject []) :=
  fragment?_of_blank (by simp)

theorem normalContent_empty : normalContent "" = "\x7b\x7d" := by
  rw [normalContent, if_pos (by simp)]

/-- A text that is read as content can be written. -/
theorem IsReportedText.exists_fragment? {s : String} (h : IsReportedText s) :
    ∃ t, fragment? s = some t := by
  rcases h with rfl | ⟨t, -, hs⟩
  · exact ⟨_, fragment?_empty⟩
  · obtain ⟨ht, rfl⟩ := Tree.source?_eq_some_iff.1 hs
    exact ⟨t, fragment?_text ht⟩

/-- A text that is read as content is in normal form, unless there is none. -/
theorem IsReportedText.normalContent_eq {s : String} (h : IsReportedText s) :
    normalContent s = if s = "" then "\x7b\x7d" else s := by
  rcases h with rfl | ⟨t, hnull, hs⟩
  · exact normalContent_empty
  · obtain ⟨ht, rfl⟩ := Tree.source?_eq_some_iff.1 hs
    have hne : t.text ≠ "" := by
      intro he
      refine Tree.trim_text_ne_nil ht ?_
      rw [he]
      rfl
    rw [normalContent_text ht hnull, if_neg hne]

/-- The normal form of a text that is read as content is written like the text itself. -/
theorem IsReportedText.fragment?_normalContent {s : String} (h : IsReportedText s) :
    fragment? (normalContent s) = fragment? s := by
  rw [h.normalContent_eq]
  split
  · next he =>
    subst he
    rw [fragment?_empty]
    rfl
  · rfl

theorem Content.encode_of_isReportedText {c : Content} (hd : IsReportedText c.device)
    (hm : IsReportedText c.modules) : ∃ s, c.encode = .ok s := by
  obtain ⟨device, hdevice⟩ := hd.exists_fragment?
  obtain ⟨modules, hmodules⟩ := hm.exists_fragment?
  exact ⟨_, Content.encode_eq_ok_iff.2
    ⟨_, Content.tree_eq_ok_iff.2 ⟨device, modules, hdevice, hmodules, rfl⟩, rfl⟩⟩

theorem Content.tree_normal {c : Content} (hd : IsReportedText c.device)
    (hm : IsReportedText c.modules) : c.normal.tree = c.tree := by
  have hdevice := hd.fragment?_normalContent
  have hmodules := hm.fragment?_normalContent
  simp only [Content.tree, Content.normal, fragment, hdevice, hmodules]

/-! ### The second round -/

/-- What is reported of an update that changes nothing is written like that update. -/
theorem ConfigurationUpdate.encode_toUpdate_asReported {u : ConfigurationUpdate}
    (hd : IsReportedText u.content.device) (hm : IsReportedText u.content.modules) :
    u.asReported.toUpdate.encode = u.encode := by
  have htree : u.asReported.toUpdate.content.tree = u.content.tree := Content.tree_normal hd hm
  rw [encode, encode, htree]
  rfl

/-- **Reading and writing again changes nothing.**  The update that is made of what was read can
always be written; what is read of it differs only in content of which there is none; and the update
made of that is the same document again. -/
theorem Configuration.encode_toUpdate_stable {body : Bytes} {c : Configuration}
    (h : Configuration.decode body = .ok c) :
    ∃ s, c.toUpdate.encode = .ok s ∧ (c.labels.firstKey? ≠ some embeddingName →
      ∃ c', Configuration.decode (utf8Bytes s.toList) = .ok c' ∧
        c'.id = c.id ∧ c'.targetCondition = c.targetCondition ∧ c'.labels = c.labels ∧
        c'.priority = c.priority ∧ c'.metrics.queries = c.metrics.queries ∧ c'.etag = c.etag ∧
        c'.content.device = (if c.content.device = "" then "\x7b\x7d" else c.content.device) ∧
        c'.content.modules = (if c.content.modules = "" then "\x7b\x7d" else c.content.modules) ∧
        c'.toUpdate.encode = .ok s) := by
  obtain ⟨hd, hm⟩ := isReportedText_of_decode h
  obtain ⟨s, hs⟩ : ∃ s, c.toUpdate.encode = .ok s :=
    ConfigurationUpdate.exists_encode (Content.encode_of_isReportedText hd hm)
  refine ⟨s, hs, fun hl => ⟨c.toUpdate.asReported, ?_, rfl, rfl, rfl, rfl, rfl, rfl, ?_, ?_, ?_⟩⟩
  · exact ConfigurationUpdate.decode_encode hs hl
  · exact hd.normalContent_eq
  · exact hm.normalContent_eq
  · exact (ConfigurationUpdate.encode_toUpdate_asReported hd hm).trans hs

/-- A body with a number for a mark, an escaped label, and content that is kept and left out. -/
def sampleBody : Bytes :=
  utf8Bytes ("\x7b \"id\":\"a\",\"etag\":7,\"labels\":\x7b\"b\":\"\\u00e9\"\x7d,".toList ++
    "\"content\":".toList ++
    "\x7b\"deviceContent\": [1,\x7b\"x\" :null\x7d ],\"modulesContent\":null\x7d,".toList ++
    "\"priority\":\" 7x\",\"other\":[]\x7d".toList)

/-- What the sample reports. -/
def sampleReported : Configuration :=
  { Configuration.empty with
    id := "a"
    priority := 7
    content := ⟨"[1,\x7b\"x\" :null\x7d ]", ""⟩
    labels := KeyMap.ofList [("b", "é")] }

theorem Configuration.encode_toUpdate_stable_sample :
    Configuration.decode sampleBody = .ok sampleReported ∧
      sampleReported.labels.firstKey? ≠ some embeddingName ∧
      ∃ s c', sampleReported.toUpdate.encode = .ok s ∧
        Configuration.decode (utf8Bytes s.toList) = .ok c' ∧
        c'.content.device = "[1,\x7b\"x\" :null\x7d ]" ∧ c'.content.modules = "\x7b\x7d" ∧
        c'.toUpdate.encode = .ok s := by
  have hread : Configuration.decode sampleBody = .ok sampleReported := by decide +kernel
  have hlabels : sampleReported.labels.firstKey? ≠ some embeddingName := by decide
  obtain ⟨s, hs, hround⟩ := Configuration.encode_toUpdate_stable hread
  obtain ⟨c', hc', -, -, -, -, -, -, hdevice, hmodules, hagain⟩ := hround hlabels
  exact ⟨hread, hlabels, s, c', hs, hc', hdevice.trans (by decide), hmodules.trans (by decide),
    hagain⟩

end HubConfig
