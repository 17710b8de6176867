/-
**The members of what is sent.**

A document is written around texts that a caller gives.  Most of them are escaped; content is set in
as it stands, and only because it is one whole JSON text does it stay where it was put.  So what is
read back out of a document are the members it was made of, in order and each once, whatever the
texts hold.

Main definitions:

* `IsFragment`: the texts that may be given as content;
* `HoldsMembers`: a text is one JSON text, of an object with given members;
* `Content.IsShownBy`, `ConfigurationUpdate.IsShownBy`, `QueryTest.IsShownBy`: the members that say
  what the caller said;
* `AcceptsContent`: which content an encoder accepts, and what it says of other content.

Main results:

* `holdsMembers_text`: a written object holds the members it was made of;
* `ConfigurationUpdate.isShownBy_of_encode`: an update that is written shows what it says;
* `Configuration.encode_exact`: **encoders accept exactly the right content, and no text changes the
  members**.
-/

import HubConfig.Proofs.Grammar
import HubConfig.Proofs.RoundTrip

set_option autoImplicit false

namespace HubConfig

open HubConfig.Text HubConfig.Json

/-! ### Content that is accepted -/

/-- A text that may be given as content: nothing but white space, or a JSON text. -/
def IsFragment (text : String) : Prop :=
  (∀ c ∈ text.toList, isWhiteSpace c = true) ∨ IsJsonText text.toList

/-- The text that is set in for content: blank content is an empty object. -/
def sentContent (text : String) : String :=
  if text.toList.all isWhiteSpace then "\x7b\x7d" else strip text

theorem isContentText_iff {text : String} : IsContentText text ↔ IsFragment text := by
  rw [IsContentText, IsFragment, ← exists_ofText?_iff]
  simp only [Document.ofText?, Document.parse?_eq_some_iff]

theorem Content.isWritable_iff {c : Content} :
    c.IsWritable ↔ IsFragment c.device ∧ IsFragment c.modules := by
  rw [IsWritable, isContentText_iff, isContentText_iff]

theorem fragment?_eq_none_iff {text : String} : fragment? text = none ↔ ¬ IsFragment text := by
  rw [← isContentText_iff, ← exists_fragment?_iff, ← Option.isSome_iff_exists,
    Option.not_isSome_iff_eq_none]

/-- Content is set in as it was given, without the blanks around it. -/
theorem text_of_fragment? {text : String} {t : Tree .value} (h : fragment? text = some t) :
    t.text = sentContent text := by
  rw [fragment?] at h
  rw [sentContent]
  split at h
  · next hblank =>
    cases h
    rw [if_pos (List.all_eq_true.2 (trim_eq_nil_iff.1 hblank))]
    rfl
  · next hblank =>
    obtain ⟨d, hd, rfl⟩ := Option.map_eq_some_iff.1 h
    rw [if_neg fun hall => hblank (trim_eq_nil_iff.2 (List.all_eq_true.1 hall)),
      Tree.text_eq_strip hd]

/-- The complaint about content that is neither blank nor a JSON text. -/
def contentError (name : String) : Error :=
  ⟨.json, name ++ " is not a JSON value", [.foreign]⟩

theorem Content.tree_of_device {c : Content} (h : ¬ IsFragment c.device) :
    c.tree = .error (contentError "deviceContent") := by
  rw [tree, fragment, fragment?_eq_none_iff.2 h]
  rfl

theorem Content.tree_of_modules {c : Content} (hd : IsFragment c.device)
    (hm : ¬ IsFragment c.modules) : c.tree = .error (contentError "modulesContent") := by
  obtain ⟨device, hdevice⟩ := exists_fragment?_iff.2 (isContentText_iff.2 hd)
  rw [tree, fragment, hdevice, fragment, fragment?_eq_none_iff.2 hm]
  rfl

/-- Which content an encoder accepts, and what it says of other content: of two bad texts the one
for devices is named. -/
def AcceptsContent {α : Type} (content : α → Content) (encode : α → Except Error String) : Prop :=
  ∀ a : α,
    ((∃ s, encode a = .ok s) ↔ IsFragment (content a).device ∧ IsFragment (content a).modules) ∧
    (¬ IsFragment (content a).device → encode a = .error (contentError "deviceContent")) ∧
    (IsFragment (content a).device → ¬ IsFragment (content a).modules →
      encode a = .error (contentError "modulesContent"))

/-- An encoder that fails only for its content accepts what its content allows. -/
theorem acceptsContent_of_map {α : Type} {content : α → Content} {encode : α → Except Error String}
    {write : α → Tree .value → String}
    (h : ∀ a, encode a = (content a).tree.map (write a)) : AcceptsContent content encode := by
  intro a
  refine ⟨?_, ?_, ?_⟩
  · rw [← Content.isWritable_iff, ← Content.exists_tree_iff, h]
    cases (content a).tree <;> simp [Except.map]
  · intro hdevice
    rw [h, Content.tree_of_device hdevice]
    rfl
  · intro hdevice hmodules
    rw [h, Content.tree_of_modules hdevice hmodules]
    rfl

/-! ### Documents and their members -/

/-- A text is one JSON text, of an object whose members have a property.  The members are all that
stand there, in order and with repetitions, by what their names spell. -/
def HoldsMembers (s : String) (p : List Field → Prop) : Prop :=
  IsJsonText s.toList ∧
    ∃ d fields, Document.ofText? s = some d ∧ d.value.entries? = some fields ∧ p fields

/-- A written object holds the members it was made of. -/
theorem holdsMembers_text {fields : List Field} {p : List Field → Prop}
    (htext : ∀ m ∈ fields, m.2.IsText) (h : p fields) :
    HoldsMembers (Tree.ofMembers fields).text p := by
  have hd := Document.ofText?_text (Tree.isText_ofMembers htext)
  exact ⟨exists_ofText?_iff.1 ⟨_, hd⟩, _, fields, hd, Tree.entries?_ofMembers fields, h⟩

/-- The names and texts of the members of an object, if all of them are texts. -/
def Json.Tree.texts? (t : Tree .value) : Option (List (String × String)) :=
  t.entries?.bind (readEntries? Tree.text?)

theorem Json.Tree.texts?_ofKeyMap (m : KeyMap String) :
    (Tree.ofKeyMap m).texts? = some m.toList := by
  have hread := readEntries?_textFields m.toList
  rw [textFields] at hread
  rw [texts?, Tree.ofKeyMap, Tree.entries?_ofMembers, Option.bind_some, hread]

/-- The members that say what content holds. -/
def Content.IsShownBy (c : Content) (fields : List Field) : Prop :=
  ∃ device modules : Tree .value,
    fields = [("deviceContent", device), ("modulesContent", modules)] ∧
    device.text = sentContent c.device ∧ modules.text = sentContent c.modules

/-- The members that say what a new configuration holds. -/
def ConfigurationDraft.IsShownBy (d : ConfigurationDraft) (fields : List Field) : Prop :=
  ∃ (id version labels content condition metrics queries : Tree .value) (priority : Number)
    (parts : List Field),
    fields = [("id", id), ("schemaVersion", version), ("labels", labels), ("content", content),
      ("targetCondition", condition), ("priority", .number priority), ("metrics", metrics)] ∧
    id.text? = some d.id ∧ version.text? = some "1.0" ∧
    labels.texts? = some d.labels.toList ∧
    (content.entries? = some parts ∧ d.content.IsShownBy parts) ∧
    condition.text? = some d.targetCondition ∧
    priority.integer? = some d.priority.toInt ∧
    metrics.entries? = some [("queries", queries)] ∧
    queries.texts? = some d.queries.toList

/-- The members that say what an update holds: after those of a configuration the mark of the
version, unless it is empty. -/
def ConfigurationUpdate.IsShownBy (u : ConfigurationUpdate) (fields : List Field) : Prop :=
  ∃ front, u.toConfigurationDraft.IsShownBy front ∧
    ((u.etag = "" ∧ fields = front) ∨
      ∃ etag : Tree .value, u.etag ≠ "" ∧ fields = front ++ [("etag", etag)] ∧
        etag.text? = some u.etag)

/-- The members that say what a check of queries holds. -/
def QueryTest.IsShownBy (t : QueryTest) (fields : List Field) : Prop :=
  ∃ condition queries : Tree .value,
    fields = [("targetCondition", condition), ("customMetricQueries", queries)] ∧
    condition.text? = some t.targetCondition ∧ queries.texts? = some t.queries.toList

/-! ### What is written shows what it says -/

theorem Content.exists_isShownBy {c : Content} {t : Tree .value} (h : c.tree = .ok t) :
    ∃ parts, t = .ofMembers parts ∧ (∀ m ∈ parts, m.2.IsText) ∧ c.IsShownBy parts := by
  obtain ⟨device, modules, hd, hm, rfl⟩ := Content.tree_eq_ok_iff.1 h
  refine ⟨_, rfl, ?_, device, modules, rfl, text_of_fragment? hd, text_of_fragment? hm⟩
  simp [isText_of_fragment? hd, isText_of_fragment? hm]

theorem Content.isShownBy_of_encode {c : Content} {s : String} (h : c.encode = .ok s) :
    HoldsMembers s c.IsShownBy := by
  obtain ⟨t, ht, rfl⟩ := Content.encode_eq_ok_iff.1 h
  obtain ⟨parts, rfl, htext, hshown⟩ := Content.exists_isShownBy ht
  exact holdsMembers_text htext hshown

/-- A written priority is the integer it was. -/
theorem integer?_ofInt_toInt (i : Int32) : (Number.ofInt i.toInt).integer? = some i.toInt := by
  have h1 := i.le_toInt
  have h2 := i.toInt_lt
  exact Number.integer?_ofInt (by omega) (by omega)

theorem ConfigurationDraft.isShownBy_members (d : ConfigurationDraft) {t : Tree .value}
    (h : d.content.tree = .ok t) : d.IsShownBy (d.members t) := by
  obtain ⟨parts, rfl, -, hshown⟩ := Content.exists_isShownBy h
  exact ⟨.ofText d.id, .ofText schemaVersion, .ofKeyMap d.labels, .ofMembers parts,
    .ofText d.targetCondition, .ofMembers [("queries", .ofKeyMap d.queries)], .ofKeyMap d.queries,
    .ofInt d.priority.toInt, parts, rfl, Tree.text?_ofText _, Tree.text?_ofText _,
    Tree.texts?_ofKeyMap _, ⟨Tree.entries?_ofMembers parts, hshown⟩, Tree.text?_ofText _,
    integer?_ofInt_toInt _, Tree.entries?_ofMembers _, Tree.texts?_ofKeyMap _⟩

/-- An update that is written shows what it says. -/
theorem ConfigurationUpdate.isShownBy_of_encode {u : ConfigurationUpdate} {s : String}
    (h : u.encode = .ok s) : HoldsMembers s u.IsShownBy := by
  obtain ⟨t, ht, rfl⟩ := ConfigurationUpdate.encode_eq_ok_iff.1 h
  refine holdsMembers_text (isText_of_mem_fields (Content.isText_of_tree ht)) ?_
  refine ⟨u.members t, u.toConfigurationDraft.isShownBy_members ht, ?_⟩
  rw [fields, etagMembers]
  by_cases hmark : u.etag = ""
  · rw [if_pos hmark, List.append_nil]
    exact Or.inl ⟨hmark, rfl⟩
  · rw [if_neg hmark]
    exact Or.inr ⟨_, hmark, rfl, Tree.text?_ofText u.etag⟩

theorem ConfigurationDraft.isShownBy_of_encode {d : ConfigurationDraft} {s : String}
    (h : d.encode = .ok s) : HoldsMembers s d.IsShownBy := by
  rw [ConfigurationUpdate.encode_draft] at h
  obtain ⟨hjson, doc, fields, hdoc, hentries, front, hshown, hmark⟩ :=
    ConfigurationUpdate.isShownBy_of_encode h
  refine ⟨hjson, doc, fields, hdoc, hentries, ?_⟩
  -- An update without a mark has no member beyond those of the configuration.
  rcases hmark with ⟨-, rfl⟩ | ⟨etag, hne, -, -⟩
  · exact hshown
  · exact absurd rfl hne

theorem QueryTest.isShownBy_encode (t : QueryTest) : HoldsMembers t.encode t.IsShownBy := by
  refine holdsMembers_text ?_ ⟨_, _, rfl, Tree.text?_ofText _, Tree.texts?_ofKeyMap _⟩
  simp [Tree.isText_ofText, Tree.isText_ofKeyMap]

/-- **Encoders accept exactly the right content, and no text changes the members.** -/
theorem Configuration.encode_exact :
    (AcceptsContent (fun c : Content => c) Content.encode ∧
      AcceptsContent ConfigurationDraft.content ConfigurationDraft.encode ∧
      AcceptsContent (fun u : ConfigurationUpdate => u.content) ConfigurationUpdate.encode) ∧
    (∀ (c : Content) (s : String), c.encode = .ok s → HoldsMembers s c.IsShownBy) ∧
    (∀ (d : ConfigurationDraft) (s : String), d.encode = .ok s → HoldsMembers s d.IsShownBy) ∧
    (∀ (u : ConfigurationUpdate) (s : String), u.encode = .ok s → HoldsMembers s u.IsShownBy) ∧
    ∀ t : QueryTest, HoldsMembers t.encode t.IsShownBy := by
  refine ⟨⟨?_, ?_, ?_⟩, ?_, ?_, ?_, ?_⟩
  · exact acceptsContent_of_map fun c => rfl
  · exact acceptsContent_of_map fun d => rfl
  · exact acceptsContent_of_map fun u => rfl
  · exact fun c s h => Content.isShownBy_of_encode h
  · exact fun d s h => ConfigurationDraft.isShownBy_of_encode h
  · exact fun u s h => ConfigurationUpdate.isShownBy_of_encode h
  · exact QueryTest.isShownBy_encode

/-- A text that would end the member it stands in and begin another. -/
def sampleSplice : String := "1,\"id\":2"

theorem Configuration.encode_exact_sample :
    (¬ IsFragment sampleSplice ∧
      Content.encode ⟨sampleSplice, "]"⟩ = .error (contentError "deviceContent")) ∧
    (IsFragment " " ∧ ¬ IsFragment "]" ∧
      Content.encode ⟨" ", "]"⟩ = .error (contentError "modulesContent")) ∧
    (sampleUpdate.content.encode = .ok sampleContent ∧
      HoldsMembers sampleContent sampleUpdate.content.IsShownBy) ∧
    (∃ s, sampleUpdate.toConfigurationDraft.encode = .ok s ∧
      HoldsMembers s sampleUpdate.toConfigurationDraft.IsShownBy) ∧
    ∃ s, sampleUpdate.encode = .ok s ∧ HoldsMembers s sampleUpdate.IsShownBy := by
  have hsplice : ¬ IsFragment sampleSplice := fragment?_eq_none_iff.1 (by decide)
  have hblank : IsFragment " " := Or.inl (List.all_eq_true.1 (by decide))
  have hbracket : ¬ IsFragment "]" := fragment?_eq_none_iff.1 (by decide)
  have hcontent := encode_sampleUpdate
  obtain ⟨⟨hc, hd, hu⟩, content, draft, update, -⟩ := Configuration.encode_exact
  have hfragments := (hc sampleUpdate.content).1.1 ⟨_, hcontent⟩
  obtain ⟨s, hs⟩ := (hd sampleUpdate.toConfigurationDraft).1.2 hfragments
  obtain ⟨s', hs'⟩ := (hu sampleUpdate).1.2 hfragments
  exact ⟨⟨hsplice, (hc ⟨sampleSplice, "]"⟩).2.1 hsplice⟩,
    ⟨hblank, hbracket, (hc ⟨" ", "]"⟩).2.2 hblank hbracket⟩,
    ⟨hcontent, content _ _ hcontent⟩, ⟨s, hs, draft _ _ hs⟩, ⟨s', hs', update _ _ hs'⟩⟩

end HubConfig
