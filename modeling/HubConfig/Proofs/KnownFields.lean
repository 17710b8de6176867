/-
**Fields of a record.**

A record is read in two steps: the members of an object are looked through for known names, and the
fields that are found are read one by one.  The first step sees names and no values, and what it
finds does not depend on the order of the members or on members with other names.  The second step
only ever looks a field up.

Main definitions:

* `recordOf?`: the members with a known name, if none comes twice;
* `KnownOnce`: no known name comes twice;
* `IsBodyOf`: a body is the text of an object with given members;
* `Configuration.ofMembers?`: the configuration that members report.

Main results:

* `recordOf?_cons_unknown`, `recordOf?_cons_known`, `recordOf?_cons_new`: what one member adds to a
  record;
* `exists_recordOf?`: members whose names are texts make a record, if no known name comes twice;
* `recordOf?_perm`: **the order of members does not matter**;
* `Configuration.ofFields?_congr`: what a configuration depends on;
* `Configuration.exists_ofFields?_iff`: when fields report a configuration;
* `Configuration.decode_of_isBodyOf`: **the configuration of a body is that of its members**.
-/

import HubConfig.Proofs.Cut
import HubConfig.Proofs.Nesting
import HubConfig.Proofs.ObjectMembers

set_option autoImplicit false

namespace HubConfig

namespace Json

/-! ### Records -/

/-- The fields of a record that members hold, out of those with a known name. -/
def recordOf? (known : List String) (ms : List Member) : Option (List Field) :=
  (fieldsOf? ms).bind fun fields =>
    let fields := fields.filter fun f => known.contains f.1
    if distinctNames fields then some fields else none

theorem Tree.fields?_of_members? {known : List String} {t : Tree .value} {ms : List Member}
    (h : t.members? = some ms) : t.fields? known = recordOf? known ms := by
  cases t with
  | emptyObject gap => cases h; rfl
  | object members =>
    cases h
    rw [fields?, recordOf?, members.named?_eq]
    rfl
  | _ => cases h

/-! ### Names that differ -/

theorem distinctNames_iff {fields : List Field} :
    distinctNames fields = true ↔ (fields.map Prod.fst).Nodup := by
  induction fields with
  | nil => simp [distinctNames]
  | cons f fields ih =>
    simp only [distinctNames, Bool.and_eq_true, Bool.not_eq_true', List.any_eq_false, ih,
      List.map_cons, List.nodup_cons, List.mem_map, beq_iff_eq, not_exists, not_and]

theorem lookup_eq_some_iff_mem {fields : List Field} (h : (fields.map Prod.fst).Nodup)
    {name : String} {t : Tree .value} : fields.lookup name = some t ↔ (name, t) ∈ fields := by
  induction fields with
  | nil => simp
  | cons f fields ih =>
    rw [List.map_cons, List.nodup_cons] at h
    rw [KeyMap.lookup_cons, List.mem_cons]
    split
    · next heq =>
      -- The name stands at the front and nowhere else.
      subst heq
      have hrest : (f.1, t) ∉ fields := fun hmem => h.1 (List.mem_map.2 ⟨_, hmem, rfl⟩)
      simp only [hrest, or_false, Option.some.injEq, Prod.ext_iff, true_and, eq_comm]
    · next hne =>
      have hfront : (name, t) ≠ f := fun heq => hne (congrArg Prod.fst heq)
      simp only [hfront, false_or, ih h.2]

/-- Fields whose names differ are found in any order. -/
theorem lookup_perm {fields fields' : List Field} (hperm : fields.Perm fields')
    (h : (fields.map Prod.fst).Nodup) (name : String) :
    fields.lookup name = fields'.lookup name := by
  have h' : (fields'.map Prod.fst).Nodup := (hperm.map _).nodup_iff.1 h
  refine Option.ext fun t => ?_
  rw [lookup_eq_some_iff_mem h, lookup_eq_some_iff_mem h', hperm.mem_iff]

/-! ### What one member adds -/

section

variable {known : List String} {key : Literal} {v : Tree .value} {ms : List Member} {name : String}

/-- A member whose name is not known adds nothing. -/
theorem recordOf?_cons_unknown (hname : key.text? = some name) (hknown : name ∉ known) :
    recordOf? known ((key, v) :: ms) = recordOf? known ms := by
  rw [recordOf?, recordOf?, fieldsOf?_cons hname]
  cases fieldsOf? ms with
  | none => rfl
  | some fields =>
    have hskip : ((name, v) :: fields).filter (fun f => known.contains f.1) =
        fields.filter fun f => known.contains f.1 :=
      List.filter_cons_of_neg fun h => hknown (List.contains_iff_mem.1 h)
    simp only [Option.map_some, Option.bind_some, hskip]

/-- A member whose name is known adds a field, unless that name comes again. -/
theorem recordOf?_cons_known (hname : key.text? = some name) (hknown : name ∈ known) :
    recordOf? known ((key, v) :: ms) = (recordOf? known ms).bind fun fields =>
      if fields.any (fun g => g.1 == name) then none else some ((name, v) :: fields) := by
  rw [recordOf?, recordOf?, fieldsOf?_cons hname]
  cases fieldsOf? ms with
  | none => rfl
  | some fields =>
    have htake : ((name, v) :: fields).filter (fun f => known.contains f.1) =
        (name, v) :: fields.filter fun f => known.contains f.1 :=
      List.filter_cons_of_pos (List.contains_iff_mem.2 hknown)
    simp only [Option.map_some, Option.bind_some, htake, distinctNames]
    generalize fields.filter (fun f => known.contains f.1) = found
    cases distinctNames found with
    | false => rw [Bool.and_false]; rfl
    | true =>
      rw [Bool.and_true, if_pos rfl, Option.bind_some]
      cases found.any (fun g => g.1 == name) <;> rfl

theorem nodup_of_recordOf? {fields : List Field} (h : recordOf? known ms = some fields) :
    (fields.map Prod.fst).Nodup := by
  obtain ⟨all, -, h⟩ := Option.bind_eq_some_iff.1 h
  dsimp only at h
  split at h
  · next hdistinct =>
    cases h
    exact distinctNames_iff.1 hdistinct
  · cases h

end

/-! ### Names that are texts -/

/-- No known name comes twice. -/
def KnownOnce (known : List String) (ms : List Member) : Prop :=
  ms.Pairwise fun m m' => ∀ name ∈ known, m.1.text? = some name → m'.1.text? ≠ some name

/-- A record holds what stands under the known names. -/
theorem mem_recordOf?_iff {known : List String} {ms : List Member} {fields : List Field}
    (h : recordOf? known ms = some fields) {name : String} {t : Tree .value} :
    (name, t) ∈ fields ↔ name ∈ known ∧ HasMember ms name t := by
  obtain ⟨all, hall, h⟩ := Option.bind_eq_some_iff.1 h
  dsimp only at h
  split at h
  · cases h
    rw [List.mem_filter, mem_fieldsOf?_iff hall, List.contains_iff_mem, and_comm]
  · cases h

/-- A member with a known name that is not there yet adds a field. -/
theorem recordOf?_cons_new {known : List String} {key : Literal} {v : Tree .value}
    {ms : List Member} {name : String} (hname : key.text? = some name) (hknown : name ∈ known)
    (hnew : ∀ t, ¬HasMember ms name t) :
    recordOf? known ((key, v) :: ms) = (recordOf? known ms).map ((name, v) :: ·) := by
  rw [recordOf?_cons_known hname hknown]
  cases h : recordOf? known ms with
  | none => rfl
  | some fields =>
    have hany : fields.any (fun g => g.1 == name) = false := by
      rw [List.any_eq_false]
      rintro ⟨other, t⟩ hg heq
      obtain rfl : other = name := beq_iff_eq.1 heq
      exact hnew t ((mem_recordOf?_iff h).1 hg).2
    rw [Option.bind_some, hany]
    rfl

/-- **Members whose names are texts make a record**, if no known name comes twice. -/
theorem exists_recordOf? {known : List String} {ms : List Member} (hnames : NamesAreTexts ms)
    (honce : KnownOnce known ms) : ∃ fields, recordOf? known ms = some fields := by
  induction ms with
  | nil => exact ⟨[], rfl⟩
  | cons m ms ih =>
    obtain ⟨key, v⟩ := m
    obtain ⟨hfront, honce⟩ := List.pairwise_cons.1 honce
    obtain ⟨name, hname⟩ := hnames (key, v) List.mem_cons_self
    obtain ⟨fields, hfields⟩ := ih (fun m hm => hnames m (List.mem_cons_of_mem _ hm)) honce
    by_cases hknown : name ∈ known
    · have hnew : ∀ t, ¬HasMember ms name t := by
        rintro t ⟨key', hkey', hmem⟩
        exact hfront _ hmem name hknown hname hkey'
      exact ⟨(name, v) :: fields, by rw [recordOf?_cons_new hname hknown hnew, hfields]; rfl⟩
    · exact ⟨fields, by rw [recordOf?_cons_unknown hname hknown, hfields]⟩

/-- What a record holds under a known name is what stands there. -/
theorem lookup_recordOf?_iff {known : List String} {ms : List Member} {fields : List Field}
    (h : recordOf? known ms = some fields) {name : String} (hname : name ∈ known)
    {t : Tree .value} : fields.lookup name = some t ↔ HasMember ms name t := by
  rw [lookup_eq_some_iff_mem (nodup_of_recordOf? h), mem_recordOf?_iff h]
  exact and_iff_right hname

/-! ### The order of members -/

/-- **The order of members does not matter**: the same fields are found in another order. -/
theorem recordOf?_perm {known : List String} {ms ms' : List Member} (hperm : ms.Perm ms')
    {fields : List Field} (h : recordOf? known ms = some fields) :
    ∃ fields', recordOf? known ms' = some fields' ∧ fields.Perm fields' := by
  have hdistinct := nodup_of_recordOf? h
  obtain ⟨all, hall, h⟩ := Option.bind_eq_some_iff.1 h
  obtain ⟨all', hall', hperm⟩ := fieldsOf?_perm hperm hall
  dsimp only at h
  split at h
  · cases h
    have hfound := hperm.filter fun f => known.contains f.1
    have hdistinct' := distinctNames_iff.2 ((hfound.map _).nodup_iff.1 hdistinct)
    exact ⟨_, by rw [recordOf?, hall', Option.bind_some]; exact if_pos hdistinct', hfound⟩
  · cases h

/-- A reader that only looks fields up reads the same in any order. -/
theorem bind_recordOf?_perm {α : Type} {read : List Field → Option α}
    (hread : ∀ fields fields' : List Field, (∀ name, fields.lookup name = fields'.lookup name) →
      read fields = read fields')
    {known : List String} {ms ms' : List Member} (hperm : ms.Perm ms') :
    (recordOf? known ms).bind read = (recordOf? known ms').bind read := by
  cases h : recordOf? known ms with
  | some fields =>
    obtain ⟨fields', h', hfields⟩ := recordOf?_perm hperm h
    rw [h', Option.bind_some, Option.bind_some]
    exact hread _ _ (lookup_perm hfields (nodup_of_recordOf? h))
  | none =>
    cases h' : recordOf? known ms' with
    | none => rfl
    | some fields' =>
      obtain ⟨fields, hfields, -⟩ := recordOf?_perm hperm.symm h'
      rw [h] at hfields
      cases hfields

end Json

open HubConfig.Json

/-! ### What a configuration depends on -/

/-- The fields of a configuration that are texts. -/
def textNames : List String :=
  ["id", "schemaVersion", "contentType", "targetCondition", "createdTimeUtc", "lastUpdatedTimeUtc",
    "etag"]

/-- The fields of a configuration that are metrics. -/
def metricsNames : List String := ["systemMetrics", "metrics"]

/-- The names that content knows. -/
def contentFields : List String := ["deviceContent", "modulesContent"]

/-- The names that metrics know. -/
def metricsFields : List String := ["results", "queries"]

theorem mem_valueFields_of_mem_textNames : ∀ name ∈ textNames, name ∈ valueFields := by decide

theorem mem_configurationFields_of_mem_valueFields :
    ∀ name ∈ valueFields, name ∈ configurationFields := by decide

theorem mem_configurationFields_of_mem_metricsNames :
    ∀ name ∈ metricsNames, name ∈ configurationFields := by decide

/-- A field that is read as a text. -/
def textField? (nesting : Nat) (fields : List Field) (name : String) : Option String :=
  (valueField? nesting fields name).map textOfValue

/-- The field that is read as a priority. -/
def priorityField? (nesting : Nat) (fields : List Field) : Option Int32 :=
  (valueField? nesting fields "priority").map priorityOfValue

/-- The field that is read as labels. -/
def labelsField? (nesting : Nat) (fields : List Field) : Option (KeyMap String) :=
  (valueField? nesting fields "labels").map labelsOfValue

namespace Configuration

variable {n n' : Nat} {fields fields' : List Field}

/-- A configuration is read field by field. -/
theorem ofFields?_eq (nesting : Nat) (fields : List Field) :
    ofFields? nesting fields = (do
      let id ← textField? nesting fields "id"
      let schemaVersion ← textField? nesting fields "schemaVersion"
      let contentType ← textField? nesting fields "contentType"
      let targetCondition ← textField? nesting fields "targetCondition"
      let createdTimeUtc ← textField? nesting fields "createdTimeUtc"
      let lastUpdatedTimeUtc ← textField? nesting fields "lastUpdatedTimeUtc"
      let etag ← textField? nesting fields "etag"
      let priority ← priorityField? nesting fields
      let content ← contentField? fields "content"
      let labels ← labelsField? nesting fields
      let systemMetrics ← metricsField? fields "systemMetrics"
      let metrics ← metricsField? fields "metrics"
      some ⟨id, schemaVersion, targetCondition, etag, contentType, createdTimeUtc,
        lastUpdatedTimeUtc, priority, content, labels, systemMetrics, metrics⟩) := by
  simp only [textField?, priorityField?, labelsField?, Option.bind_eq_bind, Option.bind_map]
  rfl

/-- What a configuration depends on. -/
theorem ofFields?_congr
    (htext : ∀ name ∈ textNames, textField? n fields name = textField? n' fields' name)
    (hpriority : priorityField? n fields = priorityField? n' fields')
    (hcontent : contentField? fields "content" = contentField? fields' "content")
    (hlabels : labelsField? n fields = labelsField? n' fields')
    (hmetrics : ∀ name ∈ metricsNames, metricsField? fields name = metricsField? fields' name) :
    ofFields? n fields = ofFields? n' fields' := by
  simp only [textNames, List.forall_mem_cons] at htext
  simp only [metricsNames, List.forall_mem_cons] at hmetrics
  obtain ⟨h1, h2, h3, h4, h5, h6, h7, -⟩ := htext
  obtain ⟨h8, h9, -⟩ := hmetrics
  simp only [ofFields?_eq, h1, h2, h3, h4, h5, h6, h7, hpriority, hcontent, hlabels, h8, h9]

theorem ofFields?_of_lookup (h : ∀ name, fields.lookup name = fields'.lookup name) :
    ofFields? n fields = ofFields? n fields' := by
  refine ofFields?_congr ?_ ?_ ?_ ?_ ?_
  · intro name _
    rw [textField?, textField?, valueField?, valueField?, h]
  · rw [priorityField?, priorityField?, valueField?, valueField?, h]
  · rw [contentField?, contentField?, h]
  · rw [labelsField?, labelsField?, valueField?, valueField?, h]
  · intro name _
    rw [metricsField?, metricsField?, optionalField?, optionalField?, h]

/-- The priority of a configuration is that of its field. -/
theorem priorityField?_of_ofFields? {c : Configuration} (h : ofFields? n fields = some c) :
    priorityField? n fields = some c.priority := by
  obtain ⟨_, _, _, _, _, _, _, priority, _, _, _, _, -, -, -, -, -, -, -, hpriority, -, -, -, -, rfl⟩ :=
    ofFields?_eq_some_iff.1 h
  rw [priorityField?, hpriority]
  rfl

/-- The content of a configuration is that of its field. -/
theorem contentField?_of_ofFields? {c : Configuration} (h : ofFields? n fields = some c) :
    contentField? fields "content" = some c.content := by
  obtain ⟨_, _, _, _, _, _, _, _, _, _, _, _, -, -, -, -, -, -, -, -, hcontent, -, -, -, rfl⟩ :=
    ofFields?_eq_some_iff.1 h
  exact hcontent

/-- When fields report a configuration. -/
theorem exists_ofFields?_iff :
    (∃ c, ofFields? n fields = some c) ↔
      (∀ name ∈ valueFields, ∃ v, valueField? n fields name = some v) ∧
        (∃ content, contentField? fields "content" = some content) ∧
        ∀ name ∈ metricsNames, ∃ metrics, metricsField? fields name = some metrics := by
  simp only [metricsNames, List.forall_mem_cons, List.not_mem_nil]
  constructor
  · rintro ⟨c, h⟩
    obtain ⟨_, _, _, _, _, _, _, _, _, _, own, metrics, -, -, -, -, -, -, -, -, -, -, hown, hmetrics,
      -⟩ := ofFields?_eq_some_iff.1 h
    exact ⟨fun name hname => exists_valueField? h hname, ⟨_, contentField?_of_ofFields? h⟩,
      ⟨own, hown⟩, ⟨metrics, hmetrics⟩, fun _ => False.elim⟩
  · simp only [valueFields, List.forall_mem_cons]
    rintro ⟨⟨⟨id, hid⟩, ⟨version, hversion⟩, ⟨type, htype⟩, ⟨condition, hcondition⟩, ⟨made, hmade⟩,
      ⟨changed, hchanged⟩, ⟨etag, hetag⟩, ⟨priority, hpriority⟩, ⟨labels, hlabels⟩, -⟩,
      ⟨content, hcontent⟩, ⟨own, hown⟩, ⟨metrics, hmetrics⟩, -⟩
    exact ⟨_, ofFields?_eq_some_iff.2 ⟨id, version, type, condition, made, changed, etag, priority,
      content, labels, own, metrics, hid, hversion, htype, hcondition, hmade, hchanged, hetag,
      hpriority, hcontent, hlabels, hown, hmetrics, rfl⟩⟩

end Configuration

/-! ### Bodies of members -/

/-- A body is the text of an object with given members, whatever the gaps. -/
def IsBodyOf (body : Bytes) (ms : List Member) : Prop :=
  ∃ d : Document, Glyph.ofBytes body = d.print ∧ d.value.members? = some ms

/-- Members in which no stray byte stands have a body. -/
theorem exists_isBodyOf {ms : List Member} (h : ∀ m ∈ ms, IsTextMember m) :
    ∃ body, IsBodyOf body ms := by
  have htext : (Tree.objectOf ms).IsText :=
    (Tree.isText_iff_of_members? (Tree.members?_objectOf ms)).2 h
  refine ⟨utf8Bytes (Tree.objectOf ms).text.toList, Document.ofTree (Tree.objectOf ms), ?_,
    Tree.members?_objectOf ms⟩
  rw [Glyph.ofBytes_utf8Bytes, Tree.map_some_text htext, Document.print_ofTree]

namespace Configuration

/-- The configuration that the members of a body report. -/
def ofMembers? (ms : List Member) : Option Configuration :=
  (recordOf? configurationFields ms).bind (ofFields? (maxNesting - 1))

/-- The error about a body that cannot be read. -/
def bodyError : Error := ⟨.json, "failed to decode configuration", [.foreign]⟩

/-- **The configuration of a body is that of its members.** -/
theorem decode_of_isBodyOf {body : Bytes} {ms : List Member} (h : IsBodyOf body ms) :
    decode body =
      match ofMembers? ms with
      | some c => .ok c
      | none => .error bodyError := by
  obtain ⟨d, h, hms⟩ := h
  rw [decode, isBlankBody_of_print h, if_neg Bool.false_ne_true, readBody,
    Document.parse?_eq_some_iff.2 h, Option.bind_some, ofTree?, Tree.fields?_of_members? hms,
    ← ofMembers?]
  cases ofMembers? ms <;> rfl

/-- What is read of a body is read of its fields. -/
theorem exists_fields_of_decode {body : Bytes} {ms : List Member} {c : Configuration}
    (hbody : IsBodyOf body ms) (h : decode body = .ok c) :
    ∃ fields, recordOf? configurationFields ms = some fields ∧
      ofFields? (maxNesting - 1) fields = some c := by
  rw [decode_of_isBodyOf hbody] at h
  cases hread : ofMembers? ms with
  | none =>
    rw [hread] at h
    cases h
  | some c' =>
    rw [hread] at h
    cases h
    exact Option.bind_eq_some_iff.1 hread

end Configuration

end HubConfig
